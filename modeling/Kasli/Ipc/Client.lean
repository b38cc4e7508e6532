import Kasli.Ipc.Framing

/-! A request over a socket (`request_over_unix_socket` of `ipc/unix_socket.cpp`). What the
system calls come to is a parameter. A failed `connect` has an exception of its own, which says
that nothing was written. -/

namespace Kasli.Ipc

/-- The longest path of a socket and its end (`sizeof(sun_path)`). -/
def addressPathBytes : ℕ := 108

/-- What is thrown by a request. -/
inductive RequestError
  | connect (errorNumber : ℤ)
  | other (what : Bytes)
  deriving DecidableEq

/-- What the system calls of a request come to: an error text each, `errno` of the `connect`, and
the calls of `send` and `read`. -/
structure ClientCalls where
  socket : Option Bytes
  receiveTimeout : Option Bytes
  sendTimeout : Option Bytes
  connect : Option ℤ
  sends : List SendResult
  reads : List ReadResult

/-- A step before the connection, which throws when its call fails. -/
def check (operation : Bytes) (error : Option Bytes) : Except RequestError Unit :=
  match error with
  | none => .ok ()
  | some text => .error (.other (operation ++ ascii " failed: " ++ text))

/-- `make_address` -/
def makeAddress (socketPath : Bytes) : Except RequestError Unit :=
  if socketPath.length ≥ addressPathBytes then
    .error (.other (ascii "unix socket path is too long: " ++ socketPath))
  else .ok ()

/-- The socket is made and connected. -/
def connectClient (calls : ClientCalls) (socketPath : Bytes) : Except RequestError Unit := do
  check (ascii "socket") calls.socket
  check (ascii "setsockopt SO_RCVTIMEO") calls.receiveTimeout
  check (ascii "setsockopt SO_SNDTIMEO") calls.sendTimeout
  makeAddress socketPath
  match calls.connect with
  | none => return
  | some errorNumber => throw (.connect errorNumber)

/-- How a function over a socket ends for the request, if it does. -/
def Outcome.ended {α : Type} : Outcome α → Option (Except RequestError α)
  | .returned value => some (.ok value)
  | .threw what => some (.error (.other what))
  | .waiting => none

/-- `request_over_unix_socket`: what is written, and how it ends when it does. -/
def requestOverUnixSocket (calls : ClientCalls) (socketPath request : Bytes) :
    Bytes × Option (Except RequestError Bytes) :=
  match connectClient calls socketPath with
  | .error error => ([], some (.error error))
  | .ok () =>
    let (written, outcome) := writeLine calls.sends request
    match outcome with
    | .returned () => (written, (readLine (ascii "response") calls.reads).ended)
    | .threw what => (written, some (.error (.other what)))
    | .waiting => (written, none)

theorem Outcome.ended_ne_connect {α : Type} (outcome : Outcome α) (errorNumber : ℤ) :
    outcome.ended ≠ some (.error (.connect errorNumber)) := by
  cases outcome with
  | returned value => simp [ended]
  | threw what => simp [ended]
  | waiting => simp [ended]

/-- A request that fails to connect has written nothing. -/
theorem written_of_connect_error {calls : ClientCalls} {socketPath request : Bytes}
    {errorNumber : ℤ} (h : (requestOverUnixSocket calls socketPath request).2 =
      some (.error (.connect errorNumber))) :
    (requestOverUnixSocket calls socketPath request).1 = [] := by
  rw [requestOverUnixSocket] at h ⊢
  cases hconnect : connectClient calls socketPath with
  | error error => rfl
  | ok _ =>
    rw [hconnect] at h
    dsimp only at h
    cases houtcome : (writeLine calls.sends request).2 with
    | returned _ =>
      rw [houtcome] at h
      exact absurd h (Outcome.ended_ne_connect _ _)
    | threw what =>
      rw [houtcome] at h
      cases h
    | waiting =>
      rw [houtcome] at h
      cases h

end Kasli.Ipc
