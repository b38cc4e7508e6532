import Kasli.Ipc.Framing

/-! The server's side of a connection (`UnixSocketServer::accept_one` of `ipc/unix_socket.cpp`) up
to its request: a client is waited for, its socket prepared, its user compared with the server's,
and a line read. What the system calls come to is a parameter. -/

namespace Kasli.Ipc

/-- What a call of `accept` comes to: a client, `EINTR`, `EAGAIN` or `EWOULDBLOCK`, or another
error. -/
inductive AcceptResult
  | accepted
  | again
  | failed (error : Bytes)
  deriving DecidableEq

/-- What `getsockopt` says of the client's user: whether all of it was given, and who it is. -/
inductive PeerCredentials
  | failed (error : Bytes)
  | given (whole : Bool) (uid : ℕ)
  deriving DecidableEq

/-- What the system calls of a connection come to. -/
structure ConnectionCalls where
  accepts : List AcceptResult
  receiveTimeout : Option Bytes
  sendTimeout : Option Bytes
  peer : PeerCredentials
  reads : List ReadResult
  sends : List SendResult

/-- The loop around `accept`. -/
def acceptClient : List AcceptResult → Outcome Unit
  | [] => .waiting
  | .again :: script => acceptClient script
  | .failed error :: _ => .threw (ascii "accept failed: " ++ error)
  | .accepted :: _ => .returned ()

/-- `prepare_connected_socket` -/
def prepareConnectedSocket (calls : ConnectionCalls) : Except Bytes Unit :=
  match calls.receiveTimeout, calls.sendTimeout with
  | some error, _ => .error (ascii "setsockopt SO_RCVTIMEO failed: " ++ error)
  | none, some error => .error (ascii "setsockopt SO_SNDTIMEO failed: " ++ error)
  | none, none => .ok ()

def peerNotAllowed : Bytes := ascii "unix socket peer uid is not allowed"

/-- `validate_same_uid_peer`, for a server of the user `euid` -/
def validateSameUidPeer (euid : ℕ) : PeerCredentials → Except Bytes Unit
  | .failed error => .error (ascii "getsockopt SO_PEERCRED failed: " ++ error)
  | .given whole uid => if whole = false ∨ uid ≠ euid then .error peerNotAllowed else .ok ()

theorem validateSameUidPeer_eq_ok {euid : ℕ} {peer : PeerCredentials} :
    validateSameUidPeer euid peer = .ok () ↔ peer = .given true euid := by
  cases peer with
  | failed error => simp [validateSameUidPeer]
  | given whole uid =>
    rw [validateSameUidPeer]
    split_ifs with hother
    · refine iff_of_false nofun fun h => ?_
      obtain ⟨rfl, rfl⟩ := PeerCredentials.given.inj h
      simp at hother
    · rw [not_or, Bool.not_eq_false, not_not] at hother
      exact iff_of_true rfl (by rw [hother.1, hother.2])

/-- The request of a connection, as far as `accept_one` comes to have one. -/
def acceptRequest (euid : ℕ) (calls : ConnectionCalls) : Outcome Bytes :=
  match acceptClient calls.accepts with
  | .waiting => .waiting
  | .threw what => .threw what
  | .returned () =>
    match prepareConnectedSocket calls with
    | .error what => .threw what
    | .ok () =>
      match validateSameUidPeer euid calls.peer with
      | .error what => .threw what
      | .ok () => readLine (ascii "request") calls.reads

/-- The line that is handed to the handler. -/
def request? (euid : ℕ) (calls : ConnectionCalls) : Option Bytes :=
  match acceptRequest euid calls with
  | .returned line => some line
  | _ => none

section

variable {euid : ℕ} {calls : ConnectionCalls} {line : Bytes}

theorem request?_eq_some : request? euid calls = some line ↔
    acceptRequest euid calls = .returned line := by
  rw [request?]
  cases acceptRequest euid calls with
  | returned line' => simp
  | threw what => simp
  | waiting => simp

/-- A line is handed over only from a client of the server's own user, and it was read whole. -/
theorem of_request? (h : request? euid calls = some line) :
    calls.peer = .given true euid ∧ readLine (ascii "request") calls.reads = .returned line := by
  have hreturned := request?_eq_some.mp h
  rw [acceptRequest] at hreturned
  cases haccept : acceptClient calls.accepts with
  | waiting => simp [haccept] at hreturned
  | threw what => simp [haccept] at hreturned
  | returned _ =>
    rw [haccept] at hreturned
    cases hprepare : prepareConnectedSocket calls with
    | error what => simp [hprepare] at hreturned
    | ok _ =>
      rw [hprepare] at hreturned
      cases hvalid : validateSameUidPeer euid calls.peer with
      | error what => simp [hvalid] at hreturned
      | ok _ =>
        rw [hvalid] at hreturned
        exact ⟨validateSameUidPeer_eq_ok.mp hvalid, hreturned⟩

end

/-! ### Whole lines -/

section

variable {role payload : Bytes} {script : List SendResult} {reads : List ReadResult}

/-- With room for it a line is written whole. -/
theorem writeLine_of_proceeds (hnot : chr '\n' ∉ payload)
    (hlen : payload.length ≤ maxUnixSocketLineBytes) (h : ∀ r ∈ script, r.Proceeds)
    (hroom : payload.length < capacity script) :
    writeLine script payload = (payload ++ [chr '\n'], .returned ()) := by
  have hall : (payload ++ [chr '\n']).length ≤ capacity script := by
    rw [List.length_append, List.length_singleton]
    omega
  rw [writeLine, if_neg (by omega), if_neg hnot, writeAll_of_proceeds h, if_pos hall,
    List.take_of_length_le hall]

theorem readLine_of_arrived (hnot : chr '\n' ∉ payload)
    (hlen : payload.length ≤ maxUnixSocketLineBytes) (h : arrived reads = payload ++ [chr '\n']) :
    readLine role reads = .returned payload := by
  have hline : firstLine (arrived reads) = payload := by
    rw [h]
    exact firstLine_append hnot
  rw [readLine_eq, hline, if_neg (by omega), if_pos (by simp [h])]

/-- What is read is a line at the start of what arrived. -/
theorem isPrefix_of_readLine (h : readLine role reads = .returned payload) :
    payload ++ [chr '\n'] <+: arrived reads ∧ chr '\n' ∉ payload := by
  rw [readLine_eq] at h
  split_ifs at h with hlong hmem
  · obtain rfl := Outcome.returned.inj h
    exact ⟨firstLine_isPrefix hmem, notMem_firstLine _⟩
  · exact absurd h (ending_not_returned role reads payload)

end

section

variable {script : List SendResult} (h : ∃ error, .failed error ∈ script)

include h

/-- Writing ends with the first call that fails, if not before. -/
theorem writeAll_ends (data : Bytes) : (writeAll script data).2 ≠ .waiting := by
  induction script generalizing data with
  | nil =>
    obtain ⟨error, herror⟩ := h
    cases herror
  | cons r script ih =>
    have hrest : (∀ error, r ≠ .failed error) → ∃ error, .failed error ∈ script := fun hr => by
      obtain ⟨error, herror⟩ := h
      exact ⟨error, (List.mem_cons.mp herror).resolve_left fun heq => hr error heq.symm⟩
    by_cases hdata : data = []
    · simp [writeAll, hdata]
    cases r with
    | failed error => simp [writeAll, hdata]
    | interrupted =>
      simp only [writeAll, if_neg hdata]
      exact ih (hrest fun error heq => by cases heq) data
    | wrote count =>
      by_cases hzero : count = 0
      · simp [writeAll, hdata, hzero]
      · simp only [writeAll, if_neg hdata, if_neg hzero]
        exact ih (hrest fun error heq => by cases heq) (data.drop count)

theorem writeLine_ends (data : Bytes) : (writeLine script data).2 ≠ .waiting := by
  rw [writeLine]
  split_ifs
  · intro heq
    cases heq
  · intro heq
    cases heq
  · exact writeAll_ends h _

end

end Kasli.Ipc
