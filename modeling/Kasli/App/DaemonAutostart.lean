import Kasli.Effect.Run
import Kasli.Ipc.Client

/-! Starting the daemon for a request (`app/daemon_autostart.cpp`). What the injected parts come to
may depend on all that happened before. Every attempt, look, sleep and start is an action of the
history, so a run tells how often each was made and what came after it. -/

namespace Kasli.App

open Ipc Run

def startCommand : Bytes := ascii "systemctl --user start kaslid"
def statusCommand : Bytes := ascii "systemctl --user status kaslid"

def noEntry : ℤ := 2
def connectionRefused : ℤ := 111

/-- In milliseconds. -/
def maxWait : ℕ := 2000
def pollInterval : ℕ := 100

/-- What the client does, with what it comes to. -/
inductive Action
  | attempt (outcome : Except RequestError Bytes)
  | start (result : ℤ)
  | look (there : Bool)
  | sleep (duration : ℕ)

/-- The injected parts, and the texts of the system's errors. -/
structure DaemonAutostartDeps where
  request : Bytes → Bytes → List Action → Except RequestError Bytes
  startUserService : List Action → ℤ
  socketExists : Bytes → List Action → Bool
  strerror : ℤ → Bytes

/-- What is computed for a client. -/
abbrev Client (α : Type) := Run Action RequestError α

def isStartableDefaultSocketError (errorNumber : ℤ) : Bool :=
  errorNumber = noEntry || errorNumber = connectionRefused

def isSocketNotReadyError (errorNumber : ℤ) : Bool :=
  errorNumber = noEntry || errorNumber = connectionRefused

def daemonStartError (reason : Bytes) : RequestError :=
  .other (reason ++ ascii ". Inspect daemon status with: " ++ statusCommand)

section Client

variable (deps : DaemonAutostartDeps) (socketPath request : Bytes)

def connectErrorText (errorNumber : ℤ) : Bytes :=
  ascii "connect failed: " ++ deps.strerror errorNumber

def attempt : Client Bytes := do
  let outcome ← ask fun σ => .ok (deps.request socketPath request σ)
  emit (.attempt outcome)
  match outcome with
  | .ok answer => return answer
  | .error error => throw error

def look : Client Bool := do
  let there ← ask fun σ => .ok (deps.socketExists socketPath σ)
  emit (.look there)
  return there

def start : Client ℤ := do
  let result ← ask fun σ => .ok (deps.startUserService σ)
  emit (.start result)
  return result

/-- An attempt after the start: an answer, or what is said of a socket that is not ready. -/
def attemptAfterStart : Client (Except Bytes Bytes) :=
  tryCatch (do return .ok (← attempt deps socketPath request)) fun error =>
    match error with
    | .connect errorNumber =>
      if isSocketNotReadyError errorNumber then
        return .error (connectErrorText deps errorNumber)
      else throw (.connect errorNumber)
    | .other what => throw (.other what)

def notReadyError (lastError : Bytes) : RequestError :=
  daemonStartError (ascii "kaslid socket was not ready at " ++ socketPath ++ ascii " after `" ++
    startCommand ++ ascii "`: " ++ lastError)

/-- One round of the loop before the sleep. -/
def poll (lastError : Bytes) : Client (Except Bytes Bytes) := do
  if ← look deps socketPath then attemptAfterStart deps socketPath request
  else return .error lastError

/-- The loop of `request_after_start`, entered after waiting for a time. -/
def waitFrom (waited : ℕ) (lastError : Bytes) : Client Bytes :=
  if waited ≤ maxWait then do
    match ← poll deps socketPath request lastError with
    | .ok answer => return answer
    | .error lastError =>
      if waited = maxWait then throw (notReadyError socketPath lastError)
      else
        let sleepDuration := min pollInterval (maxWait - waited)
        emit (.sleep sleepDuration)
        waitFrom (waited + sleepDuration) lastError
  else throw (notReadyError socketPath lastError)
termination_by maxWait + 1 - waited
decreasing_by
  rw [pollInterval]
  omega

def requestAfterStart : Client Bytes :=
  waitFrom deps socketPath request 0 (ascii "socket path did not appear")

def startFailedError (firstError : Bytes) : RequestError :=
  daemonStartError (ascii "failed to run `" ++ startCommand ++
    ascii "` after initial request error: " ++ firstError)

def requestWithOptionalUserServiceStart (allowAutostart : Bool) : Client Bytes :=
  tryCatch (attempt deps socketPath request) fun error =>
    match error with
    | .connect errorNumber =>
      if !allowAutostart || !isStartableDefaultSocketError errorNumber then
        throw (.connect errorNumber)
      else do
        let startResult ← start deps
        if startResult ≠ 0 then
          throw (startFailedError (connectErrorText deps errorNumber))
        else requestAfterStart deps socketPath request
    | .other what => throw (.other what)

/-! ### What one part does -/

variable {deps : DaemonAutostartDeps} {socketPath request : Bytes} {σ s : List Action}

theorem run_attempt : (attempt deps socketPath request).run σ =
    ([.attempt (deps.request socketPath request σ)], deps.request socketPath request σ) := by
  rw [attempt, run_ask_bind]
  cases deps.request socketPath request σ with
  | ok answer => rfl
  | error error => rfl

theorem run_look : (look deps socketPath).run σ =
    ([.look (deps.socketExists socketPath σ)], .ok (deps.socketExists socketPath σ)) := rfl

theorem run_start : (start deps).run σ =
    ([.start (deps.startUserService σ)], .ok (deps.startUserService σ)) := rfl

end Client

/-! ### Attempts that get past connecting -/

/-- The request may have been written. -/
def pastConnecting : Except RequestError Bytes → Bool
  | .error (.connect _) => false
  | _ => true

/-- An attempt that gets past connecting is the last action, and what it comes to is the result. -/
def EndsWithPast (s : List Action) (r : Except RequestError Bytes) : Prop :=
  ∀ before outcome after, s = before ++ .attempt outcome :: after →
    pastConnecting outcome = true → after = [] ∧ r = outcome

def Action.isPast : Action → Bool
  | .attempt outcome => pastConnecting outcome
  | _ => false

section Past

variable {a : Action} {s : List Action} {r : Except RequestError Bytes}

theorem endsWithPast_nil : EndsWithPast [] r := by
  intro before outcome after h
  simp at h

theorem endsWithPast_singleton (outcome : Except RequestError Bytes) :
    EndsWithPast [.attempt outcome] outcome := by
  intro before outcome' after h _
  cases before with
  | nil =>
    obtain ⟨hattempt, rfl⟩ := List.cons.inj h
    exact ⟨rfl, Action.attempt.inj hattempt⟩
  | cons b before => simp at h

theorem EndsWithPast.cons (h : EndsWithPast s r) (ha : a.isPast = false) :
    EndsWithPast (a :: s) r := by
  intro before outcome after heq hpast
  cases before with
  | nil =>
    obtain ⟨rfl, -⟩ := List.cons.inj heq
    rw [Action.isPast, hpast] at ha
    cases ha
  | cons b before =>
    obtain ⟨-, heq⟩ := List.cons.inj heq
    exact h before outcome after heq hpast

theorem EndsWithPast.append {p : List Action} (h : EndsWithPast s r)
    (hp : ∀ a ∈ p, a.isPast = false) : EndsWithPast (p ++ s) r := by
  induction p with
  | nil => exact h
  | cons a p ih =>
    rw [List.forall_mem_cons] at hp
    exact (ih hp.2).cons hp.1

theorem EndsWithPast.countP_le (h : EndsWithPast s r) : s.countP Action.isPast ≤ 1 := by
  induction s with
  | nil => exact Nat.zero_le 1
  | cons a s ih =>
    have htail : EndsWithPast s r := fun before outcome after heq =>
      h (a :: before) outcome after (by rw [heq]; rfl)
    cases ha : a.isPast with
    | false =>
      rw [List.countP_cons_of_neg (by simp [ha])]
      exact ih htail
    | true =>
      cases a with
      | attempt outcome =>
        obtain ⟨rfl, -⟩ := h [] outcome s rfl ha
        exact List.countP_le_length
      | start result => cases ha
      | look there => cases ha
      | sleep duration => cases ha

end Past

/-! ### After the start -/

def Action.isAttempt : Action → Bool
  | .attempt _ => true
  | _ => false

def Action.isStart : Action → Bool
  | .start _ => true
  | _ => false

def Action.slept : Action → ℕ
  | .sleep duration => duration
  | _ => 0

/-- The time slept. -/
def totalSleep (s : List Action) : ℕ := (s.map Action.slept).sum

def attemptCount (s : List Action) : ℕ := s.countP Action.isAttempt

/-- What is done in a number of rounds and sleeps, with how it ends. -/
structure Waits (rounds sleep : ℕ) (s : List Action) (r : Except RequestError Bytes) : Prop where
  past : EndsWithPast s r
  notStarted : ∀ a ∈ s, a.isStart = false
  sleep : totalSleep s ≤ sleep
  attempts : attemptCount s ≤ rounds
  length : s.length + 1 ≤ 3 * rounds

/-- What is done in one round before its sleep. -/
structure Polls (s : List Action) : Prop where
  notStarted : ∀ a ∈ s, a.isStart = false
  sleep : totalSleep s = 0
  attempts : attemptCount s ≤ 1
  length : s.length ≤ 2

theorem totalSleep_append (s t : List Action) :
    totalSleep (s ++ t) = totalSleep s + totalSleep t := by
  rw [totalSleep, List.map_append, List.sum_append, totalSleep, totalSleep]

theorem attemptCount_append (s t : List Action) :
    attemptCount (s ++ t) = attemptCount s + attemptCount t :=
  List.countP_append

section Rounds

variable {deps : DaemonAutostartDeps} {socketPath request lastError : Bytes} {σ s t : List Action}
    {r : Except RequestError Bytes} {rounds : ℕ}

/-- The last round. -/
theorem Polls.waits (h : Polls s) (hpast : EndsWithPast s r) (hrounds : 1 ≤ rounds) (sleep : ℕ) :
    Waits rounds sleep s r where
  past := hpast
  notStarted := h.notStarted
  sleep := by rw [h.sleep]; exact Nat.zero_le sleep
  attempts := Nat.le_trans h.attempts hrounds
  length := by have := h.length; omega

/-- A round and its sleep before the others. -/
theorem Waits.round {sleep duration : ℕ} (h : Waits rounds sleep t r) (hs : Polls s)
    (hpast : ∀ a ∈ s, a.isPast = false) :
    Waits (rounds + 1) (duration + sleep) (s ++ .sleep duration :: t) r where
  past := (h.past.cons rfl).append hpast
  notStarted := by
    rw [List.forall_mem_append, List.forall_mem_cons]
    exact ⟨hs.notStarted, rfl, h.notStarted⟩
  sleep := by
    have hcons : totalSleep (.sleep duration :: t) = duration + totalSleep t := List.sum_cons
    rw [totalSleep_append, hs.sleep, hcons, Nat.zero_add]
    exact Nat.add_le_add_left h.sleep duration
  attempts := by
    have hcons : attemptCount (.sleep duration :: t) = attemptCount t :=
      List.countP_cons_of_neg Bool.false_ne_true
    have hone := hs.attempts
    have hrest := h.attempts
    rw [attemptCount_append, hcons]
    omega
  length := by
    have htwo := hs.length
    have hrest := h.length
    rw [List.length_append, List.length_cons]
    omega

/-- How an attempt after the start ends: with its outcome, or by going on after a failure to
connect. -/
theorem run_attemptAfterStart : ∃ outcome,
    ((attemptAfterStart deps socketPath request).run σ).1 = [.attempt outcome] ∧
      (((attemptAfterStart deps socketPath request).run σ).2 = outcome.map .ok ∨
        pastConnecting outcome = false ∧
          ∃ text, ((attemptAfterStart deps socketPath request).run σ).2 = .ok (.error text)) := by
  refine ⟨deps.request socketPath request σ, ?_⟩
  have hattempt := @run_attempt deps socketPath request σ
  cases houtcome : deps.request socketPath request σ with
  | ok answer =>
    rw [houtcome] at hattempt
    have hbind : (do return .ok (← attempt deps socketPath request) :
        Client (Except Bytes Bytes)).run σ = ([.attempt (.ok answer)], .ok (.ok answer)) := by
      rw [run_bind_of_ok hattempt]
      rfl
    rw [attemptAfterStart, run_tryCatch_of_ok hbind]
    exact ⟨rfl, .inl rfl⟩
  | error error =>
    rw [houtcome] at hattempt
    rw [attemptAfterStart, run_tryCatch_of_error (run_bind_of_error hattempt)]
    cases error with
    | connect errorNumber =>
      dsimp only
      split_ifs
      · exact ⟨rfl, .inr ⟨rfl, _, rfl⟩⟩
      · exact ⟨rfl, .inl rfl⟩
    | other what => exact ⟨rfl, .inl rfl⟩

/-- A round ends the loop with the outcome of its attempt, or does not get past connecting. -/
theorem run_poll : ∃ s x, (poll deps socketPath request lastError).run σ = (s, x) ∧ Polls s ∧
    ((∃ text, x = .ok (.error text) ∧ ∀ a ∈ s, a.isPast = false) ∨
      ∃ outcome, x = outcome.map .ok ∧ EndsWithPast s outcome) := by
  rw [poll, run_bind_of_ok run_look]
  cases deps.socketExists socketPath σ with
  | false =>
    refine ⟨[.look false], .ok (.error lastError), rfl, ⟨?_, rfl, Nat.zero_le 1, by decide⟩,
      .inl ⟨lastError, rfl, ?_⟩⟩
    · exact List.forall_mem_singleton.mpr rfl
    · exact List.forall_mem_singleton.mpr rfl
  | true =>
    obtain ⟨outcome, hadd, hend⟩ :=
      @run_attemptAfterStart deps socketPath request (σ ++ [.look true])
    rw [if_pos rfl, hadd]
    refine ⟨[.look true, .attempt outcome], _, rfl, ⟨?_, rfl, ?_, ?_⟩, ?_⟩
    · exact List.forall_mem_cons.mpr ⟨rfl, List.forall_mem_singleton.mpr rfl⟩
    · exact Nat.le_refl 1
    · exact Nat.le_refl 2
    · rcases hend with hend | ⟨hpast, text, hend⟩
      · exact .inr ⟨outcome, hend, (endsWithPast_singleton outcome).cons rfl⟩
      · exact .inl ⟨text, hend, List.forall_mem_cons.mpr ⟨rfl, List.forall_mem_singleton.mpr hpast⟩⟩

/-- The rounds that are left after waiting for a time. -/
def roundsFrom (waited : ℕ) : ℕ := (maxWait - waited + (pollInterval - 1)) / pollInterval + 1

theorem roundsFrom_sleep {waited : ℕ} (h : waited < maxWait) :
    roundsFrom (waited + min pollInterval (maxWait - waited)) + 1 = roundsFrom waited := by
  simp only [roundsFrom, maxWait, pollInterval] at h ⊢
  omega

/-- From a time on the loop makes the rounds that are left, unless one ends it. -/
theorem waits_waitFrom {waited : ℕ} (hwaited : waited ≤ maxWait) :
    Waits (roundsFrom waited) (maxWait - waited)
      ((waitFrom deps socketPath request waited lastError).run σ).1
      ((waitFrom deps socketPath request waited lastError).run σ).2 := by
  induction hn : maxWait - waited using Nat.strongRecOn generalizing waited lastError σ with
  | ind n ih =>
    have hrounds : 1 ≤ roundsFrom waited := Nat.le_add_left 1 _
    obtain ⟨s, x, hpoll, hpolls, ⟨text, rfl, hpast⟩ | ⟨outcome, rfl, hpast⟩⟩ :=
      @run_poll deps socketPath request lastError σ
    · -- the round goes on
      rw [waitFrom, if_pos hwaited, run_bind_of_ok hpoll]
      dsimp only
      by_cases hend : waited = maxWait
      · rw [if_pos hend, run_throw, List.append_nil]
        refine hpolls.waits ?_ hrounds n
        have := (endsWithPast_nil (r := .error (notReadyError socketPath text))).append hpast
        rwa [List.append_nil] at this
      · have hlt : waited < maxWait := Nat.lt_of_le_of_ne hwaited hend
        have hle : waited + min pollInterval (maxWait - waited) ≤ maxWait := by omega
        have hpos : 0 < min pollInterval (maxWait - waited) := by rw [pollInterval]; omega
        rw [if_neg hend, run_emit_bind, ← roundsFrom_sleep hlt]
        generalize min pollInterval (maxWait - waited) = duration at hle hpos ⊢
        have hn' : n = duration + (maxWait - (waited + duration)) := by omega
        rw [hn']
        exact (ih (maxWait - (waited + duration)) (by omega) hle rfl).round hpolls hpast
    · -- the attempt ends the loop
      rw [waitFrom, if_pos hwaited]
      cases outcome with
      | ok answer =>
        rw [run_bind_of_ok hpoll, run_pure, List.append_nil]
        exact hpolls.waits hpast hrounds n
      | error error =>
        rw [run_bind_of_error hpoll]
        exact hpolls.waits hpast hrounds n

theorem waits_requestAfterStart :
    Waits 21 2000 ((requestAfterStart deps socketPath request).run σ).1
      ((requestAfterStart deps socketPath request).run σ).2 :=
  waits_waitFrom (Nat.zero_le maxWait)

end Rounds

/-! ### The request -/

/-- What is done for a request: an attempt, and after a failure to connect maybe a start and the
rounds after it. -/
inductive Delivers (allowAutostart : Bool) : List Action → Except RequestError Bytes → Prop
  | answered (outcome : Except RequestError Bytes) :
    Delivers allowAutostart [.attempt outcome] outcome
  | started (errorNumber result : ℤ) (s : List Action) (r : Except RequestError Bytes) :
    allowAutostart = true → errorNumber = noEntry ∨ errorNumber = connectionRefused →
      Waits 21 2000 s r →
      Delivers allowAutostart (.attempt (.error (.connect errorNumber)) :: .start result :: s) r

theorem delivers (deps : DaemonAutostartDeps) (socketPath request : Bytes) (allowAutostart : Bool)
    (σ : List Action) : Delivers allowAutostart
      ((requestWithOptionalUserServiceStart deps socketPath request allowAutostart).run σ).1
      ((requestWithOptionalUserServiceStart deps socketPath request allowAutostart).run σ).2 := by
  have hattempt := @run_attempt deps socketPath request σ
  cases houtcome : deps.request socketPath request σ with
  | ok answer =>
    rw [houtcome] at hattempt
    rw [requestWithOptionalUserServiceStart, run_tryCatch_of_ok hattempt]
    exact .answered (.ok answer)
  | error error =>
    rw [houtcome] at hattempt
    rw [requestWithOptionalUserServiceStart, run_tryCatch_of_error hattempt]
    cases error with
    | other what => exact .answered (.error (.other what))
    | connect errorNumber =>
      dsimp only
      split_ifs with hrefused
      · exact .answered (.error (.connect errorNumber))
      · rw [Bool.or_eq_true, not_or, Bool.not_eq_true', Bool.not_eq_true', Bool.not_eq_false,
          Bool.not_eq_false, isStartableDefaultSocketError, Bool.or_eq_true, decide_eq_true_iff,
          decide_eq_true_iff] at hrefused
        rw [run_bind_of_ok run_start]
        refine .started errorNumber _ _ _ hrefused.1 hrefused.2 ?_
        split_ifs
        · have hpolls : Polls [] := ⟨by simp, rfl, Nat.zero_le 1, Nat.zero_le 2⟩
          exact hpolls.waits endsWithPast_nil (by decide) 2000
        · exact waits_requestAfterStart

section Delivers

variable {allowAutostart : Bool} {s : List Action} {r : Except RequestError Bytes}

theorem Delivers.endsWithPast (h : Delivers allowAutostart s r) : EndsWithPast s r := by
  cases h with
  | answered => exact endsWithPast_singleton r
  | started errorNumber result s _ _ _ hwaits => exact (hwaits.past.cons rfl).cons rfl

theorem Delivers.countP_isStart_le (h : Delivers allowAutostart s r) :
    s.countP Action.isStart ≤ 1 := by
  cases h with
  | answered => exact Nat.zero_le 1
  | started errorNumber result s _ _ _ hwaits =>
    have hnone : s.countP Action.isStart = 0 :=
      List.countP_eq_zero.mpr fun a ha => by rw [hwaits.notStarted a ha]; exact Bool.false_ne_true
    have hone : List.countP Action.isStart
        (.attempt (.error (.connect errorNumber)) :: .start result :: s) = 1 := by
      rw [List.countP_cons_of_neg Bool.false_ne_true, List.countP_cons_of_pos rfl, hnone]
    exact Nat.le_of_eq hone

theorem Delivers.length_le (h : Delivers allowAutostart s r) : s.length ≤ 64 := by
  cases h with
  | answered => exact (by decide : 1 ≤ 64)
  | started errorNumber result s _ _ _ hwaits =>
    have := hwaits.length
    rw [List.length_cons, List.length_cons]
    omega

/-- The start is the second action, and the rounds come after it. -/
theorem Delivers.of_start (h : Delivers allowAutostart s r) {before after : List Action}
    {result : ℤ} (hs : s = before ++ .start result :: after) :
    (allowAutostart = true ∧ ∃ errorNumber, before = [.attempt (.error (.connect errorNumber))] ∧
      (errorNumber = noEntry ∨ errorNumber = connectionRefused)) ∧
      totalSleep after ≤ 2000 ∧ attemptCount after ≤ 21 := by
  cases h with
  | answered =>
    cases before with
    | nil => simp at hs
    | cons a before => simp at hs
  | started errorNumber result' rounds _ hallow herror hwaits =>
    obtain _ | ⟨a, _ | ⟨b, before⟩⟩ := before
    · simp at hs
    · rw [List.singleton_append, List.cons.injEq, List.cons.injEq] at hs
      obtain ⟨rfl, -, rfl⟩ := hs
      exact ⟨⟨hallow, errorNumber, rfl, herror⟩, hwaits.sleep, hwaits.attempts⟩
    · rw [List.cons_append, List.cons_append, List.cons.injEq, List.cons.injEq] at hs
      have hstart := hwaits.notStarted (.start result)
        (by rw [hs.2.2]; exact List.mem_append_right _ List.mem_cons_self)
      cases hstart

end Delivers

/-- Whatever the injected parts come to, the service is started at most once, and only when that
is allowed and the first attempt found no socket or was refused; an attempt that gets past
connecting is the last action and its outcome is the result, so there is at most one; and after
the start there are bounds on the sleep and the attempts. A run has at most 64 actions. -/
theorem delivers_at_most_once (deps : DaemonAutostartDeps) (socketPath request : Bytes)
    (allowAutostart : Bool) (σ : List Action) :
    let run := (requestWithOptionalUserServiceStart deps socketPath request allowAutostart).run σ
    run.1.countP Action.isStart ≤ 1 ∧
      (∀ before result after, run.1 = before ++ .start result :: after →
        (allowAutostart = true ∧ ∃ errorNumber,
          before = [.attempt (.error (.connect errorNumber))] ∧
            (errorNumber = noEntry ∨ errorNumber = connectionRefused)) ∧
        totalSleep after ≤ 2000 ∧ attemptCount after ≤ 21) ∧
      run.1.countP Action.isPast ≤ 1 ∧
      (∀ before outcome after, run.1 = before ++ .attempt outcome :: after →
        pastConnecting outcome = true → after = [] ∧ run.2 = outcome) ∧
      run.1.length ≤ 64 := by
  have h := delivers deps socketPath request allowAutostart σ
  exact ⟨h.countP_isStart_le, fun before result after => h.of_start, h.endsWithPast.countP_le,
    h.endsWithPast, h.length_le⟩

/-- A daemon that is not there at first. -/
def lateDaemon : DaemonAutostartDeps where
  request _ _ σ := if σ = [] then .error (.connect noEntry) else .ok (ascii "pong")
  startUserService _ := 0
  socketExists _ _ := true
  strerror _ := ascii "No such file or directory"

theorem run_lateDaemon : (requestWithOptionalUserServiceStart lateDaemon (ascii "kaslid.sock")
    (ascii "ping") true).run [] =
      ([.attempt (.error (.connect noEntry)), .start 0, .look true, .attempt (.ok (ascii "pong"))],
        .ok (ascii "pong")) := by
  have hattempt := @run_attempt lateDaemon (ascii "kaslid.sock") (ascii "ping") []
  rw [requestWithOptionalUserServiceStart, run_tryCatch_of_error hattempt, requestAfterStart,
    waitFrom]
  rfl

theorem delivers_at_most_once_lateDaemon :
    (totalSleep [.look true, .attempt (.ok (ascii "pong"))] ≤ 2000 ∧
      attemptCount [.look true, .attempt (.ok (ascii "pong"))] ≤ 21) ∧
    ((requestWithOptionalUserServiceStart lateDaemon (ascii "kaslid.sock") (ascii "ping")
      true).run []).2 = .ok (ascii "pong") := by
  have h := delivers_at_most_once lateDaemon (ascii "kaslid.sock") (ascii "ping") true []
  obtain ⟨-, hstart, -, hpast, -⟩ := h
  rw [run_lateDaemon] at hstart hpast ⊢
  exact ⟨(hstart [_] 0 _ rfl).2, (hpast [_, _, _] _ [] rfl rfl).2⟩

end Kasli.App
