import Kasli.App.DaemonAutostart
import Kasli.Effect.Keeps

/-! The attempts of a client over sockets (`default_daemon_autostart_deps`, whose request is
`request_over_unix_socket`). Each attempt makes system calls of its own, which may come to
something else each time. What is written in the course of a run, with a start of the service and
all its retries, is written by the last attempt. -/

namespace Kasli.App

open Ipc Run

section

variable (deps : DaemonAutostartDeps) (socketPath request : Bytes)
  (calls : List Action → ClientCalls)

/-- The request that is made after the actions `σ` makes the calls `calls σ`, and ends. -/
def OverSockets : Prop := ∀ σ, (requestOverUnixSocket (calls σ) socketPath request).2 =
  some (deps.request socketPath request σ)

/-- What the actions that come after `σ` write to sockets. -/
def sent : List Action → List Action → Bytes
  | _, [] => []
  | σ, a :: s =>
    (if a.isAttempt then (requestOverUnixSocket (calls σ) socketPath request).1 else []) ++
      sent (σ ++ [a]) s

/-- Every attempt after the actions `τ` came to what the request came to at its time. -/
def Requested (τ σ : List Action) : Prop := ∀ before outcome after,
  σ = τ ++ (before ++ .attempt outcome :: after) →
    outcome = deps.request socketPath request (τ ++ before)

end

section

variable {deps : DaemonAutostartDeps} {socketPath request lastError answer : Bytes}
  {σ τ s t : List Action} {waited : ℕ} {allowAutostart : Bool}

/-! ### What the attempts come to -/

theorem requested_self : Requested deps socketPath request τ τ := by
  intro before outcome after h
  simp at h

theorem Requested.concat {a : Action} (h : Requested deps socketPath request τ σ)
    (ha : ∀ outcome, a = .attempt outcome → outcome = deps.request socketPath request σ) :
    Requested deps socketPath request τ (σ ++ [a]) := by
  intro before outcome after heq
  rw [← List.append_assoc] at heq
  rcases List.eq_nil_or_concat' after with rfl | ⟨after, b, rfl⟩
  · obtain ⟨rfl, hlast⟩ := List.append_inj' heq rfl
    exact ha outcome (List.singleton_inj.mp hlast)
  · rw [← List.cons_append, ← List.append_assoc, List.append_assoc τ] at heq
    exact h before outcome after (List.append_inj' heq rfl).1

theorem keeps_attempt :
    Keeps (Requested deps socketPath request τ) (attempt deps socketPath request) := by
  intro σ h
  rw [run_attempt]
  exact h.concat fun outcome heq => (Action.attempt.inj heq).symm

theorem keeps_of_only {α : Type} {m : Client α} (h : Only (fun a => a.isAttempt = false) m) :
    Keeps (Requested deps socketPath request τ) m := by
  refine h.keeps fun σ a ha hσ => hσ.concat fun outcome heq => ?_
  rw [heq] at ha
  cases ha

theorem keeps_look : Keeps (Requested deps socketPath request τ) (look deps socketPath) :=
  keeps_of_only ((only_ask _ _).bind fun _ => Only.bind (only_emit rfl) fun _ => only_pure _ _)

theorem keeps_start : Keeps (Requested deps socketPath request τ) (start deps) :=
  keeps_of_only ((only_ask _ _).bind fun _ => Only.bind (only_emit rfl) fun _ => only_pure _ _)

theorem keeps_attemptAfterStart :
    Keeps (Requested deps socketPath request τ) (attemptAfterStart deps socketPath request) := by
  refine (keeps_attempt.bind fun _ => keeps_pure _).tryCatch fun error => ?_
  cases error with
  | connect errorNumber =>
    dsimp only
    split_ifs
    · exact keeps_pure _
    · exact keeps_throw _
  | other what => exact keeps_throw _

theorem keeps_poll :
    Keeps (Requested deps socketPath request τ) (poll deps socketPath request lastError) := by
  refine keeps_look.bind fun there => ?_
  split_ifs
  · exact keeps_attemptAfterStart
  · exact keeps_pure _

theorem keeps_waitFrom :
    Keeps (Requested deps socketPath request τ)
      (waitFrom deps socketPath request waited lastError) := by
  induction hn : maxWait + 1 - waited using Nat.strongRecOn generalizing waited lastError with
  | ind n ih =>
    rw [waitFrom]
    by_cases hwaited : waited ≤ maxWait
    · rw [if_pos hwaited]
      refine keeps_poll.bind fun polled => ?_
      cases polled with
      | ok answer => exact keeps_pure _
      | error lastError =>
        dsimp only
        split_ifs with hend
        · exact keeps_throw _
        · refine (keeps_of_only (only_emit rfl)).bind fun _ => ih _ ?_ rfl
          rw [pollInterval]
          omega
    · rw [if_neg hwaited]
      exact keeps_throw _

theorem keeps_request : Keeps (Requested deps socketPath request τ)
    (requestWithOptionalUserServiceStart deps socketPath request allowAutostart) := by
  refine keeps_attempt.tryCatch fun error => ?_
  cases error with
  | connect errorNumber =>
    dsimp only
    split_ifs
    · exact keeps_throw _
    · refine keeps_start.bind fun result => ?_
      split_ifs
      · exact keeps_throw _
      · exact keeps_waitFrom
  | other what => exact keeps_throw _

/-- A request is made with at least one attempt, which is the first that is done. -/
theorem first_request : ∃ rest,
    ((requestWithOptionalUserServiceStart deps socketPath request allowAutostart).run σ).1 =
      .attempt (deps.request socketPath request σ) :: rest := by
  have hattempt := @run_attempt deps socketPath request σ
  cases hrequest : deps.request socketPath request σ with
  | ok answer =>
    rw [hrequest] at hattempt
    exact ⟨[], by rw [requestWithOptionalUserServiceStart, run_tryCatch_of_ok hattempt]⟩
  | error error =>
    rw [hrequest] at hattempt
    exact ⟨_, by rw [requestWithOptionalUserServiceStart, run_tryCatch_of_error hattempt]; rfl⟩

/-! ### Where an answer comes from -/

/-- The answer is that of the last attempt. -/
def AnswersLast (s : List Action) (answer : Bytes) : Prop :=
  ∃ before, s = before ++ [.attempt (.ok answer)]

theorem AnswersLast.append (h : AnswersLast s answer) (t : List Action) :
    AnswersLast (t ++ s) answer := by
  obtain ⟨before, rfl⟩ := h
  exact ⟨t ++ before, (List.append_assoc ..).symm⟩

theorem answersLast_attempt (h : (attempt deps socketPath request).run σ = (s, .ok answer)) :
    AnswersLast s answer := by
  rw [run_attempt] at h
  obtain ⟨rfl, hanswer⟩ := Prod.mk.inj h
  exact ⟨[], by rw [hanswer]; rfl⟩

theorem answersLast_attemptAfterStart
    (h : (attemptAfterStart deps socketPath request).run σ = (s, .ok (.ok answer))) :
    AnswersLast s answer := by
  rcases tryCatch_cases h with ⟨x, hbody, hx⟩ | ⟨s₁, error, s₂, -, hcaught, -⟩
  · obtain rfl := Except.ok.inj hx
    rcases bind_cases hbody with ⟨e, -, he⟩ | ⟨s₁, answer', s₂, hattempt, hpure, rfl⟩
    · cases he
    · obtain ⟨rfl, hsame⟩ := Prod.mk.inj hpure
      obtain rfl := Except.ok.inj (Except.ok.inj hsame)
      rw [List.append_nil]
      exact answersLast_attempt hattempt
  · cases error with
    | connect errorNumber =>
      dsimp only at hcaught
      split_ifs at hcaught
      · cases hcaught
      · cases hcaught
    | other what => cases hcaught

theorem answersLast_poll
    (h : (poll deps socketPath request lastError).run σ = (s, .ok (.ok answer))) :
    AnswersLast s answer := by
  rcases bind_cases h with ⟨e, -, he⟩ | ⟨s₁, there, s₂, -, hrest, rfl⟩
  · cases he
  · cases there with
    | false => cases hrest
    | true => exact (answersLast_attemptAfterStart hrest).append s₁

theorem answersLast_waitFrom
    (h : (waitFrom deps socketPath request waited lastError).run σ = (s, .ok answer)) :
    AnswersLast s answer := by
  induction hn : maxWait + 1 - waited using Nat.strongRecOn generalizing waited lastError σ s with
  | ind n ih =>
    rw [waitFrom] at h
    by_cases hwaited : waited ≤ maxWait
    · rw [if_pos hwaited] at h
      rcases bind_cases h with ⟨e, -, he⟩ | ⟨s₁, polled, s₂, hpoll, hrest, rfl⟩
      · cases he
      · cases polled with
        | ok answer' =>
          obtain ⟨rfl, hsame⟩ := Prod.mk.inj hrest
          obtain rfl := Except.ok.inj hsame
          rw [List.append_nil]
          exact answersLast_poll hpoll
        | error lastError =>
          dsimp only at hrest
          split_ifs at hrest with hend
          · cases hrest
          · rw [run_emit_bind] at hrest
            obtain ⟨rfl, hresult⟩ := Prod.mk.inj hrest
            refine (AnswersLast.append (ih _ ?_ (Prod.ext rfl hresult) rfl) [_]).append s₁
            rw [pollInterval]
            omega
    · rw [if_neg hwaited] at h
      cases h

theorem answersLast_request
    (h : (requestWithOptionalUserServiceStart deps socketPath request allowAutostart).run σ =
      (s, .ok answer)) : AnswersLast s answer := by
  rcases tryCatch_cases h with ⟨answer', hattempt, hsame⟩ | ⟨s₁, error, s₂, -, hcaught, rfl⟩
  · obtain rfl := Except.ok.inj hsame
    exact answersLast_attempt hattempt
  · cases error with
    | connect errorNumber =>
      dsimp only at hcaught
      split_ifs at hcaught
      · cases hcaught
      · rcases bind_cases hcaught with ⟨e, -, he⟩ | ⟨s₃, result, s₄, -, hrest, rfl⟩
        · cases he
        · split_ifs at hrest
          · cases hrest
          · exact ((answersLast_waitFrom hrest).append s₃).append s₁
    | other what => cases hcaught

/-! ### What is written -/

variable {calls : List Action → ClientCalls} {r : Except RequestError Bytes}

/-- What is written is written by the last action, an attempt that comes to `r`. -/
def SentLast (socketPath request : Bytes) (calls : List Action → ClientCalls) (σ s : List Action)
    (r : Except RequestError Bytes) : Prop :=
  sent socketPath request calls σ s = [] ∨ ∃ before, s = before ++ [.attempt r] ∧
    sent socketPath request calls σ s =
      (requestOverUnixSocket (calls (σ ++ before)) socketPath request).1

/-- An action that writes nothing comes before. -/
theorem SentLast.cons {a : Action} (h : SentLast socketPath request calls (σ ++ [a]) s r)
    (ha : (if a.isAttempt then (requestOverUnixSocket (calls σ) socketPath request).1 else []) =
      []) : SentLast socketPath request calls σ (a :: s) r := by
  have hgoes : sent socketPath request calls σ (a :: s) =
      sent socketPath request calls (σ ++ [a]) s := by
    rw [sent, ha, List.nil_append]
  rcases h with h | ⟨before, rfl, h⟩
  · exact .inl (hgoes.trans h)
  · refine .inr ⟨a :: before, rfl, ?_⟩
    rw [hgoes, h, List.append_cons σ a before]

/-- Only an attempt that gets past connecting writes, and it is the last action. -/
theorem sentLast_of_requested (hcalls : OverSockets deps socketPath request calls)
    (hs : Requested deps socketPath request [] (σ ++ s)) (hpast : EndsWithPast s r) :
    SentLast socketPath request calls σ s r := by
  induction s generalizing σ with
  | nil => exact .inl rfl
  | cons a s ih =>
    have hrest : EndsWithPast s r := fun before outcome after heq =>
      hpast (a :: before) outcome after (by rw [heq]; rfl)
    have hlater := ih (by rwa [← List.append_cons]) hrest
    cases a with
    | attempt outcome =>
      have houtcome : outcome = deps.request socketPath request σ := hs σ outcome s rfl
      cases hp : pastConnecting outcome with
      | true =>
        obtain ⟨rfl, rfl⟩ := hpast [] outcome s rfl hp
        refine .inr ⟨[], rfl, ?_⟩
        rw [sent, sent, Action.isAttempt, if_pos rfl, List.append_nil, List.append_nil]
      | false =>
        refine hlater.cons ?_
        rw [Action.isAttempt, if_pos rfl]
        cases outcome with
        | ok answer => cases hp
        | error error =>
          cases error with
          | other what => cases hp
          | connect errorNumber =>
            exact written_of_connect_error ((hcalls σ).trans (congrArg some houtcome.symm))
    | start result => exact hlater.cons (if_neg Bool.false_ne_true)
    | look there => exact hlater.cons (if_neg Bool.false_ne_true)
    | sleep duration => exact hlater.cons (if_neg Bool.false_ne_true)

/-- Over a whole run, with its retries. -/
theorem sentLast_request (hcalls : OverSockets deps socketPath request calls) :
    SentLast socketPath request calls []
      ((requestWithOptionalUserServiceStart deps socketPath request allowAutostart).run []).1
      ((requestWithOptionalUserServiceStart deps socketPath request allowAutostart).run []).2 :=
  sentLast_of_requested hcalls (keeps_request [] requested_self)
    (delivers deps socketPath request allowAutostart []).endsWithPast

end

end Kasli.App
