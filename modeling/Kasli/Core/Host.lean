import Kasli.Core.Types
import Kasli.Effect.Run

/-! The program as a computation over a history of actions: event ids issued, tools
executed, the model asked, audit records written. The clock, the audit file, the
tools and the model are outside; each may answer differently after every history. -/

namespace Kasli.Core

/-- An exception: a `std::exception` by what it says, or something else. -/
inductive Exn
  | std (what : Bytes)
  | other
  deriving DecidableEq

inductive Action
  | issued
  | executed (tool : Bytes) (request : ToolRequest)
  | asked (request : ModelRequest)
  | appended (event : AuditEvent)
  deriving DecidableEq

abbrev History := List Action

abbrev Act := Run Action Exn

/-- A broken-down UTC time. -/
structure Tm where
  year : ℕ
  month : ℕ
  day : ℕ
  hour : ℕ
  minute : ℕ
  second : ℕ

inductive WriteOutcome
  | written
  | notOpened
  | notWritten
  deriving DecidableEq

/-- What the program reads from its host: the system clock, as ticks and as a UTC time, and what
becomes of a record that is to be appended to the audit file. -/
structure Host where
  ticks : History → Int
  utc : History → Tm
  file : History → Bytes → WriteOutcome

/-- The audit file can always be written. -/
def Host.Writable (host : Host) : Prop := ∀ σ record, host.file σ record = .written

/-- The value of a library call that may throw. -/
def ofExcept {α : Type} : Except Bytes α → Act α
  | .ok a => pure a
  | .error what => throw (.std what)

@[simp] theorem ofExcept_ok {α : Type} (a : α) : ofExcept (.ok a) = pure a := rfl

@[simp] theorem ofExcept_pure {α : Type} (a : α) : ofExcept (pure a) = pure a := rfl

@[simp] theorem ofExcept_error {α : Type} (what : Bytes) :
    ofExcept (.error what : Except Bytes α) = throw (.std what) := rfl

@[simp] theorem ok_bind {α β : Type} (a : α) (f : α → Except Bytes β) :
    ((.ok a : Except Bytes α) >>= f) = f a := rfl

@[simp] theorem error_bind {α β : Type} (what : Bytes) (f : α → Except Bytes β) :
    ((.error what : Except Bytes α) >>= f) = .error what := rfl

theorem bind_eq_ok {α β : Type} {x : Except Bytes α} {f : α → Except Bytes β} {b : β} :
    (x >>= f) = .ok b ↔ ∃ a, x = .ok a ∧ f a = .ok b := by
  cases x with
  | error what => simp
  | ok a => simp

theorem bind_eq_error {α β : Type} {x : Except Bytes α} {f : α → Except Bytes β} {what : Bytes} :
    (x >>= f) = .error what ↔ x = .error what ∨ ∃ a, x = .ok a ∧ f a = .error what := by
  cases x with
  | error what => simp
  | ok a => simp

def isIssued : Action → Bool
  | .issued => true
  | _ => false

/-- `operator<<` of a signed number. -/
def decimalInt (n : Int) : Bytes :=
  if n < 0 then chr '-' :: decimal n.natAbs else decimal n.natAbs

/-- Two digits. -/
def twoDigits (n : ℕ) : Bytes := decimal (n / 10) ++ decimal (n % 10)

/-- `%Y-%m-%dT%H:%M:%SZ` -/
def formatUtc (tm : Tm) : Bytes :=
  decimal tm.year ++ ascii "-" ++ twoDigits tm.month ++ ascii "-" ++
    twoDigits tm.day ++ ascii "T" ++
    twoDigits tm.hour ++ ascii ":" ++ twoDigits tm.minute ++ ascii ":" ++
      twoDigits tm.second ++ ascii "Z"

section Stamps

variable (host : Host)

/-- The id says when it was issued and how many were before it. -/
def makeEventId : Act Bytes := do
  let now ← Run.ask fun σ => .ok (host.ticks σ)
  let counter ← Run.ask fun σ => .ok (σ.countP isIssued)
  Run.emit .issued
  return ascii "event-" ++ decimalInt now ++ ascii "-" ++ decimal counter

def utcTimestamp : Act Bytes := Run.ask fun σ => .ok (formatUtc (host.utc σ))

theorem isAscii_decimalInt (n : Int) : IsAscii (decimalInt n) := by
  unfold decimalInt
  split_ifs
  · exact (isAscii_cons _ _).mpr ⟨by decide, isAscii_decimal _⟩
  · exact isAscii_decimal _

theorem isAscii_formatUtc (tm : Tm) : IsAscii (formatUtc tm) := by
  have hdash : IsAscii (ascii "-") := by decide
  have hcolon : IsAscii (ascii ":") := by decide
  have ht : IsAscii (ascii "T") := by decide
  have hz : IsAscii (ascii "Z") := by decide
  simp [formatUtc, twoDigits, isAscii_decimal, hdash, hcolon, ht, hz]

theorem makeEventId_apply (σ : History) :
    ∃ id, (makeEventId host).run σ = ([.issued], .ok id) ∧ IsAscii id := by
  refine ⟨_, rfl, ?_⟩
  simp only [isAscii_append]
  exact ⟨⟨⟨by decide, isAscii_decimalInt _⟩, by decide⟩, isAscii_decimal _⟩

theorem utcTimestamp_apply (σ : History) :
    ∃ t, (utcTimestamp host).run σ = ([], .ok t) ∧ IsAscii t :=
  ⟨_, rfl, isAscii_formatUtc _⟩

end Stamps

/-! ### What a history says -/

/-- The audit events on record. -/
def events (σ : History) : List AuditEvent :=
  σ.filterMap fun
    | .appended event => some event
    | _ => none

/-- The tools that ran, each with its request. -/
def executions (σ : History) : List (Bytes × ToolRequest) :=
  σ.filterMap fun
    | .executed tool request => some (tool, request)
    | _ => none

/-- What the model was asked. -/
def questions (σ : History) : List ModelRequest :=
  σ.filterMap fun
    | .asked request => some request
    | _ => none

theorem mem_events {event : AuditEvent} {σ : History} :
    event ∈ events σ ↔ .appended event ∈ σ := by
  rw [events, List.mem_filterMap]
  constructor
  · rintro ⟨a, ha, heq⟩
    cases a with
    | appended event' => exact Option.some.inj heq ▸ ha
    | _ => cases heq
  · exact fun h => ⟨_, h, rfl⟩

section Projections

variable (σ τ : History)

@[simp] theorem events_nil : events [] = [] := rfl
@[simp] theorem events_append : events (σ ++ τ) = events σ ++ events τ := List.filterMap_append ..
@[simp] theorem events_issued : events (.issued :: σ) = events σ := rfl
@[simp] theorem events_executed (t r) : events (.executed t r :: σ) = events σ := rfl
@[simp] theorem events_asked (r) : events (.asked r :: σ) = events σ := rfl
@[simp] theorem events_appended (e) : events (.appended e :: σ) = e :: events σ := rfl

@[simp] theorem executions_nil : executions [] = [] := rfl
@[simp] theorem executions_append : executions (σ ++ τ) = executions σ ++ executions τ :=
  List.filterMap_append ..
@[simp] theorem executions_issued : executions (.issued :: σ) = executions σ := rfl
@[simp] theorem executions_executed (t r) :
    executions (.executed t r :: σ) = (t, r) :: executions σ := rfl
@[simp] theorem executions_asked (r) : executions (.asked r :: σ) = executions σ := rfl
@[simp] theorem executions_appended (e) : executions (.appended e :: σ) = executions σ := rfl

@[simp] theorem questions_nil : questions [] = [] := rfl
@[simp] theorem questions_append : questions (σ ++ τ) = questions σ ++ questions τ :=
  List.filterMap_append ..
@[simp] theorem questions_issued : questions (.issued :: σ) = questions σ := rfl
@[simp] theorem questions_executed (t r) : questions (.executed t r :: σ) = questions σ := rfl
@[simp] theorem questions_asked (r) : questions (.asked r :: σ) = r :: questions σ := rfl
@[simp] theorem questions_appended (e) : questions (.appended e :: σ) = questions σ := rfl

end Projections

end Kasli.Core
