import Kasli.Core.Host

/-! The audit log (`audit/audit_log.cpp`). A record is encoded before the file is
touched, so an event with an ill-formed string is never written. An event on record is
looked at without its id and timestamp: its content. -/

namespace Kasli.Audit

open Core Utf8

structure AuditLog where
  path : Bytes

/-- An append that throws puts nothing on record. What its write has left in the file is told of
the file. -/
def AuditLog.append (log : AuditLog) (host : Host) (event : AuditEvent) : Act Unit := do
  let encoded ← ofExcept event.toJson.dump
  let outcome ← Run.ask fun σ => .ok (host.file σ (encoded ++ ascii "\n"))
  match outcome with
  | .written => Run.emit (.appended event)
  | .notOpened => throw (.std (ascii "failed to open audit log: " ++ log.path))
  | .notWritten => throw (.std (ascii "failed to write audit log: " ++ log.path))

/-- `append(AuditEvent{...})` with a fresh id and timestamp; the fields are computed in their
order. -/
def AuditLog.record (log : AuditLog) (host : Host) (actor type summary : Bytes)
    (details : Except Bytes (OrderedMap Bytes Bytes)) : Act Unit := do
  let id ← makeEventId host
  let timestamp ← utcTimestamp host
  let details ← ofExcept details
  log.append host { id, timestamp, actor, type, summary, details }

/-- An event without its id and timestamp. -/
structure Content where
  actor : Bytes
  type : Bytes
  summary : Bytes
  details : OrderedMap Bytes Bytes
  deriving DecidableEq

def content (event : AuditEvent) : Content :=
  ⟨event.actor, event.type, event.summary, event.details⟩

def Content.stamped (c : Content) (id timestamp : Bytes) : AuditEvent :=
  { id, timestamp, actor := c.actor, type := c.type, summary := c.summary, details := c.details }

@[simp] theorem content_stamped (c : Content) (id timestamp : Bytes) :
    content (c.stamped id timestamp) = c := rfl

/-- The strings of a content are well-formed UTF-8. -/
structure Content.Encodable (c : Content) : Prop where
  actor : Valid c.actor
  type : Valid c.type
  summary : Valid c.summary
  details : ∀ e ∈ c.details.entries, Valid e.1 ∧ Valid e.2

theorem encodable_stamped {c : Content} {id timestamp : Bytes} (hid : IsAscii id)
    (ht : IsAscii timestamp) : (c.stamped id timestamp).toJson.Encodable ↔ c.Encodable := by
  rw [AuditEvent.encodable_iff]
  constructor
  · rintro ⟨-, -, ha, hy, hs, hd⟩
    exact ⟨ha, hy, hs, hd⟩
  · rintro ⟨ha, hy, hs, hd⟩
    exact ⟨valid_of_isAscii hid, valid_of_isAscii ht, ha, hy, hs, hd⟩

section

variable (log : AuditLog) (host : Host)

/-! ### Appending -/

/-- An append writes its event, or throws and writes nothing. -/
theorem append_cases (event : AuditEvent) (σ : History) :
    (log.append host event).run σ = ([.appended event], .ok ()) ∨
      ∃ what, (log.append host event).run σ = ([], .error (.std what)) := by
  unfold AuditLog.append
  cases hd : event.toJson.dump with
  | error what => exact .inr ⟨what, rfl⟩
  | ok record =>
    simp only [ofExcept_ok, Run.pure_bind, Run.run_ask_bind]
    cases host.file σ (record ++ ascii "\n") with
    | written => exact .inl rfl
    | notOpened => exact .inr ⟨_, rfl⟩
    | notWritten => exact .inr ⟨_, rfl⟩

theorem append_of_encodable (hw : host.Writable) {event : AuditEvent} (he : event.toJson.Encodable)
    (σ : History) : (log.append host event).run σ = ([.appended event], .ok ()) := by
  unfold AuditLog.append
  rw [Json.dump_of_encodable he, ofExcept_ok, Run.pure_bind, Run.run_ask_bind, hw]
  rfl

/-- An ill-formed string makes the append throw an ASCII message. -/
theorem append_of_not_encodable {event : AuditEvent} (he : ¬ event.toJson.Encodable) (σ : History) :
    ∃ what, IsAscii what ∧ (log.append host event).run σ = ([], .error (.std what)) := by
  obtain ⟨what, hd, ha⟩ := Json.dump_error_of_not_encodable he
  refine ⟨what, ha, ?_⟩
  unfold AuditLog.append
  rw [hd]
  rfl

/-! ### Recording -/

variable (actor type summary : Bytes) (details : Except Bytes (OrderedMap Bytes Bytes))

theorem record_eq (σ : History) : ∃ id timestamp, IsAscii id ∧ IsAscii timestamp ∧
    (log.record host actor type summary details).run σ =
      match details with
      | .ok d =>
        let r := (log.append host (Content.stamped ⟨actor, type, summary, d⟩ id timestamp)).run
          (σ ++ [.issued])
        (.issued :: r.1, r.2)
      | .error what => ([.issued], .error (.std what)) := by
  obtain ⟨id, hid, haid⟩ := makeEventId_apply host σ
  obtain ⟨timestamp, ht, hat⟩ := utcTimestamp_apply host (σ ++ [.issued])
  refine ⟨id, timestamp, haid, hat, ?_⟩
  unfold AuditLog.record
  rw [Run.run_bind_of_ok hid, Run.run_bind_of_ok ht]
  cases details with
  | ok d =>
    simp only [ofExcept_ok, Run.pure_bind, List.append_nil, List.nil_append, List.singleton_append,
      Content.stamped]
  | error what => rfl

/-- A record is written with the content it was given, or an exception is thrown and nothing is
written. -/
theorem record_cases (σ : History) :
    (∃ event d, details = .ok d ∧ content event = ⟨actor, type, summary, d⟩ ∧
      (log.record host actor type summary details).run σ = ([.issued, .appended event], .ok ())) ∨
    ∃ what, (log.record host actor type summary details).run σ =
      ([.issued], .error (.std what)) := by
  obtain ⟨id, timestamp, -, -, heq⟩ := record_eq log host actor type summary details σ
  rw [heq]
  cases details with
  | error what => exact .inr ⟨what, rfl⟩
  | ok d =>
    rcases append_cases log host (Content.stamped ⟨actor, type, summary, d⟩ id timestamp)
      (σ ++ [.issued]) with h | ⟨what, h⟩
    · refine .inl ⟨Content.stamped ⟨actor, type, summary, d⟩ id timestamp, d, rfl, rfl, ?_⟩
      simp only [h]
    · refine .inr ⟨what, ?_⟩
      simp only [h]

/-- A record takes an identifier and appends, if anything, what it is given. -/
theorem record_only {p : Action → Prop} (hissued : p .issued)
    (happended : ∀ event d, details = .ok d → content event = ⟨actor, type, summary, d⟩ →
      p (.appended event)) :
    Run.Only p (log.record host actor type summary details) := by
  intro σ a ha
  rcases record_cases log host actor type summary details σ with ⟨event, d, hd, hc, h⟩ | ⟨what, h⟩
  · rw [h] at ha
    rcases List.mem_pair.mp ha with rfl | rfl
    · exact hissued
    · exact happended event d hd hc
  · rw [h] at ha
    exact List.mem_singleton.mp ha ▸ hissued

/-- The content that a record would have can be computed and encoded. -/
def Recordable : Prop := ∃ d, details = .ok d ∧ Content.Encodable ⟨actor, type, summary, d⟩

/-- In a writable log a recordable content is written. -/
theorem record_of_recordable (hw : host.Writable) {d : OrderedMap Bytes Bytes}
    (hd : details = .ok d) (he : Content.Encodable ⟨actor, type, summary, d⟩) (σ : History) :
    ∃ event, content event = ⟨actor, type, summary, d⟩ ∧
      (log.record host actor type summary details).run σ =
        ([.issued, .appended event], .ok ()) := by
  obtain ⟨id, timestamp, haid, hat, heq⟩ := record_eq log host actor type summary details σ
  subst hd
  refine ⟨Content.stamped ⟨actor, type, summary, d⟩ id timestamp, rfl, ?_⟩
  rw [heq]
  simp only [append_of_encodable log host hw ((encodable_stamped haid hat).mpr he)]

/-- Otherwise an exception is thrown; it is ASCII when the one that prevents the content is. -/
theorem record_of_not_recordable (h : ¬ Recordable actor type summary details)
    (hascii : ∀ what, details = .error what → IsAscii what) (σ : History) :
    ∃ what, IsAscii what ∧
      (log.record host actor type summary details).run σ = ([.issued], .error (.std what)) := by
  obtain ⟨id, timestamp, haid, hat, heq⟩ := record_eq log host actor type summary details σ
  rw [heq]
  cases details with
  | error what => exact ⟨what, hascii what rfl, rfl⟩
  | ok d =>
    have hn : ¬ (Content.stamped ⟨actor, type, summary, d⟩ id timestamp).toJson.Encodable := by
      rw [encodable_stamped haid hat]
      exact fun he => h ⟨d, rfl, he⟩
    obtain ⟨what, ha, hr⟩ := append_of_not_encodable log host hn (σ ++ [.issued])
    refine ⟨what, ha, ?_⟩
    simp only [hr]

/-- In a writable log a record is written exactly when it can be, and else throws an ASCII
message. -/
theorem record_evaluated (hw : host.Writable)
    (hascii : ∀ what, details = .error what → IsAscii what) (σ : History) :
    (Recordable actor type summary details ∧ ∃ event, event.type = type ∧
      (log.record host actor type summary details).run σ = ([.issued, .appended event], .ok ())) ∨
    (¬ Recordable actor type summary details ∧ ∃ what, IsAscii what ∧
      (log.record host actor type summary details).run σ = ([.issued], .error (.std what))) := by
  by_cases h : Recordable actor type summary details
  · obtain ⟨d, hd, he⟩ := h
    obtain ⟨event, hc, hr⟩ := record_of_recordable log host actor type summary details hw hd he σ
    exact .inl ⟨⟨d, hd, he⟩, event, congrArg Content.type hc, hr⟩
  · exact .inr ⟨h, record_of_not_recordable log host actor type summary details h hascii σ⟩

end

end Kasli.Audit
