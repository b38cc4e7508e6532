import Kasli.Audit.AuditLog
import Kasli.Core.RoundTrip
import Kasli.Data.Machine
import Kasli.Text.Lines

/-! The bytes of the audit file. A record and its newline are added where the file ends; a
write that fails may leave a part of them behind, and the next record is then added to that
part. As long as every record that is written whole begins a line, each event that was
appended can be read back from a line of its own. -/

namespace Kasli.Audit

open Core

/-- A write takes all of its bytes, or stops after some of them. -/
inductive Write
  | written
  | stopped (count : ℕ)

def Write.outcome : Write → WriteOutcome
  | .written => .written
  | .stopped _ => .notWritten

/-- The file, and the events whose appends have returned. -/
structure LogFile where
  contents : Bytes
  returned : List AuditEvent

def LogFile.empty : LogFile := ⟨[], []⟩

/-- `AuditLog::append`. An event that cannot be encoded throws before the file is opened. -/
def LogFile.append (file : LogFile) (event : AuditEvent) (write : Write) : LogFile :=
  match event.toJson.dump with
  | .error _ => file
  | .ok encoded =>
    let record := encoded ++ ascii "\n"
    match write with
    | .written => ⟨file.contents ++ record, file.returned ++ [event]⟩
    | .stopped count => { file with contents := file.contents ++ record.take count }

/-- The events that come back are those on record of the session's history. -/
theorem returned_append (log : AuditLog) (host : Host) (event : AuditEvent) (σ : History)
    (file : LogFile) (write : Write) (h : ∀ record, host.file σ record = write.outcome) :
    (file.append event write).returned = file.returned ++
      events ((log.append host event).run σ).1 := by
  unfold LogFile.append AuditLog.append
  cases event.toJson.dump with
  | error what => simp
  | ok encoded =>
    simp only [ofExcept_ok, Run.pure_bind, Run.run_ask_bind, h]
    cases write with
    | written => rfl
    | stopped count => simp [Write.outcome]

/-- A line read back as an event. -/
def readEvent (parse : Bytes → Except Bytes Json) (line : Bytes) : Except Bytes AuditEvent := do
  AuditEvent.fromJson (← parse line)

/-- Every appended event is read back from a complete line of its own, in the order of the
appends. -/
def Readable (parse : Bytes → Except Bytes Json) (file : LogFile) : Prop :=
  ∃ ls, ls.Sublist (completeLines file.contents) ∧
    List.Forall₂ (fun line event => readEvent parse line = .ok event) ls file.returned

def step (file : LogFile) (append : AuditEvent × Write) : Option LogFile :=
  some (file.append append.1 append.2)

/-- An append that is written whole begins a line. -/
def BeginsLine (file : LogFile) (append : AuditEvent × Write) : Prop :=
  append.2 = .written → AtLineStart file.contents

section

variable {parse : Bytes → Except Bytes Json} (hparse : Json.Undoes parse) {file : LogFile}
    {event : AuditEvent}
  {write : Write}

include hparse

theorem readEvent_render (he : event.toJson.Encodable) :
    readEvent parse event.toJson.render = .ok event := by
  rw [readEvent, hparse _ event.written_toJson he, ok_bind, event.fromJson_toJson]

omit hparse in
/-- What is added to the file leaves its complete lines. -/
theorem Readable.more {contents : Bytes} {returned : List AuditEvent}
    (h : Readable parse ⟨contents, returned⟩) (t : Bytes) :
    Readable parse ⟨contents ++ t, returned⟩ := by
  obtain ⟨ls, hls, hread⟩ := h
  exact ⟨ls, hls.trans (completeLines_isPrefix _ t).sublist, hread⟩

theorem readable_append (h : Readable parse file) (hstart : BeginsLine file (event, write)) :
    Readable parse (file.append event write) := by
  unfold LogFile.append
  cases hd : event.toJson.dump with
  | error what => exact h
  | ok encoded =>
    obtain ⟨he, rfl⟩ := Json.dump_eq_ok_iff.mp hd
    cases write with
    | stopped count => exact h.more _
    | written =>
      obtain ⟨ls, hls, hread⟩ := h
      refine ⟨ls ++ [event.toJson.render], ?_, ?_⟩
      · have hline : completeLines (file.contents ++ line event.toJson.render) =
            completeLines file.contents ++ [event.toJson.render] :=
          completeLines_append_line (hstart rfl) (Json.newline_notMem_render _)
        exact hline ▸ hls.append (List.Sublist.refl _)
      · exact List.rel_append hread (.cons (readEvent_render hparse he) .nil)

/-- In every run in which each append that is written whole begins a line, every event whose
append returned is read back. -/
theorem readable_runs {appends : List (AuditEvent × Write)}
    (hrun : runs step .empty appends = some file)
    (hstart : Steps step .empty BeginsLine appends) : Readable parse file := by
  refine runs_induction (P := fun appends file => Steps step .empty BeginsLine appends →
    Readable parse file) (fun _ => ⟨[], List.nil_sublist _, .nil⟩)
    (fun appends file append file' hfile ih hstep hsteps => ?_) hrun hstart
  obtain ⟨hbefore, hlast⟩ := (steps_concat hfile).mp hsteps
  obtain rfl := Option.some.inj hstep
  exact readable_append hparse (ih hbefore) hlast

end

/-! ### A record on top of a part of another -/

def noteEvent (id : Bytes) : AuditEvent :=
  { id, timestamp := ascii "2026-01-01T00:00:00Z", actor := ascii "cli",
    type := ascii "note", summary := [], details := .empty }

/-- The first write stops before its first byte. -/
def noteAppends : List (AuditEvent × Write) :=
  [(noteEvent (ascii "a"), .stopped 0), (noteEvent (ascii "b"), .written),
    (noteEvent (ascii "c"), .written)]

theorem readable_runs_notes : ∃ file, runs step .empty noteAppends = some file ∧
    file.returned ≠ [] ∧ Readable Json.parse file := by
  obtain ⟨file, hrun⟩ : ∃ file, runs step .empty noteAppends = some file := ⟨_, rfl⟩
  have hstart : Steps step .empty BeginsLine noteAppends :=
    (steps_cons rfl).mpr ⟨nofun,
      (steps_cons rfl).mpr ⟨fun _ => by decide +kernel, (steps_cons rfl).mpr
      ⟨fun _ => by decide +kernel, steps_nil⟩⟩⟩
  have hreturned : file.returned ≠ [] := by
    rw [← Option.some.inj hrun]
    exact List.cons_ne_nil _ _
  exact ⟨file, hrun, hreturned, readable_runs Json.undoes_parse hrun hstart⟩

/-- A write that stopped after one byte takes the next record with it. -/
theorem torn_unreadable : ¬ ∀ (parse : Bytes → Except Bytes Json)
    (appends : List (AuditEvent × Write))
    (file : LogFile), Json.Undoes parse → runs step .empty appends = some file →
      Readable parse file := by
  intro h
  obtain ⟨ls, hls, hread⟩ :=
    h Json.parse [(noteEvent (ascii "a"), .stopped 1), (noteEvent (ascii "b"), .written)] _
    Json.undoes_parse rfl
  have hfile : completeLines
    (LogFile.append (LogFile.append .empty (noteEvent (ascii "a")) (.stopped 1))
      (noteEvent (ascii "b")) .written).contents =
        [chr '\x7b' :: (noteEvent (ascii "b")).toJson.render] := by
    decide +kernel
  have hmerged : (readEvent Json.parse (chr '\x7b' :: (noteEvent (ascii "b")).toJson.render)).isOk =
      false := by
    decide +kernel
  cases hread with
  | @cons line _ ls' _ hline hrest =>
    cases hrest
    have hmem := hls.subset (List.mem_singleton_self line)
    rw [hfile, List.mem_singleton] at hmem
    rw [← hmem, hline] at hmerged
    cases hmerged

end Kasli.Audit
