import Kasli.Audit.LogFile
import Kasli.Effect.Keeps
import Kasli.Kaslid.Connection

/-! The audit file of a daemon. Every record bears an id with the number of ids issued before it,
so whatever the clock does the ids of a process differ, and they tell the order of the records. The
file grows by the records that are written and by what failed writes leave; as long as every record
begins a line, the events on record are read back from it. -/

namespace Kasli.Kaslid

open Core Audit Session Ipc Tools

/-! ### Ids -/

/-- The id that is issued at `ticks` when `count` were issued before. -/
def eventId (ticks : Int) (count : ℕ) : Bytes :=
  ascii "event-" ++ decimalInt ticks ++ ascii "-" ++ decimal count

theorem takeWhile_last {c : UInt8} {l : Bytes} (h : ∀ b ∈ l, b ≠ c) (s : Bytes) :
    (s ++ c :: l).reverse.takeWhile (· ≠ c) = l.reverse := by
  rw [List.reverse_append, List.reverse_cons, List.append_assoc,
    List.takeWhile_append_of_pos (by simpa using h), List.singleton_append,
    List.takeWhile_cons_of_neg (by simp), List.append_nil]

/-- The count can be read off an id, whatever the ticks. -/
theorem eventId_count {t t' : Int} {n n' : ℕ} (h : eventId t n = eventId t' n') : n = n' := by
  have hdash (n : ℕ) : ∀ b ∈ decimal n, b ≠ chr '-' := by
    rintro b hb rfl
    have hdigit := (digit_of_mem_decimal hb).1
    revert hdigit
    decide
  have hread (t : Int) (n : ℕ) :
      (eventId t n).reverse.takeWhile (· ≠ chr '-') = (decimal n).reverse := by
    have hcons : eventId t n = (ascii "event-" ++ decimalInt t) ++ chr '-' :: decimal n := by
      simp [eventId, ascii]
    rw [hcons, takeWhile_last (hdash n)]
  have heq := hread t n
  rw [h, hread] at heq
  exact (decimal_injective (List.reverse_injective heq)).symm

/-- The id of one event was issued before that of the other. -/
def Before (event event' : AuditEvent) : Prop :=
  ∃ t n t' n', event.id = eventId t n ∧ event'.id = eventId t' n' ∧ n < n'

theorem Before.ne {event event' : AuditEvent} (h : Before event event') : event.id ≠ event'.id := by
  obtain ⟨t, n, t', n', hid, hid', hlt⟩ := h
  rw [hid, hid']
  intro heq
  exact Nat.ne_of_lt hlt (eventId_count heq)

/-- When the action puts an event on record, its text could be encoded and was written. -/
def IsWritten (host : Host) (before : History) (a : Action) : Prop :=
  ∀ event, a = .appended event → event.toJson.Encodable ∧
    host.file before (line event.toJson.render) = .written

/-- The events on record were written and bear ids that were issued in their order. -/
structure Trail (host : Host) (σ : History) : Prop where
  written : Run.AtEach (IsWritten host) σ
  issued : ∀ event ∈ events σ, ∃ ticks, ∃ count < σ.countP isIssued, event.id = eventId ticks count
  ordered : (events σ).Pairwise Before

theorem trail_nil (host : Host) : Trail host [] :=
  ⟨Run.atEach_nil, by simp, by rw [events_nil]; exact List.Pairwise.nil⟩

/-! ### What keeps the trail -/

/-- An append that returns has written the record. -/
theorem append_written {log : AuditLog} {host : Host} {event : AuditEvent} {σ s : History}
    (h : (log.append host event).run σ = (s, .ok ())) : event.toJson.Encodable ∧
      host.file σ (line event.toJson.render) = .written := by
  unfold AuditLog.append at h
  cases hdump : event.toJson.dump with
  | error what =>
    rw [hdump] at h
    cases h
  | ok encoded =>
    obtain ⟨hencodable, rfl⟩ := Json.dump_eq_ok_iff.mp hdump
    simp only [hdump, ofExcept_ok, Run.pure_bind, Run.run_ask_bind] at h
    refine ⟨hencodable, ?_⟩
    change host.file σ (event.toJson.render ++ ascii "\n") = .written
    cases hfile : host.file σ (event.toJson.render ++ ascii "\n") with
    | written => rfl
    | notOpened =>
      rw [hfile] at h
      cases h
    | notWritten =>
      rw [hfile] at h
      cases h

section

variable (parser : Parser) (service : SessionService) (host : Host) (model : ModelProvider)

/-- A record takes the next id, and is written with it or not at all. -/
theorem record_stamps (log : AuditLog) (actor type summary : Bytes)
    (details : Except Bytes (OrderedMap Bytes Bytes)) (σ : History) :
    ((log.record host actor type summary details).run σ).1 = [.issued] ∨
      ∃ event, ((log.record host actor type summary details).run σ).1 =
          [.issued, .appended event] ∧
        IsWritten host (σ ++ [.issued]) (.appended event) ∧
        event.id = eventId (host.ticks σ) (σ.countP isIssued) := by
  have hid : (makeEventId host).run σ =
      ([.issued], .ok (eventId (host.ticks σ) (σ.countP isIssued))) := by
    simp only [makeEventId, Run.run_ask_bind, Run.run_emit_bind]
    rfl
  have htime : (utcTimestamp host).run (σ ++ [.issued]) =
    ([], .ok (formatUtc (host.utc (σ ++ [.issued])))) := rfl
  unfold AuditLog.record
  rw [Run.run_bind_of_ok hid, Run.run_bind_of_ok htime]
  cases details with
  | error what => exact .inl rfl
  | ok details =>
    simp only [ofExcept_ok, Run.pure_bind, List.append_nil, List.nil_append, List.singleton_append]
    rcases append_cases log host ⟨eventId (host.ticks σ) (σ.countP isIssued),
        formatUtc (host.utc (σ ++ [.issued])), actor, type, summary, details⟩ (σ ++ [.issued])
      with happend | ⟨what, happend⟩
    · rw [happend]
      exact .inr ⟨_, rfl, fun event heq => Action.appended.inj heq ▸ append_written happend, rfl⟩
    · rw [happend]
      exact .inl rfl

theorem keeps_record (log : AuditLog) (actor type summary : Bytes)
    (details : Except Bytes (OrderedMap Bytes Bytes)) :
    Run.Keeps (Trail host) (log.record host actor type summary details) := by
  intro σ hσ
  have hlater : ∀ event ∈ events σ, ∃ ticks, ∃ count < σ.countP isIssued + 1,
      event.id = eventId ticks count := by
    intro event hevent
    obtain ⟨ticks, count, hcount, hid⟩ := hσ.issued event hevent
    exact ⟨ticks, count, Nat.lt_succ_of_lt hcount, hid⟩
  have hwritten : Run.AtEach (IsWritten host) (σ ++ [.issued]) :=
    Run.atEach_concat.mpr ⟨hσ.written, fun _ heq => by cases heq⟩
  rcases record_stamps host log actor type summary details σ with hrun | ⟨event, hrun, hlast, hid⟩
  · rw [hrun]
    exact
      { written := hwritten
        issued := by simpa [isIssued] using hlater
        ordered := by simpa using hσ.ordered }
  · rw [hrun]
    refine ⟨?_, ?_, ?_⟩
    · rw [List.append_cons]
      exact Run.atEach_concat.mpr ⟨hwritten, hlast⟩
    · simp only [events_append, events_issued, events_appended, events_nil, List.mem_append,
        List.mem_singleton]
      have hcount : (σ ++ [Action.issued, .appended event]).countP isIssued =
          σ.countP isIssued + 1 := by
        rw [List.countP_append]
        rfl
      rw [hcount]
      rintro event' (hevent' | rfl)
      · exact hlater event' hevent'
      · exact ⟨_, _, Nat.lt_succ_self _, hid⟩
    · simp only [events_append, events_issued, events_appended, events_nil]
      rw [List.pairwise_append]
      refine ⟨hσ.ordered, List.pairwise_singleton _ _, fun event' hevent' last hlast => ?_⟩
      obtain rfl := List.mem_singleton.mp hlast
      obtain ⟨ticks, count, hcount, hid'⟩ := hσ.issued event' hevent'
      exact ⟨ticks, count, _, _, hid', hid, hcount⟩

/-- An execution, or a question to the model. -/
def IsUnrecorded : Action → Prop
  | .executed _ _ => True
  | .asked _ => True
  | _ => False

theorem keeps_of_unrecorded {α : Type} {m : Act α} (h : Run.Only IsUnrecorded m) :
    Run.Keeps (Trail host) m := by
  refine h.keeps fun σ a ha hσ => ?_
  have hevents : events (σ ++ [a]) = events σ := by
    cases a with
    | executed tool request => simp
    | asked question => simp
    | _ => cases ha
  have hcount : (σ ++ [a]).countP isIssued = σ.countP isIssued := by
    cases a with
    | executed tool request => simp [isIssued]
    | asked question => simp [isIssued]
    | _ => cases ha
  refine ⟨Run.atEach_concat.mpr ⟨hσ.written, fun event heq => ?_⟩, ?_, ?_⟩
  · subst heq
    exact ha.elim
  · rw [hevents, hcount]
    exact hσ.issued
  · rw [hevents]
    exact hσ.ordered

theorem keeps_ofExcept {α : Type} (x : Except Bytes α) : Run.Keeps (Trail host) (ofExcept x) := by
  cases x with
  | ok a => exact Run.keeps_pure a
  | error what => exact Run.keeps_throw _

theorem keeps_callTool (request : ToolRequest) (actor : Bytes) :
    Run.Keeps (Trail host) (service.callTool host request actor) := by
  have hrespond : Run.Keeps (Trail host) (service.respond request) := by
    refine keeps_of_unrecorded host fun σ a ha => ?_
    obtain ⟨s, response, hrun, hs⟩ := respond_ok service request σ
    rw [hrun] at ha
    have hexecution := hs a ha
    cases a with
    | executed tool request => trivial
    | _ => cases hexecution
  exact hrespond.bind fun response =>
    (keeps_record host service.audit _ _ _ _).bind fun _ => Run.keeps_pure response

theorem keeps_modelError (question : ModelRequest) (request : ToolRequest) (actor : Bytes)
    (error : Exn) : Run.Keeps (Trail host) (service.modelError host question request actor error) := by
  cases error with
  | std what => exact (keeps_record host service.audit _ _ _ _).bind fun _ => Run.keeps_pure _
  | other => exact (keeps_record host service.audit _ _ _ _).bind fun _ => Run.keeps_pure _

theorem keeps_askWithTool (prompt : Bytes) (request : ToolRequest) (actor : Bytes) :
    Run.Keeps (Trail host) (service.askWithTool host prompt request model actor) := by
  refine (keeps_callTool service host request actor).bind fun response => ?_
  have hask (question : ModelRequest) : Run.Keeps (Trail host) (model.ask question) :=
    keeps_of_unrecorded host fun σ a ha => by
      rw [run_ask] at ha
      obtain rfl := List.mem_singleton.mp ha
      trivial
  split_ifs
  · exact (keeps_record host service.audit _ _ _ _).bind fun _ => Run.keeps_pure _
  · refine (keeps_record host service.audit _ _ _ _).bind fun _ => ?_
    refine Run.Keeps.tryCatch ?_ (keeps_modelError service host _ request actor)
    exact (hask _).bind fun _ =>
      (keeps_record host service.audit _ _ _ _).bind fun _ => Run.keeps_pure _

theorem keeps_perform (id : Bytes) (command : Command) :
    Run.Keeps (Trail host) (perform service host model id command) := by
  cases command with
  | list => exact keeps_ofExcept host _
  | call request =>
    exact (keeps_callTool service host request _).bind fun _ => keeps_ofExcept host _
  | ask prompt request =>
    exact (keeps_askWithTool service host model prompt request _).bind fun _ => keeps_ofExcept host _
  | other => exact (keeps_record host service.audit _ _ _ _).bind fun _ => keeps_ofExcept host _

theorem keeps_protocolError (audit : AuditLog) (id : Bytes) (error : Exn) :
    Run.Keeps (Trail host) (protocolError audit host id error) := by
  cases error with
  | std what => exact (keeps_record host audit _ _ _ _).bind fun _ => keeps_ofExcept host _
  | other => exact Run.keeps_throw _

theorem keeps_handleRequest (input : Bytes) :
    Run.Keeps (Trail host) (handleRequest parser service host model input) := by
  unfold handleRequest
  cases parser.parse input with
  | error what => exact keeps_protocolError host service.audit unknownId (.std what)
  | ok request =>
    dsimp only
    rw [dispatch_eq]
    exact ((keeps_ofExcept host _).bind (keeps_perform service host model _)).tryCatch
      (keeps_protocolError host service.audit _)

end

/-! ### The file -/

/-- The contents of the audit file after each history. A record that is written is added where the
file ends; besides, only a write that failed adds to it, a first part of its record. -/
structure FileOf (host : Host) (contents : History → Bytes) : Prop where
  written : ∀ σ event, host.file σ (line event.toJson.render) = .written →
    contents (σ ++ [.appended event]) = contents σ ++ line event.toJson.render
  left : ∀ σ a, (∀ event, a ≠ .appended event) → ∃ part, contents (σ ++ [a]) = contents σ ++ part ∧
    (part ≠ [] → ∃ record, host.file σ record = .notWritten ∧ part <+: record)

/-- An event that is put on record begins a line of the file. -/
def RecordBeginsLine (contents : History → Bytes) (before : History) (a : Action) : Prop :=
  ∀ event, a = .appended event → AtLineStart (contents before)

/-- What puts no event on record leaves the file as it is. -/
def AddsNothing (contents : History → Bytes) (before : History) (a : Action) : Prop :=
  (∀ event, a ≠ .appended event) → contents (before ++ [a]) = contents before

section

variable {host : Host} {contents : History → Bytes} {parse : Bytes → Except Bytes Json}
  (hfile : FileOf host contents) (hparse : Json.Undoes parse)

include hfile hparse in
/-- As long as every record begins a line, the events on record are read back. -/
theorem readable_contents {σ : History} (hwritten : Run.AtEach (IsWritten host) σ)
    (hstart : Run.AtEach (RecordBeginsLine contents) σ) :
    Readable parse ⟨contents σ, events σ⟩ := by
  induction σ using List.reverseRecOn with
  | nil => exact ⟨[], List.nil_sublist _, by rw [events_nil]; exact .nil⟩
  | append_singleton σ a ih =>
    obtain ⟨hwritten, hlast⟩ := Run.atEach_concat.mp hwritten
    obtain ⟨hstart, hbegins⟩ := Run.atEach_concat.mp hstart
    have hread := ih hwritten hstart
    have hother (h : ∀ event, a ≠ .appended event) (hevents : events (σ ++ [a]) = events σ) :
        Readable parse ⟨contents (σ ++ [a]), events (σ ++ [a])⟩ := by
      obtain ⟨part, hpart, -⟩ := hfile.left σ a h
      rw [hpart, hevents]
      exact hread.more part
    cases a with
    | appended event =>
      obtain ⟨hencodable, houtcome⟩ := hlast event rfl
      have happended := @readable_append parse hparse _ event .written hread fun _ =>
        hbegins event rfl
      rw [LogFile.append, Json.dump_of_encodable hencodable] at happended
      rw [hfile.written σ event houtcome, events_append, events_appended, events_nil]
      exact happended
    | executed tool request => exact hother (fun _ h => by cases h) (by simp)
    | asked question => exact hother (fun _ h => by cases h) (by simp)
    | issued => exact hother (fun _ h => by cases h) (by simp)

include hfile in
/-- When failed writes leave nothing, the file grows by the records. -/
theorem contents_eq {σ : History} (hwritten : Run.AtEach (IsWritten host) σ)
    (hnothing : Run.AtEach (AddsNothing contents) σ) :
    contents σ = contents [] ++ (events σ).flatMap fun event => line event.toJson.render := by
  induction σ using List.reverseRecOn with
  | nil => simp
  | append_singleton σ a ih =>
    obtain ⟨hwritten, hlast⟩ := Run.atEach_concat.mp hwritten
    obtain ⟨hnothing, hleaves⟩ := Run.atEach_concat.mp hnothing
    have hbefore := ih hwritten hnothing
    have hother (h : ∀ event, a ≠ .appended event) (hevents : events (σ ++ [a]) = events σ) :
        contents (σ ++ [a]) = contents [] ++
          (events (σ ++ [a])).flatMap fun event => line event.toJson.render := by
      rw [hleaves h, hevents]
      exact hbefore
    cases a with
    | appended event =>
      rw [hfile.written σ event (hlast event rfl).2, hbefore]
      simp
    | executed tool request => exact hother (fun _ h => by cases h) (by simp)
    | asked question => exact hother (fun _ h => by cases h) (by simp)
    | issued => exact hother (fun _ h => by cases h) (by simp)

end

/-- Records that are added at the start of a line are complete lines of their own. -/
theorem completeLines_append_records {s : Bytes} (h : AtLineStart s) (recorded : List AuditEvent) :
    completeLines (s ++ recorded.flatMap fun event => line event.toJson.render) =
      completeLines s ++ recorded.map fun event => event.toJson.render := by
  induction recorded using List.reverseRecOn with
  | nil => simp
  | append_singleton recorded event ih =>
    have hstart : AtLineStart (s ++ recorded.flatMap fun event => line event.toJson.render) := by
      rcases List.eq_nil_or_concat recorded with rfl | ⟨before, last, rfl⟩
      · rwa [List.flatMap_nil, List.append_nil]
      · rw [List.concat_eq_append, List.flatMap_append, List.flatMap_singleton, ← List.append_assoc]
        exact atLineStart_append_line _ _
    rw [List.flatMap_append, List.flatMap_singleton, ← List.append_assoc,
      completeLines_append_line hstart (Json.newline_notMem_render _), ih, List.map_append,
      List.append_assoc]
    rfl

theorem mapM_readEvent {parse : Bytes → Except Bytes Json} (hparse : Json.Undoes parse)
    {recorded : List AuditEvent} (h : ∀ event ∈ recorded, event.toJson.Encodable) :
    (recorded.map fun event => event.toJson.render).mapM (readEvent parse) = .ok recorded := by
  induction recorded with
  | nil => rfl
  | cons event recorded ih =>
    rw [List.forall_mem_cons] at h
    rw [List.map_cons, List.mapM_cons, readEvent_render hparse h.1, ok_bind, ih h.2]
    rfl

theorem Trail.encodable {host : Host} {σ : History} (h : Trail host σ) :
    ∀ event ∈ events σ, event.toJson.Encodable := by
  intro event hevent
  obtain ⟨a, ha, hsame⟩ := List.mem_filterMap.mp hevent
  obtain ⟨before, after, rfl⟩ := List.append_of_mem ha
  cases a with
  | appended event' =>
    obtain rfl := Option.some.inj hsame
    exact (h.written before _ after rfl event' rfl).1
  | _ => cases hsame

/-- Whatever connections come to a daemon, and whatever its clock, its tools and its model do: the
ids of the events on record differ and were issued in the order of the records. Of any audit file:
as long as every record begins a line, each event on record is read back from a line of its own, in
their order, whatever failed writes have left; and if they leave nothing, the lines that are added
are read back as the events on record. -/
theorem audit_trail (parser : Parser) (service : SessionService) (host : Host)
    (model : ModelProvider) (euid : ℕ) (once : Bool) (conns : List ConnectionCalls) :
    let done := (serve euid (handleRequest parser service host model) once [] conns).1.flatMap
      Served.done
    (events done).Pairwise Before ∧ ((events done).map AuditEvent.id).Nodup ∧
      ∀ contents, FileOf host contents → ∀ parse, Json.Undoes parse →
        (Run.AtEach (RecordBeginsLine contents) done →
          ∀ part, Readable parse ⟨contents done ++ part, events done⟩) ∧
        (AtLineStart (contents []) → Run.AtEach (AddsNothing contents) done →
          ∃ added, completeLines (contents done) = completeLines (contents []) ++ added ∧
            added.mapM (readEvent parse) = .ok (events done)) := by
  intro done
  have htrail : Trail host done := by
    have hhistory := (@serve_history euid (handleRequest parser service host model) [] once conns).2
    rw [List.nil_append] at hhistory
    show Trail host ((serve euid (handleRequest parser service host model) once [] conns).1.flatMap
      Served.done)
    rw [hhistory]
    exact Run.Keeps.history (keeps_handleRequest parser service host model) (trail_nil host) _
  refine ⟨htrail.ordered, List.pairwise_map.mpr (htrail.ordered.imp Before.ne),
    fun contents hfile parse hparse => ⟨fun hstart part => ?_, fun hstart hnothing => ?_⟩⟩
  · exact (readable_contents hfile hparse htrail.written hstart).more part
  · refine ⟨_, ?_, mapM_readEvent hparse htrail.encodable⟩
    rw [contents_eq hfile htrail.written hnothing, completeLines_append_records hstart]

/-- A file that had one line, and takes every record whole. -/
def notedFile (σ : History) : Bytes :=
  line (noteEvent (ascii "a")).toJson.render ++
    (events σ).flatMap fun event => line event.toJson.render

theorem fileOf_noted (host : Host) : FileOf host notedFile where
  written σ event _ := by simp [notedFile]
  left σ a h := by
    refine ⟨[], ?_, fun hne => absurd rfl hne⟩
    cases a with
    | appended event => exact absurd rfl (h event)
    | _ => simp [notedFile]

def upConnections : List ConnectionCalls := [plainConnection 1000 (upCall ++ [chr '\n'])]

/-- The call is recorded, and its record is read back from the line after the first. -/
theorem audit_trail_up : ∃ call added,
    events ((serve 1000 upHandler true [] upConnections).1.flatMap Served.done) = [call] ∧
    completeLines (notedFile ((serve 1000 upHandler true [] upConnections).1.flatMap
      Served.done)) = (noteEvent (ascii "a")).toJson.render :: added ∧
    added.mapM (readEvent Json.parse) = .ok [call] := by
  have hrequest : request? 1000 (plainConnection 1000 (upCall ++ [chr '\n'])) = some upCall :=
    request?_of_arrived rfl rfl rfl newline_notMem_upCall upCall_length (arrived_bytes _)
  obtain ⟨call, -, hrun⟩ := @handleRequest_infoCallLine (ascii "7") (by decide) (by decide)
  have hdone : (serve 1000 upHandler true [] upConnections).1.flatMap Served.done =
      [.executed (ascii "system.info") Session.infoRequest, .issued, .appended call] := by
    have hlog : (serve 1000 upHandler true [] upConnections).1 =
        [acceptOne 1000 upHandler (plainConnection 1000 (upCall ++ [chr '\n'])) []] := by
      rcases @serve_cons 1000 upHandler (plainConnection 1000 (upCall ++ [chr '\n'])) [] true []
        with hlog | hlog
      · exact hlog
      · exact hlog
    rw [hlog, List.flatMap_singleton, done_acceptOne hrequest, upCall, hrun]
  have htrail := (audit_trail jsonParser upService stillHost (constantModel []) 1000 true
    upConnections).2.2 notedFile (fileOf_noted stillHost) Json.parse Json.undoes_parse
  obtain ⟨added, hadded, hread⟩ := htrail.2 (by decide +kernel) fun before a after _ hne => by
    cases a with
    | appended event => exact absurd rfl (hne event)
    | _ => simp [notedFile]
  have hfirst : completeLines (notedFile []) = [(noteEvent (ascii "a")).toJson.render] := by
    rw [notedFile, completeLines_line_append, lines_of_notMem (Json.newline_notMem_render _)]
    rfl
  have hevents : events ((serve 1000 upHandler true [] upConnections).1.flatMap Served.done) =
      [call] := by
    rw [hdone]
    rfl
  refine ⟨call, added, hevents, ?_, hevents ▸ hread⟩
  rw [hadded, hfirst, List.singleton_append]

end Kasli.Kaslid
