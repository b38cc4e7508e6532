import Kasli.Effect.Traces
import Kasli.Kaslid.Answered
import Kasli.Kaslid.Serve

/-! What a daemon puts on record. The types of the events whose append returned for one line are a
word of a fixed language: at most one tool call comes first, then what became of a question, and
last a protocol error. The records of a run are such words one after another. An append that threw
puts nothing on record, whatever its write has left in the file. -/

namespace Kasli.Kaslid

open Core Audit Session Ipc Tools

/-- The type of a record. -/
def recordType : Action → Option Bytes
  | .appended event => some event.type
  | _ => none

theorem filterMap_recordType (σ : History) :
    σ.filterMap recordType = (events σ).map AuditEvent.type := by
  rw [events, List.map_filterMap]
  congr 1
  funext a
  cases a <;> rfl

/-- One record. -/
def recorded (type : Bytes) : Language Bytes := {[type]}

/-- What comes of a question once it is on record. -/
def answerWords : Language Bytes := 1 + (recorded (ascii "model.response") + recorded (ascii "model.error"))

/-- What comes of a question after its tool call. -/
def questionWords : Language Bytes :=
  1 + (recorded (ascii "model.skipped") + recorded (ascii "model.request") * answerWords)

/-- What comes of a call or a question. -/
def commandWords : Language Bytes := 1 + recorded (ascii "tool.call") * questionWords

def errorWords : Language Bytes := 1 + recorded (ascii "protocol.error")

/-- What comes of a line. -/
def lineWords : Language Bytes := commandWords * errorWords

/-! ### The parts of the daemon -/

section

variable (parser : Parser) (service : SessionService) (host : Host) (model : ModelProvider)

theorem traces_record (log : AuditLog) (actor type summary : Bytes)
    (details : Except Bytes (OrderedMap Bytes Bytes)) :
    Run.Traces recordType (recorded type) 1 (log.record host actor type summary details) := by
  constructor
  · intro σ s a hrun
    rcases record_cases log host actor type summary details σ with ⟨event, d, -, hc, h⟩ | ⟨what, h⟩
    · obtain ⟨rfl, -⟩ := Prod.mk.inj (h.symm.trans hrun)
      have htype : event.type = type := congrArg Content.type hc
      rw [← htype]
      rfl
    · cases h.symm.trans hrun
  · intro σ s e hrun
    rcases record_cases log host actor type summary details σ with ⟨event, d, -, -, h⟩ | ⟨what, h⟩
    · cases h.symm.trans hrun
    · obtain ⟨rfl, -⟩ := Prod.mk.inj (h.symm.trans hrun)
      rfl

theorem traces_ofExcept {α : Type} (x : Except Bytes α) :
    Run.Traces recordType 1 1 (ofExcept x) := by
  cases x with
  | ok a => exact (Run.traces_pure a).mono le_rfl zero_le
  | error what => exact (Run.traces_throw _).mono zero_le le_rfl

/-- What is recorded and then returned. -/
theorem traces_recorded {α : Type} (log : AuditLog) (actor type summary : Bytes)
    (details : Except Bytes (OrderedMap Bytes Bytes)) (a : α) :
    Run.Traces recordType (recorded type) 1
      (do log.record host actor type summary details; return a) := by
  simpa using (traces_record host log actor type summary details).bind fun _ => Run.traces_pure a

theorem traces_callTool (request : ToolRequest) (actor : Bytes) :
    Run.Traces recordType (recorded (ascii "tool.call")) 1
      (service.callTool host request actor) := by
  have hrespond : Run.Traces recordType 1 0 (service.respond request) := by
    constructor
    · intro σ s response hrun
      obtain ⟨s', response', h, hs⟩ := respond_ok service request σ
      obtain ⟨rfl, -⟩ := Prod.mk.inj (h.symm.trans hrun)
      rw [filterMap_recordType, events_of_executions hs]
      rfl
    · intro σ s e hrun
      obtain ⟨s', response', h, -⟩ := respond_ok service request σ
      cases h.symm.trans hrun
  unfold SessionService.callTool
  refine (hrespond.bind fun response => traces_recorded host service.audit _ _ _ _ response).mono
    ?_ ?_
  · rw [one_mul]
  · rw [zero_add, one_mul]

theorem traces_complete (question : ModelRequest) (request : ToolRequest) (actor : Bytes) :
    Run.Traces recordType answerWords answerWords
      (tryCatch (service.complete host model question request actor)
        (service.modelError host question request actor)) := by
  have hask : Run.Traces recordType 1 1 (model.ask question) := by
    constructor
    · intro σ s a hrun
      obtain ⟨rfl, -⟩ := Prod.mk.inj ((run_ask model question σ).symm.trans hrun)
      rfl
    · intro σ s e hrun
      obtain ⟨rfl, -⟩ := Prod.mk.inj ((run_ask model question σ).symm.trans hrun)
      rfl
  have hcomplete := hask.bind fun answer => traces_recorded host service.audit actor
    (ascii "model.response") (ascii "model response received") (.ok (answerDetails request answer))
    ({ ok := true, answer, error := [] } : AskResult)
  have herror : ∀ error, Run.Traces recordType (recorded (ascii "model.error")) 1
      (service.modelError host question request actor error) := by
    intro error
    cases error with
    | std what => exact traces_recorded host service.audit _ _ _ _ _
    | other => exact traces_recorded host service.audit _ _ _ _ _
  refine (Run.Traces.tryCatch hcomplete herror).mono ?_ ?_
  · simp [answerWords]
  · simp [answerWords]

theorem one_le_questionWords : 1 ≤ questionWords := self_le_add_right _ _

theorem le_questionWords {words : Language Bytes}
    (h : words ≤ recorded (ascii "model.skipped") + recorded (ascii "model.request") * answerWords) :
    words ≤ questionWords := h.trans (self_le_add_left _ _)

theorem traces_askWithTool (prompt : Bytes) (request : ToolRequest) (actor : Bytes) :
    Run.Traces recordType commandWords commandWords
      (service.askWithTool host prompt request model actor) := by
  unfold SessionService.askWithTool
  refine Run.Traces.mono ((traces_callTool service host request actor).bind
    (fun response => ?_ : ∀ response, Run.Traces recordType questionWords questionWords _)) ?_ ?_
  · split_ifs with hstatus
    · refine (traces_recorded host service.audit _ _ _ _ _).mono ?_ one_le_questionWords
      exact le_questionWords (self_le_add_right _ _)
    · refine ((traces_record host service.audit _ _ _ _).bind fun _ =>
        traces_complete service host model _ request actor).mono ?_ ?_
      · exact le_questionWords (self_le_add_left _ _)
      · exact add_le one_le_questionWords (le_questionWords (self_le_add_left _ _))
  · exact self_le_add_left _ _
  · exact le_rfl

theorem toolCall_le : recorded (ascii "tool.call") ≤ commandWords := by
  have h : recorded (ascii "tool.call") * 1 ≤ recorded (ascii "tool.call") * questionWords :=
    mul_le_mul_right one_le_questionWords _
  rw [mul_one] at h
  exact h.trans (self_le_add_left _ _)

theorem one_le_commandWords : 1 ≤ commandWords := self_le_add_right _ _

/-- A command that is known is carried out so. -/
theorem traces_perform (id : Bytes) {command : Command} (h : command ≠ .other) :
    Run.Traces recordType commandWords commandWords (perform service host model id command) := by
  cases command with
  | list => exact (traces_ofExcept _).mono one_le_commandWords one_le_commandWords
  | call request =>
    refine ((traces_callTool service host request _).bind fun _ => traces_ofExcept _).mono ?_ ?_
    · rw [mul_one]
      exact toolCall_le
    · rw [mul_one]
      exact add_le one_le_commandWords toolCall_le
  | ask prompt request =>
    refine ((traces_askWithTool service host model prompt request _).bind fun _ =>
      traces_ofExcept _).mono ?_ ?_
    · rw [mul_one]
    · rw [mul_one, add_idem]
  | other => exact absurd rfl h

theorem traces_protocolError (audit : AuditLog) (id : Bytes) (error : Exn) :
    Run.Traces recordType errorWords errorWords (protocolError audit host id error) := by
  cases error with
  | std what =>
    refine ((traces_record host audit _ _ _ _).bind fun _ => traces_ofExcept _).mono ?_ ?_
    · rw [mul_one]
      exact self_le_add_left _ _
    · rw [mul_one]
      exact le_rfl
  | other => exact (Run.traces_throw _).mono zero_le (self_le_add_right _ _)

/-- An unknown method is reported once: its reply can always be encoded. -/
theorem traces_perform_other {id : Bytes} (hid : Utf8.Valid id) :
    Run.Traces recordType (recorded (ascii "protocol.error")) 1
      (perform service host model id .other) := by
  have hreply : (makeErrorResponse id (ascii "unknown method")).Encodable :=
    (encodable_errorResponse _ _).mpr ⟨hid, by decide⟩
  unfold perform
  rw [Json.dump_of_encodable hreply]
  exact traces_recorded host service.audit _ _ _ _ _

theorem errorWords_le : errorWords ≤ lineWords := by
  have h : 1 * errorWords ≤ commandWords * errorWords := mul_le_mul_left one_le_commandWords _
  rwa [one_mul] at h

theorem commandWords_le : commandWords ≤ lineWords := by
  have h : commandWords * 1 ≤ commandWords * errorWords :=
    mul_le_mul_right (self_le_add_right _ _) _
  rwa [mul_one] at h

theorem traces_handleRequest (input : Bytes) :
    Run.Traces recordType lineWords lineWords
      (handleRequest parser service host model input) := by
  have hcatch (id : Bytes) := traces_protocolError host service.audit id
  unfold handleRequest
  cases hparse : parser.parse input with
  | error what => exact (hcatch unknownId _).mono errorWords_le errorWords_le
  | ok request =>
    dsimp only
    rw [dispatch_eq]
    cases hdecode : decode request with
    | error what =>
      rw [ofExcept_error, Run.throw_bind]
      refine ((Run.traces_throw (Exn.std what)).tryCatch (hcatch _)).mono ?_ ?_
      · rw [zero_add, one_mul]
        exact errorWords_le
      · rw [one_mul]
        exact errorWords_le
    | ok command =>
      rw [ofExcept_ok, Run.pure_bind]
      by_cases hother : command = .other
      · subst hother
        have hid := valid_requestId (parser.encodable input request hparse)
        refine ((traces_perform_other service host model hid).tryCatch (hcatch _)).mono ?_ ?_
        · rw [one_mul]
          exact add_le ((self_le_add_left _ _).trans errorWords_le) errorWords_le
        · rw [one_mul]
          exact errorWords_le
      · refine ((traces_perform service host model _ hother).tryCatch (hcatch _)).mono ?_ le_rfl
        exact add_le commandWords_le le_rfl

end

/-- Whatever connections come to a daemon, and whatever its tools and its model do and whichever
appends return: the types of the events on record are one word of the language of a line for each
request that was handed to it. -/
theorem audit_grammar (parser : Parser) (service : SessionService) (host : Host)
    (model : ModelProvider) (euid : ℕ) (once : Bool) (conns : List ConnectionCalls) :
    let log := (serve euid (handleRequest parser service host model) once [] conns).1
    (events (log.flatMap Served.done)).map AuditEvent.type ∈
      lineWords ^ ((conns.take log.length).filterMap (request? euid)).length := by
  intro log
  have hhistory := (@serve_history euid (handleRequest parser service host model) [] once conns).2
  rw [List.nil_append] at hhistory
  have hdone : log.flatMap Served.done = Run.history (handleRequest parser service host model) []
      ((conns.take log.length).filterMap (request? euid)) := hhistory
  rw [hdone, ← filterMap_recordType]
  exact Run.Traces.history (traces_handleRequest parser service host model) _

end Kasli.Kaslid
