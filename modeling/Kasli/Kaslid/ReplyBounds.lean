import Kasli.Kaslid.Answered
import Kasli.Kaslid.ToolBounds
import Kasli.Session.Diagnosis
import Kasli.Tools.StatusReading

/-! How long the replies of the daemon are. With what it reads, what the model answers and what is
thrown within the caps, only the strings of the line that the reply repeats can make it too long
for a line. -/

namespace Kasli.Kaslid

open Core Audit Session Tools Json Ipc Utf8

/-! ### Replies -/

/-- The part of the reply that the line determines: its id, and for a call the id of the request
and the unit as often as a diagnosis repeats them. -/
def Command.repeated (id : Bytes) : Command → ℕ
  | .call request =>
    escapedSize id + 4 * escapedSize request.id + 3 * escapedSize (Systemd.unitParam request)
  | _ => escapedSize id

section

variable {host : Host} {readings : Readings} {audit : AuditLog} {model : ModelProvider}
  (hcaps : WithinCaps host readings audit model)

include hcaps

theorem yields_modestCall {request : ToolRequest} (hvalid : request.Valid) :
    Run.Yields (Modest request) (ShortText (64 * 1024 + 100))
      (((readings.tools host).service host audit).callTool host request (ascii "cli")) :=
  yields_callTool (by decide) (by decide) host hcaps.log (by decide)
    (yields_respond hcaps request) fun e he => (hvalid.params e he).1

theorem yields_shortAsk (prompt : Bytes) {request : ToolRequest} (hvalid : request.Valid) :
    Run.Yields (ShortResult (64 * 1024)) (ShortText (64 * 1024 + 100))
      (((readings.tools host).service host audit).askWithTool host prompt request model
        (ascii "cli")) :=
  yields_askWithTool (by decide) (by decide) host hcaps.log (by decide)
    (yields_respond hcaps request) (fun e he => (hvalid.params e he).1) prompt
    (fun _ h => h.message) hcaps.answers fun τ question error h what heq =>
      hcaps.failures τ question what (heq ▸ h)

omit hcaps in
theorem brief_response {request : ToolRequest} {response : ToolResponse} (hvalid : request.Valid)
    (h : Modest request response) : response.toJson.Each (IsBrief (64 * 1024)) := by
  refine each_ofPairs ?_
  simp only [List.forall_mem_cons]
  refine ⟨⟨?_, each_string (.inl (h.requestId ▸ hvalid.id))⟩,
    ⟨?_, each_string (isBrief_of_isAscii (isAscii_toolStatus _))⟩,
    ⟨?_, each_string (.inr h.message)⟩,
    ⟨?_, each_array (List.forall_mem_map.mpr (h.brief hvalid))⟩, by simp⟩
  all_goals exact isBrief_of_isAscii (by decide)

omit hcaps in
theorem length_boundAuditString_le (value : Bytes) : (boundAuditString value).length ≤ 2048 := by
  have hmarker : marker.length ≤ 2048 := by decide
  unfold boundAuditString
  split_ifs
  · assumption
  · rw [List.length_append, List.length_take]
    omega

/-- Carrying out a command throws no long text. -/
theorem yields_perform {id : Bytes} (hid : Valid id) {command : Command} (hvalid : command.Valid) :
    Run.Yields (fun _ => True) (ShortText (64 * 1024 + 100))
      (perform ((readings.tools host).service host audit) host model id command) := by
  have hkey {n : ℕ} {k : Bytes} (h : IsAscii k) : IsBrief n k := isBrief_of_isAscii h
  have hidBrief {n : ℕ} := @each_string (IsBrief n) id (.inl hid)
  have hencode {n : ℕ} (hn : n < 10 ^ 20) {j : Json} (hj : j.Each (IsBrief n)) :
      Run.Yields (fun _ => True) (ShortText (64 * 1024 + 100)) (ofExcept j.dump : Act Bytes) :=
    (yields_dump hn hj).imp (fun _ _ => trivial) fun _ hshort what heq =>
      (hshort what heq).trans (by decide)
  cases command with
  | list =>
    refine @hencode 0 (by decide) _ (each_ofPairs ?_)
    have hnames : ∀ name ∈ KaslidTools.names, IsAscii name := by decide
    have htools : ((readings.tools host).service host audit).listTools = KaslidTools.names := rfl
    simp only [List.forall_mem_cons]
    refine ⟨⟨hkey (by decide), hidBrief⟩, ⟨hkey (by decide), each_bool true⟩,
      ⟨hkey (by decide), each_array ?_⟩, by simp⟩
    rw [htools, List.forall_mem_map]
    exact fun name hname => each_string (hkey (hnames name hname))
  | call request =>
    refine (yields_modestCall hcaps hvalid).bind fun response hmodest =>
      @hencode (64 * 1024) (by decide) _ (each_ofPairs ?_)
    simp only [List.forall_mem_cons]
    exact ⟨⟨hkey (by decide), hidBrief⟩, ⟨hkey (by decide), each_bool _⟩,
      ⟨hkey (by decide), brief_response hvalid hmodest⟩, by simp⟩
  | ask prompt request =>
    refine (yields_shortAsk hcaps prompt hvalid.2).bind fun result hshort =>
      @hencode (64 * 1024 + 100) (by decide) _ (each_ofPairs ?_)
    unfold ShortResult at hshort
    cases hok : result.ok with
    | true =>
      rw [hok, if_pos rfl] at hshort
      simp only [if_true, List.cons_append, List.nil_append, List.forall_mem_cons]
      exact ⟨⟨hkey (by decide), hidBrief⟩, ⟨hkey (by decide), each_bool _⟩,
        ⟨hkey (by decide), each_string (.inr (hshort.trans (by decide)))⟩, by simp⟩
    | false =>
      rw [hok, if_neg Bool.false_ne_true] at hshort
      simp only [Bool.false_eq_true, if_false, List.cons_append, List.nil_append,
        List.forall_mem_cons]
      exact ⟨⟨hkey (by decide), hidBrief⟩, ⟨hkey (by decide), each_bool _⟩,
        ⟨hkey (by decide), each_string (.inr hshort)⟩, by simp⟩
  | other =>
    have hbound (value : Bytes) : IsBrief (64 * 1024) (boundAuditString value) :=
      .inr ((length_boundAuditString_le value).trans (by decide))
    refine Run.Yields.bind (p := fun _ => True) ?_ fun _ _ =>
      @hencode 0 (by decide) _ (each_ofPairs ?_)
    · refine yields_record (by decide) host hcaps.log (by decide) (by decide) (hbound _)
        (briefDetails_ofList ?_)
      rw [List.forall_mem_singleton]
      exact ⟨hkey (by decide : IsAscii (ascii "request_id")), hbound _⟩
    · simp only [List.forall_mem_cons]
      exact ⟨⟨hkey (by decide), hidBrief⟩, ⟨hkey (by decide), each_bool _⟩,
        ⟨hkey (by decide), each_string (hkey (by decide))⟩, by simp⟩

/-- What is replied is short but for what the line determines. -/
theorem size_reply_le {id : Bytes} (hid : Valid id) {command : Command} (hvalid : command.Valid)
    {σ : History} {reply : Reply}
    (h : RepliesWith ((readings.tools host).service host audit) host model id σ command reply) :
    reply.size id ≤ command.repeated id + 554 * 1024 := by
  have hown : escapedSize id ≤ command.repeated id := by
    cases command with
    | call request => exact (Nat.le_add_right _ _).trans (Nat.le_add_right _ _)
    | _ => exact le_rfl
  have herror {error : Bytes} (h : error.length ≤ 64 * 1024 + 100) :
      (Reply.failed error).size id ≤ escapedSize id + 554 * 1024 := by
    have hsize := escapedSize_le error
    simp only [Reply.size, Reply.frameSize, Reply.capped, quotedSize, List.map_nil, List.sum_nil]
    omega
  cases h with
  | list =>
    have hnames : arraySize (KaslidTools.names.map quotedSize) ≤ 1000 := by decide
    have htools : ((readings.tools host).service host audit).listTools = KaslidTools.names := rfl
    simp only [Reply.size, Reply.frameSize, Reply.capped, quotedSize, htools, List.map_nil,
      List.sum_nil]
    omega
  | call h =>
    have hsize := ((yields_modestCall hcaps hvalid).returns h).size
    simp only [Reply.size, Reply.frameSize, Reply.capped, Command.repeated, quotedSize,
      List.map_map, Function.comp_def]
    split_ifs
    · omega
    · omega
  | @answer prompt request s result h hok =>
    have hshort := (yields_shortAsk hcaps _ hvalid.2).returns h
    have hsize := escapedSize_le result.answer
    rw [ShortResult, if_pos hok] at hshort
    simp only [Reply.size, Reply.frameSize, Reply.capped, Command.repeated, quotedSize,
      List.map_cons, List.map_nil, List.sum_cons, List.sum_nil]
    omega
  | refusal h hok =>
    have hshort := (yields_shortAsk hcaps _ hvalid.2).returns h
    rw [ShortResult, if_neg (by rw [hok]; decide)] at hshort
    exact herror hshort
  | other => exact herror (by decide)
  | thrown h =>
    exact (herror ((yields_perform hcaps hid hvalid).throws h _ rfl)).trans
      (Nat.add_le_add_right hown _)

/-- Whatever is asked in a line that decodes, the reply is a line and it is delivered, as long as
what it repeats of the line leaves room for the caps. -/
theorem reply_delivered {parser : Parser} {line : Bytes} {json : Json} {command : Command}
    (hp : parser.parse line = .ok json) (hd : decode json = .ok command)
    (hroom : command.repeated (requestIdOrUnknown json) ≤ 470 * 1024)
    {σ s : History} {reply : Bytes}
    (h : (handleRequest parser ((readings.tools host).service host audit) host model line).run σ =
      (s, .ok reply)) :
    chr '\n' ∉ reply ∧ reply.length ≤ maxUnixSocketLineBytes ∧ Deliverable reply := by
  obtain ⟨r, hreplies, rfl⟩ := handleRequest_reply hp hd h
  have hencodable := parser.encodable line json hp
  have hsize := size_reply_le hcaps (valid_requestId hencodable) (valid_of_decode hencodable hd)
    hreplies
  have hnot := newline_notMem_render (r.toJson (requestIdOrUnknown json))
  have hlen : (r.toJson (requestIdOrUnknown json)).render.length ≤ maxUnixSocketLineBytes := by
    rw [length_render_reply]
    unfold maxUnixSocketLineBytes
    omega
  exact ⟨hnot, hlen, (deliverable_iff hnot).mpr hlen⟩

end

/-! ### The reply to a diagnosis -/

/-- A call of a host whose clock stands still. -/
theorem run_leafCall {host : Host} {time : Bytes} (htime : ∀ σ, formatUtc (host.utc σ) = time)
    {call : History → Bytes → ToolRequest → Option ToolResponse} {p : History → Bytes → Prop}
    (reports : ∀ σ timestamp request, Reports (p σ) request (call σ timestamp request))
    {name : Bytes} {request : ToolRequest} {response : ToolResponse}
    (h : ∀ σ, call σ time request = some response) (σ : History) :
    (((leafCall host call p reports).tool name).call request).run σ =
      ([.executed name request], .ok response) := by
  have hbody (τ : History) : ((leafCall host call p reports).body request).run τ =
      ([], .ok response) := by
    simp only [leafCall, Run.run_ask, htime, h]
  have htool : ((leafCall host call p reports).tool name).body request =
      (leafCall host call p reports).body request := rfl
  rw [Tool.call, Run.run_emit_bind, htool, hbody]
  rfl

def sshProperties : Systemd.UnitProperties :=
  { id := some (ascii "ssh.service"), description := some (ascii "OpenBSD Secure Shell server"),
    loadState := some (ascii "loaded"), activeState := some (ascii "active"),
    subState := some (ascii "running"), unitFileState := some (ascii "enabled"),
    fragmentPath := some (ascii "/usr/lib/systemd/system/ssh.service"),
    result := some (ascii "success"), execMainCode := some 0, execMainStatus := some 0 }

/-- A system whose one service is active and has logged nothing. -/
def sshReadings : Readings :=
  { bareReadings (ascii "ID=debian\n") with
    unitStatus := fun _ _ => .properties sshProperties
    journal := .live fun _ _ => .entries [] false }

theorem sshReadings_withinCaps :
    WithinCaps stillHost sshReadings ⟨ascii "audit.jsonl"⟩ (constantModel []) where
  clock _ := show (formatUtc ⟨2026, 1, 1, 0, 0, 0⟩).length ≤ 64 by decide
  release _ := show Small (SystemInfo.systemInfoBody (some (ascii "ID=debian\n")) none) by decide
  diskUsage _ := Nat.zero_le _
  hardwareSummary _ := Nat.zero_le _
  networkSummary _ := Nat.zero_le _
  powerStatus _ := Nat.zero_le _
  packageCommand _ := show Small (ascii "rpm executable not found") by decide
  fixture _ _ _ h := by cases h
  log := by decide
  answers _ _ answer h := by
    obtain rfl : [] = answer := Except.ok.inj h
    decide
  failures _ _ _ h := by cases h

def stillTime : Bytes := ascii "2026-01-01T00:00:00Z"

theorem stillHost_time (σ : History) : formatUtc (stillHost.utc σ) = stillTime :=
  show formatUtc ⟨2026, 1, 1, 0, 0, 0⟩ = stillTime by decide

def sshStatusRequest : ToolRequest :=
  childRequest sshDiagnosis (ascii "status") (ascii "systemd.unit.status") (ascii "ssh.service")

def sshJournalRequest : ToolRequest :=
  childRequest sshDiagnosis (ascii "journal") (ascii "journal.query") (ascii "ssh.service")

def sshStatus : ToolResponse :=
  okResponse sshStatusRequest (ascii "systemd.unit.status") (ascii "systemd unit status read")
    (ascii "bounded systemd status for " ++ ascii "ssh.service")
    (Systemd.unitStatusLines (Systemd.unitStatusEvidence (ascii "ssh.service")
      sshProperties)).flatten stillTime

def sshJournal : ToolResponse :=
  okResponse sshJournalRequest (ascii "journal.query") (ascii "journal queried")
    (ascii "bounded recent journal entries for " ++ ascii "ssh.service") [] stillTime

def sshResponse : ToolResponse :=
  diagnose sshDiagnosis (ascii "ssh.service") stillTime sshStatus sshJournal

theorem run_sshStatus (σ : History) :
    ((sshReadings.tools stillHost).statusTool.call sshStatusRequest).run σ =
      ([.executed (ascii "systemd.unit.status") sshStatusRequest], .ok sshStatus) := by
  have htool : (sshReadings.tools stillHost).statusTool =
      (leafCall stillHost (fun σ => Systemd.unitStatusCall (sshReadings.unitStatus σ))
        (fun _ => Small) fun _ t _ => reports_unitStatus t _).tool
          (ascii "systemd.unit.status") := rfl
  have hcall (τ : History) : Systemd.unitStatusCall (sshReadings.unitStatus τ) stillTime
      sshStatusRequest = some sshStatus :=
    unitStatusCall_eq (show ascii ".service" <:+ ascii "ssh.service" by decide) rfl
      (show StatusFits (ascii "ssh.service") sshProperties by decide +kernel)
  rw [htool, run_leafCall stillHost_time _ hcall]

theorem run_sshJournal (σ : History) :
    ((sshReadings.tools stillHost).journalTool.call sshJournalRequest).run σ =
      ([.executed (ascii "journal.query") sshJournalRequest], .ok sshJournal) :=
  run_leafCall stillHost_time (fun τ t r => reports_journal sshReadings τ t r) (fun _ => rfl) σ

theorem run_sshDiagnosis (σ : History) :
    (((sshReadings.tools stillHost).diagnoseTool stillHost).call sshDiagnosis).run σ =
      ([.executed (ascii "service.diagnose") sshDiagnosis,
        .executed (ascii "systemd.unit.status") sshStatusRequest,
        .executed (ascii "journal.query") sshJournalRequest], .ok sshResponse) := by
  have htime (τ : History) : (utcTimestamp stillHost).run τ = ([], .ok stillTime) :=
    Prod.ext rfl (congrArg Except.ok (stillHost_time τ))
  have hunit : requiredUnitParam sshDiagnosis = ascii "ssh.service" := by decide
  have hbody (τ : History) : (diagnoseCall stillHost (sshReadings.tools stillHost).statusTool
      (sshReadings.tools stillHost).journalTool sshDiagnosis).run τ =
        ([.executed (ascii "systemd.unit.status") sshStatusRequest,
          .executed (ascii "journal.query") sshJournalRequest], .ok sshResponse) := by
    unfold diagnoseCall
    dsimp only
    rw [hunit, if_neg (by decide), ← sshStatusRequest, ← sshJournalRequest,
      Run.run_bind_of_ok (run_sshStatus τ), Run.run_bind_of_ok (run_sshJournal _),
      Run.run_bind_of_ok (htime _)]
    rfl
  have htool : ((sshReadings.tools stillHost).diagnoseTool stillHost).body sshDiagnosis =
      diagnoseCall stillHost (sshReadings.tools stillHost).statusTool
        (sshReadings.tools stillHost).journalTool sshDiagnosis := rfl
  have hname : ((sshReadings.tools stillHost).diagnoseTool stillHost).name =
      ascii "service.diagnose" := rfl
  rw [Tool.call, Run.run_emit_bind, htool, hbody, hname]

theorem respond_ssh :
    (((sshReadings.tools stillHost).service stillHost ⟨ascii "audit.jsonl"⟩).respond
        sshDiagnosis).run [] =
      ([.executed (ascii "service.diagnose") sshDiagnosis,
        .executed (ascii "systemd.unit.status") sshStatusRequest,
        .executed (ascii "journal.query") sshJournalRequest], .ok sshResponse) := by
  have hreached : ((sshReadings.tools stillHost).service stillHost
      ⟨ascii "audit.jsonl"⟩).reached sshDiagnosis =
        some ((sshReadings.tools stillHost).diagnoseTool stillHost) := by
    rw [SessionService.reached, if_pos ((allowed_iff _).mpr (by decide))]
    exact ToolRegistry.find_eq_some_iff.mpr
      ⟨List.mem_append_right _ (List.mem_singleton_self _), rfl⟩
  rw [respond_of_reached hreached, run_sshDiagnosis]
  rfl

theorem sshResponse_valid : sshResponse.Valid := by
  refine ⟨by decide, by decide, ?_⟩
  have hbody : Valid (firstEvidenceBody sshResponse) := by decide +kernel
  have hstatus : Valid (firstEvidenceBody sshStatus) := by decide +kernel
  simp only [sshResponse, diagnose, sshStatus, sshJournal, okResponse, List.forall_mem_cons,
    List.cons_append, List.nil_append]
  exact ⟨⟨by decide, by decide, by decide, hbody, by decide⟩,
    ⟨by decide, by decide, by decide, hstatus, by decide⟩,
    ⟨by decide, by decide, by decide, by decide, by decide⟩, by simp⟩

theorem sshResponse_clean : CallClean sshDiagnosis sshResponse := by
  have hascii {value : Bytes} (h : IsAscii value) (n : ℕ) := cutsClean_of_isAscii h n
  refine ⟨hascii (by decide) _, hascii (by decide) _, ?_, hascii (by decide +kernel) _,
    hascii (by decide) _, evidenceClean_of_isAscii ?_⟩
  · intro e he
    obtain rfl := List.mem_singleton.mp (OrderedMap.mem_of_mem_ofList he)
    exact hascii (by decide) _
  · simp only [sshResponse, diagnose, sshStatus, sshJournal, okResponse, List.cons_append,
      List.nil_append, List.forall_mem_cons]
    exact ⟨⟨by decide, by decide, by decide, by decide⟩, ⟨by decide, by decide, by decide,
      by decide⟩, ⟨by decide, by decide, by decide, by decide⟩, by simp⟩

/-- The diagnosis is made, recorded and delivered. -/
theorem reply_delivered_ssh : ∃ s reply,
    (handleRequest jsonParser
      ((sshReadings.tools stillHost).service stillHost ⟨ascii "audit.jsonl"⟩) stillHost
      (constantModel []) (makeToolCallRequest (ascii "7") sshDiagnosis).render).run [] =
        (s, .ok reply) ∧
    chr '\n' ∉ reply ∧ reply.length ≤ maxUnixSocketLineBytes ∧ Deliverable reply := by
  have hrequest : sshDiagnosis.Valid := ⟨by decide, by decide, by decide⟩
  have hseven : Valid (ascii "7") := by decide
  obtain ⟨call, -, hrun⟩ := @handleRequest_callLine (ascii "7") (by decide) hseven _
    (constantModel []) stillHost (fun _ _ => rfl) _ _ _ hrequest sshResponse_valid
    sshResponse_clean respond_ssh
  exact ⟨_, _, hrun, reply_delivered sshReadings_withinCaps
    (parse_toolCallRequest hseven hrequest) (decode_toolCallRequest (by decide))
    (by decide) hrun⟩

end Kasli.Kaslid
