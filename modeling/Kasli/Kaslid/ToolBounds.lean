import Kasli.Kaslid.Delivery
import Kasli.Kaslid.Readings
import Kasli.Session.Failures

/-! How long the responses of the daemon's tools are. They keep to the caps of their evidence, and
what they say besides are words of the source around the id and the unit of the request; a
diagnosis repeats these most often, in the three records of its evidence. -/

namespace Kasli.Kaslid

open Core Audit Session Tools Json Ipc Utf8

/-! ### Caps -/

/-- The clock, the files and the commands that are read, the log and the model give texts within
their caps. -/
structure WithinCaps (host : Host) (readings : Readings) (audit : AuditLog)
    (model : ModelProvider) : Prop where
  clock : ∀ σ, (formatUtc (host.utc σ)).length ≤ 64
  release : ∀ σ, Small (SystemInfo.systemInfoBody (readings.osRelease σ) (readings.uname σ))
  diskUsage : ∀ σ, Small (readings.diskUsage σ).error
  hardwareSummary : ∀ σ, Small (readings.hardwareSummary σ).error
  networkSummary : ∀ σ, Small (readings.networkSummary σ).error
  powerStatus : ∀ σ, Small (readings.powerStatus σ).error
  packageCommand : ∀ σ, Small (readings.packageCommand σ).error
  fixture : ∀ parse path text, readings.journal = .fixture parse path text →
    Small (ascii "failed to open journal fixture: " ++ path)
  log : Small audit.path
  answers : ∀ τ question answer, model.complete τ question = .ok answer → Small answer
  failures : ∀ τ question what, model.complete τ question = .error (.std what) → Small what

/-- A word of the source. -/
def IsWord (n : ℕ) (s : Bytes) : Prop := IsAscii s ∧ escapedSize s ≤ n

instance (n : ℕ) (s : Bytes) : Decidable (IsWord n s) := inferInstanceAs (Decidable (_ ∧ _))

/-- Words of the source, and perhaps the unit of the request after them. -/
def IsSummary (request : ToolRequest) (summary : Bytes) : Prop :=
  ∃ words rest, summary = words ++ rest ∧ IsWord 64 words ∧
    (rest = [] ∨ rest = Systemd.unitParam request)

/-- An error, or one record in words of the source whose body is within the cap. -/
inductive Framed (cap : ℕ) (request : ToolRequest) (timestamp : Bytes) :
    Option ToolResponse → Prop
  | failed {message : Bytes} (h : Small message) :
    Framed cap request timestamp (some (errorResponse request message))
  | reported {name message summary body : Bytes} (hname : IsWord 32 name)
    (hmessage : IsWord 64 message) (hsummary : IsSummary request summary)
    (hbody : body.length ≤ cap) :
    Framed cap request timestamp (some (okResponse request name message summary body timestamp))

section

variable {cap : ℕ} {request : ToolRequest} {timestamp : Bytes}

theorem isSummary_word {s : Bytes} (h : IsWord 64 s) : IsSummary request s :=
  ⟨s, [], s.append_nil.symm, h, .inl rfl⟩

theorem isSummary_unit {words : Bytes} (h : IsWord 64 words) :
    IsSummary request (words ++ Systemd.unitParam request) :=
  ⟨words, _, rfl, h, .inr rfl⟩

theorem framed_format (input : BodyInput) (hcap : input.cap ≤ cap) {name message summary : Bytes}
    (hname : IsWord 32 name) (hmessage : IsWord 64 message)
    (hsummary : IsSummary request summary) :
    Framed cap request timestamp (input.format.bind fun body =>
      some (okResponse request name message summary body timestamp)) := by
  rw [input.format_eq, Option.bind_some]
  exact .reported hname hmessage hsummary ((length_capped_le input.marker_le_cap _).trans hcap)

instance (body : Bytes) : Decidable (Small body) := inferInstanceAs (Decidable (_ ≤ _))

/-! ### The tools -/

/-- What a provider fails with is passed on, and what it reports is formatted. -/
theorem framed_provider {ok : Bool} {unknown error : Bytes} (hunknown : Small unknown)
    (herror : Small error) (input : BodyInput) (hcap : input.cap ≤ cap)
    {name message summary : Bytes} (hname : IsWord 32 name) (hmessage : IsWord 64 message)
    (hsummary : IsSummary request summary) :
    Framed cap request timestamp
      (if !ok then some (errorResponse request (if error = [] then unknown else error))
      else input.format.bind fun body =>
        some (okResponse request name message summary body timestamp)) := by
  split_ifs
  · exact .failed hunknown
  · exact .failed herror
  · exact framed_format input hcap hname hmessage hsummary

theorem framed_diskUsage {result : Disk.DiskUsageResult} (h : Small result.error) :
    Framed (64 * 1024) request timestamp (Disk.diskUsageCall result timestamp request) :=
  framed_provider (by decide) h (.diskUsage result.rows result.hasMoreRows) le_rfl (by decide)
    (by decide) (isSummary_word (by decide))

theorem framed_hardwareSummary {result : Hardware.HardwareSummaryResult} (h : Small result.error) :
    Framed (64 * 1024) request timestamp
      (Hardware.hardwareSummaryCall result timestamp request) :=
  framed_provider (by decide) h (.hardwareSummary result.summary) le_rfl (by decide) (by decide)
    (isSummary_word (by decide))

theorem framed_networkSummary {result : Network.NetworkSummaryResult} (h : Small result.error) :
    Framed (64 * 1024) request timestamp (Network.networkSummaryCall result timestamp request) :=
  framed_provider (by decide) h (.networkSummary result.rows result.hasMoreRows) le_rfl
    (by decide) (by decide) (isSummary_word (by decide))

theorem framed_powerStatus {result : Power.PowerStatusResult} (h : Small result.error) :
    Framed (64 * 1024) request timestamp (Power.powerStatusCall result timestamp request) :=
  framed_provider (by decide) h (.powerStatus result.rows result.hasMoreRows) le_rfl (by decide)
    (by decide) (isSummary_word (by decide))

theorem framed_packageRecentChanges (sorting : Sorting Package.laterChange)
    (logs : List Package.LogFile) :
    Framed (64 * 1024) request timestamp
      (Package.packageRecentChangesCall sorting logs timestamp request) := by
  unfold Package.packageRecentChangesCall
  split_ifs
  · exact .failed (by decide)
  · exact framed_format (.packageChanges _ _) le_rfl (by decide) (by decide)
      (isSummary_word (by decide))

theorem framed_packageList (sorting : Sorting Package.packageBefore)
    {result : Package.PackageCommandResult} (h : Small result.error) :
    Framed (64 * 1024) request timestamp
      (Package.packageListCall sorting result timestamp request) :=
  framed_provider (by decide) h (.packageList _ _) le_rfl (by decide) (by decide)
    (isSummary_word (by decide))

/-- The messages of the lists of units are words of the source. -/
theorem small_read {E : Type} {reply : Systemd.ListReply E} {messages : Systemd.ListMessages}
    (h : messages ∈ [Systemd.unitMessages, Systemd.unitFileMessages]) {message : Bytes}
    (hread : reply.read messages = .error message) : Small message := by
  have hall : ∀ messages ∈ [Systemd.unitMessages, Systemd.unitFileMessages],
      Small messages.failedToList ∧ Small messages.failedToReadList ∧
        Small messages.failedToReadEntry ∧ Small messages.failedToFinish := by
    decide
  obtain ⟨hlist, hreadList, hentry, hfinish⟩ := hall messages h
  unfold Systemd.ListReply.read at hread
  split at hread
  all_goals cases hread
  · decide
  · decide
  all_goals assumption

theorem framed_units (reply : Systemd.ListReply Systemd.UnitEntry) :
    Framed (64 * 1024) request timestamp (Systemd.unitsCall reply timestamp request) := by
  unfold Systemd.unitsCall
  split
  · next message hread => exact .failed (small_read (by simp) hread)
  · exact framed_format (.unitsList _ _) le_rfl (by decide) (by decide)
      (isSummary_word (by decide))

theorem framed_failedServices (reply : Systemd.ListReply Systemd.UnitEntry) :
    Framed (64 * 1024) request timestamp (Systemd.failedServicesCall reply timestamp request) := by
  unfold Systemd.failedServicesCall
  split
  · next message hread => exact .failed (small_read (by simp) hread)
  · exact framed_format (.failedServices _ _) le_rfl (by decide) (by decide)
      (isSummary_word (by decide))

theorem framed_enabledServices (reply : Systemd.ListReply Systemd.UnitFileEntry) :
    Framed (64 * 1024) request timestamp
      (Systemd.enabledServicesCall reply timestamp request) := by
  unfold Systemd.enabledServicesCall
  split
  · next message hread => exact .failed (small_read (by simp) hread)
  · exact framed_format (.enabledServices _ _) le_rfl (by decide) (by decide)
      (isSummary_word (by decide))

theorem framed_unitStatus (reply : Bytes → Systemd.UnitReply) :
    Framed (64 * 1024) request timestamp (Systemd.unitStatusCall reply timestamp request) := by
  unfold Systemd.unitStatusCall
  dsimp only
  split
  · exact .failed (by decide)
  · split
    · exact .failed (by decide)
    · exact .failed (by decide)
    · exact .failed (by decide)
    · exact .failed (by decide)
    · exact framed_format (.unitStatus _) le_rfl (by decide) (by decide)
        (isSummary_unit (by decide))

theorem framed_journalFixture (parse : Bytes → Option Json) {path : Bytes}
    (h : Small (ascii "failed to open journal fixture: " ++ path)) (fixture : Option Bytes) :
    Framed Journal.maxBodyBytes request timestamp
      (Journal.journalFixtureCall parse path fixture timestamp request) := by
  unfold Journal.journalFixtureCall
  dsimp only
  split
  · exact .failed (by decide)
  · split
    · exact .failed h
    · exact framed_format (.journalFixture _ _ _) le_rfl (by decide) (by decide)
        (isSummary_unit (by decide))

theorem framed_liveJournal (reply : Bytes → Journal.JournalReply) :
    Framed Journal.maxBodyBytes request timestamp
      (Journal.liveJournalCall reply timestamp request) := by
  unfold Journal.liveJournalCall
  dsimp only
  split
  · exact .failed (by decide)
  · split
    · exact .failed (by decide)
    · exact .failed (by decide)
    · exact .failed (by decide)
    · exact .failed (by decide)
    · next read fails _ =>
      obtain ⟨result, hloop, htext, -⟩ := Journal.liveLoop_ofText fails [] 0 read
      rw [Body.ofText_nil] at hloop
      rw [hloop, Option.bind_eq_bind, Option.bind_some]
      cases result with
      | none => exact .failed (by decide)
      | some body =>
        refine .reported (by decide) (by decide) (isSummary_unit (by decide)) ?_
        rw [htext body rfl]
        exact length_capped_le Journal.marker_le _

theorem framed_systemInfo {osRelease : Option Bytes} {uname : Option SystemInfo.UtsName}
    (h : Small (SystemInfo.systemInfoBody osRelease uname)) :
    Framed (64 * 1024) request timestamp
      (SystemInfo.systemInfoCall osRelease uname timestamp request) :=
  .reported (by decide) (by decide) (isSummary_word (by decide)) h

theorem Framed.mono {cap' : ℕ} {result : Option ToolResponse}
    (h : Framed cap request timestamp result) (hcap : cap ≤ cap') :
    Framed cap' request timestamp result := by
  cases h with
  | failed h => exact .failed h
  | reported hname hmessage hsummary hbody =>
    exact .reported hname hmessage hsummary (hbody.trans hcap)

end

/-! ### Their calls -/

/-- The response of a call: what it says is within the caps. -/
def IsFramed (cap : ℕ) (request : ToolRequest) (response : ToolResponse) : Prop :=
  ∃ timestamp, IsAscii timestamp ∧ timestamp.length ≤ 64 ∧
    Framed cap request timestamp (some response)

section

variable {cap : ℕ} {host : Host} {readings : Readings} {audit : AuditLog} {model : ModelProvider}

theorem yields_leafCall (hclock : ∀ σ, (formatUtc (host.utc σ)).length ≤ 64)
    {call : History → Bytes → ToolRequest → Option ToolResponse} {p : History → Bytes → Prop}
    (reports : ∀ σ timestamp request, Reports (p σ) request (call σ timestamp request))
    (h : ∀ σ timestamp request, Framed cap request timestamp (call σ timestamp request))
    (name : Bytes) (request : ToolRequest) :
    Run.Yields (IsFramed cap request) (fun error => error = .other)
      (((leafCall host call p reports).tool name).call request) := by
  refine (Run.yields_emit _).bind fun _ _ => Run.yields_ask (fun σ response hcall => ?_)
    fun σ error hcall => ?_
  · have hframed := h σ (formatUtc (host.utc σ)) request
    split at hcall
    · next response' hresponse =>
      obtain rfl := Except.ok.inj hcall
      exact ⟨_, isAscii_formatUtc _, hclock σ, hresponse ▸ hframed⟩
    · cases hcall
  · split at hcall
    · cases hcall
    · exact (Except.error.inj hcall).symm

theorem framed_journal (hcaps : WithinCaps host readings audit model) (σ : History)
    (timestamp : Bytes) (request : ToolRequest) :
    Framed Journal.maxBodyBytes request timestamp
      (journalCall readings σ timestamp request) := by
  unfold journalCall
  split
  · next parse path text hjournal =>
    exact framed_journalFixture parse (hcaps.fixture parse path text hjournal) _
  · exact framed_liveJournal _

theorem yields_journalTool (hcaps : WithinCaps host readings audit model) (request : ToolRequest) :
    Run.Yields (IsFramed Journal.maxBodyBytes request) (fun error => error = .other)
      ((readings.tools host).journalTool.call request) :=
  yields_leafCall hcaps.clock (fun τ t r => reports_journal readings τ t r) (framed_journal hcaps)
    _ request

theorem yields_statusTool (hcaps : WithinCaps host readings audit model) (request : ToolRequest) :
    Run.Yields (IsFramed (64 * 1024) request) (fun error => error = .other)
      ((readings.tools host).statusTool.call request) :=
  yields_leafCall hcaps.clock (fun _ t _ => reports_unitStatus t _)
    (fun _ _ _ => framed_unitStatus _) _ request

/-- Every tool that calls no other keeps to the caps. -/
theorem yields_leaf (hcaps : WithinCaps host readings audit model) {tool : Tool}
    (hmem : tool ∈ (readings.tools host).leaves) (request : ToolRequest) :
    Run.Yields (IsFramed (64 * 1024) request) (fun error => error = .other)
      (tool.call request) := by
  have hclock := hcaps.clock
  simp only [KaslidTools.leaves, List.mem_cons, List.not_mem_nil, or_false] at hmem
  rcases hmem with rfl | rfl | rfl | rfl | rfl | rfl | rfl | rfl | rfl | rfl | rfl | rfl
  · exact yields_leafCall hclock (fun _ t _ => reports_systemInfo t _ _)
      (fun σ _ _ => framed_systemInfo (hcaps.release σ)) _ request
  · exact yields_leafCall hclock (fun _ t _ => reports_diskUsage t _)
      (fun σ _ _ => framed_diskUsage (hcaps.diskUsage σ)) _ request
  · exact yields_leafCall hclock (fun _ t _ => reports_hardwareSummary t _)
      (fun σ _ _ => framed_hardwareSummary (hcaps.hardwareSummary σ)) _ request
  · exact yields_leafCall hclock (fun _ t _ => reports_networkSummary t _)
      (fun σ _ _ => framed_networkSummary (hcaps.networkSummary σ)) _ request
  · exact yields_leafCall hclock (fun _ t _ => reports_powerStatus t _)
      (fun σ _ _ => framed_powerStatus (hcaps.powerStatus σ)) _ request
  · exact yields_leafCall hclock (fun _ t _ => reports_packageRecentChanges t _ _)
      (fun _ _ _ => framed_packageRecentChanges _ _) _ request
  · exact yields_leafCall hclock (fun _ t _ => reports_packageList t _ _)
      (fun σ _ _ => framed_packageList _ (hcaps.packageCommand σ)) _ request
  · exact yields_leafCall hclock (fun _ t _ => reports_units t _) (fun _ _ _ => framed_units _)
      _ request
  · exact yields_statusTool hcaps request
  · exact yields_leafCall hclock (fun _ t _ => reports_failedServices t _)
      (fun _ _ _ => framed_failedServices _) _ request
  · exact yields_leafCall hclock (fun _ t _ => reports_enabledServices t _)
      (fun _ _ _ => framed_enabledServices _) _ request
  · refine (yields_journalTool hcaps request).imp (fun response hframed => ?_) fun _ h => h
    obtain ⟨timestamp, hascii, hlen, h⟩ := hframed
    exact ⟨timestamp, hascii, hlen, h.mono (by decide)⟩

end

/-! ### Records -/

/-- The length of the records' texts, one after another. -/
def recordsSize (evidence : List Evidence) : ℕ :=
  (evidence.map fun e => evidenceFrame e + escapedSize e.body).sum

/-- Records that take so many bytes besides the id and the unit of the request, which each of
them repeats. -/
structure Fits (count bytes : ℕ) (request : ToolRequest) (evidence : List Evidence) : Prop where
  few : evidence.length ≤ count
  size : recordsSize evidence ≤
    bytes + count * (escapedSize request.id + escapedSize (Systemd.unitParam request))
  brief : request.Valid → ∀ e ∈ evidence, e.toJson.Each (IsBrief (64 * 1024))

section

variable {cap : ℕ} {request : ToolRequest}

theorem fits_nil {count bytes : ℕ} : Fits count bytes request [] :=
  ⟨Nat.zero_le _, Nat.zero_le _, fun _ => by simp⟩

theorem Fits.append {count count' bytes bytes' : ℕ} {evidence evidence' : List Evidence}
    (h : Fits count bytes request evidence) (h' : Fits count' bytes' request evidence') :
    Fits (count + count') (bytes + bytes') request (evidence ++ evidence') where
  few := by
    rw [List.length_append]
    exact Nat.add_le_add h.few h'.few
  size := by
    have hsize := h.size
    have hsize' := h'.size
    rw [recordsSize, List.map_append, List.sum_append, Nat.add_mul]
    rw [recordsSize] at hsize hsize'
    omega
  brief hvalid := List.forall_mem_append.mpr ⟨h.brief hvalid, h'.brief hvalid⟩

theorem valid_unitParam (h : request.Valid) : Valid (Systemd.unitParam request) := by
  unfold Systemd.unitParam
  cases hfind : request.params.find? (ascii "unit") with
  | none => decide
  | some unit => exact (h.params _ (OrderedMap.mem_entries_iff.mpr hfind)).2

theorem valid_summary {summary : Bytes} (hsummary : IsSummary request summary)
    (h : request.Valid) : Valid summary := by
  obtain ⟨words, rest, rfl, hwords, rfl | rfl⟩ := hsummary
  · rw [List.append_nil]
    exact valid_of_isAscii hwords.1
  · exact valid_append (valid_of_isAscii hwords.1) (valid_unitParam h)

theorem escapedSize_summary_le {summary : Bytes} (h : IsSummary request summary) :
    escapedSize summary ≤ 64 + escapedSize (Systemd.unitParam request) := by
  obtain ⟨words, rest, rfl, ⟨-, hwords⟩, rfl | rfl⟩ := h
  · rw [List.append_nil]
    omega
  · rw [escapedSize_append]
    omega

/-- A record in words of the source. -/
theorem fits_record {name summary body timestamp : Bytes} (hname : IsWord 32 name)
    (hsummary : IsSummary request summary) (hascii : IsAscii timestamp)
    (hlen : timestamp.length ≤ 64) (hbody : body.length ≤ cap) (hcap : cap ≤ 64 * 1024) :
    Fits 1 (572 + 6 * cap) request
      [{ id := request.id ++ ascii ":" ++ name, source := name, summary, body, timestamp }] where
  few := le_rfl
  size := by
    have hcolon : escapedSize (ascii ":") = 1 := by decide
    have hsummary := escapedSize_summary_le hsummary
    have htimestamp := escapedSize_le timestamp
    have hbody' := escapedSize_le body
    have hname' := hname.2
    simp only [recordsSize, List.map_cons, List.map_nil, List.sum_cons, List.sum_nil,
      evidenceFrame, quotedSize, escapedSize_append, hcolon]
    omega
  brief hvalid := by
    have hid : Valid (request.id ++ ascii ":" ++ name) :=
      valid_append (valid_append hvalid.id (by decide)) (valid_of_isAscii hname.1)
    rw [List.forall_mem_singleton]
    refine each_ofPairs ?_
    simp only [List.forall_mem_cons]
    refine ⟨⟨?_, each_string (.inl hid)⟩, ⟨?_, each_string (isBrief_of_isAscii hname.1)⟩,
      ⟨?_, each_string (.inl (valid_summary hsummary hvalid))⟩,
      ⟨?_, each_string (.inr (hbody.trans hcap))⟩,
      ⟨?_, each_string (isBrief_of_isAscii hascii)⟩, by simp⟩
    all_goals exact isBrief_of_isAscii (by decide)

theorem Framed.fits {timestamp : Bytes} {response : ToolResponse}
    (h : Framed cap request timestamp (some response)) (hascii : IsAscii timestamp)
    (hlen : timestamp.length ≤ 64) (hcap : cap ≤ 64 * 1024) :
    Fits 1 (572 + 6 * cap) request response.evidence := by
  cases h with
  | failed h => exact fits_nil
  | reported hname hmessage hsummary hbody =>
    exact fits_record hname hsummary hascii hlen hbody hcap

theorem requiredUnitParam_eq (h : requiredUnitParam request ≠ []) :
    requiredUnitParam request = Systemd.unitParam request := by
  unfold requiredUnitParam at h ⊢
  dsimp only at h ⊢
  split_ifs at h ⊢
  · exact absurd rfl h
  · rfl

/-- What the tool says for a request of its own, as part of what is said for the request that it
is made of. -/
theorem Fits.child {count bytes : ℕ} {suffix toolName : Bytes} {evidence : List Evidence}
    (h : Fits count bytes (childRequest request suffix toolName (requiredUnitParam request))
      evidence) (hunit : requiredUnitParam request ≠ []) (hsuffix : IsWord 7 suffix)
    (hname : IsAscii toolName) : Fits count (bytes + 8 * count) request evidence := by
  have hsame : Systemd.unitParam (childRequest request suffix toolName
      (requiredUnitParam request)) = Systemd.unitParam request := by
    rw [Systemd.unitParam, childRequest, OrderedMap.find?_ofList, OrderedMap.lookup_cons,
      if_pos rfl, Option.getD_some, requiredUnitParam_eq hunit]
  have hcolon : escapedSize (ascii ":") = 1 := by decide
  refine ⟨h.few, h.size.trans ?_, fun hvalid => h.brief ?_⟩
  · have hid : escapedSize (childRequest request suffix toolName
      (requiredUnitParam request)).id ≤ 8 + escapedSize request.id := by
      have hsuffix' := hsuffix.2
      simp only [childRequest, escapedSize_append, hcolon]
      omega
    have hrepeats := Nat.mul_le_mul_left count hid
    rw [Nat.mul_add] at hrepeats
    rw [hsame, Nat.mul_add, Nat.mul_add]
    omega
  · have hunitValid : Valid (requiredUnitParam request) := by
      unfold requiredUnitParam
      dsimp only
      split_ifs
      · decide
      · exact valid_unitParam hvalid
    refine ⟨valid_append (valid_append hvalid.id (by decide)) (valid_of_isAscii hsuffix.1),
      valid_of_isAscii hname, fun e he => ?_⟩
    obtain rfl := List.mem_singleton.mp (OrderedMap.mem_of_mem_ofList he)
    exact ⟨valid_of_isAscii (by decide : IsAscii (ascii "unit")), hunitValid⟩

/-! ### Responses -/

/-- A response that is short but for the id and the unit of the request, which it repeats most
often when it is a diagnosis. -/
structure Modest (request : ToolRequest) (response : ToolResponse) : Prop where
  requestId : response.requestId = request.id
  message : Small response.message
  size : responseFrame response + (response.evidence.map fun e => escapedSize e.body).sum ≤
    552 * 1024 + 2000 + 4 * escapedSize request.id +
      3 * escapedSize (Systemd.unitParam request)
  brief : request.Valid → ∀ e ∈ response.evidence, e.toJson.Each (IsBrief (64 * 1024))

theorem responseFrame_add_bodies (response : ToolResponse) :
    responseFrame response + (response.evidence.map fun e => escapedSize e.body).sum =
      50 + (response.evidence.length - 1) + recordsSize response.evidence +
        quotedSize response.message + quotedSize response.requestId +
          quotedSize response.status.toString := by
  have hsum : recordsSize response.evidence = (response.evidence.map evidenceFrame).sum +
      (response.evidence.map fun e => escapedSize e.body).sum :=
    List.sum_map_add
  rw [hsum, responseFrame, arraySize, List.length_map]
  omega

theorem quotedSize_status (status : ToolStatus) : quotedSize status.toString ≤ 8 := by
  cases status <;> decide

/-- An error without evidence. -/
theorem modest_failed {response : ToolResponse} (hid : response.requestId = request.id)
    (hmessage : Small response.message) (hnone : response.evidence = []) :
    Modest request response where
  requestId := hid
  message := hmessage
  size := by
    have hlen := escapedSize_le response.message
    have hstatus := quotedSize_status response.status
    have hrecords : recordsSize [] = 0 := rfl
    unfold Small at hmessage
    rw [responseFrame_add_bodies, hid, hnone, hrecords, quotedSize, quotedSize, List.length_nil]
    omega
  brief _ := by rw [hnone]; simp

theorem modest_of_fits {response : ToolResponse} {bytes : ℕ}
    (hid : response.requestId = request.id) (hmessage : IsWord 64 response.message)
    (h : Fits 3 bytes request response.evidence) (hbytes : bytes ≤ 552 * 1024 + 1800) :
    Modest request response where
  requestId := hid
  message := ((length_le_escapedSize _).trans hmessage.2).trans (by decide)
  size := by
    have hstatus := quotedSize_status response.status
    have hrecords := h.size
    have hfew := h.few
    have hword := hmessage.2
    rw [Nat.mul_add] at hrecords
    rw [responseFrame_add_bodies, hid, quotedSize, quotedSize]
    omega
  brief := h.brief

theorem IsFramed.modest {response : ToolResponse} (h : IsFramed (64 * 1024) request response) :
    Modest request response := by
  obtain ⟨timestamp, hascii, hlen, hframed⟩ := h
  have hfits := hframed.fits hascii hlen le_rfl
  cases hframed with
  | failed hmessage => exact modest_failed rfl hmessage rfl
  | reported hname hmessage hsummary hbody =>
    exact modest_of_fits rfl hmessage
      ⟨hfits.few.trans (by decide), hfits.size.trans (by omega), hfits.brief⟩ le_rfl

/-- A diagnosis is modest when what it is made of is framed. -/
theorem modest_diagnose {timestamp : Bytes} {status journal : ToolResponse}
    (hunit : requiredUnitParam request ≠ []) (hascii : IsAscii timestamp)
    (hlen : timestamp.length ≤ 64)
    (hstatus : IsFramed (64 * 1024) (childRequest request (ascii "status")
      (ascii "systemd.unit.status") (requiredUnitParam request)) status)
    (hjournal : IsFramed Journal.maxBodyBytes (childRequest request (ascii "journal")
      (ascii "journal.query") (requiredUnitParam request)) journal) :
    Modest request (diagnose request (requiredUnitParam request) timestamp status journal) := by
  obtain ⟨_, hasciiS, hlenS, hframedS⟩ := hstatus
  obtain ⟨_, hasciiJ, hlenJ, hframedJ⟩ := hjournal
  have hfitsS := (hframedS.fits hasciiS hlenS le_rfl).child hunit (by decide) (by decide)
  have hfitsJ := (hframedJ.fits hasciiJ hlenJ (by decide)).child hunit (by decide) (by decide)
  have hsummary : IsSummary request
      (ascii "aggregated service diagnosis for " ++ requiredUnitParam request) :=
    requiredUnitParam_eq hunit ▸ isSummary_unit (by decide)
  have hfits := fits_record (by decide : IsWord 32 (ascii "service.diagnose")) hsummary hascii
    hlen (DiagnosisBody.bounded ((diagnosisLines (requiredUnitParam request) status
      journal).foldl appendLine .empty)) (by decide)
  have hid : request.id ++ ascii ":" ++ ascii "service.diagnose" =
      request.id ++ ascii ":service.diagnose" := by
    rw [List.append_assoc]
    rfl
  rw [hid] at hfits
  refine modest_of_fits rfl ?_ (hfits.append (hfitsS.append hfitsJ)) (by decide)
  unfold diagnose
  dsimp only
  split_ifs
  · decide
  · decide

variable {host : Host} {readings : Readings} {audit : AuditLog} {model : ModelProvider}

theorem yields_diagnoseTool (hcaps : WithinCaps host readings audit model)
    (request : ToolRequest) :
    Run.Yields (Modest request) (fun error => error = .other)
      (((readings.tools host).diagnoseTool host).call request) := by
  refine (Run.yields_emit _).bind fun _ _ => ?_
  change Run.Yields _ _ (diagnoseCall host (readings.tools host).statusTool
    (readings.tools host).journalTool request)
  unfold diagnoseCall
  dsimp only
  split_ifs with hunit
  · exact Run.yields_pure (modest_failed rfl (show Small (ascii _) by decide) rfl)
  refine (yields_statusTool hcaps _).bind fun status hstatus => ?_
  refine (yields_journalTool hcaps _).bind fun journal hjournal => ?_
  have hclock : Run.Yields (fun t => IsAscii t ∧ t.length ≤ 64) (fun error => error = .other)
      (utcTimestamp host) :=
    Run.yields_ask (fun σ _ h => Except.ok.inj h ▸ ⟨isAscii_formatUtc _, hcaps.clock σ⟩)
      fun _ _ h => by cases h
  refine hclock.bind fun timestamp ⟨hascii, hlen⟩ => Run.yields_pure ?_
  exact modest_diagnose hunit hascii hlen hstatus hjournal

/-- The tools of the daemon respond within their caps, whatever is asked of them. -/
theorem yields_respond (hcaps : WithinCaps host readings audit model) (request : ToolRequest) :
    Run.Yields (Modest request) (fun _ => False)
      (((readings.tools host).service host audit).respond request) := by
  have hreason : ∀ policy : Policy.PolicyBroker, Small (policy.decide request).reason := by
    intro policy
    unfold Policy.PolicyBroker.decide
    split
    · decide
    · split_ifs
      · decide
      · decide
  have hdenied {message : Bytes} (h : Small message) :
      Modest request (deniedResponse request message) := modest_failed rfl h rfl
  unfold SessionService.respond
  dsimp only
  split_ifs
  · exact Run.yields_pure (hdenied (hreason _))
  split
  · exact Run.yields_pure (hdenied (by decide))
  · next tool hfind =>
    have hcall : Run.Yields (Modest request) (fun error => error = .other) (tool.call request) := by
      rcases List.mem_append.mp (ToolRegistry.find_eq_some_iff.mp hfind).1 with hleaf | hdiagnose
      · exact (yields_leaf hcaps hleaf request).imp (fun _ h => h.modest) fun _ h => h
      · obtain rfl := List.mem_singleton.mp hdiagnose
        exact yields_diagnoseTool hcaps request
    refine hcall.tryCatch fun error herror => Run.yields_pure ?_
    subst herror
    exact modest_failed rfl (show Small (ascii _) by decide) rfl

end

end Kasli.Kaslid
