import Kasli.Ipc.Client
import Kasli.Kaslid.Delivery
import Kasli.Kaslid.Serve

/-! A client and the daemon on one connection. The client's request is a line of the daemon's, and
the daemon's reply is a line of the client's; the streams between them may be cut anywhere and
arrive in any portions. What a client gets for an answer is the daemon's reply to its own request,
and on a connection that works it gets that reply. -/

namespace Kasli.Ipc

section

variable {script : List SendResult} {data line : Bytes}

/-- Only lines are written. -/
theorem line_of_written (h : (writeLine script data).1 ≠ []) :
    chr '\n' ∉ data ∧ data.length ≤ maxUnixSocketLineBytes := by
  rw [writeLine] at h
  split_ifs at h with hlong hmem
  · exact absurd rfl h
  · exact absurd rfl h
  · exact ⟨hmem, by omega⟩

/-- A line at the start of what is written of a line is that line. -/
theorem eq_of_isPrefix_written (h : line ++ [chr '\n'] <+: (writeLine script data).1) :
    line = data := by
  have hne : (writeLine script data).1 ≠ [] := fun hnil => by simp [hnil] at h
  have hnot := (line_of_written hne).1
  obtain ⟨later, hlater⟩ := h.trans (writeLine_isPrefix script data).1
  rw [List.append_assoc, List.singleton_append] at hlater
  rcases List.append_eq_append_iff.mp hlater with ⟨m, hdata, hm⟩ | ⟨m, hline, hm⟩
  · cases m with
    | nil => rw [hdata, List.append_nil]
    | cons b m =>
      obtain ⟨rfl, -⟩ := List.cons.inj hm
      exact absurd (by simp [hdata]) hnot
  · cases m with
    | nil => rw [hline, List.append_nil]
    | cons b m => simp at hm

end

section

variable {calls : ClientCalls} {socketPath request : Bytes}

/-- The bytes of a request come from its line. -/
theorem written_isPrefix :
    (requestOverUnixSocket calls socketPath request).1 <+: (writeLine calls.sends request).1 := by
  rw [requestOverUnixSocket]
  cases connectClient calls socketPath with
  | error error => exact List.nil_prefix
  | ok _ =>
    dsimp only
    cases (writeLine calls.sends request).2 <;> exact List.prefix_refl _

theorem readLine_of_answer {answer : Bytes}
    (h : (requestOverUnixSocket calls socketPath request).2 = some (.ok answer)) :
    readLine (ascii "response") calls.reads = .returned answer := by
  rw [requestOverUnixSocket] at h
  cases hconnect : connectClient calls socketPath with
  | error error =>
    rw [hconnect] at h
    cases h
  | ok _ =>
    rw [hconnect] at h
    dsimp only at h
    cases houtcome : (writeLine calls.sends request).2 with
    | returned _ =>
      rw [houtcome] at h
      cases hread : readLine (ascii "response") calls.reads with
      | returned line =>
        simp only [hread, Outcome.ended, Option.some.injEq, Except.ok.injEq] at h
        rw [h]
      | threw what => simp [hread, Outcome.ended] at h
      | waiting => simp [hread, Outcome.ended] at h
    | threw what =>
      rw [houtcome] at h
      cases h
    | waiting =>
      rw [houtcome] at h
      cases h

end

end Kasli.Ipc

namespace Kasli.Kaslid

open Core Session Ipc

/-! ### Any connection -/

/-- At each end a first part of what is written at the other arrives. -/
structure Joined (client : ClientCalls) (conn : ConnectionCalls) (socketPath request : Bytes)
    (served : Served) : Prop where
  request : arrived conn.reads <+: (requestOverUnixSocket client socketPath request).1
  reply : arrived client.reads <+: served.written

/-- The line that is handed over is the one that was written. -/
theorem eq_of_request? {conn : ConnectionCalls} {euid : ℕ} {script : List SendResult}
    {request line : Bytes} (h : arrived conn.reads <+: (writeLine script request).1)
    (hline : request? euid conn = some line) : line = request :=
  eq_of_isPrefix_written ((isPrefix_of_readLine (of_request? hline).2).1.trans h)

/-- A line that is written to a client is what the handler returned for its request. -/
theorem handled_of_written {conn : ConnectionCalls} {euid : ℕ} {handler : Bytes → Act Bytes}
    {σ : History} {answer : Bytes}
    (h : answer ++ [chr '\n'] <+: (acceptOne euid handler conn σ).written) :
    ∃ line, request? euid conn = some line ∧
      (handler line).run σ = ((acceptOne euid handler conn σ).done, .ok answer) := by
  cases hline : request? euid conn with
  | none =>
    rw [(acceptOne_of_none hline).2.1] at h
    simp at h
  | some line =>
    refine ⟨line, rfl, ?_⟩
    rcases hrun : (handler line).run σ with ⟨s, error | reply⟩
    · rw [acceptOne_of_error hline hrun] at h
      simp at h
    · rw [acceptOne_of_ok hline hrun] at h ⊢
      rw [eq_of_isPrefix_written h]

/-- Whatever fails: the daemon handles the client's request whole or not at all, and an answer is
what the daemon's handler returned for this request, after the history of the requests before. -/
theorem answer_is_reply (client : ClientCalls) (conn : ConnectionCalls) (socketPath request : Bytes)
    (euid : ℕ) (handler : Bytes → Act Bytes) (σ : History)
    (h : Joined client conn socketPath request (acceptOne euid handler conn σ)) :
    ((acceptOne euid handler conn σ).done = [] ∨
      (acceptOne euid handler conn σ).done = ((handler request).run σ).1) ∧
    ∀ answer, (requestOverUnixSocket client socketPath request).2 = some (.ok answer) →
      (handler request).run σ = ((acceptOne euid handler conn σ).done, .ok answer) := by
  have hsame : ∀ line, request? euid conn = some line → line = request := fun line hline =>
    eq_of_request? (h.request.trans written_isPrefix) hline
  constructor
  · cases hline : request? euid conn with
    | none => exact .inl (acceptOne_of_none hline).1
    | some line =>
      obtain rfl := hsame line hline
      exact .inr (done_acceptOne hline)
  · intro answer hanswer
    have hread := (isPrefix_of_readLine (readLine_of_answer hanswer)).1
    obtain ⟨line, hline, hrun⟩ := handled_of_written (hread.trans h.reply)
    obtain rfl := hsame line hline
    exact hrun

/-! ### A connection that works -/

/-- The connection is made between processes of one user, and all that is written at one end
arrives at the other. The daemon closes its end when it has served. -/
structure Working (euid : ℕ) (client : ClientCalls) (conn : ConnectionCalls)
    (socketPath request : Bytes) (served : Served) : Prop where
  connected : connectClient client socketPath = .ok ()
  sends : ∀ r ∈ client.sends, r.Proceeds
  room : request.length < capacity client.sends
  accepted : acceptClient conn.accepts = .returned ()
  prepared : prepareConnectedSocket conn = .ok ()
  peer : conn.peer = .given true euid
  request : arrived conn.reads = (requestOverUnixSocket client socketPath request).1
  replies : ∀ r ∈ conn.sends, r.Proceeds
  replyRoom : maxUnixSocketLineBytes < capacity conn.sends
  reply : arrived client.reads = served.written
  closed : ending (ascii "response") client.reads = .threw (missingFraming (ascii "response"))

section

variable {euid : ℕ} {client : ClientCalls} {conn : ConnectionCalls} {socketPath request : Bytes}
  {handler : Bytes → Act Bytes} {σ : History}

theorem requestOverUnixSocket_of_connected (hconnect : connectClient client socketPath = .ok ())
    (hsends : ∀ r ∈ client.sends, r.Proceeds) (hroom : request.length < capacity client.sends)
    (hnot : chr '\n' ∉ request) (hlen : request.length ≤ maxUnixSocketLineBytes) :
    requestOverUnixSocket client socketPath request =
      (request ++ [chr '\n'], (readLine (ascii "response") client.reads).ended) := by
  have hwrite := writeLine_of_proceeds hnot hlen hsends hroom
  simp only [requestOverUnixSocket, hconnect, hwrite]

theorem request?_of_arrived (haccept : acceptClient conn.accepts = .returned ())
    (hprepare : prepareConnectedSocket conn = .ok ()) (hpeer : conn.peer = .given true euid)
    (hnot : chr '\n' ∉ request) (hlen : request.length ≤ maxUnixSocketLineBytes)
    (harrived : arrived conn.reads = request ++ [chr '\n']) :
    request? euid conn = some request := by
  have hread := @readLine_of_arrived (ascii "request") request conn.reads hnot hlen harrived
  rw [request?_eq_some, acceptRequest, haccept, hprepare]
  dsimp only
  rw [validateSameUidPeer_eq_ok.mpr hpeer]
  exact hread

theorem Working.joined {served : Served}
    (h : Working euid client conn socketPath request served) :
    Joined client conn socketPath request served :=
  ⟨h.request ▸ List.prefix_refl _, h.reply ▸ List.prefix_refl _⟩

/-- What arrives of a line that is not written is its missing end. -/
theorem readLine_of_closed (h : arrived client.reads = [])
    (hclosed : ending (ascii "response") client.reads =
      .threw (missingFraming (ascii "response"))) :
    readLine (ascii "response") client.reads = .threw (missingFraming (ascii "response")) := by
  rw [readLine_eq, h, if_neg (by simp [firstLine]), if_neg List.not_mem_nil, hclosed]

/-- On a connection that works a request that is a line is handled, and the client gets the reply
when it is a line, and else is told that there is none. -/
theorem request_answered
    (h : Working euid client conn socketPath request (acceptOne euid handler conn σ))
    (hnot : chr '\n' ∉ request) (hlen : request.length ≤ maxUnixSocketLineBytes) :
    (acceptOne euid handler conn σ).done = ((handler request).run σ).1 ∧
      (requestOverUnixSocket client socketPath request).2 =
        match ((handler request).run σ).2 with
        | .ok reply =>
          if chr '\n' ∉ reply ∧ reply.length ≤ maxUnixSocketLineBytes then some (.ok reply)
          else some (.error (.other (missingFraming (ascii "response"))))
        | .error _ => some (.error (.other (missingFraming (ascii "response")))) := by
  have hover := requestOverUnixSocket_of_connected h.connected h.sends h.room hnot hlen
  have harrived := h.request
  rw [hover] at harrived
  have hline := request?_of_arrived h.accepted h.prepared h.peer hnot hlen harrived
  refine ⟨done_acceptOne hline, ?_⟩
  have hreply := h.reply
  rw [hover]
  rcases hrun : (handler request).run σ with ⟨s, error | reply⟩
  · rw [acceptOne_of_error hline hrun] at hreply
    simp only [readLine_of_closed hreply h.closed, Outcome.ended]
  · rw [acceptOne_of_ok hline hrun] at hreply
    dsimp only at hreply ⊢
    split_ifs with hgood
    · obtain ⟨hnot', hlen'⟩ := hgood
      rw [writeLine_of_proceeds hnot' hlen' h.replies (Nat.lt_of_le_of_lt hlen' h.replyRoom)]
        at hreply
      rw [readLine_of_arrived hnot' hlen' hreply]
      rfl
    · have hnone : (writeLine conn.sends reply).1 = [] := by
        by_contra hne
        exact hgood (line_of_written hne)
      rw [hnone] at hreply
      simp only [readLine_of_closed hreply h.closed, Outcome.ended]

end

/-! ### A client of the daemon -/

section

variable {parser : Parser} {service : SessionService} {host : Host} {model : ModelProvider}

/-- Every reply of the daemon is the text of a JSON value. -/
theorem reply_rendered {line reply : Bytes} {σ s : History}
    (h : (handleRequest parser service host model line).run σ = (s, .ok reply)) :
    ∃ json : Json, reply = json.render := by
  unfold handleRequest at h
  cases hparse : parser.parse line with
  | error what =>
    rw [hparse] at h
    exact ⟨_, protocolError_failed host h⟩
  | ok json =>
    rw [hparse] at h
    dsimp only at h
    rw [dispatch_eq] at h
    rcases Run.tryCatch_cases h with ⟨_, hr, hreply⟩ | ⟨s₁, error, s₂, hr, hc, -⟩
    · obtain rfl := Except.ok.inj hreply
      rcases Run.bind_cases hr with ⟨_, -, he⟩ | ⟨s₁, command, s₂, -, hperform, -⟩
      · cases he
      · obtain ⟨r, -, hr⟩ := perform_reply service host model hperform
        exact ⟨_, hr⟩
    · cases error with
      | std what => exact ⟨_, protocolError_failed host hc⟩
      | other => cases hc

/-- What a client gets when the handler ends so. -/
def clientOutcome : Except Exn Bytes → Except RequestError Bytes
  | .ok reply =>
    if reply.length ≤ maxUnixSocketLineBytes then .ok reply
    else .error (.other (missingFraming (ascii "response")))
  | .error _ => .error (.other (missingFraming (ascii "response")))

section

variable {euid : ℕ} {client : ClientCalls} {conn : ConnectionCalls} {socketPath request : Bytes}
  {σ : History}

theorem outcome_of_working (h : Working euid client conn socketPath request
      (acceptOne euid (handleRequest parser service host model) conn σ))
    (hnot : chr '\n' ∉ request) (hlen : request.length ≤ maxUnixSocketLineBytes) :
    (requestOverUnixSocket client socketPath request).2 =
      some (clientOutcome ((handleRequest parser service host model request).run σ).2) := by
  rw [(request_answered h hnot hlen).2]
  rcases hrun : (handleRequest parser service host model request).run σ with ⟨s, error | reply⟩
  · rfl
  · obtain ⟨json, rfl⟩ := reply_rendered hrun
    simp only [clientOutcome, Json.newline_notMem_render, not_false_eq_true, true_and]
    split_ifs
    · rfl
    · rfl

/-- A client whose request is a line has it handled, and gets the daemon's reply, unless it is
longer than a line may be or there is none; then the client is told that nothing came. -/
theorem daemon_answers (h : Working euid client conn socketPath request
      (acceptOne euid (handleRequest parser service host model) conn σ))
    (hnot : chr '\n' ∉ request) (hlen : request.length ≤ maxUnixSocketLineBytes) :
    (acceptOne euid (handleRequest parser service host model) conn σ).done =
        ((handleRequest parser service host model request).run σ).1 ∧
      (requestOverUnixSocket client socketPath request).2 =
        some (clientOutcome ((handleRequest parser service host model request).run σ).2) :=
  ⟨(request_answered h hnot hlen).1, outcome_of_working h hnot hlen⟩

end

/-- A tool call over a connection that works: the daemon calls the tool with the client's request
and does nothing else, and from the answer the client reads the response that the call returned,
when the answer is no longer than a line may be. -/
theorem tool_call_delivered (hparse : Json.Undoes parser.parse) {id : Bytes} (hid : id ≠ unknownId)
    (hv : Utf8.Valid id) {request : ToolRequest} (hrequest : request.Valid)
    (hlen : (makeToolCallRequest id request).render.length ≤ maxUnixSocketLineBytes)
    {euid : ℕ} {client : ClientCalls} {conn : ConnectionCalls} {socketPath : Bytes} {σ s : History}
    (h : Working euid client conn socketPath (makeToolCallRequest id request).render
      (acceptOne euid (handleRequest parser service host model) conn σ))
    {response : ToolResponse}
    (hcall : (service.callTool host request (ascii "cli")).run σ = (s, .ok response))
    (hresponse : response.Valid)
    (hsize : (Reply.called response).size id ≤ maxUnixSocketLineBytes) :
    (acceptOne euid (handleRequest parser service host model) conn σ).done = s ∧
      ∃ answer json,
        (requestOverUnixSocket client socketPath (makeToolCallRequest id request).render).2 =
          some (.ok answer) ∧
        parser.parse answer = .ok json ∧ Conveys json id response := by
  have hanswers := outcome_of_working h (Json.newline_notMem_render _) hlen
  obtain ⟨hdone, -⟩ := request_answered h (Json.newline_notMem_render _) hlen
  have hsame : requestIdOrUnknown (makeToolCallRequest id request) = id :=
    requestIdOrUnknown_ofPairs rfl
  have hreply := encodable_toolCallResponse hv hresponse
  have hrun : (handleRequest parser service host model (makeToolCallRequest id request).render).run
      σ = (s, .ok (makeToolCallResponse id response).render) := by
    rw [handleRequest_render service host model hparse written_toolCallRequest
      (encodable_toolCallRequest hv hrequest) (decode_toolCallRequest hid), hsame]
    apply Run.run_tryCatch_of_ok
    rw [perform, Run.run_bind_of_ok hcall, Json.dump_of_encodable hreply]
    simp
  have hfits : (makeToolCallResponse id response).render.length ≤ maxUnixSocketLineBytes := by
    rw [← length_render_reply] at hsize
    exact hsize
  rw [hrun] at hanswers hdone
  refine ⟨hdone, _, _, hanswers.trans (congrArg some (if_pos hfits)), ?_, conveys_toolCallResponse⟩
  exact hparse _ written_toolCallResponse hreply

end

/-! ### A connection -/

def plainClient (received : Bytes) : ClientCalls where
  socket := none
  receiveTimeout := none
  sendTimeout := none
  connect := none
  sends := [.wrote (maxUnixSocketLineBytes + 1)]
  reads := [.bytes received, .bytes []]

def plainConnection (euid : ℕ) (received : Bytes) : ConnectionCalls where
  accepts := [.accepted]
  receiveTimeout := none
  sendTimeout := none
  peer := .given true euid
  reads := [.bytes received, .bytes []]
  sends := [.wrote (maxUnixSocketLineBytes + 1)]

theorem arrived_bytes (received : Bytes) : arrived [.bytes received, .bytes []] = received := by
  cases received with
  | nil => rfl
  | cons b received => exact List.append_nil _

theorem ending_bytes (role received : Bytes) :
    ending role [.bytes received, .bytes []] = .threw (missingFraming role) := by
  cases received with
  | nil => rfl
  | cons b received => rfl

/-- Every handler's replies can be had over a connection that works. -/
theorem working_plain {euid : ℕ} {handler : Bytes → Act Bytes} {σ : History}
    {socketPath request : Bytes} (hpath : socketPath.length < addressPathBytes)
    (hnot : chr '\n' ∉ request) (hlen : request.length ≤ maxUnixSocketLineBytes) :
    Working euid
      (plainClient
        (acceptOne euid handler (plainConnection euid (request ++ [chr '\n'])) σ).written)
      (plainConnection euid (request ++ [chr '\n'])) socketPath request
      (acceptOne euid handler (plainConnection euid (request ++ [chr '\n'])) σ) := by
  have hproceeds : ∀ r ∈ [SendResult.wrote (maxUnixSocketLineBytes + 1)], r.Proceeds := by
    intro r hr
    obtain rfl := List.mem_singleton.mp hr
    exact Nat.succ_pos _
  have hcapacity : capacity [SendResult.wrote (maxUnixSocketLineBytes + 1)] =
      maxUnixSocketLineBytes + 1 := rfl
  have hconnect (received : Bytes) : connectClient (plainClient received) socketPath = .ok () := by
    have haddress : makeAddress socketPath = .ok () := if_neg (Nat.not_le.mpr hpath)
    simp only [connectClient, plainClient, check, haddress]
    rfl
  have hroom : request.length < capacity [SendResult.wrote (maxUnixSocketLineBytes + 1)] := by
    rw [hcapacity]
    omega
  exact
    { connected := hconnect _
      sends := hproceeds
      room := hroom
      accepted := rfl
      prepared := rfl
      peer := rfl
      request := by
        rw [requestOverUnixSocket_of_connected (hconnect _) hproceeds hroom hnot hlen]
        exact arrived_bytes _
      replies := hproceeds
      replyRoom := Nat.lt_succ_self _
      reply := arrived_bytes _
      closed := ending_bytes _ _ }

/-! ### A call -/

def upCall : Bytes := infoCallLine (ascii "7")

abbrev upHandler : Bytes → Act Bytes :=
  handleRequest jsonParser upService stillHost (constantModel [])

theorem upCall_length : upCall.length ≤ maxUnixSocketLineBytes := by
  rw [upCall, length_infoCallLine]
  decide

theorem newline_notMem_upCall : chr '\n' ∉ upCall := by
  rw [upCall, infoCallLine]
  exact Json.newline_notMem_render _

/-- The daemon's side of the call. -/
def upServed : Served :=
  acceptOne 1000 upHandler (plainConnection 1000 (upCall ++ [chr '\n'])) []

theorem working_up : Working 1000 (plainClient upServed.written)
    (plainConnection 1000 (upCall ++ [chr '\n'])) (ascii "kaslid.sock") upCall upServed := by
  unfold upServed
  exact working_plain (by decide) newline_notMem_upCall upCall_length

theorem daemon_answers_up : upServed.done = ((upHandler upCall).run []).1 ∧
    (requestOverUnixSocket (plainClient upServed.written) (ascii "kaslid.sock") upCall).2 =
      some (clientOutcome ((upHandler upCall).run []).2) := by
  have h := working_up
  unfold upServed upHandler at h ⊢
  exact daemon_answers h newline_notMem_upCall upCall_length

theorem answer_is_reply_up :
    (upServed.done = [] ∨ upServed.done = ((upHandler upCall).run []).1) ∧
    ∀ answer,
      (requestOverUnixSocket (plainClient upServed.written) (ascii "kaslid.sock") upCall).2 =
        some (.ok answer) → (upHandler upCall).run [] = (upServed.done, .ok answer) := by
  have h := working_up.joined
  unfold upServed at h ⊢
  exact answer_is_reply _ _ _ _ _ _ _ h

end Kasli.Kaslid
