import Kasli.Kaslid.Agreement
import Kasli.Kaslid.Disclosure
import Kasli.Model.Providers

/-! Where an answer comes from. When the daemon replies to an ask with an answer, its model has
given that answer to a question on record; with a model behind an HTTP endpoint, the endpoint was
sent the question and the answer was in its response. -/

namespace Kasli.Kaslid

open Core Session Model

section

variable {parser : Parser} {service : SessionService} {host : Host} {model : ModelProvider}

/-- An ask that is answered has asked the model, and the answer is what the model gave. -/
theorem askWithTool_answer {prompt : Bytes} {request : ToolRequest} {actor : Bytes} {σ s : History}
    {result : AskResult}
    (h : (service.askWithTool host prompt request model actor).run σ = (s, .ok result))
    (hok : result.ok = true) :
    ∃ pre question post, s = pre ++ .asked question :: post ∧
      model.complete (σ ++ pre ++ [.asked question]) question = .ok result.answer := by
  unfold SessionService.askWithTool at h
  obtain ⟨e, -, he⟩ | ⟨s₁, response, s₂, -, hrest, rfl⟩ := Run.bind_cases h
  · cases he
  split_ifs at hrest with hstatus
  · obtain ⟨e, -, he⟩ | ⟨s₃, _, s₄, -, hend, rfl⟩ := Run.bind_cases hrest
    · cases he
    · rw [← Except.ok.inj (Prod.mk.inj hend).2] at hok
      cases hok
  obtain ⟨e, -, he⟩ | ⟨s₃, _, s₄, -, htry, rfl⟩ := Run.bind_cases hrest
  · cases he
  obtain ⟨r, hcomplete, hr⟩ | ⟨s₅, error, s₆, -, hcatch, -⟩ := Run.tryCatch_cases htry
  · obtain rfl := Except.ok.inj hr
    unfold SessionService.complete at hcomplete
    obtain ⟨e, -, he⟩ | ⟨s₅, answer, s₆, hask, hrecord, rfl⟩ := Run.bind_cases hcomplete
    · cases he
    rw [run_ask] at hask
    obtain ⟨rfl, hanswer⟩ := Prod.mk.inj hask
    obtain ⟨e, -, he⟩ | ⟨s₇, _, s₈, -, hend, rfl⟩ := Run.bind_cases hrecord
    · cases he
    rw [← Except.ok.inj (Prod.mk.inj hend).2]
    refine ⟨s₁ ++ s₃, ⟨prompt, response.evidence⟩, s₇ ++ s₈, by simp, ?_⟩
    rw [← List.append_assoc σ]
    exact hanswer
  · obtain ⟨rest, r, hrun, -, hfail⟩ := modelError_cases service host request actor
      ⟨prompt, response.evidence⟩ error (σ ++ s₁ ++ s₃ ++ s₅)
    obtain rfl := (Prod.mk.inj (hrun.symm.trans hcatch)).2
    obtain ⟨e, he⟩ | ⟨what, he⟩ := hfail
    · rw [Except.ok.inj he] at hok
      cases hok
    · cases he

/-- A reply with an answer: the model was asked, once and on record, and gave the answer then. -/
theorem answer_given {input : Bytes} {σ s : History} {id answer error : Bytes}
    (h : (handleRequest parser service host model input).run σ =
      (s, .ok (makeAskResponse id true answer error).render)) :
    ∃ question request response call ask pre post, s = pre ++ .asked question :: post ∧
      AskedOnRecord parser service input σ pre post question request response call ask ∧
      model.complete (σ ++ pre ++ [.asked question]) question = .ok answer := by
  obtain ⟨pre, question, post, rfl, hanswer⟩ : ∃ pre question post,
      s = pre ++ .asked question :: post ∧
        model.complete (σ ++ pre ++ [.asked question]) question = .ok answer := by
    have herror : ∀ {id' σ' s'} {e : Exn}, (protocolError service.audit host id' e).run σ' =
        (s', .ok (makeAskResponse id true answer error).render) → False := fun hp => by
      obtain ⟨message, hm⟩ := protocolError_reply host _ hp
      exact errorResponse_ne_askResponse hm.symm
    rcases handleRequest_cases parser service host model h with ⟨id', e, hp⟩ |
      ⟨command, id', s₁, outcome, hreq, hperform, hend⟩
    · exact (herror hp).elim
    rcases hend with ⟨rfl, rfl, -⟩ | ⟨e, s₂, -, -, hp⟩
    swap
    · exact (herror hp).elim
    cases command with
    | list =>
      exact absurd ((perform_list service host model hperform).2 _ rfl).symm
        listResponse_ne_askResponse
    | call request =>
      obtain ⟨response, call, hreply, -⟩ := (perform_call service host model hperform).2 _ rfl
      exact absurd hreply.symm callResponse_ne_askResponse
    | other =>
      obtain ⟨message, hm⟩ := (perform_other service host model hperform).2 _ rfl
      exact absurd hm.symm errorResponse_ne_askResponse
    | ask prompt request =>
      rcases Run.bind_cases hperform with ⟨e, -, he⟩ | ⟨s₂, result, s₃, hask, hdump, rfl⟩
      · cases he
      obtain ⟨hok, rfl⟩ : result.ok = true ∧ result.answer = answer := by
        rcases run_dump (makeAskResponse id' result.ok result.answer result.error) (σ ++ s₂)
          with hd | ⟨what, hd⟩
        · rw [hd] at hdump
          exact answer_of_askResponse (Except.ok.inj (Prod.mk.inj hdump).2)
        · rw [hd] at hdump
          cases hdump
      obtain ⟨pre, question, post, rfl, hanswer⟩ := askWithTool_answer hask hok
      exact ⟨pre, question, post ++ s₃, by simp, hanswer⟩
  rcases question_position h with hquiet | ⟨question', request, response, call, ask, A, B, hs, hon⟩
  · simp at hquiet
  obtain ⟨rfl, rfl, rfl⟩ := split_at_question hon.first hon.last hs.symm
  exact ⟨_, request, response, call, ask, _, _, rfl, hon, hanswer⟩

/-- An answer that the daemon replies with was in the endpoint's response to one POST, sent when the
model was asked, on record and with the evidence of a tool that succeeded. The endpoint could read
from it which model is to answer and the prompt that was made of the question. -/
theorem answer_from_endpoint (hparse : Json.Undoes parser.parse) {client : Option Curl}
    {config : ModelConfig} {input : Bytes} {σ s : History} {id answer error : Bytes}
    (h : (handleRequest parser service host
        (makeModelProvider client parser.parse config) input).run σ =
      (s, .ok (makeAskResponse id true answer error).render)) :
    ∃ question request response call ask pre post,
      s = pre ++ .asked question :: post ∧
      AskedOnRecord parser service input σ pre post question request response call ask ∧
      ∃ curl sent received http, client = some curl ∧
        Brings curl parser.parse config (σ ++ pre ++ [.asked question]) question answer sent
          received http := by
  obtain ⟨question, request, response, call, ask, pre, post, hs, hon, hanswer⟩ := answer_given h
  exact ⟨question, request, response, call, ask, pre, post, hs, hon,
    brings_of_complete hparse hanswer⟩

end

/-! ### An answer -/

def fineBody : Json := .ofPairs [(ascii "response", .string (ascii "fine"))]

/-- An endpoint that answers every POST alike. -/
def fineCurl : Curl where
  init _ := true
  headers _ := true
  perform _ _ _ := .ok ⟨200, fineBody.render⟩

def fineModel : ModelProvider := makeModelProvider (some fineCurl) jsonParser.parse defaultModelConfig

theorem undoes_jsonParser : Json.Undoes jsonParser.parse := Json.undoes_parse

theorem parse_fineBody : jsonParser.parse fineBody.render = .ok fineBody :=
  undoes_jsonParser _ (Json.written_ofPairs (by simp [Json.Written])) (by decide)

theorem encodable_howPayload : (defaultModelConfig.payload ⟨ascii "how?", []⟩).Encodable := by
  have hprompt : Utf8.Valid (buildEvidencePrompt ⟨ascii "how?", []⟩) :=
    Utf8.valid_of_isAscii (by decide +kernel)
  rw [ModelConfig.payload, defaultModelConfig, ollamaJson,
    Json.encodable_ofPairs (by simp only [List.map]; decide)]
  simp only [List.forall_mem_cons, Json.encodable_string, Json.encodable_bool, List.not_mem_nil,
    false_imp_iff, implies_true, and_true]
  exact ⟨⟨by decide, by decide⟩, ⟨by decide, hprompt⟩, by decide⟩

theorem fineModel_complete (τ : History) :
    fineModel.complete τ ⟨ascii "how?", []⟩ = .ok (ascii "fine") := by
  unfold fineModel
  rw [complete_eq_ok]
  exact ⟨⟨rfl, rfl⟩, encodable_howPayload, ⟨200, fineBody.render⟩, rfl, by decide, fineBody,
    parse_fineBody, rfl⟩

def fineAsk : Bytes := (makeAskRequest (ascii "7") (ascii "how?") infoRequest).render

theorem fineAsk_answered {model : ModelProvider}
    (hmodel : ∀ τ, model.complete τ ⟨ascii "how?", []⟩ = .ok (ascii "fine")) :
    ∃ s, (handleRequest jsonParser infoService stillHost model fineAsk).run [] =
      (s, .ok (makeAskResponse (ascii "7") true (ascii "fine") []).render) := by
  have hclean : CallClean infoRequest infoResponse :=
    ⟨cutsClean_of_isAscii (by decide) _, cutsClean_of_isAscii (by decide) _,
      fun e he => cutsClean_of_isAscii (by revert e; decide) _,
      cutsClean_of_isAscii (by decide +kernel) _, cutsClean_of_isAscii (by decide) _,
      ⟨by simp [infoResponse], cutsClean_of_isAscii (by decide +kernel) _⟩⟩
  have hwritable : stillHost.Writable := fun _ _ => rfl
  have hcli : Utf8.Valid (ascii "cli") := by decide
  have hhow : Utf8.Valid (ascii "how?") := by decide
  have hid : ascii "7" ≠ unknownId := by decide
  have hreply : (makeAskResponse (ascii "7") true (ascii "fine") []).Encodable := by decide
  obtain ⟨call, ask, reply, -, -, -, hask⟩ := ask_of_answer model hwritable hcli
    infoRequest_valid infoResponse_valid hhow (respond_info []) hclean
    (cutsClean_of_isAscii (by decide) _) rfl hmodel (by decide)
  obtain ⟨line, hline, hhandle⟩ := askAgrees infoService stillHost model undoes_jsonParser hid
    (by decide) hhow infoRequest_valid
  obtain rfl := (Json.dump_eq_ok_iff.mp hline).2
  unfold fineAsk
  rw [hhandle]
  apply Exists.intro
  apply Run.run_tryCatch_of_ok
  rw [Run.run_bind_of_ok hask, Json.dump_of_encodable hreply, ofExcept_ok, Run.run_pure]

theorem answer_from_endpoint_fine : ∃ s,
    (handleRequest jsonParser infoService stillHost fineModel fineAsk).run [] =
      (s, .ok (makeAskResponse (ascii "7") true (ascii "fine") []).render) ∧
    ∃ question request response call ask pre post, s = pre ++ .asked question :: post ∧
      AskedOnRecord jsonParser infoService fineAsk [] pre post question request response call ask ∧
      ∃ curl sent received http, some fineCurl = some curl ∧
        Brings curl jsonParser.parse defaultModelConfig ([] ++ pre ++ [.asked question]) question
          (ascii "fine") sent received http := by
  obtain ⟨s, hs⟩ := fineAsk_answered fineModel_complete
  refine ⟨s, hs, ?_⟩
  unfold fineModel at hs
  exact answer_from_endpoint undoes_jsonParser hs

end Kasli.Kaslid
