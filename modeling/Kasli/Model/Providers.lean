import Mathlib.Data.List.DropRight
import Kasli.Core.RoundTrip
import Kasli.Model.Config
import Kasli.Model.Prompt
import Kasli.Session.SessionService

/-! The models the daemon can ask (`model/ollama_provider.cpp`,
`model/openai_compatible_provider.cpp`): an HTTP endpoint that is sent one JSON text by one POST.
The HTTP client is outside, and so is the reader of JSON. -/

namespace Kasli.Model

open Core Session

/-- `OpenAICompatibleHttpResponse` -/
structure HttpResponse where
  statusCode : Int
  body : Bytes

/-- The HTTP client: whether it gives a handle and a list of headers, and what becomes of a POST of
a payload to a URL. An error is what the client calls it. -/
structure Curl where
  init : History → Bool
  headers : History → Bool
  perform : History → Bytes → Bytes → Except Bytes HttpResponse

abbrev HttpPost := History → Bytes → Bytes → Except Exn HttpResponse

/-- An outcome with an exception of the standard library. -/
def ofStd {α : Type} : Except Bytes α → Except Exn α
  | .ok a => .ok a
  | .error what => .error (.std what)

/-- A program that is built without an HTTP client has none. The URL is given as a C string. -/
def curlPostJson (curl : Option Curl) : HttpPost := fun σ url payload =>
  match curl with
  | none => .error (.std (ascii "openai-compatible provider requires libcurl"))
  | some curl =>
    if !curl.init σ then .error (.std (ascii "curl_easy_init failed"))
    else if !curl.headers σ then .error (.std (ascii "curl_slist_append failed"))
    else
      match curl.perform σ (whatOf url) payload with
      | .error error => .error (.std (ascii "openai-compatible request failed: " ++ error))
      | .ok response => .ok response

def trimTrailingSlashes (value : Bytes) : Bytes := value.rdropWhile (· == chr '/')

def HttpResponse.Succeeded (response : HttpResponse) : Prop :=
  200 ≤ response.statusCode ∧ response.statusCode < 300

instance (response : HttpResponse) : Decidable response.Succeeded :=
  inferInstanceAs (Decidable (_ ∧ _))

/-! ### An endpoint that is compatible with OpenAI's -/

def chatCompletionsPath : Bytes := ascii "/chat/completions"

def openAIChatCompletionsEndpoint (endpoint : Bytes) : Bytes :=
  let trimmed := trimTrailingSlashes endpoint
  if chatCompletionsPath <:+ trimmed then trimmed else trimmed ++ chatCompletionsPath

def openAIChatCompletionsJson (request : ModelRequest) (model : Bytes) : Json :=
  .ofPairs [(ascii "model", .string model),
    (ascii "messages", .array [.ofPairs [(ascii "role", .string (ascii "user")),
      (ascii "content", .string (buildEvidencePrompt request))]]),
    (ascii "stream", .bool false)]

def buildOpenAIChatCompletionsPayload (request : ModelRequest) (model : Bytes) :
    Except Bytes Bytes := (openAIChatCompletionsJson request model).dump

/-- The content of the first choice. -/
def choiceContent (json : Json) : Except Bytes Bytes := do
  let choice ← (← json.at? (ascii "choices")).atIndex 0
  (← (← choice.at? (ascii "message")).at? (ascii "content")).getString

def parseOpenAIChatCompletionsResponse (parse : Bytes → Except Bytes Json) (body : Bytes) :
    Except Bytes Bytes := parse body >>= choiceContent

structure OpenAICompatibleProvider where
  endpoint : Bytes
  model : Bytes
  post : HttpPost

def OpenAICompatibleProvider.complete (provider : OpenAICompatibleProvider)
    (parse : Bytes → Except Bytes Json) (σ : History) (request : ModelRequest) :
    Except Exn Bytes :=
  match buildOpenAIChatCompletionsPayload request provider.model with
  | .error what => .error (.std what)
  | .ok payload =>
    match provider.post σ (openAIChatCompletionsEndpoint provider.endpoint) payload with
    | .error error => .error error
    | .ok response =>
      if response.Succeeded then ofStd (parseOpenAIChatCompletionsResponse parse response.body)
      else .error (.std (ascii "openai-compatible request failed with HTTP " ++
        decimalInt response.statusCode))

/-! ### Ollama -/

structure OllamaProvider where
  endpoint : Bytes
  model : Bytes

def ollamaJson (request : ModelRequest) (model : Bytes) : Json :=
  .ofPairs [(ascii "model", .string model), (ascii "prompt", .string (buildEvidencePrompt request)),
    (ascii "stream", .bool false)]

def generateEndpoint (endpoint : Bytes) : Bytes :=
  trimTrailingSlashes endpoint ++ ascii "/api/generate"

def responseText (json : Json) : Except Bytes Bytes := do
  (← json.at? (ascii "response")).getString

def parseOllamaResponse (parse : Bytes → Except Bytes Json) (body : Bytes) : Except Bytes Bytes :=
  parse body >>= responseText

/-- The payload is encoded after the handle and the headers are made. -/
def OllamaProvider.complete (provider : OllamaProvider) (curl : Option Curl)
    (parse : Bytes → Except Bytes Json) (σ : History) (request : ModelRequest) :
    Except Exn Bytes :=
  match curl with
  | none => .error (.std (ascii "ollama provider requires libcurl"))
  | some curl =>
    if !curl.init σ then .error (.std (ascii "curl_easy_init failed"))
    else if !curl.headers σ then .error (.std (ascii "curl_slist_append failed"))
    else
      match (ollamaJson request provider.model).dump with
      | .error what => .error (.std what)
      | .ok payload =>
        match curl.perform σ (whatOf (generateEndpoint provider.endpoint)) payload with
        | .error error => .error (.std (ascii "ollama request failed: " ++ error))
        | .ok response =>
          if response.Succeeded then ofStd (parseOllamaResponse parse response.body)
          else .error (.std (ascii "ollama request failed with HTTP " ++
            decimalInt response.statusCode))

/-! ### The provider of a configuration -/

def makeModelProvider (curl : Option Curl) (parse : Bytes → Except Bytes Json)
    (config : ModelConfig) : ModelProvider :=
  match config.provider with
  | .ollama => ⟨OllamaProvider.complete ⟨config.endpoint, config.model⟩ curl parse⟩
  | .openAICompatible =>
    ⟨OpenAICompatibleProvider.complete ⟨config.endpoint, config.model, curlPostJson curl⟩ parse⟩

namespace ModelConfig

variable (config : ModelConfig)

/-- Where a configuration posts to. -/
def url : Bytes :=
  match config.provider with
  | .ollama => generateEndpoint config.endpoint
  | .openAICompatible => openAIChatCompletionsEndpoint config.endpoint

/-- What it posts of a question. -/
def payload (question : ModelRequest) : Json :=
  match config.provider with
  | .ollama => ollamaJson question config.model
  | .openAICompatible => openAIChatCompletionsJson question config.model

end ModelConfig

namespace ModelProviderKind

/-- Where the answer is in a response. -/
def answerOf : ModelProviderKind → Json → Except Bytes Bytes
  | .ollama => responseText
  | .openAICompatible => choiceContent

/-- Where the prompt is in a payload. -/
def promptOf : ModelProviderKind → Json → Except Bytes Bytes
  | .ollama => fun json => do (← json.at? (ascii "prompt")).getString
  | .openAICompatible => fun json => do
    (← (← (← json.at? (ascii "messages")).atIndex 0).at? (ascii "content")).getString

end ModelProviderKind

/-- The model that is to answer a payload. -/
def modelOf (json : Json) : Except Bytes Bytes := do (← json.at? (ascii "model")).getString

/-- Where the payload says whether the answer may come in parts. -/
def streamOf (json : Json) : Except Bytes Json := json.at? (ascii "stream")

/-- The exchange with the endpoint that brings `answer` to a question: one POST, of a text from
which the endpoint reads which model is to answer and the prompt, and a response that succeeded and
in which the answer is. -/
structure Brings (curl : Curl) (parse : Bytes → Except Bytes Json) (config : ModelConfig)
    (τ : History) (question : ModelRequest) (answer : Bytes) (sent received : Json)
    (response : HttpResponse) : Prop where
  posted : curl.perform τ (whatOf config.url) sent.render = .ok response
  sent_parse : parse sent.render = .ok sent
  sent_model : modelOf sent = .ok config.model
  sent_prompt : config.provider.promptOf sent = .ok (buildEvidencePrompt question)
  sent_stream : streamOf sent = .ok (.bool false)
  succeeded : response.Succeeded
  received_parse : parse response.body = .ok received
  received_answer : config.provider.answerOf received = .ok answer

/-! ### Completions -/

theorem ofStd_eq_ok {α : Type} {x : Except Bytes α} {a : α} : ofStd x = .ok a ↔ x = .ok a := by
  cases x with
  | ok b => simp [ofStd]
  | error what => simp [ofStd]

section

variable {curl : Curl} {parse : Bytes → Except Bytes Json} {config : ModelConfig} {σ : History}
  {question : ModelRequest}

theorem curlPostJson_eq_ok {url payload : Bytes} {response : HttpResponse} :
    curlPostJson (some curl) σ url payload = .ok response ↔
      (curl.init σ = true ∧ curl.headers σ = true) ∧
        curl.perform σ (whatOf url) payload = .ok response := by
  unfold curlPostJson
  dsimp only
  cases curl.init σ with
  | false => simp
  | true =>
    cases curl.headers σ with
    | false => simp
    | true => cases curl.perform σ (whatOf url) payload <;> simp

/-- What is made of the outcome of a POST. -/
theorem answered_eq_ok {outcome : Except Exn HttpResponse} {failed : HttpResponse → Exn}
    {answerOf : Json → Except Bytes Bytes} {answer : Bytes} :
    (match outcome with
      | .error error => .error error
      | .ok response =>
        if response.Succeeded then ofStd (parse response.body >>= answerOf)
        else .error (failed response)) = Except.ok answer ↔
      ∃ response, outcome = .ok response ∧ response.Succeeded ∧
        ∃ received, parse response.body = .ok received ∧ answerOf received = .ok answer := by
  cases outcome with
  | error error => simp
  | ok response =>
    simp only [Except.ok.injEq, exists_eq_left']
    split_ifs with hsucceeded
    · rw [ofStd_eq_ok, bind_eq_ok]
      simp [hsucceeded]
    · simp [hsucceeded]

theorem openAI_complete_eq_ok {provider : OpenAICompatibleProvider} {answer : Bytes} :
    provider.complete parse σ question = .ok answer ↔
      (openAIChatCompletionsJson question provider.model).Encodable ∧
      ∃ response, provider.post σ (openAIChatCompletionsEndpoint provider.endpoint)
          (openAIChatCompletionsJson question provider.model).render = .ok response ∧
        response.Succeeded ∧
        ∃ received, parse response.body = .ok received ∧ choiceContent received = .ok answer := by
  unfold OpenAICompatibleProvider.complete buildOpenAIChatCompletionsPayload
  by_cases hencodable : (openAIChatCompletionsJson question provider.model).Encodable
  · rw [Json.dump_of_encodable hencodable]
    exact answered_eq_ok.trans (by simp [hencodable])
  · obtain ⟨what, hwhat, -⟩ := Json.dump_error_of_not_encodable hencodable
    simp [hwhat, hencodable]

theorem ollama_complete_eq_ok {provider : OllamaProvider} {answer : Bytes} :
    provider.complete (some curl) parse σ question = .ok answer ↔
      (curl.init σ = true ∧ curl.headers σ = true) ∧
      (ollamaJson question provider.model).Encodable ∧
      ∃ response, curl.perform σ (whatOf (generateEndpoint provider.endpoint))
          (ollamaJson question provider.model).render = .ok response ∧ response.Succeeded ∧
        ∃ received, parse response.body = .ok received ∧ responseText received = .ok answer := by
  unfold OllamaProvider.complete
  dsimp only
  cases curl.init σ with
  | false => simp
  | true =>
    cases curl.headers σ with
    | false => simp
    | true =>
      by_cases hencodable : (ollamaJson question provider.model).Encodable
      · rw [Json.dump_of_encodable hencodable]
        cases hperform : curl.perform σ (whatOf (generateEndpoint provider.endpoint))
            (ollamaJson question provider.model).render with
        | error error => simp [hperform]
        | ok response =>
          have h := @answered_eq_ok parse (.ok response)
            (fun response => .std (ascii "ollama request failed with HTTP " ++
              decimalInt response.statusCode)) responseText answer
          simp only [Except.ok.injEq, exists_eq_left'] at h
          simpa [hperform, hencodable, parseOllamaResponse] using h
      · obtain ⟨what, hwhat, -⟩ := Json.dump_error_of_not_encodable hencodable
        simp [hwhat, hencodable]

/-- With a client that is ready, a provider does one thing: it posts the payload, when it can be
encoded, and reads the answer off the response. -/
theorem complete_eq_ok {answer : Bytes} :
    (makeModelProvider (some curl) parse config).complete σ question = .ok answer ↔
      (curl.init σ = true ∧ curl.headers σ = true) ∧ (config.payload question).Encodable ∧
      ∃ response, curl.perform σ (whatOf config.url) (config.payload question).render =
          .ok response ∧ response.Succeeded ∧
        ∃ received, parse response.body = .ok received ∧
          config.provider.answerOf received = .ok answer := by
  obtain ⟨kind, endpoint, model⟩ := config
  cases kind with
  | ollama =>
    simp only [makeModelProvider, ModelConfig.payload, ModelConfig.url, ModelProviderKind.answerOf]
    exact ollama_complete_eq_ok
  | openAICompatible =>
    simp only [makeModelProvider, ModelConfig.payload, ModelConfig.url, ModelProviderKind.answerOf,
      openAI_complete_eq_ok, curlPostJson_eq_ok]
    constructor
    · rintro ⟨hencodable, response, ⟨hready, hpost⟩, hrest⟩
      exact ⟨hready, hencodable, response, hpost, hrest⟩
    · rintro ⟨hready, hencodable, response, hpost, hrest⟩
      exact ⟨hencodable, response, ⟨hready, hpost⟩, hrest⟩

/-- Without a client there is no answer. -/
theorem complete_none_ne_ok (answer : Bytes) :
    (makeModelProvider none parse config).complete σ question ≠ .ok answer := by
  obtain ⟨kind, endpoint, model⟩ := config
  cases kind with
  | ollama => exact nofun
  | openAICompatible =>
    intro h
    simp only [makeModelProvider, openAI_complete_eq_ok, curlPostJson] at h
    obtain ⟨-, response, hpost, -⟩ := h
    cases hpost

/-! ### What is posted -/

theorem written_payload : (config.payload question).Written := by
  obtain ⟨kind, endpoint, model⟩ := config
  cases kind with
  | ollama => exact Json.written_ofPairs (by simp [Json.Written])
  | openAICompatible =>
    have hmessage : (Json.ofPairs [(ascii "role", .string (ascii "user")),
        (ascii "content", .string (buildEvidencePrompt question))]).Written :=
      Json.written_ofPairs (by simp [Json.Written])
    exact Json.written_ofPairs (by simp [Json.Written, Json.WrittenItems, hmessage])

theorem modelOf_payload : modelOf (config.payload question) = .ok config.model := by
  obtain ⟨kind, endpoint, model⟩ := config
  cases kind with
  | ollama =>
    rw [modelOf, ModelConfig.payload, ollamaJson, Json.at?_ofPairs rfl]
    rfl
  | openAICompatible =>
    rw [modelOf, ModelConfig.payload, openAIChatCompletionsJson, Json.at?_ofPairs rfl]
    rfl

theorem streamOf_payload : streamOf (config.payload question) = .ok (.bool false) := by
  obtain ⟨kind, endpoint, model⟩ := config
  cases kind with
  | ollama => exact Json.at?_ofPairs rfl
  | openAICompatible => exact Json.at?_ofPairs rfl

theorem promptOf_payload : config.provider.promptOf (config.payload question) =
    .ok (buildEvidencePrompt question) := by
  obtain ⟨kind, endpoint, model⟩ := config
  cases kind with
  | ollama =>
    simp only [ModelProviderKind.promptOf, ModelConfig.payload, ollamaJson]
    rw [Json.at?_ofPairs rfl]
    rfl
  | openAICompatible =>
    simp only [ModelProviderKind.promptOf, ModelConfig.payload, openAIChatCompletionsJson]
    rw [Json.at?_ofPairs rfl]
    show (do (← (Json.ofPairs [(ascii "role", .string (ascii "user")),
      (ascii "content", .string (buildEvidencePrompt question))]).at?
        (ascii "content")).getString) = _
    rw [Json.at?_ofPairs rfl]
    rfl

/-- An answer of a provider was brought by a client. -/
theorem brings_of_complete (hparse : Json.Undoes parse) {client : Option Curl} {answer : Bytes}
    (h : (makeModelProvider client parse config).complete σ question = .ok answer) :
    ∃ curl sent received response, client = some curl ∧
      Brings curl parse config σ question answer sent received response := by
  cases client with
  | none => exact absurd h (complete_none_ne_ok answer)
  | some curl =>
  obtain ⟨-, hencodable, response, hpost, hsucceeded, received, hreceived, hanswer⟩ :=
    complete_eq_ok.mp h
  exact ⟨curl, config.payload question, received, response, rfl,
    { posted := hpost
      sent_parse := hparse _ written_payload hencodable
      sent_model := modelOf_payload
      sent_prompt := promptOf_payload
      sent_stream := streamOf_payload
      succeeded := hsucceeded
      received_parse := hreceived
      received_answer := hanswer }⟩

end

end Kasli.Model
