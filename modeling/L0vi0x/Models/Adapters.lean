import L0vi0x.Python.Act
import L0vi0x.Python.JsonText

/-! What every model backend offers, and the backend behind a chat endpoint. The world
`W` holds the network and the backends' own state. -/
namespace L0vi0x.Models

open L0vi0x.Python

inductive PricingTier
  | free | shadow | paid
  deriving DecidableEq, Repr

structure Message where
  role : String
  content : String

structure CompletionRequest where
  messages : List Message
  role : Option String := none
  maxTokens : Option Int := none
  temperature : Option PyFloat := none
  responseSchema : Option Json := none

structure Usage where
  promptTokens : Int
  completionTokens : Int
  totalTokens : Int

/-- What came back; `structured` is `null` where no structured output was asked for. -/
structure CompletionResponse where
  provider : String
  modelId : String
  text : Json
  structured : Json
  usage : Usage
  raw : Json

/-- What `probe()` found right now. -/
structure Capabilities where
  provider : String
  modelId : String
  family : String
  roles : List String
  contextWindow : Int
  capabilities : List (String × Bool)
  pricingTier : PricingTier
  deprecated : Bool

/-- The subclasses of `ModelUnavailable`, itself included. -/
def isUnavailable : ErrorKind → Bool
  | .modelUnavailable | .rateLimited | .notFound | .noCandidatesAvailable => true
  | _ => false

/-- A model backend. Not every one declares a pricing tier. -/
structure Adapter (W : Type) where
  provider : String
  modelId : String
  pricingTier : Option PricingTier
  complete : CompletionRequest → Act W CompletionResponse
  probe : Act W Capabilities

section OpenAICompat

/-- What `urlopen` and reading its answer come to. `other` is an error that the caller
does not convert, such as a connection that breaks off. -/
inductive HttpAnswer
  | body (raw : Bytes)
  | httpError (code : Nat) (detail : Bytes)
  | timedOut
  | urlError (reason : String) (timedOut : Bool)
  | other (e : PyError)

structure HttpRequest where
  url : String
  headers : List (String × String)
  payload : Json

structure OpenAICompatAdapter where
  provider : String
  modelId : String
  family : String
  baseUrl : String
  apiKey : Option String
  roles : List String
  contextWindow : Int
  capabilities : List (String × Bool)
  pricingTier : PricingTier
  timeout : PyFloat

namespace OpenAICompatAdapter

variable {W : Type} (a : OpenAICompatAdapter) (urlopen : HttpRequest → W → HttpAnswer × W)

/-- `f"{self.provider}/{self.model_id}: ..."`. -/
def prefixed (message : String) : String := a.provider ++ "/" ++ a.modelId ++ ": " ++ message

def headers : List (String × String) :=
  ("Content-Type", "application/json") ::
    match a.apiKey with
    | some key => if key = "" then [] else [("Authorization", "Bearer " ++ key)]
    | none => []

def url (path : String) : String :=
  String.ofList (a.baseUrl.toList.reverse.dropWhile (· = '/')).reverse ++ path

def timeoutText : String := "timed out after " ++ String.ofList a.timeout.text ++ "s"

/-- The answer as the value that `_post` returns, or the error that it raises. -/
def readAnswer : HttpAnswer → Py Json
  | .body raw => match decodeUtf8? raw with
      | some s => Json.loads s
      | none => raise .unicodeDecodeError "'utf-8' codec can't decode the answer"
  | .httpError code detail =>
      let status := "HTTP " ++ toString code
      let detail := decodeUtf8Replace detail
      if code = 429 then raise .rateLimited (a.prefixed (status ++ ": " ++ detail))
      else if code = 404 ∨ code = 410 then
        raise .notFound (a.prefixed (status ++ " (deprecated or removed): " ++ detail))
      else if code = 401 ∨ code = 403 then
        raise .modelUnavailable (a.prefixed (status ++ " (auth/quota): " ++ detail))
      else raise .modelUnavailable (a.prefixed (status ++ ": " ++ detail))
  | .timedOut => raise .timeout (a.prefixed a.timeoutText)
  | .urlError reason timedOut =>
      if timedOut then raise .timeout (a.prefixed a.timeoutText)
      else raise .modelUnavailable (a.prefixed ("unreachable: " ++ reason))
  | .other e => .error e

def post (path : String) (payload : Json) : Act W Json := fun w =>
  let (answer, next) := urlopen ⟨a.url path, a.headers, payload⟩ w
  (a.readAnswer answer, next)

def firstItem : Json → Py Json
  | .arr (j :: _) => pure j
  | .arr [] => raise .indexError "list index out of range"
  | .str s => match s.toList with
      | c :: _ => pure (.str (String.ofList [c]))
      | [] => raise .indexError "string index out of range"
  | .obj _ => raise .keyError "0"
  | j => raise .typeError ("'" ++ j.typeName ++ "' object is not subscriptable")

/-- `data["choices"][0]["message"]["content"]`. -/
def content (data : Json) : Py Json := do
  let choices ← data.item "choices"
  let choice ← firstItem choices
  let message ← choice.item "message"
  message.item "content"

/-- `json.loads(text)` of a text that may be something else. -/
def parseText (text : Json) : Py Json :=
  match text with
  | .str s => except (Json.loads s) (· = .jsonDecodeError) fun _ =>
      raise .malformedStructuredOutput
        (a.prefixed ("response is not valid JSON: " ++ String.ofList (Json.reprText s)))
  | j => raise .typeError
      ("the JSON object must be str, bytes or bytearray, not " ++ j.typeName)

def readUsage (data : Json) : Py Usage := do
  let found ← data.attrGet "usage" (.obj [])
  let raw := if found.truthy then found else .obj []
  let promptTokens ← (← raw.attrGet "prompt_tokens" (.int 0)).toInt
  let completionTokens ← (← raw.attrGet "completion_tokens" (.int 0)).toInt
  let totalTokens ← (← raw.attrGet "total_tokens" (.int 0)).toInt
  pure ⟨promptTokens, completionTokens, totalTokens⟩

/-- The response that `complete` reads out of the answer. -/
def readResponse (request : CompletionRequest) (data : Json) : Py CompletionResponse := do
  let text ← except (content data)
    (fun kind => kind = .keyError || kind = .indexError || kind = .typeError) fun _ =>
      raise .modelUnavailable
        (a.prefixed ("unexpected response shape: " ++ String.ofList data.repr))
  let structured ← match request.responseSchema with
    | none => pure .null
    | some _ => a.parseText text
  let usage ← readUsage data
  pure ⟨a.provider, a.modelId, text, structured, usage, data⟩

def optional (key : String) : Option Json → List (String × Json)
  | some j => [(key, j)]
  | none => []

def payload (request : CompletionRequest) : Json := .obj <| dictOf <|
  [("model", .str a.modelId),
    ("messages", .arr (request.messages.map fun m =>
      .obj (dictOf [("role", .str m.role), ("content", .str m.content)])))] ++
    optional "max_tokens" (request.maxTokens.map .int) ++
    optional "temperature" (request.temperature.map .float) ++
    optional "response_format" (request.responseSchema.map fun schema =>
      .obj (dictOf [("type", .str "json_schema"), ("json_schema", schema)]))

def complete (request : CompletionRequest) : Act W CompletionResponse := do
  let data ← a.post urlopen "/chat/completions" (a.payload request)
  Act.ofPy (a.readResponse request data)

/-- Only `NotFound` is caught: the model is deprecated. -/
def probe : Act W Capabilities := do
  let deprecated ← Act.tryCatch
    (do
      let _ ← a.post urlopen "/chat/completions" (.obj (dictOf
        [("model", .str a.modelId),
          ("messages", .arr [.obj (dictOf [("role", .str "user"), ("content", .str "ping")])]),
          ("max_tokens", .int 1)]))
      pure false)
    (· = .notFound) fun _ => pure true
  pure ⟨a.provider, a.modelId, a.family, a.roles, a.contextWindow, a.capabilities, a.pricingTier,
    deprecated⟩

def adapter : Adapter W where
  provider := a.provider
  modelId := a.modelId
  pricingTier := some a.pricingTier
  complete := a.complete urlopen
  probe := a.probe urlopen

end OpenAICompatAdapter
end OpenAICompat
end L0vi0x.Models
