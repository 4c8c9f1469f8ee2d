-- Law of the answers of a model provider: what `request_chat_completion` makes
-- of any of them, and which of them it lets through as another exception.
import DrBoz.CodexTurns

open dr_boz.app_server dr_boz.texts
open dr_boz.codex_turns (either returned_text strip)

namespace dr_boz.provider_errors

/-! ## What a provider answers -/

/-- What `resp.json()` does: it gives a value, or it raises a `ValueError` with a text, or the
body is nested too deep for the interpreter. -/
inductive Body where
  | json (value : Json)
  | no_json (message : PyText)
  | too_deep

structure Response where
  status_code : Nat
  body : Body
  text : PyText

/-- `client.post` returns, or it raises an `httpx.HTTPError` with a text. -/
inductive Answer where
  | response (resp : Response)
  | network_failure (message : PyText)

/-! ## The error -/

structure LLMProviderError where
  message : PyText
  status_code : Option Nat
  code : Option PyText
  provider_message : Option PyText

/-- What ends the request. -/
inductive Raised where
  | llm_provider_error (error : LLMProviderError)
  | recursion_error
  | attribute_error (message : PyText)

/-- `value or default` of a text. -/
def or_text (value : Option PyText) (default : PyText) : PyText :=
  match value with
  | some t => if t.isEmpty then default else t
  | none => default

section
-- `str.lower()`, and `repr` of a value that is no text.
variable (lower : PyText → PyText) (repr : Json → String)

/-- The constructor of `LLMProviderError`. -/
def llm_error (message : PyText) (status_code : Option Nat)
    (code provider_message : Option PyText) : Raised :=
  .llm_provider_error
    { message := or_text (strip (or_text message (text "LLM request failed")))
        (text "LLM request failed")
      status_code
      code := (code.bind fun t => returned_text t).map lower
      provider_message := provider_message.bind returned_text }

/-! ## The body of a failed request -/

/-- `str(value).strip() if value is not None else None` -/
def str_stripped (value : Json) : Option PyText :=
  if value.is_none then none else some (strip (str_of repr value))

def _extract_provider_error_fields : Json → Option PyText × Option PyText
  | .dict payload =>
    match get payload "error" with
    | .dict error_block =>
      let message := either (either (get error_block "message") (get error_block "detail"))
        (get error_block "error")
      let code := either (get error_block "code") (get error_block "type")
      (str_stripped repr message, str_stripped repr code)
    | .str error_block => (returned_text error_block, none)
    | _ =>
      (["message", "detail", "error_message"].findSome? fun key =>
        codex_turns.stripped (get payload key), none)
  | _ => (none, none)

def UNSUPPORTED_HINTS : List String :=
  ["does not support image", "doesn't support image", "image input is not supported", "image_url",
    "vision is not supported", "multimodal is not supported", "supports text only",
    "input modality image is not supported", "input modality file is not supported",
    "unsupported modality", "file input is not supported"]

def _looks_like_unsupported_multimodal_error (provider_message provider_code : Option PyText)
    (had_multimodal_input : Bool) : Bool :=
  let haystack := lower (strip (provider_message.getD [] ++ text " " ++ provider_code.getD []))
  had_multimodal_input && !haystack.isEmpty && UNSUPPORTED_HINTS.any fun hint =>
    haystack.tails.any fun rest => (text hint).isPrefixOf rest

/-- `str(n)` -/
def digits (n : Nat) : PyText := (str_of n).map Char.toNat

/-- What stands for the message of a provider that gives none. -/
def raw_message (resp : Response) : PyText :=
  let raw_body := strip resp.text
  let raw_body := if raw_body.length > 500 then raw_body.take 500 ++ text "..." else raw_body
  or_text raw_body (text "Provider returned HTTP " ++ digits resp.status_code)

/-- A response of 400 or more. -/
def failed (had_multimodal_input : Bool) (resp : Response) : Raised :=
  let fields : Option (Option PyText × Option PyText) :=
    match resp.body with
    | .json payload_data =>
      some (if payload_data.is_none then (none, none)
        else _extract_provider_error_fields repr payload_data)
    | .no_json _ => some (none, none)
    | .too_deep => none
  match fields with
  | none => .recursion_error
  | some (provider_message, provider_code) =>
    let provider_message := or_text provider_message (raw_message resp)
    let normalized_code :=
      if _looks_like_unsupported_multimodal_error lower provider_message provider_code
          had_multimodal_input then some (text "unsupported_image_input")
      else provider_code
    llm_error lower provider_message resp.status_code
      (or_text normalized_code (text "provider_error")) provider_message

/-! ## The body of a completion -/

/-- `str(exc)` of the `TypeError` for `value["choices"]` -/
def no_subscript (value : Json) : PyText :=
  match value with
  | .list _ => text "list indices must be integers or slices, not str"
  | .str _ => text "string indices must be integers, not 'str'"
  | value => text ("'" ++ type_name value ++ "' object is not subscriptable")

/-- `data["choices"]` -/
def choices_of : Json → Except PyText Json
  | .dict data =>
    match data.find? fun field => field.1 = text "choices" with
    | some field => .ok field.2
    | none => .error (text "'choices'")
  | data => .error (no_subscript data)

/-- `choices[0]`. The keys of a dictionary are texts. -/
def first_of : Json → Except PyText Json
  | .list [] => .error (text "list index out of range")
  | .list (choice :: _) => .ok choice
  | .str [] => .error (text "string index out of range")
  | .str (c :: _) => .ok (.str [c])
  | .dict _ => .error (text "0")
  | choices => .error (no_subscript choices)

structure Completion where
  message : Json
  finish_reason : Json
  usage : Json
  raw : Json

/-- `value.get(key, default)` -/
def json_get (value : Json) (key : String) (default : Json) : Except Raised Json :=
  match value with
  | .dict fields =>
    .ok (((fields.find? fun field => field.1 = text key).map Prod.snd).getD default)
  | value =>
    .error (.attribute_error (text ("'" ++ type_name value ++ "' object has no attribute 'get'")))

def invalid_payload (message : PyText) : Raised :=
  llm_error lower (text "Provider returned an invalid chat completion payload") none
    (some (text "invalid_provider_response")) message

/-- The `try` block: the data and the first choice. -/
def first_choice : Body → Except Raised (Json × Json)
  | .too_deep => .error .recursion_error
  | .no_json message => .error (invalid_payload lower message)
  | .json data =>
    match choices_of data >>= first_of with
    | .ok choice => .ok (data, choice)
    | .error message => .error (invalid_payload lower message)

/-- The request, behind the choice of the URL and the payload. -/
def request_chat_completion (had_multimodal_input : Bool) : Answer → Except Raised Completion
  | .network_failure message =>
    .error (llm_error lower (text "Could not reach the selected model provider") none
      (some (text "provider_network_error")) message)
  | .response resp =>
    if resp.status_code ≥ 400 then .error (failed lower repr had_multimodal_input resp)
    else do
      let (data, choice) ← first_choice lower resp.body
      let message ← json_get choice "message" (.dict [])
      let finish_reason ← json_get choice "finish_reason" .null
      let usage ← json_get data "usage" .null
      return { message, finish_reason, usage, raw := data }

end

/-! ## What a request is to end with -/

/-- A completion, or an `LLMProviderError`. -/
def Typed : Except Raised Completion → Prop
  | .ok _ => True
  | .error (.llm_provider_error _) => True
  | .error _ => False

/-- There is a first choice, and it is no object. -/
inductive OddChoice : Json → Prop
  | item {fields : List (PyText × Json)} {choice : Json} {rest : List Json} :
    get fields "choices" = .list (choice :: rest) → (∀ f, choice ≠ .dict f) →
    OddChoice (.dict fields)
  | letter {fields : List (PyText × Json)} {t : PyText} :
    get fields "choices" = .str t → t ≠ [] → OddChoice (.dict fields)

/-- The body can be read, and below 400 its first choice, if it has one, is an object. -/
def Answer.Proper : Answer → Prop
  | .network_failure _ => True
  | .response resp =>
    match resp.body with
    | .too_deep => False
    | .no_json _ => True
    | .json data => resp.status_code ≥ 400 ∨ ¬OddChoice data

/-! ## The first choice -/

section
variable {data choice : Json}

theorem choices_ok {choices : Json} (h : choices_of data = .ok choices) :
    ∃ fields, data = .dict fields ∧ get fields "choices" = choices := by
  cases data with
  | dict fields =>
    refine ⟨fields, rfl, ?_⟩
    unfold app_server.get
    cases hfield : fields.find? fun field => field.1 = text "choices" with
    | none =>
      simp only [choices_of, hfield] at h
      cases h
    | some field =>
      simp only [choices_of, hfield] at h
      cases h
      rfl
  | null | bool _ | int _ | float _ | infinity | minus_infinity | nan | str _ | list _ => cases h

/-- The choices of an object are there, unless they are `None`. -/
theorem choices_of_get {fields : List (PyText × Json)} (h : get fields "choices" ≠ .null) :
    choices_of (.dict fields) = .ok (get fields "choices") := by
  unfold app_server.get at h ⊢
  cases hfield : fields.find? fun field => field.1 = text "choices" with
  | none =>
    rw [hfield] at h
    exact absurd rfl h
  | some field =>
    simp only [choices_of, hfield]
    rfl

/-- Of an odd choice, and of no other, something is read that is no object. -/
theorem oddChoice_iff : OddChoice data ↔
    ∃ choice, choices_of data >>= first_of = .ok choice ∧ ∀ f, choice ≠ .dict f := by
  constructor
  · intro h
    cases h with
    | @item fields choice rest hchoices hodd =>
      refine ⟨choice, ?_, hodd⟩
      rw [choices_of_get (by rw [hchoices]; exact Json.noConfusion), hchoices]
      rfl
    | @letter fields t hchoices hne =>
      obtain ⟨c, rest, rfl⟩ := List.exists_cons_of_ne_nil hne
      refine ⟨.str [c], ?_, fun f => Json.noConfusion⟩
      rw [choices_of_get (by rw [hchoices]; exact Json.noConfusion), hchoices]
      rfl
  · rintro ⟨choice, hread, hodd⟩
    obtain ⟨choices, hchoices, hfirst⟩ := py.of_bind_ok hread
    obtain ⟨fields, rfl, hget⟩ := choices_ok hchoices
    match choices, hget, hfirst with
    | .list (first :: rest), hget, hfirst =>
      cases hfirst
      exact .item hget hodd
    | .str (c :: rest), hget, hfirst => exact .letter hget (List.cons_ne_nil c rest)

/-- What is read of an object ends the request well, and of anything else with an error. -/
theorem read_choice (fields : List (PyText × Json)) (choice : Json) :
    Typed (do
      let message ← json_get choice "message" (.dict [])
      let finish_reason ← json_get choice "finish_reason" .null
      let usage ← json_get (.dict fields) "usage" .null
      return { message, finish_reason, usage, raw := .dict fields }) ↔
    ∃ f, choice = .dict f := by
  cases choice with
  | dict f => exact iff_of_true trivial ⟨f, rfl⟩
  | null | bool _ | int _ | float _ | infinity | minus_infinity | nan | str _ | list _ =>
    refine iff_of_false (fun h => h) ?_
    rintro ⟨f, hf⟩
    cases hf

end

/-! ## The law -/

section
variable (lower : PyText → PyText) (repr : Json → String) (had_multimodal_input : Bool)

/-- A response of 400 or more ends the request with an error of its status, if its body can be
read. -/
theorem failed_cases (resp : Response) :
    (resp.body = .too_deep ∧ failed lower repr had_multimodal_input resp = .recursion_error) ∨
      (resp.body ≠ .too_deep ∧ ∃ error,
        failed lower repr had_multimodal_input resp = .llm_provider_error error ∧
          error.status_code = some resp.status_code) := by
  unfold failed
  cases hbody : resp.body with
  | too_deep => exact .inl ⟨rfl, rfl⟩
  | no_json message => exact .inr ⟨Body.noConfusion, _, rfl, rfl⟩
  | json data => exact .inr ⟨Body.noConfusion, _, rfl, rfl⟩

/-- LAW: a request ends with a completion or an `LLMProviderError` iff the body
can be read and, below 400, its first choice is an object if there is one. -/
theorem requests_end_typed_iff_proper (answer : Answer) :
    Typed (request_chat_completion lower repr had_multimodal_input answer) ↔ answer.Proper := by
  cases answer with
  | network_failure message => exact Iff.rfl
  | response resp =>
    unfold request_chat_completion Answer.Proper
    by_cases hstatus : resp.status_code ≥ 400
    · simp only [if_pos hstatus]
      rcases failed_cases lower repr had_multimodal_input resp with
        ⟨hbody, hfailed⟩ | ⟨hbody, error, hfailed, -⟩
      · rw [hfailed, hbody]
        exact Iff.rfl
      · rw [hfailed]
        refine iff_of_true trivial ?_
        cases hresp : resp.body with
        | too_deep => exact hbody hresp
        | no_json message => trivial
        | json data => exact .inl hstatus
    · simp only [if_neg hstatus]
      cases resp.body with
      | too_deep => exact Iff.rfl
      | no_json message => exact Iff.rfl
      | json data =>
        simp only [hstatus, false_or, oddChoice_iff]
        cases hread : choices_of data >>= first_of with
        | error message =>
          have hfirst : first_choice lower (.json data) =
              .error (invalid_payload lower message) := by
            unfold first_choice
            simp only [hread]
          rw [hfirst]
          refine iff_of_true trivial ?_
          rintro ⟨choice, hchoice, -⟩
          cases hchoice
        | ok choice =>
          obtain ⟨choices, hchoices, -⟩ := py.of_bind_ok hread
          obtain ⟨fields, rfl, -⟩ := choices_ok hchoices
          have hfirst : first_choice lower (.json (.dict fields)) = .ok (.dict fields, choice) := by
            unfold first_choice
            simp only [hread]
          rw [hfirst]
          refine (read_choice fields choice).trans ?_
          constructor
          · rintro ⟨f, hf⟩ ⟨choice', hchoice', hodd⟩
            cases hchoice'
            exact hodd f hf
          · intro h
            by_contra hnot
            exact h ⟨choice, rfl, fun f hf => hnot ⟨f, hf⟩⟩

end

/-- `{"choices": [null]}` has a first choice, and it is no object. -/
theorem a_null_choice_raises : ¬Typed (request_chat_completion id (fun _ => "") false
    (.response ⟨200, .json (.dict [(text "choices", .list [.null])]), []⟩)) := fun h => h

end dr_boz.provider_errors
