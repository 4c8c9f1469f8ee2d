-- Law of the transcript that `send_message` sends to the provider. An answer
-- with tool calls goes into the transcript with all of them, and the first five
-- are looked at: those that name a tool of the chat are executed, and each of
-- these gets a tool message.
import DrBoz.CliLines

open dr_boz.cli_lines

namespace dr_boz.tool_transcripts

/-! ## The loop -/

/-- A message for the provider: one of the history or the system prompt, an
answer with tool calls, or the result of a tool. -/
inductive Message where
  | plain (role : String) (content : JsonValue)
  | assistant (content : JsonValue) (tool_calls : List JsonValue)
  | tool (tool_call_id : JsonValue) (content : String)

/-- What `json.loads` raises for a text. Only a `JSONDecodeError` is caught. -/
inductive LoadsError where
  | json_decode_error
  | other
deriving DecidableEq

/-- A chat, and how the provider, the tools and the JSON library answer. The
provider gives the `message` of its response. A tool is known by its name, and
executed in the `j`-th call of the `i`-th response. -/
structure Chat where
  tool_specs : List String
  request_chat_completion : Nat → List Message → Except String JsonValue
  loads : String → Except LoadsError JsonValue
  execute_tool_call : Nat → Nat → String → JsonValue → Except String Fields
  dumps : Fields → Except String String

/-- `fields.pop(key, None)` for each of the keys. -/
def without (fields : Fields) (keys : List String) : Fields :=
  fields.filter fun field => field.1 ∉ keys

/-- The result without what is only for the page. -/
def llm_result (tool_name : String) (result : Fields) : Fields :=
  if tool_name = "image_generator" then
    set_field (without result ["markdown", "saved_image_paths"]) "message"
      (.str "Image generated and displayed to user in UI.")
  else if tool_name = "pdf_generator" then without result ["pdf_base64"]
  else result

section
variable (c : Chat)

/-- The tool of the chat that a call names. What is not a dictionary has no
`get`. -/
def named_tool (tool_call_data : JsonValue) : Except String (Option (String × Fields)) :=
  match tool_call_data with
  | .dict call =>
    match (Fields.get call "function" .null).or (.dict []) with
    | .dict function =>
      match Fields.get function "name" .null with
      | .str tool_name =>
        .ok (if tool_name ≠ "" ∧ tool_name ∈ c.tool_specs then some (tool_name, function) else none)
      | _ => .ok none
    | _ => .error "AttributeError"
  | _ => .error "AttributeError"

/-- `parsed_arguments`. A value that is no text cannot be loaded. -/
def parsed_arguments (function : Fields) : Except String JsonValue :=
  match (Fields.get function "arguments" .null).or (.str "{}") with
  | .str raw_arguments =>
    match c.loads raw_arguments with
    | .ok arguments => .ok arguments
    | .error .json_decode_error => .ok (.dict [("raw", .str raw_arguments)])
    | .error .other => .error "RecursionError"
  | _ => .error "TypeError"

/-- `tool_call_data.get("id")`, of a dictionary. -/
def id_of (tool_call_data : JsonValue) : Option JsonValue :=
  match tool_call_data with
  | .dict call => some (Fields.get call "id" .null)
  | _ => none

/-- The messages for the calls, from the `j`-th on. -/
def tool_messages (i : Nat) : Nat → List JsonValue → Except String (List Message)
  | _, [] => .ok []
  | j, tool_call_data :: rest => do
    match ← named_tool c tool_call_data with
    | none => tool_messages i (j + 1) rest
    | some (tool_name, function) =>
      let arguments ← parsed_arguments c function
      let result ← c.execute_tool_call i j tool_name arguments
      let content ← c.dumps (llm_result tool_name result)
      return .tool ((id_of tool_call_data).getD .null) content :: (← tool_messages i (j + 1) rest)

/-- What the response adds to the transcript, with its tool calls, or nothing
when it ends the loop: without tool calls it is the reply, and what is raised
goes to the client. -/
def round (i : Nat) (llm_messages : List Message) : Option (List JsonValue × List Message) :=
  match c.request_chat_completion i llm_messages with
  | .error _ => none
  | .ok message =>
    match message.or (.dict []) with
    | .dict response_message =>
      match Fields.get response_message "tool_calls" .null with
      | .list (call :: calls) =>
        match tool_messages c i 0 ((call :: calls).take 5) with
        | .error _ => none
        | .ok messages =>
          let content := (Fields.get response_message "content" .null).or (.str "")
          some (call :: calls, .assistant content (call :: calls) :: messages)
      | _ => none
    | _ => none

/-- The lists that are sent in up to `left` rounds. -/
def sent_from : Nat → Nat → List Message → List (List Message)
  | 0, _, _ => []
  | left + 1, i, llm_messages =>
    llm_messages ::
      match round c i llm_messages with
      | none => []
      | some (_, messages) => sent_from left (i + 1) (llm_messages ++ messages)

def MAX_ITERATIONS : Nat := 20

/-- The list at the start: the system prompt and the history. -/
def initial (system_content : JsonValue) (history : List (String × JsonValue)) : List Message :=
  .plain "system" system_content :: history.map fun m => .plain m.1 m.2

/-- All the lists that `send_message` sends to the provider. -/
def send_message (system_content : JsonValue) (history : List (String × JsonValue)) :
    List (List Message) :=
  sent_from c MAX_ITERATIONS 0 (initial system_content history)

/-! ## Answered calls -/

/-- The ids of the tool calls of an answer. -/
def ids_of (tool_calls : List JsonValue) : List JsonValue := tool_calls.filterMap id_of

/-- The ids of the tool messages before the next message of the assistant. -/
def answered : List Message → List JsonValue
  | [] => []
  | .assistant _ _ :: _ => []
  | .plain role _ :: messages => if role = "assistant" then [] else answered messages
  | .tool tool_call_id _ :: messages => tool_call_id :: answered messages

/-- One tool message for each of the ids, and no other. -/
def OneEach (ids answers : List JsonValue) : Prop :=
  answers.Nodup ∧ ∀ id, id ∈ answers ↔ id ∈ ids

/-- Each answer with tool calls is followed by their results. -/
def Paired : List Message → Prop
  | [] => True
  | .assistant _ tool_calls :: messages =>
    OneEach (ids_of tool_calls) (answered messages) ∧ Paired messages
  | _ :: messages => Paired messages

/-- The call names a tool of the chat. -/
def known (tool_call_data : JsonValue) : Bool :=
  match named_tool c tool_call_data with
  | .ok (some _) => true
  | _ => false

/-- The calls that are executed: among the first five, with a known name. -/
def executed (tool_calls : List JsonValue) : List JsonValue :=
  (tool_calls.take 5).filter (known c)

/-- The executed calls have ids of their own, and no other call has an id that
they have not. -/
structure Answerable (tool_calls : List JsonValue) : Prop where
  apart : (ids_of (executed c tool_calls)).Nodup
  covers : ∀ id ∈ ids_of tool_calls, id ∈ ids_of (executed c tool_calls)

/-- The tool calls of the responses that are followed by another request. -/
def followed_from : Nat → Nat → List Message → List (List JsonValue)
  | 0, _, _ => []
  | left + 1, i, llm_messages =>
    match round c i llm_messages with
    | none => []
    | some (tool_calls, messages) =>
      if left = 0 then []
      else tool_calls :: followed_from left (i + 1) (llm_messages ++ messages)

def followed (system_content : JsonValue) (history : List (String × JsonValue)) :
    List (List JsonValue) :=
  followed_from c MAX_ITERATIONS 0 (initial system_content history)

end

/-! ## A round answers its own calls -/

section
variable {c : Chat} {i j left : Nat} {calls : List JsonValue} {messages more : List Message}

/-- A round adds a tool message for each call that is executed. -/
theorem answered_tool_messages (h : tool_messages c i j calls = .ok messages) :
    answered messages = ids_of (calls.filter (known c)) ∧ Paired messages := by
  induction calls generalizing j messages with
  | nil =>
    cases h
    exact ⟨rfl, trivial⟩
  | cons call calls ih =>
    unfold tool_messages at h
    obtain ⟨named, hnamed, h⟩ := py.of_bind_ok h
    cases named with
    | none =>
      have hunknown : ¬known c call = true := by simp [known, hnamed]
      rw [List.filter_cons_of_neg hunknown]
      exact ih h
    | some tool =>
      obtain ⟨arguments, -, h⟩ := py.of_bind_ok h
      obtain ⟨result, -, h⟩ := py.of_bind_ok h
      obtain ⟨content, -, h⟩ := py.of_bind_ok h
      obtain ⟨rest, hrest, h⟩ := py.of_bind_ok h
      cases h
      obtain ⟨hanswered, hpaired⟩ := ih hrest
      have hknown : known c call = true := by simp [known, hnamed]
      -- Only a dictionary names a tool.
      obtain ⟨fields, rfl⟩ : ∃ fields, call = .dict fields := by
        cases call with
        | dict fields => exact ⟨fields, rfl⟩
        | _ => cases hnamed
      rw [List.filter_cons_of_pos hknown]
      refine ⟨?_, hpaired⟩
      simp only [answered, hanswered, ids_of, List.filterMap_cons, id_of, Option.getD_some]

theorem round_eq {response : List JsonValue × List Message}
    (h : round c i messages = some response) : ∃ content results,
      response.2 = .assistant content response.1 :: results ∧ Paired results ∧
        answered results = ids_of (executed c response.1) := by
  unfold round at h
  split at h
  · cases h
  · split at h
    · split at h
      · split at h
        · cases h
        · next hmessages =>
          cases h
          obtain ⟨hanswered, hpaired⟩ := answered_tool_messages hmessages
          exact ⟨_, _, rfl, hpaired, hanswered⟩
      · cases h
    · cases h

/-- What comes with an answer of the assistant is no answer to calls before. -/
theorem answered_append (messages : List Message) (content : JsonValue) :
    answered (messages ++ .assistant content calls :: more) = answered messages := by
  induction messages with
  | nil => rfl
  | cons message messages ih =>
    cases message with
    | plain role text =>
      simp only [List.cons_append, answered]
      split
      · rfl
      · exact ih
    | assistant content calls => rfl
    | tool id text => simp only [List.cons_append, answered, ih]

theorem paired_append (messages : List Message) (content : JsonValue) :
    Paired (messages ++ .assistant content calls :: more) ↔
      Paired messages ∧ Paired (.assistant content calls :: more) := by
  induction messages with
  | nil => simp [Paired]
  | cons message messages ih =>
    cases message with
    | plain role text => exact ih
    | assistant content calls =>
      simp only [List.cons_append, Paired, answered_append] at ih ⊢
      rw [ih, and_assoc]
    | tool id text => exact ih

/-- The results are one each for the calls iff these can be answered. -/
theorem oneEach_iff (c : Chat) (calls : List JsonValue) :
    OneEach (ids_of calls) (ids_of (executed c calls)) ↔ Answerable c calls := by
  constructor
  · rintro ⟨hnodup, hids⟩
    exact ⟨hnodup, fun id hid => (hids id).mpr hid⟩
  · rintro ⟨hnodup, hcovers⟩
    refine ⟨hnodup, fun id => ⟨?_, hcovers id⟩⟩
    intro hid
    obtain ⟨call, hcall, hid⟩ := List.mem_filterMap.mp hid
    have hmem := List.mem_of_mem_take (List.mem_filter.mp hcall).1
    exact List.mem_filterMap.mpr ⟨call, hmem, hid⟩

/-- A round keeps the pairs iff its calls can be answered. -/
theorem paired_round {response : List JsonValue × List Message} (hpaired : Paired messages)
    (h : round c i messages = some response) :
    Paired (messages ++ response.2) ↔ Answerable c response.1 := by
  obtain ⟨content, results, hadded, hresults, hanswered⟩ := round_eq h
  rw [hadded, paired_append, ← oneEach_iff, ← hanswered]
  exact ⟨fun hall => hall.2.1, fun hone => ⟨hpaired, hone, hresults⟩⟩

/-- What is sent first is the list at the start. -/
theorem sent_from_head (hleft : left ≠ 0) : messages ∈ sent_from c left i messages := by
  cases left with
  | zero => exact absurd rfl hleft
  | succ left => exact List.mem_cons_self

theorem sent_paired_iff (hpaired : Paired messages) :
    (∀ sent ∈ sent_from c left i messages, Paired sent) ↔
      ∀ tool_calls ∈ followed_from c left i messages, Answerable c tool_calls := by
  induction left generalizing i messages with
  | zero => simp [sent_from, followed_from]
  | succ left ih =>
    simp only [sent_from, followed_from, List.forall_mem_cons]
    cases hround : round c i messages with
    | none => simp [hpaired]
    | some response =>
      have hstep := paired_round hpaired hround
      simp only
      by_cases hleft : left = 0
      · subst hleft
        simp [sent_from, hpaired]
      · rw [if_neg hleft, List.forall_mem_cons]
        constructor
        · rintro ⟨-, hsent⟩
          have hanswerable := hstep.mp (hsent _ (sent_from_head hleft))
          exact ⟨hanswerable, (ih (hstep.mpr hanswerable)).mp hsent⟩
        · rintro ⟨hanswerable, hrest⟩
          exact ⟨hpaired, (ih (hstep.mpr hanswerable)).mpr hrest⟩

theorem paired_initial (system_content : JsonValue) (history : List (String × JsonValue)) :
    Paired (initial system_content history) := by
  unfold initial
  induction history with
  | nil => trivial
  | cons message history ih => exact ih

end

/-! ## The law -/

/-- LAW: the tool calls in the transcript are answered one by one iff in each
response that another request follows, the calls among the first five with a
known name have ids of their own, and no other call has another id. -/
theorem calls_are_answered_iff_no_id_is_left_out (c : Chat) (system_content : JsonValue)
    (history : List (String × JsonValue)) :
    (∀ sent ∈ send_message c system_content history, Paired sent) ↔
      ∀ tool_calls ∈ followed c system_content history, Answerable c tool_calls :=
  sent_paired_iff (paired_initial system_content history)

/-- A call of the tool `name`. -/
def a_call (name id : String) : JsonValue :=
  .dict [("id", .str id), ("function", .dict [("name", .str name)])]

/-- A chat without tools whose provider asks for one, and then answers. -/
def a_chat : Chat where
  tool_specs := []
  request_chat_completion := fun i _ =>
    if i = 0 then .ok (.dict [("tool_calls", .list [a_call "calculator" "call_1"])])
    else .ok (.dict [("content", .str "4")])
  loads := fun _ => .ok (.dict [])
  execute_tool_call := fun _ _ _ _ => .ok []
  dumps := fun _ => .ok "{}"

/-- The call of a tool that the chat does not have gets no answer. -/
theorem an_unknown_call_is_not_answered :
    ¬∀ sent ∈ send_message a_chat (.str "") [], Paired sent := by
  intro h
  have hpaired := h [.plain "system" (.str ""),
    .assistant (.str "") [a_call "calculator" "call_1"]] (List.mem_cons_of_mem _ List.mem_cons_self)
  have hanswers := hpaired.1.2 (.str "call_1")
  exact List.not_mem_nil (hanswers.mpr List.mem_cons_self)

end dr_boz.tool_transcripts
