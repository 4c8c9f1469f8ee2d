-- Law of the messages of a Codex completion: a call leaves the objects of its
-- caller as they were, so the calls of a stream (`stream_codex_direct_completion`
-- of `agent_routes.py`) send the same system prompt each time, and the request
-- has the last message of the user.
import DrBoz.CodexRuns
import DrBoz.AgentStream

open dr_boz.py dr_boz.cli_lines dr_boz.codex_prompts dr_boz.codex_completions dr_boz.codex_runs
open dr_boz.agent_stream (MAX_RETRIES MAX_TOOL_ITERATIONS)

namespace dr_boz.codex_messages

/-! ## The calls of a stream -/

/-- What a stream finds: a server for each call, the tools of the chat, and the
JSON text that the tool of a call gives. -/
structure Stream where
  server : Nat → Server
  tool_specs : List String
  extract_codex_tool_requests : String → List ToolRequest
  execute_tool_call : Nat → String → JsonValue → Except Raised String

/-- `item.get("text", "")` of the items of the type text, joined. -/
def joined_text (items : List JsonValue) : Except Raised String := do
  let texts ← items.filterMapM fun item =>
    match item with
    | .dict fields =>
      if (Fields.get fields "type" .null).is_text "text" then
        match Fields.get fields "text" (.str "") with
        | .str text => pure (some text)
        | value => throw (.exception
            ("sequence item 0: expected str instance, " ++ type_name value ++ " found"))
      else pure none
    | _ => pure none
  return String.join texts

/-- `content_val` -/
def content_val : Outcome → Except Raised JsonValue
  | .reply response => .ok (.str response.content)
  | .fallback (.list items) => (joined_text items).map .str
  | .fallback content => .ok content

/-- `_extract_codex_tool_requests(content_val) if content_val else []` -/
def requests_of (c : Stream) (content : JsonValue) : Except Raised (List ToolRequest) :=
  match content with
  | .str text => .ok (if text = "" then [] else c.extract_codex_tool_requests text)
  | content =>
    if content.truthy then .error (.exception "expected string or bytes-like object") else .ok []

/-- A pass of the loop: whether it raised, whether it counted a tool iteration, what
it appended to the messages, and whether there is a next pass. -/
structure Pass where
  failed : Bool
  iterated : Bool
  appended : List Fields
  goes_on : Bool

def tool_result_message (tool_name result_text : String) : Fields :=
  message_of "user" (.str ("TOOL_RESULT (" ++ tool_name ++ "):\n" ++ result_text ++
    "\n\nNow produce your final answer based on this result."))

/-- What a pass does with the outcome of its call. -/
def stream_pass (c : Stream) (call tool_iteration : Nat) (outcome : Except Raised Outcome) :
    Pass :=
  match outcome.bind content_val with
  | .error _ => ⟨true, false, [], true⟩
  | .ok content =>
    let said := if content.truthy then [message_of "assistant" content] else []
    match requests_of c content with
    | .error _ => ⟨true, false, said, true⟩
    | .ok [] => ⟨false, false, said, false⟩
    | .ok (tool_request :: _) =>
      if c.tool_specs = [] ∨ MAX_TOOL_ITERATIONS ≤ tool_iteration then ⟨false, false, said, false⟩
      else
        match tool_request.name.filter fun tool_name => tool_name ∈ c.tool_specs with
        | none => ⟨false, true, said, false⟩
        | some tool_name =>
          let arguments := tool_request.arguments.or (.dict [])
          match c.execute_tool_call call tool_name arguments with
          | .error _ => ⟨true, true, said, true⟩
          | .ok result_text =>
            ⟨false, true, said ++ [tool_result_message tool_name result_text], true⟩

/-- The objects of a stream, what each of them was when it was made, and the
messages that are sent. -/
structure Held where
  heap : Heap
  original : Heap
  messages : List Nat

/-- `messages.append(message)`, for a new object. -/
def Held.append (held : Held) (message : Fields) : Held where
  heap := held.heap ++ [message]
  original := held.original ++ [message]
  messages := held.messages ++ [held.heap.length]

/-- A call of a stream. -/
structure Call where
  held : Held
  server : Server

def Call.report (lib : Library) (x : Call) : Report :=
  request_codex_completion lib x.server x.held.heap x.held.messages

/-- `while attempt <= max_retries`, with `left` passes to go: its calls. -/
def calls_from (lib : Library) (c : Stream) :
    (left call attempt tool_iteration : Nat) → Held → List Call
  | 0, _, _, _, _ => []
  | left + 1, call, attempt, tool_iteration, held =>
    if MAX_RETRIES < attempt then [] else
    let x : Call := ⟨held, c.server call⟩
    let pass := stream_pass c call tool_iteration (x.report lib).outcome
    x :: if pass.goes_on then
        calls_from lib c left (call + 1) (attempt + pass.failed.toNat)
          (tool_iteration + pass.iterated.toNat)
          (pass.appended.foldl Held.append { held with heap := (x.report lib).heap })
      else []

/-- The calls of `stream_codex_direct_completion` for these messages. -/
def stream_calls (lib : Library) (c : Stream) (heap : Heap) (messages : List Nat) : List Call :=
  calls_from lib c (MAX_RETRIES + 1 + MAX_TOOL_ITERATIONS) 0 0 0 ⟨heap, heap, messages⟩

/-! ## What a call should keep -/

/-- The last message of the user. -/
def last_user (messages : List Fields) : Option Fields :=
  (messages.filter (has_role "user")).getLast?

/-- A call leaves the objects of its messages as they were, and its first prompt is
made of messages with the last one of the user among them. -/
structure KeepsMessages (lib : Library) (s : Server) (heap : Heap) (messages : List Nat) :
    Prop where
  frame : ∀ object ∈ messages,
    message_at (request_codex_completion lib s heap messages).heap object = message_at heap object
  sends : ∀ run ∈ (request_codex_completion lib s heap messages).runs.head?,
    ∀ m ∈ last_user (messages.map (message_at heap)), ∃ q ∈ run.prompt.messages,
      has_role "user" q.2 = true ∧ q.2.get "content" .null = m.get "content" .null

/-- The system prompt of a call, and the input that it is billed for at least. -/
def sent_and_billed (lib : Library) (s : Server) (heap : Heap) (messages : List Nat) :
    Except Raised (Option JsonValue × Nat) :=
  (llm_messages lib s heap messages).map fun (_, sent) =>
    ((sent.find? (has_role "system")).map fun m => m.get "content" .null,
      effective_input_tokens lib sent)

/-- A call of a stream: it keeps its messages, and it sends the system prompt and is
billed for the input of a single call with these messages. -/
structure Call.Keeps (lib : Library) (x : Call) : Prop where
  messages : KeepsMessages lib x.server x.held.heap x.held.messages
  single : sent_and_billed lib x.server x.held.heap x.held.messages =
    sent_and_billed lib x.server x.held.original x.held.messages

/-! ## When it does -/

/-- `m.get("role") == "system"` of an object. -/
def is_system (heap : Heap) (object : Nat) : Bool := has_role "system" (message_at heap object)

/-- `llm_messages` gets the objects of the caller. -/
def Copied (s : Server) (heap : Heap) (messages : List Nat) : Prop :=
  build_codex_messages_with_chat_history heap s.chat messages = .ok (messages.map .given)

/-- What the user said is shown: when a thread is resumed only the last of it. -/
def Shown (thread_id : Option String) (said : List Fields) (content : JsonValue) : Prop :=
  if truthyKey thread_id then ∃ q ∈ said.getLast?, q.get "content" .null = content
  else ∃ q ∈ said, q.get "content" .null = content

/-- No object is changed: when the call has an account and gets the objects of the
caller, the first system message of them has no content, if there is one. And what
the chat has stored shows the last message of the user, when it takes the place of
the list. -/
structure Harmless (lib : Library) (s : Server) (heap : Heap) (messages : List Nat) : Prop where
  edits : s.stream = false → (∃ account, s.selection = .account (some account)) →
    Copied s heap messages →
    ∀ object ∈ messages.find? (is_system heap),
      (message_at heap object).find? (fun field => field.1 = "content") = none
  stores : (∃ account p, Opened lib s heap messages account p) → ¬Copied s heap messages →
    ∀ chat ∈ s.chat, ∀ m ∈ last_user (messages.map (message_at heap)),
      Shown chat.codex_thread_id
        (((stored_messages chat).filterMap Row.turn).filter (has_role "user"))
        (m.get "content" .null)

/-! ## The messages that are built -/

section
variable {lib : Library} {s : Server} {heap : Heap} {messages : List Nat}

theorem has_role_unique {a b : String} {message : Fields} (ha : has_role a message = true)
    (hb : has_role b message = true) : a = b := by
  unfold has_role at ha hb
  cases hrole : message.get "role" .null with
  | str text =>
    rw [hrole, JsonValue.is_text, decide_eq_true_eq] at ha hb
    exact ha.symm.trans hb
  | _ =>
    rw [hrole] at ha
    cases ha

/-- The system message with the protocol. -/
def edited (lib : Library) (s : Server) (message : Fields) (content : JsonValue) : Fields :=
  set_field message "content"
    (.str (str_of lib content ++ "\n\n" ++ s.codex_tool_protocol))

theorem edited_role (role : String) (message : Fields) (content : JsonValue) :
    has_role role (edited lib s message content) = has_role role message := by
  unfold has_role edited
  rw [get_set_field_other message _ _ (by decide)]

/-- The content is another one. -/
theorem edited_changes {message : Fields} {key : String} {content : JsonValue}
    (h : message.find? (fun field => field.1 = "content") = some (key, content)) :
    edited lib s message content ≠ message := by
  intro hsame
  have hnew : Fields.get message "content" .null =
      .str (str_of lib content ++ "\n\n" ++ s.codex_tool_protocol) := by
    conv_lhs => rw [← hsame]
    exact get_set_field message "content" _ _
  have hold : Fields.get message "content" .null = content := by
    unfold Fields.get
    rw [h]
    rfl
  rw [hold] at hnew
  have hlength := congrArg (fun v => (str_of lib v).length) hnew
  simp only [str_of, String.length_append] at hlength
  have hbreak : "\n\n".length = 2 := rfl
  omega

theorem build_cases {chat : Option Chat} {entries : List Entry}
    (h : build_codex_messages_with_chat_history heap chat messages = .ok entries) :
    entries = messages.map .given ∨
      ∃ c, chat = some c ∧ rebuilt c (messages.map (message_at heap)) ≠ [] ∧
        entries = (rebuilt c (messages.map (message_at heap))).map .made := by
  cases chat with
  | none => exact .inl (Except.ok.inj h).symm
  | some c =>
    unfold build_codex_messages_with_chat_history at h
    simp only at h
    cases hcount : count_non_system_messages (messages.map (message_at heap)) with
    | error e =>
      rw [hcount] at h
      cases h
    | ok n =>
      rw [hcount] at h
      by_cases hfew : (stored_messages c).length ≤ n
      · left
        simp only [bind, Except.bind, if_pos hfew] at h
        exact (Except.ok.inj h).symm
      · simp only [bind, Except.bind, if_neg hfew] at h
        cases hmade : rebuilt c (messages.map (message_at heap)) with
        | nil =>
          rw [hmade] at h
          exact .inl (Except.ok.inj h).symm
        | cons first rest =>
          rw [hmade] at h
          exact .inr ⟨c, rfl, by rw [hmade]; simp, hmade ▸ (Except.ok.inj h).symm⟩

/-- The first system message of the caller is the one that is changed. -/
theorem add_protocol_given : ∀ objects : List Nat,
    add_protocol lib s heap (objects.map .given) =
      match objects.find? (is_system heap) with
      | none => .ok (heap, objects.map .given)
      | some object =>
        match (message_at heap object).find? fun field => field.1 = "content" with
        | none => .error (.exception "'content'")
        | some (_, content) =>
          .ok (heap.set object (edited lib s (message_at heap object) content),
            objects.map .given) := by
  intro objects
  induction objects with
  | nil => rfl
  | cons object objects ih =>
    rw [List.map_cons, add_protocol]
    simp only
    by_cases hsystem : has_role "system" ((Entry.given object).message heap) = true
    · have hread : is_system heap object = true := hsystem
      rw [if_pos hsystem, List.find?_cons, hread]
      unfold Entry.message
      simp only
      cases (message_at heap object).find? fun field => field.1 = "content" with
      | none => rfl
      | some field => rfl
    · have hread : is_system heap object = false :=
        Bool.eq_false_iff.mpr hsystem
      rw [if_neg hsystem, List.find?_cons, hread, ih]
      simp only
      cases objects.find? (is_system heap) with
      | none => rfl
      | some first =>
        simp only
        cases (message_at heap first).find? fun field => field.1 = "content" with
        | none => rfl
        | some field => rfl

/-- The messages that are made here can be changed: no object of the caller is, and
what the user said stays. -/
theorem add_protocol_made : ∀ (made : List Fields) (after : Heap) (entries : List Entry),
    add_protocol lib s heap (made.map .made) = .ok (after, entries) →
      after = heap ∧ (entries.map (Entry.message after)).filter (has_role "user") =
        made.filter (has_role "user") := by
  intro made
  induction made with
  | nil =>
    intro after entries h
    cases h
    exact ⟨rfl, rfl⟩
  | cons m made ih =>
    intro after entries h
    rw [List.map_cons, add_protocol] at h
    simp only at h
    have hmade : (made.map Entry.made).map (Entry.message heap) = made := by
      rw [List.map_map]
      exact List.map_id made
    have hmessage : (Entry.made m).message heap = m := rfl
    rw [hmessage] at h
    by_cases hsystem : has_role "system" m = true
    · rw [if_pos hsystem] at h
      have hother : ¬has_role "user" m = true := by
        intro huser
        exact absurd (has_role_unique hsystem huser) (by decide)
      cases hcontent : m.find? fun field => field.1 = "content" with
      | none =>
        rw [hcontent] at h
        cases h
      | some field =>
        rw [hcontent] at h
        cases h
        have hedited := @edited_role lib s "user" m field.2
        refine ⟨rfl, ?_⟩
        rw [List.map_cons, hmade, List.filter_cons_of_neg hother, List.filter_cons_of_neg]
        rw [Entry.message, ← edited, hedited]
        exact hother
    · rw [if_neg hsystem] at h
      cases hrest : add_protocol lib s heap (made.map .made) with
      | error e =>
        rw [hrest] at h
        cases h
      | ok rest =>
        rw [hrest] at h
        cases h
        obtain ⟨hafter, hsaid⟩ := ih rest.1 rest.2 hrest
        refine ⟨hafter, ?_⟩
        rw [List.map_cons, List.filter_cons, List.filter_cons, hsaid]
        rfl

theorem rebuilt_said (chat : Chat) (incoming : List Fields) :
    (rebuilt chat incoming).filter (has_role "user") =
      ((stored_messages chat).filterMap Row.turn).filter (has_role "user") := by
  unfold rebuilt
  rw [List.filter_append]
  cases incoming.find? (has_role "system") with
  | none => rfl
  | some m => rfl

/-- What the call sees of the user, after an object was changed or none. -/
structure Said (s : Server) (heap : Heap) (messages : List Nat) (sent : List Fields) : Prop where
  copied : Copied s heap messages →
    sent.filter (has_role "user") = (messages.map (message_at heap)).filter (has_role "user")
  stored : ¬Copied s heap messages → ∃ chat, s.chat = some chat ∧ sent.filter (has_role "user") =
    ((stored_messages chat).filterMap Row.turn).filter (has_role "user")

theorem message_at_set (object : Nat) (message : Fields) (other : Nat) :
    message_at (heap.set object message) other =
      if object = other ∧ object < heap.length then message else message_at heap other := by
  unfold message_at
  rw [List.getD_eq_getElem?_getD, List.getElem?_set, List.getD_eq_getElem?_getD]
  by_cases hsame : object = other
  · rw [if_pos hsame, hsame]
    by_cases hlength : other < heap.length
    · simp [hlength]
    · simp [hlength]
  · simp [hsame]

/-- A system message is an object that exists. -/
theorem system_exists {object : Nat} (h : is_system heap object = true) :
    object < heap.length := by
  by_contra hnone
  unfold is_system message_at at h
  rw [List.getD_eq_getElem?_getD, List.getElem?_eq_none (Nat.le_of_not_lt hnone)] at h
  cases h

/-- Changing a system message changes nothing that the user said. -/
theorem set_said {object : Nat} {content : JsonValue}
    (h : is_system heap object = true) :
    let after := heap.set object (edited lib s (message_at heap object) content)
    (messages.map (message_at after)).filter (has_role "user") =
      (messages.map (message_at heap)).filter (has_role "user") := by
  intro after
  induction messages with
  | nil => rfl
  | cons first messages ih =>
    rw [List.map_cons, List.map_cons, List.filter_cons, List.filter_cons, ih, message_at_set]
    split
    · rename_i hsame
      have hother : ¬has_role "user" (message_at heap object) = true := by
        intro huser
        exact absurd (has_role_unique h huser) (by decide)
      rw [edited_role, if_neg hother, ← hsame.1, if_neg hother]
    · rfl

/-! ## The messages of a call -/

/-- What a call does to the objects: nothing, or the first system message of its
list is another one after it, and nothing that the user said. -/
inductive Edit (s : Server) (heap : Heap) (messages : List Nat) : Heap → Prop
  | none (h : Copied s heap messages →
      ∀ object ∈ messages.find? (is_system heap),
        (message_at heap object).find? (fun field => field.1 = "content") = none) :
      Edit s heap messages heap
  | system {object : Nat} {key : String} {content : JsonValue} {after : Heap}
      (hcopied : Copied s heap messages)
      (hfirst : messages.find? (is_system heap) =
        some object)
      (hcontent : (message_at heap object).find? (fun field => field.1 = "content") =
        some (key, content))
      (hother : message_at after object ≠ message_at heap object) : Edit s heap messages after

theorem given_messages (after : Heap) (objects : List Nat) :
    (objects.map Entry.given).map (Entry.message after) = objects.map (message_at after) := by
  rw [List.map_map]
  rfl

theorem made_messages (after : Heap) (made : List Fields) :
    (made.map Entry.made).map (Entry.message after) = made := by
  rw [List.map_map]
  exact List.map_id made

theorem any_given (objects : List Nat) :
    ((objects.map Entry.given).any fun entry => has_role "system" (entry.message heap)) =
      (objects.find? (is_system heap)).isSome := by
  rw [List.any_map, Bool.eq_iff_iff, List.any_eq_true, List.find?_isSome]
  rfl

theorem llm_messages_copied (hcopied : Copied s heap messages) :
    (∃ e, llm_messages lib s heap messages = .error e ∧ Edit s heap messages heap) ∨
      ∃ after sent, llm_messages lib s heap messages = .ok (after, sent) ∧
        Edit s heap messages after ∧
        sent.filter (has_role "user") =
          (messages.map (message_at heap)).filter (has_role "user") := by
  unfold llm_messages
  rw [show build_codex_messages_with_chat_history heap s.chat messages = _ from hcopied]
  simp only [bind, Except.bind]
  rw [any_given, add_protocol_given]
  cases hfirst : messages.find? (is_system heap) with
  | none =>
    right
    refine ⟨heap, _, rfl, .none fun _ object hobject => ?_, ?_⟩
    · rw [hfirst] at hobject
      cases hobject
    · have hsystem : ¬has_role "user" (message_of "system" (.str s.system_content)) = true :=
        Bool.false_ne_true
      rw [List.filter_cons_of_neg hsystem, given_messages]
  | some object =>
    have hsystem : is_system heap object = true := List.find?_some hfirst
    simp only [Option.isSome_some, if_true]
    cases hcontent : (message_at heap object).find? fun field => field.1 = "content" with
    | none =>
      left
      refine ⟨_, rfl, .none fun _ other hother => ?_⟩
      rw [hfirst] at hother
      cases hother
      exact hcontent
    | some field =>
      right
      refine ⟨_, _, rfl, .system hcopied hfirst hcontent ?_, ?_⟩
      · rw [message_at_set, if_pos ⟨rfl, system_exists hsystem⟩]
        exact edited_changes hcontent
      · rw [given_messages]
        exact set_said hsystem

/-- Messages that are made here keep the objects, and show what the chat has stored. -/
theorem llm_messages_made {chat : Chat} {sent : List Fields} {after : Heap}
    (hbuild : build_codex_messages_with_chat_history heap s.chat messages =
      .ok ((rebuilt chat (messages.map (message_at heap))).map .made))
    (h : llm_messages lib s heap messages = .ok (after, sent)) :
    after = heap ∧ sent.filter (has_role "user") =
      ((stored_messages chat).filterMap Row.turn).filter (has_role "user") := by
  rw [← rebuilt_said chat (messages.map (message_at heap))]
  unfold llm_messages at h
  rw [hbuild] at h
  simp only [bind, Except.bind] at h
  split at h
  · cases hadd : add_protocol lib s heap
      ((rebuilt chat (messages.map (message_at heap))).map .made) with
    | error e =>
      rw [hadd] at h
      cases h
    | ok out =>
      rw [hadd] at h
      cases h
      exact add_protocol_made _ _ _ hadd
  · cases h
    have hsystem : ¬has_role "user" (message_of "system" (.str s.system_content)) = true :=
      Bool.false_ne_true
    rw [List.filter_cons_of_neg hsystem, made_messages]
    exact ⟨rfl, rfl⟩

/-- The messages of a call: what becomes of the objects, and what they show of the user. -/
structure Sees (s : Server) (heap : Heap) (messages : List Nat) (after : Heap)
    (sent : List Fields) : Prop where
  edit : Edit s heap messages after
  copied : Copied s heap messages →
    sent.filter (has_role "user") = (messages.map (message_at heap)).filter (has_role "user")
  stored : ¬Copied s heap messages → ∃ chat, s.chat = some chat ∧ sent.filter (has_role "user") =
    ((stored_messages chat).filterMap Row.turn).filter (has_role "user")

theorem llm_messages_sees {after : Heap} {sent : List Fields}
    (h : llm_messages lib s heap messages = .ok (after, sent)) :
    Sees s heap messages after sent := by
  by_cases hcopied : Copied s heap messages
  · rcases @llm_messages_copied lib s heap messages hcopied with
      ⟨e, herror, _⟩ | ⟨_, _, hok, hedit, hsaid⟩
    · rw [h] at herror
      cases herror
    · rw [h] at hok
      cases hok
      exact ⟨hedit, fun _ => hsaid, fun hnot => absurd hcopied hnot⟩
  · cases hbuild : build_codex_messages_with_chat_history heap s.chat messages with
    | error e =>
      unfold llm_messages at h
      rw [hbuild] at h
      cases h
    | ok entries =>
      rcases build_cases hbuild with hgiven | ⟨chat, hchat, _, hmade⟩
      · rw [hgiven] at hbuild
        exact absurd hbuild hcopied
      · obtain ⟨rfl, hsaid⟩ := llm_messages_made (hmade ▸ hbuild) h
        exact ⟨.none fun hyes => absurd hyes hcopied, fun hyes => absurd hyes hcopied,
          fun _ => ⟨chat, hchat, hsaid⟩⟩

theorem llm_messages_fails {e : Raised} (h : llm_messages lib s heap messages = .error e) :
    Edit s heap messages heap := by
  by_cases hcopied : Copied s heap messages
  · rcases @llm_messages_copied lib s heap messages hcopied with ⟨_, _, hedit⟩ | ⟨_, _, hok, _⟩
    · exact hedit
    · rw [h] at hok
      cases hok
  · exact .none fun hyes => absurd hyes hcopied

/-! ## The objects after a call -/

theorem run_tools_heap (account : Account) (p : Prepared) :
    (run_tools s heap account p).heap = heap := by
  have hhandle : ∀ runs e, (handle s heap account runs e).heap = heap := by
    intro runs e
    unfold handle
    split
    · rfl
    · split <;> rfl
  unfold run_tools
  split
  · exact hhandle _ _
  · split
    · simp only
      split
      · exact hhandle _ _
      · unfold finish
        simp only
        split <;> rfl
    · unfold refuse_login
      simp only
      split
      · exact hhandle _ _
      · rfl

/-- A call that is refused changes nothing. -/
theorem refused_heap
    (h : ¬(s.stream = false ∧ ∃ account, s.selection = .account (some account))) :
    (request_codex_completion lib s heap messages).heap = heap := by
  unfold request_codex_completion
  split
  · rfl
  · rename_i hstream
    cases hselection : s.selection with
    | refused message code => rfl
    | fallback content => rfl
    | account found =>
      cases found with
      | none => rfl
      | some account => exact absurd ⟨by simpa using hstream, account, hselection⟩ h

theorem accepted_edit {account : Account} (hstream : s.stream = false)
    (hselection : s.selection = .account (some account)) :
    Edit s heap messages (request_codex_completion lib s heap messages).heap := by
  unfold request_codex_completion
  rw [hstream, hselection]
  simp only [Bool.false_eq_true, if_false]
  cases hmessages : llm_messages lib s heap messages with
  | error e => exact llm_messages_fails hmessages
  | ok found =>
    obtain ⟨after, sent⟩ := found
    simp only
    cases prepare lib s sent with
    | error e => exact (llm_messages_sees hmessages).edit
    | ok p =>
      simp only
      rw [run_tools_heap]
      exact (llm_messages_sees hmessages).edit

/-- No object of the list is changed if and only if none is to be edited, and then no
object is changed at all. -/
theorem frame_iff (lib : Library) (s : Server) (heap : Heap) (messages : List Nat) :
    ((∀ object ∈ messages, message_at (request_codex_completion lib s heap messages).heap object =
        message_at heap object) ↔
      (s.stream = false → (∃ account, s.selection = .account (some account)) →
        Copied s heap messages → ∀ object ∈ messages.find? (is_system heap),
          (message_at heap object).find? (fun field => field.1 = "content") = none)) ∧
    ((∀ object ∈ messages, message_at (request_codex_completion lib s heap messages).heap object =
        message_at heap object) →
      (request_codex_completion lib s heap messages).heap = heap) := by
  by_cases haccepted : s.stream = false ∧ ∃ account, s.selection = .account (some account)
  · obtain ⟨hstream, account, hselection⟩ := haccepted
    have hedit := @accepted_edit lib s heap messages account hstream
      hselection
    generalize (request_codex_completion lib s heap messages).heap = after at hedit
    cases hedit with
    | none hnone => exact ⟨⟨fun _ _ _ => hnone, fun _ _ _ => rfl⟩, fun _ => rfl⟩
    | system hcopied hfirst hcontent hother =>
      have hchanged : ¬∀ object ∈ messages, message_at after object = message_at heap object :=
        fun hsame => hother (hsame _ (List.mem_of_find?_eq_some hfirst))
      refine ⟨⟨fun hsame => absurd hsame hchanged, fun hnone => ?_⟩,
        fun hsame => absurd hsame hchanged⟩
      have hmissing := hnone hstream ⟨account, hselection⟩ hcopied _ hfirst
      rw [hcontent] at hmissing
      cases hmissing
  · rw [refused_heap haccepted]
    exact ⟨⟨fun _ hstream hselection => absurd ⟨hstream, hselection⟩ haccepted,
      fun _ _ _ => rfl⟩, fun _ => rfl⟩

/-! ## The request -/

theorem placed_filter (role : String) (sent : List Fields) :
    ((placed sent).filter fun m => has_role role m.2).map Prod.snd =
      sent.filter (has_role role) := by
  have hmessages : (placed sent).map Prod.snd = sent := by
    unfold placed
    rw [List.map_map]
    exact List.zipIdx_map_fst 0 sent
  conv_rhs => rw [← hmessages, List.filter_map]
  rfl

/-- The prompt shows a content of the user as its messages do. -/
theorem prompt_shows (thread_id : Option String) (sent : List Fields) (content : JsonValue) :
    (∃ q ∈ messages_for_prompt thread_id (placed sent),
      has_role "user" q.2 = true ∧ q.2.get "content" .null = content) ↔
    Shown thread_id (sent.filter (has_role "user")) content := by
  have hsaid := placed_filter "user" sent
  unfold messages_for_prompt Shown
  split
  · rw [← hsaid, List.getLast?_map]
    cases hlast : ((placed sent).filter fun m => has_role "user" m.2).getLast? with
    | none =>
      have hnone := List.getLast?_eq_none_iff.mp hlast
      simp only [Option.map_none, Option.mem_def, reduceCtorEq, false_and, exists_false, iff_false]
      rintro ⟨q, hq, huser, _⟩
      have hmem : q ∈ (placed sent).filter fun m => has_role "user" m.2 :=
        List.mem_filter.mpr ⟨List.mem_of_getLast? (Option.mem_toList.mp hq), huser⟩
      rw [hnone] at hmem
      cases hmem
    | some q =>
      have huser := (List.mem_filter.mp (List.mem_of_getLast? hlast)).2
      simp [huser]
  · rw [← hsaid]
    constructor
    · rintro ⟨q, hq, huser, hcontent⟩
      exact ⟨q.2, List.mem_map_of_mem (List.mem_filter.mpr
        ⟨List.mem_of_mem_filter hq, huser⟩), hcontent⟩
    · rintro ⟨m, hm, hcontent⟩
      obtain ⟨q, hq, rfl⟩ := List.mem_map.mp hm
      obtain ⟨hq, huser⟩ := List.mem_filter.mp hq
      have hother : has_role "system" q.2 = false := by
        by_contra hsystem
        exact absurd (has_role_unique huser (Bool.eq_true_of_not_eq_false hsystem)) (by decide)
      exact ⟨q, List.mem_filter.mpr ⟨hq, by rw [hother]; rfl⟩, huser, hcontent⟩

/-- The last message of the user is shown by the messages it is in. -/
theorem last_is_shown (thread_id : Option String) {said : List Fields} {m : Fields}
    (h : said.getLast? = some m) : Shown thread_id said (m.get "content" .null) := by
  unfold Shown
  split
  · exact ⟨m, h, rfl⟩
  · exact ⟨m, List.mem_of_getLast? h, rfl⟩

theorem sends_iff (lib : Library) (s : Server) (heap : Heap) (messages : List Nat) :
    (∀ run ∈ (request_codex_completion lib s heap messages).runs.head?,
      ∀ m ∈ last_user (messages.map (message_at heap)), ∃ q ∈ run.prompt.messages,
        has_role "user" q.2 = true ∧ q.2.get "content" .null = m.get "content" .null) ↔
    ((∃ account p, Opened lib s heap messages account p) → ¬Copied s heap messages →
      ∀ chat ∈ s.chat, ∀ m ∈ last_user (messages.map (message_at heap)),
        Shown chat.codex_thread_id
          (((stored_messages chat).filterMap Row.turn).filter (has_role "user"))
          (m.get "content" .null)) := by
  by_cases hopens : ∃ account p, Opened lib s heap messages account p
  · obtain ⟨account, p, hopened⟩ := hopens
    obtain ⟨later, hruns, _⟩ := opened_runs hopened
    obtain ⟨after, sent, hmessages, hprepare, _⟩ := opened_request hopened
    have hsees := llm_messages_sees hmessages
    have hprompt : p.prompt.messages =
        messages_for_prompt (s.chat.bind Chat.codex_thread_id) (placed sent) := by
      rw [(prepare_parts hprepare).1]
      rfl
    rw [hruns]
    simp only [List.head?_cons, Option.mem_def, Option.some.injEq, forall_eq', hprompt,
      prompt_shows]
    by_cases hcopied : Copied s heap messages
    · refine ⟨fun _ _ hnot => absurd hcopied hnot, fun _ m hm => ?_⟩
      rw [hsees.copied hcopied]
      exact last_is_shown _ hm
    · obtain ⟨chat, hchat, hsaid⟩ := hsees.stored hcopied
      rw [hsaid, hchat]
      constructor
      · intro hshown _ _ other hother
        cases hother
        exact hshown
      · intro hstores
        exact hstores ⟨account, p, hopened⟩ hcopied chat rfl
  · have hidle := closed_idle fun account p hopened => hopens ⟨account, p, hopened⟩
    rw [hidle.runs]
    exact ⟨fun _ hopened => absurd hopened hopens, fun _ => nofun⟩

theorem keeps_iff (lib : Library) (s : Server) (heap : Heap) (messages : List Nat) :
    KeepsMessages lib s heap messages ↔ Harmless lib s heap messages := by
  have hframe := (frame_iff lib s heap messages).1
  have hsends := sends_iff lib s heap messages
  constructor
  · intro h
    exact ⟨hframe.mp h.frame, hsends.mp h.sends⟩
  · intro h
    exact ⟨hframe.mpr h.edits, hsends.mpr h.stores⟩

end

/-! ## The calls of a stream -/

section
variable {lib : Library} {c : Stream}

theorem append_all_intact (held : Held) (appended : List Fields)
    (h : held.heap = held.original) :
    (appended.foldl Held.append held).heap = (appended.foldl Held.append held).original := by
  induction appended generalizing held with
  | nil => exact h
  | cons message appended ih =>
    rw [List.foldl_cons]
    refine ih _ ?_
    unfold Held.append
    simp only
    rw [h]

/-- As long as each call keeps its messages, the objects are what they were made. -/
theorem calls_keep_iff : ∀ (left call attempt tool_iteration : Nat) (held : Held),
    held.heap = held.original →
    ((∀ x ∈ calls_from lib c left call attempt tool_iteration held, x.Keeps lib) ↔
      ∀ x ∈ calls_from lib c left call attempt tool_iteration held,
        Harmless lib x.server x.held.original x.held.messages) := by
  intro left
  induction left with
  | zero =>
    intro call attempt tool_iteration held _
    rw [calls_from]
    exact iff_of_true (List.forall_mem_nil _) (List.forall_mem_nil _)
  | succ left ih =>
    intro call attempt tool_iteration held hintact
    rw [calls_from]
    by_cases hends : MAX_RETRIES < attempt
    · rw [if_pos hends]
      exact iff_of_true (List.forall_mem_nil _) (List.forall_mem_nil _)
    · rw [if_neg hends]
      simp only
      rw [List.forall_mem_cons, List.forall_mem_cons]
      have hfirst : (Call.mk held (c.server call)).Keeps lib ↔
          Harmless lib (c.server call) held.original held.messages := by
        rw [← hintact, ← keeps_iff]
        exact ⟨fun h => h.messages, fun h => ⟨h, by rw [hintact]⟩⟩
      rw [hfirst]
      refine and_congr_right fun hharmless => ?_
      split
      · refine ih _ _ _ _ (append_all_intact _ _ ?_)
        rw [← hintact, ← keeps_iff] at hharmless
        exact ((frame_iff _ _ _ _).2 hharmless.frame).trans hintact
      · exact iff_of_true (List.forall_mem_nil _) (List.forall_mem_nil _)

end

/-- LAW: a call keeps its messages exactly when it is harmless to them; and each call
of a stream keeps its messages, with the system prompt and the input of a single
call, exactly when each is harmless to the messages as they were made. -/
theorem calls_keep_their_messages_iff (lib : Library) :
    (∀ s heap messages, KeepsMessages lib s heap messages ↔ Harmless lib s heap messages) ∧
    ∀ c heap messages, (∀ x ∈ stream_calls lib c heap messages, x.Keeps lib) ↔
      ∀ x ∈ stream_calls lib c heap messages,
        Harmless lib x.server x.held.original x.held.messages :=
  ⟨keeps_iff lib, fun _ _ _ => calls_keep_iff _ _ _ _ _ rfl⟩

/-- A stream whose server answers without a request. -/
def answering_stream : Stream where
  server _ := answering_server
  tool_specs := []
  extract_codex_tool_requests _ := []
  execute_tool_call _ _ _ := .ok "null"

/-- A system prompt and a greeting. -/
def greeting : List Fields :=
  [message_of "system" (.str "You are Dr. Boz."), message_of "user" (.str "Hi")]

/-- The caller's system prompt is changed, and each retry of a stream is billed for a
longer one: 52, 61, 70 and 79 tokens instead of 52 each time. -/
theorem each_retry_bills_a_longer_prompt :
    ¬KeepsMessages answering_library answering_server greeting [0, 1] ∧
    ¬∀ x ∈ stream_calls answering_library answering_stream greeting [0, 1],
      x.Keeps answering_library := by
  constructor
  · intro hkeeps
    have hsame := hkeeps.frame 0 List.mem_cons_self
    have htext := congrArg
      (fun m => (Fields.get m "content" .null).is_text "You are Dr. Boz.") hsame
    exact absurd htext (by decide)
  · intro hkeeps
    let billed := fun (heap : Call → Heap) (x : Call) =>
      (sent_and_billed answering_library x.server (heap x) x.held.messages).toOption.map Prod.snd
    have hsame : (stream_calls answering_library answering_stream greeting [0, 1]).map
          (billed fun x => x.held.heap) =
        (stream_calls answering_library answering_stream greeting [0, 1]).map
          (billed fun x => x.held.original) := by
      refine List.map_congr_left fun x hx => ?_
      exact congrArg (fun sent => sent.toOption.map Prod.snd) (hkeeps x hx).single
    -- the second call shows it
    have hsent : ((stream_calls answering_library answering_stream greeting [0, 1]).map
        (billed fun x => x.held.heap))[1]? = some (some 61) := by
      decide +kernel
    have hmade : ((stream_calls answering_library answering_stream greeting [0, 1]).map
        (billed fun x => x.held.original))[1]? = some (some 52) := by
      decide +kernel
    rw [hsame, hmade] at hsent
    exact absurd hsent (by decide)

end dr_boz.codex_messages
