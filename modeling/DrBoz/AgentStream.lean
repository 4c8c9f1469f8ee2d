-- The stream of an answer (`event_generator` and
-- `stream_codex_direct_completion` of `agent_routes.py`): what an attempt
-- yields, what it leaves in the thread that the checkpointer keeps, and the
-- loops of retries and tools around the attempts.
import DrBoz.Py

open dr_boz.py

namespace dr_boz.agent_stream

/-! ## The events that are yielded -/

/-- A usage object: its counts by name. The empty one is falsy. -/
abbrev Usage := List (String × Nat)

inductive Event where
  | content (content : String)
  | usage (usage : Usage)
  | tool_start (tool : String)
  | tool_end (tool output : String)
  | error (error : String) (retry_count : Option Nat)
  | done
deriving DecidableEq, Repr

/-- `if usage: yield ..` -/
def yield_usage (usage : Option Usage) : List Event :=
  match usage with
  | some usage => if usage = [] then [] else [.usage usage]
  | none => []

def Event.usage? : Event → Option Usage
  | .usage u => some u
  | _ => none

def Event.content? : Event → Option String
  | .content c => some c
  | _ => none

/-- The usage objects among the events. -/
def usages (events : List Event) : List Usage := events.filterMap Event.usage?

/-- The text of the content events, one after the other. -/
def contents (events : List Event) : String := String.join (events.filterMap Event.content?)

/-- What a usage object counts under a name. -/
def count (name : String) (usage : Usage) : Nat :=
  ((usage.filter fun c => c.1 = name).map Prod.snd).sum

/-- What a list of usage objects counts under a name. -/
def total (name : String) (us : List Usage) : Nat := (us.map (count name)).sum

/-- The usage object counts nothing under any name. -/
def Idle (usage : Usage) : Prop := ∀ name, count name usage = 0

/-! ## The messages and the events of the graph -/

/-- A block of a list of contents: `{"type": "text", ..}`, or a block of another type. -/
inductive Block where
  | text (text : String)
  | other
deriving DecidableEq, Repr

inductive Content where
  | plain (text : String)
  | blocks (blocks : List Block)
deriving DecidableEq, Repr

def Block.text? : Block → Option String
  | .text t => some t
  | .other => none

/-- The text of a content: a list gives the text of its text blocks. -/
def Content.text : Content → String
  | .plain t => t
  | .blocks bs => String.join (bs.filterMap Block.text?)

/-- A message of the thread. `current` marks the copies of the message that this run answers. -/
inductive Msg where
  | human (content : Content) (current : Bool)
  | ai (content : Content) (tool_calls : List String) (usage_metadata : Option Usage)
  | tool (tool_call_id content : String)
deriving DecidableEq, Repr

/-- An event of `astream_events`, with the fields that are read. -/
inductive Raw where
  | on_chat_model_stream (chunk : Option Content)
  | on_chat_model_end (usage : Option Usage)
  | on_tool_start (name : Option String)
  | on_tool_end (name : Option String) (output : String)
  | on_tool_error (name error : Option String)
  | on_chain_error (error : Option String)
  | other
deriving DecidableEq, Repr

/-- The events that are yielded for one event of the graph. -/
def yielded : Raw → List Event
  | .on_chat_model_stream none => []
  | .on_chat_model_stream (some chunk) =>
    if chunk.text = "" then [] else [.content chunk.text]
  | .on_chat_model_end usage => yield_usage usage
  | .on_tool_start name => [.tool_start (name.getD "tool")]
  | .on_tool_end name output => [.tool_end (name.getD "tool") output]
  | .on_tool_error name error =>
    [.tool_end (name.getD "tool") ("Error: " ++ error.getD "Unknown tool error")]
  | .on_chain_error error => [.error (error.getD "Unknown chain error") none]
  | .other => []

/-- What a run of the graph does: it takes its input into the thread, emits events, and adds
the messages of the model and of the tools. -/
inductive Step where
  | input
  | emits (event : Raw)
  | adds (msg : Msg)
deriving DecidableEq, Repr

def Step.events : Step → List Event
  | .emits event => yielded event
  | _ => []

/-- What a step adds to the thread, where `content` is the input's. -/
def Step.msgs (content : Content) : Step → List Msg
  | .input => [.human content true]
  | .adds msg => [msg]
  | .emits _ => []

/-- The usage of a model call that returned: one `on_chat_model_end` for each call. -/
def Step.returned? : Step → Option Usage
  | .emits (.on_chat_model_end usage) => some (usage.getD [])
  | _ => none

/-! ## An attempt of the agent -/

/-- A row of `messages`, its content with the file tags resolved. -/
structure Row where
  id : Int
  role : String
  content : Content
deriving DecidableEq, Repr

/-- The arguments that the loop reads. `stored_as` is the row that keeps the message that the
run answers, if it is stored. -/
structure Request where
  chat_id : Option Int
  message_id : Option Int
  stored_as : Option Int
deriving DecidableEq, Repr

/-- What the graph, the checkpointer and the database do in one attempt. An exception is given
by its text. -/
structure Attempt where
  /-- `get_agent_executor` raises. -/
  unmade : Option String
  /-- `aget_state` returns, before the graph runs. -/
  state_read : Bool
  /-- The rows of the chat in the order of time, if they are read and resolved. -/
  history : Option (List Row)
  /-- `aupdate_state` returns. -/
  updated : Bool
  /-- The message with its file tags resolved. -/
  resolved : Except String Content
  steps : List Step
  /-- The exception that ends the events of the graph. -/
  raised : Option String
  /-- `aget_state` returns, after the graph has run. -/
  final_read : Bool

/-- `if x:` of an optional number. -/
def given (x : Option Int) : Bool := x.getD 0 != 0

/-- `repair_messages`: an error for each call of a last message that asks for tools. -/
def repair_messages (thread : List Msg) : List Msg :=
  match thread.getLast? with
  | some (.ai _ tool_calls _) => tool_calls.map fun id =>
      .tool id "Error: Previous attempt was interrupted. Please retry the tool call if needed."
  | _ => []

def history_message (request : Request) (row : Row) : List Msg :=
  if row.role = "user" then [.human row.content (some row.id = request.stored_as)]
  else if row.role = "assistant" then [.ai row.content [] none]
  else []

/-- The last 20 rows of the chat as messages, without the row `message_id`. -/
def history_msgs (request : Request) (rows : List Row) : List Msg :=
  let stored := rows.drop (rows.length - 20)
  let kept := if given request.message_id
    then stored.filter fun row => some row.id ≠ request.message_id
    else stored
  kept.flatMap (history_message request)

/-- The thread after the repair, or after the history of the chat went into an empty thread. -/
def prepared (request : Request) (a : Attempt) (thread : List Msg) : List Msg :=
  if a.state_read = false ∨ a.updated = false then thread
  else if thread ≠ [] then thread ++ repair_messages thread
  else if given request.chat_id then
    match a.history with
    | some rows => history_msgs request rows
    | none => thread
  else thread

/-- The exception that an attempt ends with. -/
def Attempt.failure (a : Attempt) : Option String :=
  match a.unmade, a.resolved with
  | some e, _ => some e
  | none, .error e => some e
  | none, .ok _ => a.raised

/-- The steps that the graph takes in an attempt. -/
def Attempt.taken (a : Attempt) : List Step :=
  match a.unmade, a.resolved with
  | none, .ok _ => a.steps
  | _, _ => []

/-- The thread that an attempt leaves. -/
def Attempt.thread_after (request : Request) (a : Attempt) (thread : List Msg) : List Msg :=
  match a.unmade, a.resolved with
  | some _, _ => thread
  | none, .error _ => prepared request a thread
  | none, .ok content => prepared request a thread ++ a.steps.flatMap (Step.msgs content)

/-- The events that an attempt yields while the graph runs. -/
def Attempt.streamed (a : Attempt) : List Event := a.taken.flatMap Step.events

/-- The usage of each model call that returned in an attempt. -/
def Attempt.returned (a : Attempt) : List Usage := a.taken.filterMap Step.returned?

def Msg.usage? : Msg → Option Usage
  | .ai _ _ (some usage) => if usage = [] then none else some usage
  | _ => none

/-- The last truthy `usage_metadata` among the messages. -/
def last_usage (thread : List Msg) : Option Usage := thread.reverse.findSome? Msg.usage?

/-- What is yielded from the final state. -/
def Attempt.read_back (a : Attempt) (thread : List Msg) : List Event :=
  if a.final_read then yield_usage (last_usage thread) else []

/-! ## The retries -/

def MAX_RETRIES : Nat := 3

/-- What is yielded for the exception of an attempt: nothing, if there is a retry. -/
def gives_up (attempt : Nat) (e : String) : List Event :=
  if MAX_RETRIES < attempt + 1
  then [.error ("Agent error after 3 retries: " ++ e) (some (attempt + 1))] else []

/-- What a run yields, the thread that it leaves, and the usage of each model call that
returned in it. -/
structure Streamed where
  events : List Event
  thread : List Msg
  returned : List Usage
deriving DecidableEq, Repr

/-- `while attempt <= max_retries`, with `left` passes to go. -/
def run_from (request : Request) (attempts : Nat → Attempt) :
    (left attempt : Nat) → List Msg → Streamed
  | 0, _, thread => ⟨[], thread, []⟩
  | left + 1, attempt, thread =>
    let a := attempts attempt
    let after := a.thread_after request thread
    match a.failure with
    | none => ⟨a.streamed ++ a.read_back after ++ [.done], after, a.returned⟩
    | some e =>
      let rest := run_from request attempts left (attempt + 1) after
      ⟨a.streamed ++ gives_up attempt e ++ rest.events, rest.thread, a.returned ++ rest.returned⟩

/-- `event_generator` of a provider that is no Codex subscription. -/
def event_generator (request : Request) (attempts : Nat → Attempt) (thread : List Msg) :
    Streamed :=
  run_from request attempts (MAX_RETRIES + 1) 0 thread

/-- The first attempt that runs to its end. -/
def completed (attempts : Nat → Attempt) : Option Nat :=
  (List.range (MAX_RETRIES + 1)).find? fun n => (attempts n).failure = none

/-- The thread after the first `n` attempts. -/
def thread_after (request : Request) (attempts : Nat → Attempt) (thread : List Msg) :
    Nat → List Msg
  | 0 => thread
  | n + 1 => (attempts n).thread_after request (thread_after request attempts thread n)

/-! ## What the runs of the loop are -/

/-- A turn that is not the last one fails, and the loop goes on. -/
theorem run_from_fails (request : Request) (attempts : Nat → Attempt) (start : List Msg)
    (left : Nat) {attempt : Nat} (hlast : attempt < MAX_RETRIES)
    (hfail : (attempts attempt).failure ≠ none) :
    run_from request attempts (left + 1) attempt (thread_after request attempts start attempt) =
      let rest := run_from request attempts left (attempt + 1)
        (thread_after request attempts start (attempt + 1))
      ⟨(attempts attempt).streamed ++ rest.events, rest.thread,
        (attempts attempt).returned ++ rest.returned⟩ := by
  obtain ⟨e, he⟩ := Option.ne_none_iff_exists'.mp hfail
  have hquiet : gives_up attempt e = [] := by
    unfold gives_up
    rw [if_neg (by omega)]
  rw [run_from]
  simp only [he, hquiet, List.append_nil]
  rfl

theorem fails_from_next {attempts : Nat → Attempt} {attempt : Nat} {P : Nat → Prop}
    (h : ∀ k, P k → (attempts (attempt + k)).failure ≠ none) :
    ∀ k, P (k + 1) → (attempts (attempt + 1 + k)).failure ≠ none := by
  intro k hk
  have hnext := h (k + 1) hk
  rwa [show attempt + (k + 1) = attempt + 1 + k by omega] at hnext

/-- A run of the loop whose first attempt that succeeds comes after `m` attempts. -/
theorem run_from_completes (request : Request) (attempts : Nat → Attempt) (start : List Msg) :
    ∀ m attempt left : Nat, attempt + m + left = MAX_RETRIES →
      (∀ k < m, (attempts (attempt + k)).failure ≠ none) →
      (attempts (attempt + m)).failure = none →
      run_from request attempts (m + left + 1) attempt
          (thread_after request attempts start attempt) =
        ⟨(List.range' attempt m).flatMap (fun k => (attempts k).streamed)
            ++ ((attempts (attempt + m)).streamed
              ++ (attempts (attempt + m)).read_back
                (thread_after request attempts start (attempt + m + 1)) ++ [.done]),
          thread_after request attempts start (attempt + m + 1),
          (List.range' attempt (m + 1)).flatMap fun k => (attempts k).returned⟩ := by
  intro m
  induction m with
  | zero =>
    intro attempt left _ _ hdone
    have hdone' : (attempts attempt).failure = none := by simpa using hdone
    simp [run_from, hdone', thread_after]
  | succ m ih =>
    intro attempt left hsum hfail hdone
    have hfirst : (attempts attempt).failure ≠ none := by
      have h := hfail 0 (by omega)
      simpa using h
    have hshift : attempt + 1 + m = attempt + (m + 1) := by omega
    have hrest := ih (attempt + 1) left (by omega)
      (fun k hk => fails_from_next hfail k (by omega)) (by rwa [hshift])
    rw [hshift] at hrest
    have hleft : m + 1 + left + 1 = (m + left + 1) + 1 := by omega
    rw [hleft, run_from_fails request attempts start _ (by omega) hfirst, hrest,
      List.range'_succ (s := attempt) (n := m), List.range'_succ (s := attempt) (n := m + 1)]
    simp only [List.flatMap_cons, List.append_assoc]

/-- A run of the loop whose attempts all fail. -/
theorem run_from_gives_up (request : Request) (attempts : Nat → Attempt) (start : List Msg) :
    ∀ left attempt : Nat, attempt + left = MAX_RETRIES →
      (∀ k ≤ left, (attempts (attempt + k)).failure ≠ none) →
      ∃ e, run_from request attempts (left + 1) attempt
          (thread_after request attempts start attempt) =
        ⟨(List.range' attempt (left + 1)).flatMap (fun k => (attempts k).streamed)
            ++ gives_up MAX_RETRIES e,
          thread_after request attempts start (MAX_RETRIES + 1),
          (List.range' attempt (left + 1)).flatMap fun k => (attempts k).returned⟩ := by
  intro left
  induction left with
  | zero =>
    intro attempt hsum hfail
    have hlast : attempt = MAX_RETRIES := by omega
    subst hlast
    obtain ⟨e, he⟩ := Option.ne_none_iff_exists'.mp (hfail 0 (le_refl 0))
    simp only [Nat.add_zero] at he
    refine ⟨e, ?_⟩
    simp [run_from, he, thread_after]
  | succ left ih =>
    intro attempt hsum hfail
    have hfirst := hfail 0 (by omega)
    rw [Nat.add_zero] at hfirst
    obtain ⟨last, hrest⟩ := ih (attempt + 1) (by omega)
      (fun k hk => fails_from_next hfail k (by omega))
    refine ⟨last, ?_⟩
    rw [run_from_fails request attempts start _ (by omega) hfirst, hrest,
      List.range'_succ (s := attempt) (n := left + 1)]
    simp only [List.flatMap_cons, List.append_assoc]

theorem completed_eq_some {attempts : Nat → Attempt} {n : Nat} :
    completed attempts = some n ↔
      n ≤ MAX_RETRIES ∧ (attempts n).failure = none ∧ ∀ k < n, (attempts k).failure ≠ none := by
  unfold completed
  rw [List.find?_range_eq_some]
  simp only [decide_eq_true_eq, List.mem_range, Bool.not_eq_true', decide_eq_false_iff_not]
  constructor
  · rintro ⟨hdone, hlt, hfail⟩
    exact ⟨by omega, hdone, hfail⟩
  · rintro ⟨hle, hdone, hfail⟩
    exact ⟨hdone, by omega, hfail⟩

theorem completed_eq_none {attempts : Nat → Attempt} :
    completed attempts = none ↔ ∀ k ≤ MAX_RETRIES, (attempts k).failure ≠ none := by
  unfold completed
  simp only [List.find?_eq_none, List.mem_range, decide_eq_true_eq]
  constructor
  · intro h k hk
    exact h k (by omega)
  · intro h k hk
    exact h k (by omega)

/-- The run ends with the first attempt that succeeds, after all that the earlier ones did. -/
theorem event_generator_completes (request : Request) {attempts : Nat → Attempt} {n : Nat}
    (start : List Msg) (h : completed attempts = some n) :
    event_generator request attempts start =
      ⟨(List.range n).flatMap (fun k => (attempts k).streamed)
          ++ ((attempts n).streamed
            ++ (attempts n).read_back (thread_after request attempts start (n + 1)) ++ [.done]),
        thread_after request attempts start (n + 1),
        (List.range (n + 1)).flatMap fun k => (attempts k).returned⟩ := by
  obtain ⟨hle, hdone, hfail⟩ := completed_eq_some.mp h
  have hrun := run_from_completes request attempts start n 0 (MAX_RETRIES - n) (by omega)
    (fun k hk => by rw [Nat.zero_add]; exact hfail k hk) (by rw [Nat.zero_add]; exact hdone)
  have hpasses : n + (MAX_RETRIES - n) + 1 = MAX_RETRIES + 1 := by omega
  rw [hpasses, Nat.zero_add] at hrun
  rw [List.range_eq_range', List.range_eq_range']
  exact hrun

/-- The run gives up after what all attempts did. -/
theorem event_generator_gives_up (request : Request) {attempts : Nat → Attempt}
    (start : List Msg) (h : completed attempts = none) :
    ∃ e, event_generator request attempts start =
      ⟨(List.range (MAX_RETRIES + 1)).flatMap (fun k => (attempts k).streamed)
          ++ [.error ("Agent error after 3 retries: " ++ e) (some (MAX_RETRIES + 1))],
        thread_after request attempts start (MAX_RETRIES + 1),
        (List.range (MAX_RETRIES + 1)).flatMap fun k => (attempts k).returned⟩ := by
  obtain ⟨e, hrun⟩ := run_from_gives_up request attempts start MAX_RETRIES 0 (by omega)
    (fun k hk => by rw [Nat.zero_add]; exact completed_eq_none.mp h k hk)
  refine ⟨e, ?_⟩
  rw [List.range_eq_range']
  exact hrun

/-! ## The loop of a Codex subscription -/

structure Said where
  role : String
  content : String
deriving DecidableEq, Repr

/-- What `request_chat_completion` returns. -/
structure Answer where
  content : Content
  usage : Option Usage
deriving DecidableEq, Repr

structure ToolRequest where
  name : Option String
  arguments : Dict

/-- What `execute_tool_call` does: its result is given by its JSON text, if it has one. -/
inductive ToolRun where
  | raised (error : String)
  | returned (json : Except String String)

/-- The provider, the parser of tool requests, the names of the tools of the chat, and the
tools themselves; `provider` and `execute` also get the number of the call. -/
structure Codex where
  provider : Nat → List Said → Except String Answer
  extract_codex_tool_requests : String → List ToolRequest
  tool_specs : List String
  execute : Nat → ToolRequest → ToolRun

def MAX_TOOL_ITERATIONS : Nat := 10

/-- The characters of a JSON text for a character of a string. -/
def json_char (c : Char) : List Char :=
  if c = '"' then ['\\', '"']
  else if c = '\\' then ['\\', '\\']
  else if c = '\n' then ['\\', 'n']
  else if c = '\r' then ['\\', 'r']
  else if c = '\t' then ['\\', 't']
  else if c.toNat = 8 then ['\\', 'b']
  else if c.toNat = 12 then ['\\', 'f']
  else if c.toNat < 32 then
    ['\\', 'u', '0', '0', Nat.digitChar (c.toNat / 16), Nat.digitChar (c.toNat % 16)]
  else [c]

/-- `json.dumps(tool_result, ensure_ascii=False)`, where a tool that raised gives
`{"ok": False, "error": str(tool_exc)[:500]}`. -/
def ToolRun.text : ToolRun → Except String String
  | .raised error => .ok (String.ofList
      ("\x7b\"ok\": false, \"error\": \"".toList ++ (error.toList.take 500).flatMap json_char
        ++ "\"\x7d".toList))
  | .returned json => json

/-- `tool_requests[0]`, where there are requests, tools and iterations left. -/
def asked (c : Codex) (tool_iteration : Nat) (answer : Answer) : Option ToolRequest :=
  if answer.content.text = "" then none
  else if c.tool_specs ≠ [] ∧ tool_iteration < MAX_TOOL_ITERATIONS then
    (c.extract_codex_tool_requests answer.content.text).head?
  else none

/-- The answer asks first for a tool that the chat does not have. -/
def asks_in_vain (c : Codex) (tool_iteration : Nat) (answer : Answer) : Bool :=
  match asked c tool_iteration answer with
  | some request => match request.name with
    | some name => name ∉ c.tool_specs
    | none => true
  | none => false

/-- What the loop yields, and the calls that returned, each with the iterations before it. -/
structure CodexStreamed where
  events : List Event
  calls : List (Nat × Answer)
deriving DecidableEq, Repr

def tool_result_message (tool text : String) : Said :=
  ⟨"user", "TOOL_RESULT (" ++ tool ++ "):\n" ++ text
    ++ "\n\nNow produce your final answer based on this result."⟩

/-- The messages with the answer after them, if it has a text. -/
def answered (messages : List Said) (answer : Answer) : List Said :=
  if answer.content.text = "" then messages
  else messages ++ [⟨"assistant", answer.content.text⟩]

/-- `while attempt <= max_retries`, with `left` passes to go; `call` numbers the passes. -/
def codex_from (c : Codex) :
    (left call attempt tool_iteration : Nat) → List Said → CodexStreamed
  | 0, _, _, _, _ => ⟨[], []⟩
  | left + 1, call, attempt, tool_iteration, messages =>
    if MAX_RETRIES < attempt then ⟨[], []⟩ else
    match c.provider call messages with
    | .error e =>
      let rest := codex_from c left (call + 1) (attempt + 1) tool_iteration messages
      ⟨gives_up attempt e ++ rest.events, rest.calls⟩
    | .ok answer =>
      let said := answered messages answer
      match asked c tool_iteration answer with
      | none => ⟨[.done], [(tool_iteration, answer)]⟩
      | some request =>
        match request.name.filter (· ∈ c.tool_specs) with
        | none =>
          ⟨[.content answer.content.text] ++ yield_usage answer.usage ++ [.done],
            [(tool_iteration, answer)]⟩
        | some tool =>
          match (c.execute call request).text with
          | .error e =>
            let rest := codex_from c left (call + 1) (attempt + 1) (tool_iteration + 1) said
            ⟨[.tool_start tool] ++ gives_up attempt e ++ rest.events,
              (tool_iteration, answer) :: rest.calls⟩
          | .ok text =>
            let rest := codex_from c left (call + 1) attempt (tool_iteration + 1)
              (said ++ [tool_result_message tool text])
            ⟨[.tool_start tool, .tool_end tool text] ++ rest.events,
              (tool_iteration, answer) :: rest.calls⟩

/-- `stream_codex_direct_completion` from its first message on: no run makes more passes. -/
def stream_codex_direct_completion (c : Codex) (messages : List Said) : CodexStreamed :=
  codex_from c (MAX_RETRIES + 1 + MAX_TOOL_ITERATIONS) 0 0 0 messages

theorem asked_iterations {c : Codex} {tool_iteration : Nat} {answer : Answer}
    {request : ToolRequest} (h : asked c tool_iteration answer = some request) :
    tool_iteration < MAX_TOOL_ITERATIONS := by
  unfold asked at h
  split at h
  · cases h
  · split at h
    · rename_i _ hroom
      exact hroom.2
    · cases h

/-- Each pass uses up a retry or a tool iteration, so more passes than there are of both change
nothing: the loop ends by itself. -/
theorem codex_passes_are_enough (c : Codex) :
    ∀ (left call attempt tool_iteration : Nat) (messages : List Said),
      (MAX_RETRIES + 1 - attempt) + (MAX_TOOL_ITERATIONS - tool_iteration) ≤ left →
      codex_from c (left + 1) call attempt tool_iteration messages =
        codex_from c left call attempt tool_iteration messages := by
  intro left
  induction left with
  | zero =>
    intro call attempt tool_iteration messages hleft
    have hover : MAX_RETRIES < attempt := by omega
    simp only [codex_from, if_pos hover]
  | succ left ih =>
    intro call attempt tool_iteration messages hleft
    rw [codex_from.eq_2, codex_from.eq_2 c call attempt tool_iteration messages left]
    by_cases hover : MAX_RETRIES < attempt
    · rw [if_pos hover, if_pos hover]
    · rw [if_neg hover, if_neg hover]
      rcases c.provider call messages with e | answer
      · simp only
        rw [ih (call + 1) (attempt + 1) tool_iteration messages (by omega)]
      · simp only
        rcases hasked : asked c tool_iteration answer with _ | request
        · rfl
        · have hroom := asked_iterations hasked
          simp only
          rcases request.name.filter (· ∈ c.tool_specs) with _ | tool
          · rfl
          · simp only
            rcases (c.execute call request).text with e | text
            · simp only
              rw [ih (call + 1) (attempt + 1) (tool_iteration + 1) _ (by omega)]
            · simp only
              rw [ih (call + 1) attempt (tool_iteration + 1) _ (by omega)]

end dr_boz.agent_stream
