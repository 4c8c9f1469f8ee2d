-- The completions of the Codex subscription (`request_codex_completion` of
-- `llm.py`): the messages that are copied or built again from the chat, the
-- prompt and the images of the first run, the loop of the tools, and the
-- accounting after it. The messages are objects that the caller holds too.
import DrBoz.CodexPrompts

open dr_boz.py dr_boz.cli_lines dr_boz.codex_proxy dr_boz.codex_prompts

namespace dr_boz.codex_completions

/-! ## The messages -/

/-- The message objects that exist, by their numbers. -/
abbrev Heap := List Fields

def message_at (heap : Heap) (object : Nat) : Fields := heap.getD object []

/-- An entry of `llm_messages`: an object of the caller, or one that is made here. -/
inductive Entry where
  | given (object : Nat)
  | made (message : Fields)

def Entry.message (heap : Heap) : Entry → Fields
  | .given object => message_at heap object
  | .made message => message

/-- `message.get("role") == role` -/
def has_role (role : String) (message : Fields) : Bool := (message.get "role" .null).is_text role

/-- `message.get("role") in {"user", "assistant"}`: a list or a dictionary has no hash. -/
def is_turn (message : Fields) : Except Raised Bool :=
  match message.get "role" .null with
  | .list _ => .error (.exception "unhashable type: 'list'")
  | .dict _ => .error (.exception "unhashable type: 'dict'")
  | _ => .ok (has_role "user" message || has_role "assistant" message)

/-- `_count_non_system_messages` -/
def count_non_system_messages (messages : List Fields) : Except Raised Nat := do
  let turns ← messages.mapM is_turn
  return turns.count true

/-- A row of `messages`. -/
structure Row where
  role : Option String
  content : Option String
deriving DecidableEq, Repr

/-- The chat of a call, with its rows from the newest on. -/
structure Chat where
  codex_thread_id : Option String
  messages : List Row
deriving DecidableEq, Repr

/-- `list(reversed(result.scalars().all()))`: the newest 40 rows, the oldest first. -/
def stored_messages (chat : Chat) : List Row := (chat.messages.take 40).reverse

/-- `{"role": role, "content": content}` -/
def message_of (role : String) (content : JsonValue) : Fields :=
  [("role", .str role), ("content", content)]

/-- The message for a row, if it is of the user or the assistant and has a text. -/
def Row.turn (row : Row) : Option Fields :=
  match row.role, row.content with
  | some role, some content =>
    if (role = "user" ∨ role = "assistant") ∧ content ≠ "" then
      some (message_of role (.str content))
    else none
  | _, _ => none

/-- `rebuilt`: the first system message, and the rows. -/
def rebuilt (chat : Chat) (incoming : List Fields) : List Fields :=
  ((incoming.find? (has_role "system")).map fun message =>
      message_of "system" ((message.get "content" .null).or (.str ""))).toList ++
    (stored_messages chat).filterMap Row.turn

/-- `_build_codex_messages_with_chat_history` -/
def build_codex_messages_with_chat_history (heap : Heap) (chat : Option Chat)
    (incoming : List Nat) : Except Raised (List Entry) :=
  match chat with
  | none => .ok (incoming.map .given)
  | some chat => do
    let messages := incoming.map (message_at heap)
    if (stored_messages chat).length ≤ (← count_non_system_messages messages) then
      return incoming.map .given
    let made := rebuilt chat messages
    return if made.isEmpty then incoming.map .given else made.map .made

/-! ## What a call finds -/

/-- What `run_codex_exec` returns. -/
structure Result where
  content : String
  usage : Recorded
  thread_id : Option String
  stdout : String
  stderr : String

structure ToolRequest where
  name : Option String
  arguments : JsonValue

/-- What `execute_tool_call` returns: its record, and the JSON text of its result. -/
structure Executed where
  tool_call : JsonValue
  tool_result : Except Raised String

structure Login where
  is_authenticated : Bool
  auth_status : String
  stdout : String
  stderr : String

/-- A row of `codex_accounts`. -/
structure Account extends CodexAccount where
  status : String
  auth_status : String
  last_error : Option String
deriving DecidableEq, Repr

/-- What the selection gives: an error, the answer of the fallback model, or an account. -/
inductive Selection where
  | refused (message code : String)
  | fallback (content : Except Raised JsonValue)
  | account (account : Option Account)

structure WorkspaceFile where
  path : String
  filename : String
  size : Nat
  ext : String
deriving DecidableEq, Repr

/-- What a call finds beside its messages. The runs and the tools answer by the
number of the iteration, and the workspace by that of its listing. Whether the
usage can be merged depends on the metadata of the account only. -/
structure Server where
  stream : Bool
  chat_id : Option Int
  chat : Option Chat
  selection : Selection
  system_content : String
  codex_tool_protocol : String
  tool_specs : List String
  check_codex_login_status : Except Raised Login
  run_codex_exec : Nat → Except Raised Result
  extract_codex_tool_requests : String → List ToolRequest
  execute_tool_call : Nat → String → JsonValue → Except Raised Executed
  merge_codex_usage_metadata : Except Raised Unit
  commit : Except Raised Unit
  lower : String → String
  sanitize_reply : String → Bool → String
  workspace : Nat → List WorkspaceFile

/-- An `LLMProviderError` as its constructor makes it. -/
def llm_error (message code : String) (provider_message : Option String) : Raised :=
  .llm_provider_error message code ((provider_message.map strip).filter (· ≠ ""))

/-! ## The request -/

variable (lib : Library) (s : Server)

/-- The loop over `llm_messages` that adds the protocol to the first system
message. The entry is changed where it is, also when the caller holds it. -/
def add_protocol (heap : Heap) : List Entry → Except Raised (Heap × List Entry)
  | [] => .ok (heap, [])
  | entry :: entries =>
    let message := entry.message heap
    if has_role "system" message then
      match message.find? fun field => field.1 = "content" with
      | none => .error (.exception "'content'")
      | some (_, content) =>
        let content := str_of lib content ++ "\n\n" ++ s.codex_tool_protocol
        let message := set_field message "content" (.str content)
        match entry with
        | .given object => .ok (heap.set object message, .given object :: entries)
        | .made _ => .ok (heap, .made message :: entries)
    else do
      let (heap, entries) ← add_protocol heap entries
      return (heap, entry :: entries)

/-- `llm_messages` with the system prompt, and the objects after it. -/
def llm_messages (heap : Heap) (messages : List Nat) : Except Raised (Heap × List Fields) := do
  let entries ← build_codex_messages_with_chat_history heap s.chat messages
  if entries.any fun entry => has_role "system" (entry.message heap) then
    let (heap, entries) ← add_protocol lib s heap entries
    return (heap, entries.map (Entry.message heap))
  return (heap, message_of "system" (.str s.system_content) :: entries.map (Entry.message heap))

/-- What is ready for the first run. -/
structure Prepared where
  effective_input_tokens : Int
  thread_id : Option String
  prompt : Prompt
  image_files : List ImageFile

/-- `len(str(m.get("content") or "")) // 4 + 20`, for each message. -/
def effective_input_tokens (messages : List Fields) : Nat :=
  (messages.map fun m =>
    (str_of lib ((m.get "content" .null).or (.str ""))).length / 4 + 20).sum

/-- The messages with their numbers. -/
def placed (messages : List Fields) : List Placed := messages.zipIdx.map fun (m, i) => (i, m)

/-- The messages for the prompt: only the last one of the user when a thread is resumed. -/
def messages_for_prompt (thread_id : Option String) (messages : List Placed) : List Placed :=
  if truthyKey thread_id then
    match (messages.filter fun m => has_role "user" m.2).getLast? with
    | some m => [m]
    | none => messages.getLast?.toList
  else messages.filter fun m => !has_role "system" m.2

def prepare (messages : List Fields) : Except Raised Prepared := do
  let thread_id := s.chat.bind Chat.codex_thread_id
  let prompt := messages_to_codex_prompt lib (messages_for_prompt thread_id (placed messages))
  if prompt.text = "" then
    throw (llm_error "Codex request has no text prompt" "codex_empty_prompt" none)
  let image_files ← extract_images_from_messages lib (placed messages)
  return ⟨effective_input_tokens lib messages, thread_id, prompt, image_files⟩

/-! ## The loop of the tools -/

/-- A call of `run_codex_exec`, with what it gave. -/
structure Run where
  prompt : Prompt
  thread_id : Option String
  image_files : List ImageFile
  result : Except Raised Result

/-- The variables of the loop, with the runs so far. -/
structure Loop where
  current_prompt : Prompt
  thread_id : Option String
  reply : String := ""
  saw_tool_request : Bool := false
  total_usage : Recorded := ⟨0, 0, 0⟩
  executed_tool_calls : List JsonValue := []
  stdout : String := ""
  stderr : String := ""
  runs : List Run := []

/-- How an iteration ends. -/
inductive Next where
  | continues
  | breaks
  | raises (error : Raised)

/-- `total_usage[..] += it_usage.get(.., 0)` -/
def add_usage (total usage : Recorded) : Recorded :=
  ⟨total.input_tokens + usage.input_tokens, total.output_tokens + usage.output_tokens,
    total.total_tokens + usage.total_tokens⟩

/-- What follows a run that returned. -/
def answer_tool_request (iteration : Nat) (content : String) (l : Loop) : Loop × Next :=
  match s.extract_codex_tool_requests content with
  | [] => (l, .breaks)
  | tool_request :: _ =>
    let l := { l with saw_tool_request := true }
    match tool_request.name.filter fun tool_name => tool_name ∈ s.tool_specs with
    | none => (l, .breaks)
    | some tool_name =>
      let arguments := tool_request.arguments.or (.dict [])
      match s.execute_tool_call iteration tool_name arguments with
      | .error e => (l, .raises e)
      | .ok executed =>
        let l := { l with executed_tool_calls := l.executed_tool_calls ++ [executed.tool_call] }
        match executed.tool_result with
        | .error e => (l, .raises e)
        | .ok text =>
          let current_prompt := { text := "TOOL_RESULT (" ++ tool_name ++ "):\n" ++ text }
          ({ l with current_prompt }, .continues)

/-- An iteration. The images go with the first run only. -/
def iterate (image_files : List ImageFile) (iteration : Nat) (l : Loop) : Loop × Next :=
  let images := if iteration = 0 then image_files else []
  let result := s.run_codex_exec iteration
  let l := { l with runs := l.runs ++ [⟨l.current_prompt, l.thread_id, images, result⟩] }
  match result with
  | .error e => (l, .raises e)
  | .ok result =>
    answer_tool_request s iteration result.content { l with
      thread_id := strOr result.thread_id l.thread_id
      reply := result.content
      total_usage := add_usage l.total_usage result.usage
      stdout := result.stdout
      stderr := result.stderr }

/-- `for iteration in range(10)`, with `left` iterations to go, and what was raised in it. -/
def tool_loop (image_files : List ImageFile) : (left iteration : Nat) → Loop → Loop × Option Raised
  | 0, _, l => (l, none)
  | left + 1, iteration, l =>
    match iterate s image_files iteration l with
    | (l, .continues) => tool_loop image_files left (iteration + 1) l
    | (l, .breaks) => (l, none)
    | (l, .raises e) => (l, some e)

/-! ## After the loop -/

/-- The response to the caller. -/
structure Response where
  content : String
  finish_reason : String
  usage : Recorded
  tool_calls : List JsonValue
  generated_files : List WorkspaceFile
  thread_id : Option String
  stdout : String
  stderr : String

inductive Outcome where
  | fallback (content : JsonValue)
  | reply (response : Response)

/-- The names that `llm.py` imports from `codex_runtime`. -/
def CODEX_RUNTIME_IMPORTS : List String :=
  ["_extract_images_from_messages", "check_codex_login_status", "is_codex_subscription_provider",
    "merge_codex_usage_metadata", "messages_to_codex_prompt", "run_codex_exec",
    "select_codex_account"]

/-- A name of `codex_runtime` is looked up when it is used. -/
def look_up (name : String) : Except Raised Unit :=
  if name ∈ CODEX_RUNTIME_IMPORTS then .ok ()
  else .error (.exception ("name '" ++ name ++ "' is not defined"))

def IMAGE_EXTS : List String := [".png", ".jpg", ".jpeg", ".gif", ".webp", ".svg"]

def DOC_EXTS : List String := [".pdf", ".docx", ".xlsx", ".csv", ".txt", ".md", ".py", ".html"]

/-- The files of the second listing of the workspace that the first one has not. -/
def generated_files : List WorkspaceFile :=
  (s.workspace 1).filter fun file =>
    !(s.workspace 0).any (fun original => original.path = file.path) &&
      (file.ext ∈ IMAGE_EXTS || file.ext ∈ DOC_EXTS)

/-- What follows the `async with`: the scan of the workspace, and the response. -/
def respond (total_usage : Recorded) (l : Loop) : Except Raised Outcome := do
  look_up "build_codex_workspace"
  return .reply
    { content := s.sanitize_reply l.reply l.saw_tool_request
      finish_reason := "stop"
      usage := total_usage
      tool_calls := l.executed_tool_calls
      generated_files := generated_files s
      thread_id := l.thread_id
      stdout := l.stdout
      stderr := l.stderr }

/-- What a call leaves: the objects, its runs, what was committed, and its outcome. -/
structure Report where
  heap : Heap
  runs : List Run := []
  account : Option Account := none
  codex_thread_id : Option String := none
  outcome : Except Raised Outcome

/-- The tokens that are recorded: the input is at least that of the whole history. -/
def billed_usage (effective_input_tokens : Int) (total_usage : Recorded) : Recorded :=
  if total_usage.input_tokens < effective_input_tokens then
    ⟨effective_input_tokens, total_usage.output_tokens,
      effective_input_tokens + total_usage.output_tokens⟩
  else total_usage

/-- `chat_id and thread_id and (not chat or not chat.codex_thread_id)` -/
def new_thread_id (thread_id : Option String) : Option String :=
  if (s.chat_id.getD 0 ≠ 0) ∧ truthyKey thread_id = true ∧
      truthyKey (s.chat.bind Chat.codex_thread_id) = false then thread_id
  else none

/-- `except Exception as exc`, where the account is committed without its usage. -/
def handle (heap : Heap) (account : Account) (runs : List Run) : Raised → Report
  | .llm_provider_error message code provider_message =>
    { heap, runs, account, outcome := .error (.llm_provider_error message code provider_message) }
  | .exception text =>
    match s.commit with
    | .error e => { heap, runs, account, outcome := .error e }
    | .ok () =>
      { heap, runs
        account := some { account with
          last_error := some (first1000 text)
          status := if texts.contains "usage limit" (s.lower text) then "limited"
            else account.status }
        outcome := .error (llm_error "Codex CLI request failed" "codex_cli_error" (some text)) }

/-- `if account:` after the loop, and the rest. -/
def finish (heap : Heap) (account : Account) (p : Prepared) (l : Loop) : Report :=
  let usage := billed_usage p.effective_input_tokens l.total_usage
  let saved : Except Raised Unit := do
    s.merge_codex_usage_metadata
    s.commit
  match saved with
  | .error e => { heap, runs := l.runs, account, outcome := .error e }
  | .ok () =>
    { heap, runs := l.runs
      account := some { account with
        toCodexAccount := record_codex_account_usage account.toCodexAccount usage
        auth_status := "authenticated"
        last_error := none }
      codex_thread_id := new_thread_id s l.thread_id
      outcome := respond s usage l }

/-- An account that is not logged in. The error of a failed commit is handled as any other. -/
def refuse_login (heap : Heap) (account : Account) (status : Login) : Report :=
  let last_error := first1000 ((strOr (some status.stderr) (strOr (some status.stdout)
    (some "Codex account is not authenticated"))).getD "")
  match s.commit with
  | .error e => handle s heap account [] e
  | .ok () =>
    { heap
      account := some { account with
        auth_status := status.auth_status
        last_error := some last_error }
      outcome := .error (llm_error "Selected Codex account is not authenticated"
        "codex_account_not_authenticated" (some last_error)) }

/-- The call from the login on. -/
def run_tools (heap : Heap) (account : Account) (p : Prepared) : Report :=
  match s.check_codex_login_status with
  | .error e => handle s heap account [] e
  | .ok status =>
    if status.is_authenticated then
      let start : Loop := { current_prompt := p.prompt, thread_id := p.thread_id }
      match tool_loop s p.image_files 10 0 start with
      | (l, some e) => handle s heap account l.runs e
      | (l, none) => finish s heap account p l
    else refuse_login s heap account status

/-- `request_codex_completion` -/
def request_codex_completion (heap : Heap) (messages : List Nat) : Report :=
  if s.stream then
    { heap, outcome := .error (llm_error
      "Codex subscription provider does not support streaming yet"
      "codex_streaming_unsupported" none) }
  else
    match s.selection with
    | .refused message code => { heap, outcome := .error (llm_error message code none) }
    | .fallback content => { heap, outcome := content.map .fallback }
    | .account none =>
      { heap, outcome := .error (llm_error
        "No authenticated Codex account with available capacity is available"
        "codex_capacity_unavailable" none) }
    | .account (some account) =>
      match llm_messages lib s heap messages with
      | .error e => { heap, account, outcome := .error e }
      | .ok (heap, llm_messages) =>
        match prepare lib s llm_messages with
        | .error e => { heap, account, outcome := .error e }
        | .ok p => run_tools s heap account p

end dr_boz.codex_completions
