-- The Codex proxy (`codex_proxy.py`): the events of the CLI, the generator
-- that turns them into chunks, and its two consumers, the endpoint without
-- streaming and the wrapper that logs a stream. Both consumers stop at the end
-- marker, before the generator records the usage of the account.
import DrBoz.Lib.Generators
import DrBoz.Py

open generators dr_boz.py

namespace dr_boz.codex_proxy

/-! ## The events of the CLI -/

/-- A field of an event: missing or falsy, a text, or another truthy value. -/
inductive Value where
  | falsy
  | str (text : String)
  | other
deriving DecidableEq, Repr

def Value.truthy : Value → Bool
  | .falsy => false
  | .str text => text ≠ ""
  | .other => true

/-- `a or b` -/
def Value.or (a b : Value) : Value := if a.truthy then a else b

/-- The object under `message` or `msg`. -/
inductive Part where
  | falsy
  | dict (content text : Value)
  | other
deriving DecidableEq, Repr

def Part.content : Part → Value
  | .dict content text => content.or text
  | _ => .falsy

structure Item where
  type : String
  content : Value
  text : Value
deriving DecidableEq, Repr

/-- An event of the CLI with the fields that are read. `usage` are the tokens as `_coerce` reads
them, where the event has a usage object. -/
structure CliEvent where
  type : String
  message : Part := .falsy
  msg : Part := .falsy
  content : Value := .falsy
  text : Value := .falsy
  item : Option Item := none
  usage : Option (Int × Int) := none
deriving DecidableEq, Repr

def MESSAGE_TYPES : List String := ["agent_message", "message"]

def CliEvent.found_content (event : CliEvent) : Value :=
  let message := if event.message = .falsy then event.msg else event.message
  let content := message.content
  let content := if content.truthy = false ∧ event.type ∈ MESSAGE_TYPES
    then event.content.or event.text else content
  if content.truthy = false ∧ event.type = "item.completed" then
    match event.item with
    | some item => if item.type ∈ MESSAGE_TYPES then item.content.or item.text else content
    | none => content
  else content

/-- The text of an event that goes to the client. -/
def CliEvent.said (event : CliEvent) : Option String :=
  match event.found_content with
  | .str text => if strip text = "" then none else some text
  | _ => none

/-- `total_usage` after the events: the tokens of the last turn that reports them. -/
def total_usage (events : List CliEvent) : Int × Int :=
  events.foldl (fun usage event =>
    if event.type = "turn.completed" then event.usage.getD usage else usage) (0, 0)

/-! ## The generator -/

abbrev Usage := List (String × Int)

/-- `usage.get(key, 0)` -/
def Usage.get (usage : Usage) (key : String) : Int :=
  ((usage.find? fun c => c.1 = key).map Prod.snd).getD 0

structure Chunk where
  error : Option String := none
  content : Option String := none
  finish_reason : Option String := none
  usage : Option Usage := none
deriving DecidableEq, Repr

/-- A line `data: ..` of the stream. -/
inductive Line where
  | data (chunk : Chunk)
  | done
deriving DecidableEq, Repr

/-- How the CLI ends. `returncode` is what the process has at the end of its output. -/
inductive Ending where
  | exited (returncode : Option Int) (stderr : String)
  | timed_out
  | raised (error : String)
deriving DecidableEq, Repr

/-- `record_codex_account_usage` with these tokens. -/
structure Recorded where
  input_tokens : Int
  output_tokens : Int
  total_tokens : Int
deriving DecidableEq, Repr

def first1000 (text : String) : String := String.ofList (text.toList.take 1000)

/-- The message for an exit status that is not 0. -/
def exit_message (returncode : Option Int) (stderr full_content : String) : String :=
  let status := (returncode.map toString).getD "None"
  first1000 (strip (if stderr ≠ "" then stderr else if full_content ≠ "" then full_content
    else "Codex CLI exited with status " ++ status))

def final_chunk (usage : Int × Int) : Chunk where
  content := some ""
  finish_reason := some "stop"
  usage := some [("prompt_tokens", usage.1), ("completion_tokens", usage.2),
    ("total_tokens", usage.1 + usage.2)]

/-- The chunks of the texts of the events. -/
def content_lines (events : List CliEvent) : List Line :=
  (events.filterMap CliEvent.said).map fun text => .data { content := some text }

/-- `_stream_codex_exec` -/
def stream_codex_exec (events : List CliEvent) (ending : Ending) : List (Step Line Recorded) :=
  let failed := fun error : String => [Step.yields (.data { error := some error })]
  (content_lines events).map .yields ++
    match ending with
    | .timed_out => failed "Codex CLI timed out"
    | .raised error => failed (first1000 error)
    | .exited returncode stderr =>
      if returncode ≠ some 0 then
        failed (exit_message returncode stderr (String.join (events.filterMap CliEvent.said)))
      else
        let (input, output) := total_usage events
        [.yields (.data (final_chunk (input, output))), .yields .done] ++
          if 0 < input + output then [.acts ⟨input, output, input + output⟩] else []

/-! ## The consumers -/

/-- What a consumer has read. -/
structure Read where
  full_content : String := ""
  total_usage : Usage := [("input_tokens", 0), ("output_tokens", 0), ("total_tokens", 0)]
  error_detail : Option String := none
deriving DecidableEq, Repr

/-- The consumers leave their loop at the end marker and at an error. -/
def stops : Line → Bool
  | .done => true
  | .data chunk => chunk.error.isSome

/-- One line in the loop of a consumer. -/
def read_line (r : Read) : Line → Read
  | .done => r
  | .data chunk =>
    match chunk.error with
    | some error => { r with error_detail := some error }
    | none =>
      let r := { r with full_content := r.full_content ++ chunk.content.getD "" }
      if chunk.finish_reason = some "stop" then
        match chunk.usage with
        | some usage => if usage = [] then r else { r with total_usage := usage }
        | none => r
      else r

def read_lines (lines : List Line) : Read := lines.foldl read_line {}

/-- The counters of a usage that is returned or logged. -/
structure Counts where
  prompt_tokens : Int
  completion_tokens : Int
  total_tokens : Int
deriving DecidableEq, Repr

/-- Both consumers read the usage under these keys. -/
def counts (usage : Usage) : Counts :=
  ⟨usage.get "input_tokens", usage.get "output_tokens", usage.get "total_tokens"⟩

/-- A row of `codex_proxy_request_logs`. -/
structure RequestLog where
  status : String
  tokens : Counts
  error_message : Option String
deriving DecidableEq, Repr

/-- A row of `codex_accounts`, with its counters. -/
structure CodexAccount where
  five_hour_used : Option Int
  weekly_used : Option Int
deriving DecidableEq, Repr

def record_codex_account_usage (account : CodexAccount) (usage : Recorded) : CodexAccount :=
  let total := if usage.total_tokens ≤ 0 then usage.input_tokens + usage.output_tokens
    else usage.total_tokens
  let total := if total ≤ 0 then 1 else total
  ⟨some (max 0 (intOr0 account.five_hour_used) + total),
    some (max 0 (intOr0 account.weekly_used) + total)⟩

/-- What a request leaves: the usage that the client gets, the log row and the account. -/
structure Report where
  returned : Option Counts
  log : RequestLog
  account : CodexAccount
deriving DecidableEq, Repr

def recorded (account : CodexAccount) (steps : List (Step Line Recorded)) : CodexAccount :=
  (effects steps).foldl record_codex_account_usage account

/-- `chat_completions` without streaming. An error becomes a 502 with no usage. -/
def chat_completions (events : List CliEvent) (ending : Ending) (account : CodexAccount) : Report :=
  let steps := upto stops (stream_codex_exec events ending)
  let r := read_lines (values steps)
  if truthyKey r.error_detail then
    ⟨none, ⟨"error", ⟨0, 0, 0⟩, r.error_detail⟩, recorded account steps⟩
  else
    ⟨some (counts r.total_usage), ⟨"success", counts r.total_usage, none⟩, recorded account steps⟩

/-- The usage that a client finds in the lines: that of the last chunk that has one. -/
def client_usage (lines : List Line) : Option Counts :=
  lines.reverse.findSome? fun
    | .data chunk => chunk.usage.map fun usage =>
      ⟨usage.get "prompt_tokens", usage.get "completion_tokens", usage.get "total_tokens"⟩
    | .done => none

/-- `_stream_codex_exec_with_logging`: each line goes to the client before it is looked at. -/
def stream_codex_exec_with_logging (events : List CliEvent) (ending : Ending)
    (account : CodexAccount) : Report :=
  let steps := upto stops (stream_codex_exec events ending)
  let r := read_lines (values steps)
  let status := if truthyKey r.error_detail then "error" else "success"
  ⟨client_usage (values steps), ⟨status, counts r.total_usage, r.error_detail⟩,
    recorded account steps⟩

/-! ## What is read of a run that succeeds -/

/-- The lines of a run with exit status 0, without the end marker. -/
def lines_before_done (events : List CliEvent) : List Line :=
  content_lines events ++ [.data (final_chunk (total_usage events))]

theorem lines_go_on (events : List CliEvent) :
    ∀ line ∈ lines_before_done events, stops line = false := by
  intro line hline
  simp only [lines_before_done, content_lines, List.mem_append, List.mem_map,
    List.mem_singleton] at hline
  rcases hline with ⟨text, _, rfl⟩ | rfl
  · rfl
  · rfl

/-- The steps of a run with exit status 0 that happen: the usage is not recorded. -/
theorem upto_success (events : List CliEvent) (stderr : String) :
    upto stops (stream_codex_exec events (.exited (some 0) stderr)) =
      (lines_before_done events ++ [Line.done]).map Step.yields := by
  have hsteps : stream_codex_exec events (.exited (some 0) stderr) =
      (lines_before_done events).map .yields ++ .yields .done ::
        (if 0 < (total_usage events).1 + (total_usage events).2
          then [Step.acts ⟨(total_usage events).1, (total_usage events).2,
            (total_usage events).1 + (total_usage events).2⟩]
          else []) := by
    simp [stream_codex_exec, lines_before_done]
  rw [hsteps, upto_marker _ ?_ rfl]
  · simp
  · rw [values_yields]
    exact lines_go_on events

/-- The chunks with a text leave the usage and the error of a consumer alone. -/
theorem read_contents (texts : List String) (r : Read) :
    ((texts.map fun text => Line.data { content := some text }).foldl read_line r).total_usage =
        r.total_usage ∧
      ((texts.map fun text => Line.data { content := some text }).foldl read_line r).error_detail =
        r.error_detail := by
  induction texts generalizing r with
  | nil => exact ⟨rfl, rfl⟩
  | cons text texts ih =>
    obtain ⟨husage, herror⟩ := ih (read_line r (.data { content := some text }))
    exact ⟨husage, herror⟩

/-- A consumer of these lines ends with the usage of the final chunk. -/
theorem read_success (events : List CliEvent) :
    (read_lines (lines_before_done events ++ [.done])).total_usage =
        [("prompt_tokens", (total_usage events).1), ("completion_tokens", (total_usage events).2),
          ("total_tokens", (total_usage events).1 + (total_usage events).2)] ∧
      (read_lines (lines_before_done events ++ [.done])).error_detail = none := by
  have hread := read_contents (events.filterMap CliEvent.said) {}
  unfold read_lines lines_before_done content_lines
  rw [List.foldl_append, List.foldl_append]
  generalize List.foldl read_line {} _ = r at hread ⊢
  have herror : r.error_detail = none := hread.2
  exact ⟨rfl, herror⟩

/-- Under the keys of the consumers only the total is found. -/
theorem counts_final (i o : Int) :
    counts [("prompt_tokens", i), ("completion_tokens", o), ("total_tokens", i + o)] =
      ⟨0, 0, i + o⟩ := rfl

theorem client_usage_success (events : List CliEvent) :
    client_usage (lines_before_done events ++ [.done]) =
      some ⟨(total_usage events).1, (total_usage events).2,
        (total_usage events).1 + (total_usage events).2⟩ := by
  unfold client_usage lines_before_done
  simp only [List.reverse_append, List.reverse_cons, List.reverse_nil, List.nil_append,
    List.cons_append]
  rfl

/-! ## The reports -/

theorem chat_completions_success (events : List CliEvent) (stderr : String)
    (account : CodexAccount) :
    chat_completions events (.exited (some 0) stderr) account =
      ⟨some ⟨0, 0, (total_usage events).1 + (total_usage events).2⟩,
        ⟨"success", ⟨0, 0, (total_usage events).1 + (total_usage events).2⟩, none⟩, account⟩ := by
  obtain ⟨husage, herror⟩ := read_success events
  unfold chat_completions recorded
  simp only [upto_success, values_yields, effects_yields, husage, herror, counts_final]
  rfl

theorem stream_success (events : List CliEvent) (stderr : String) (account : CodexAccount) :
    stream_codex_exec_with_logging events (.exited (some 0) stderr) account =
      ⟨some ⟨(total_usage events).1, (total_usage events).2,
          (total_usage events).1 + (total_usage events).2⟩,
        ⟨"success", ⟨0, 0, (total_usage events).1 + (total_usage events).2⟩, none⟩, account⟩ := by
  obtain ⟨husage, herror⟩ := read_success events
  unfold stream_codex_exec_with_logging recorded
  simp only [upto_success, values_yields, effects_yields, husage, herror, counts_final,
    client_usage_success]
  rfl

theorem total_usage_ends {events : List CliEvent} {last : CliEvent} {i o : Int}
    (htype : last.type = "turn.completed") (husage : last.usage = some (i, o)) :
    total_usage (events ++ [last]) = (i, o) := by
  simp [total_usage, htype, husage]

/-- The counters of the account grow by a total, once. -/
def Grew (total : Int) (before after : CodexAccount) : Prop :=
  max 0 (intOr0 after.five_hour_used) = max 0 (intOr0 before.five_hour_used) + total ∧
    max 0 (intOr0 after.weekly_used) = max 0 (intOr0 before.weekly_used) + total

/-- The usage of a report is true: to the client, in the log and in the account. -/
def TrueUsage (i o : Int) (account : CodexAccount) (report : Report) : Prop :=
  report.returned = some ⟨i, o, i + o⟩ ∧ report.log.tokens = ⟨i, o, i + o⟩ ∧
    Grew (i + o) account report.account

/-- LAW: A run with exit status 0 whose last event reports the tokens `i` and `o` reports and
records them exactly if both are zero, by either endpoint. -/
theorem the_proxy_reports_true_usage_iff {events : List CliEvent} {last : CliEvent} {i o : Int}
    (htype : last.type = "turn.completed") (husage : last.usage = some (i, o)) (stderr : String)
    (account : CodexAccount) :
    (TrueUsage i o account
        (chat_completions (events ++ [last]) (.exited (some 0) stderr) account) ↔
      i = 0 ∧ o = 0) ∧
    (TrueUsage i o account
        (stream_codex_exec_with_logging (events ++ [last]) (.exited (some 0) stderr) account) ↔
      i = 0 ∧ o = 0) := by
  rw [chat_completions_success, stream_success, total_usage_ends htype husage]
  unfold TrueUsage Grew
  simp only [Counts.mk.injEq, and_true]
  constructor
  · constructor
    · rintro ⟨_, ⟨hi, ho⟩, _⟩
      exact ⟨hi.symm, ho.symm⟩
    · rintro ⟨rfl, rfl⟩
      simp
  · constructor
    · rintro ⟨_, ⟨hi, ho⟩, _⟩
      exact ⟨hi.symm, ho.symm⟩
    · rintro ⟨rfl, rfl⟩
      simp

/-- A turn that used 10 tokens to read and 5 to write. -/
def turn : CliEvent := { type := "turn.completed", usage := some (10, 5) }

def fresh_account : CodexAccount := ⟨some 0, some 0⟩

/-- The client without streaming and both logs get no prompt and no completion tokens, and the
account stays as it was. -/
theorem a_turn_is_not_recorded :
    ¬TrueUsage 10 5 fresh_account (chat_completions [turn] (.exited (some 0) "") fresh_account) ∧
      ¬TrueUsage 10 5 fresh_account
        (stream_codex_exec_with_logging [turn] (.exited (some 0) "") fresh_account) := by
  unfold TrueUsage Grew
  decide +kernel

/-- A turn without tokens is reported as it is. -/
theorem an_idle_turn_is_reported :
    TrueUsage 0 0 fresh_account
      (chat_completions [{ turn with usage := some (0, 0) }] (.exited (some 0) "")
        fresh_account) :=
  (@the_proxy_reports_true_usage_iff [] _ _ _ rfl rfl "" fresh_account).1.mpr ⟨rfl, rfl⟩

end dr_boz.codex_proxy
