-- A turn of a text chat with the bot: `_process_chat_text_turn`, with the two
-- completions that charge for an answer, and the function that stores it. Each
-- call to the database, to Telegram or to a provider may raise.
import DrBoz.AgentStream
import DrBoz.MultimodalTags

open keyed_table dr_boz.py dr_boz.multimodal_tags

namespace dr_boz.chat_turns

/-! ## What a run leaves -/

/-- The outcome of `charge_chat_usage_toman`. -/
inductive Charge
  | charged (cost : Int)
  | refused
deriving DecidableEq

/-- The answer that was to be charged with the outcome, the answers that were shown in a final
response, and the answers that were stored. -/
structure Log where
  charge : Option (String × Charge) := none
  shown : List String := []
  stored : List String := []
deriving DecidableEq

/-- An exception, or the cancellation of the task, which `except Exception` does not catch. -/
inductive Raised
  | error (text : String)
  | cancelled
deriving DecidableEq

/-- A piece of a run. What it has done stays when it raises. -/
def Run (α : Type) : Type := Log → Except Raised α × Log

instance : Monad Run where
  pure a := fun log => (.ok a, log)
  bind x f := fun log =>
    match x log with
    | (.ok a, log) => f a log
    | (.error e, log) => (.error e, log)

def lift {α : Type} (x : Except Raised α) : Run α := fun log => (x, log)

def record (f : Log → Log) : Run Unit := fun log => (.ok (), f log)

/-- `try` with `except Exception as e`. -/
def except {α : Type} (x : Run α) (handler : String → Run α) : Run α := fun log =>
  match x log with
  | (.error (.error text), log) => handler text log
  | result => result

/-! ## The calls of a turn -/

/-- The calls that may raise. Calls whose exceptions are all caught on the spot are left out. -/
inductive Site
  | get_user | save_user_message | get_model | reply_no_model | history | route | reply_no_route
  | capabilities | restriction | preprocessing | rag | project
  | quote | credit | pending_action | reply_credit | usage_event | status_message | chat_tools
  | stream_failed | capability_error | subscription_error | request | sheet_failed
  | complete_usage | charge | refused_commit | refused_balance | completed_commit | sheet_commit
  | piece (i : Nat) | piece_raw (i : Nat) | tip_query
  | error_reply | suggestions | save_commit | rating
deriving DecidableEq

/-- What the calls of a turn give back, and which of them raise. -/
structure Turn where
  fails : Site → Option String
  model_found : Bool
  route_found : Bool
  restricted : Bool
  preprocessing : Bool
  all_messages : List Msg
  uploads : Table UploadedFile
  disk : Disk
  supports_vis : Option Bool
  credit_ok : Bool
  limit_reached : Bool
  status_message : Bool
  events : List agent_stream.Event
  stream_end : Option Raised
  sheet_reply : String
  pdf_requested : Bool
  pdf_error : Option String
  charge : Charge
  has_bot : Bool
  stopping : Bool

def call (t : Turn) (site : Site) : Except Raised Unit :=
  match t.fails site with
  | some text => .error (.error text)
  | none => .ok ()

def calls (t : Turn) : List Site → Except Raised Unit
  | [] => .ok ()
  | site :: sites => do
    call t site
    calls t sites

/-- `part in text` -/
def contains (part text : String) : Bool :=
  text.toList.tails.any fun rest => part.toList <+: rest

/-! ## Images in the history -/

/-- The messages after `_resolve_vision_messages`, with the flag among them. -/
def resolved (t : Turn) : List Msg :=
  resolve_vision_messages t.uploads t.disk t.all_messages t.supports_vis

def needs_vision_warning (t : Turn) : Bool :=
  (resolved t).any fun m => m.role = "_vision" && m.content = .text "_needs_vision_warning"

def has_image_tags (t : Turn) : Bool :=
  t.all_messages.any fun m =>
    match m.content with
    | .text text => contains "[عکس ارسال شده:" text
    | _ => false

/-- The turn ends with the warning that the model takes no images. -/
def vision_warning (t : Turn) : Bool :=
  needs_vision_warning t || has_image_tags t && t.supports_vis ≠ some true

def messages_include_image_input (messages : List Msg) : Bool :=
  messages.any fun m =>
    match m.content with
    | .parts parts => parts.any fun part =>
        match part with
        | .text _ => false
        | _ => true
    | _ => false

/-! ## Up to the charge -/

/-- The check for credit that both completions start with. -/
def has_credit (t : Turn) : Except Raised Bool := do
  calls t [.quote, .credit]
  if t.credit_ok = false ∨ t.limit_reached = true then
    calls t [.pending_action, .reply_credit]
    return false
  else
    return true

/-- The text of the events, up to an error among them. -/
def stream_reply : List agent_stream.Event → String → Except Raised String
  | [], full_reply => .ok full_reply
  | .content text :: events, full_reply => stream_reply events (full_reply ++ text)
  | .error e _ :: _, _ => .error (.error e)
  | _ :: events, full_reply => stream_reply events full_reply

/-- The whole stream, which may raise after its last event. -/
def streamed (t : Turn) : Except Raised String := do
  let full_reply ← stream_reply t.events ""
  match t.stream_end with
  | some e => .error e
  | none => .ok full_reply

/-- The loop over the stream with its handlers. Two of the errors end the completion with a message
of their own. -/
def stream_answer (t : Turn) : Except Raised (Option String) :=
  match streamed t with
  | .ok full_reply => .ok (some full_reply)
  | .error .cancelled => .error .cancelled
  | .error (.error text) => do
    call t .stream_failed
    if messages_include_image_input (resolved t) && contains "unsupported_image_input" text then
      call t .capability_error
      return none
    else if contains "Active Codex subscription with a capacity pool is required" text then
      call t .subscription_error
      return none
    else
      .error (.error text)

/-- `_run_tool_aware_completion` up to its charge: the answer, if it gets there. -/
def before_charge (t : Turn) : Except Raised (Option String) := do
  if ← has_credit t then
    calls t ([.usage_event] ++ (if t.status_message then [] else [.status_message]) ++
      [.chat_tools])
    match ← stream_answer t with
    | some full_reply =>
      calls t [.complete_usage, .charge]
      return some full_reply
    | none => return none
  else
    return none

/-- The answer to a spreadsheet, with the error of the PDF. -/
def sheet_answer (t : Turn) : String :=
  match t.pdf_error with
  | some e =>
    if t.pdf_requested && strip t.sheet_reply ≠ "" then
      t.sheet_reply ++ "\n\n⚠️ ساخت PDF با خطا روبه‌رو شد: " ++ String.ofList (e.toList.take 300)
    else t.sheet_reply
  | none => t.sheet_reply

/-- `_run_precomputed_spreadsheet_completion` up to its charge. -/
def sheet_before_charge (t : Turn) : Except Raised (Option String) := do
  if ← has_credit t then
    calls t [.usage_event, .status_message]
    match calls t [.request, .complete_usage, .charge] with
    | .ok () => return some (sheet_answer t)
    | .error e =>
      call t .sheet_failed
      .error e
  else
    return none

/-! ## The final response -/

/-- The characters that `_send_final_response` takes out. -/
def invisible (c : Char) : Bool := c.val ∈ [0x200b, 0x200e, 0x200f, 0x200c, 0x200d]

def STATUS_MARKS : List Char := "⌛⏳✍️🔄⠋⠙⠹⠸⠼⠴⠦⠧⠇⠏✅.".toList

/-- The text without the marks of a status at its start; `skip` characters belong to one. -/
def drop_status : Nat → List Char → List Char
  | _, [] => []
  | skip + 1, _ :: text => drop_status skip text
  | 0, c :: text =>
    if c ∈ STATUS_MARKS then drop_status 0 text
    else if "در حال پردازش".toList <+: c :: text then
      drop_status ("در حال پردازش".toList.length - 1) text
    else c :: text

def final_text (text : String) : String :=
  strip (String.ofList (drop_status 0 (text.toList.filter fun c => !invisible c)))

/-- The number of messages that the text is sent in. -/
def pieces (text : String) : Nat :=
  if text.length ≤ 4096 then 1 else 1 + (text.length - 4000 + 4095) / 4096

/-- One message comes through, as formatted text or as it is. -/
def comes_through (t : Turn) (i : Nat) : Bool :=
  !t.stopping && ((t.fails (.piece i)).isNone || (t.fails (.piece_raw i)).isNone)

/-- A part of the answer is shown by the final response. -/
def shows (t : Turn) (answer : String) : Bool :=
  final_text answer ≠ "" && (List.range (pieces (final_text answer))).any (comes_through t)

/-- `_send_final_response` raises nothing: each of its messages is caught. -/
def send_final_response (t : Turn) (answer : String) : Run Unit :=
  record fun log => if shows t answer then { log with shown := log.shown ++ [answer] } else log

def has_math (text : String) : Bool :=
  contains "$" text || contains "\\[" text || contains "\\begin\x7b" text

/-- `_check_and_send_math_tip`: the look for the user may raise, the tip is caught. -/
def check_and_send_math_tip (t : Turn) (answer : String) : Except Raised Unit :=
  if t.has_bot && has_math answer then call t .tip_query else .ok ()

/-! ## The turn -/

/-- `charge_chat_usage_toman` gives its outcome for the answer. -/
def charge_chat_usage_toman (t : Turn) (answer : String) : Run Unit :=
  record fun log => { log with charge := some (answer, t.charge) }

def run_tool_aware_completion (t : Turn) : Run String := do
  match ← lift (before_charge t) with
  | none => return ""
  | some full_reply =>
    charge_chat_usage_toman t full_reply
    match t.charge with
    | .refused =>
      lift (calls t [.refused_commit, .refused_balance])
      return full_reply
    | .charged _ =>
      lift (call t .completed_commit)
      send_final_response t full_reply
      lift (check_and_send_math_tip t full_reply)
      return full_reply

/-- Whether the charge was refused or not, the reply is sent and returned. -/
def run_precomputed_spreadsheet_completion (t : Turn) : Run String := do
  match ← lift (sheet_before_charge t) with
  | none => return ""
  | some reply =>
    except (do
      charge_chat_usage_toman t reply
      lift (call t .sheet_commit)
      send_final_response t reply
      return reply) fun text => do
        lift (call t .sheet_failed)
        lift (.error (.error text))

/-- `_save_assistant_message_and_post_actions` -/
def save_assistant_message_and_post_actions (t : Turn) (assistant_text : String) : Run Unit := do
  if assistant_text = "" then return ()
  else
    lift (call t .save_commit)
    record fun log => { log with stored := log.stored ++ [assistant_text] }
    lift (call t .rating)

/-- The steps before a completion: whether the turn goes on. -/
def open_turn (t : Turn) : Except Raised Bool := do
  calls t [.get_user, .save_user_message, .get_model]
  if t.model_found = false then
    call t .reply_no_model
    return false
  else
    calls t [.history, .route]
    if t.route_found = false then
      call t .reply_no_route
      return false
    else
      call t .capabilities
      if t.restricted = true then
        call t .restriction
        return false
      else
        call t .preprocessing
        return true

/-- A completion, or the reply with its error. -/
def attempt (t : Turn) (completion : Run String) : Run (Option String) :=
  except (do
    let full_reply ← completion
    return some full_reply) fun _ => do
      lift (call t .error_reply)
      return none

def process_chat_text_turn (t : Turn) : Run Unit := do
  if ← lift (open_turn t) then
    if t.preprocessing then
      match ← attempt t (run_precomputed_spreadsheet_completion t) with
      | none => return ()
      | some full_reply => save_assistant_message_and_post_actions t full_reply
    else
      lift (calls t [.rag, .project])
      match ← attempt t (run_tool_aware_completion t) with
      | none => return ()
      | some full_reply =>
        -- The warning itself is sent in a `try`.
        if vision_warning t then lift (call t .suggestions)
        else save_assistant_message_and_post_actions t full_reply
  else
    return ()

/-! ## Pieces of a run -/

theorem run_bind {α β : Type} (x : Run α) (f : α → Run β) (log : Log) :
    (x >>= f) log = match x log with
      | (.ok a, log) => f a log
      | (.error e, log) => (.error e, log) := rfl

@[simp] theorem run_pure {α : Type} (a : α) (log : Log) : (pure a : Run α) log = (.ok a, log) := rfl

@[simp] theorem run_lift {α : Type} (x : Except Raised α) (log : Log) : lift x log = (x, log) := rfl

@[simp] theorem run_record (f : Log → Log) (log : Log) : record f log = (.ok (), f log) := rfl

theorem call_ok {t : Turn} {site : Site} (h : t.fails site = none) : call t site = .ok () := by
  unfold call
  rw [h]

theorem call_fails {t : Turn} {site : Site} (h : t.fails site ≠ none) :
    ∃ text, call t site = .error (.error text) := by
  obtain ⟨text, htext⟩ := Option.ne_none_iff_exists'.mp h
  refine ⟨text, ?_⟩
  unfold call
  rw [htext]

theorem run_attempt (t : Turn) (completion : Run String) (log : Log) :
    attempt t completion log = match completion log with
      | (.ok answer, log) => (.ok (some answer), log)
      | (.error (.error _), log) => (lift (call t .error_reply) >>= fun _ => return none) log
      | (.error .cancelled, log) => (.error .cancelled, log) := by
  unfold attempt except
  rw [run_bind]
  rcases completion log with ⟨(text | _) | answer, log'⟩
  · rfl
  · rfl
  · rfl

/-! ## Keeping what was billed -/

/-- An answer that was charged with a cost is stored once, and one whose charge was refused is
neither stored nor shown. -/
def Kept (log : Log) : Prop :=
  ∀ answer outcome, log.charge = some (answer, outcome) →
    match outcome with
    | .charged cost => 0 < cost → log.stored = [answer]
    | .refused => log.stored = [] ∧ log.shown = []

/-- The answer that the charge is called for, if the turn gets there. -/
def reached (t : Turn) : Option String :=
  match open_turn t with
  | .ok true =>
    if t.preprocessing then (sheet_before_charge t).toOption.join
    else
      match calls t [.rag, .project] with
      | .ok () => (before_charge t).toOption.join
      | .error _ => none
  | _ => none

/-- The look for the user before a tip does not raise. -/
def TipOk (t : Turn) (answer : String) : Prop :=
  t.has_bot = true → has_math answer = true → t.fails .tip_query = none

/-- After a charge, nothing on the way to the store raises, and the model takes images. -/
def WayToStore (t : Turn) (answer : String) : Prop :=
  if t.preprocessing then t.fails .sheet_commit = none
  else t.fails .completed_commit = none ∧
    TipOk t answer ∧ vision_warning t = false

/-- After a refused charge, something on the way to the store raises, or ends the turn. -/
def NoWayToStore (t : Turn) : Prop :=
  if t.preprocessing then t.fails .sheet_commit ≠ none
  else t.fails .refused_commit ≠ none ∨ t.fails .refused_balance ≠ none ∨
    vision_warning t = true

/-- The condition on a turn that gets to its charge with the answer. -/
def PairsFor (t : Turn) (answer : String) : Prop :=
  match t.charge with
  | .charged cost => 0 < cost →
    answer ≠ "" ∧ t.fails .save_commit = none ∧ WayToStore t answer
  | .refused => NoWayToStore t ∨
    (answer = "" ∨ t.fails .save_commit ≠ none) ∧ (t.preprocessing = true → shows t answer = false)

/-- The condition on any turn. -/
def Pairs (t : Turn) : Prop := ∀ answer, reached t = some answer → PairsFor t answer

/-! ## The log of a turn -/

/-- What the store leaves in the log. -/
theorem save_log (t : Turn) (answer : String) (log : Log) :
    (save_assistant_message_and_post_actions t answer log).2 =
      if answer ≠ "" ∧ t.fails .save_commit = none then
        { log with stored := log.stored ++ [answer] }
      else log := by
  unfold save_assistant_message_and_post_actions
  by_cases hempty : answer = ""
  · rw [if_pos hempty, if_neg (fun h => h.1 hempty)]
    rfl
  · rw [if_neg hempty, run_bind, run_lift]
    by_cases hcommit : t.fails .save_commit = none
    · rw [call_ok hcommit, if_pos ⟨hempty, hcommit⟩]
      rfl
    · obtain ⟨text, hcall⟩ := call_fails hcommit
      rw [hcall, if_neg (fun h => hcommit h.2)]

/-- A completion leaves in the log what it leaves, and the store adds to that, if it comes to it. -/
theorem completion_log (t : Turn) (completion : Run String) (rest : Option String → Run Unit)
    (hnone : rest none = pure ()) (log : Log) :
    ((attempt t completion >>= rest) log).2 =
      match completion log with
      | (.ok answer, log) => (rest (some answer) log).2
      | (.error _, log) => log := by
  rw [run_bind, run_attempt]
  rcases completion log with ⟨(text | _) | answer, log'⟩
  · simp only
    rw [run_bind, run_lift]
    rcases call t .error_reply with e | _
    · rfl
    · simp only [run_pure, hnone]
  · rfl
  · rfl

/-- The log of a turn with a spreadsheet. -/
theorem sheet_turn_log {t : Turn} (hopen : open_turn t = .ok true)
    (hsheet : t.preprocessing = true) :
    (process_chat_text_turn t {}).2 =
      match run_precomputed_spreadsheet_completion t {} with
      | (.ok answer, log) => (save_assistant_message_and_post_actions t answer log).2
      | (.error _, log) => log := by
  unfold process_chat_text_turn
  rw [run_bind, run_lift, hopen]
  simp only [hsheet, if_true]
  exact completion_log t _ _ rfl {}

/-- The log of a turn without one. -/
theorem chat_turn_log {t : Turn} (hopen : open_turn t = .ok true) (hsheet : t.preprocessing = false)
    (hrag : calls t [.rag, .project] = .ok ()) :
    (process_chat_text_turn t {}).2 =
      match run_tool_aware_completion t {} with
      | (.ok answer, log) => if vision_warning t = true then log
          else (save_assistant_message_and_post_actions t answer log).2
      | (.error _, log) => log := by
  unfold process_chat_text_turn
  rw [run_bind, run_lift, hopen]
  simp only [hsheet, if_true, Bool.false_eq_true, if_false]
  rw [run_bind, run_lift, hrag]
  simp only
  refine (completion_log t _ _ rfl {}).trans ?_
  rcases run_tool_aware_completion t {} with ⟨e | answer, log⟩
  · rfl
  · simp only
    split
    · rfl
    · rfl

/-! ## The completions -/

/-- What is shown of an answer. -/
def shown_of (t : Turn) (answer : String) : List String :=
  if shows t answer then [answer] else []

theorem send_final_response_run (t : Turn) (answer : String) (charge : Option (String × Charge)) :
    send_final_response t answer { charge } =
      (.ok (), { charge, shown := shown_of t answer }) := by
  unfold send_final_response shown_of
  rw [run_record]
  split
  · rfl
  · rfl

/-- A completion that does not get to its charge leaves nothing, and its answer is empty. -/
theorem sheet_run_stops {t : Turn} (hstop : (sheet_before_charge t).toOption.join = none) :
    (∃ e, run_precomputed_spreadsheet_completion t {} = (.error e, {})) ∨
      run_precomputed_spreadsheet_completion t {} = (.ok "", {}) := by
  unfold run_precomputed_spreadsheet_completion
  rw [run_bind, run_lift]
  rcases hbefore : sheet_before_charge t with e | _ | reply
  · exact .inl ⟨e, rfl⟩
  · exact .inr rfl
  · rw [hbefore] at hstop
    cases hstop

/-- The reply is shown and returned, whatever the outcome of the charge was. -/
theorem sheet_run {t : Turn} {reply : String} (hbefore : sheet_before_charge t = .ok (some reply))
    (hcommit : t.fails .sheet_commit = none) :
    run_precomputed_spreadsheet_completion t {} =
      (.ok reply, { charge := some (reply, t.charge), shown := shown_of t reply }) := by
  unfold run_precomputed_spreadsheet_completion except charge_chat_usage_toman
  rw [run_bind, run_lift, hbefore]
  simp only
  rw [run_bind, run_record]
  simp only
  rw [run_bind, run_lift, call_ok hcommit]
  simp only
  rw [run_bind, send_final_response_run]
  rfl

theorem sheet_run_fails {t : Turn} {reply : String}
    (hbefore : sheet_before_charge t = .ok (some reply)) (hcommit : t.fails .sheet_commit ≠ none) :
    ∃ e, run_precomputed_spreadsheet_completion t {} =
      (.error e, { charge := some (reply, t.charge) }) := by
  obtain ⟨text, hcall⟩ := call_fails hcommit
  unfold run_precomputed_spreadsheet_completion except charge_chat_usage_toman
  rw [run_bind, run_lift, hbefore]
  simp only
  rw [run_bind, run_record]
  simp only
  rw [run_bind, run_lift, hcall]
  simp only
  rw [run_bind, run_lift]
  rcases call t .sheet_failed with e | _
  · exact ⟨e, rfl⟩
  · exact ⟨.error text, rfl⟩

theorem chat_run_stops {t : Turn} (hstop : (before_charge t).toOption.join = none) :
    (∃ e, run_tool_aware_completion t {} = (.error e, {})) ∨
      run_tool_aware_completion t {} = (.ok "", {}) := by
  unfold run_tool_aware_completion
  rw [run_bind, run_lift]
  rcases hbefore : before_charge t with e | _ | full_reply
  · exact .inl ⟨e, rfl⟩
  · exact .inr rfl
  · rw [hbefore] at hstop
    cases hstop

/-- After a refused charge nothing is shown, but the answer is returned. -/
theorem chat_run_refused {t : Turn} {answer : String}
    (hbefore : before_charge t = .ok (some answer)) (hcharge : t.charge = .refused)
    (hcommit : t.fails .refused_commit = none) (hbalance : t.fails .refused_balance = none) :
    run_tool_aware_completion t {} = (.ok answer, { charge := some (answer, .refused) }) := by
  have hcalls : calls t [.refused_commit, .refused_balance] = .ok () := by
    unfold calls calls calls
    rw [call_ok hcommit, call_ok hbalance]
    rfl
  unfold run_tool_aware_completion charge_chat_usage_toman
  rw [run_bind, run_lift, hbefore]
  simp only
  rw [run_bind, run_record, hcharge]
  simp only
  rw [run_bind, run_lift, hcalls]
  rfl

theorem chat_run_refused_fails {t : Turn} {answer : String}
    (hbefore : before_charge t = .ok (some answer)) (hcharge : t.charge = .refused)
    (hfails : t.fails .refused_commit ≠ none ∨ t.fails .refused_balance ≠ none) :
    ∃ e, run_tool_aware_completion t {} = (.error e, { charge := some (answer, .refused) }) := by
  have hcalls : ∃ e, calls t [.refused_commit, .refused_balance] = .error e := by
    unfold calls calls calls
    by_cases hcommit : t.fails .refused_commit = none
    · have hbalance : t.fails .refused_balance ≠ none :=
        hfails.resolve_left fun h => h hcommit
      obtain ⟨text, hcall⟩ := call_fails hbalance
      rw [call_ok hcommit, hcall]
      exact ⟨_, rfl⟩
    · obtain ⟨text, hcall⟩ := call_fails hcommit
      rw [hcall]
      exact ⟨_, rfl⟩
  obtain ⟨e, hcalls⟩ := hcalls
  unfold run_tool_aware_completion charge_chat_usage_toman
  rw [run_bind, run_lift, hbefore]
  simp only
  rw [run_bind, run_record, hcharge]
  simp only
  rw [run_bind, run_lift, hcalls]
  exact ⟨e, rfl⟩

theorem math_tip_ok {t : Turn} {answer : String} :
    TipOk t answer ↔ check_and_send_math_tip t answer = .ok () := by
  unfold TipOk check_and_send_math_tip
  by_cases hbot : t.has_bot = true
  · by_cases hmath : has_math answer = true
    · simp only [hbot, hmath, Bool.and_self, if_true, forall_const]
      constructor
      · exact call_ok
      · intro hcall
        by_contra hfails
        obtain ⟨text, herror⟩ := call_fails hfails
        rw [herror] at hcall
        cases hcall
    · simp [hmath]
  · simp [hbot]

/-- The answer is shown after a charge, and returned. -/
theorem chat_run_charged {t : Turn} {answer : String} {cost : Int}
    (hbefore : before_charge t = .ok (some answer)) (hcharge : t.charge = .charged cost)
    (hcommit : t.fails .completed_commit = none) (htip : TipOk t answer) :
    run_tool_aware_completion t {} =
      (.ok answer, { charge := some (answer, .charged cost), shown := shown_of t answer }) := by
  unfold run_tool_aware_completion charge_chat_usage_toman
  rw [run_bind, run_lift, hbefore]
  simp only
  rw [run_bind, run_record, hcharge]
  simp only
  rw [run_bind, run_lift, call_ok hcommit]
  simp only
  rw [run_bind, send_final_response_run]
  simp only
  rw [run_bind, run_lift, math_tip_ok.mp htip]
  rfl

/-- An exception after the charge leaves an answer that was charged but not returned. -/
theorem chat_run_charged_fails {t : Turn} {answer : String} {cost : Int}
    (hbefore : before_charge t = .ok (some answer)) (hcharge : t.charge = .charged cost)
    (hfails : ¬ (t.fails .completed_commit = none ∧ TipOk t answer)) :
    ∃ e shown, run_tool_aware_completion t {} =
      (.error e, { charge := some (answer, .charged cost), shown }) := by
  unfold run_tool_aware_completion charge_chat_usage_toman
  rw [run_bind, run_lift, hbefore]
  simp only
  rw [run_bind, run_record, hcharge]
  simp only
  rw [run_bind, run_lift]
  by_cases hcommit : t.fails .completed_commit = none
  · have htip : ¬ TipOk t answer := fun h => hfails ⟨hcommit, h⟩
    rw [call_ok hcommit]
    simp only
    rw [run_bind, send_final_response_run]
    simp only
    rw [run_bind, run_lift]
    rcases hcall : check_and_send_math_tip t answer with e | _
    · exact ⟨e, _, rfl⟩
    · exact absurd (math_tip_ok.mpr hcall) htip
  · obtain ⟨text, hcall⟩ := call_fails hcommit
    rw [hcall]
    exact ⟨_, _, rfl⟩

/-! ## Which answers are kept -/

theorem kept_charged {answer : String} {cost : Int} {shown stored : List String} :
    Kept { charge := some (answer, .charged cost), shown, stored } ↔
      (0 < cost → stored = [answer]) := by
  constructor
  · intro h
    exact h answer (.charged cost) rfl
  · rintro h _ _ ⟨⟩
    exact h

theorem kept_refused {answer : String} {shown stored : List String} :
    Kept { charge := some (answer, .refused), shown, stored } ↔ stored = [] ∧ shown = [] := by
  constructor
  · intro h
    exact h answer .refused rfl
  · rintro h _ _ ⟨⟩
    exact h

theorem kept_uncharged {log : Log} (h : log.charge = none) : Kept log := by
  intro answer outcome hcharge
  rw [h] at hcharge
  cases hcharge

/-- The store charges nothing. -/
theorem save_charge (t : Turn) (answer : String) (log : Log) :
    (save_assistant_message_and_post_actions t answer log).2.charge = log.charge := by
  rw [save_log]
  split
  · rfl
  · rfl

/-- A turn that does not get to its charge charges nothing. -/
theorem unreached_charge {t : Turn} (h : reached t = none) :
    (process_chat_text_turn t {}).2.charge = none := by
  unfold reached at h
  rcases hopen : open_turn t with e | _ | _
  · unfold process_chat_text_turn
    rw [run_bind, run_lift, hopen]
  · unfold process_chat_text_turn
    rw [run_bind, run_lift, hopen]
    rfl
  · rw [hopen] at h
    rcases hsheet : t.preprocessing
    · simp only [hsheet, Bool.false_eq_true, if_false] at h
      rcases hrag : calls t [.rag, .project] with e | _
      · unfold process_chat_text_turn
        rw [run_bind, run_lift, hopen]
        simp only [hsheet, if_true, Bool.false_eq_true, if_false]
        rw [run_bind, run_lift, hrag]
      · rw [hrag] at h
        rw [chat_turn_log hopen hsheet hrag]
        obtain ⟨e, hrun⟩ | hrun := chat_run_stops h
        · rw [hrun]
        · rw [hrun]
          simp only
          split
          · rfl
          · exact save_charge t "" {}
    · simp only [hsheet, if_true] at h
      rw [sheet_turn_log hopen hsheet]
      obtain ⟨e, hrun⟩ | hrun := sheet_run_stops h
      · rw [hrun]
      · rw [hrun]
        exact save_charge t "" {}

/-- After the store of an answer that was charged and returned. -/
theorem kept_saved_charged {t : Turn} {answer : String} {cost : Int} {shown : List String} :
    Kept (save_assistant_message_and_post_actions t answer
        { charge := some (answer, .charged cost), shown }).2 ↔
      (0 < cost → answer ≠ "" ∧ t.fails .save_commit = none) := by
  rw [save_log]
  split
  · next h =>
    exact kept_charged.trans ⟨fun _ _ => h, fun _ _ => rfl⟩
  · next h =>
    refine kept_charged.trans ⟨fun hkept hcost => ?_, fun hsaved hcost => ?_⟩
    · cases hkept hcost
    · exact absurd (hsaved hcost) h

/-- After the store of an answer whose charge was refused, and that was returned. -/
theorem kept_saved_refused {t : Turn} {answer : String} {shown : List String} :
    Kept (save_assistant_message_and_post_actions t answer
        { charge := some (answer, .refused), shown }).2 ↔
      (answer = "" ∨ t.fails .save_commit ≠ none) ∧ shown = [] := by
  rw [save_log]
  split
  · next h =>
    refine kept_refused.trans ⟨fun hkept => ?_, fun hsaved => ?_⟩
    · cases hkept.1
    · rcases hsaved.1 with hempty | hcommit
      · exact absurd hempty h.1
      · exact absurd h.2 hcommit
  · next h =>
    refine kept_refused.trans ⟨fun hkept => ⟨?_, hkept.2⟩, fun hsaved => ⟨rfl, hsaved.2⟩⟩
    by_cases hempty : answer = ""
    · exact .inl hempty
    · exact .inr fun hcommit => h ⟨hempty, hcommit⟩

theorem shown_of_empty {t : Turn} {answer : String} :
    shown_of t answer = [] ↔ shows t answer = false := by
  unfold shown_of
  cases shows t answer
  · simp
  · simp

/-- A turn with a spreadsheet that gets to its charge. -/
theorem sheet_kept_iff {t : Turn} {answer : String} (hopen : open_turn t = .ok true)
    (hsheet : t.preprocessing = true) (hbefore : sheet_before_charge t = .ok (some answer)) :
    Kept (process_chat_text_turn t {}).2 ↔ PairsFor t answer := by
  rw [sheet_turn_log hopen hsheet]
  unfold PairsFor WayToStore NoWayToStore
  simp only [hsheet, if_true, forall_const]
  by_cases hcommit : t.fails .sheet_commit = none
  · rw [sheet_run hbefore hcommit]
    rcases hcharge : t.charge with cost | _
    · simpa only [hcommit, and_true] using kept_saved_charged
    · refine kept_saved_refused.trans ?_
      rw [shown_of_empty]
      exact ⟨.inr, fun h => h.resolve_left fun hfails => hfails hcommit⟩
  · obtain ⟨e, hrun⟩ := sheet_run_fails hbefore hcommit
    rw [hrun]
    rcases hcharge : t.charge with cost | _
    · refine kept_charged.trans ⟨fun hkept hcost => ?_, fun hsaved hcost => ?_⟩
      · cases hkept hcost
      · exact absurd (hsaved hcost).2.2 hcommit
    · exact kept_refused.trans ⟨fun _ => .inl hcommit, fun _ => ⟨rfl, rfl⟩⟩

/-- A turn without one whose charge succeeds. -/
theorem chat_kept_charged_iff {t : Turn} {answer : String} {cost : Int}
    (hopen : open_turn t = .ok true) (hsheet : t.preprocessing = false)
    (hrag : calls t [.rag, .project] = .ok ()) (hbefore : before_charge t = .ok (some answer))
    (hcharge : t.charge = .charged cost) :
    Kept (process_chat_text_turn t {}).2 ↔ PairsFor t answer := by
  rw [chat_turn_log hopen hsheet hrag]
  unfold PairsFor WayToStore
  simp only [hcharge, hsheet, Bool.false_eq_true, if_false]
  by_cases hway : t.fails .completed_commit = none ∧ TipOk t answer
  · rw [chat_run_charged hbefore hcharge hway.1 hway.2]
    simp only
    split
    · next hwarning =>
      refine kept_charged.trans ⟨fun hkept hcost => ?_, fun hsaved hcost => ?_⟩
      · cases hkept hcost
      · exact absurd (hwarning.symm.trans (hsaved hcost).2.2.2.2) (by decide)
    · next hwarning =>
      have hno : vision_warning t = false := Bool.eq_false_iff.mpr hwarning
      simpa only [hway.1, hway.2, hno, and_true] using kept_saved_charged
  · obtain ⟨e, shown, hrun⟩ := chat_run_charged_fails hbefore hcharge hway
    rw [hrun]
    refine kept_charged.trans ⟨fun hkept hcost => ?_, fun hsaved hcost => ?_⟩
    · cases hkept hcost
    · obtain ⟨-, -, hcommit, htip, -⟩ := hsaved hcost
      exact absurd ⟨hcommit, htip⟩ hway

/-- A turn without one whose charge is refused. -/
theorem chat_kept_refused_iff {t : Turn} {answer : String}
    (hopen : open_turn t = .ok true) (hsheet : t.preprocessing = false)
    (hrag : calls t [.rag, .project] = .ok ()) (hbefore : before_charge t = .ok (some answer))
    (hcharge : t.charge = .refused) :
    Kept (process_chat_text_turn t {}).2 ↔ PairsFor t answer := by
  rw [chat_turn_log hopen hsheet hrag]
  unfold PairsFor NoWayToStore
  simp only [hcharge, hsheet, Bool.false_eq_true, if_false, false_implies, and_true]
  by_cases hfails : t.fails .refused_commit ≠ none ∨ t.fails .refused_balance ≠ none
  · obtain ⟨e, hrun⟩ := chat_run_refused_fails hbefore hcharge hfails
    rw [hrun]
    refine kept_refused.trans ⟨fun _ => .inl ?_, fun _ => ⟨rfl, rfl⟩⟩
    exact hfails.imp_right .inl
  · obtain ⟨hcommit, hbalance⟩ := not_or.mp hfails
    rw [chat_run_refused hbefore hcharge (not_not.mp hcommit) (not_not.mp hbalance)]
    simp only
    split
    · next hwarning =>
      exact kept_refused.trans
        ⟨fun _ => .inl (.inr (.inr hwarning)), fun _ => ⟨rfl, rfl⟩⟩
    · next hwarning =>
      refine kept_saved_refused.trans ⟨fun h => .inr h.1, fun h => ⟨?_, rfl⟩⟩
      rcases h with (h | h | h) | h
      · exact absurd h hcommit
      · exact absurd h hbalance
      · exact absurd h hwarning
      · exact h

/-- What it takes to reach an answer. -/
theorem reached_some {t : Turn} {answer : String} (h : reached t = some answer) :
    open_turn t = .ok true ∧
      (t.preprocessing = true ∧ sheet_before_charge t = .ok (some answer) ∨
        t.preprocessing = false ∧ calls t [.rag, .project] = .ok () ∧
          before_charge t = .ok (some answer)) := by
  have hjoin : ∀ x : Except Raised (Option String),
      x.toOption.join = some answer → x = .ok (some answer) := by
    rintro (e | _ | a) hx
    · cases hx
    · cases hx
    · cases hx
      rfl
  unfold reached at h
  rcases hopen : open_turn t with e | _ | _
  · rw [hopen] at h
    cases h
  · rw [hopen] at h
    cases h
  · rw [hopen] at h
    refine ⟨rfl, ?_⟩
    rcases hsheet : t.preprocessing
    · simp only [hsheet, Bool.false_eq_true, if_false] at h
      rcases hrag : calls t [.rag, .project] with e | _
      · rw [hrag] at h
        cases h
      · rw [hrag] at h
        exact .inr ⟨rfl, rfl, hjoin _ h⟩
    · simp only [hsheet, if_true] at h
      exact .inl ⟨rfl, hjoin _ h⟩

/-- LAW: a billed answer is kept, and an answer whose charge was refused is not, exactly in the
turns that pair the two: a charged answer is not empty, nothing raises between its charge and its
store, and no warning about images ends the turn; after a refused charge something does keep the
answer from its store, and for a spreadsheet from its user. -/
theorem a_billed_answer_is_kept_iff (t : Turn) :
    Kept (process_chat_text_turn t {}).2 ↔ Pairs t := by
  rcases hreached : reached t with _ | answer
  · refine iff_of_true (kept_uncharged (unreached_charge hreached)) fun answer h => ?_
    rw [hreached] at h
    cases h
  · have hpairs : Pairs t ↔ PairsFor t answer := by
      unfold Pairs
      simp only [hreached, Option.some.injEq, forall_eq']
    rw [hpairs]
    obtain ⟨hopen, ⟨hsheet, hbefore⟩ | ⟨hsheet, hrag, hbefore⟩⟩ := reached_some hreached
    · exact sheet_kept_iff hopen hsheet hbefore
    · rcases hcharge : t.charge with cost | _
      · exact chat_kept_charged_iff hopen hsheet hrag hbefore hcharge
      · exact chat_kept_refused_iff hopen hsheet hrag hbefore hcharge

/-- A turn in which nothing raises, with an image that the model does not take in its history. -/
def image_turn (charge : Charge) (supports_vis : Bool) : Turn where
  fails := fun _ => none
  model_found := true
  route_found := true
  restricted := false
  preprocessing := false
  all_messages := [⟨"user", .text "[عکس ارسال شده: a.png (ID=7)]"⟩, ⟨"assistant", .text "ok"⟩,
    ⟨"user", .text "hi"⟩]
  uploads := Table.empty
  disk := { cwd := [], entry := fun _ => .missing }
  supports_vis := some supports_vis
  credit_ok := true
  limit_reached := false
  status_message := false
  events := [.content "hel", .content "lo", .done]
  stream_end := none
  sheet_reply := ""
  pdf_requested := false
  pdf_error := none
  charge
  has_bot := true
  stopping := false

/-- The answer is charged and shown but not stored, as the warning about the image ends the turn.
With a model that takes images, the charge is refused and the answer is stored. -/
theorem a_billed_answer_is_lost_and_a_refused_one_kept :
    ¬ Kept (process_chat_text_turn (image_turn (.charged 100) false) {}).2 ∧
      ¬ Kept (process_chat_text_turn (image_turn .refused true) {}).2 := by
  have hlost : (process_chat_text_turn (image_turn (.charged 100) false) {}).2 =
      { charge := some ("hello", .charged 100), shown := ["hello"] } := by decide +kernel
  have hkept : (process_chat_text_turn (image_turn .refused true) {}).2 =
      { charge := some ("hello", .refused), stored := ["hello"] } := by decide +kernel
  constructor
  · rw [hlost]
    intro h
    cases kept_charged.mp h (by decide)
  · rw [hkept]
    intro h
    cases (kept_refused.mp h).1

end dr_boz.chat_turns
