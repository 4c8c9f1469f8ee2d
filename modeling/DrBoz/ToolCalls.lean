-- Law of the records of tool calls: `execute_tool_call` writes a row, lets the
-- tool run, and writes down how it ended. A tool may end with a result or an
-- error, and may leave a session that takes nothing until it is rolled back.
import DrBoz.AppServer

open dr_boz.py (isSpace)
open dr_boz.app_server (Json PyText text encodes_text surrogate)

namespace dr_boz.tool_calls

/-! ## How a tool ends -/

abbrev Fields := List (PyText × Json)

/-- A result, which `json.dumps` may not be able to write. -/
structure Returned where
  value : Json
  writable : Bool

inductive Kind where
  | http_status_error (status_code : Nat) (response_text : PyText)
  | request_error
  | exception
  /-- Not an `Exception`: a cancelled task. -/
  | cancelled

/-- An error and its text. -/
structure Raised where
  kind : Kind
  str : PyText

inductive Ending where
  | returned (result : Returned)
  | raised (exc : Raised)

/-- How a tool ends, and if it leaves the session unusable. -/
structure Outcome where
  ending : Ending
  unusable : Bool

/-! ## The tools -/

structure Tool where
  id : Int
  implementation_key : String
  kind : Option String

/-- The implementations of the tools. -/
structure Implementations where
  run_calculator_tool : Fields → Outcome
  run_web_search_tool : Fields → Outcome
  run_pdf_generator_tool : Fields → Outcome
  run_image_generator_tool : Option Int → Fields → Outcome
  run_save_user_preference_tool : Option Int → Fields → Outcome
  run_search_project_tool : Option Int → Fields → Outcome
  run_search_project_queries_tool : Option Int → Fields → Outcome
  run_list_project_files_tool : Option Int → Fields → Outcome
  run_read_skill_tool : Fields → Outcome
  run_read_skill_file_tool : Fields → Outcome
  run_send_file_tool : Option Int → Fields → Outcome
  run_chart_generator_tool : Fields → Outcome
  run_http_tool : Fields → Tool → Outcome
  /-- The skills of the plan, or how the look at it fails. -/
  allowed_skills_for_chat : Option Int → Except Outcome (Option (List PyText))

def failed_with (message : String) : Outcome := ⟨.raised ⟨.exception, text message⟩, false⟩

def is_space (c : Nat) : Bool := isSpace (Char.ofNat c)

def strip (t : PyText) : PyText := ((t.dropWhile is_space).reverse.dropWhile is_space).reverse

def not_available (skill_name : PyText) : Outcome :=
  ⟨.returned ⟨.dict [(text "ok", .bool false), (text "error", .str (text "Skill '" ++ skill_name ++
    text "' is not available in your current subscription plan."))], true⟩, false⟩

/-- A tool for skills: it runs if the plan has the skill. -/
def for_skill (impl : Implementations) (chat_id : Option Int) (arguments : Fields)
    (run : Fields → Outcome) : Outcome :=
  let value := dr_boz.app_server.get arguments "skill_name"
  match if value.truthy then value else .str [] with
  | .str name =>
    match impl.allowed_skills_for_chat chat_id with
    | .error outcome => outcome
    | .ok (some allowed) =>
      if strip name ∈ allowed then run arguments else not_available (strip name)
    | .ok none => run arguments
  | _ => failed_with "object has no attribute 'strip'"

def builtin (impl : Implementations) (chat_id : Option Int) (arguments : Fields) :
    String → Option Outcome
  | "builtin:calculator" => some (impl.run_calculator_tool arguments)
  | "builtin:web_search" => some (impl.run_web_search_tool arguments)
  | "builtin:pdf_generator" => some (impl.run_pdf_generator_tool arguments)
  | "builtin:image_generator" => some (impl.run_image_generator_tool chat_id arguments)
  | "builtin:save_user_preference" => some (impl.run_save_user_preference_tool chat_id arguments)
  | "builtin:search_project" => some (impl.run_search_project_tool chat_id arguments)
  | "builtin:search_project_queries" =>
    some (impl.run_search_project_queries_tool chat_id arguments)
  | "builtin:list_project_files" => some (impl.run_list_project_files_tool chat_id arguments)
  | "builtin:read_skill" => some (for_skill impl chat_id arguments impl.run_read_skill_tool)
  | "builtin:read_skill_file" =>
    some (for_skill impl chat_id arguments impl.run_read_skill_file_tool)
  | "builtin:send_file" => some (impl.run_send_file_tool chat_id arguments)
  | "builtin:chart_generator" => some (impl.run_chart_generator_tool arguments)
  | _ => none

def is_http (tool : Tool) : Bool :=
  (dr_boz.py.strip (tool.kind.getD "")).toLower = "http"

def is_builtin (impl : Implementations) (chat_id : Option Int) (arguments : Fields)
    (tool : Tool) : Bool := (builtin impl chat_id arguments tool.implementation_key).isSome

/-- How the tool of a call ends. -/
def run_tool (impl : Implementations) (chat_id : Option Int) (arguments : Fields)
    (tool : Tool) : Outcome :=
  match builtin impl chat_id arguments tool.implementation_key with
  | some outcome => outcome
  | none =>
    if is_http tool then impl.run_http_tool arguments tool
    else failed_with "Tool implementation is not available"

/-! ## The row and the session -/

structure ToolCall where
  tool_id : Int
  binding_id : Option Int
  chat_id : Option Int
  message_id : Option Int
  provider_name : Option PyText
  model_name : Option PyText
  external_call_id : Option PyText
  arguments : Fields
  status : String
  result : Option Returned
  error : Option PyText
  completed_at : Option Int

/-- The store takes the row: its texts can be encoded, and its result written as JSON. -/
def ToolCall.storable (tool_call : ToolCall) : Bool :=
  tool_call.provider_name.all encodes_text && tool_call.model_name.all encodes_text &&
    tool_call.external_call_id.all encodes_text && tool_call.error.all encodes_text &&
    tool_call.result.all Returned.writable

/-- The object in the session, its row in the store, and if a statement of the session has
failed: until a rollback the session then takes nothing. -/
structure Session where
  tool_call : ToolCall
  row : Option ToolCall
  inactive : Bool

abbrev Db := ExceptT Raised (StateM Session)

def PENDING_ROLLBACK : Raised :=
  ⟨.exception, text "This Session's transaction has been rolled back due to a previous exception"⟩

def STATEMENT_ERROR : Raised := ⟨.exception, text "(builtins.TypeError)"⟩

/-- `await db.commit()` -/
def commit : Db Unit := fun s =>
  if s.inactive then (.error PENDING_ROLLBACK, s)
  else if s.tool_call.storable then (.ok (), { s with row := some s.tool_call })
  else (.error STATEMENT_ERROR, { s with inactive := true })

/-- `await db.refresh(tool_call)` -/
def refresh : Db Unit := fun s =>
  if s.inactive then (.error PENDING_ROLLBACK, s)
  else (.ok (), { s with tool_call := s.row.getD s.tool_call })

/-- The object gets new values, which are committed. -/
def save (f : ToolCall → ToolCall) : Db Unit := do
  modify fun s => { s with tool_call := f s.tool_call }
  commit
  refresh

/-! ## The call -/

structure Call where
  tool : Tool
  binding_id : Option Int
  chat_id : Option Int
  message_id : Option Int
  provider_name : Option PyText
  model_name : Option PyText
  external_call_id : Option PyText
  arguments : Fields

/-- The row of a call that begins. -/
def Call.row (c : Call) : ToolCall :=
  { tool_id := c.tool.id, binding_id := c.binding_id, chat_id := c.chat_id
    message_id := c.message_id, provider_name := c.provider_name, model_name := c.model_name
    external_call_id := c.external_call_id, arguments := c.arguments, status := "pending"
    result := none, error := none, completed_at := none }

/-- The implementation that runs is that of an HTTP tool. -/
def Call.is_http (impl : Implementations) (c : Call) : Bool :=
  !is_builtin impl c.chat_id c.arguments c.tool && dr_boz.tool_calls.is_http c.tool

def Call.outcome (impl : Implementations) (c : Call) : Outcome :=
  run_tool impl c.chat_id c.arguments c.tool

section
variable (now : Int)

def fail (error : PyText) (result : Option Returned) (tool_call : ToolCall) : ToolCall :=
  { tool_call with status := "failed", error := some error, completed_at := some now
                   result := result.or tool_call.result }

/-- A failed request is written down, and its result is returned. -/
def failed_request (error : PyText) (result : Json) : Db (ToolCall × Returned) := do
  save (fail now error (some ⟨result, true⟩))
  let s ← get
  return (s.tool_call, s.tool_call.result.getD ⟨.dict [(text "error", .str error)], true⟩)

/-- What is written down once the tool has ended. -/
def record (http : Bool) (outcome : Outcome) : Db (ToolCall × Returned) := do
  modify fun s => { s with inactive := outcome.unusable }
  match outcome.ending with
  | .returned result =>
    save fun tool_call => { tool_call with status := "completed", result := some result
                                           completed_at := some now }
    return ((← get).tool_call, result)
  | .raised exc =>
    match http, exc.kind with
    | true, .http_status_error status_code response_text =>
      failed_request now (text ("HTTP tool request failed with status " ++ toString status_code))
        (.dict [(text "status_code", .int status_code),
          (text "response_text", .str (response_text.take 4000))])
    | true, .request_error =>
      failed_request now (text "HTTP tool request error: " ++ exc.str)
        (.dict [(text "error", .str exc.str)])
    | _, _ => throw exc

/-- `except Exception as exc` -/
def on_error (exc : Raised) : Db (ToolCall × Returned) :=
  match exc.kind with
  | .cancelled => throw exc
  | _ => do
    save (fail now exc.str none)
    throw exc

def execute_tool_call (impl : Implementations) (c : Call) : Db (ToolCall × Returned) := do
  commit
  refresh
  tryCatch (record now (c.is_http impl) (c.outcome impl)) (on_error now)

/-- A call in a session that has nothing of it yet. -/
def executed (impl : Implementations) (c : Call) (inactive : Bool) :
    Except Raised (ToolCall × Returned) × Session :=
  execute_tool_call now impl c ⟨c.row, none, inactive⟩
end

/-! ## What one step does -/

section
variable {α β : Type} {s s' : Session} {a : α} {e : Raised}

theorem bind_ok {x : Db α} {f : α → Db β} (h : x s = (.ok a, s')) : (x >>= f) s = f a s' := by
  change (match x s with
    | (r, s) => ExceptT.bindCont f r s) = _
  rw [h]
  rfl

theorem bind_error {x : Db α} {f : α → Db β} (h : x s = (.error e, s')) :
    (x >>= f) s = (.error e, s') := by
  change (match x s with
    | (r, s) => ExceptT.bindCont f r s) = _
  rw [h]
  rfl

theorem catch_ok {x : Db α} {f : Raised → Db α} (h : x s = (.ok a, s')) :
    tryCatch x f s = (.ok a, s') := by
  simp only [tryCatch, tryCatchThe, MonadExceptOf.tryCatch, ExceptT.tryCatch, ExceptT.mk, bind,
    StateT.bind]
  rw [h]
  rfl

theorem catch_error {x : Db α} {f : Raised → Db α} (h : x s = (.error e, s')) :
    tryCatch x f s = f e s' := by
  simp only [tryCatch, tryCatchThe, MonadExceptOf.tryCatch, ExceptT.tryCatch, ExceptT.mk, bind,
    StateT.bind]
  rw [h]
end

theorem save_inactive (f : ToolCall → ToolCall) {s : Session} (h : s.inactive = true) :
    save f s = (.error PENDING_ROLLBACK, ⟨f s.tool_call, s.row, true⟩) := by
  obtain ⟨tool_call, row, inactive⟩ := s
  cases h
  rfl

theorem save_storable {f : ToolCall → ToolCall} {s : Session} (h : s.inactive = false)
    (hstorable : (f s.tool_call).storable = true) :
    save f s = (.ok (), ⟨f s.tool_call, some (f s.tool_call), false⟩) := by
  obtain ⟨tool_call, row, inactive⟩ := s
  cases h
  have hcommit : commit ⟨f tool_call, row, false⟩ =
      (.ok (), ⟨f tool_call, some (f tool_call), false⟩) := if_pos hstorable
  exact bind_ok hcommit

theorem save_unstorable {f : ToolCall → ToolCall} {s : Session} (h : s.inactive = false)
    (hstorable : (f s.tool_call).storable = false) :
    save f s = (.error STATEMENT_ERROR, ⟨f s.tool_call, s.row, true⟩) := by
  obtain ⟨tool_call, row, inactive⟩ := s
  cases h
  have hcommit : commit ⟨f tool_call, row, false⟩ =
      (.error STATEMENT_ERROR, ⟨f tool_call, row, true⟩) := by
    change (if (f tool_call).storable = true then _ else _) = _
    exact if_neg (Bool.eq_false_iff.mp hstorable)
  change (commit >>= fun _ => refresh) ⟨f tool_call, row, false⟩ = _
  exact bind_error hcommit

/-! ## What is written down -/

/-- What the code writes into the row for an outcome, if anything. -/
def note (now : Int) (http : Bool) : Ending → Option (ToolCall → ToolCall)
  | .returned result => some fun tool_call =>
    { tool_call with status := "completed", result := some result, completed_at := some now }
  | .raised exc =>
    match http, exc.kind with
    | true, .http_status_error status_code response_text =>
      some (fail now (text ("HTTP tool request failed with status " ++ toString status_code))
        (some ⟨.dict [(text "status_code", .int status_code),
          (text "response_text", .str (response_text.take 4000))], true⟩))
    | true, .request_error =>
      some (fail now (text "HTTP tool request error: " ++ exc.str)
        (some ⟨.dict [(text "error", .str exc.str)], true⟩))
    | _, .cancelled => none
    | _, _ => some (fail now exc.str none)

/-- What is in the row and in the result once the call is over: what the code notes, where the
session takes it, and the pending row where it does not. -/
structure Over (tool_call : ToolCall) (outcome : Outcome)
    (noted : Option (ToolCall → ToolCall))
    (result : Except Raised (ToolCall × Returned)) (row : Option ToolCall) : Prop where
  written : ∀ f, noted = some f → outcome.unusable = false → (f tool_call).storable = true →
    row = some (f tool_call) ∧ ∀ call returned, result = .ok (call, returned) →
      (f tool_call).result = some returned
  pending : (∀ f, noted = some f → outcome.unusable = false → (f tool_call).storable = false) →
    row = some tool_call

section
variable (now : Int)

theorem on_error_eq {exc : Raised} (h : exc.kind ≠ .cancelled) :
    on_error now exc = (do
      save (fail now exc.str none)
      throw exc) := by
  obtain ⟨kind, str⟩ := exc
  cases kind with
  | cancelled => exact absurd rfl h
  | http_status_error | request_error | exception => rfl

theorem on_error_inactive (exc : Raised) {s : Session} (h : s.inactive = true) :
    (on_error now exc s).2.row = s.row := by
  by_cases hkind : exc.kind = .cancelled
  · obtain ⟨kind, str⟩ := exc
    cases hkind
    rfl
  · rw [on_error_eq now hkind, bind_error (save_inactive _ h)]

/-- A note that the session does not take: the row stays as it is. -/
theorem over_of_error {http : Bool} {outcome : Outcome} {tool_call : ToolCall}
    {f : ToolCall → ToolCall} {exc : Raised} {s : Session}
    (hnote : note now http outcome.ending = some f) (hs : s.inactive = true)
    (hrow : s.row = some tool_call)
    (hnot : outcome.unusable = false → (f tool_call).storable = false)
    (hrecord : record now http outcome ⟨tool_call, some tool_call, false⟩ = (.error exc, s)) :
    let last := tryCatch (record now http outcome) (on_error now)
      ⟨tool_call, some tool_call, false⟩
    Over tool_call outcome (note now http outcome.ending) last.1 last.2.row := by
  intro last
  have hover : last.2.row = some tool_call := by
    change (tryCatch (record now http outcome) (on_error now) _).2.row = _
    rw [catch_error hrecord, on_error_inactive now exc hs, hrow]
  refine ⟨fun g hg husable hstorable => ?_, fun _ => hover⟩
  cases hnote.symm.trans hg
  rw [hnot husable] at hstorable
  cases hstorable
/-- A note that is written down by a step, with the result that this step then has. -/
theorem over_of_save {http : Bool} {outcome : Outcome} {tool_call : ToolCall}
    {f : ToolCall → ToolCall} {k : Unit → Db (ToolCall × Returned)} {returned : Returned}
    (hnote : note now http outcome.ending = some f)
    (hreturned : (f tool_call).result = some returned)
    (hrecord : record now http outcome ⟨tool_call, some tool_call, false⟩ =
      (save f >>= k) ⟨tool_call, some tool_call, outcome.unusable⟩)
    (hk : k () ⟨f tool_call, some (f tool_call), false⟩ =
      (.ok (f tool_call, returned), ⟨f tool_call, some (f tool_call), false⟩)) :
    let last := tryCatch (record now http outcome) (on_error now)
      ⟨tool_call, some tool_call, false⟩
    Over tool_call outcome (note now http outcome.ending) last.1 last.2.row := by
  cases husable : outcome.unusable with
  | true =>
    rw [husable, bind_error (save_inactive f rfl)] at hrecord
    exact over_of_error now hnote rfl rfl (fun h => by rw [husable] at h; cases h) hrecord
  | false =>
    rw [husable] at hrecord
    cases hstorable : (f tool_call).storable with
    | false =>
      rw [bind_error (save_unstorable rfl hstorable)] at hrecord
      exact over_of_error now hnote rfl rfl (fun _ => hstorable) hrecord
    | true =>
      rw [bind_ok (save_storable rfl hstorable), hk] at hrecord
      intro last
      have hover : last = (.ok (f tool_call, returned), ⟨f tool_call, some (f tool_call), false⟩) :=
        catch_ok hrecord
      refine ⟨fun g hg _ _ => ?_, fun hnot => ?_⟩
      · cases hnote.symm.trans hg
        rw [hover]
        refine ⟨rfl, fun call result hresult => ?_⟩
        cases hresult
        exact hreturned
      · rw [hnot f hnote husable] at hstorable
        cases hstorable

/-- An error that is not dealt with where it comes up. -/
theorem over_of_throw {http : Bool} {outcome : Outcome} {tool_call : ToolCall} {exc : Raised}
    (hnote : exc.kind ≠ .cancelled → note now http outcome.ending = some (fail now exc.str none))
    (hnone : exc.kind = .cancelled → note now http outcome.ending = none)
    (hrecord : record now http outcome ⟨tool_call, some tool_call, false⟩ =
      (.error exc, ⟨tool_call, some tool_call, outcome.unusable⟩)) :
    let last := tryCatch (record now http outcome) (on_error now)
      ⟨tool_call, some tool_call, false⟩
    Over tool_call outcome (note now http outcome.ending) last.1 last.2.row := by
  intro last
  have hover : last = on_error now exc ⟨tool_call, some tool_call, outcome.unusable⟩ :=
    catch_error hrecord
  rw [hover]
  by_cases hkind : exc.kind = .cancelled
  · rw [hnone hkind]
    obtain ⟨kind, str⟩ := exc
    cases hkind
    constructor
    · intro f hf
      cases hf
    · intro _
      rfl
  · rw [hnote hkind, on_error_eq now hkind]
    cases husable : outcome.unusable with
    | true =>
      rw [bind_error (save_inactive _ rfl)]
      refine ⟨fun f _ h => ?_, fun _ => rfl⟩
      rw [husable] at h
      cases h
    | false =>
      cases hstorable : (fail now exc.str none tool_call).storable with
      | false =>
        rw [bind_error (save_unstorable rfl hstorable)]
        refine ⟨fun f hf _ h => ?_, fun _ => rfl⟩
        cases hf
        rw [hstorable] at h
        cases h
      | true =>
        rw [bind_ok (save_storable rfl hstorable)]
        refine ⟨fun f hf _ _ => ?_, fun h => ?_⟩
        · cases hf
          refine ⟨rfl, fun call returned hresult => ?_⟩
          cases hresult
        · rw [h _ rfl husable] at hstorable
          cases hstorable

theorem record_over (http : Bool) (outcome : Outcome) (tool_call : ToolCall) :
    let last := tryCatch (record now http outcome) (on_error now)
      ⟨tool_call, some tool_call, false⟩
    Over tool_call outcome (note now http outcome.ending) last.1 last.2.row := by
  obtain ⟨ending, unusable⟩ := outcome
  cases ending with
  | returned result => exact over_of_save now rfl rfl rfl rfl
  | raised exc =>
    obtain ⟨kind, str⟩ := exc
    cases http with
    | false =>
      cases kind with
      | cancelled => exact over_of_throw now (fun h => absurd rfl h) (fun _ => rfl) rfl
      | http_status_error | request_error | exception =>
        exact over_of_throw now (fun _ => rfl) (fun h => by cases h) rfl
    | true =>
      cases kind with
      | cancelled => exact over_of_throw now (fun h => absurd rfl h) (fun _ => rfl) rfl
      | exception => exact over_of_throw now (fun _ => rfl) (fun h => by cases h) rfl
      | http_status_error status_code response_text => exact over_of_save now rfl rfl rfl rfl
      | request_error => exact over_of_save now rfl rfl rfl rfl
end

/-! ## What the law speaks of -/

/-- A result that says that the tool failed: `ok` is false, or there is an error. -/
def reports_failure : Json → Bool
  | .dict fields =>
    (match dr_boz.app_server.get fields "ok" with
      | .bool ok => !ok
      | _ => false) || (dr_boz.app_server.get fields "error").truthy
  | _ => false

def succeeded : Ending → Bool
  | .returned result => !reports_failure result.value
  | .raised _ => false

/-- The row tells the truth: the call has ended, it is completed exactly if the tool succeeded
and failed otherwise, and its result is the one that is returned. -/
structure Truthful (ending : Ending) (result : Except Raised (ToolCall × Returned))
    (row : ToolCall) : Prop where
  ended : row.completed_at.isSome = true
  completed : row.status = "completed" ↔ succeeded ending = true
  failed : row.status = "failed" ↔ succeeded ending = false
  returned : ∀ call returned, result = .ok (call, returned) → row.result = some returned

/-- The row of the call is created: its session can be used, and its texts can be encoded. -/
def created (c : Call) (inactive : Bool) : Bool := !inactive && c.row.storable

/-- The tool leaves a session that can be used, and ends with a result that reports no failure
and that JSON can write, or with an `Exception` whose text can be encoded. The text of a status
error is not used. -/
def recorded (http : Bool) (outcome : Outcome) : Bool :=
  !outcome.unusable &&
    match outcome.ending with
    | .returned result => !reports_failure result.value && result.writable
    | .raised exc =>
      match http, exc.kind with
      | true, .http_status_error _ _ => true
      | _, .cancelled => false
      | _, _ => encodes_text exc.str

theorem executed_eq (now : Int) (impl : Implementations) {c : Call} {inactive : Bool}
    (h : created c inactive = true) :
    executed now impl c inactive = tryCatch (record now (c.is_http impl) (c.outcome impl))
      (on_error now) ⟨c.row, some c.row, false⟩ := by
  obtain ⟨hinactive, hstorable⟩ := Bool.and_eq_true_iff.mp h
  cases inactive with
  | true => cases hinactive
  | false =>
    have hcommit : commit ⟨c.row, none, false⟩ = (.ok (), ⟨c.row, some c.row, false⟩) :=
      if_pos hstorable
    exact bind_ok hcommit

theorem executed_none (now : Int) (impl : Implementations) {c : Call} {inactive : Bool}
    (h : created c inactive = false) : (executed now impl c inactive).2.row = none := by
  cases inactive with
  | true => rfl
  | false =>
    have hcommit : commit ⟨c.row, none, false⟩ =
        (.error STATEMENT_ERROR, ⟨c.row, none, true⟩) := by
      change (if c.row.storable = true then _ else _) = _
      exact if_neg (Bool.eq_false_iff.mp h)
    unfold executed execute_tool_call
    rw [bind_error hcommit]

theorem fail_storable (now : Int) {row : ToolCall} (hrow : row.storable = true)
    (error : PyText) (value : Option Json) :
    (fail now error (value.map (⟨·, true⟩)) row).storable = encodes_text error := by
  simp only [ToolCall.storable, Bool.and_eq_true] at hrow
  obtain ⟨⟨⟨⟨hprovider, hmodel⟩, hcall⟩, -⟩, hresult⟩ := hrow
  cases value with
  | none => simp [ToolCall.storable, fail, hprovider, hmodel, hcall, hresult]
  | some value => simp [ToolCall.storable, fail, hprovider, hmodel, hcall]

/-- What is noted for an ending: the row ends, and the session takes it with the right status
exactly if the ending is one that is recorded. -/
theorem note_some {now : Int} {http : Bool} {ending : Ending} {f : ToolCall → ToolCall}
    {row : ToolCall} (hrow : row.storable = true) (h : note now http ending = some f) :
    (f row).completed_at.isSome = true ∧
      ((recorded http ⟨ending, false⟩ = true ↔ (f row).storable = true ∧
        (f row).status = if succeeded ending then "completed" else "failed")) := by
  have hstorable := hrow
  simp only [ToolCall.storable, Bool.and_eq_true] at hstorable
  obtain ⟨⟨⟨⟨hprovider, hmodel⟩, hcall⟩, herror⟩, -⟩ := hstorable
  cases ending with
  | returned result =>
    cases h
    refine ⟨rfl, ?_⟩
    cases hreports : reports_failure result.value <;>
      simp [recorded, ToolCall.storable, succeeded, hprovider, hmodel, hcall, herror, hreports]
  | raised exc =>
    have hfail : ∀ error (value : Option Json),
        recorded http ⟨.raised exc, false⟩ = encodes_text error →
        f = fail now error (value.map (⟨·, true⟩)) →
        (f row).completed_at.isSome = true ∧
          (recorded http ⟨.raised exc, false⟩ = true ↔ (f row).storable = true ∧
            (f row).status = "failed") := by
      intro error value hrecorded hf
      rw [hf, hrecorded, fail_storable now hrow]
      exact ⟨rfl, (and_iff_left rfl).symm⟩
    obtain ⟨kind, str⟩ := exc
    cases http with
    | false =>
      cases kind with
      | cancelled => cases h
      | http_status_error | request_error | exception =>
        exact hfail str none rfl (Option.some.inj h).symm
    | true =>
      cases kind with
      | cancelled => cases h
      | exception => exact hfail str none rfl (Option.some.inj h).symm
      | http_status_error status_code response_text =>
        exact hfail _ (some _) (dr_boz.app_server.text_encodes _).symm (Option.some.inj h).symm
      | request_error =>
        refine hfail _ (some _) ?_ (Option.some.inj h).symm
        rw [dr_boz.app_server.append_encodes, dr_boz.app_server.text_encodes, Bool.true_and]
        rfl

theorem note_none {now : Int} {http : Bool} {ending : Ending}
    (h : note now http ending = none) : recorded http ⟨ending, false⟩ = false := by
  cases ending with
  | returned result => cases h
  | raised exc =>
    obtain ⟨kind, str⟩ := exc
    cases http with
    | false =>
      cases kind with
      | cancelled => rfl
      | http_status_error | request_error | exception => cases h
    | true =>
      cases kind with
      | cancelled => rfl
      | http_status_error | request_error | exception => cases h

theorem recorded_unusable {http : Bool} {outcome : Outcome} :
    recorded http outcome = true ↔
      outcome.unusable = false ∧ recorded http ⟨outcome.ending, false⟩ = true := by
  unfold recorded
  rw [Bool.and_eq_true, Bool.not_eq_true']
  exact and_congr_right fun _ => (Bool.true_and _).symm ▸ Iff.rfl

/-- A row that ends with a status is truthful if the status is the right one. -/
theorem truthful_iff_status {ending : Ending} {result : Except Raised (ToolCall × Returned)}
    {row : ToolCall} (hended : row.completed_at.isSome = true)
    (hreturned : ∀ call returned, result = .ok (call, returned) → row.result = some returned) :
    Truthful ending result row ↔
      row.status = if succeeded ending then "completed" else "failed" := by
  cases hsucceeded : succeeded ending with
  | true =>
    refine ⟨fun h => h.completed.mpr hsucceeded, fun h => ⟨hended, ?_, ?_, hreturned⟩⟩
    · exact iff_of_true h hsucceeded
    · refine iff_of_false ?_ (by simp [hsucceeded])
      rw [h]
      decide
  | false =>
    refine ⟨fun h => h.failed.mpr hsucceeded, fun h => ⟨hended, ?_, ?_, hreturned⟩⟩
    · refine iff_of_false ?_ (by simp [hsucceeded])
      rw [h]
      decide
    · exact iff_of_true h hsucceeded

/-- LAW: the row of a call tells the truth exactly if the tool leaves a session that can be used,
and ends with a result that reports no failure and that JSON can write, or with an error whose
text can be encoded. -/
theorem the_row_of_a_call_tells_the_truth_iff (now : Int) (impl : Implementations) (c : Call)
    (inactive : Bool) :
    (∀ row, (executed now impl c inactive).2.row = some row →
      Truthful (c.outcome impl).ending (executed now impl c inactive).1 row) ↔
      (created c inactive = true → recorded (c.is_http impl) (c.outcome impl) = true) := by
  cases hcreated : created c inactive with
  | false =>
    rw [executed_none now impl hcreated]
    exact iff_of_true (fun row h => by cases h) (fun h => by cases h)
  | true =>
    rw [executed_eq now impl hcreated, recorded_unusable]
    generalize c.is_http impl = http
    generalize c.outcome impl = outcome
    have hstorable : c.row.storable = true := (Bool.and_eq_true_iff.mp hcreated).2
    have hover := record_over now http outcome c.row
    have hpending : ∀ result, ¬Truthful outcome.ending result c.row := fun result h => by
      have hended := h.ended
      cases hended
    simp only [forall_const]
    cases hnote : note now http outcome.ending with
    | none =>
      rw [note_none hnote, hover.pending fun f hf => by rw [hnote] at hf; cases hf]
      refine iff_of_false (fun h => hpending _ (h _ rfl)) (fun h => by cases h.2)
    | some f =>
      obtain ⟨hended, hrecorded⟩ := note_some hstorable hnote
      rw [hrecorded]
      by_cases hwritten : outcome.unusable = false ∧ (f c.row).storable = true
      · obtain ⟨hrow, hreturned⟩ := hover.written f hnote hwritten.1 hwritten.2
        rw [hrow, and_iff_right hwritten.1, and_iff_right hwritten.2,
          ← truthful_iff_status hended hreturned]
        simp only [Option.some.injEq, forall_eq']
      · have hrow := hover.pending fun g hg husable => by
          cases hnote.symm.trans hg
          exact Bool.eq_false_of_not_eq_true fun h => hwritten ⟨husable, h⟩
        rw [hrow]
        exact iff_of_false (fun h => hpending _ (h _ rfl)) fun h => hwritten ⟨h.1, h.2.1⟩

/-- All tools answer that a skill was not found. -/
def NOT_FOUND : Outcome :=
  ⟨.returned ⟨.dict [(text "ok", .bool false), (text "error", .str (text "not found"))], true⟩,
    false⟩

def ALL_NOT_FOUND : Implementations :=
  ⟨fun _ => NOT_FOUND, fun _ => NOT_FOUND, fun _ => NOT_FOUND, fun _ _ => NOT_FOUND,
    fun _ _ => NOT_FOUND, fun _ _ => NOT_FOUND, fun _ _ => NOT_FOUND, fun _ _ => NOT_FOUND,
    fun _ => NOT_FOUND, fun _ => NOT_FOUND, fun _ _ => NOT_FOUND, fun _ => NOT_FOUND,
    fun _ _ => NOT_FOUND, fun _ => .ok none⟩

def READ_SKILL : Call where
  tool := ⟨1, "builtin:read_skill", some "builtin"⟩
  binding_id := none
  chat_id := some 3
  message_id := none
  provider_name := none
  model_name := none
  external_call_id := none
  arguments := [(text "skill_name", .str (text "tables"))]

/-- A skill that is not found: the tool says so, and the row says that it is completed. -/
theorem a_skill_not_found_is_completed :
    ¬∀ row, (executed 5 ALL_NOT_FOUND READ_SKILL false).2.row = some row →
      Truthful (READ_SKILL.outcome ALL_NOT_FOUND).ending
        (executed 5 ALL_NOT_FOUND READ_SKILL false).1 row := by
  intro h
  have hcompleted := (h _ rfl).completed.mp rfl
  cases hcompleted

end dr_boz.tool_calls
