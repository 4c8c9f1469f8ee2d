-- Law of the automatic choice of a model: `resolve_model_for_completion` asks
-- the router model, reads its decision, and takes the first target of the
-- configuration that is active. The configuration is any JSON.
import DrBoz.CliLines
import DrBoz.SanitizedReplies

open regexes Regex dr_boz.py dr_boz.texts dr_boz.cli_lines
open dr_boz.sanitized_replies (ignoring_case)

namespace dr_boz.auto_routing

/-! ## The store -/

structure Provider where
  id : Int
  is_active : Option Bool
deriving DecidableEq

/-- The greatest number that SQLite stores. -/
def MAX_INTEGER : Int := 9223372036854775807

structure Model where
  id : Int
  stored : id ≤ MAX_INTEGER
  name : String
  provider_id : Option Int
  is_active : Option Bool
  capabilities : JsonValue

structure Db where
  models : List Model
  providers : List Provider

inductive Raised where
  | type_error
  | overflow_error
  | attribute_error
  | value_error
  | llm_provider_error (message code : String)
deriving DecidableEq

def AUTO_ROUTER_MODEL_TYPE : String := "auto_router"

def AUTO_ROUTER_TARGET_FIELDS : List String :=
  ["easy_model_id", "medium_model_id", "hard_model_id", "vision_model_id", "research_model_id",
    "fallback_model_id"]

def AUTO_ROUTER_MODEL_ID_FIELDS : List String := "router_model_id" :: AUTO_ROUTER_TARGET_FIELDS

def _model_capabilities (model : Model) : Fields :=
  match model.capabilities with
  | .dict capabilities => capabilities
  | _ => []

def is_auto_router_model (model : Model) : Bool :=
  (Fields.get (_model_capabilities model) "model_type" .null).is_text AUTO_ROUTER_MODEL_TYPE

def get_auto_router_config (model : Model) : Fields :=
  match Fields.get (_model_capabilities model) "auto_router" .null with
  | .dict config => config
  | _ => []

/-- `int(text)`, which takes no more than 4300 digits. -/
def int_text (text : String) : Option Int :=
  if 4300 < (text.toList.filter fun c => (decimal c).isSome).length then none else int_of text

def positive (parsed : Int) : Option Int := if 0 < parsed then some parsed else none

/-- What is no hash key raises when it is looked for in a set, and `int(..)` of an
infinite number raises an error that is not caught. -/
def _coerce_model_id : JsonValue → Except Raised (Option Int)
  | .null | .nan => .ok none
  | .bool b => .ok (if b then some 1 else none)
  | .int n => .ok (positive n)
  | .float x => .ok (positive (truncated x))
  | .infinity | .minus_infinity => .error .overflow_error
  | .str text => .ok (if text = "" ∨ text = "0" then none else (int_text text).bind positive)
  | .list _ | .dict _ => .error .type_error

/-- The row of an active model with its active provider. -/
def active_row (db : Db) (model_id : Int) : Option (Provider × Model) := do
  let model ← db.models.find? fun model => model.id = model_id ∧ model.is_active = some true
  let provider ← db.providers.find? fun provider =>
    some provider.id = model.provider_id ∧ provider.is_active = some true
  some (provider, model)

def _get_active_normal_provider_model (db : Db) (model_id : Option Int) :
    Except Raised (Option (Provider × Model)) :=
  match model_id with
  | none | some 0 => .ok none
  | some model_id =>
    if MAX_INTEGER < model_id then .error .overflow_error
    else .ok ((active_row db model_id).filter fun row => !is_auto_router_model row.2)

def _first_valid_auto_router_target (db : Db) (config : Fields) :
    List String → Except Raised (Option (Provider × Model))
  | [] => .ok none
  | field :: fields => do
    let model_id ← _coerce_model_id (config.get field .null)
    match ← _get_active_normal_provider_model db model_id with
    | some row => return some row
    | none => _first_valid_auto_router_target db config fields

/-! ## The decision -/

/-- `json.loads`, `str.lower()`, and `str` of a value that is no text. -/
structure Library where
  loads : String → Except Raised JsonValue
  lower : String → String
  str : JsonValue → Except Raised String

structure Decision where
  difficulty : String
  task_type : String
  needs_vision : Bool
  needs_research : Bool
  matched_criteria : List String
  reason : String
deriving DecidableEq

/-- `text[:n]` -/
def shortened (n : Nat) (text : String) : String := String.ofList (text.toList.take n)

section
variable (lib : Library)

def Library.str_of : JsonValue → Except Raised String
  | .str text => .ok text
  | value => lib.str value

/-- `^` of a whole text -/
def text_start : Regex := edge fun prev _ => prev.isNone

def FENCE_START : Pass :=
  .removal (in_order [text_start, exactly "\x60\x60\x60", optional (ignoring_case "json"),
    most isSpace])

def FENCE_END : Pass := .removal (in_order [most isSpace, exactly "\x60\x60\x60", finish])

/-- The text from its first `{` to its last `}`. -/
def braced (text : List Char) : List Char :=
  if '{' ∈ text ∧ '}' ∈ text then
    (text.dropWhile (· ≠ '{')).reverse.dropWhile (· ≠ '}') |>.reverse
  else text

def decision_text (text : String) : String :=
  String.ofList (braced (FENCE_END.sub (FENCE_START.sub (strip text).toList)))

/-- `str(payload.get(key) or default).strip().lower()`, if it is one of the words. -/
def one_of (payload : Fields) (key default : String) (words : List String) :
    Except Raised String := do
  let text ← lib.str_of ((payload.get key .null).or (.str default))
  let word := lib.lower (strip text)
  return if word ∈ words then word else default

def matched (payload : Fields) : Except Raised (List String) := do
  match payload.get "matched_criteria" .null with
  | .list items =>
    let texts ← items.mapM (Library.str_of lib)
    return (((texts.map strip).filter (· ≠ "")).map (shortened 80)).take 8
  | _ => return []

def read_decision (payload : Fields) : Except Raised Decision := do
  let difficulty ← one_of lib payload "difficulty" "medium" ["easy", "medium", "hard"]
  let task_type ← one_of lib payload "task_type" "other" ["chat", "writing", "coding", "analysis",
    "research", "vision", "math", "file_generation", "other"]
  let matched_criteria ← matched lib payload
  let reason ← lib.str_of ((payload.get "reason" .null).or (.str ""))
  return { difficulty, task_type, matched_criteria
           needs_vision := (payload.get "needs_vision" .null).truthy
           needs_research := (payload.get "needs_research" .null).truthy
           reason := shortened 300 (strip reason) }

/-- A payload that is no dictionary has no `get`. -/
def parse_auto_router_decision (raw : JsonValue) : Except Raised Decision :=
  match raw with
  | .dict payload => read_decision lib payload
  | _ => do
    let text ← lib.str_of (raw.or (.str ""))
    match lib.loads (decision_text text) with
    | .ok (.dict payload) => read_decision lib payload
    | .ok _ => .error .attribute_error
    | .error .type_error | .error .value_error => read_decision lib []
    | .error e => .error e
end

/-! ## The choice -/

/-- The first of the fields that has an id. -/
def first_id (config : Fields) : List String → Except Raised (Option Int)
  | [] => .ok none
  | field :: fields => do
    match ← _coerce_model_id (config.get field .null) with
    | some target_id => return some target_id
    | none => first_id config fields

def difficulty_key (decision : Decision) : String :=
  if decision.difficulty ∈ ["easy", "medium", "hard"] then decision.difficulty ++ "_model_id"
  else "medium_model_id"

def select_auto_router_target_id (config : Fields) (decision : Decision) :
    Except Raised (Option Int) := do
  let vision ← if decision.needs_vision then _coerce_model_id (config.get "vision_model_id" .null)
    else .ok none
  if vision.isSome then return vision
  let research ← if decision.needs_research then
    _coerce_model_id (config.get "research_model_id" .null) else .ok none
  if research.isSome then return research
  first_id config (difficulty_key decision :: "fallback_model_id" :: AUTO_ROUTER_TARGET_FIELDS)

structure Routing where
  selected_model_id : Int
  selected_model_name : String
  router_model_id : Option Int
  router_model_name : Option String
  target_model_id : Int
  target_model_name : String
  decision : Decision
  router_error : Option String
  router_usage : JsonValue

/-- The server: its rows, the library, how errors read, and how the router model answers. -/
structure Server where
  db : Db
  lib : Library
  text : Raised → String
  request_chat_completion : Provider → Model → Except String JsonValue

section
variable (s : Server)

/-- The decision and the usage in a response of the router model. -/
def read_response (response : JsonValue) : Except Raised (Decision × JsonValue) := do
  match response with
  | .dict fields =>
    match (Fields.get fields "message" .null).or (.dict []) with
    | .dict message =>
      let decision ← parse_auto_router_decision s.lib
        ((Fields.get message "content" .null).or (.str ""))
      return (decision, Fields.get fields "usage" .null)
    | _ => .error .attribute_error
  | _ => .error .attribute_error

/-- The decision, the error and the usage of the router. All errors are caught. -/
def classify (decision : Decision) (router : Option (Provider × Model)) :
    Decision × Option String × JsonValue :=
  match router with
  | none => (decision, some "router_model_id is not an active normal model", .null)
  | some (router_provider, router_model) =>
    match s.request_chat_completion router_provider router_model with
    | .error e => (decision, some (shortened 300 e), .null)
    | .ok response =>
      match read_response s response with
      | .error e => (decision, some (shortened 300 (s.text e)), .null)
      | .ok (decision, usage) => (decision, none, usage)

def NO_TARGET : Raised :=
  .llm_provider_error "Auto router has no active target model configured" "auto_router_no_target"

/-- The target: the one that the decision selects, or the first that is active. -/
def find_target (config : Fields) (decision : Decision) :
    Except Raised (Option (Provider × Model)) := do
  let target_id ← select_auto_router_target_id config decision
  match ← _get_active_normal_provider_model s.db target_id with
  | some target => return some target
  | none => _first_valid_auto_router_target s.db config AUTO_ROUTER_TARGET_FIELDS

def find_router (config : Fields) : Except Raised (Option (Provider × Model)) := do
  let router_id ← _coerce_model_id (config.get "router_model_id" .null)
  _get_active_normal_provider_model s.db router_id

def resolve_model_for_completion (selected_provider : Option Provider)
    (selected_model : Option Model) :
    Except Raised (Option Provider × Option Model × Option Routing) := do
  match selected_model.filter is_auto_router_model with
  | none => return (selected_provider, selected_model, none)
  | some selected_model =>
    let config := get_auto_router_config selected_model
    let router ← find_router s config
    let decision ← parse_auto_router_decision s.lib (.dict [])
    let (decision, router_error, router_usage) := classify s decision router
    match ← find_target s config decision with
    | none => .error NO_TARGET
    | some (target_provider, target_model) =>
      return (some target_provider, some target_model, some
        { selected_model_id := selected_model.id
          selected_model_name := selected_model.name
          router_model_id := router.map (·.2.id)
          router_model_name := router.map (·.2.name)
          target_model_id := target_model.id
          target_model_name := target_model.name
          decision, router_error, router_usage })
end

/-! ## The check of a configuration -/

def configured_ids (config : Fields) : Except Raised (List (String × Option Int)) :=
  AUTO_ROUTER_MODEL_ID_FIELDS.mapM fun field => do
    return (field, ← _coerce_model_id (config.get field .null))

/-- No active normal model has the id. -/
def no_target (db : Db) (model_id : Int) : Bool :=
  ((active_row db model_id).filter fun row => !is_auto_router_model row.2).isNone

def validate_auto_router_config (db : Db) (config : JsonValue) (current_model_id : Option Int) :
    Except Raised (List String) := do
  match config with
  | .dict config =>
    let configured ← configured_ids config
    let requested_ids := configured.filterMap Prod.snd
    let errors :=
      (if (configured.find? fun x => x.1 = "router_model_id" ∧ x.2.isSome).isNone then
        ["router_model_id is required"] else []) ++
      (if (configured.filter fun x => x.1 ∈ AUTO_ROUTER_TARGET_FIELDS).any (·.2.isSome) then []
        else ["at least one target model is required"]) ++
      (if current_model_id.any (· ∈ requested_ids) then ["auto router cannot target itself"]
        else [])
    if requested_ids = [] then return errors
    if requested_ids.any (MAX_INTEGER < ·) then .error .overflow_error
    return errors ++ (configured.filter fun x => x.2.any (no_target db)).map fun x =>
      x.1 ++ " must target an active normal model"
  | _ => return ["auto_router config is required"]

/-! ## What the law speaks of -/

/-- The active normal model that a field names, with its provider. -/
def named (db : Db) (value : JsonValue) : Option (Provider × Model) :=
  match _coerce_model_id value with
  | .ok (some model_id) => (active_row db model_id).filter fun row => !is_auto_router_model row.2
  | _ => none

/-- The value can be read: it is no list, no dictionary and no infinite number, and its number
is one that SQLite stores. -/
def readable (value : JsonValue) : Bool :=
  match _coerce_model_id value with
  | .ok (some model_id) => model_id ≤ MAX_INTEGER
  | .ok none => true
  | .error _ => false

def has_id (value : JsonValue) : Bool :=
  match _coerce_model_id value with
  | .ok (some _) => true
  | _ => false

/-- The fields that a decision goes through. -/
def chain (decision : Decision) : List String :=
  (if decision.needs_vision then ["vision_model_id"] else []) ++
    (if decision.needs_research then ["research_model_id"] else []) ++
    difficulty_key decision :: "fallback_model_id" :: AUTO_ROUTER_TARGET_FIELDS

/-- The fields up to the first one with `p`. -/
def up_to (p : String → Bool) : List String → List String
  | [] => []
  | field :: fields => field :: if p field then [] else up_to p fields

/-- The target that the decision selects, if it is active. -/
def selected (db : Db) (config : Fields) (decision : Decision) : Option (Provider × Model) :=
  ((chain decision).find? fun field => has_id (config.get field .null)).bind fun field =>
    named db (config.get field .null)

/-- The fields whose values are read. -/
def looked_at (db : Db) (config : Fields) (decision : Decision) : List String :=
  "router_model_id" :: up_to (fun field => has_id (config.get field .null)) (chain decision) ++
    if (selected db config decision).isSome then []
    else up_to (fun field => (named db (config.get field .null)).isSome) AUTO_ROUTER_TARGET_FIELDS

/-- The decision for the request: that of the router, if it answers with one. -/
def decision_of (s : Server) (config : Fields) : Decision :=
  (classify s ((parse_auto_router_decision s.lib (.dict [])).toOption.getD
    ⟨"medium", "other", false, false, [], ""⟩) (named s.db (config.get "router_model_id" .null))).1

/-- The choice lands on an active normal model with an active provider if a field names one, on
that of the field that the decision selects if this one is active, and it says so if none is. -/
structure Lands (s : Server) (config : Fields)
    (result : Except Raised (Option Provider × Option Model × Option Routing)) : Prop where
  lands : (∃ field ∈ AUTO_ROUTER_TARGET_FIELDS, (named s.db (config.get field .null)).isSome) →
    ∃ row routing, result = .ok (some row.1, some row.2, some routing) ∧
      ∃ field ∈ AUTO_ROUTER_TARGET_FIELDS, named s.db (config.get field .null) = some row
  prefers : ∀ row, selected s.db config (decision_of s config) = some row →
    ∃ routing, result = .ok (some row.1, some row.2, some routing)
  fails : (¬∃ field ∈ AUTO_ROUTER_TARGET_FIELDS, (named s.db (config.get field .null)).isSome) →
    result = .error NO_TARGET

/-! ## Reading the fields -/

theorem coerce_pos {value : JsonValue} {model_id : Int}
    (h : _coerce_model_id value = .ok (some model_id)) : 0 < model_id := by
  have hpositive : ∀ n, positive n = some model_id → 0 < model_id := by
    intro n hn
    unfold positive at hn
    split at hn
    · cases hn
      assumption
    · cases hn
  cases value with
  | null | nan | infinity | minus_infinity | list | dict => cases h
  | bool b =>
    cases b with
    | false => cases h
    | true =>
      cases h
      decide
  | int n => exact hpositive n (Except.ok.inj h)
  | float x => exact hpositive _ (Except.ok.inj h)
  | str text =>
    have htext := Except.ok.inj h
    split at htext
    · cases htext
    · obtain ⟨n, -, hn⟩ := Option.bind_eq_some_iff.mp htext
      exact hpositive n hn

/-- What reading a field's model gives. -/
def lookup (db : Db) (value : JsonValue) : Except Raised (Option (Provider × Model)) := do
  let model_id ← _coerce_model_id value
  _get_active_normal_provider_model db model_id

theorem coerce_error {value : JsonValue} {e : Raised} (h : _coerce_model_id value = .error e) :
    e ≠ NO_TARGET := by
  cases value <;> cases h <;> decide

/-- A model is looked up by an id that is not 0. -/
theorem active_model_of_pos (db : Db) {model_id : Int} (h : 0 < model_id) :
    _get_active_normal_provider_model db (some model_id) =
      if MAX_INTEGER < model_id then .error .overflow_error
      else .ok ((active_row db model_id).filter fun row => !is_auto_router_model row.2) := by
  unfold _get_active_normal_provider_model
  split
  · rename_i hnone
    cases hnone
  · rename_i hzero
    cases hzero
    exact absurd h (lt_irrefl 0)
  · rename_i hsome
    cases hsome
    rfl

theorem lookup_readable (db : Db) {value : JsonValue} (h : readable value = true) :
    lookup db value = .ok (named db value) := by
  unfold readable at h
  unfold lookup named
  cases hcoerce : _coerce_model_id value with
  | error e =>
    rw [hcoerce] at h
    cases h
  | ok found =>
    cases found with
    | none => rfl
    | some model_id =>
      rw [hcoerce] at h
      have hle : ¬MAX_INTEGER < model_id := not_lt.mpr (of_decide_eq_true h)
      have hmodel := active_model_of_pos db (coerce_pos hcoerce)
      rw [if_neg hle] at hmodel
      exact hmodel

theorem lookup_unreadable (db : Db) {value : JsonValue} (h : readable value = false) :
    ∃ e, lookup db value = .error e ∧ e ≠ NO_TARGET := by
  unfold readable at h
  unfold lookup
  cases hcoerce : _coerce_model_id value with
  | error e => exact ⟨e, rfl, coerce_error hcoerce⟩
  | ok found =>
    cases found with
    | none =>
      rw [hcoerce] at h
      cases h
    | some model_id =>
      rw [hcoerce] at h
      have hlt : MAX_INTEGER < model_id := not_le.mp (of_decide_eq_false h)
      have hmodel := active_model_of_pos db (coerce_pos hcoerce)
      rw [if_pos hlt] at hmodel
      exact ⟨.overflow_error, hmodel, by decide⟩

theorem first_valid_cons (db : Db) (config : Fields) (field : String) (fields : List String) :
    _first_valid_auto_router_target db config (field :: fields) =
      (lookup db (config.get field .null)).bind fun found =>
        match found with
        | some row => .ok (some row)
        | none => _first_valid_auto_router_target db config fields := by
  rw [_first_valid_auto_router_target, lookup]
  cases _coerce_model_id (config.get field .null) <;> rfl

/-- A search that gives `found` if all the values that it reads can be read, and that raises
an error of its own if one of them can not. -/
structure Searches {α : Type} (all_readable : Prop) (result : Except Raised α) (found : α) :
    Prop where
  finds : all_readable → result = .ok found
  raises : ¬all_readable → ∃ e, result = .error e ∧ e ≠ NO_TARGET

theorem searches_congr {α : Type} {p q : Prop} {result : Except Raised α} {found : α}
    (hpq : q ↔ p) (h : Searches p result found) : Searches q result found :=
  ⟨fun hq => h.finds (hpq.mp hq), fun hq => h.raises (mt hpq.mpr hq)⟩

theorem lookup_searches (db : Db) (value : JsonValue) :
    Searches (readable value = true) (lookup db value) (named db value) :=
  ⟨lookup_readable db, fun h => lookup_unreadable db (Bool.eq_false_of_not_eq_true h)⟩

/-- All the fields can be read. -/
def AllReadable (config : Fields) (fields : List String) : Prop :=
  ∀ field ∈ fields, readable (config.get field .null) = true

theorem all_readable_cons (config : Fields) (field : String) (fields : List String) :
    AllReadable config (field :: fields) ↔
      readable (config.get field .null) = true ∧ AllReadable config fields :=
  List.forall_mem_cons

theorem all_readable_append (config : Fields) (fields rest : List String) :
    AllReadable config (fields ++ rest) ↔
      AllReadable config fields ∧ AllReadable config rest :=
  List.forall_mem_append

/-- The scan of the fields: it gets to the first that names an active model, if it can read
all fields up to this one. -/
theorem first_valid_searches (db : Db) (config : Fields) (fields : List String) :
    Searches
      (AllReadable config
        (up_to (fun field => (named db (config.get field .null)).isSome) fields))
      (_first_valid_auto_router_target db config fields)
      (fields.findSome? fun field => named db (config.get field .null)) := by
  induction fields with
  | nil => exact ⟨fun _ => rfl, fun h => absurd (fun _ hmem => nomatch hmem) h⟩
  | cons field fields ih =>
    have hlookup := lookup_searches db (config.get field .null)
    rw [first_valid_cons]
    by_cases hread : readable (config.get field .null) = true
    · rw [hlookup.finds hread, List.findSome?_cons, up_to]
      refine searches_congr (all_readable_cons config field _) ?_
      rcases hnamed : named db (config.get field .null) with _ | row
      · exact searches_congr (and_iff_right hread) ih
      · exact ⟨fun _ => rfl, fun h => absurd ⟨hread, fun _ hmem => nomatch hmem⟩ h⟩
    · obtain ⟨e, he, hne⟩ := hlookup.raises hread
      rw [he, up_to]
      exact ⟨fun h => absurd ((all_readable_cons config field _).mp h).1 hread,
        fun _ => ⟨e, rfl, hne⟩⟩

theorem first_id_cons (config : Fields) (field : String) (fields : List String) :
    first_id config (field :: fields) =
      (_coerce_model_id (config.get field .null)).bind fun found =>
        match found with
        | some model_id => .ok (some model_id)
        | none => first_id config fields := rfl

/-- The target of the first field with an id, if all fields up to it can be read. -/
theorem first_id_searches (db : Db) (config : Fields) (fields : List String) :
    Searches
      (AllReadable config (up_to (fun field => has_id (config.get field .null)) fields))
      ((first_id config fields).bind (_get_active_normal_provider_model db))
      ((fields.find? fun field => has_id (config.get field .null)).bind fun field =>
        named db (config.get field .null)) := by
  induction fields with
  | nil => exact ⟨fun _ => rfl, fun h => absurd (fun _ hmem => nomatch hmem) h⟩
  | cons field fields ih =>
    have hlookup := lookup_searches db (config.get field .null)
    rw [up_to]
    refine searches_congr (all_readable_cons config field _) ?_
    by_cases hid : has_id (config.get field .null) = true
    · -- the field has an id: its model is looked up, and the other fields are not read
      have hresult : (first_id config (field :: fields)).bind
          (_get_active_normal_provider_model db) = lookup db (config.get field .null) := by
        rw [first_id_cons, lookup]
        unfold has_id at hid
        split at hid
        · rename_i model_id hcoerce
          rw [hcoerce]
          rfl
        · cases hid
      simp only [hid, if_true, List.find?_cons, Option.bind_some, hresult]
      exact searches_congr (and_iff_left fun _ hmem => nomatch hmem) hlookup
    · have hresult : first_id config (field :: fields) =
          (lookup db (config.get field .null)).bind fun _ => first_id config fields := by
        rw [first_id_cons, lookup]
        unfold has_id at hid
        split at hid
        · exact absurd rfl hid
        · rename_i hnone
          cases hcoerce : _coerce_model_id (config.get field .null) with
          | error e => rfl
          | ok found =>
            cases found with
            | none => rfl
            | some model_id => exact absurd hcoerce (hnone model_id)
      simp only [hid, Bool.false_eq_true, if_false, List.find?_cons, hresult]
      by_cases hread : readable (config.get field .null) = true
      · rw [hlookup.finds hread]
        exact searches_congr (and_iff_right hread) ih
      · obtain ⟨e, he, hne⟩ := hlookup.raises hread
        rw [he]
        exact ⟨fun h => absurd h.1 hread, fun _ => ⟨e, rfl, hne⟩⟩

/-- A value that is kept if it is an id: this is one step of `first_id`. -/
theorem first_id_step (config : Fields) (field : String) (fields : List String) :
    (do
      let found ← _coerce_model_id (config.get field .null)
      if found.isSome then return found
      first_id config fields) = first_id config (field :: fields) := by
  rw [first_id_cons]
  cases _coerce_model_id (config.get field .null) with
  | error e => rfl
  | ok found => cases found <;> rfl

theorem select_eq_first_id (config : Fields) (decision : Decision) :
    select_auto_router_target_id config decision = first_id config (chain decision) := by
  unfold select_auto_router_target_id chain
  cases decision.needs_vision <;> cases decision.needs_research
  case false.false => rfl
  case true.false => exact first_id_step config "vision_model_id" _
  case false.true => exact first_id_step config "research_model_id" _
  case true.true =>
    have hresearch := first_id_step config "research_model_id"
      (difficulty_key decision :: "fallback_model_id" :: AUTO_ROUTER_TARGET_FIELDS)
    refine Eq.trans ?_ (first_id_step config "vision_model_id" ("research_model_id" ::
      difficulty_key decision :: "fallback_model_id" :: AUTO_ROUTER_TARGET_FIELDS))
    rw [← hresearch]
    rfl

/-! ## The target -/

theorem find_target_eq (s : Server) (config : Fields) (decision : Decision) :
    find_target s config decision =
      (((first_id config (chain decision)).bind (_get_active_normal_provider_model s.db)).bind
        fun found =>
          match found with
          | some target => .ok (some target)
          | none => _first_valid_auto_router_target s.db config AUTO_ROUTER_TARGET_FIELDS) := by
  unfold find_target
  rw [select_eq_first_id]
  cases first_id config (chain decision) <;> rfl

/-- The fields that the choice of the target reads. -/
def target_fields (db : Db) (config : Fields) (decision : Decision) : List String :=
  up_to (fun field => has_id (config.get field .null)) (chain decision) ++
    if (selected db config decision).isSome then []
    else up_to (fun field => (named db (config.get field .null)).isSome) AUTO_ROUTER_TARGET_FIELDS

theorem find_target_searches (s : Server) (config : Fields) (decision : Decision) :
    Searches (AllReadable config (target_fields s.db config decision))
      (find_target s config decision)
      ((selected s.db config decision).or
        (AUTO_ROUTER_TARGET_FIELDS.findSome? fun field =>
          named s.db (config.get field .null))) := by
  have hfirst := first_id_searches s.db config (chain decision)
  have hrest := first_valid_searches s.db config AUTO_ROUTER_TARGET_FIELDS
  rw [find_target_eq]
  refine searches_congr (all_readable_append config _ _) ?_
  by_cases hread : AllReadable config
      (up_to (fun field => has_id (config.get field .null)) (chain decision))
  · rw [hfirst.finds hread]
    change Searches _ (match selected s.db config decision with
      | some target => .ok (some target)
      | none => _first_valid_auto_router_target s.db config AUTO_ROUTER_TARGET_FIELDS) _
    rcases selected s.db config decision with _ | row
    · exact searches_congr (and_iff_right hread) hrest
    · exact ⟨fun _ => rfl, fun h => absurd ⟨hread, fun _ hmem => nomatch hmem⟩ h⟩
  · obtain ⟨e, he, hne⟩ := hfirst.raises hread
    rw [he]
    exact ⟨fun h => absurd h.1 hread, fun _ => ⟨e, rfl, hne⟩⟩

theorem chain_subset (decision : Decision) : chain decision ⊆ AUTO_ROUTER_TARGET_FIELDS := by
  have hkey : difficulty_key decision ∈ AUTO_ROUTER_TARGET_FIELDS := by
    unfold difficulty_key
    split
    · rename_i hword
      simp only [List.mem_cons, List.not_mem_nil, or_false] at hword
      rcases hword with h | h | h <;> rw [h] <;> decide
    · decide
  intro field hmem
  simp only [chain, List.mem_append, List.mem_cons] at hmem
  rcases hmem with (hvision | hresearch) | hrest
  · split at hvision
    · rw [List.mem_singleton.mp hvision]
      decide
    · cases hvision
  · split at hresearch
    · rw [List.mem_singleton.mp hresearch]
      decide
    · cases hresearch
  · rcases hrest with rfl | rfl | htarget
    · exact hkey
    · decide
    · exact htarget

/-- Some target field names an active normal model. -/
def NamesOne (db : Db) (config : Fields) : Prop :=
  ∃ field ∈ AUTO_ROUTER_TARGET_FIELDS, (named db (config.get field .null)).isSome

theorem selected_named {db : Db} {config : Fields} {decision : Decision}
    {row : Provider × Model} (h : selected db config decision = some row) :
    ∃ field ∈ AUTO_ROUTER_TARGET_FIELDS, named db (config.get field .null) = some row := by
  obtain ⟨field, hfound, hrow⟩ := Option.bind_eq_some_iff.mp h
  exact ⟨field, chain_subset decision (List.mem_of_find?_eq_some hfound), hrow⟩

/-- The row of the target, where all fields can be read. -/
def target_of (db : Db) (config : Fields) (decision : Decision) : Option (Provider × Model) :=
  (selected db config decision).or
    (AUTO_ROUTER_TARGET_FIELDS.findSome? fun field => named db (config.get field .null))

theorem target_of_named {db : Db} {config : Fields} {decision : Decision}
    {row : Provider × Model} (h : target_of db config decision = some row) :
    ∃ field ∈ AUTO_ROUTER_TARGET_FIELDS, named db (config.get field .null) = some row := by
  unfold target_of at h
  cases hselected : selected db config decision with
  | some found =>
    rw [hselected] at h
    cases h
    exact selected_named hselected
  | none =>
    rw [hselected] at h
    exact List.exists_of_findSome?_eq_some h

theorem target_of_isSome {db : Db} {config : Fields} (decision : Decision)
    (h : NamesOne db config) : ∃ row, target_of db config decision = some row := by
  obtain ⟨field, hmem, hnamed⟩ := h
  have hfound : (AUTO_ROUTER_TARGET_FIELDS.findSome? fun field =>
      named db (config.get field .null)).isSome := List.findSome?_isSome_iff.mpr
    ⟨field, hmem, hnamed⟩
  have hor : (target_of db config decision).isSome := by
    unfold target_of
    rw [Option.isSome_or, hfound, Bool.or_true]
  exact Option.isSome_iff_exists.mp hor

/-! ## The whole choice -/

/-- The result that stands for a target. -/
def Landed (result : Except Raised (Option Provider × Option Model × Option Routing)) :
    Option (Provider × Model) → Prop
  | none => result = .error NO_TARGET
  | some row => ∃ routing, result = .ok (some row.1, some row.2, some routing)

theorem resolve_eq (s : Server) (selected_provider : Option Provider) {selected_model : Model}
    (h : is_auto_router_model selected_model = true) :
    let config := get_auto_router_config selected_model
    (∀ e, find_router s config = .error e →
      resolve_model_for_completion s selected_provider (some selected_model) = .error e) ∧
    (find_router s config = .ok (named s.db (config.get "router_model_id" .null)) →
      (∀ e, find_target s config (decision_of s config) = .error e →
        resolve_model_for_completion s selected_provider (some selected_model) = .error e) ∧
      ∀ found, find_target s config (decision_of s config) = .ok found →
        Landed (resolve_model_for_completion s selected_provider (some selected_model)) found) := by
  intro config
  have hfilter : (some selected_model).filter is_auto_router_model = some selected_model :=
    Option.filter_some_pos h
  refine ⟨?_, fun hrouter => ⟨?_, ?_⟩⟩
  · intro e he
    unfold resolve_model_for_completion
    rw [hfilter]
    change (find_router s config).bind _ = _
    rw [he]
    rfl
  · intro e he
    unfold resolve_model_for_completion
    rw [hfilter]
    change (find_router s config).bind _ = _
    rw [hrouter]
    change (find_target s config (decision_of s config)).bind _ = _
    rw [he]
    rfl
  · intro found hfound
    unfold resolve_model_for_completion
    rw [hfilter]
    change Landed ((find_router s config).bind _) _
    rw [hrouter]
    change Landed ((find_target s config (decision_of s config)).bind _) _
    rw [hfound]
    cases found with
    | none => rfl
    | some row => exact ⟨_, rfl⟩

theorem resolve_searches (s : Server) (selected_provider : Option Provider)
    {selected_model : Model} (h : is_auto_router_model selected_model = true) :
    let config := get_auto_router_config selected_model
    let result := resolve_model_for_completion s selected_provider (some selected_model)
    (AllReadable config (looked_at s.db config (decision_of s config)) →
      Landed result (target_of s.db config (decision_of s config))) ∧
    (¬AllReadable config (looked_at s.db config (decision_of s config)) →
      ∃ e, result = .error e ∧ e ≠ NO_TARGET) := by
  intro config result
  obtain ⟨hrouter_error, hrouter_ok⟩ := resolve_eq s selected_provider h
  have hrouter := lookup_searches s.db (config.get "router_model_id" .null)
  have htarget := find_target_searches s config (decision_of s config)
  have hfields : AllReadable config (looked_at s.db config (decision_of s config)) ↔
      readable (config.get "router_model_id" .null) = true ∧
        AllReadable config (target_fields s.db config (decision_of s config)) :=
    all_readable_cons config _ _
  by_cases hread : readable (config.get "router_model_id" .null) = true
  · obtain ⟨herror, hok⟩ := hrouter_ok (hrouter.finds hread)
    rw [hfields]
    refine ⟨fun hall => hok _ (htarget.finds hall.2), fun hnot => ?_⟩
    obtain ⟨e, he, hne⟩ := htarget.raises fun hall => hnot ⟨hread, hall⟩
    exact ⟨e, herror e he, hne⟩
  · obtain ⟨e, he, hne⟩ := hrouter.raises hread
    rw [hfields]
    exact ⟨fun hall => absurd hall.1 hread, fun _ => ⟨e, hrouter_error e he, hne⟩⟩

/-- The choice keeps its promise exactly if the fields that it reads can be read. -/
theorem resolve_lands_iff (s : Server) (selected_provider : Option Provider)
    {selected_model : Model} (h : is_auto_router_model selected_model = true) :
    let config := get_auto_router_config selected_model
    Lands s config (resolve_model_for_completion s selected_provider (some selected_model)) ↔
      AllReadable config (looked_at s.db config (decision_of s config)) := by
  intro config
  obtain ⟨hread, hunread⟩ := resolve_searches s selected_provider h
  constructor
  · intro hlands
    by_contra hnot
    obtain ⟨e, he, hne⟩ := hunread hnot
    by_cases hone : NamesOne s.db config
    · obtain ⟨row, routing, hresult, -⟩ := hlands.lands hone
      rw [he] at hresult
      cases hresult
    · exact hne (Except.error.inj (he.symm.trans (hlands.fails hone)))
  · intro hall
    have hlanded := hread hall
    refine ⟨fun hone => ?_, fun row hrow => ?_, fun hnone => ?_⟩
    · obtain ⟨row, hrow⟩ := target_of_isSome (decision_of s config) hone
      rw [hrow] at hlanded
      obtain ⟨routing, hresult⟩ := hlanded
      exact ⟨row, routing, hresult, target_of_named hrow⟩
    · have htarget : target_of s.db config (decision_of s config) = some row := by
        unfold target_of
        rw [hrow]
        rfl
      rw [htarget] at hlanded
      exact hlanded
    · cases htarget : target_of s.db config (decision_of s config) with
      | none =>
        rw [htarget] at hlanded
        exact hlanded
      | some row =>
        obtain ⟨field, hmem, hnamed⟩ := target_of_named htarget
        exact absurd ⟨field, hmem, Option.isSome_of_eq_some hnamed⟩ hnone

/-! ## The check -/

theorem configured_mem (config : Fields) {fields : List String}
    {configured : List (String × Option Int)}
    (h : (fields.mapM fun field => do
      return (field, ← _coerce_model_id (config.get field .null))) = .ok configured) :
    (∀ field ∈ fields, ∃ x ∈ configured, x.1 = field) ∧
      ∀ x ∈ configured, _coerce_model_id (config.get x.1 .null) = .ok x.2 := by
  induction fields generalizing configured with
  | nil =>
    cases h
    exact ⟨List.forall_mem_nil _, List.forall_mem_nil _⟩
  | cons field fields ih =>
    rw [List.mapM_cons] at h
    cases hcoerce : _coerce_model_id (config.get field .null) with
    | error e =>
      rw [hcoerce] at h
      cases h
    | ok model_id =>
      rw [hcoerce] at h
      cases hrest : (fields.mapM fun field => do
          return (field, ← _coerce_model_id (config.get field .null)) :
          Except Raised (List (String × Option Int))) with
      | error e =>
        simp only [bind, Except.bind, pure, Except.pure] at h hrest
        rw [hrest] at h
        cases h
      | ok rest =>
        obtain ⟨hfields, hvalues⟩ := ih hrest
        simp only [bind, Except.bind, pure, Except.pure] at h hrest
        rw [hrest] at h
        cases h
        constructor
        · intro other hmem
          rcases List.mem_cons.mp hmem with rfl | hmem
          · exact ⟨_, List.mem_cons_self, rfl⟩
          · obtain ⟨x, hx, heq⟩ := hfields other hmem
            exact ⟨x, List.mem_cons_of_mem _ hx, heq⟩
        · intro x hmem
          rcases List.mem_cons.mp hmem with rfl | hmem
          · exact hcoerce
          · exact hvalues x hmem

/-- What a check without errors has seen: some target field has an id, no id is too great for
the store, and every id is that of an active normal model. -/
theorem checked {db : Db} {config : Fields} {current_model_id : Option Int}
    {configured : List (String × Option Int)} (hconfigured : configured_ids config = .ok configured)
    (h : validate_auto_router_config db (.dict config) current_model_id = .ok []) :
    (∃ x ∈ configured, x.1 ∈ AUTO_ROUTER_TARGET_FIELDS ∧ x.2.isSome) ∧
      ∀ x ∈ configured, ∀ model_id, x.2 = some model_id →
        model_id ≤ MAX_INTEGER ∧ no_target db model_id = false := by
  simp only [validate_auto_router_config, hconfigured, bind, Except.bind, pure, Except.pure] at h
  split at h
  · rename_i hempty
    obtain ⟨herrors, -⟩ := List.append_eq_nil_iff.mp (Except.ok.inj h)
    have htarget := (List.append_eq_nil_iff.mp herrors).2
    split at htarget
    · rename_i hany
      obtain ⟨x, hx, hsome⟩ := List.any_eq_true.mp hany
      obtain ⟨model_id, hid⟩ := Option.isSome_iff_exists.mp hsome
      have hmem : model_id ∈ configured.filterMap Prod.snd :=
        List.mem_filterMap.mpr ⟨x, (List.mem_filter.mp hx).1, hid⟩
      rw [hempty] at hmem
      cases hmem
    · cases htarget
  · split at h
    · cases h
    · rename_i hstored
      obtain ⟨hall, hactive⟩ := List.append_eq_nil_iff.mp (Except.ok.inj h)
      obtain ⟨herrors, -⟩ := List.append_eq_nil_iff.mp hall
      have htarget := (List.append_eq_nil_iff.mp herrors).2
      constructor
      · split at htarget
        · rename_i hany
          obtain ⟨x, hx, hsome⟩ := List.any_eq_true.mp hany
          obtain ⟨hmem, hfield⟩ := List.mem_filter.mp hx
          exact ⟨x, hmem, of_decide_eq_true hfield, hsome⟩
        · cases htarget
      · intro x hx model_id hid
        constructor
        · by_contra hgreat
          exact hstored (List.any_eq_true.mpr ⟨model_id, List.mem_filterMap.mpr ⟨x, hx, hid⟩,
            decide_eq_true (not_le.mp hgreat)⟩)
        · have hnot := List.filter_eq_nil_iff.mp (List.map_eq_nil_iff.mp hactive) x hx
          rw [hid] at hnot
          exact Bool.eq_false_of_not_eq_true hnot

/-- A configuration without errors: all its fields can be read, every id that it has is that of
an active normal model, and a target field has one. -/
theorem validated {db : Db} {config : Fields} {current_model_id : Option Int}
    (h : validate_auto_router_config db (.dict config) current_model_id = .ok []) :
    AllReadable config AUTO_ROUTER_MODEL_ID_FIELDS ∧ NamesOne db config := by
  cases hconfigured : configured_ids config with
  | error e =>
    simp only [validate_auto_router_config, hconfigured] at h
    cases h
  | ok configured =>
    obtain ⟨hfields, hvalues⟩ := configured_mem config hconfigured
    obtain ⟨⟨x, hx, htarget, hsome⟩, hids⟩ := checked hconfigured h
    constructor
    · intro field hfield
      obtain ⟨y, hy, rfl⟩ := hfields field hfield
      have hvalue := hvalues y hy
      unfold readable
      rw [hvalue]
      rcases hid : y.2 with _ | model_id
      · rfl
      · exact decide_eq_true (hids y hy model_id hid).1
    · obtain ⟨model_id, hid⟩ := Option.isSome_iff_exists.mp hsome
      have hnot := (hids x hx model_id hid).2
      refine ⟨x.1, htarget, ?_⟩
      unfold named
      rw [hvalues x hx, hid]
      rw [no_target, ← Option.not_isSome, Bool.not_eq_false'] at hnot
      exact hnot

theorem up_to_subset (p : String → Bool) (fields : List String) : up_to p fields ⊆ fields := by
  induction fields with
  | nil => exact List.Subset.refl []
  | cons field fields ih =>
    rw [up_to]
    split
    · exact List.cons_subset_cons field (List.nil_subset fields)
    · exact List.cons_subset_cons field ih

theorem looked_at_subset (db : Db) (config : Fields) (decision : Decision) :
    looked_at db config decision ⊆ AUTO_ROUTER_MODEL_ID_FIELDS := by
  have htargets : AUTO_ROUTER_TARGET_FIELDS ⊆ AUTO_ROUTER_MODEL_ID_FIELDS :=
    List.subset_cons_self _ _
  intro field hmem
  rcases List.mem_cons.mp hmem with rfl | hmem
  · exact List.mem_cons_self
  · rcases List.mem_append.mp hmem with hchain | hscan
    · exact htargets (chain_subset decision (up_to_subset _ _ hchain))
    · split at hscan
      · cases hscan
      · exact htargets (up_to_subset _ _ hscan)

/-- LAW: the automatic choice lands on an active normal model if a target field names one, on
the one that the decision selects if this one is active, and says that there is none otherwise,
exactly if the fields that it looks at can be read. This is so for each configuration that the
check finds no error in, as long as the models that it names stay active. -/
theorem the_choice_lands_exactly_if_its_fields_can_be_read (s : Server)
    (selected_provider : Option Provider) (selected_model : Model)
    (h : is_auto_router_model selected_model = true) :
    let config := get_auto_router_config selected_model
    let result := resolve_model_for_completion s selected_provider (some selected_model)
    (Lands s config result ↔
      ∀ field ∈ looked_at s.db config (decision_of s config),
        readable (config.get field .null) = true) ∧
    ∀ db current_model_id,
      validate_auto_router_config db
        (Fields.get (_model_capabilities selected_model) "auto_router" .null)
        current_model_id = .ok [] →
      (∀ field ∈ AUTO_ROUTER_MODEL_ID_FIELDS, (named db (config.get field .null)).isSome →
        (named s.db (config.get field .null)).isSome) →
      Lands s config result ∧
        ∃ (row : Provider × Model) (routing : Routing),
          result = .ok (some row.1, some row.2, some routing) := by
  intro config result
  have hiff := resolve_lands_iff s selected_provider h
  refine ⟨hiff, ?_⟩
  intro db current_model_id hvalid hactive
  have hdict : Fields.get (_model_capabilities selected_model) "auto_router" .null =
      .dict config := by
    change _ = JsonValue.dict (get_auto_router_config selected_model)
    unfold get_auto_router_config
    generalize Fields.get (_model_capabilities selected_model) "auto_router" .null = value
      at hvalid ⊢
    cases value with
    | dict fields => rfl
    | _ => cases hvalid
  rw [hdict] at hvalid
  obtain ⟨hread, field, hmem, hnamed⟩ := validated hvalid
  have hlands : Lands s config result :=
    hiff.mpr fun field hfield => hread field (looked_at_subset _ _ _ hfield)
  obtain ⟨row, routing, hresult, -⟩ :=
    hlands.lands ⟨field, hmem, hactive field (List.mem_cons_of_mem _ hmem) hnamed⟩
  exact ⟨hlands, row, routing, hresult⟩

/-- A small server: one active model, whose provider is active. -/
def ONE_MODEL : Server where
  db := { models := [⟨1, by decide, "small", some 7, some true, .null⟩]
          providers := [⟨7, some true⟩] }
  lib := { loads := fun _ => .error .value_error
           lower := id
           str := fun _ => .ok "" }
  text := fun _ => ""
  request_chat_completion := fun _ _ => .error "timeout"

/-- An automatic model with a configuration. -/
def router_of (config : Fields) : Model :=
  ⟨2, by decide, "auto", none, some true,
    .dict [("model_type", .str "auto_router"), ("auto_router", .dict config)]⟩

theorem a_small_configuration_lands :
    Lands ONE_MODEL [("router_model_id", .int 1), ("easy_model_id", .int 1)]
      (resolve_model_for_completion ONE_MODEL none
        (some (router_of [("router_model_id", .int 1), ("easy_model_id", .int 1)]))) :=
  (the_choice_lands_exactly_if_its_fields_can_be_read ONE_MODEL none
    (router_of [("router_model_id", .int 1), ("easy_model_id", .int 1)]) (by decide)).1.mpr
    (by decide)

/-- A list as the id of the router: the choice raises a TypeError, though the easy model is
active. -/
theorem a_list_as_router_raises :
    let config : Fields := [("router_model_id", .list [.int 1]), ("easy_model_id", .int 1)]
    let result := resolve_model_for_completion ONE_MODEL none (some (router_of config))
    result = .error .type_error ∧ NamesOne ONE_MODEL.db config ∧
      ¬Lands ONE_MODEL config result := by
  have hone : NamesOne ONE_MODEL.db
      [("router_model_id", .list [.int 1]), ("easy_model_id", .int 1)] :=
    ⟨"easy_model_id", by decide, by decide⟩
  refine ⟨rfl, hone, fun hlands => ?_⟩
  obtain ⟨row, routing, hresult, -⟩ := hlands.lands hone
  cases hresult

end dr_boz.auto_routing
