-- The tools of a chat: `get_chat_tools` of `llm.py` with its bindings and the
-- limits of the user's plan, and the two paths that hand tools to a model:
-- the Codex loop takes these tools only, the agent puts its static tools and
-- the tools of a project before them.
import DrBoz.CodexCapacity

open keyed_table dr_boz.py dr_boz.models dr_boz.codex_capacity

namespace dr_boz.chat_tools

/-! ## The tables -/

structure Tool where
  id : Nat := 0
  name : String
  is_active : Option Bool := some true
  is_builtin : Option Bool := some false
deriving DecidableEq

instance : Row Tool String :=
  ⟨(·.id), fun a n => { a with id := n }, fun a => some a.name, fun _ _ => rfl, fun _ _ => rfl⟩

structure ToolBinding where
  id : Nat := 0
  tool_id : Nat
  scope_type : Option String := some "global"
  scope_id : Option Int := none
  is_enabled : Option Bool := some true
deriving DecidableEq

instance : Row ToolBinding Empty :=
  ⟨(·.id), fun a n => { a with id := n }, fun _ => none, fun _ _ => rfl, fun _ _ => rfl⟩

/-- The columns of a plan that limit the tools. -/
structure PlanTools where
  id : Nat
  is_agentic : Option Bool := some true
  allowed_tools_json : Option (List String) := none
deriving DecidableEq

structure Chat where
  id : Int
  project_id : Option Int
  user_preference_id : Option Nat
deriving DecidableEq

structure ToolsDb where
  tools : Table Tool
  bindings : Table ToolBinding
  subscriptions : Table UserSubscription
  plans : List PlanTools

/-! ## The tools of the server itself -/

/-- The keys of `BUILTIN_TOOLS`. -/
def BUILTIN_TOOLS : List String :=
  ["image_generator", "calculator", "web_search", "pdf_generator", "save_user_preference",
    "search_project", "search_project_queries", "list_project_files", "read_skill",
    "read_skill_file", "send_file", "chart_generator"]

/-- A tool of the server gets its row, or its row is marked. -/
def ensure_builtin_tool (tools : Table Tool) (name : String) : Table Tool :=
  match tools.first fun tool => tool.name = name with
  | some tool =>
    tools.update tool.id ({ · with is_builtin := some true }) (fun _ => rfl) fun _ => rfl
  | none => tools.insert { name, is_active := some true, is_builtin := some true }

def ensure_builtin_tools (db : ToolsDb) : ToolsDb :=
  { db with tools := BUILTIN_TOOLS.foldl ensure_builtin_tool db.tools }

/-- A tool of the server without a binding gets a global one. -/
def ensure_binding (bindings : Table ToolBinding) (tool : Tool) : Table ToolBinding :=
  if (bindings.first fun binding => binding.tool_id = tool.id).isSome then bindings
  else bindings.insert { tool_id := tool.id, is_enabled := some true }

def ensure_builtin_tool_bindings (db : ToolsDb) : ToolsDb :=
  let db := ensure_builtin_tools db
  let builtin_tools := db.tools.rows.filter fun tool => tool.name ∈ BUILTIN_TOOLS
  { db with bindings := builtin_tools.foldl ensure_binding db.bindings }

/-! ## `get_chat_tools` -/

/-- One of the filters selects the binding. -/
def in_scope (chat : Chat) (binding : ToolBinding) : Bool :=
  binding.scope_type = some "global" ||
    (chat.project_id.isSome && binding.scope_type = some "project" &&
      binding.scope_id = chat.project_id) ||
    (binding.scope_type = some "chat" && binding.scope_id = some chat.id)

/-- The rows of the query, the newest binding first. -/
def bound_tools (db : ToolsDb) (chat : Chat) : List (ToolBinding × Tool) :=
  let bindings := db.bindings.rows.filter fun binding =>
    binding.is_enabled = some true && in_scope chat binding
  (bindings.mergeSort fun a b => b.id ≤ a.id).filterMap fun binding =>
    match db.tools.get binding.tool_id with
    | some tool => if tool.is_active = some true then some (binding, tool) else none
    | none => none

/-- `resolved`: the first pair of each name. -/
def resolve (pairs : List (ToolBinding × Tool)) : List (ToolBinding × Tool) :=
  pairs.foldl (fun resolved pair =>
    if resolved.any fun p => p.2.name = pair.2.name then resolved else resolved ++ [pair]) []

-- The order of the whole numbers that can be computed.
local instance : Preorder Datetime := Int.instLinearOrder.toPreorder

/-- The plan of the active subscription that ends last. -/
def active_plan (now : Datetime) (db : ToolsDb) (user_id : Nat) : Option PlanTools := do
  let sub ← (db.subscriptions.rows.filter fun u =>
    u.user_id = user_id && active_at now u).argmax (·.expires_at)
  db.plans.find? fun plan => plan.id = sub.plan_id

/-- The pairs that the plan leaves. -/
def restrict (plan : PlanTools) (pairs : List (ToolBinding × Tool)) :
    List (ToolBinding × Tool) :=
  if plan.is_agentic ≠ some true then []
  else
    match plan.allowed_tools_json with
    | some allowed => pairs.filter fun pair => pair.2.name ∈ allowed
    | none => pairs

/-- The tools of the chat, after the tools of the server were made sure of. -/
def get_chat_tools (now : Datetime) (db : ToolsDb) (chat : Chat) : List (ToolBinding × Tool) :=
  let resolved := resolve (bound_tools (ensure_builtin_tool_bindings db) chat)
  match chat.user_preference_id.bind (active_plan now db) with
  | some plan => restrict plan resolved
  | none => resolved

/-! ## The two paths -/

/-- `tools_list` of `agent/tools.py`. -/
def STATIC_TOOLS : List String :=
  ["web_search", "run_python", "pdf_generator", "image_generator", "read_skill",
    "read_skill_file", "send_file", "chart_generator"]

/-- The tools that `event_generator` makes for a project. -/
def PROJECT_TOOLS : List String := ["search_project_context", "list_project_files"]

/-- A tool that a model gets, with where it comes from. -/
inductive Given where
  | static (name : String)
  | project (name : String) (project_id : Int)
  | dynamic (binding : ToolBinding) (tool : Tool)
deriving DecidableEq

def Given.name : Given → String
  | .static name => name
  | .project name _ => name
  | .dynamic _ tool => tool.name

/-- `disabled_builtin_tool_names`, read after the tools of the chat. -/
def disabled_builtin_tool_names (db : ToolsDb) : List String :=
  ((ensure_builtin_tool_bindings db).tools.rows.filter fun tool =>
    tool.is_builtin = some true && tool.is_active = some false).map (·.name)

/-- `project_id or chat.project_id`, if it is truthy. -/
def effective_project_id (project_id : Option Int) (chat : Chat) : Option Int :=
  let effective := if project_id.getD 0 ≠ 0 then project_id else chat.project_id
  effective.filter (· ≠ 0)

/-- The `custom_tools` of a chat. `creates` tells for which tools `create_dynamic_tool` does not
raise. -/
def custom_tools (now : Datetime) (creates : Tool → Bool) (project_id : Option Int) (db : ToolsDb)
    (chat : Chat) : List Given :=
  (match effective_project_id project_id chat with
    | some id => PROJECT_TOOLS.map fun name => .project name id
    | none => []) ++
  ((get_chat_tools now db chat).filter fun pair => creates pair.2).map fun pair =>
    .dynamic pair.1 pair.2

/-- The tools that `get_agent_executor` hands to the model. -/
def agent_tools (now : Datetime) (creates : Tool → Bool) (project_id : Option Int) (db : ToolsDb)
    (chat : Chat) : List Given :=
  ((STATIC_TOOLS.filter fun name => name ∉ disabled_builtin_tool_names db).map .static) ++
    custom_tools now creates project_id db chat

/-- The tools that the Codex loop runs. -/
def codex_tools (now : Datetime) (db : ToolsDb) (chat : Chat) : List Given :=
  (get_chat_tools now db chat).map fun pair => .dynamic pair.1 pair.2

/-! ## What is allowed -/

/-- The tool is active, bound in the scope of the chat, and left by the plan of the user. -/
structure Permitted (now : Datetime) (db : ToolsDb) (chat : Chat) (binding : ToolBinding)
    (tool : Tool) : Prop where
  bound : binding ∈ (ensure_builtin_tool_bindings db).bindings.rows
  tool_of : (ensure_builtin_tool_bindings db).tools.get binding.tool_id = some tool
  enabled : binding.is_enabled = some true
  scope : in_scope chat binding = true
  active : tool.is_active = some true
  plan : ∀ plan, chat.user_preference_id.bind (active_plan now db) = some plan →
    plan.is_agentic = some true ∧
      ∀ allowed, plan.allowed_tools_json = some allowed → tool.name ∈ allowed

/-- A tool of the chat's own project, or one that is permitted. -/
def Allowed (now : Datetime) (db : ToolsDb) (chat : Chat) : Given → Prop
  | .static _ => False
  | .project name project_id => name ∈ PROJECT_TOOLS ∧ chat.project_id = some project_id
  | .dynamic binding tool => Permitted now db chat binding tool

/-- The names differ, and each tool is allowed. -/
def OnlyAllowed (now : Datetime) (db : ToolsDb) (chat : Chat) (given : List Given) : Prop :=
  (given.map Given.name).Nodup ∧ ∀ g ∈ given, Allowed now db chat g

/-! ## What `get_chat_tools` gives -/

theorem mem_bound_tools {db : ToolsDb} {chat : Chat} {pair : ToolBinding × Tool}
    (h : pair ∈ bound_tools db chat) :
    pair.1 ∈ db.bindings.rows ∧ db.tools.get pair.1.tool_id = some pair.2 ∧
      pair.1.is_enabled = some true ∧ in_scope chat pair.1 = true ∧
      pair.2.is_active = some true := by
  unfold bound_tools at h
  simp only [List.mem_filterMap, List.mem_mergeSort, List.mem_filter, Bool.and_eq_true,
    decide_eq_true_eq] at h
  obtain ⟨binding, ⟨hmem, henabled, hscope⟩, hpair⟩ := h
  split at hpair
  · rename_i tool htool
    split at hpair
    · rename_i hactive
      cases hpair
      exact ⟨hmem, htool, henabled, hscope, hactive⟩
    · cases hpair
  · cases hpair

/-- A pair is taken up if its name is new: the names stay different. -/
theorem resolve_spec (pairs : List (ToolBinding × Tool)) :
    ((resolve pairs).map fun p => p.2.name).Nodup ∧ ∀ p ∈ resolve pairs, p ∈ pairs := by
  unfold resolve
  induction pairs using List.reverseRecOn with
  | nil => simp
  | append_singleton pairs pair ih =>
    obtain ⟨hnodup, hmem⟩ := ih
    rw [List.foldl_append]
    simp only [List.foldl_cons, List.foldl_nil]
    split
    · exact ⟨hnodup, fun p hp => List.mem_append_left _ (hmem p hp)⟩
    · rename_i hnew
      refine ⟨?_, ?_⟩
      · rw [List.map_append, List.nodup_append]
        refine ⟨hnodup, by simp, ?_⟩
        intro name hname name' hname' heq
        obtain ⟨p, hp, hpname⟩ := List.mem_map.mp hname
        simp only [List.map_cons, List.map_nil, List.mem_singleton] at hname'
        refine hnew (List.any_eq_true.mpr ⟨p, hp, decide_eq_true ?_⟩)
        rw [hpname, heq, hname']
      · intro p hp
        rcases List.mem_append.mp hp with hp | hp
        · exact List.mem_append_left _ (hmem p hp)
        · exact List.mem_append_right _ hp

theorem restrict_sublist (plan : PlanTools) (pairs : List (ToolBinding × Tool)) :
    (restrict plan pairs).Sublist pairs := by
  unfold restrict
  split
  · exact List.nil_sublist _
  · split
    · exact List.filter_sublist
    · exact List.Sublist.refl _

theorem mem_restrict {plan : PlanTools} {pairs : List (ToolBinding × Tool)}
    {pair : ToolBinding × Tool} (h : pair ∈ restrict plan pairs) :
    plan.is_agentic = some true ∧
      ∀ allowed, plan.allowed_tools_json = some allowed → pair.2.name ∈ allowed := by
  unfold restrict at h
  split at h
  · simp at h
  · rename_i hagentic
    refine ⟨not_not.mp hagentic, ?_⟩
    intro allowed hallowed
    rw [hallowed] at h
    simpa using (List.mem_filter.mp h).2

/-- The tools of a chat are part of what the bindings resolve to. -/
theorem get_chat_tools_sublist (now : Datetime) (db : ToolsDb) (chat : Chat) :
    (get_chat_tools now db chat).Sublist
      (resolve (bound_tools (ensure_builtin_tool_bindings db) chat)) := by
  unfold get_chat_tools
  simp only
  split
  · exact restrict_sublist _ _
  · exact List.Sublist.refl _

theorem get_chat_tools_names (now : Datetime) (db : ToolsDb) (chat : Chat) :
    ((get_chat_tools now db chat).map fun p => p.2.name).Nodup :=
  ((get_chat_tools_sublist now db chat).map _).nodup (resolve_spec _).1

/-- Each tool of a chat is permitted. -/
theorem get_chat_tools_permitted {now : Datetime} {db : ToolsDb} {chat : Chat}
    {pair : ToolBinding × Tool} (h : pair ∈ get_chat_tools now db chat) :
    Permitted now db chat pair.1 pair.2 := by
  have hbound := (resolve_spec _).2 pair ((get_chat_tools_sublist now db chat).subset h)
  obtain ⟨hmem, htool, henabled, hscope, hactive⟩ := mem_bound_tools hbound
  refine ⟨hmem, htool, henabled, hscope, hactive, ?_⟩
  intro plan hplan
  unfold get_chat_tools at h
  rw [hplan] at h
  exact mem_restrict h

/-! ## The tools that the model gets -/

theorem codex_tools_allowed (now : Datetime) (db : ToolsDb) (chat : Chat) :
    OnlyAllowed now db chat (codex_tools now db chat) := by
  unfold OnlyAllowed codex_tools
  refine ⟨?_, ?_⟩
  · rw [List.map_map]
    exact get_chat_tools_names now db chat
  · intro g hg
    obtain ⟨pair, hpair, rfl⟩ := List.mem_map.mp hg
    exact get_chat_tools_permitted hpair

/-- The tools of the chat's own bindings that could be made. -/
def made_tools (now : Datetime) (creates : Tool → Bool) (db : ToolsDb) (chat : Chat) :
    List Given :=
  ((get_chat_tools now db chat).filter fun pair => creates pair.2).map fun pair =>
    .dynamic pair.1 pair.2

theorem mem_made_tools {now : Datetime} {creates : Tool → Bool} {db : ToolsDb} {chat : Chat}
    {g : Given} : g ∈ made_tools now creates db chat ↔
      ∃ pair ∈ get_chat_tools now db chat, creates pair.2 = true ∧ g = .dynamic pair.1 pair.2 := by
  unfold made_tools
  simp only [List.mem_map, List.mem_filter]
  constructor
  · rintro ⟨pair, ⟨hpair, hcreates⟩, rfl⟩
    exact ⟨pair, hpair, hcreates, rfl⟩
  · rintro ⟨pair, hpair, hcreates, rfl⟩
    exact ⟨pair, ⟨hpair, hcreates⟩, rfl⟩

theorem made_tools_allowed (now : Datetime) (creates : Tool → Bool) (db : ToolsDb) (chat : Chat) :
    OnlyAllowed now db chat (made_tools now creates db chat) := by
  refine ⟨?_, ?_⟩
  · have hsub := ((List.filter_sublist (p := fun pair : ToolBinding × Tool => creates pair.2)
      (l := get_chat_tools now db chat)).map fun p => p.2.name)
    have hnames := hsub.nodup (get_chat_tools_names now db chat)
    unfold made_tools
    rw [List.map_map]
    exact hnames
  · intro g hg
    obtain ⟨pair, hpair, _, rfl⟩ := mem_made_tools.mp hg
    exact get_chat_tools_permitted hpair

/-- With the tools of a project before them, the made tools stay allowed exactly if the project
is the chat's own and no made tool has the name of a project tool. -/
theorem project_tools_allowed (now : Datetime) (creates : Tool → Bool) (db : ToolsDb) (chat : Chat)
    (id : Int) :
    OnlyAllowed now db chat
        ((PROJECT_TOOLS.map fun name => Given.project name id) ++ made_tools now creates db chat) ↔
      chat.project_id = some id ∧
        ∀ pair ∈ get_chat_tools now db chat, creates pair.2 = true →
          pair.2.name ∉ PROJECT_TOOLS := by
  obtain ⟨hnodup, hallowed⟩ := made_tools_allowed now creates db chat
  have hproject : (PROJECT_TOOLS.map fun name => Given.project name id).map Given.name =
      PROJECT_TOOLS := rfl
  constructor
  · rintro ⟨hnames, hall⟩
    refine ⟨?_, ?_⟩
    · have hfirst := hall (.project "search_project_context" id) (by simp [PROJECT_TOOLS])
      exact hfirst.2
    · intro pair hpair hcreates hname
      rw [List.map_append, hproject, List.nodup_append] at hnames
      refine hnames.2.2 _ hname _ ?_ rfl
      exact List.mem_map.mpr ⟨.dynamic pair.1 pair.2,
        mem_made_tools.mpr ⟨pair, hpair, hcreates, rfl⟩, rfl⟩
  · rintro ⟨hown, hnew⟩
    refine ⟨?_, ?_⟩
    · rw [List.map_append, hproject, List.nodup_append]
      refine ⟨by decide, hnodup, ?_⟩
      rintro name hname _ hmade rfl
      obtain ⟨g, hg, rfl⟩ := List.mem_map.mp hmade
      obtain ⟨pair, hpair, hcreates, rfl⟩ := mem_made_tools.mp hg
      exact hnew pair hpair hcreates hname
    · intro g hg
      rcases List.mem_append.mp hg with hg | hg
      · obtain ⟨name, hname, rfl⟩ := List.mem_map.mp hg
        exact ⟨hname, hown⟩
      · exact hallowed g hg

/-- A static tool is never allowed. -/
theorem static_tools_allowed {now : Datetime} {db : ToolsDb} {chat : Chat} {names : List String}
    {given : List Given} :
    OnlyAllowed now db chat (names.map .static ++ given) ↔
      names = [] ∧ OnlyAllowed now db chat given := by
  constructor
  · rintro ⟨hnames, hall⟩
    have hnone : names = [] := by
      rcases names with _ | ⟨name, names⟩
      · rfl
      · exact (hall (.static name) (by simp)).elim
    subst hnone
    exact ⟨rfl, hnames, hall⟩
  · rintro ⟨rfl, hgiven⟩
    exact hgiven

/-- LAW: The agent gets only allowed tools exactly where all its static tools are disabled, the
project of the run is the chat's own, and no made tool has the name of a project tool. On the
Codex path only allowed tools are run. -/
theorem only_allowed_tools_iff (now : Datetime) (creates : Tool → Bool) (project_id : Option Int)
    (db : ToolsDb) (chat : Chat) :
    (OnlyAllowed now db chat (agent_tools now creates project_id db chat) ↔
      (∀ name ∈ STATIC_TOOLS, name ∈ disabled_builtin_tool_names db) ∧
        ∀ id, effective_project_id project_id chat = some id → chat.project_id = some id ∧
          ∀ pair ∈ get_chat_tools now db chat, creates pair.2 = true →
            pair.2.name ∉ PROJECT_TOOLS) ∧
    OnlyAllowed now db chat (codex_tools now db chat) := by
  refine ⟨?_, codex_tools_allowed now db chat⟩
  unfold agent_tools
  rw [static_tools_allowed]
  have hstatic : STATIC_TOOLS.filter (fun name => name ∉ disabled_builtin_tool_names db) = [] ↔
      ∀ name ∈ STATIC_TOOLS, name ∈ disabled_builtin_tool_names db := by
    simp only [List.filter_eq_nil_iff, decide_eq_true_eq, not_not]
  rw [hstatic]
  have hcustom : OnlyAllowed now db chat (custom_tools now creates project_id db chat) ↔
      ∀ id, effective_project_id project_id chat = some id → chat.project_id = some id ∧
        ∀ pair ∈ get_chat_tools now db chat, creates pair.2 = true →
          pair.2.name ∉ PROJECT_TOOLS := by
    unfold custom_tools
    rcases effective_project_id project_id chat with _ | id
    · simp only [reduceCtorEq, false_implies, implies_true, iff_true]
      exact made_tools_allowed now creates db chat
    · simp only [Option.some.injEq, forall_eq']
      exact project_tools_allowed now creates db chat id
  rw [hcustom]

/-- A user whose plan is not agentic. -/
def basic_shop : ToolsDb where
  tools := Table.empty
  bindings := Table.empty
  subscriptions := Table.empty.insert
    { user_id := 1, plan_id := 1, purchased_at := some 0, expires_at := 10 }
  plans := [{ id := 1, is_agentic := some false }]

def basic_chat : Chat := ⟨7, none, some 1⟩

/-- The plan allows no tool, and the agent gets all static tools. -/
theorem a_basic_plan_gets_the_static_tools :
    get_chat_tools 5 basic_shop basic_chat = [] ∧
      (agent_tools 5 (fun _ => true) none basic_shop basic_chat).map Given.name = STATIC_TOOLS ∧
      ¬OnlyAllowed 5 basic_shop basic_chat
        (agent_tools 5 (fun _ => true) none basic_shop basic_chat) := by
  refine ⟨by decide +kernel, by decide +kernel, ?_⟩
  rintro ⟨_, hall⟩
  exact hall (.static "web_search") (by decide +kernel)

end dr_boz.chat_tools
