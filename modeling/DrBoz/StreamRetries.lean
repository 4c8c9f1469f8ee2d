-- The retries of a stream as the user and the thread see them: the text that
-- was streamed cannot be taken back, each attempt puts the message into the
-- thread again, and the repair looks at the last message only.
import DrBoz.StreamUsage
import Mathlib.Data.List.Nodup

open dr_boz.py

namespace dr_boz.agent_stream

/-! ## What a thread should look like -/

def Msg.is_human : Msg → Bool
  | .human _ _ => true
  | _ => false

def Msg.is_tool : Msg → Bool
  | .tool _ _ => true
  | _ => false

/-- A copy of the message that the run answers. -/
def Msg.is_current : Msg → Bool
  | .human _ current => current
  | _ => false

/-- A tool message for the call `id`. -/
def Msg.answers (id : String) : Msg → Bool
  | .tool tool_call_id _ => tool_call_id = id
  | _ => false

/-- How often the message that the run answers stands in the thread. -/
def copies (thread : List Msg) : Nat := thread.countP Msg.is_current

/-- Each message of the model is followed by exactly one tool message for each of its calls. -/
def Paired : List Msg → Prop
  | [] => True
  | .ai _ tool_calls _ :: after =>
    (∀ id ∈ tool_calls, (after.takeWhile Msg.is_tool).countP (Msg.answers id) = 1) ∧ Paired after
  | _ :: after => Paired after

/-- What a run promises that ends with attempt `n`: its text is the text of that attempt, the
message stands in the thread once, and the tool calls are answered. -/
def Transparent (request : Request) (attempts : Nat → Attempt) (start : List Msg) (n : Nat) :
    Prop :=
  contents (event_generator request attempts start).events = contents (attempts n).streamed ∧
    copies (event_generator request attempts start).thread = 1 ∧
    Paired (event_generator request attempts start).thread

/-! ## What the graph does -/

def Step.added? : Step → Option Msg
  | .adds msg => some msg
  | _ => none

/-- Messages of the model, each followed by the outputs of its calls in some order. -/
inductive Rounds : List Msg → Prop where
  | nil : Rounds []
  | round {content : Content} {tool_calls : List String} {usage : Option Usage}
      {outputs : List (String × String)} {rest : List Msg} :
      tool_calls.Nodup → (outputs.map Prod.fst).Perm tool_calls → Rounds rest →
      Rounds (.ai content tool_calls usage ::
        (outputs.map fun o => .tool o.1 o.2) ++ rest)

/-- A run of the graph takes its input first and once, and adds no message of the user. One
that comes to its end has answered each call of the model. -/
structure LangGraph (a : Attempt) : Prop where
  first : a.taken = [] ∨ ∃ rest, a.taken = .input :: rest ∧ .input ∉ rest
  adds : ∀ msg, .adds msg ∈ a.taken → msg.is_human = false
  ends : a.failure = none → a.taken ≠ [] ∧ Rounds (a.taken.filterMap Step.added?)

/-! ## Copies of the message -/

@[simp] theorem copies_append (xs ys : List Msg) : copies (xs ++ ys) = copies xs + copies ys := by
  simp [copies]

theorem copies_prefix {xs ys : List Msg} (h : xs <+: ys) : copies xs ≤ copies ys := by
  obtain ⟨zs, rfl⟩ := h
  rw [copies_append]
  omega

/-- What the graph adds to the thread in an attempt. -/
def Attempt.entered (a : Attempt) : List Msg :=
  match a.resolved with
  | .ok content => a.taken.flatMap (Step.msgs content)
  | .error _ => []

/-- The thread that the graph of an attempt finds. -/
def opened (request : Request) (a : Attempt) (thread : List Msg) : List Msg :=
  if a.unmade = none then prepared request a thread else thread

theorem thread_after_eq (request : Request) (a : Attempt) (thread : List Msg) :
    a.thread_after request thread = opened request a thread ++ a.entered := by
  unfold Attempt.thread_after opened Attempt.entered Attempt.taken
  rcases hmade : a.unmade with _ | e
  · rcases hresolved : a.resolved with e | content
    · simp
    · simp
  · rcases hresolved : a.resolved with _ | content
    · simp
    · simp

theorem not_current_of_not_human {msg : Msg} (h : msg.is_human = false) :
    msg.is_current = false := by
  cases msg with
  | human => cases h
  | ai => rfl
  | tool => rfl

/-- Steps that do not take the input add no copy of the message. -/
theorem copies_steps_of_no_input (content : Content) (steps : List Step)
    (hinput : .input ∉ steps) (hadds : ∀ msg, .adds msg ∈ steps → msg.is_human = false) :
    copies (steps.flatMap (Step.msgs content)) = 0 := by
  induction steps with
  | nil => rfl
  | cons s steps ih =>
    have hrest := ih (fun h => hinput (List.mem_cons_of_mem _ h))
      (fun msg h => hadds msg (List.mem_cons_of_mem _ h))
    rw [List.flatMap_cons, copies_append, hrest]
    cases s with
    | input => exact absurd List.mem_cons_self hinput
    | emits event => rfl
    | adds msg =>
      have hmsg := not_current_of_not_human (hadds msg List.mem_cons_self)
      simp [Step.msgs, copies, hmsg]

theorem copies_taken {a : Attempt} (h : LangGraph a) (content : Content) :
    copies (a.taken.flatMap (Step.msgs content)) = if a.taken = [] then 0 else 1 := by
  rcases h.first with hnil | ⟨rest, hsteps, hinput⟩
  · rw [hnil]
    rfl
  · have hrest := copies_steps_of_no_input content rest hinput (fun msg hmem =>
      h.adds msg (by rw [hsteps]; exact List.mem_cons_of_mem _ hmem))
    rw [hsteps, List.flatMap_cons, copies_append, hrest]
    rfl

/-- No step is taken where the message could not be resolved. -/
theorem taken_of_unresolved {a : Attempt} {e : String} (h : a.resolved = .error e) :
    a.taken = [] := by
  unfold Attempt.taken
  rw [h]
  split
  · rename_i hok
    cases hok
  · rfl

/-- An attempt whose graph takes a step adds one copy of the message. -/
theorem copies_entered {a : Attempt} (h : LangGraph a) :
    copies a.entered = if a.taken = [] then 0 else 1 := by
  unfold Attempt.entered
  rcases hresolved : a.resolved with e | content
  · rw [if_pos (taken_of_unresolved hresolved)]
    rfl
  · exact copies_taken h content

theorem opened_start (request : Request) (a : Attempt) (thread : List Msg) :
    thread <+: opened request a thread := by
  unfold opened prepared
  split
  · split
    · exact List.prefix_rfl
    · split
      · exact List.prefix_append _ _
      · rename_i hempty
        have hnil : thread = [] := by simpa using hempty
        rw [hnil]
        exact List.nil_prefix
  · exact List.prefix_rfl

theorem thread_after_start (request : Request) (attempts : Nat → Attempt) (start : List Msg)
    {k n : Nat} (h : k ≤ n) :
    thread_after request attempts start k <+: thread_after request attempts start n := by
  induction h with
  | refl => exact List.prefix_rfl
  | step _ ih =>
    refine ih.trans ?_
    rw [thread_after, thread_after_eq]
    exact (opened_start request _ _).trans (List.prefix_append _ _)

/-! ## Tool calls and their messages -/

theorem takeWhile_is_tool {msgs : List Msg} (h : ∀ msg ∈ msgs.head?, msg.is_tool = false) :
    msgs.takeWhile Msg.is_tool = [] := by
  cases msgs with
  | nil => rfl
  | cons msg msgs =>
    have hmsg := h msg (by simp)
    simp [hmsg]

/-- A thread is paired exactly if both parts are, where the second starts with no tool message. -/
theorem paired_append {xs ys : List Msg} (h : ∀ msg ∈ ys.head?, msg.is_tool = false) :
    Paired (xs ++ ys) ↔ Paired xs ∧ Paired ys := by
  induction xs with
  | nil => simp [Paired]
  | cons msg xs ih =>
    cases msg with
    | human => simpa [Paired] using ih
    | tool => simpa [Paired] using ih
    | ai content tool_calls usage =>
      have hwhile : (xs ++ ys).takeWhile Msg.is_tool = xs.takeWhile Msg.is_tool := by
        rw [List.takeWhile_append]
        split
        · rename_i hall
          rw [takeWhile_is_tool h, List.append_nil]
          exact ((List.takeWhile_prefix _).eq_of_length hall).symm
        · rfl
      simp only [List.cons_append, Paired, hwhile, ih]
      exact and_assoc.symm

theorem paired_of_no_calls {thread : List Msg}
    (h : ∀ content calls usage, .ai content calls usage ∈ thread → calls = []) : Paired thread := by
  induction thread with
  | nil => trivial
  | cons msg thread ih =>
    have hrest := ih fun content calls usage hmem =>
      h content calls usage (List.mem_cons_of_mem _ hmem)
    cases msg with
    | human => exact hrest
    | tool => exact hrest
    | ai content calls usage =>
      have hcalls := h content calls usage List.mem_cons_self
      subst hcalls
      exact ⟨fun id hid => by simp at hid, hrest⟩

/-- The outputs of a round. -/
def tool_msgs (outputs : List (String × String)) : List Msg :=
  outputs.map fun o => .tool o.1 o.2

theorem countP_answers (id : String) (outputs : List (String × String)) :
    (tool_msgs outputs).countP (Msg.answers id) = (outputs.map Prod.fst).count id := by
  induction outputs with
  | nil => rfl
  | cons o outputs ih =>
    simp only [tool_msgs, List.map_cons, List.countP_cons, List.count_cons] at ih ⊢
    rw [ih]
    simp [Msg.answers]

theorem takeWhile_tool_msgs (outputs : List (String × String)) (rest : List Msg)
    (h : ∀ msg ∈ rest.head?, msg.is_tool = false) :
    (tool_msgs outputs ++ rest).takeWhile Msg.is_tool = tool_msgs outputs := by
  induction outputs with
  | nil => simpa [tool_msgs] using takeWhile_is_tool h
  | cons o outputs ih =>
    change (Msg.tool o.1 o.2 :: (tool_msgs outputs ++ rest)).takeWhile Msg.is_tool = _
    rw [List.takeWhile_cons_of_pos rfl, ih]
    rfl

theorem Rounds.head {msgs : List Msg} (h : Rounds msgs) :
    ∀ msg ∈ msgs.head?, msg.is_tool = false := by
  cases h with
  | nil =>
    intro msg hmsg
    simp at hmsg
  | round =>
    intro msg hmsg
    simp only [List.cons_append, List.head?_cons, Option.mem_def, Option.some.injEq] at hmsg
    rw [← hmsg]
    rfl

/-- The rounds of a run of the graph answer each call once. -/
theorem Rounds.paired {msgs : List Msg} (h : Rounds msgs) : Paired msgs := by
  induction h with
  | nil => trivial
  | @round content tool_calls usage outputs rest hnodup hperm hrest ih =>
    change Paired (.ai content tool_calls usage :: (tool_msgs outputs ++ rest))
    refine ⟨fun id hid => ?_, ?_⟩
    · rw [takeWhile_tool_msgs outputs rest hrest.head, countP_answers, hperm.count_eq]
      exact List.count_eq_one_of_mem hnodup hid
    · rw [paired_append hrest.head]
      refine ⟨paired_of_no_calls fun c calls u hmem => ?_, ih⟩
      simp [tool_msgs] at hmem

theorem added_msgs (content : Content) (steps : List Step) (hinput : .input ∉ steps) :
    steps.flatMap (Step.msgs content) = steps.filterMap Step.added? := by
  induction steps with
  | nil => rfl
  | cons s steps ih =>
    have hrest := ih fun h => hinput (List.mem_cons_of_mem _ h)
    cases s with
    | input => exact absurd List.mem_cons_self hinput
    | emits event =>
      rw [List.flatMap_cons, hrest]
      rfl
    | adds msg =>
      rw [List.flatMap_cons, hrest]
      rfl

/-- An attempt that succeeds adds the message and rounds that are paired. -/
theorem entered_of_completed {a : Attempt} (h : LangGraph a) (hdone : a.failure = none) :
    a.taken ≠ [] ∧ ∃ content rounds, a.entered = .human content true :: rounds ∧ Paired rounds := by
  obtain ⟨hsome, hrounds⟩ := h.ends hdone
  refine ⟨hsome, ?_⟩
  unfold Attempt.entered
  rcases hresolved : a.resolved with e | content
  · exact absurd (taken_of_unresolved hresolved) hsome
  · rcases h.first with hnil | ⟨rest, hsteps, hinput⟩
    · exact absurd hnil hsome
    · refine ⟨content, rest.filterMap Step.added?, ?_, ?_⟩
      · simp only [hsteps, List.flatMap_cons, added_msgs content rest hinput]
        rfl
      · rw [hsteps] at hrounds
        exact Rounds.paired hrounds

/-! ## The repair -/

theorem repair_messages_cases (thread : List Msg) :
    repair_messages thread = [] ∨
      ∃ msg ∈ (repair_messages thread).getLast?, msg.is_tool = true := by
  unfold repair_messages
  split
  · rename_i content calls usage _
    rcases List.eq_nil_or_concat calls with hnil | ⟨pre, id, hcalls⟩
    · rw [hnil]
      exact Or.inl rfl
    · right
      rw [hcalls]
      simp [Msg.is_tool]
  · exact Or.inl rfl

/-- A repaired thread needs no repair. -/
theorem repair_repaired (thread : List Msg) :
    repair_messages (thread ++ repair_messages thread) = [] ∨ repair_messages thread = [] := by
  rcases repair_messages_cases thread with hnil | ⟨msg, hlast, htool⟩
  · exact Or.inr hnil
  · left
    have hend : (thread ++ repair_messages thread).getLast? = some msg := by
      rw [List.getLast?_append]
      simp [Option.mem_def.mp hlast]
    rw [repair_messages, hend]
    cases msg with
    | tool => rfl
    | human => cases htool
    | ai => cases htool

/-- Nothing is to be repaired in a paired thread. -/
theorem repair_of_paired {thread : List Msg} (h : Paired thread) : repair_messages thread = [] := by
  rcases List.eq_nil_or_concat thread with hnil | ⟨pre, msg, hthread⟩
  · rw [hnil]
    rfl
  · rw [List.concat_eq_append] at hthread
    subst hthread
    cases msg with
    | human => simp [repair_messages]
    | tool => simp [repair_messages]
    | ai content calls usage =>
      have hlast : Paired [.ai content calls usage] :=
        ((paired_append (by simp [Msg.is_tool])).mp h).2
      rcases calls with _ | ⟨id, calls⟩
      · simp [repair_messages]
      · have hanswer := hlast.1 id List.mem_cons_self
        simp at hanswer

/-! ## The thread that the graph finds -/

/-- The attempt reads the state of the thread and can update it. -/
def Attempt.updates (a : Attempt) : Bool := a.unmade.isNone && a.state_read && a.updated

/-- The history that an attempt puts into an empty thread. -/
def loaded (request : Request) (a : Attempt) : Option (List Msg) :=
  if a.updates = true ∧ given request.chat_id = true then
    match a.history with
    | some rows => if history_msgs request rows = [] then none else some (history_msgs request rows)
    | none => none
  else none

/-- The thread after the repairs and the loads of the first `n` attempts. -/
def opened_by (request : Request) (attempts : Nat → Attempt) (start : List Msg) : Nat → List Msg
  | 0 => start
  | n + 1 => opened request (attempts n) (opened_by request attempts start n)

theorem opened_some (request : Request) (a : Attempt) {thread : List Msg} (h : thread ≠ []) :
    opened request a thread =
      if a.updates = true then thread ++ repair_messages thread else thread := by
  unfold opened prepared Attempt.updates
  rcases a.unmade with _ | e
  · rcases a.state_read with _ | _
    · simp
    · rcases a.updated with _ | _
      · simp
      · simp [h]
  · simp

theorem opened_nil (request : Request) (a : Attempt) :
    opened request a [] = (loaded request a).getD [] := by
  unfold opened prepared loaded Attempt.updates
  rcases a.unmade with _ | e
  · rcases a.state_read with _ | _
    · simp
    · rcases a.updated with _ | _
      · simp
      · rcases given request.chat_id with _ | _
        · simp
        · rcases a.history with _ | rows
          · simp
          · by_cases hrows : history_msgs request rows = []
            · simp [hrows]
            · simp [hrows]
  · simp

/-- A history has no tool calls. -/
theorem history_calls {request : Request} {rows : List Row} {content : Content}
    {calls : List String} {usage : Option Usage}
    (h : .ai content calls usage ∈ history_msgs request rows) : calls = [] := by
  unfold history_msgs at h
  simp only [List.mem_flatMap] at h
  obtain ⟨row, _, hmem⟩ := h
  unfold history_message at hmem
  split at hmem
  · simp at hmem
  · split at hmem
    · simp only [List.mem_singleton, Msg.ai.injEq] at hmem
      exact hmem.2.1
    · simp at hmem

theorem loaded_paired {request : Request} {a : Attempt} {msgs : List Msg}
    (h : loaded request a = some msgs) : msgs ≠ [] ∧ Paired msgs := by
  unfold loaded at h
  split at h
  · split at h
    · split at h
      · cases h
      · rename_i hne
        cases h
        exact ⟨hne, paired_of_no_calls fun _ _ _ hmem => history_calls hmem⟩
    · cases h
  · cases h

/-- A thread with messages is repaired once, by the first attempt that can. -/
theorem opened_by_some (request : Request) (attempts : Nat → Attempt) {start : List Msg}
    (h : start ≠ []) (n : Nat) :
    opened_by request attempts start n =
      if ∃ k < n, (attempts k).updates = true then start ++ repair_messages start else start := by
  induction n with
  | zero => simp [opened_by]
  | succ n ih =>
    have hne : opened_by request attempts start n ≠ [] := by
      rw [ih]
      split
      · simp [h]
      · exact h
    rw [opened_by, opened_some request _ hne, ih]
    by_cases hbefore : ∃ k < n, (attempts k).updates = true
    · have hnow : ∃ k < n + 1, (attempts k).updates = true := by
        obtain ⟨k, hk, hup⟩ := hbefore
        exact ⟨k, by omega, hup⟩
      rw [if_pos hbefore, if_pos hnow]
      split
      · rcases repair_repaired start with hnil | hnil
        · rw [hnil, List.append_nil]
        · rw [hnil, List.append_nil, hnil, List.append_nil]
      · rfl
    · rw [if_neg hbefore]
      by_cases hup : (attempts n).updates = true
      · rw [if_pos hup, if_pos ⟨n, by omega, hup⟩]
      · rw [if_neg hup, if_neg]
        rintro ⟨k, hk, hk'⟩
        rcases Nat.lt_or_eq_of_le (Nat.le_of_lt_succ hk) with hlt | heq
        · exact hbefore ⟨k, hlt, hk'⟩
        · exact hup (heq ▸ hk')

/-- The first history that an attempt up to `n` puts into an empty thread. -/
def first_loaded (request : Request) (attempts : Nat → Attempt) (n : Nat) : Option (List Msg) :=
  (List.range n).findSome? fun k => loaded request (attempts k)

theorem opened_by_nil (request : Request) (attempts : Nat → Attempt) (n : Nat) :
    opened_by request attempts [] n = (first_loaded request attempts n).getD [] := by
  induction n with
  | zero => rfl
  | succ n ih =>
    have hsucc : first_loaded request attempts (n + 1) =
        (first_loaded request attempts n).or (loaded request (attempts n)) := by
      unfold first_loaded
      rw [List.range_succ, List.findSome?_append]
      simp
    rw [opened_by, ih, hsucc]
    rcases hfirst : first_loaded request attempts n with _ | msgs
    · exact opened_nil request (attempts n)
    · obtain ⟨k, _, hk⟩ := List.exists_of_findSome?_eq_some hfirst
      obtain ⟨hne, hpaired⟩ := loaded_paired hk
      simp only [Option.getD_some, Option.some_or]
      rw [opened_some request _ hne, repair_of_paired hpaired, List.append_nil, ite_self]

/-! ## Retries -/

/-- A thread has copies from each attempt that took a step before. -/
theorem taken_leaves_copy {request : Request} {attempts : Nat → Attempt} {start : List Msg}
    {k n : Nat} (hgraph : LangGraph (attempts k)) (h : k < n)
    (hnone : copies (thread_after request attempts start n) = 0) : (attempts k).taken = [] := by
  by_contra htaken
  have hk : copies (thread_after request attempts start (k + 1)) ≤
      copies (thread_after request attempts start n) :=
    copies_prefix (thread_after_start request attempts start h)
  rw [thread_after, thread_after_eq, copies_append, copies_entered hgraph, if_neg htaken] at hk
  omega

/-- While no graph takes a step, the thread is only repaired or filled. -/
theorem thread_after_unstarted {request : Request} {attempts : Nat → Attempt} {start : List Msg}
    {n : Nat} (h : ∀ k < n, (attempts k).taken = []) :
    thread_after request attempts start n = opened_by request attempts start n := by
  induction n with
  | zero => rfl
  | succ n ih =>
    have hentered : (attempts n).entered = [] := by
      unfold Attempt.entered
      rw [h n (by omega)]
      split
      · rfl
      · rfl
    rw [thread_after, thread_after_eq, hentered, List.append_nil,
      ih fun k hk => h k (by omega), opened_by]

/-- The thread that the last graph finds holds no copy of the message. -/
theorem copies_opened_by (request : Request) (attempts : Nat → Attempt) (start : List Msg)
    (n : Nat) :
    copies (opened_by request attempts start n) = 0 ↔
      copies start = 0 ∧
        (start = [] → ∀ msgs, first_loaded request attempts n = some msgs → copies msgs = 0) := by
  by_cases h : start = []
  · subst h
    rw [opened_by_nil]
    rcases first_loaded request attempts n with _ | msgs
    · simp [copies]
    · simp [copies]
  · have hrepair : copies (repair_messages start) = 0 := by
      unfold repair_messages
      split
      · rw [copies, List.countP_map]
        exact List.countP_eq_zero.mpr fun _ _ => by simp [Msg.is_current]
      · rfl
    rw [opened_by_some request attempts h]
    split
    · simp [hrepair, h]
    · simp [h]

/-- The thread that the last graph finds is paired. -/
theorem paired_opened_by (request : Request) (attempts : Nat → Attempt) (start : List Msg)
    (n : Nat) :
    Paired (opened_by request attempts start n) ↔
      Paired start ∨ (Paired (start ++ repair_messages start) ∧
        ∃ k < n, (attempts k).updates = true) := by
  by_cases h : start = []
  · subst h
    rw [opened_by_nil]
    rcases hfirst : first_loaded request attempts n with _ | msgs
    · simp [Paired]
    · obtain ⟨k, _, hk⟩ := List.exists_of_findSome?_eq_some hfirst
      simp [Paired, (loaded_paired hk).2]
  · rw [opened_by_some request attempts h]
    by_cases hup : ∃ k < n, (attempts k).updates = true
    · rw [if_pos hup]
      constructor
      · intro hpaired
        exact Or.inr ⟨hpaired, hup⟩
      · rintro (hpaired | ⟨hpaired, _⟩)
        · rw [repair_of_paired hpaired, List.append_nil]
          exact hpaired
        · exact hpaired
    · rw [if_neg hup]
      simp [hup]

@[simp] theorem contents_append (es fs : List Event) :
    contents (es ++ fs) = contents es ++ contents fs := by
  simp [contents, String.join_append]

/-- What is read back from the thread is no text. -/
theorem contents_read_back (a : Attempt) (thread : List Msg) :
    contents (a.read_back thread) = "" := by
  unfold Attempt.read_back yield_usage
  split
  · split
    · split
      · rfl
      · rfl
    · rfl
  · rfl

theorem streamed_of_unstarted {attempts : Nat → Attempt} {n : Nat}
    (h : ∀ k < n, (attempts k).taken = []) :
    (List.range n).flatMap (fun k => (attempts k).streamed) = [] := by
  rw [List.flatMap_eq_nil_iff]
  intro k hk
  unfold Attempt.streamed
  rw [h k (List.mem_range.mp hk)]
  rfl

/-- LAW: A run that ends with attempt `n` keeps its promises exactly where no earlier attempt
came so far that its graph took a step, the thread held no copy of the message and got none
from the history, and the thread was paired, or is so after a repair that an attempt made. -/
theorem retries_are_transparent_iff {request : Request} {attempts : Nat → Attempt}
    {start : List Msg} {n : Nat} (hgraph : ∀ k ≤ n, LangGraph (attempts k))
    (hdone : completed attempts = some n) :
    Transparent request attempts start n ↔
      (∀ k < n, (attempts k).taken = []) ∧
        (copies start = 0 ∧ (start = [] →
          ∀ msgs, first_loaded request attempts (n + 1) = some msgs → copies msgs = 0)) ∧
        (Paired start ∨ (Paired (start ++ repair_messages start) ∧
          ∃ k < n + 1, (attempts k).updates = true)) := by
  obtain ⟨_, hsucceeds, _⟩ := completed_eq_some.mp hdone
  obtain ⟨htaken, content, rounds, hentered, hrounds⟩ :=
    entered_of_completed (hgraph n (le_refl n)) hsucceeds
  have hlast := copies_entered (hgraph n (le_refl n))
  rw [if_neg htaken] at hlast
  rw [← copies_opened_by, ← paired_opened_by]
  unfold Transparent
  rw [event_generator_completes request start hdone]
  simp only [contents_append, contents_read_back, thread_after, thread_after_eq, copies_append,
    hlast]
  have hpairs : ∀ found, Paired (found ++ (attempts n).entered) ↔ Paired found := by
    intro found
    rw [hentered, paired_append (by simp [Msg.is_tool])]
    exact ⟨fun h => h.1, fun h => ⟨h, hrounds⟩⟩
  rw [hpairs]
  constructor
  · rintro ⟨_, honce, hpaired⟩
    have hnone : copies (opened request (attempts n)
        (thread_after request attempts start n)) = 0 := by omega
    have hbefore : copies (thread_after request attempts start n) = 0 := by
      have := copies_prefix (opened_start request (attempts n)
        (thread_after request attempts start n))
      omega
    have hunstarted : ∀ k < n, (attempts k).taken = [] := fun k hk =>
      taken_leaves_copy (hgraph k (le_of_lt hk)) hk hbefore
    rw [thread_after_unstarted hunstarted] at hnone hpaired
    exact ⟨hunstarted, hnone, hpaired⟩
  · rintro ⟨hunstarted, hnone, hpaired⟩
    rw [thread_after_unstarted hunstarted, streamed_of_unstarted hunstarted]
    refine ⟨?_, ?_, hpaired⟩
    · have hend : contents [.done] = "" := rfl
      rw [hend]
      simp [contents]
    · rw [opened_by] at hnone
      omega

/-- An attempt that loses the connection in the middle of its hello. -/
def interrupted : Attempt :=
  { greeting with
    steps := [.input, .emits (.on_chat_model_stream (some (.plain "Hel")))]
    raised := some "connection lost" }

/-- The first attempt is lost, the second one says hello. -/
def retried : Nat → Attempt
  | 0 => interrupted
  | _ => greeting

theorem greeting_graph : LangGraph greeting where
  first := Or.inr ⟨_, rfl, by decide⟩
  adds := by
    intro msg hmsg
    simp [greeting, Attempt.taken] at hmsg
    rw [hmsg]
    rfl
  ends := fun _ => ⟨by decide, @Rounds.round _ _ _ [] _ List.nodup_nil List.Perm.nil Rounds.nil⟩

theorem interrupted_graph : LangGraph interrupted where
  first := Or.inr ⟨_, rfl, by decide⟩
  adds := by
    intro msg hmsg
    simp [interrupted, greeting, Attempt.taken] at hmsg
  ends := fun h => by cases h

/-- The user reads "HelHello", and the thread has the message twice. -/
theorem a_retry_repeats_the_answer :
    (∀ k, LangGraph (retried k)) ∧ completed retried = some 1 ∧
      ¬Transparent ⟨none, none, none⟩ retried [] 1 := by
  refine ⟨fun k => ?_, by decide +kernel, ?_⟩
  · cases k with
    | zero => exact interrupted_graph
    | succ k => exact greeting_graph
  · rintro ⟨_, honce, _⟩
    revert honce
    decide +kernel

/-- A retry after an attempt that could not start is not seen. -/
theorem a_retry_before_the_first_step_is_transparent :
    Transparent ⟨none, none, none⟩
      (fun k => if k = 0 then { greeting with unmade := some "no model" } else greeting)
      [] 1 := by
  refine (retries_are_transparent_iff (fun k _ => ?_) (by decide +kernel)).mpr
    ⟨fun k hk => ?_, ⟨rfl, fun _ msgs hmsgs => ?_⟩, Or.inl trivial⟩
  · simp only
    split
    · exact ⟨Or.inl rfl, fun msg hmsg => by simp [Attempt.taken] at hmsg, fun h => by cases h⟩
    · exact greeting_graph
  · have hzero : k = 0 := by omega
    rw [hzero]
    rfl
  · have hnone : first_loaded ⟨none, none, none⟩
        (fun k => if k = 0 then { greeting with unmade := some "no model" }
          else greeting) 2 = none := by decide +kernel
    rw [hnone] at hmsgs
    cases hmsgs

end dr_boz.agent_stream
