-- The usage that a stream reports: which of the model calls that returned
-- are counted, and how often. The agent reports the last usage of the thread
-- once more at the end, and the Codex loop reports a call only where its
-- answer asks for a tool that the chat does not have.
import DrBoz.AgentStream

open dr_boz.py

namespace dr_boz.agent_stream

/-! ## Counting -/

@[simp] theorem total_nil (name : String) : total name [] = 0 := rfl

@[simp] theorem total_cons (name : String) (u : Usage) (us : List Usage) :
    total name (u :: us) = count name u + total name us := by
  simp [total]

@[simp] theorem total_append (name : String) (us vs : List Usage) :
    total name (us ++ vs) = total name us + total name vs := by
  simp [total]

@[simp] theorem count_nil (name : String) : count name [] = 0 := rfl

@[simp] theorem usages_nil : usages [] = [] := rfl

@[simp] theorem usages_cons (e : Event) (es : List Event) :
    usages (e :: es) = e.usage?.toList ++ usages es := by
  cases e <;> rfl

@[simp] theorem usages_append (es fs : List Event) :
    usages (es ++ fs) = usages es ++ usages fs := by
  simp [usages]

/-- An empty usage object is not yielded, and counts nothing. -/
theorem total_yield_usage (name : String) (usage : Option Usage) :
    total name (usages (yield_usage usage)) = count name (usage.getD []) := by
  unfold yield_usage
  rcases usage with _ | u
  · rfl
  · simp only [Option.getD_some]
    split
    · rename_i hempty
      rw [hempty]
      rfl
    · simp [usages, Event.usage?]

/-- The events add up to the calls that returned. -/
def Conserved (events : List Event) (returned : List Usage) : Prop :=
  ∀ name, total name (usages events) = total name returned

/-! ## The agent -/

/-- A step reports the usage of the call that returns in it. -/
theorem step_usages (name : String) (s : Step) :
    total name (usages s.events) = total name s.returned?.toList := by
  cases s with
  | input => rfl
  | adds msg => rfl
  | emits event =>
    cases event with
    | on_chat_model_end usage =>
      simp only [Step.events, yielded, Step.returned?, total_yield_usage]
      simp
    | on_chat_model_stream chunk =>
      rcases chunk with _ | chunk
      · rfl
      · simp only [Step.events, yielded, Step.returned?]
        split
        · rfl
        · rfl
    | on_tool_start => rfl
    | on_tool_end => rfl
    | on_tool_error => rfl
    | on_chain_error => rfl
    | other => rfl

theorem steps_usages (name : String) (steps : List Step) :
    total name (usages (steps.flatMap Step.events)) =
      total name (steps.filterMap Step.returned?) := by
  induction steps with
  | nil => rfl
  | cons s steps ih =>
    have hcons : (s :: steps).filterMap Step.returned? =
        s.returned?.toList ++ steps.filterMap Step.returned? := by
      rcases h : s.returned? with _ | u <;> simp [h]
    rw [List.flatMap_cons, usages_append, total_append, hcons, total_append, step_usages, ih]

/-- While the graph runs, an attempt reports each call once. -/
theorem streamed_usages (name : String) (a : Attempt) :
    total name (usages a.streamed) = total name a.returned := steps_usages name a.taken

theorem attempts_usages (name : String) (attempts : Nat → Attempt) (ks : List Nat) :
    total name (usages (ks.flatMap fun k => (attempts k).streamed)) =
      total name (ks.flatMap fun k => (attempts k).returned) := by
  induction ks with
  | nil => rfl
  | cons k ks ih =>
    rw [List.flatMap_cons, List.flatMap_cons, usages_append, total_append, total_append,
      streamed_usages, ih]

/-- A run that completes reports each call once, and what it reads back from the thread. -/
theorem completed_usages (name : String) (request : Request) {attempts : Nat → Attempt} {n : Nat}
    (start : List Msg) (h : completed attempts = some n) :
    total name (usages (event_generator request attempts start).events) =
      total name (event_generator request attempts start).returned
        + total name (usages ((attempts n).read_back
            (thread_after request attempts start (n + 1)))) := by
  rw [event_generator_completes request start h]
  simp only [usages_append, total_append, attempts_usages, streamed_usages, List.range_succ,
    List.flatMap_append, List.flatMap_singleton]
  have hdone : total name (usages [.done]) = 0 := rfl
  omega

/-- A run that gives up reports each call once. -/
theorem gave_up_usages (name : String) (request : Request) {attempts : Nat → Attempt}
    (start : List Msg) (h : completed attempts = none) :
    total name (usages (event_generator request attempts start).events) =
      total name (event_generator request attempts start).returned := by
  obtain ⟨e, hrun⟩ := event_generator_gives_up request start h
  rw [hrun]
  simp only [usages_append, total_append, attempts_usages]
  rfl

/-- The agent's stream adds up exactly where nothing is counted a second time at its end. -/
theorem event_generator_conserves_iff (request : Request) (attempts : Nat → Attempt)
    (start : List Msg) :
    Conserved (event_generator request attempts start).events
        (event_generator request attempts start).returned ↔
      ∀ n, completed attempts = some n → (attempts n).final_read = true →
        ∀ u, last_usage (thread_after request attempts start (n + 1)) = some u → Idle u := by
  rcases h : completed attempts with _ | n
  · constructor
    · intro _ n hn
      cases hn
    · intro _ name
      exact gave_up_usages name request start h
  · constructor
    · intro hconserved m hm hread u hlast name
      cases hm
      have htotal := completed_usages name request start h
      rw [hconserved name, Attempt.read_back, if_pos hread, hlast, total_yield_usage] at htotal
      simp only [Option.getD_some] at htotal
      omega
    · intro hidle name
      rw [completed_usages name request start h]
      unfold Attempt.read_back
      split
      · rename_i hread
        rw [total_yield_usage]
        rcases hlast : last_usage (thread_after request attempts start (n + 1)) with _ | u
        · simp
        · simp only [Option.getD_some]
          rw [hidle n rfl hread u hlast name]
          omega
      · simp

/-! ## The Codex loop -/

/-- The usage of each call of the Codex loop that returned. -/
def CodexStreamed.returned (s : CodexStreamed) : List Usage :=
  s.calls.map fun call => call.2.usage.getD []

/-- The calls that are reported: their answers ask in vain for a tool. -/
def reported (c : Codex) (calls : List (Nat × Answer)) : List Usage :=
  (calls.filter fun call => asks_in_vain c call.1 call.2).map fun call => call.2.usage.getD []

theorem asks_in_vain_of_name {c : Codex} {tool_iteration : Nat} {answer : Answer}
    {request : ToolRequest} (h : asked c tool_iteration answer = some request) :
    asks_in_vain c tool_iteration answer =
      (request.name.filter (· ∈ c.tool_specs)).isNone := by
  unfold asks_in_vain
  simp only [h]
  rcases request.name with _ | name
  · rfl
  · by_cases hmem : name ∈ c.tool_specs
    · simp [hmem]
    · simp [hmem]

/-- The loop reports the calls that ask in vain for a tool, and no other. -/
theorem codex_usages (name : String) (c : Codex) :
    ∀ (left call attempt tool_iteration : Nat) (messages : List Said),
      total name (usages (codex_from c left call attempt tool_iteration messages).events) =
        total name (reported c (codex_from c left call attempt tool_iteration messages).calls) := by
  intro left
  have hquiet : ∀ attempt e, total name (usages (gives_up attempt e)) = 0 := by
    intro attempt e
    unfold gives_up
    split
    · rfl
    · rfl
  induction left with
  | zero =>
    intro call attempt tool_iteration messages
    rfl
  | succ left ih =>
    intro call attempt tool_iteration messages
    rw [codex_from]
    split
    · rfl
    · rcases c.provider call messages with e | answer
      · simp only [usages_append, total_append, hquiet, ih]
        omega
      · simp only
        rcases hasked : asked c tool_iteration answer with _ | request
        · have hvain : asks_in_vain c tool_iteration answer = false := by
            simp [asks_in_vain, hasked]
          simp [reported, hvain, Event.usage?]
        · have hvain := asks_in_vain_of_name hasked
          simp only
          rcases hname : request.name.filter (· ∈ c.tool_specs) with _ | tool
          · rw [hname] at hvain
            simp only [usages_append, total_append, total_yield_usage]
            simp [reported, hvain, Event.usage?]
          · rw [hname] at hvain
            simp only
            rcases (c.execute call request).text with e | text
            · simp only [usages_append, total_append, hquiet, ih]
              simp [reported, hvain, Event.usage?]
            · simp only [usages_append, total_append, ih]
              simp [reported, hvain, Event.usage?]

theorem total_filter_le (name : String) (calls : List (Nat × Answer)) (p : Nat × Answer → Bool) :
    total name ((calls.filter p).map fun call => call.2.usage.getD []) ≤
      total name (calls.map fun call => call.2.usage.getD []) := by
  induction calls with
  | nil => simp
  | cons call calls ih =>
    by_cases hp : p call = true
    · simp [hp, ih]
    · simp only [List.filter_cons, hp, List.map_cons, total_cons, Bool.false_eq_true, if_false]
      omega

/-- Where only some calls are reported, the sums agree exactly when the others count nothing. -/
theorem total_filter_iff (calls : List (Nat × Answer)) (p : Nat × Answer → Bool) :
    (∀ name, total name ((calls.filter p).map fun call => call.2.usage.getD []) =
        total name (calls.map fun call => call.2.usage.getD [])) ↔
      ∀ call ∈ calls, p call = true ∨ Idle (call.2.usage.getD []) := by
  induction calls with
  | nil => simp
  | cons call calls ih =>
    rw [List.forall_mem_cons]
    by_cases hp : p call = true
    · simp only [List.filter_cons, hp, if_true, List.map_cons, total_cons, true_or, true_and]
      rw [← ih]
      simp
    · simp only [List.filter_cons, hp, List.map_cons, total_cons, Bool.false_eq_true, if_false,
        false_or]
      rw [← ih]
      constructor
      · intro h
        refine ⟨fun name => ?_, fun name => ?_⟩
        · have hname := h name
          have hle := total_filter_le name calls p
          omega
        · have hname := h name
          have hle := total_filter_le name calls p
          omega
      · rintro ⟨hidle, h⟩ name
        rw [h name, hidle name]
        omega

theorem codex_conserves_iff (c : Codex) (messages : List Said) :
    Conserved (stream_codex_direct_completion c messages).events
        (stream_codex_direct_completion c messages).returned ↔
      ∀ call ∈ (stream_codex_direct_completion c messages).calls,
        asks_in_vain c call.1 call.2 = true ∨ Idle (call.2.usage.getD []) := by
  rw [← total_filter_iff]
  unfold Conserved
  constructor
  · intro h name
    have hreported := codex_usages name c (MAX_RETRIES + 1 + MAX_TOOL_ITERATIONS) 0 0 0 messages
    exact hreported.symm.trans (h name)
  · intro h name
    have hreported := codex_usages name c (MAX_RETRIES + 1 + MAX_TOOL_ITERATIONS) 0 0 0 messages
    exact hreported.trans (h name)

/-! ## The usage of both streams -/

/-- LAW: The usage that is yielded adds up to the usage of the calls that returned, exactly
where the agent finds nothing to count when it reads the last usage of the thread back, and
where each call of the Codex loop counts nothing or asks in vain for a tool. -/
theorem the_streams_count_each_call_once_iff (request : Request) (attempts : Nat → Attempt)
    (start : List Msg) (c : Codex) (messages : List Said) :
    (Conserved (event_generator request attempts start).events
        (event_generator request attempts start).returned ↔
      ∀ n, completed attempts = some n → (attempts n).final_read = true →
        ∀ u, last_usage (thread_after request attempts start (n + 1)) = some u → Idle u) ∧
    (Conserved (stream_codex_direct_completion c messages).events
        (stream_codex_direct_completion c messages).returned ↔
      ∀ call ∈ (stream_codex_direct_completion c messages).calls,
        asks_in_vain c call.1 call.2 = true ∨ Idle (call.2.usage.getD [])) :=
  ⟨event_generator_conserves_iff request attempts start, codex_conserves_iff c messages⟩

/-- An attempt that says hello with one call of the model. -/
def greeting : Attempt where
  unmade := none
  state_read := true
  history := some []
  updated := true
  resolved := .ok (.plain "Hi")
  steps := [.input, .emits (.on_chat_model_stream (some (.plain "Hello"))),
    .emits (.on_chat_model_end (some [("input_tokens", 5), ("output_tokens", 2)])),
    .adds (.ai (.plain "Hello") [] (some [("input_tokens", 5), ("output_tokens", 2)]))]
  raised := none
  final_read := true

/-- A Codex subscription that answers every message with a hello. -/
def greeter : Codex where
  provider := fun _ _ => .ok ⟨.plain "Hello", some [("input_tokens", 5), ("output_tokens", 2)]⟩
  extract_codex_tool_requests := fun _ => []
  tool_specs := []
  execute := fun _ _ => .raised "no such tool"

/-- One call of the agent is counted twice, and one call of the Codex loop not at all. -/
theorem one_call_is_counted_twice_or_not_at_all :
    ¬Conserved (event_generator ⟨none, none, none⟩ (fun _ => greeting) []).events
        (event_generator ⟨none, none, none⟩ (fun _ => greeting) []).returned ∧
      ¬Conserved (stream_codex_direct_completion greeter [⟨"user", "Hi"⟩]).events
        (stream_codex_direct_completion greeter [⟨"user", "Hi"⟩]).returned := by
  constructor
  · intro h
    have htwice : total "input_tokens"
        (usages (event_generator ⟨none, none, none⟩ (fun _ => greeting) []).events) = 10 := by
      decide +kernel
    have honce : total "input_tokens"
        (event_generator ⟨none, none, none⟩ (fun _ => greeting) []).returned = 5 := by
      decide +kernel
    have hsame := h "input_tokens"
    omega
  · intro h
    have hnone : total "input_tokens"
        (usages (stream_codex_direct_completion greeter [⟨"user", "Hi"⟩]).events) = 0 := by
      decide +kernel
    have honce : total "input_tokens"
        (stream_codex_direct_completion greeter [⟨"user", "Hi"⟩]).returned = 5 := by
      decide +kernel
    have hsame := h "input_tokens"
    omega

end dr_boz.agent_stream
