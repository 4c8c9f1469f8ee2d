-- Law of the answers of the Codex loop (`stream_codex_direct_completion`). An
-- answer without a tool request goes straight to the `done` event: the lines
-- that would yield its text stand after the `return`.
import DrBoz.StreamUsage

open dr_boz.py dr_boz.agent_stream

namespace dr_boz.codex_answers

/-! ## The passes of the loop -/

/-- A pass of the loop: what it yields, the call that returned in it, whether it
raised, whether it counted a tool iteration, and the messages of the next pass. -/
structure Pass where
  events : List Event
  call : Option (Nat × Answer)
  failed : Bool
  iterated : Bool
  next : Option (List Said)

/-- `try: ..` and the handler after it. -/
def codex_pass (c : Codex) (call attempt tool_iteration : Nat) (messages : List Said) : Pass :=
  match c.provider call messages with
  | .error e => ⟨gives_up attempt e, none, true, false, some messages⟩
  | .ok answer =>
    let said := answered messages answer
    match asked c tool_iteration answer with
    | none => ⟨[.done], some (tool_iteration, answer), false, false, none⟩
    | some request =>
      match request.name.filter (· ∈ c.tool_specs) with
      | none =>
        ⟨[.content answer.content.text] ++ yield_usage answer.usage ++ [.done],
          some (tool_iteration, answer), false, true, none⟩
      | some tool =>
        match (c.execute call request).text with
        | .error e =>
          ⟨[.tool_start tool] ++ gives_up attempt e, some (tool_iteration, answer), true, true,
            some said⟩
        | .ok text =>
          ⟨[.tool_start tool, .tool_end tool text], some (tool_iteration, answer), false, true,
            some (said ++ [tool_result_message tool text])⟩

/-- The passes of `while attempt <= max_retries`, with `left` to go. -/
def passes_from (c : Codex) :
    (left call attempt tool_iteration : Nat) → List Said → List Pass
  | 0, _, _, _, _ => []
  | left + 1, call, attempt, tool_iteration, messages =>
    if MAX_RETRIES < attempt then [] else
    let p := codex_pass c call attempt tool_iteration messages
    p :: p.next.elim [] (passes_from c left (call + 1) (attempt + p.failed.toNat)
      (tool_iteration + p.iterated.toNat))

/-- The passes of `stream_codex_direct_completion`. -/
def passes (c : Codex) (messages : List Said) : List Pass :=
  passes_from c (MAX_RETRIES + 1 + MAX_TOOL_ITERATIONS) 0 0 0 messages

/-- The loop yields what its passes yield. -/
theorem codex_from_passes (c : Codex) :
    ∀ (left call attempt tool_iteration : Nat) (messages : List Said),
      codex_from c left call attempt tool_iteration messages =
        ⟨(passes_from c left call attempt tool_iteration messages).flatMap (·.events),
          (passes_from c left call attempt tool_iteration messages).filterMap (·.call)⟩ := by
  intro left
  induction left with
  | zero =>
    intro call attempt tool_iteration messages
    rfl
  | succ left ih =>
    intro call attempt tool_iteration messages
    rw [codex_from, passes_from]
    split
    · rfl
    · unfold codex_pass
      rcases c.provider call messages with e | answer
      · simp [ih]
      · simp only
        rcases asked c tool_iteration answer with _ | request
        · simp
        · simp only
          rcases request.name.filter (· ∈ c.tool_specs) with _ | tool
          · simp
          · simp only
            rcases (c.execute call request).text with e | text
            · simp [ih]
            · simp [ih]

/-! ## What the loop should deliver -/

/-- A request in the text is for a tool of the chat. -/
def Executable (c : Codex) (answer : Answer) : Prop :=
  answer.content.text ≠ "" ∧
    ∃ request ∈ c.extract_codex_tool_requests answer.content.text,
      ∃ name ∈ c.tool_specs, request.name = some name

/-- The responses of a run end with this one, and nothing in it can be executed.
The number is that of the tool iterations before it. -/
def FinalAnswer (c : Codex) (messages : List Said) (tool_iteration : Nat) (answer : Answer) :
    Prop :=
  (stream_codex_direct_completion c messages).calls.getLast? = some (tool_iteration, answer) ∧
    ¬Executable c answer

def Event.ends : Event → Bool
  | .done => true
  | .error _ _ => true
  | _ => false

/-- The text is yielded as content, once, and nothing but the usage stands
between it and the one `done` event, with which the run ends. -/
structure Delivered (events : List Event) (answer : Answer) : Prop where
  once : events.filterMap Event.content? = [answer.content.text]
  stops : ∃ before, events =
    before ++ [.content answer.content.text] ++ yield_usage answer.usage ++ [.done] ∧
      .done ∉ before

/-- The passes that raise and those that count a tool iteration are few, and the
run ends with its one `done` or `error` event. -/
structure Limited (c : Codex) (messages : List Said) : Prop where
  failing : (passes c messages).countP (·.failed) ≤ MAX_RETRIES + 1
  iterations : (passes c messages).countP (·.iterated) ≤ MAX_TOOL_ITERATIONS
  ends : ∃ before last, (stream_codex_direct_completion c messages).events = before ++ [last] ∧
    Event.ends last = true ∧ ∀ e ∈ before, Event.ends e = false

/-! ## How the loop ends -/

def Event.of_tool : Event → Bool
  | .tool_start _ => true
  | .tool_end _ _ => true
  | _ => false

/-- The last events of a run: of a pass that raised for the last time, of an
answer that asks for nothing, or of one that asks in vain. -/
inductive Ending (c : Codex) (calls : List (Nat × Answer)) : List Event → Prop
  | fails (e : String) (n : Option Nat)
      (h : ∀ x, calls.getLast? = some x → Executable c x.2) : Ending c calls [.error e n]
  | silent {tool_iteration : Nat} {answer : Answer}
      (hlast : calls.getLast? = some (tool_iteration, answer))
      (h : asked c tool_iteration answer = none) : Ending c calls [.done]
  | answers {tool_iteration : Nat} {answer : Answer}
      (hlast : calls.getLast? = some (tool_iteration, answer))
      (h : asks_in_vain c tool_iteration answer = true) :
      Ending c calls ([.content answer.content.text] ++ yield_usage answer.usage ++ [.done])

/-- The passes from some counts on: the counts stay within their limits, and
events of tools come before the end. -/
structure Ends (c : Codex) (attempt tool_iteration : Nat) (ps : List Pass) : Prop where
  failing : attempt + ps.countP (·.failed) ≤ MAX_RETRIES + 1
  iterations : tool_iteration + ps.countP (·.iterated) ≤ MAX_TOOL_ITERATIONS
  shape : ∃ tools last, ps.flatMap (·.events) = tools ++ last ∧
    (∀ e ∈ tools, Event.of_tool e = true) ∧ Ending c (ps.filterMap (·.call)) last

section
variable {c : Codex} {attempt tool_iteration : Nat} {p : Pass} {ps : List Pass}

/-- A call whose tool was executed may come before the others. -/
theorem Ending.cons {calls : List (Nat × Answer)} {last : List Event} {x : Nat × Answer}
    (h : Ending c calls last) (hx : Executable c x.2) : Ending c (x :: calls) last := by
  have hlater : ∀ y, calls.getLast? = some y → (x :: calls).getLast? = some y := by
    intro y hy
    rw [List.getLast?_cons, hy, Option.getD_some]
  cases h with
  | fails e n h =>
    refine .fails e n fun y hy => ?_
    rw [List.getLast?_cons] at hy
    cases hc : calls.getLast? with
    | none =>
      rw [hc] at hy
      cases hy
      exact hx
    | some z =>
      rw [hc] at hy
      cases hy
      exact h z hc
  | silent hlast h => exact .silent (hlater _ hlast) h
  | answers hlast h => exact .answers (hlater _ hlast) h

/-- A pass that goes on, in front of the passes that follow. -/
theorem Ends.cons (h : Ends c (attempt + p.failed.toNat) (tool_iteration + p.iterated.toNat) ps)
    (hevents : ∀ e ∈ p.events, Event.of_tool e = true)
    (hcall : ∀ x, p.call = some x → Executable c x.2) :
    Ends c attempt tool_iteration (p :: ps) := by
  obtain ⟨hfailing, hiterations, tools, last, hshape, htools, hlast⟩ := h
  refine ⟨?_, ?_, p.events ++ tools, last, ?_, ?_, ?_⟩
  · rw [List.countP_cons]
    cases hp : p.failed <;> simp only [hp, Bool.toNat_true, Bool.toNat_false] at hfailing ⊢ <;>
      simp <;> omega
  · rw [List.countP_cons]
    cases hp : p.iterated <;>
      simp only [hp, Bool.toNat_true, Bool.toNat_false] at hiterations ⊢ <;> simp <;> omega
  · rw [List.flatMap_cons, hshape, List.append_assoc]
  · intro e he
    rcases List.mem_append.mp he with he | he
    · exact hevents e he
    · exact htools e he
  · cases hc : p.call with
    | none => simpa [hc] using hlast
    | some x =>
      rw [List.filterMap_cons, hc]
      exact hlast.cons (hcall x hc)

/-- A pass that is the last one. -/
theorem Ends.last (tools : List Event) {last : List Event}
    (hfailing : attempt + p.failed.toNat ≤ MAX_RETRIES + 1)
    (hiterations : tool_iteration + p.iterated.toNat ≤ MAX_TOOL_ITERATIONS)
    (hshape : p.events = tools ++ last) (htools : ∀ e ∈ tools, Event.of_tool e = true)
    (hlast : Ending c p.call.toList last) : Ends c attempt tool_iteration [p] := by
  refine ⟨?_, ?_, tools, last, ?_, htools, ?_⟩
  · rw [List.countP_singleton]
    cases hp : p.failed <;> simp only [hp, Bool.toNat_true, Bool.toNat_false] at hfailing ⊢ <;>
      simp <;> omega
  · rw [List.countP_singleton]
    cases hp : p.iterated <;>
      simp only [hp, Bool.toNat_true, Bool.toNat_false] at hiterations ⊢ <;> simp <;> omega
  · rw [List.flatMap_singleton, hshape]
  · cases hc : p.call with
    | none => simpa [hc] using hlast
    | some x => simpa [hc] using hlast

end

/-- A tool that was found is asked for in the text. -/
theorem executable_of_found {c : Codex} {tool_iteration : Nat} {answer : Answer}
    {request : ToolRequest} {tool : String}
    (hasked : asked c tool_iteration answer = some request)
    (hname : request.name.filter (· ∈ c.tool_specs) = some tool) : Executable c answer := by
  obtain ⟨hname, hmem⟩ := Option.filter_eq_some_iff.mp hname
  unfold asked at hasked
  split at hasked
  · cases hasked
  · next htext =>
    split at hasked
    · exact ⟨htext, request, List.mem_of_head? hasked, tool, of_decide_eq_true hmem, hname⟩
    · cases hasked

theorem gives_up_cases (attempt : Nat) (e : String) :
    (attempt + 1 ≤ MAX_RETRIES ∧ gives_up attempt e = []) ∨
      (MAX_RETRIES < attempt + 1 ∧ ∃ text n, gives_up attempt e = [.error text n]) := by
  unfold gives_up
  split
  · next h => exact .inr ⟨h, _, _, rfl⟩
  · next h => exact .inl ⟨by omega, rfl⟩

theorem passes_over (c : Codex) (left call tool_iteration : Nat) {attempt : Nat}
    (messages : List Said) (h : MAX_RETRIES < attempt) :
    passes_from c left call attempt tool_iteration messages = [] := by
  cases left with
  | zero => rfl
  | succ left => rw [passes_from, if_pos h]

/-- Each pass uses up a retry or a tool iteration, so the run ends while there
are passes left for both. -/
theorem passes_end (c : Codex) :
    ∀ (left call attempt tool_iteration : Nat) (messages : List Said),
      attempt ≤ MAX_RETRIES → tool_iteration ≤ MAX_TOOL_ITERATIONS →
      (MAX_RETRIES + 1 - attempt) + (MAX_TOOL_ITERATIONS - tool_iteration) ≤ left →
      Ends c attempt tool_iteration (passes_from c left call attempt tool_iteration messages) := by
  intro left
  induction left with
  | zero =>
    intro call attempt tool_iteration messages hattempt _ hleft
    omega
  | succ left ih =>
    intro call attempt tool_iteration messages hattempt hiteration hleft
    rw [passes_from, if_neg (by omega)]
    unfold codex_pass
    rcases c.provider call messages with e | answer
    · rcases gives_up_cases attempt e with ⟨hle, hquiet⟩ | ⟨hlt, text, n, herror⟩
      · simp only [hquiet]
        refine Ends.cons (ih _ _ _ _ hle hiteration ?_) ?_ ?_
        · simp only [Bool.toNat_true, Bool.toNat_false]
          omega
        · simp
        · simp
      · simp only [herror]
        rw [Option.elim_some, Bool.toNat_true, passes_over c left _ _ _ hlt]
        exact Ends.last [] (by simp; omega) (by simpa) rfl (by simp)
          (.fails text n (by simp))
    · simp only
      rcases hasked : asked c tool_iteration answer with _ | request
      · simp only
        exact Ends.last [] (by simp; omega) (by simpa) rfl (by simp)
          (.silent rfl hasked)
      · have hroom := asked_iterations hasked
        have hvain := asks_in_vain_of_name hasked
        simp only
        rcases hname : request.name.filter (· ∈ c.tool_specs) with _ | tool
        · rw [hname] at hvain
          simp only
          exact Ends.last [] (by simp; omega) (by simp; omega) rfl (by simp)
            (.answers rfl hvain)
        · have hexec := executable_of_found hasked hname
          simp only
          rcases (c.execute call request).text with e | text
          · rcases gives_up_cases attempt e with ⟨hle, hquiet⟩ | ⟨hlt, text, n, herror⟩
            · simp only [hquiet]
              refine Ends.cons (ih _ _ _ _ hle ?_ ?_) ?_ ?_
              · simp only [Bool.toNat_true]
                omega
              · simp only [Bool.toNat_true]
                omega
              · simp [Event.of_tool]
              · simp [hexec]
            · simp only [herror]
              rw [Option.elim_some, Bool.toNat_true, passes_over c left _ _ _ hlt]
              exact Ends.last [.tool_start tool] (by simp; omega) (by simp; omega) rfl
                (by simp [Event.of_tool]) (.fails text n (by simp [hexec]))
          · simp only
            refine Ends.cons (ih _ _ _ _ ?_ ?_ ?_) ?_ ?_
            · simp only [Bool.toNat_false]
              omega
            · simp only [Bool.toNat_true]
              omega
            · simp only [Bool.toNat_true, Bool.toNat_false]
              omega
            · simp [Event.of_tool]
            · simp [hexec]

/-! ## The law -/

section
variable {c : Codex} {messages : List Said} {tool_iteration : Nat} {answer : Answer}
variable {calls : List (Nat × Answer)} {tools last : List Event}

theorem tool_contents (h : ∀ e ∈ tools, Event.of_tool e = true) :
    tools.filterMap Event.content? = [] := by
  rw [List.filterMap_eq_nil_iff]
  intro e he
  have htool := h e he
  cases e <;> first | rfl | cases htool

theorem tool_ends (h : ∀ e ∈ tools, Event.of_tool e = true) :
    ∀ e ∈ tools, Event.ends e = false := by
  intro e he
  have htool := h e he
  cases e <;> first | rfl | cases htool

theorem usage_contents (usage : Option Usage) :
    (yield_usage usage).filterMap Event.content? = [] := by
  unfold yield_usage
  split
  · split <;> rfl
  · rfl

theorem usage_ends (usage : Option Usage) : ∀ e ∈ yield_usage usage, Event.ends e = false := by
  intro e he
  unfold yield_usage at he
  split at he
  · split at he
    · cases he
    · rw [List.mem_singleton.mp he]
      rfl
  · cases he

/-- A run ends with one event that says so. -/
theorem Ending.one (h : Ending c calls last) :
    ∃ before e, last = before ++ [e] ∧ Event.ends e = true ∧
      ∀ x ∈ before, Event.ends x = false := by
  cases h with
  | fails e n => exact ⟨[], _, rfl, rfl, by simp⟩
  | silent => exact ⟨[], _, rfl, rfl, by simp⟩
  | @answers tool_iteration answer =>
    refine ⟨_, _, rfl, rfl, fun x hx => ?_⟩
    rcases List.mem_append.mp hx with hx | hx
    · rw [List.mem_singleton.mp hx]
      rfl
    · exact usage_ends _ x hx

/-- The text of a final answer is delivered by the branch of the answers that
ask in vain, and by no other. -/
theorem Ending.delivered_iff (h : Ending c calls last)
    (htools : ∀ e ∈ tools, Event.of_tool e = true)
    (hlast : calls.getLast? = some (tool_iteration, answer)) (hfinal : ¬Executable c answer) :
    Delivered (tools ++ last) answer ↔ asks_in_vain c tool_iteration answer = true := by
  cases h with
  | fails e n h => exact absurd (h _ hlast) hfinal
  | @silent iteration x hx h =>
    rw [hlast] at hx
    cases hx
    have hvain : asks_in_vain c tool_iteration answer = false := by simp [asks_in_vain, h]
    rw [hvain]
    refine ⟨fun hd => ?_, fun hf => by cases hf⟩
    have honce := hd.once
    rw [List.filterMap_append, tool_contents htools] at honce
    exact absurd honce.symm (List.cons_ne_nil _ _)
  | @answers iteration x hx h =>
    rw [hlast] at hx
    cases hx
    refine ⟨fun _ => h, fun _ => ⟨?_, tools, ?_, fun hmem => ?_⟩⟩
    · simp only [List.filterMap_append, tool_contents htools, usage_contents]
      rfl
    · simp only [List.append_assoc]
    · have hends := tool_ends htools _ hmem
      cases hends

end

/-- LAW: A run of the Codex loop is within its limits, and it delivers its final
answer if and only if that answer asks first for a tool that the chat does not
have, where the chat has tools and iterations left. -/
theorem an_answer_is_delivered_iff_it_asks_for_a_tool_in_vain (c : Codex) (messages : List Said) :
    (Limited c messages ∧ ∀ tool_iteration answer, FinalAnswer c messages tool_iteration answer →
      Delivered (stream_codex_direct_completion c messages).events answer) ↔
    ∀ tool_iteration answer, FinalAnswer c messages tool_iteration answer →
      asks_in_vain c tool_iteration answer = true := by
  obtain ⟨hfailing, hiterations, tools, last, hshape, htools, hlast⟩ :=
    passes_end c (MAX_RETRIES + 1 + MAX_TOOL_ITERATIONS) 0 0 0 messages (by decide) (by decide)
      (by decide)
  have hrun := codex_from_passes c (MAX_RETRIES + 1 + MAX_TOOL_ITERATIONS) 0 0 0 messages
  have hevents : (stream_codex_direct_completion c messages).events = tools ++ last := by
    unfold stream_codex_direct_completion
    rw [hrun, hshape]
  have hcalls : (stream_codex_direct_completion c messages).calls =
      (passes c messages).filterMap (·.call) := by
    unfold stream_codex_direct_completion passes
    rw [hrun]
  have hlimited : Limited c messages := by
    refine ⟨by rwa [Nat.zero_add] at hfailing, by rwa [Nat.zero_add] at hiterations, ?_⟩
    obtain ⟨before, e, hend, hone, hquiet⟩ := hlast.one
    refine ⟨tools ++ before, e, by rw [hevents, hend, List.append_assoc], hone, fun x hx => ?_⟩
    rcases List.mem_append.mp hx with hx | hx
    · exact tool_ends htools x hx
    · exact hquiet x hx
  have hdelivered : ∀ tool_iteration answer, FinalAnswer c messages tool_iteration answer →
      (Delivered (stream_codex_direct_completion c messages).events answer ↔
        asks_in_vain c tool_iteration answer = true) := by
    rintro tool_iteration answer ⟨hfinal, hexec⟩
    rw [hcalls] at hfinal
    rw [hevents]
    exact hlast.delivered_iff htools hfinal hexec
  constructor
  · intro h tool_iteration answer hfinal
    exact (hdelivered _ _ hfinal).mp (h.2 _ _ hfinal)
  · intro h
    exact ⟨hlimited, fun _ _ hfinal => (hdelivered _ _ hfinal).mpr (h _ _ hfinal)⟩

/-- A provider that says hello, in a chat without tools. -/
def greeter : Codex where
  provider _ _ := .ok ⟨.plain "Hello", none⟩
  extract_codex_tool_requests _ := []
  tool_specs := []
  execute _ _ := .raised "no tool"

/-- The hello is an answer, and the run is one `done` event. -/
theorem a_greeting_is_not_delivered :
    ¬∀ (c : Codex) (messages : List Said), Limited c messages ∧
      ∀ tool_iteration answer, FinalAnswer c messages tool_iteration answer →
        Delivered (stream_codex_direct_completion c messages).events answer := by
  intro h
  have hfinal : FinalAnswer greeter [] 0 ⟨.plain "Hello", none⟩ := by
    refine ⟨by rfl, ?_⟩
    rintro ⟨-, request, hmem, -⟩
    cases hmem
  have honce := ((h greeter []).2 _ _ hfinal).once
  have hnone : (stream_codex_direct_completion greeter []).events.filterMap Event.content? =
      [] := by
    rfl
  rw [hnone] at honce
  cases honce

end dr_boz.codex_answers
