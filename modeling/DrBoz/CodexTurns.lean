-- Law of a turn of the Codex app server (`start_turn` of `codex_app_server.py`):
-- the wait ends at the first terminal notification, the turn is aborted by an
-- interruption or a timeout only, and its text has all messages of the agent.
-- The snapshot of a message takes the place of all that was said before it.
import DrBoz.AppServer
import DrBoz.CliLines

open runs
open dr_boz.app_server (PyText Json get text lower mentions)
open dr_boz.cli_lines (truncated)

namespace dr_boz.codex_turns

/-! ## What is read of a notification -/

/-- What a handler raises. `_dispatch` logs it, and that is all. -/
inductive HandlerError where
  | attribute_error
  | type_error
  | value_error
  | overflow_error
  | recursion_error
deriving DecidableEq, Repr

/-- `json.loads` and `int` of a text, and how deep the interpreter recurses. -/
structure Library where
  loads : PyText → Except HandlerError Json
  int_of : PyText → Option Int
  frames : Nat

/-- The blanks of `str.strip`. -/
def space (c : Nat) : Bool :=
  c ∈ [0x20, 0x85, 0xA0, 0x1680, 0x2028, 0x2029, 0x202F, 0x205F, 0x3000] ||
    (0x9 ≤ c && c ≤ 0xD) || (0x1C ≤ c && c ≤ 0x1F) || (0x2000 ≤ c && c ≤ 0x200A)

def strip (t : PyText) : PyText := ((t.dropWhile space).reverse.dropWhile space).reverse

/-- `a or b` -/
def either (a b : Json) : Json := if a.truthy then a else b

/-- `value.strip()` of a text that is not blank. -/
def stripped : Json → Option PyText
  | .str t => if strip t = [] then none else some (strip t)
  | _ => none

/-- `_extract_thread_id`, with the frames that are left. -/
def extract_thread_id : (frames : Nat) → Json → Except HandlerError (Option PyText)
  | 0, _ => .error .recursion_error
  | frames + 1, .dict params =>
    match (stripped (get params "threadId")).or (stripped (get params "thread_id")) with
    | some id => .ok (some id)
    | none => do
      let thread ← extract_thread_id frames (get params "thread")
      if thread.isSome then return thread
      let turn ← extract_thread_id frames (get params "turn")
      if turn.isSome then return turn
      extract_thread_id frames (get params "session")
  | _ + 1, _ => .ok none

/-- `item.get("content") or item.get("text")`, where it is a text. -/
def item_text (item : List (PyText × Json)) : Option PyText :=
  match either (get item "content") (get item "text") with
  | .str t => some t
  | _ => none

def extract_delta_text : Json → Option PyText
  | .dict params =>
    let delta := match get params "delta" with
      | .str t => some t
      | _ => none
    match either (get params "item") (.dict []) with
    | .dict item => (item_text item).or delta
    | _ => delta
  | _ => none

/-- The item of `item/completed`, if it is a message of the agent. A list or a
dictionary has no hash. -/
def agent_message : Json → Except HandlerError (Option (List (PyText × Json)))
  | .dict params =>
    match either (get params "item") (.dict []) with
    | .dict item =>
      match get item "type" with
      | .list _ | .dict _ => .error .type_error
      | .str t => .ok (if t = text "agent_message" ∨ t = text "message" then some item else none)
      | _ => .ok none
    | _ => .ok none
  | _ => .ok none

def extract_completed_text (params : Json) : Except HandlerError (Option PyText) := do
  let item ← agent_message params
  return item.bind item_text

/-- `int(value or 0)` -/
def int_value (L : Library) (value : Json) : Except HandlerError Int :=
  match either value (.int 0) with
  | .int n => .ok n
  | .bool b => .ok (if b then 1 else 0)
  | .float x => .ok (truncated x)
  | .infinity | .minus_infinity => .error .overflow_error
  | .nan => .error .value_error
  | .str t =>
    match L.int_of t with
    | some n => .ok n
    | none => .error .value_error
  | .null | .list _ | .dict _ => .error .type_error

structure Usage where
  input_tokens : Int
  output_tokens : Int
  total_tokens : Int
deriving DecidableEq, Repr

/-- `_extract_usage`. What is no dictionary gives `{}`. -/
def extract_usage (L : Library) : Json → Except HandlerError (Option Usage)
  | .dict params =>
    match either (get params "usage") (.dict []) with
    | .dict usage => do
      let input_tokens ← int_value L (get usage "input_tokens")
      let output_tokens ← int_value L (get usage "output_tokens")
      let total_tokens ← int_value L (get usage "total_tokens")
      return some ⟨input_tokens, output_tokens, total_tokens⟩
    | _ => .ok none
  | _ => .ok none

/-- The message in a message that is JSON itself. `nested.get("error", {})` has to
be a dictionary, and only a `ValueError` or a `TypeError` is caught. -/
def nested_message (L : Library) (message : PyText) : Except HandlerError PyText :=
  match L.loads message with
  | .error .value_error | .error .type_error => .ok message
  | .error e => .error e
  | .ok (.dict nested) =>
    match nested.find? fun field => field.1 = text "error" with
    | none => .ok message
    | some (_, .dict error) =>
      match get error "message" with
      | .str t => .ok t
      | _ => .ok message
    | some _ => .error .attribute_error
  | .ok _ => .ok message

def extract_error (L : Library) : Json → Except HandlerError (Option PyText)
  | .dict params =>
    let message := match get params "message" with
      | .str t => some t
      | _ => none
    match get params "error" with
    | .dict error_obj =>
      match get error_obj "message" with
      | .str t => (nested_message L t).map some
      | _ => .ok message
    | _ => .ok message
  | _ => .ok none

/-! ## The turn -/

inductive Phase where
  | waiting
  | interrupting
  | over
deriving DecidableEq, Repr

/-- The variables of `start_turn`, and how far it is. -/
structure Turn where
  result_text : PyText := []
  completed : Bool := false
  aborted : Bool := false
  usage : Option Usage := none
  error : Option PyText := none
  current_thread_id : Option PyText
  phase : Phase := .waiting

/-- The methods that the handler knows. -/
inductive Kind where
  | delta
  | item_completed
  | turn_completed
  | turn_failed
  | turn_interrupted
  | other
deriving DecidableEq, Repr

/-- The comparisons of `method_lower`. -/
def kind : Json → Kind
  | .str t =>
    let method_lower := lower t
    if method_lower = text "item/agentmessage/delta" then .delta
    else if method_lower = text "item/completed" then .item_completed
    else if method_lower = text "turn/completed" then .turn_completed
    else if method_lower = text "turn/failed" ∨ method_lower = text "turn.failed" then .turn_failed
    else if method_lower = text "turn/interrupted" ∨ method_lower = text "turn.interrupted" then
      .turn_interrupted
    else .other
  | _ => .other

/-- The id of the thread in a notification. A method that is no text has no `lower`. -/
def found_thread_id (L : Library) (method params : Json) :
    Except HandlerError (Option PyText) := do
  match method with
  | .str t =>
    let found ← extract_thread_id L.frames params
    let raw_id := match params with
      | .dict fields => if mentions "thread" t then stripped (get fields "id") else none
      | _ => none
    return found.or raw_id
  | _ => throw .attribute_error

/-- The part of `on_notification` after the thread is known. -/
def take_notification (L : Library) (w : Turn) (method params : Json) : Turn :=
  match kind method with
  | .delta => { w with result_text := w.result_text ++ (extract_delta_text params).getD [] }
  | .item_completed =>
    match extract_completed_text params with
    | .ok (some t) => if t = [] then w else { w with result_text := t }
    | _ => w
  | .turn_completed =>
    match extract_usage L params with
    | .ok usage => { w with usage, completed := true }
    | .error _ => w
  | .turn_failed =>
    match extract_error L params with
    | .ok error => { w with error, completed := true }
    | .error _ => w
  | .turn_interrupted => { w with aborted := true, completed := true }
  | .other => w

/-- `on_notification`, with what it raises caught. What is changed before an error
stays changed. -/
def on_notification (L : Library) (w : Turn) (method params : Json) : Turn :=
  match found_thread_id L method params with
  | .ok found =>
    take_notification L { w with current_thread_id := found.or w.current_thread_id } method params
  | .error _ => w

/-- What happens in a turn: a notification comes, a wait times out (the first after
300 seconds, the second 10 seconds later), or the turn goes on because its wait is
over. The reader may have taken more lines by then. Nothing comes to a turn that is
over. -/
inductive Event where
  | notification (method params : Json)
  | timeout
  | late_timeout
  | resumes

def step (L : Library) (w : Turn) : Event → Turn
  | .notification method params => on_notification L w method params
  | .timeout => { w with aborted := true, phase := .interrupting }
  | .late_timeout | .resumes => { w with phase := .over }

def start (thread_id : Option PyText) : Turn := { current_thread_id := thread_id }

/-- `result_text.strip() or None` -/
def returned_text (t : PyText) : Option PyText := if strip t = [] then none else some (strip t)

/-! ## What is wanted -/

def Kind.is_terminal : Kind → Bool
  | .turn_completed | .turn_failed | .turn_interrupted => true
  | .delta | .item_completed | .other => false

/-- The first terminal notification. -/
def first_terminal : List Event → Option (Json × Json)
  | [] => none
  | .notification method params :: events =>
    if (kind method).is_terminal then some (method, params) else first_terminal events
  | _ :: events => first_terminal events

/-- What the agent has said: the messages that are completed before the last one with
a snapshot, those from it on, and the deltas since. -/
structure Said where
  before : List PyText := []
  since : List PyText := []
  deltas : PyText := []

/-- The messages, each of them once. -/
def Said.messages (said : Said) : List PyText := said.before ++ said.since ++ [said.deltas]

/-- The text of a completed message is its snapshot, or else its deltas. The deltas
of a message come before it is completed. -/
def Said.complete (said : Said) : Option PyText → Said
  | some (c :: t) => ⟨said.before ++ said.since, [c :: t], []⟩
  | _ => ⟨said.before, said.since ++ [said.deltas], []⟩

/-- A notification that is too deep for the search of its thread is not read. -/
def Said.hear (L : Library) (said : Said) : Event → Said
  | .notification method params =>
    match found_thread_id L method params, kind method with
    | .ok _, .delta => { said with deltas := said.deltas ++ (extract_delta_text params).getD [] }
    | .ok _, .item_completed =>
      match agent_message params with
      | .ok (some item) => said.complete (item_text item)
      | _ => said
    | _, _ => said
  | _ => said

def said_in (L : Library) (events : List Event) : Said := events.foldl (Said.hear L) {}

def Blank (t : PyText) : Prop := ∀ c ∈ t, space c = true

/-- The messages one after the other, with blanks between them or none. -/
inductive Joined : List PyText → PyText → Prop
  | nil {gap : PyText} (h : Blank gap) : Joined [] gap
  | cons {gap m t : PyText} {ms : List PyText} (h : Blank gap) (hrest : Joined ms t) :
      Joined (m :: ms) (gap ++ m ++ t)

/-- The turn as it should be: the wait ends at the first terminal notification and
not before, the turn is aborted only when this is an interruption or after a timeout,
and the text that is returned is that of the messages. -/
structure EndsWithAnswer (L : Library) (thread_id : Option PyText) (events : List Event) :
    Prop where
  waits : ∀ before, before <+: events →
    (after (step L) (start thread_id) before).completed = (first_terminal before).isSome
  aborted : (after (step L) (start thread_id) events).aborted = true →
    (∃ n ∈ first_terminal events, kind n.1 = .turn_interrupted) ∨ .timeout ∈ events
  answer : (after (step L) (start thread_id) events).phase = .over →
    ∃ t, Joined (said_in L events).messages t ∧
      returned_text (after (step L) (start thread_id) events).result_text = returned_text t

/-- A terminal notification that is read without an error. -/
structure Settles (L : Library) (method params : Json) : Prop where
  thread : ∃ found, found_thread_id L method params = .ok found
  usage : kind method = .turn_completed → ∃ usage, extract_usage L params = .ok usage
  error : kind method = .turn_failed → ∃ error, extract_error L params = .ok error

/-- An interruption that is read. -/
def Interrupts (L : Library) : Event → Prop
  | .notification method params =>
    kind method = .turn_interrupted ∧ ∃ found, found_thread_id L method params = .ok found
  | _ => False

/-! ## The wait -/

section
variable {L : Library} {w : Turn}

/-- An event that sets `completed_event`. -/
def Sets (L : Library) : Event → Prop
  | .notification method params => (kind method).is_terminal = true ∧ Settles L method params
  | _ => False

theorem step_completed (e : Event) :
    (step L w e).completed = true ↔ w.completed = true ∨ Sets L e := by
  cases e with
  | notification method params =>
    simp only [step, on_notification, Sets]
    cases hthread : found_thread_id L method params with
    | error e =>
      have hnot : ¬Settles L method params := by
        intro hsettles
        obtain ⟨found, hfound⟩ := hsettles.thread
        rw [hthread] at hfound
        cases hfound
      simp [hnot]
    | ok found =>
      simp only [take_notification]
      have hread : ∃ found, found_thread_id L method params = .ok found := ⟨found, hthread⟩
      cases hkind : kind method with
      | delta => simp [Kind.is_terminal]
      | other => simp [Kind.is_terminal]
      | item_completed =>
        simp only [Kind.is_terminal, Bool.false_eq_true, false_and, or_false]
        split
        · split <;> rfl
        · rfl
      | turn_interrupted =>
        have hsettles : Settles L method params :=
          ⟨hread, by rw [hkind]; nofun, by rw [hkind]; nofun⟩
        simp [Kind.is_terminal, hsettles]
      | turn_completed =>
        cases husage : extract_usage L params with
        | error e =>
          have hnot : ¬Settles L method params := by
            intro hsettles
            obtain ⟨usage, hok⟩ := hsettles.usage hkind
            rw [husage] at hok
            cases hok
          simp [hnot]
        | ok usage =>
          have hsettles : Settles L method params :=
            ⟨hread, fun _ => ⟨usage, husage⟩, by rw [hkind]; nofun⟩
          simp [Kind.is_terminal, hsettles]
      | turn_failed =>
        cases herror : extract_error L params with
        | error e =>
          have hnot : ¬Settles L method params := by
            intro hsettles
            obtain ⟨error, hok⟩ := hsettles.error hkind
            rw [herror] at hok
            cases hok
          simp [hnot]
        | ok error =>
          have hsettles : Settles L method params :=
            ⟨hread, by rw [hkind]; nofun, fun _ => ⟨error, herror⟩⟩
          simp [Kind.is_terminal, hsettles]
  | timeout => simp [step, Sets]
  | late_timeout => simp [step, Sets]
  | resumes => simp [step, Sets]

theorem step_aborted (e : Event) :
    (step L w e).aborted = true ↔ w.aborted = true ∨ Interrupts L e ∨ e = .timeout := by
  cases e with
  | notification method params =>
    simp only [step, on_notification, Interrupts, reduceCtorEq, or_false]
    cases hthread : found_thread_id L method params with
    | error e => simp
    | ok found =>
      simp only [take_notification]
      cases hkind : kind method with
      | delta => simp
      | other => simp
      | item_completed =>
        simp only [reduceCtorEq, false_and, or_false]
        split
        · split <;> rfl
        · rfl
      | turn_interrupted => simp
      | turn_completed =>
        simp only [reduceCtorEq, false_and, or_false]
        split <;> rfl
      | turn_failed =>
        simp only [reduceCtorEq, false_and, or_false]
        split <;> rfl
  | timeout => simp [step]
  | late_timeout => simp [step, Interrupts]
  | resumes => simp [step, Interrupts]

theorem after_completed (events : List Event) : ∀ w : Turn,
    (after (step L) w events).completed = true ↔ w.completed = true ∨ ∃ e ∈ events, Sets L e := by
  induction events with
  | nil =>
    intro w
    simp
  | cons e events ih =>
    intro w
    rw [after_cons, ih, step_completed, List.exists_mem_cons_iff, or_assoc]

theorem after_aborted (events : List Event) : ∀ w : Turn,
    (after (step L) w events).aborted = true ↔
      w.aborted = true ∨ (∃ e ∈ events, Interrupts L e) ∨ .timeout ∈ events := by
  induction events with
  | nil =>
    intro w
    simp
  | cons e events ih =>
    intro w
    rw [after_cons, ih, step_aborted, List.exists_mem_cons_iff, List.mem_cons,
      @eq_comm _ Event.timeout e, or_assoc, or_or_or_comm]

theorem first_terminal_append (before later : List Event) :
    first_terminal (before ++ later) = (first_terminal before).or (first_terminal later) := by
  induction before with
  | nil => rfl
  | cons e before ih =>
    cases e with
    | notification method params =>
      rw [List.cons_append, first_terminal, first_terminal, ih]
      split <;> rfl
    | _ => exact ih

theorem first_terminal_sets {events : List Event} {e : Event} (he : e ∈ events) (h : Sets L e) :
    (first_terminal events).isSome = true := by
  obtain ⟨before, later, rfl⟩ := List.append_of_mem he
  rw [first_terminal_append]
  cases e with
  | notification method params =>
    rw [first_terminal, if_pos h.1]
    cases first_terminal before <;> rfl
  | _ => cases h

/-- The first terminal notification, with the run cut behind it. -/
theorem first_terminal_split {events : List Event} {method params : Json}
    (h : first_terminal events = some (method, params)) :
    ∃ before, before ++ [.notification method params] <+: events ∧
      first_terminal before = none ∧ (kind method).is_terminal = true := by
  induction events with
  | nil => cases h
  | cons e events ih =>
    have hskip : first_terminal events = some (method, params) → first_terminal [e] = none →
        ∃ before, before ++ [.notification method params] <+: e :: events ∧
          first_terminal before = none ∧ (kind method).is_terminal = true := by
      intro hlater hfirst
      obtain ⟨before, hprefix, hnone, hterminal⟩ := ih hlater
      refine ⟨e :: before, List.cons_prefix_cons.mpr ⟨rfl, hprefix⟩, ?_, hterminal⟩
      rw [← List.singleton_append, first_terminal_append, hfirst, hnone]
      rfl
    cases e with
    | notification other found =>
      rw [first_terminal] at h
      by_cases hterminal : (kind other).is_terminal = true
      · rw [if_pos hterminal] at h
        cases h
        exact ⟨[], List.cons_prefix_cons.mpr ⟨rfl, List.nil_prefix⟩, rfl, hterminal⟩
      · rw [if_neg hterminal] at h
        exact hskip h (if_neg hterminal)
    | _ => exact hskip h rfl

/-- The wait ends at the first terminal notification if and only if this one is read
without an error. -/
theorem waits_iff (thread_id : Option PyText) (events : List Event) :
    (∀ before, before <+: events →
      (after (step L) (start thread_id) before).completed = (first_terminal before).isSome) ↔
    ∀ n ∈ first_terminal events, Settles L n.1 n.2 := by
  constructor
  · rintro hwaits ⟨method, params⟩ hfirst
    obtain ⟨before, hprefix, hnone, hterminal⟩ := first_terminal_split hfirst
    have hdone := hwaits _ hprefix
    have hsome : (first_terminal (before ++ [.notification method params])).isSome = true := by
      rw [first_terminal_append, hnone, first_terminal, if_pos hterminal]
      rfl
    rw [hsome, after_completed] at hdone
    rcases hdone with hstart | ⟨e, he, hsets⟩
    · cases hstart
    · rcases List.mem_append.mp he with he | he
      · have hearlier := first_terminal_sets he hsets
        rw [hnone] at hearlier
        cases hearlier
      · rw [List.mem_singleton.mp he] at hsets
        exact hsets.2
  · rintro hsettles before ⟨later, rfl⟩
    rw [Bool.eq_iff_iff, after_completed]
    constructor
    · rintro (hstart | ⟨e, he, hsets⟩)
      · cases hstart
      · exact first_terminal_sets he hsets
    · intro hsome
      obtain ⟨⟨method, params⟩, hfirst⟩ := Option.isSome_iff_exists.mp hsome
      obtain ⟨earlier, hprefix, _, hterminal⟩ := first_terminal_split hfirst
      have hread : Settles L method params := by
        refine hsettles (method, params) ?_
        rw [first_terminal_append, hfirst]
        rfl
      have hmem : Event.notification method params ∈ before :=
        hprefix.mem (List.mem_append_right earlier List.mem_cons_self)
      exact .inr ⟨_, hmem, hterminal, hread⟩

end

/-! ## The text -/

section
variable {L : Library}

theorem blank_filter (t : PyText) : t.filter (fun c => !space c) = [] ↔ Blank t := by
  rw [List.filter_eq_nil_iff]
  unfold Blank
  simp

/-- What is no blank stays when a text is stripped. -/
theorem strip_filter (t : PyText) :
    (strip t).filter (fun c => !space c) = t.filter fun c => !space c := by
  have hdrop : ∀ u : PyText, (u.dropWhile space).filter (fun c => !space c) =
      u.filter fun c => !space c := by
    intro u
    induction u with
    | nil => rfl
    | cons c u ih =>
      rw [List.dropWhile_cons]
      split
      · rename_i hc
        rw [ih, List.filter_cons_of_neg (by simp [hc])]
      · rfl
  unfold strip
  rw [List.filter_reverse, hdrop, ← List.filter_reverse, List.reverse_reverse, hdrop]

theorem strip_blank_append {b : PyText} (hb : Blank b) (t : PyText) : strip (b ++ t) = strip t := by
  unfold strip
  rw [List.dropWhile_append_of_pos hb]

theorem returned_text_injective {t u : PyText} (h : returned_text t = returned_text u) :
    strip t = strip u := by
  unfold returned_text at h
  split at h
  · rename_i ht
    split at h
    · rename_i hu
      rw [ht, hu]
    · cases h
  · split at h
    · cases h
    · exact Option.some.inj h

theorem returned_text_congr {t u : PyText} (h : strip t = strip u) :
    returned_text t = returned_text u := by
  unfold returned_text
  rw [h]

theorem joined_filter {ms : List PyText} {t : PyText} (h : Joined ms t) :
    t.filter (fun c => !space c) = ms.flatten.filter fun c => !space c := by
  induction h with
  | nil h => exact (blank_filter _).mpr h
  | cons h _ ih =>
    rw [List.filter_append, List.filter_append, (blank_filter _).mpr h, ih, List.flatten_cons,
      List.filter_append, List.nil_append]

theorem joined_flatten (ms : List PyText) : Joined ms ms.flatten := by
  induction ms with
  | nil => exact .nil nofun
  | cons m ms ih => exact Joined.cons (nofun : Blank []) ih

theorem flatten_blank {ms : List PyText} : Blank ms.flatten ↔ ∀ m ∈ ms, Blank m := by
  unfold Blank
  constructor
  · intro h m hm c hc
    exact h c (List.mem_flatten.mpr ⟨m, hm, hc⟩)
  · intro h c hc
    obtain ⟨m, hm, hc⟩ := List.mem_flatten.mp hc
    exact h m hm c hc

/-- A text with all messages but the first ones is that of all messages exactly when
the first ones are blank. -/
theorem joined_iff (before rest : List PyText) :
    (∃ t, Joined (before ++ rest) t ∧ returned_text rest.flatten = returned_text t) ↔
      ∀ m ∈ before, Blank m := by
  constructor
  · rintro ⟨t, hjoined, htext⟩
    have hsame := congrArg (List.filter fun c => !space c) (returned_text_injective htext)
    rw [strip_filter, strip_filter, joined_filter hjoined, List.flatten_append,
      List.filter_append] at hsame
    have hnone := List.self_eq_append_left.mp hsame
    exact flatten_blank.mp ((blank_filter _).mp hnone)
  · intro hblank
    refine ⟨(before ++ rest).flatten, joined_flatten _, returned_text_congr ?_⟩
    rw [List.flatten_append, strip_blank_append (flatten_blank.mpr hblank)]

/-- The text of a turn is what was said from the last snapshot on. -/
def Heard (said : Said) (t : PyText) : Prop := t = (said.since ++ [said.deltas]).flatten

theorem step_heard {said : Said} {w : Turn} (h : Heard said w.result_text) (e : Event) :
    Heard (said.hear L e) (step L w e).result_text := by
  cases e with
  | notification method params =>
    simp only [step, on_notification, Said.hear]
    cases found_thread_id L method params with
    | error e => exact h
    | ok found =>
      simp only [take_notification]
      cases kind method with
      | delta =>
        unfold Heard at h ⊢
        simp only [h, List.flatten_append, List.flatten_cons, List.flatten_nil, List.append_nil,
          List.append_assoc]
      | item_completed =>
        simp only [extract_completed_text]
        cases agent_message params with
        | error e => exact h
        | ok item =>
          cases item with
          | none => exact h
          | some item =>
            have hdeltas : Heard ⟨said.before, said.since ++ [said.deltas], []⟩ w.result_text := by
              unfold Heard at h ⊢
              simp only [h, List.flatten_append, List.flatten_cons, List.flatten_nil,
                List.append_nil]
            simp only [bind, Except.bind, pure, Except.pure, Option.bind_some]
            cases hsnapshot : item_text item with
            | none => exact hdeltas
            | some t =>
              cases t with
              | nil => exact hdeltas
              | cons c t =>
                simp only [reduceCtorEq, if_false, Said.complete]
                unfold Heard
                simp
      | turn_completed =>
        simp only
        split <;> exact h
      | turn_failed =>
        simp only
        split <;> exact h
      | turn_interrupted => exact h
      | other => exact h
  | timeout => exact h
  | late_timeout => exact h
  | resumes => exact h

theorem after_heard (events : List Event) : ∀ (said : Said) (w : Turn), Heard said w.result_text →
    Heard (events.foldl (Said.hear L) said) (after (step L) w events).result_text := by
  induction events with
  | nil => exact fun said w h => h
  | cons e events ih => exact fun said w h => ih _ _ (step_heard h e)

end

/-! ## The law -/

/-- LAW: a turn ends with its answer exactly when its first terminal notification is
read without an error, no interruption is read after another terminal notification
(but a timeout), and at its end no message is followed by the snapshot of another one,
unless it is blank. -/
theorem a_turn_ends_with_its_answer_iff (L : Library) (thread_id : Option PyText)
    (events : List Event) :
    EndsWithAnswer L thread_id events ↔
      (∀ n ∈ first_terminal events, Settles L n.1 n.2) ∧
      ((∃ e ∈ events, Interrupts L e) →
        (∃ n ∈ first_terminal events, kind n.1 = .turn_interrupted) ∨ .timeout ∈ events) ∧
      ((after (step L) (start thread_id) events).phase = .over →
        ∀ m ∈ (said_in L events).before, Blank m) := by
  have haborted : (after (step L) (start thread_id) events).aborted = true ↔
      (∃ e ∈ events, Interrupts L e) ∨ .timeout ∈ events := by
    rw [after_aborted]
    exact ⟨fun h => h.resolve_left Bool.false_ne_true, .inr⟩
  have hheard : Heard (said_in L events) (after (step L) (start thread_id) events).result_text :=
    after_heard events {} (start thread_id) rfl
  have hanswer : (∃ t, Joined (said_in L events).messages t ∧
      returned_text (after (step L) (start thread_id) events).result_text = returned_text t) ↔
      ∀ m ∈ (said_in L events).before, Blank m := by
    rw [hheard, Said.messages, List.append_assoc]
    exact joined_iff _ _
  constructor
  · intro h
    exact ⟨(waits_iff thread_id events).mp h.waits,
      fun hread => h.aborted (haborted.mpr (.inl hread)),
      fun hover => hanswer.mp (h.answer hover)⟩
  · rintro ⟨hsettles, hinterrupts, hblank⟩
    refine ⟨(waits_iff thread_id events).mpr hsettles, fun h => ?_,
      fun hover => hanswer.mpr (hblank hover)⟩
    rcases haborted.mp h with hread | htimeout
    · exact hinterrupts hread
    · exact .inr htimeout

/-- A library that reads no JSON and no numbers in texts. -/
def plain_library : Library where
  loads _ := .error .value_error
  int_of _ := none
  frames := 8

/-- A message of the agent that is completed. -/
def completed (content : String) : Event :=
  .notification (.str (text "item/completed")) (.dict [(text "item", .dict
    [(text "type", .str (text "agent_message")), (text "content", .str (text content))])])

def turn_completed (usage : List (PyText × Json)) : Event :=
  .notification (.str (text "turn/completed")) (.dict [(text "usage", .dict usage)])

/-- Of two messages only the second one is returned, and the number of the tokens as a
word leaves the turn waiting. -/
theorem the_first_message_is_lost :
    ¬EndsWithAnswer plain_library none
      [completed "Let me check.", completed "It is 4.", turn_completed [], .resumes] ∧
    ¬EndsWithAnswer plain_library none
      [completed "It is 4.", turn_completed [(text "input_tokens", .str (text "many"))]] := by
  constructor
  · intro h
    have hblank := (joined_iff [text "Let me check."] [text "It is 4.", []]).mp (h.answer rfl) _
      (List.mem_singleton_self _)
    exact absurd (hblank 76 (by decide)) (by decide)
  · intro h
    exact absurd (h.waits _ List.prefix_rfl) (by decide)

end dr_boz.codex_turns
