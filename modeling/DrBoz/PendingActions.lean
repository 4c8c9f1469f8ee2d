-- Law of the actions that wait for credit: one action in a column of the user,
-- with the time at which it was saved. The button to go on with it is shown by
-- the age of that time, and a press takes the action out of the column before
-- it runs it.
import DrBoz.Lib.Runs
import DrBoz.Py

open runs dr_boz.py

namespace dr_boz.pending_actions
variable {α : Type}

/-! ## Saving -/

/-- The text of a time in ISO format: with the offset of UTC, or without one. -/
structure Stamp where
  time : Datetime
  aware : Bool
deriving DecidableEq, Repr

/-- `pending_action_payload`. A time that is missing or cannot be read is
nothing. -/
structure PendingAction (α : Type) where
  action_type : String
  timestamp : Option Stamp
  payload : α
deriving DecidableEq

/-- The three places that save an action. -/
inductive Writer where
  | run_tool_aware_completion
  | run_precomputed_spreadsheet_completion
  | handle_voice
deriving DecidableEq, Repr

def Writer.action_type : Writer → String
  | .run_tool_aware_completion | .run_precomputed_spreadsheet_completion => "chat_completion"
  | .handle_voice => "voice_transcription"

/-- All of them write `datetime.now(timezone.utc).isoformat()`. -/
def Writer.saved (writer : Writer) (now : Datetime) (payload : α) : PendingAction α where
  action_type := writer.action_type
  timestamp := some ⟨now, true⟩
  payload := payload

/-! ## The button -/

/-- Whether there is a button, and what is left in the column. `_utcnow()` has
no offset: the difference to a time that has one raises, and the handler of the
exception shows no button. -/
def get_pending_action_markup (now : Datetime) (column : Option (PendingAction α)) :
    Bool × Option (PendingAction α) :=
  match column with
  | none => (false, none)
  | some action =>
    match action.timestamp with
    | none => (false, column)
    | some stamp =>
      if stamp.aware then (false, column)
      else if now - stamp.time > days 1 then (false, none)
      else (true, column)

/-- What the button should do for an action of a given time. -/
def OfferedInTime (saved now : Datetime) (action : PendingAction α) : Prop :=
  (get_pending_action_markup now (some action)).1 = true ↔ now - saved ≤ days 1

/-! ## A press -/

/-- What a press meets once it has cleared the column: whether the platform
takes the answer to the press, whether the model is found and the credit looked
up, whether there is credit, whether the update has a message of its own (that
of a button has none), and whether the work comes to its end. -/
structure Course where
  answered : Bool
  found : Bool
  credit : Bool
  message : Bool
  completed : Bool
  now : Datetime

inductive Outcome (α : Type) where
  | executed
  | saved_again (action : PendingAction α)
  | failed

/-- The rest of `handle_resume_pending_action`. A completion without credit is
saved again, and one with credit begins with a reply to the message. -/
def resume (course : Course) (action : PendingAction α) : Outcome α :=
  if !course.answered then .failed
  else if action.action_type = "chat_completion" then
    if !course.found then .failed
    else if !course.credit then
      .saved_again (Writer.run_tool_aware_completion.saved course.now action.payload)
    else if !course.message then .failed
    else if course.completed then .executed
    else .failed
  else if action.action_type = "voice_transcription" then
    if course.completed then .executed else .failed
  else .failed

/-- A press has read the column, has cleared it, or is over. -/
inductive Phase (α : Type) where
  | holds (action : PendingAction α)
  | cleared (action : PendingAction α)
  | over

def Phase.running : Phase α → Bool
  | .cleared _ => true
  | _ => false

structure World (α : Type) where
  column : Option (PendingAction α)
  presses : List (Phase α) := []
  executed : Nat := 0

inductive Event where
  | look (now : Datetime)
  | press
  | clear (i : Nat)
  | run (i : Nat) (course : Course)

def World.finish (w : World α) (i : Nat) : Outcome α → World α
  | .executed => { w with presses := w.presses.set i .over, executed := w.executed + 1 }
  | .saved_again action => { w with presses := w.presses.set i .over, column := some action }
  | .failed => { w with presses := w.presses.set i .over }

/-- A press that finds an empty column says so and is over. -/
def step (w : World α) : Event → World α
  | .look now => { w with column := (get_pending_action_markup now w.column).2 }
  | .press =>
    match w.column with
    | none => w
    | some action => { w with presses := w.presses ++ [.holds action] }
  | .clear i =>
    match w.presses[i]? with
    | some (.holds action) =>
      { w with column := none, presses := w.presses.set i (.cleared action) }
    | _ => w
  | .run i course =>
    match w.presses[i]? with
    | some (.cleared action) => w.finish i (resume course action)
    | _ => w

/-! ## What is wanted -/

/-- The action is executed once at most, and while none is running it is still
stored unless it was executed. -/
structure ActionKept (w : World α) : Prop where
  once : w.executed ≤ 1
  stored : w.presses.countP Phase.running = 0 → w.executed = 0 → w.column.isSome = true

/-- The platform takes the answer. A completion finds its model, and has no
credit or else a message and an end. A transcription has an end. -/
def GoesThrough (course : Course) (action_type : String) : Prop :=
  course.answered = true ∧
    (action_type = "chat_completion" ∧ course.found = true ∧
        (course.credit = false ∨ course.message = true ∧ course.completed = true) ∨
      action_type = "voice_transcription" ∧ course.completed = true)

/-- No press clears the column after another one has, and what a press runs
goes through. -/
def Fit (w : World α) : Event → Prop
  | .clear i => ∀ action, w.presses[i]? = some (.holds action) → w.column.isSome = true
  | .run i course => ∀ action, w.presses[i]? = some (.cleared action) →
    GoesThrough course action.action_type
  | _ => True

/-! ## What a run keeps -/

/-- The action is in the column, in one press, or executed: in one place. The
time in the column has an offset. -/
structure InOnePlace (w : World α) : Prop where
  once : w.executed + w.presses.countP Phase.running + (if w.column.isSome then 1 else 0) = 1
  aware : ∀ action stamp, w.column = some action → action.timestamp = some stamp →
    stamp.aware = true

theorem look_aware {column : Option (PendingAction α)} (now : Datetime)
    (h : ∀ action stamp, column = some action → action.timestamp = some stamp →
      stamp.aware = true) : get_pending_action_markup now column = (false, column) := by
  unfold get_pending_action_markup
  split
  · rfl
  · next action =>
    split
    · rfl
    · next stamp hstamp => exact if_pos (h action stamp rfl hstamp)

theorem saved_again_aware {course : Course} {action again : PendingAction α}
    (h : resume course action = .saved_again again) {stamp : Stamp}
    (hstamp : again.timestamp = some stamp) : stamp.aware = true := by
  unfold resume at h
  split_ifs at h
  cases h
  cases hstamp
  rfl

theorem resume_of_goes_through {course : Course} {action : PendingAction α}
    (h : GoesThrough course action.action_type) : resume course action ≠ .failed := by
  obtain ⟨hanswered, ⟨htype, hfound, hcredit⟩ | ⟨htype, hcompleted⟩⟩ := h
  · unfold resume
    rw [hanswered, if_neg (by decide), if_pos htype, hfound, if_neg (by decide)]
    rcases hcredit with hcredit | ⟨hmessage, hcompleted⟩
    · rw [hcredit, if_pos (by decide)]
      exact fun h => nomatch h
    · cases course.credit with
      | false => exact fun h => nomatch h
      | true =>
        rw [if_neg (by decide), hmessage, if_neg (by decide), hcompleted, if_pos rfl]
        exact fun h => nomatch h
  · have hother : action.action_type ≠ "chat_completion" := by
      rw [htype]
      decide
    unfold resume
    rw [hanswered, if_neg (by decide), if_neg hother, if_pos htype, hcompleted, if_pos rfl]
    exact fun h => nomatch h

variable {w : World α}

theorem running_set {i : Nat} {old : Phase α} (hi : w.presses[i]? = some old) (new : Phase α) :
    (w.presses.set i new).countP Phase.running + (if old.running then 1 else 0) =
      w.presses.countP Phase.running + if new.running then 1 else 0 := by
  obtain ⟨hlt, hget⟩ := List.getElem?_eq_some_iff.mp hi
  have hcount : (if old.running then 1 else 0) ≤ w.presses.countP Phase.running := by
    by_cases hrunning : old.running = true
    · rw [if_pos hrunning]
      exact List.countP_pos_iff.mpr ⟨old, hget ▸ List.getElem_mem hlt, hrunning⟩
    · rw [if_neg hrunning]
      exact Nat.zero_le _
  rw [List.countP_set hlt, hget]
  omega

theorem step_keeps (e : Event) (hw : InOnePlace w) (he : Fit w e) : InOnePlace (step w e) := by
  obtain ⟨honce, haware⟩ := hw
  cases e with
  | look now =>
    rw [step, look_aware now haware]
    exact ⟨honce, haware⟩
  | press =>
    simp only [step]
    split
    · exact ⟨honce, haware⟩
    · next action hcolumn =>
      refine ⟨?_, haware⟩
      rw [List.countP_append]
      exact honce
  | clear i =>
    simp only [step]
    split
    · next action hi =>
      have hstored := he action hi
      have hset := running_set hi (.cleared action)
      rw [if_pos hstored] at honce
      refine ⟨?_, fun _ _ h => nomatch h⟩
      simp only [Phase.running, Bool.false_eq_true, if_false, if_true, Option.isSome_none] at hset ⊢
      omega
    · exact ⟨honce, haware⟩
  | run i course =>
    simp only [step]
    split
    · next action hi =>
      have hset := running_set hi .over
      simp only [Phase.running, Bool.false_eq_true, if_false, if_true] at hset
      cases hresume : resume course action with
      | executed =>
        refine ⟨?_, haware⟩
        change w.executed + 1 + (w.presses.set i .over).countP Phase.running +
          (if w.column.isSome then 1 else 0) = 1
        omega
      | saved_again again =>
        refine ⟨?_, fun found stamp hfound hstamp => ?_⟩
        · simp only [World.finish, Option.isSome_some, if_true]
          omega
        · cases hfound
          exact saved_again_aware hresume hstamp
      | failed => exact absurd hresume (resume_of_goes_through (he action hi))
    · exact ⟨honce, haware⟩

theorem kept_of_one_place (h : InOnePlace w) : ActionKept w := by
  obtain ⟨honce, -⟩ := h
  refine ⟨by omega, fun hrunning hexecuted => ?_⟩
  by_contra hnot
  rw [if_neg hnot] at honce
  omega

/-! ## The law -/

/-- The column of an action that was just saved. -/
def start (writer : Writer) (saved : Datetime) (payload : α) : World α where
  column := some (writer.saved saved payload)

/-- A press in a callback, with credit. -/
def in_callback : Course := ⟨true, true, true, false, true, hours 1⟩

end dr_boz.pending_actions
