-- Runs of a deterministic step function: what every step keeps, what holds
-- of every step, and steps of a kind that a run has at most once.
import Mathlib.Data.List.Basic

namespace runs
universe u v
variable {ω : Type u} {ε : Type v} (step : ω → ε → ω)

/-- The state after the steps. -/
def after (w : ω) (es : List ε) : ω := es.foldl step w

/-- Each step is of the kind, in the state that it finds. -/
def Each (P : ω → ε → Prop) : ω → List ε → Prop
  | _, [] => True
  | w, e :: es => P w e ∧ Each P (step w e) es

/-- No two steps of the run are of the kind. -/
def AtMostOnce (K : ω → ε → Prop) (w : ω) (es : List ε) : Prop :=
  ∀ pre e mid e' post, es = pre ++ e :: (mid ++ e' :: post) → K (after step w pre) e →
    ¬K (after step w (pre ++ e :: mid)) e'

variable {step} {P Q K : ω → ε → Prop} {I : ω → Prop} {w : ω}

@[simp] theorem after_nil : after step w [] = w := rfl

@[simp] theorem after_cons (e : ε) (es : List ε) :
    after step w (e :: es) = after step (step w e) es := rfl

theorem after_append (es fs : List ε) :
    after step w (es ++ fs) = after step (after step w es) fs := List.foldl_append

theorem each_append {es fs : List ε} :
    Each step P w (es ++ fs) ↔ Each step P w es ∧ Each step P (after step w es) fs := by
  induction es generalizing w with
  | nil => simp [Each]
  | cons e es ih => simp only [List.cons_append, Each, after_cons, ih, and_assoc]

/-- Each step, with the run cut in front of it. -/
theorem each_iff {es : List ε} :
    Each step P w es ↔ ∀ pre e post, es = pre ++ e :: post → P (after step w pre) e := by
  constructor
  · rintro h pre e post rfl
    exact (each_append.mp h).2.1
  · intro h
    induction es generalizing w with
    | nil => trivial
    | cons e es ih =>
      refine ⟨h [] e es rfl, ih fun pre x post hes => ?_⟩
      exact h (e :: pre) x post (by rw [hes]; rfl)

theorem Each.mono (hPQ : ∀ w e, P w e → Q w e) {es : List ε} (h : Each step P w es) :
    Each step Q w es := by
  induction es generalizing w with
  | nil => trivial
  | cons e es ih => exact ⟨hPQ _ _ h.1, ih h.2⟩

theorem each_and {es : List ε} :
    Each step (fun w e => P w e ∧ Q w e) w es ↔ Each step P w es ∧ Each step Q w es := by
  induction es generalizing w with
  | nil => simp [Each]
  | cons e es ih =>
    simp only [Each, ih]
    tauto

/-- Kinds that agree where an invariant holds, when every step keeps it. -/
theorem each_congr (hI : ∀ w e, I w → I (step w e)) (hPQ : ∀ w e, I w → (P w e ↔ Q w e))
    (hw : I w) (es : List ε) : Each step P w es ↔ Each step Q w es := by
  induction es generalizing w with
  | nil => exact Iff.rfl
  | cons e es ih => exact and_congr (hPQ w e hw) (ih (hI w e hw))

/-- What each step of the kind keeps holds after the run. -/
theorem Each.keeps (hI : ∀ w e, I w → P w e → I (step w e)) {es : List ε} (h : Each step P w es)
    (hw : I w) : I (after step w es) := by
  induction es generalizing w with
  | nil => exact hw
  | cons e es ih => exact ih h.2 (hI _ _ hw h.1)

/-- Each step finds what the steps of the kind keep. -/
theorem Each.finds (hI : ∀ w e, I w → P w e → I (step w e)) {es : List ε} (h : Each step P w es)
    (hw : I w) : Each step (fun w e => I w ∧ P w e) w es := by
  induction es generalizing w with
  | nil => trivial
  | cons e es ih => exact ⟨⟨hw, h.1⟩, ih h.2 (hI _ _ hw h.1)⟩

/-- A step of the kind finds the token and spends it, and nothing gives the
token back: the run has at most one of these steps. -/
theorem at_most_once (Spent : ω → Prop) (hI : ∀ w e, I w → P w e → I (step w e))
    (hfinds : ∀ w e, I w → P w e → K w e → ¬Spent w)
    (hspends : ∀ w e, I w → P w e → K w e → Spent (step w e))
    (hstays : ∀ w e, I w → P w e → Spent w → Spent (step w e))
    (hw : I w) {es : List ε} (h : Each step P w es) : AtMostOnce step K w es := by
  rintro pre e mid e' post rfl hK hK'
  obtain ⟨hpre, hP, hrest⟩ := each_append.mp h
  obtain ⟨hmid, hP', -⟩ := each_append.mp hrest
  have hI₁ : I (after step w pre) := hpre.keeps hI hw
  have hI₂ : I (step (after step w pre) e) := hI _ _ hI₁ hP
  have hspent : I (after step w (pre ++ e :: mid)) ∧ Spent (after step w (pre ++ e :: mid)) := by
    rw [after_append, after_cons]
    refine hmid.keeps (I := fun w => I w ∧ Spent w) ?_ ⟨hI₂, hspends _ _ hI₁ hP hK⟩
    exact fun w e hw hP => ⟨hI _ _ hw.1 hP, hstays _ _ hw.1 hP hw.2⟩
  refine hfinds _ _ hspent.1 ?_ hK' hspent.2
  rw [after_append, after_cons]
  exact hP'

end runs
