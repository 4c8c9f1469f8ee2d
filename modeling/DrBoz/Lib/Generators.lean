-- Generators that yield values and act in between, and consumers that stop
-- reading at a marker. What a generator does after the value at which its
-- consumer stops does not happen.
import Mathlib.Data.List.Basic

namespace generators
variable {ω ε : Type}

/-- A step of a generator: it hands a value over, or acts. -/
inductive Step (ω ε : Type) where
  | yields (value : ω)
  | acts (effect : ε)
deriving DecidableEq

/-- The value that a step hands over. -/
def Step.value? : Step ω ε → Option ω
  | .yields value => some value
  | .acts _ => none

def Step.effect? : Step ω ε → Option ε
  | .yields _ => none
  | .acts effect => some effect

def values (g : List (Step ω ε)) : List ω := g.filterMap Step.value?

def effects (g : List (Step ω ε)) : List ε := g.filterMap Step.effect?

/-- The steps that happen for a consumer that reads no further than a value with `stop`. -/
def upto (stop : ω → Bool) : List (Step ω ε) → List (Step ω ε)
  | [] => []
  | .acts effect :: g => .acts effect :: upto stop g
  | .yields value :: g => if stop value then [.yields value] else .yields value :: upto stop g

@[simp] theorem values_append (g h : List (Step ω ε)) : values (g ++ h) = values g ++ values h := by
  simp [values]

@[simp] theorem effects_append (g h : List (Step ω ε)) :
    effects (g ++ h) = effects g ++ effects h := by
  simp [effects]

@[simp] theorem values_yields (ws : List ω) :
    values (ws.map (Step.yields : ω → Step ω ε)) = ws := by
  induction ws with
  | nil => rfl
  | cons w ws ih => exact congrArg (w :: ·) ih

@[simp] theorem effects_yields (ws : List ω) :
    effects (ws.map (Step.yields : ω → Step ω ε)) = [] := by
  induction ws with
  | nil => rfl
  | cons w ws ih => exact ih

/-- A consumer reads on through values that are no markers. -/
theorem upto_append {stop : ω → Bool} {g : List (Step ω ε)} (h : List (Step ω ε))
    (hgo : ∀ value ∈ values g, stop value = false) : upto stop (g ++ h) = g ++ upto stop h := by
  induction g with
  | nil => rfl
  | cons s g ih =>
    cases s with
    | acts effect =>
      have hrest := ih hgo
      rw [List.cons_append, upto, hrest]
      rfl
    | yields value =>
      have hvalue := hgo value (by simp [values, Step.value?])
      have hrest := ih fun v hv => hgo v (by simp [values, Step.value?] at hv ⊢; exact Or.inr hv)
      rw [List.cons_append, upto, if_neg (by simp [hvalue]), hrest]
      rfl

/-- What comes after a marker does not happen. -/
theorem upto_marker {stop : ω → Bool} {g : List (Step ω ε)} {value : ω} (h : List (Step ω ε))
    (hgo : ∀ value ∈ values g, stop value = false) (hstop : stop value = true) :
    upto stop (g ++ .yields value :: h) = g ++ [.yields value] := by
  rw [upto_append _ hgo, upto, if_pos hstop]

end generators
