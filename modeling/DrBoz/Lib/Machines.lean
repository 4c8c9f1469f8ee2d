-- Machines that several parties drive. A step is one move of one party, with
-- an outcome that the surroundings choose, and a move that has to wait has no
-- step. Where each step lowers a rank, and some party can move until the
-- machine is over, the machine ends, whatever is moved and whatever comes out.
import Mathlib.Data.List.Basic

namespace machines

variable {σ μ ο α : Type}

section
variable (step : σ → μ → ο → Option σ)

/-- The state after the moves, if none of them has to wait. -/
def run : σ → List (μ × ο) → Option σ
  | s, [] => some s
  | s, (m, o) :: es => (step s m o).bind fun t => run t es

/-- The move does not have to wait, whatever comes out. -/
def Ready (s : σ) (m : μ) : Prop := ∀ o, (step s m o).isSome

/-- The runs have a bound, and a run that is not over can go on. -/
def Terminates (ended : σ → Prop) (s : σ) : Prop :=
  ∃ bound, ∀ es t, run step s es = some t → es.length ≤ bound ∧ (ended t ∨ ∃ m, Ready step t m)

variable {step} {I ended : σ → Prop} {s t : σ}

theorem run_cons {m : μ} {o : ο} {es : List (μ × ο)} : run step s ((m, o) :: es) = some t ↔
    ∃ u, step s m o = some u ∧ run step u es = some t := Option.bind_eq_some_iff

/-- What each step keeps holds after the run. -/
theorem run_keeps (hI : ∀ s m o t, step s m o = some t → I s → I t) {es : List (μ × ο)}
    (h : run step s es = some t) (hs : I s) : I t := by
  induction es generalizing s with
  | nil =>
    cases h
    exact hs
  | cons e es ih =>
    obtain ⟨u, hu, hrest⟩ := run_cons.mp h
    exact ih hrest (hI _ _ _ _ hu hs)

/-- A run is no longer than the rank that it starts with. -/
theorem run_length (rank : σ → Nat) (hrank : ∀ s m o t, step s m o = some t → rank t < rank s)
    {es : List (μ × ο)} (h : run step s es = some t) : es.length + rank t ≤ rank s := by
  induction es generalizing s with
  | nil =>
    cases h
    simp
  | cons e es ih =>
    obtain ⟨u, hu, hrest⟩ := run_cons.mp h
    have hlower : rank u < rank s := hrank _ _ _ _ hu
    have hlength : es.length + rank t ≤ rank u := ih hrest
    rw [List.length_cons]
    omega

/-- LAW: a machine whose steps lower a rank, and that is over or can move
wherever its invariant holds, terminates. -/
theorem terminates_of_rank (rank : σ → Nat)
    (hrank : ∀ s m o t, step s m o = some t → rank t < rank s)
    (hI : ∀ s m o t, step s m o = some t → I s → I t)
    (hmoves : ∀ s, I s → ended s ∨ ∃ m, Ready step s m) (hs : I s) : Terminates step ended s := by
  refine ⟨rank s, fun es t h => ⟨?_, hmoves t (run_keeps hI h hs)⟩⟩
  have hlength := run_length rank hrank h
  omega

end

/-! ## Parties in a row -/

/-- A quantity of each party, summed up. -/
def total (f : α → Nat) (parties : List α) : Nat := parties.foldr (fun x n => f x + n) 0

section
variable {f g : α → Nat} {parties : List α} {i : Nat} {x y : α}

@[simp] theorem total_nil : total f [] = 0 := rfl

@[simp] theorem total_cons : total f (x :: parties) = f x + total f parties := rfl

@[simp] theorem total_append {others : List α} :
    total f (parties ++ others) = total f parties + total f others := by
  induction parties with
  | nil => simp
  | cons z parties ih =>
    simp only [List.cons_append, total_cons, ih]
    omega

/-- One party changes. -/
theorem total_set (f : α → Nat) (h : parties[i]? = some x) (y : α) :
    total f (parties.set i y) + f x = total f parties + f y := by
  induction parties generalizing i with
  | nil => cases h
  | cons z parties ih =>
    cases i with
    | zero =>
      cases h
      simp only [List.set_cons_zero, total_cons]
      omega
    | succ i =>
      rw [List.getElem?_cons_succ] at h
      simp only [List.set_cons_succ, total_cons]
      have := ih h
      omega

theorem total_pos (h : 0 < total f parties) :
    ∃ (i : Nat) (x : α), parties[i]? = some x ∧ 0 < f x := by
  induction parties with
  | nil => cases h
  | cons z parties ih =>
    rw [total_cons] at h
    by_cases hz : 0 < f z
    · exact ⟨0, z, rfl, hz⟩
    · obtain ⟨i, x, hx, hpos⟩ := ih (by omega)
      exact ⟨i + 1, x, hx, hpos⟩

/-- Where the sum is less than the number of parties, some party adds nothing. -/
theorem total_lt_length (h : total f parties < parties.length) :
    ∃ (i : Nat) (x : α), parties[i]? = some x ∧ f x = 0 := by
  induction parties with
  | nil => cases h
  | cons z parties ih =>
    rw [total_cons, List.length_cons] at h
    by_cases hz : f z = 0
    · exact ⟨0, z, rfl, hz⟩
    · obtain ⟨i, x, hx, hzero⟩ := ih (by omega)
      exact ⟨i + 1, x, hx, hzero⟩

theorem total_add : total (fun x => f x + g x) parties = total f parties + total g parties := by
  induction parties with
  | nil => rfl
  | cons z parties ih =>
    simp only [total_cons, ih]
    omega

theorem le_total (h : parties[i]? = some x) : f x ≤ total f parties := by
  induction parties generalizing i with
  | nil => cases h
  | cons z parties ih =>
    rw [total_cons]
    cases i with
    | zero =>
      cases h
      omega
    | succ i =>
      have := ih h
      omega

end

end machines
