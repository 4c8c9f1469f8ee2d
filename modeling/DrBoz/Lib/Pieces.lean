-- Pieces: a list cut into pieces of one length, and pieces put one behind the
-- other with the places where they begin.
import Mathlib.Data.List.Basic
import Mathlib.Data.List.Infix

namespace pieces

variable {α : Type}

/-! ## Cutting -/

/-- `range(0, length, n)` -/
def starts (n length : Nat) : List Nat := (List.range ((length + n - 1) / n)).map (· * n)

/-- The pieces of length `n` of a list, the last of which may be shorter. -/
def slices (n : Nat) (l : List α) : List (List α) :=
  (starts n l.length).map fun start => (l.drop start).take n

theorem slices_up_to (n k : Nat) (l : List α) :
    (((List.range k).map (· * n)).map fun start => (l.drop start).take n).flatten =
      l.take (k * n) := by
  induction k with
  | zero => simp
  | succ k ih =>
    rw [List.range_succ, List.map_append, List.map_append, List.flatten_append, ih,
      Nat.succ_mul, List.take_add]
    simp

/-- The pieces are the whole list. -/
theorem slices_flatten {n : Nat} (hn : 0 < n) (l : List α) : (slices n l).flatten = l := by
  have hlength : l.length ≤ (l.length + n - 1) / n * n := by
    have hdiv := Nat.div_add_mod (l.length + n - 1) n
    have hmod := Nat.mod_lt (l.length + n - 1) hn
    rw [Nat.mul_comm] at hdiv
    omega
  unfold slices starts
  rw [slices_up_to, List.take_of_length_le hlength]

/-! ## Putting together -/

/-- The places where the pieces begin, if the first one begins at `start`. -/
def places (start : Nat) : List (List α) → List Nat
  | [] => []
  | piece :: rest => start :: places (start + piece.length) rest

theorem places_length (start : Nat) (l : List (List α)) : (places start l).length = l.length := by
  induction l generalizing start with
  | nil => rfl
  | cons piece rest ih => exact congrArg Nat.succ (ih _)

/-- Each piece begins at its place: what is before it is the head and the pieces before. -/
theorem piece_at_place (head : List α) (l : List (List α)) {i : Nat} {piece : List α}
    (h : l[i]? = some piece) :
    ∃ before after, head ++ l.flatten = before ++ piece ++ after ∧
      (places head.length l)[i]? = some before.length ∧ before = head ++ (l.take i).flatten := by
  induction l generalizing head i with
  | nil => cases h
  | cons first rest ih =>
    cases i with
    | zero =>
      cases h
      exact ⟨head, rest.flatten, by simp, rfl, by simp⟩
    | succ i =>
      obtain ⟨before, after, hsplit, hplace, hbefore⟩ := ih (head ++ first) h
      rw [List.length_append] at hplace
      refine ⟨before, after, ?_, hplace, ?_⟩
      · rw [← hsplit, List.flatten_cons, List.append_assoc]
      · rw [hbefore, List.take_succ_cons, List.flatten_cons, List.append_assoc]

end pieces
