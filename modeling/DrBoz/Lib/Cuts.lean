-- Cuts: functions that only leave letters of a text out. A text whose letters
-- are marked with their places shows which letters came to stand side by side
-- by what was left out between them.
import Mathlib.Data.List.Infix
import Mathlib.Data.List.DropRight
import Mathlib.Data.List.Iterate

namespace cuts

/-- A function that leaves letters out. What it leaves out depends on the letters, and not
on what they are marked with. -/
structure Cut (β : Type) where
  on {α : Type} : (α → β) → List α → List α
  natural {α : Type} (letter : α → β) (text : List α) :
    (on letter text).map letter = on id (text.map letter)
  sublist {α : Type} (letter : α → β) (text : List α) : (on letter text).Sublist text

variable {α β : Type}

/-- One cut after another. -/
def run (cuts : List (Cut β)) (letter : α → β) (text : List α) : List α :=
  cuts.foldl (fun text c => c.on letter text) text

theorem run_cons (c : Cut β) (cuts : List (Cut β)) (letter : α → β) (text : List α) :
    run (c :: cuts) letter text = run cuts letter (c.on letter text) := rfl

theorem run_append (first second : List (Cut β)) (letter : α → β) (text : List α) :
    run (first ++ second) letter text = run second letter (run first letter text) :=
  List.foldl_append

theorem run_natural (cuts : List (Cut β)) (letter : α → β) (text : List α) :
    (run cuts letter text).map letter = run cuts id (text.map letter) := by
  induction cuts generalizing text with
  | nil => rfl
  | cons c cuts ih =>
    rw [run_cons, run_cons, ih, c.natural]

theorem run_sublist (cuts : List (Cut β)) (letter : α → β) (text : List α) :
    (run cuts letter text).Sublist text := by
  induction cuts generalizing text with
  | nil => exact List.Sublist.refl text
  | cons c cuts ih => exact (ih (c.on letter text)).trans (c.sublist letter text)

/-! ## Texts that stay -/

/-- A text stays as it is when each of the cuts leaves it as it is. -/
theorem run_eq_self_iff {cuts : List (Cut β)} {letter : α → β} {text : List α} :
    run cuts letter text = text ↔ ∀ c ∈ cuts, c.on letter text = text := by
  induction cuts with
  | nil => simp [run]
  | cons c cuts ih =>
    rw [run_cons, List.forall_mem_cons, ← ih]
    constructor
    · intro h
      have hback : text.Sublist (c.on letter text) := by
        have hrun := run_sublist cuts letter (c.on letter text)
        rwa [h] at hrun
      have hc : c.on letter text = text := (c.sublist letter text).antisymm hback
      exact ⟨hc, by rwa [hc] at h⟩
    · rintro ⟨hc, h⟩
      rwa [hc]

/-- Cutting again and again comes to rest, after as many times as there are letters. -/
theorem iterate_run_rests (cuts : List (Cut β)) (letter : α → β) (n : Nat) (text : List α)
    (hn : text.length ≤ n) :
    run cuts letter ((run cuts letter)^[n] text) = (run cuts letter)^[n] text := by
  induction n generalizing text with
  | zero =>
    obtain rfl := List.length_eq_zero_iff.mp (Nat.le_zero.mp hn)
    exact List.sublist_nil.mp (run_sublist cuts letter [])
  | succ n ih =>
    rw [Function.iterate_succ_apply]
    by_cases h : run cuts letter text = text
    · have hstay : (run cuts letter)^[n] text = text := Function.iterate_fixed h n
      rw [h, hstay, h]
    · have hsub := run_sublist cuts letter text
      have hlt : (run cuts letter text).length ≠ text.length := fun hlen =>
        h (hsub.eq_of_length hlen)
      exact ih _ (by have := hsub.length_le; omega)

/-! ## Letters side by side -/

/-- The marks of the letters follow one another. -/
def SideBySide (m : List (β × Nat)) : Prop := ∃ k, m.map Prod.snd = List.range' k m.length

def Increasing (text : List (β × Nat)) : Prop := text.Pairwise fun x y => x.2 < y.2

theorem increasing_zipIdx (text : List β) : Increasing text.zipIdx := by
  have h : (text.zipIdx.map Prod.snd).Pairwise (· < ·) := by
    rw [List.zipIdx_map_snd]
    exact List.pairwise_lt_range'
  exact List.pairwise_map.mp h

/-- Letters that follow one another from the least mark on stand at the head. -/
theorem prefix_of_marks {m text : List (β × Nat)} {k : Nat} (hinc : Increasing text)
    (hk : ∀ x ∈ text, k ≤ x.2) (hsub : m.Sublist text)
    (hmarks : m.map Prod.snd = List.range' k m.length) : m <+: text := by
  induction m generalizing text k with
  | nil => exact List.nil_prefix
  | cons e m ih =>
    rw [List.map_cons, List.length_cons, List.range'_succ] at hmarks
    obtain ⟨he, hmarks⟩ := List.cons.inj hmarks
    cases text with
    | nil => cases hsub
    | cons x text =>
      obtain ⟨hx, hinc'⟩ := List.pairwise_cons.mp hinc
      cases hsub with
      | cons _ hsub =>
        have hlt := hx e (hsub.subset (by simp))
        have hle := hk x (by simp)
        omega
      | cons_cons _ hsub =>
        refine (List.prefix_cons_inj e).mpr (ih hinc' (fun y hy => ?_) hsub hmarks)
        have hlt := hx y hy
        omega

theorem infix_of_side_by_side {m text : List (β × Nat)} (hinc : Increasing text)
    (hsub : m.Sublist text) (hm : SideBySide m) : m <:+: text := by
  induction text with
  | nil => rw [List.sublist_nil.mp hsub]
  | cons x text ih =>
    obtain ⟨hx, hinc'⟩ := List.pairwise_cons.mp hinc
    cases hsub with
    | cons _ hsub => exact List.infix_cons (ih hinc' hsub)
    | @cons_cons m _ _ hsub =>
      obtain ⟨k, hk⟩ := hm
      rw [List.map_cons, List.length_cons, List.range'_succ] at hk
      obtain ⟨hmark, hmarks⟩ := List.cons.inj hk
      have hprefix : m <+: text :=
        prefix_of_marks hinc' (fun y hy => by have := hx y hy; omega) hsub hmarks
      exact ((List.prefix_cons_inj x).mpr hprefix).isInfix

/-- Wherever `W` holds of a piece of the text, the cut leaves the first letter of the piece
out. -/
def Cut.Breaks (c : Cut β) (W : List β → Prop) : Prop :=
  ∀ {α : Type} (letter : α → β) (start m more : List α) (e : α), W ((e :: m).map letter) →
    (c.on letter (start ++ e :: (m ++ more))).Sublist (start ++ (m ++ more))

/-- What a cut breaks is in the result only if it was joined: its letters did not stand side
by side in the text. -/
theorem not_side_by_side {cuts : List (Cut β)} {c : Cut β} {W : List β → Prop} (hc : c ∈ cuts)
    (hbreaks : c.Breaks W) {text : List β} {m : List (β × Nat)}
    (hm : m <:+: run cuts Prod.fst text.zipIdx) (hne : m ≠ []) (hW : W (m.map Prod.fst)) :
    ¬ SideBySide m := by
  intro hside
  obtain ⟨first, second, rfl⟩ := List.append_of_mem hc
  cases m with
  | nil => exact hne rfl
  | cons e m =>
    have hlast : (run (first ++ c :: second) Prod.fst text.zipIdx).Sublist
        (c.on Prod.fst (run first Prod.fst text.zipIdx)) := by
      rw [run_append]
      exact run_sublist second Prod.fst _
    have hsub := hm.sublist.trans hlast
    have hinc : Increasing (run first Prod.fst text.zipIdx) :=
      (increasing_zipIdx text).sublist (run_sublist first Prod.fst _)
    obtain ⟨start, more, htext⟩ :=
      infix_of_side_by_side hinc (hsub.trans (c.sublist Prod.fst _)) hside
    rw [List.append_assoc, List.cons_append] at htext
    rw [← htext] at hinc hsub
    have hkept : e ∈ start ++ (m ++ more) :=
      (hsub.trans (hbreaks Prod.fst start m more e hW)).subset (by simp)
    -- the marks differ, so the letter is not there a second time
    obtain ⟨-, hrest, hbefore⟩ := List.pairwise_append.mp hinc
    rcases List.mem_append.mp hkept with hstart | hrest'
    · exact absurd (hbefore e hstart e (by simp)) (Nat.lt_irrefl _)
    · exact absurd ((List.pairwise_cons.mp hrest).1 e hrest') (Nat.lt_irrefl _)

/-! ## Trimming -/

theorem dropWhile_natural (letter : α → β) (p : β → Bool) (text : List α) :
    (text.dropWhile fun x => p (letter x)).map letter = (text.map letter).dropWhile p :=
  List.dropWhile_map.symm

/-- Leaves out the letters of a class at both ends. -/
def Cut.trim (p : β → Bool) : Cut β where
  on letter text := (text.dropWhile fun x => p (letter x)).rdropWhile fun x => p (letter x)
  natural letter text := by
    simp only [List.rdropWhile, List.map_reverse, dropWhile_natural, id]
  sublist letter text :=
    (List.rdropWhile_prefix _ _).sublist.trans (List.dropWhile_sublist _)

end cuts
