-- Patterns that are looked for in a text from the left, as the functions of a
-- module for regular expressions look for them: each match starts where the
-- last one ended, or later.
import Mathlib.Data.List.Basic

namespace text_scan

/-- What a pattern captures at the start of a text, and how many characters it takes there. -/
abbrev Pattern (α : Type) := List Char → Option (α × Nat)

/-! ## Building patterns -/

/-- The text after the literal `part`, if it starts with that. -/
def literal (part text : List Char) : Option (List Char) :=
  if part <+: text then some (text.drop part.length) else none

/-- `.*?` and then the pattern: the first place of the line where it matches. -/
def lazily {α : Type} (pattern : Pattern α) : Pattern α
  | [] => pattern []
  | c :: text =>
    match pattern (c :: text) with
    | some found => some found
    | none => if c = '\n' then none else (lazily pattern text).map fun (a, n) => (a, n + 1)

/-- A match, with what is before it in the text. -/
structure Match (α : Type) where
  start : Nat
  captured : α
deriving DecidableEq

/-! ## Finding and removing -/

/-- The matches in a text whose first `skip` characters belong to a match already. -/
def find_from {α : Type} (pattern : Pattern α) : Nat → Nat → List Char → List (Match α)
  | _, _, [] => []
  | skip + 1, pos, _ :: text => find_from pattern skip (pos + 1) text
  | 0, pos, c :: text =>
    match pattern (c :: text) with
    | some (a, n + 1) => ⟨pos, a⟩ :: find_from pattern n (pos + 1) text
    | _ => find_from pattern 0 (pos + 1) text

/-- `pattern.finditer(text)` -/
def finditer {α : Type} (pattern : Pattern α) (text : List Char) : List (Match α) :=
  find_from pattern 0 0 text

def remove_from {α : Type} (pattern : Pattern α) : Nat → List Char → List Char
  | _, [] => []
  | skip + 1, _ :: text => remove_from pattern skip text
  | 0, c :: text =>
    match pattern (c :: text) with
    | some (_, n + 1) => remove_from pattern n text
    | _ => c :: remove_from pattern 0 text

/-- `pattern.sub("", text)` -/
def remove {α : Type} (pattern : Pattern α) (text : List Char) : List Char :=
  remove_from pattern 0 text

/-! ## Scanning step by step -/

section
variable {α : Type} {pattern : Pattern α}

/-- The pattern matches nowhere in the text. -/
def Free (pattern : Pattern α) (text : List Char) : Prop :=
  ∀ before after, text = before ++ after → after ≠ [] → ∀ a n, pattern after ≠ some (a, n + 1)

/-- The pattern matches at no place of `part` when `rest` is behind it. -/
def Passes (pattern : Pattern α) (part rest : List Char) : Prop :=
  ∀ before after, part = before ++ after → after ≠ [] → ∀ a n,
    pattern (after ++ rest) ≠ some (a, n + 1)

theorem passes_nil_iff {text : List Char} : Passes pattern text [] ↔ Free pattern text := by
  simp only [Passes, Free, List.append_nil]

theorem passes_cons {c : Char} {part rest : List Char} :
    Passes pattern (c :: part) rest ↔
      (∀ a n, pattern (c :: part ++ rest) ≠ some (a, n + 1)) ∧ Passes pattern part rest := by
  constructor
  · intro h
    refine ⟨h [] _ rfl (by simp), fun before after hsplit => ?_⟩
    exact h (c :: before) after (by rw [hsplit]; rfl)
  · rintro ⟨hhead, hrest⟩ before after hsplit hne
    cases before with
    | nil =>
      rw [List.nil_append] at hsplit
      rw [← hsplit]
      exact hhead
    | cons d before =>
      rw [List.cons_append, List.cons.injEq] at hsplit
      exact hrest before after hsplit.2 hne

theorem passes_nil_rest (rest : List Char) : Passes pattern [] rest := fun _ _ hsplit hne =>
  absurd (List.append_eq_nil_iff.mp hsplit.symm).2 hne

theorem passes_append {part more rest : List Char} :
    Passes pattern (part ++ more) rest ↔
      Passes pattern part (more ++ rest) ∧ Passes pattern more rest := by
  induction part with
  | nil => exact (and_iff_right (passes_nil_rest _)).symm
  | cons c part ih =>
    rw [List.cons_append, passes_cons, ih, passes_cons, and_assoc, List.cons_append,
      List.cons_append, List.append_assoc]

theorem find_from_cons_none {c : Char} {text : List Char}
    (h : ∀ a n, pattern (c :: text) ≠ some (a, n + 1)) (pos : Nat) :
    find_from pattern 0 pos (c :: text) = find_from pattern 0 (pos + 1) text ∧
      remove_from pattern 0 (c :: text) = c :: remove_from pattern 0 text := by
  rw [find_from, remove_from]
  rcases hfound : pattern (c :: text) with _ | ⟨a, _ | n⟩
  · exact ⟨rfl, rfl⟩
  · exact ⟨rfl, rfl⟩
  · exact absurd hfound (h a n)

theorem passes_scan {part rest : List Char} (h : Passes pattern part rest) (pos : Nat) :
    find_from pattern 0 pos (part ++ rest) = find_from pattern 0 (pos + part.length) rest ∧
      remove_from pattern 0 (part ++ rest) = part ++ remove_from pattern 0 rest := by
  induction part generalizing pos with
  | nil => exact ⟨rfl, rfl⟩
  | cons c part ih =>
    obtain ⟨hhead, hrest⟩ := passes_cons.mp h
    rw [List.cons_append] at hhead ⊢
    obtain ⟨hfind, hremove⟩ := find_from_cons_none hhead pos
    obtain ⟨hfinds, hremoves⟩ := ih hrest (pos + 1)
    rw [hfind, hremove, hfinds, hremoves, List.length_cons]
    exact ⟨congrArg (find_from pattern 0 · rest) (by omega), rfl⟩

theorem skip_scan (part rest : List Char) (pos : Nat) :
    find_from pattern part.length pos (part ++ rest) =
        find_from pattern 0 (pos + part.length) rest ∧
      remove_from pattern part.length (part ++ rest) = remove_from pattern 0 rest := by
  induction part generalizing pos with
  | nil => exact ⟨rfl, rfl⟩
  | cons c part ih =>
    obtain ⟨hfind, hremove⟩ := ih (pos + 1)
    rw [List.cons_append, List.length_cons, find_from, remove_from, hfind, hremove]
    exact ⟨congrArg (find_from pattern 0 · rest) (by omega), rfl⟩

/-- A match at the place where the scan is. -/
theorem match_scan {c : Char} {part rest : List Char} {a : α}
    (h : pattern (c :: part ++ rest) = some (a, part.length + 1)) (pos : Nat) :
    find_from pattern 0 pos (c :: part ++ rest) =
        ⟨pos, a⟩ :: find_from pattern 0 (pos + (part.length + 1)) rest ∧
      remove_from pattern 0 (c :: part ++ rest) = remove_from pattern 0 rest := by
  obtain ⟨hfind, hremove⟩ := @skip_scan _ pattern part rest (pos + 1)
  rw [List.cons_append] at h ⊢
  rw [find_from, remove_from, h]
  have hpos : pos + 1 + part.length = pos + (part.length + 1) := by omega
  simp only [hfind, hremove, hpos, and_self]

theorem free_scan {text : List Char} (h : Free pattern text) (pos : Nat) :
    find_from pattern 0 pos text = [] ∧ remove_from pattern 0 text = text := by
  obtain ⟨hfind, hremove⟩ := passes_scan (passes_nil_iff.mpr h) pos
  rw [List.append_nil] at hfind hremove
  exact ⟨hfind.trans rfl, hremove.trans (List.append_nil _)⟩

theorem free_of_find {text : List Char} {pos : Nat}
    (h : find_from pattern 0 pos text = []) : Free pattern text := by
  induction text generalizing pos with
  | nil =>
    intro before after hsplit hne
    exact absurd (List.append_eq_nil_iff.mp hsplit.symm).2 hne
  | cons c text ih =>
    have hhead : ∀ a n, pattern (c :: text) ≠ some (a, n + 1) := by
      intro a n hfound
      rw [find_from, hfound] at h
      cases h
    rw [(find_from_cons_none hhead pos).1] at h
    rw [← passes_nil_iff, passes_cons, passes_nil_iff, List.append_nil]
    exact ⟨hhead, ih h⟩

theorem free_suffix {before text : List Char} (h : Free pattern (before ++ text)) :
    Free pattern text := by
  intro start after hsplit
  exact h (before ++ start) after (by rw [hsplit, List.append_assoc])

end

/-! ## The first place of a line -/

section
variable {α : Type} {pattern : Pattern α}

theorem lazily_first {line rest : List Char} {a : α} {n : Nat} (hline : '\n' ∉ line)
    (hno : ∀ before after, line = before ++ after → after ≠ [] → pattern (after ++ rest) = none)
    (h : pattern rest = some (a, n)) :
    lazily pattern (line ++ rest) = some (a, line.length + n) := by
  induction line with
  | nil =>
    rw [List.nil_append, List.length_nil, Nat.zero_add]
    cases rest with
    | nil => exact h
    | cons c rest => rw [lazily, h]
  | cons c line ih =>
    rw [List.mem_cons, not_or] at hline
    rw [List.cons_append, lazily]
    have hhead : pattern (c :: (line ++ rest)) = none := hno [] (c :: line) rfl (by simp)
    have hrest := ih hline.2 fun before after hsplit =>
      hno (c :: before) after (by rw [hsplit]; rfl)
    rw [hhead, if_neg (Ne.symm hline.1), hrest, List.length_cons]
    simp only [Option.map_some, Option.some.injEq, Prod.mk.injEq, true_and]
    omega

/-- The pattern is found after a stretch of the line at whose places it does not match. -/
theorem lazily_some {text : List Char} {a : α} {n : Nat}
    (h : lazily pattern text = some (a, n)) :
    ∃ line rest k, text = line ++ rest ∧ '\n' ∉ line ∧ n = line.length + k ∧
      pattern rest = some (a, k) ∧
      ∀ before after, line = before ++ after → after ≠ [] → pattern (after ++ rest) = none := by
  induction text generalizing n with
  | nil => exact ⟨[], [], n, rfl, List.not_mem_nil, by simp, h, fun before after hsplit hne =>
      absurd (List.append_eq_nil_iff.mp hsplit.symm).2 hne⟩
  | cons c text ih =>
    rw [lazily] at h
    rcases hhead : pattern (c :: text) with _ | found
    · rw [hhead] at h
      dsimp only at h
      split at h
      · cases h
      · rename_i hc
        obtain ⟨⟨b, m⟩, hfound, heq⟩ := Option.map_eq_some_iff.mp h
        cases heq
        obtain ⟨line, rest, k, rfl, hline, rfl, hrest, hno⟩ := ih hfound
        refine ⟨c :: line, rest, k, rfl, ?_, ?_, hrest, ?_⟩
        · rw [List.mem_cons, not_or]
          exact ⟨Ne.symm hc, hline⟩
        · rw [List.length_cons]
          omega
        · intro before after hsplit hne
          cases before with
          | nil =>
            rw [List.nil_append] at hsplit
            rw [← hsplit]
            exact hhead
          | cons d before =>
            rw [List.cons_append, List.cons.injEq] at hsplit
            exact hno before after hsplit.2 hne
    · rw [hhead] at h
      cases h
      exact ⟨[], c :: text, n, rfl, List.not_mem_nil, by simp, hhead,
        fun before after hsplit hne => absurd (List.append_eq_nil_iff.mp hsplit.symm).2 hne⟩

end

end text_scan
