-- Texts with separators in them: what is left without those at the ends, the
-- words between them, and words that are joined again.
import Mathlib.Data.List.DropRight

namespace separated

section
variable {α : Type} {p : α → Bool} {text : List α}

/-! ## Texts that are trimmed -/

/-- No separator is at an end. -/
def Bare (p : α → Bool) (text : List α) : Prop :=
  (∀ c, text.head? = some c → p c = false) ∧ ∀ c, text.getLast? = some c → p c = false

/-- There are only separators. -/
def Blank (p : α → Bool) (text : List α) : Prop := ∀ c ∈ text, p c = true

def trim (p : α → Bool) (text : List α) : List α := (text.dropWhile p).rdropWhile p

theorem trim_subset : trim p text ⊆ text :=
  ((List.rdropWhile_prefix p _).isInfix.trans (List.dropWhile_suffix p).isInfix).subset

theorem trim_isInfix : trim p text <:+: text :=
  (List.rdropWhile_prefix p _).isInfix.trans (List.dropWhile_suffix p).isInfix

theorem trim_length (p : α → Bool) (text : List α) : (trim p text).length ≤ text.length :=
  (List.rdropWhile_prefix p _).length_le.trans (List.dropWhile_suffix p).length_le

theorem dropWhile_eq_self (h : ∀ c, text.head? = some c → p c = false) :
    text.dropWhile p = text := by
  cases text with
  | nil => rfl
  | cons c rest => exact List.dropWhile_cons_of_neg (by rw [h c rfl]; exact Bool.false_ne_true)

theorem rdropWhile_eq_self (h : ∀ c, text.getLast? = some c → p c = false) :
    text.rdropWhile p = text := by
  rw [List.rdropWhile_eq_self_iff]
  intro hne hlast
  rw [h _ (List.getLast?_eq_some_getLast hne)] at hlast
  cases hlast

theorem trim_eq_self (h : Bare p text) : trim p text = text := by
  unfold trim
  rw [dropWhile_eq_self h.1, rdropWhile_eq_self h.2]

theorem bare_trim (p : α → Bool) (text : List α) : Bare p (trim p text) := by
  unfold trim
  constructor
  · intro c hc
    have hfirst : (text.dropWhile p).head? = some c := by
      obtain ⟨rest, hrest⟩ := List.rdropWhile_prefix p (text.dropWhile p)
      rw [← hrest, List.head?_append, hc]
      rfl
    have hnot := List.head?_dropWhile_not p text
    rw [hfirst] at hnot
    simpa using hnot
  · intro c hc
    have hne : (text.dropWhile p).rdropWhile p ≠ [] := by
      intro hnil
      rw [hnil] at hc
      cases hc
    have hnot := List.rdropWhile_last_not p (text.dropWhile p) hne
    rw [List.getLast?_eq_some_getLast hne, Option.some.injEq] at hc
    rw [hc] at hnot
    exact Bool.not_eq_true _ ▸ hnot

/-- What is trimmed is blank, or it is nothing. -/
theorem trim_eq_nil_iff : trim p text = [] ↔ Blank p text := by
  unfold trim Blank
  rw [List.rdropWhile_eq_nil_iff]
  constructor
  · intro h
    have hnil : text.dropWhile p = [] := by
      have hnot := List.head?_dropWhile_not p text
      cases hrest : text.dropWhile p with
      | nil => rfl
      | cons c rest =>
        rw [hrest] at h hnot
        have hc : p c = false := by simpa using hnot
        rw [h c List.mem_cons_self] at hc
        cases hc
    exact List.dropWhile_eq_nil_iff.mp hnil
  · intro h c hc
    exact h c ((List.dropWhile_suffix p).subset hc)

theorem rdropWhile_append_blank {blank : List α} (h : Blank p blank) (text : List α) :
    (text ++ blank).rdropWhile p = text.rdropWhile p := by
  unfold List.rdropWhile
  rw [List.reverse_append, List.dropWhile_append_of_pos]
  exact fun c hc => h c (List.mem_reverse.mp hc)

theorem trim_blank_append {blank : List α} (h : Blank p blank) (text : List α) :
    trim p (blank ++ text) = trim p text := by
  unfold trim
  rw [List.dropWhile_append_of_pos h]

theorem trim_append_blank {blank : List α} (h : Blank p blank) (text : List α) :
    trim p (text ++ blank) = trim p text := by
  unfold trim
  rw [List.dropWhile_append]
  split
  · next hnil =>
    rw [List.isEmpty_iff.mp hnil, List.dropWhile_eq_nil_iff.mpr h]
  · exact rdropWhile_append_blank h _

/-- A trimmed text behind another one stays. -/
theorem suffix_trim (before : List α) (h : Bare p text) : text <:+ trim p (before ++ text) := by
  unfold trim
  rw [List.dropWhile_append]
  split
  · have hsame : (text.dropWhile p).rdropWhile p = text := by
      rw [dropWhile_eq_self h.1, rdropWhile_eq_self h.2]
    exact hsame.symm ▸ List.suffix_rfl
  · cases htext : text with
    | nil => exact List.nil_suffix
    | cons c rest =>
      rw [← htext, rdropWhile_eq_self]
      · exact List.suffix_append _ _
      · intro d hd
        have hlast := List.getLast?_eq_some_getLast (List.cons_ne_nil c rest)
        rw [List.getLast?_append, htext, hlast] at hd
        exact h.2 d (by rw [htext, hlast]; exact hd)

/-! ## Words -/

def words (p : α → Bool) (text : List α) : List (List α) :=
  (text.splitOnP p).filter fun word => !word.isEmpty

@[simp] theorem words_nil : words p [] = [] := by
  unfold words
  rw [List.splitOnP_nil]
  rfl

/-- A separator ends a word. -/
theorem words_append_cons {c : α} (h : p c = true) (before rest : List α) :
    words p (before ++ c :: rest) = words p before ++ words p rest := by
  unfold words
  rw [List.splitOnP_append_cons _ _ h, List.filter_append]

theorem words_cons {c : α} (h : p c = true) (rest : List α) : words p (c :: rest) = words p rest :=
  words_append_cons h [] rest

theorem words_of_none (hne : text ≠ []) (h : ∀ c ∈ text, p c = false) : words p text = [text] := by
  unfold words
  rw [List.splitOnP_eq_singleton h, List.filter_cons_of_pos (by simpa using hne), List.filter_nil]

theorem words_dropWhile (p : α → Bool) (text : List α) :
    words p (text.dropWhile p) = words p text := by
  induction text with
  | nil => rfl
  | cons c rest ih =>
    by_cases hc : p c = true
    · rw [List.dropWhile_cons_of_pos hc, ih, words_cons hc]
    · rw [List.dropWhile_cons_of_neg hc]

theorem words_of_blank (h : Blank p text) : words p text = [] := by
  rw [← words_dropWhile, List.dropWhile_eq_nil_iff.mpr h, words_nil]

theorem words_append_blank {blank : List α} (h : Blank p blank) (text : List α) :
    words p (text ++ blank) = words p text := by
  cases blank with
  | nil => rw [List.append_nil]
  | cons c rest =>
    obtain ⟨hc, hrest⟩ := List.forall_mem_cons.mp h
    rw [words_append_cons hc, words_of_blank hrest, List.append_nil]

theorem words_trim (p : α → Bool) (text : List α) : words p (trim p text) = words p text := by
  have hsplit : (text.dropWhile p).rdropWhile p ++ (text.dropWhile p).rtakeWhile p =
      text.dropWhile p := List.rdropWhile_append_rtakeWhile
  have hblank : Blank p ((text.dropWhile p).rtakeWhile p) := fun c hc =>
    List.mem_rtakeWhile_imp hc
  have hwords := words_append_blank hblank ((text.dropWhile p).rdropWhile p)
  rw [hsplit, words_dropWhile] at hwords
  exact hwords.symm

theorem words_ne_nil {c : α} (h : p c = false) (rest : List α) : words p (c :: rest) ≠ [] := by
  obtain ⟨first, more, hsplit⟩ := List.exists_cons_of_ne_nil (List.splitOnP_ne_nil p rest)
  unfold words
  rw [List.splitOnP_cons_eq_if_modifyHead, if_neg (by rw [h]; exact Bool.false_ne_true), hsplit,
    List.modifyHead_cons, List.filter_cons_of_pos rfl]
  exact List.cons_ne_nil _ _

theorem words_eq_nil_iff : words p text = [] ↔ Blank p text := by
  refine ⟨fun h => ?_, words_of_blank⟩
  rw [← words_dropWhile] at h
  have hnot := List.head?_dropWhile_not p text
  cases hrest : text.dropWhile p with
  | nil => exact List.dropWhile_eq_nil_iff.mp hrest
  | cons c rest =>
    rw [hrest] at h hnot
    exact absurd h (words_ne_nil (by simpa using hnot) rest)

/-- What a word is: some characters, and none of them a separator. -/
def IsWord (p : α → Bool) (word : List α) : Prop := word ≠ [] ∧ ∀ c ∈ word, p c = false

theorem mem_splitOnP {part : List α} (h : part ∈ text.splitOnP p) : ∀ c ∈ part, p c = false := by
  induction text generalizing part with
  | nil =>
    rw [List.splitOnP_nil, List.mem_singleton] at h
    exact h ▸ fun c hc => absurd hc List.not_mem_nil
  | cons c rest ih =>
    rw [List.splitOnP_cons_eq_if_modifyHead] at h
    split at h
    · rcases List.mem_cons.mp h with rfl | hrest
      · exact fun c hc => absurd hc List.not_mem_nil
      · exact ih hrest
    · next hc =>
      obtain ⟨first, more, hsplit⟩ := List.exists_cons_of_ne_nil (List.splitOnP_ne_nil p rest)
      rw [hsplit] at h ih
      rw [List.modifyHead_cons] at h
      rcases List.mem_cons.mp h with rfl | hmore
      · exact List.forall_mem_cons.mpr ⟨Bool.eq_false_iff.mpr hc, ih List.mem_cons_self⟩
      · exact ih (List.mem_cons_of_mem _ hmore)

theorem isWord_of_mem {word : List α} (h : word ∈ words p text) : IsWord p word := by
  obtain ⟨hsplit, hne⟩ := List.mem_filter.mp h
  exact ⟨by simpa using hne, mem_splitOnP hsplit⟩

/-! ## Words that are joined -/

section
variable {sep : α} {parts : List (List α)}

def joined (sep : α) (parts : List (List α)) : List α := [sep].intercalate parts

@[simp] theorem joined_singleton (sep : α) (word : List α) : joined sep [word] = word :=
  List.intercalate_singleton

theorem joined_cons (sep : α) (first : List α) (h : parts ≠ []) :
    joined sep (first :: parts) = first ++ sep :: joined sep parts := by
  unfold joined
  rw [List.intercalate_cons_of_ne_nil h, List.append_assoc]
  rfl

theorem joined_concat (sep : α) (h : parts ≠ []) (last : List α) :
    joined sep (parts ++ [last]) = joined sep parts ++ sep :: last := by
  induction parts with
  | nil => exact absurd rfl h
  | cons first parts ih =>
    by_cases hparts : parts = []
    · subst hparts
      rw [List.singleton_append, joined_cons sep first (List.cons_ne_nil _ _), joined_singleton,
        joined_singleton]
    · rw [List.cons_append, joined_cons sep first (by simp), ih hparts,
        joined_cons sep first hparts, List.append_assoc, List.cons_append]

/-- More parts make it longer. -/
theorem joined_prefix_append (h : parts ≠ []) (more : List (List α)) :
    joined sep parts <+: joined sep (parts ++ more) := by
  induction more generalizing parts with
  | nil => exact (List.append_nil parts).symm ▸ List.prefix_rfl
  | cons next more ih =>
    have hnext := @ih (parts ++ [next]) (by simp)
    rw [List.append_assoc, List.singleton_append] at hnext
    refine List.IsPrefix.trans ?_ hnext
    rw [joined_concat sep h]
    exact List.prefix_append _ _

/-- Words that are joined are the words of the text. -/
theorem words_joined (hsep : p sep = true) (h : ∀ word ∈ parts, IsWord p word) :
    words p (joined sep parts) = parts := by
  induction parts with
  | nil => exact words_nil
  | cons first parts ih =>
    obtain ⟨⟨hne, hfirst⟩, hrest⟩ := List.forall_mem_cons.mp h
    by_cases hparts : parts = []
    · subst hparts
      rw [joined_singleton]
      exact words_of_none hne hfirst
    · rw [joined_cons sep first hparts, words_append_cons hsep, words_of_none hne hfirst, ih hrest]
      rfl

end

end

end separated
