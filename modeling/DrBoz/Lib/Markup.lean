-- Markup: the tags of a text, read character by character with a stack of the
-- open elements, and parts that stand in a text one behind another.
import Mathlib.Data.List.DropRight
import Mathlib.Algebra.BigOperators.Group.List.Basic
import Mathlib.Algebra.GroupWithZero.Nat

namespace markup

/-! ## Reading the tags -/

/-- Where the reader is: the open elements, the innermost first, and the tag that it is in. -/
structure Reader where
  opened : List (List Char)
  tag : Option (List Char)
deriving DecidableEq

/-- The open elements after a tag, given without its angle brackets. A tag that ends with a
slash opens nothing, and a closing tag closes the innermost element. -/
def close_tag (opened : List (List Char)) (tag : List Char) : Option (List (List Char)) :=
  if tag.getLast? = some '/' then some opened
  else if tag.head? = some '/' then
    match opened with
    | name :: outer => if tag.tail = name then some outer else none
    | [] => none
  else some (tag.takeWhile (· != ' ') :: opened)

def Reader.read (r : Reader) (c : Char) : Option Reader :=
  match r.tag with
  | none => some (if c = '<' then ⟨r.opened, some []⟩ else r)
  | some tag =>
    if c = '>' then (close_tag r.opened tag).map fun opened => ⟨opened, none⟩
    else some ⟨r.opened, some (tag ++ [c])⟩

def Reader.read_all (r : Reader) (text : List Char) : Option Reader := text.foldlM Reader.read r

/-- Between tags. -/
def between (opened : List (List Char)) : Reader := ⟨opened, none⟩

/-- All elements of the text are closed in it, each by the tag of its own name. -/
def Balanced (text : List Char) : Prop := (between []).read_all text = some (between [])

instance (text : List Char) : Decidable (Balanced text) :=
  inferInstanceAs (Decidable (_ = _))

theorem read_all_cons (r : Reader) (c : Char) (text : List Char) :
    r.read_all (c :: text) = (r.read c).bind fun r => r.read_all text := rfl

theorem read_all_append (r : Reader) (before after : List Char) :
    r.read_all (before ++ after) = (r.read_all before).bind fun r => r.read_all after :=
  List.foldlM_append

theorem close_tag_base {opened opened' : List (List Char)} {tag : List Char}
    (h : close_tag opened tag = some opened') (base : List (List Char)) :
    close_tag (opened ++ base) tag = some (opened' ++ base) := by
  unfold close_tag at h ⊢
  split
  · rename_i hslash
    rw [if_pos hslash] at h
    cases h
    rfl
  · rename_i hslash
    rw [if_neg hslash] at h
    split
    · rename_i hclosing
      rw [if_pos hclosing] at h
      cases opened with
      | nil => cases h
      | cons name outer =>
        have hname : tag.tail = name := by
          by_contra hne
          simp [hne] at h
        simp only [if_pos hname, Option.some.injEq] at h
        simp [hname, h]
    · rename_i hopening
      rw [if_neg hopening] at h
      cases h
      rfl

/-- What is read does not depend on the elements around it. -/
theorem read_base {r r' : Reader} {c : Char} (h : r.read c = some r')
    (base : List (List Char)) :
    Reader.read ⟨r.opened ++ base, r.tag⟩ c = some ⟨r'.opened ++ base, r'.tag⟩ := by
  obtain ⟨opened, tag⟩ := r
  cases tag with
  | none =>
    simp only [Reader.read, Option.some.injEq] at h ⊢
    split at h <;> rename_i hc <;> simp [hc, ← h]
  | some tag =>
    simp only [Reader.read] at h ⊢
    split at h
    · rename_i hc
      obtain ⟨opened', hclose, rfl⟩ := Option.map_eq_some_iff.mp h
      rw [if_pos hc, close_tag_base hclose base]
      rfl
    · rename_i hc
      rw [if_neg hc]
      cases h
      rfl

theorem read_all_base {text : List Char} {r r' : Reader} (h : r.read_all text = some r')
    (base : List (List Char)) :
    Reader.read_all ⟨r.opened ++ base, r.tag⟩ text = some ⟨r'.opened ++ base, r'.tag⟩ := by
  induction text generalizing r with
  | nil =>
    cases h
    rfl
  | cons c text ih =>
    obtain ⟨next, hread, hrest⟩ := Option.bind_eq_some_iff.mp h
    exact Option.bind_eq_some_iff.mpr ⟨_, read_base hread base, ih hrest⟩

/-- A balanced text can stand between any elements. -/
theorem Balanced.anywhere {text : List Char} (h : Balanced text) (opened : List (List Char)) :
    (between opened).read_all text = some (between opened) :=
  read_all_base h opened

/-- Text without a tag is read without a change. -/
theorem read_text {text : List Char} (h : '<' ∉ text) (opened : List (List Char)) :
    (between opened).read_all text = some (between opened) := by
  induction text with
  | nil => rfl
  | cons c text ih =>
    have hc : c ≠ '<' := fun heq => h (heq ▸ List.mem_cons_self)
    have hread : (between opened).read c = some (between opened) := by
      simp [Reader.read, between, hc]
    have hrest := ih fun hmem => h (List.mem_cons_of_mem c hmem)
    rw [read_all_cons, hread, Option.bind_some, hrest]

theorem Balanced.append {before after : List Char} (h : Balanced before) (h' : Balanced after) :
    Balanced (before ++ after) := by
  unfold Balanced at *
  rw [read_all_append, h, Option.bind_some, h']

/-- An element, by what its two tags do. -/
theorem Balanced.element {start text stop : List Char} {name : List Char} (h : Balanced text)
    (hstart : (between []).read_all start = some (between [name]))
    (hstop : (between [name]).read_all stop = some (between [])) :
    Balanced (start ++ text ++ stop) := by
  unfold Balanced
  rw [read_all_append, read_all_append, hstart, Option.bind_some, h.anywhere, Option.bind_some,
    hstop]

/-- A text that is balanced stays so without text before it. -/
theorem Balanced.of_append_text {before after : List Char} (hbefore : '<' ∉ before)
    (h : Balanced (before ++ after)) : Balanced after := by
  unfold Balanced at *
  rwa [read_all_append, read_text hbefore, Option.bind_some] at h

theorem Balanced.of_append_balanced {before after : List Char} (hbefore : Balanced before)
    (h : Balanced (before ++ after)) : Balanced after := by
  unfold Balanced at *
  rwa [read_all_append, hbefore, Option.bind_some] at h

/-- A reader that is between tags after a text without an end of a tag was so before it. -/
theorem between_of_read_text {text : List Char} (hopen : '<' ∉ text) (hclose : '>' ∉ text)
    {r : Reader} {opened : List (List Char)} (h : r.read_all text = some (between opened)) :
    r = between opened := by
  induction text generalizing r with
  | nil => exact Option.some.inj h
  | cons c text ih =>
    obtain ⟨next, hread, hrest⟩ := Option.bind_eq_some_iff.mp h
    have hnext := ih (fun hmem => hopen (List.mem_cons_of_mem c hmem))
      (fun hmem => hclose (List.mem_cons_of_mem c hmem)) hrest
    have hc : c ≠ '<' := fun heq => hopen (heq ▸ List.mem_cons_self)
    have hc' : c ≠ '>' := fun heq => hclose (heq ▸ List.mem_cons_self)
    obtain ⟨inside, tag⟩ := r
    cases tag with
    | none =>
      simp only [Reader.read, if_neg hc, Option.some.injEq] at hread
      rw [hread, hnext]
    | some tag =>
      simp only [Reader.read, if_neg hc', Option.some.injEq] at hread
      rw [← hread] at hnext
      cases hnext

theorem Balanced.of_text_append {before after : List Char} (hopen : '<' ∉ after)
    (hclose : '>' ∉ after) (h : Balanced (before ++ after)) : Balanced before := by
  unfold Balanced at *
  rw [read_all_append] at h
  obtain ⟨r, hr, hrest⟩ := Option.bind_eq_some_iff.mp h
  rw [hr, between_of_read_text hopen hclose hrest]

/-! ## Parts in their order -/

variable {α : Type}

/-- The parts stand in the text, each behind the one before. -/
def Appear : List (List α) → List α → Prop
  | [], _ => True
  | part :: parts, text => ∃ before after, text = before ++ part ++ after ∧ Appear parts after

theorem appear_of_suffix {parts : List (List α)} {text : List α} (h : Appear parts text)
    (before : List α) : Appear parts (before ++ text) := by
  cases parts with
  | nil => trivial
  | cons part parts =>
    obtain ⟨start, rest, rfl, hrest⟩ := h
    exact ⟨before ++ start, rest, by simp, hrest⟩

theorem Appear.append {parts more : List (List α)} {text rest : List α} (h : Appear parts text)
    (h' : Appear more rest) : Appear (parts ++ more) (text ++ rest) := by
  induction parts generalizing text with
  | nil => exact appear_of_suffix h' text
  | cons part parts ih =>
    obtain ⟨before, after, rfl, hafter⟩ := h
    exact ⟨before, after ++ rest, by simp, ih hafter⟩

/-- The parts have no more of a kind of elements than the text. -/
theorem Appear.countP_le (p : α → Bool) {parts : List (List α)} {text : List α}
    (h : Appear parts text) : (parts.map (List.countP p)).sum ≤ text.countP p := by
  induction parts generalizing text with
  | nil => exact Nat.zero_le _
  | cons part parts ih =>
    obtain ⟨before, after, rfl, hafter⟩ := h
    rw [List.map_cons, List.sum_cons, List.countP_append, List.countP_append]
    exact Nat.add_le_add (Nat.le_add_left _ _) (ih hafter)

variable {p : α → Bool}

/-- Parts that begin with a kept element stay when the text loses its head. -/
theorem Appear.dropWhile {parts : List (List α)} {text : List α} (h : Appear parts text)
    (hparts : ∀ part ∈ parts, ∃ x rest, part = x :: rest ∧ p x = false) :
    Appear parts (text.dropWhile p) := by
  cases parts with
  | nil => trivial
  | cons part parts =>
    obtain ⟨before, after, rfl, hafter⟩ := h
    obtain ⟨x, rest, rfl, hx⟩ := hparts _ List.mem_cons_self
    rw [List.append_assoc, List.dropWhile_append]
    split
    · rw [List.cons_append, List.dropWhile_cons_of_neg (by simp [hx])]
      exact ⟨[], after, by simp, hafter⟩
    · exact ⟨before.dropWhile p, after, by simp, hafter⟩

theorem rdropWhile_append_cons {x : α} (hx : p x = false) (before after : List α) :
    (before ++ x :: after).rdropWhile p = before ++ x :: after.rdropWhile p := by
  induction after using List.reverseRecOn with
  | nil =>
    rw [List.rdropWhile_concat_neg p before x (by simp [hx])]
    simp
  | append_singleton after y ih =>
    rw [← List.cons_append, ← List.append_assoc, List.rdropWhile_concat, List.rdropWhile_concat]
    split
    · exact ih
    · simp

/-- Parts that end with a kept element stay when the text loses its end. -/
theorem Appear.rdropWhile {parts : List (List α)} {text : List α} (h : Appear parts text)
    (hparts : ∀ part ∈ parts, ∃ init x, part = init ++ [x] ∧ p x = false) :
    Appear parts (text.rdropWhile p) := by
  induction parts generalizing text with
  | nil => trivial
  | cons part parts ih =>
    obtain ⟨before, after, rfl, hafter⟩ := h
    obtain ⟨init, x, rfl, hx⟩ := hparts _ List.mem_cons_self
    have hrest := ih hafter fun part hmem => hparts part (List.mem_cons_of_mem _ hmem)
    have htext : before ++ (init ++ [x]) ++ after = (before ++ init) ++ x :: after := by simp
    rw [htext, rdropWhile_append_cons hx]
    exact ⟨before, after.rdropWhile p, by simp, hrest⟩

end markup
