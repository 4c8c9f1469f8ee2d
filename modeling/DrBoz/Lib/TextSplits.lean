-- A text cut at the matches of a pattern: what stands between the matches and the
-- matches themselves, in order. Splitting, replacing and joining are read off these pieces.
import DrBoz.Lib.TextScan

namespace text_scan

/-! ## More patterns -/

/-- The literal `part`. -/
def ends (part : List Char) : Pattern Unit := fun text =>
  if part <+: text then some ((), part.length) else none

/-- The literal `part` and then the pattern. -/
def after_literal {α : Type} (part : List Char) (pattern : Pattern α) : Pattern α := fun text =>
  if part <+: text then
    (pattern (text.drop part.length)).map fun (a, n) => (a, part.length + n)
  else none

/-- `.` and then the pattern. -/
def after_one {α : Type} (pattern : Pattern α) : Pattern α
  | [] => none
  | c :: text => if c = '\n' then none else (pattern text).map fun (a, n) => (a, n + 1)

/-- `.*?` and then the pattern, where the dot takes the ends of lines too. -/
def lazily_dotall {α : Type} (pattern : Pattern α) : Pattern α
  | [] => pattern []
  | c :: text =>
    match pattern (c :: text) with
    | some found => some found
    | none => (lazily_dotall pattern text).map fun (a, n) => (a, n + 1)

/-- `(.*?)` and the literal behind it: what the group has. -/
def group_until (part : List Char) : Pattern (List Char) := fun text =>
  (lazily_dotall (ends part) text).map fun (_, n) => (text.take (n - part.length), n)

/-- `([class]+)`: the characters with the property `p`, at least one. -/
def run_of (p : Char → Bool) : Pattern (List Char) := fun text =>
  match text.takeWhile p with
  | [] => none
  | c :: taken => some (c :: taken, taken.length + 1)

/-- `([class]+)` and the literal behind it: what the group has. No character of the class is in
the literal. -/
def group_run (p : Char → Bool) (closing : List Char) : Pattern (List Char) := fun text =>
  let taken := text.takeWhile p
  if taken ≠ [] ∧ closing <+: text.drop taken.length then
    some (taken, taken.length + closing.length)
  else none

/-- `first|second` -/
def either {α : Type} (first second : Pattern α) : Pattern α := fun text =>
  (first text).or (second text)

/-- The whole match is captured too. -/
def with_text {α : Type} (pattern : Pattern α) : Pattern (List Char × α) := fun text =>
  (pattern text).map fun (a, n) => ((text.take n, a), n)

/-! ## The pieces of a text -/

inductive Piece (α : Type) where
  | between (text : List Char)
  | matched (text : List Char) (captured : α)

def Piece.text {α : Type} : Piece α → List Char
  | .between text => text
  | .matched text _ => text

/-- The text of a piece that no match took. -/
def Piece.outside {α : Type} : Piece α → Option (List Char)
  | .between text => some text
  | .matched _ _ => none

/-- What a match captured. -/
def Piece.captured {α : Type} : Piece α → Option α
  | .between _ => none
  | .matched _ a => some a

/-- The piece with its match replaced. -/
def Piece.rendered {α : Type} (render : α → List Char) : Piece α → List Char
  | .between text => text
  | .matched _ a => render a

/-- The pieces from the place `cursor` on, for the matches that are left. -/
def cut_at {α : Type} (text : List Char) : Nat → List (Match (List Char × α)) → List (Piece α)
  | cursor, [] => [.between (text.drop cursor)]
  | cursor, ⟨start, taken, a⟩ :: found =>
    .between ((text.take start).drop cursor) :: .matched taken a ::
      cut_at text (start + taken.length) found

/-- `pattern.split(text)`, for a pattern in one group -/
def split {α : Type} (pattern : Pattern α) (text : List Char) : List (Piece α) :=
  cut_at text 0 (finditer (with_text pattern) text)

/-- `pattern.sub(render, text)` -/
def sub {α : Type} (pattern : Pattern α) (render : α → List Char) (text : List Char) :
    List Char :=
  (split pattern text).flatMap (Piece.rendered render)

/-- `text.replace(old, new)` -/
def replace (old new text : List Char) : List Char := sub (ends old) (fun _ => new) text

/-- `text.split(mark)` -/
def str_split (mark text : List Char) : List (List Char) :=
  (split (ends mark) text).filterMap Piece.outside

/-! ## How a text is split -/

section
variable {α : Type} {pattern : Pattern α}

/-- No match is longer than the text. -/
def Fits (pattern : Pattern α) : Prop := ∀ text a n, pattern text = some (a, n) → n ≤ text.length

/-- The pieces of a text, one match after the other from the left. -/
inductive Split (pattern : Pattern α) : List Char → List (Piece α) → Prop
  | last {text : List Char} (h : Free pattern text) : Split pattern text [.between text]
  | more {before taken rest : List Char} {a : α} {pieces : List (Piece α)}
      (hbefore : Passes pattern before (taken ++ rest)) (hne : taken ≠ [])
      (hmatch : pattern (taken ++ rest) = some (a, taken.length))
      (hrest : Split pattern rest pieces) :
      Split pattern (before ++ (taken ++ rest)) (.between before :: .matched taken a :: pieces)

/-- A text has no match, or it has a first one. -/
theorem first_match (hfits : Fits pattern) (text : List Char) :
    Free pattern text ∨ ∃ before taken rest a, text = before ++ (taken ++ rest) ∧
      Passes pattern before (taken ++ rest) ∧ taken ≠ [] ∧
      pattern (taken ++ rest) = some (a, taken.length) := by
  induction text with
  | nil => exact .inl (passes_nil_iff.mp (passes_nil_rest []))
  | cons c text ih =>
    by_cases hhead : ∀ a n, pattern (c :: text) ≠ some (a, n + 1)
    · rcases ih with hfree | ⟨before, taken, rest, a, rfl, hbefore, hne, hmatch⟩
      · left
        rw [← passes_nil_iff, passes_cons, List.append_nil, passes_nil_iff]
        exact ⟨hhead, hfree⟩
      · exact .inr ⟨c :: before, taken, rest, a, rfl, passes_cons.mpr ⟨hhead, hbefore⟩, hne,
          hmatch⟩
    · push Not at hhead
      obtain ⟨a, n, hfound⟩ := hhead
      have hlength : ((c :: text).take (n + 1)).length = n + 1 := by
        rw [List.length_take]
        exact Nat.min_eq_left (hfits _ _ _ hfound)
      refine .inr ⟨[], (c :: text).take (n + 1), (c :: text).drop (n + 1), a, ?_, ?_, ?_, ?_⟩
      · rw [List.nil_append, List.take_append_drop]
      · exact passes_nil_rest _
      · exact List.ne_nil_of_length_pos (by omega)
      · rw [List.take_append_drop, hlength]
        exact hfound

theorem cut_at_captured (text : List Char) (cursor : Nat)
    (found : List (Match (List Char × α))) :
    (cut_at text cursor found).filterMap Piece.captured = found.map fun m => m.captured.2 := by
  induction found generalizing cursor with
  | nil => rfl
  | cons m found ih =>
    rw [List.map_cons, ← ih (m.start + m.captured.1.length)]
    rfl

theorem with_text_iff {text taken : List Char} {a : α} {n : Nat} :
    with_text pattern text = some ((taken, a), n) ↔
      pattern text = some (a, n) ∧ taken = text.take n := by
  unfold with_text
  rcases pattern text with _ | ⟨b, m⟩
  · simp
  · simp only [Option.map_some, Option.some.injEq, Prod.mk.injEq]
    constructor
    · rintro ⟨⟨rfl, rfl⟩, rfl⟩
      exact ⟨⟨rfl, rfl⟩, rfl⟩
    · rintro ⟨⟨rfl, rfl⟩, rfl⟩
      exact ⟨⟨rfl, rfl⟩, rfl⟩

theorem with_text_none {text : List Char} (h : ∀ a n, pattern text ≠ some (a, n + 1)) :
    ∀ a n, with_text pattern text ≠ some (a, n + 1) :=
  fun a n hfound => h a.2 n (with_text_iff.mp hfound).1

theorem passes_with_text {part rest : List Char} (h : Passes pattern part rest) :
    Passes (with_text pattern) part rest :=
  fun before after hsplit hne => with_text_none (h before after hsplit hne)

theorem cut_at_split (hfits : Fits pattern) (done text : List Char) :
    Split pattern text
      (cut_at (done ++ text) done.length (find_from (with_text pattern) 0 done.length text)) := by
  induction hn : text.length using Nat.strongRecOn generalizing done text with
  | ind n ih =>
    subst hn
    rcases first_match hfits text with hfree | ⟨before, taken, rest, a, rfl, hbefore, hne, hmatch⟩
    · have hscan := free_scan (passes_nil_iff.mp (passes_with_text (passes_nil_iff.mpr hfree)))
        done.length
      rw [hscan.1, cut_at, List.drop_left]
      exact .last hfree
    · obtain ⟨c, part, rfl⟩ := List.exists_cons_of_ne_nil hne
      have htaken : with_text pattern (c :: part ++ rest) =
          some ((c :: part, a), part.length + 1) :=
        with_text_iff.mpr ⟨hmatch, (List.take_left' rfl).symm⟩
      have hrest := ih rest.length (by simp only [List.length_append, List.length_cons]; omega)
        (done ++ (before ++ (c :: part))) rest rfl
      rw [(passes_scan (passes_with_text hbefore) _).1, (match_scan htaken _).1, cut_at]
      have hstart : (done ++ (before ++ (c :: part ++ rest))).take (done.length + before.length) =
          done ++ before := by
        rw [← List.append_assoc]
        exact List.take_left' (by rw [List.length_append])
      rw [hstart, List.drop_left]
      have hwhole : done ++ (before ++ (c :: part)) ++ rest =
          done ++ (before ++ (c :: part ++ rest)) := by
        simp only [List.append_assoc]
      have hplace : (done ++ (before ++ (c :: part))).length =
          done.length + before.length + (part.length + 1) := by
        simp only [List.length_append, List.length_cons]
        omega
      rw [hwhole, hplace] at hrest
      exact .more hbefore hne hmatch hrest

theorem split_pieces (hfits : Fits pattern) (text : List Char) :
    Split pattern text (split pattern text) := cut_at_split hfits [] text

theorem Split.flatten {text : List Char} {pieces : List (Piece α)} (h : Split pattern text pieces) :
    pieces.flatMap Piece.text = text := by
  induction h with
  | last hfree => exact List.append_nil _
  | more hbefore hne hmatch hrest ih =>
    rw [List.flatMap_cons, List.flatMap_cons, ih]
    rfl

/-- Where a match is, no stretch without matches goes past it. -/
theorem passes_ends {before more rest taken behind : List Char} {a : α}
    (h : Passes pattern (before ++ more) rest) (hsplit : more ++ rest = taken ++ behind)
    (hne : taken ≠ []) (hmatch : pattern (taken ++ behind) = some (a, taken.length)) :
    more = [] := by
  by_contra hmore
  obtain ⟨n, hn⟩ := Nat.exists_eq_add_one_of_ne_zero (mt List.length_eq_zero_iff.mp hne)
  rw [← hsplit, hn] at hmatch
  exact h before more rfl hmore a n hmatch

/-- A text is split in one way. -/
theorem Split.unique {text : List Char} {pieces : List (Piece α)} (h : Split pattern text pieces)
    {others : List (Piece α)} (h' : Split pattern text others) : pieces = others := by
  have hsame : ∀ text' others, text = text' → Split pattern text' others → pieces = others := by
    clear h' others
    induction h with
    | last hfree =>
      rintro _ _ rfl h'
      cases h' with
      | last _ => rfl
      | more hbefore hne hmatch hrest =>
        rw [← passes_nil_iff] at hfree
        exact absurd (passes_ends hfree (List.append_nil _) hne hmatch) (by simp [hne])
    | @more before taken rest a pieces hbefore hne hmatch hrest ih =>
      intro text' others htext h'
      cases h' with
      | last hfree =>
        rw [← htext, ← passes_nil_iff] at hfree
        exact absurd (passes_ends hfree (List.append_nil _) hne hmatch) (by simp [hne])
      | more hbefore' hne' hmatch' hrest' =>
        rename_i before' taken' rest' a' pieces'
        have hplace : before = before' ∧ taken ++ rest = taken' ++ rest' := by
          rcases List.append_eq_append_iff.mp htext with ⟨more, rfl, hmore⟩ | ⟨more, rfl, hmore⟩
          · have hnil := passes_ends hbefore' hmore.symm hne hmatch
            subst hnil
            exact ⟨(List.append_nil _).symm, hmore⟩
          · have hnil := passes_ends hbefore hmore.symm hne' hmatch'
            subst hnil
            exact ⟨List.append_nil _, hmore.symm⟩
        obtain ⟨rfl, htaken⟩ := hplace
        rw [← htaken, hmatch] at hmatch'
        obtain ⟨rfl, hlength⟩ := Prod.mk.inj (Option.some.inj hmatch')
        obtain ⟨rfl, rfl⟩ := List.append_inj htaken hlength
        rw [ih _ _ rfl hrest']
  exact hsame text others rfl h'

/-- A text without a match is one piece. -/
theorem split_of_free {text : List Char} (h : Free pattern text) :
    split pattern text = [.between text] := by
  have hscan := free_scan (passes_nil_iff.mp (passes_with_text (passes_nil_iff.mpr h))) 0
  rw [split, finditer, hscan.1, cut_at, List.drop_zero]

/-- Where the pattern matches nowhere, the text is kept. -/
theorem sub_passes (hfits : Fits pattern) (render : α → List Char) {part rest : List Char}
    (h : Passes pattern part rest) :
    sub pattern render (part ++ rest) = part ++ sub pattern render rest := by
  have hrest := split_pieces hfits rest
  have hwhole := split_pieces hfits (part ++ rest)
  unfold sub
  generalize split pattern (part ++ rest) = pieces at hwhole
  generalize split pattern rest = others at hrest
  cases hrest with
  | last hfree =>
    have hlast : Split pattern (part ++ rest) [.between (part ++ rest)] := by
      refine .last (passes_nil_iff.mp (passes_append.mpr ⟨?_, passes_nil_iff.mpr hfree⟩))
      rw [List.append_nil]
      exact h
    rw [hwhole.unique hlast]
    simp only [List.flatMap_cons, List.flatMap_nil, List.append_nil, Piece.rendered]
  | @more before taken behind a pieces hbefore hne hmatch hrest =>
    rw [← List.append_assoc] at hwhole
    rw [hwhole.unique (.more (passes_append.mpr ⟨h, hbefore⟩) hne hmatch hrest)]
    simp only [List.flatMap_cons, List.append_assoc, Piece.rendered]

/-- At a match, its replacement is written. -/
theorem sub_match (hfits : Fits pattern) (render : α → List Char) {taken rest : List Char} {a : α}
    (hne : taken ≠ []) (h : pattern (taken ++ rest) = some (a, taken.length)) :
    sub pattern render (taken ++ rest) = render a ++ sub pattern render rest := by
  have hwhole := split_pieces hfits (taken ++ rest)
  have hmore := Split.more (passes_nil_rest (taken ++ rest)) hne h (split_pieces hfits rest)
  unfold sub
  rw [hwhole.unique hmore]
  simp only [List.flatMap_cons, List.nil_append, Piece.rendered]

theorem sub_of_free {text : List Char} (h : Free pattern text) (render : α → List Char) :
    sub pattern render text = text := by
  rw [sub, split_of_free h]
  exact List.append_nil _

end

/-! ## What the patterns match -/

section
variable {α : Type} {pattern : Pattern α}

theorem ends_iff {part text : List Char} {n : Nat} :
    ends part text = some ((), n) ↔ part <+: text ∧ n = part.length := by
  unfold ends
  split
  · rename_i h
    simp only [Option.some.injEq, Prod.mk.injEq, true_and, h]
    exact eq_comm
  · rename_i h
    simp only [reduceCtorEq, false_iff, not_and]
    exact fun h' => absurd h' h

theorem after_literal_iff {part text : List Char} {a : α} {n : Nat} :
    after_literal part pattern text = some (a, n) ↔
      ∃ rest m, text = part ++ rest ∧ pattern rest = some (a, m) ∧ n = part.length + m := by
  unfold after_literal
  split
  · rename_i h
    obtain ⟨rest, rfl⟩ := h
    rw [List.drop_left, Option.map_eq_some_iff]
    constructor
    · rintro ⟨⟨b, m⟩, hfound, heq⟩
      cases heq
      exact ⟨rest, m, rfl, hfound, rfl⟩
    · rintro ⟨rest', m, hrest, hfound, rfl⟩
      obtain rfl := List.append_cancel_left hrest
      exact ⟨(a, m), hfound, rfl⟩
  · rename_i h
    simp only [reduceCtorEq, false_iff]
    rintro ⟨rest, m, rfl, -⟩
    exact h (List.prefix_append _ _)

theorem lazily_dotall_some {text : List Char} {a : α} {n : Nat}
    (h : lazily_dotall pattern text = some (a, n)) :
    ∃ before rest k, text = before ++ rest ∧ n = before.length + k ∧
      pattern rest = some (a, k) := by
  induction text generalizing n with
  | nil => exact ⟨[], [], n, rfl, (Nat.zero_add n).symm, h⟩
  | cons c text ih =>
    rw [lazily_dotall] at h
    rcases hhead : pattern (c :: text) with _ | found
    · rw [hhead] at h
      obtain ⟨⟨b, m⟩, hfound, heq⟩ := Option.map_eq_some_iff.mp h
      cases heq
      obtain ⟨before, rest, k, rfl, rfl, hrest⟩ := ih hfound
      exact ⟨c :: before, rest, k, rfl, by rw [List.length_cons]; omega, hrest⟩
    · rw [hhead] at h
      cases h
      exact ⟨[], c :: text, n, rfl, (Nat.zero_add n).symm, hhead⟩

/-- What matches somewhere in the text is found. -/
theorem lazily_dotall_isSome (before : List Char) {rest : List Char}
    (h : (pattern rest).isSome = true) :
    (lazily_dotall pattern (before ++ rest)).isSome = true := by
  induction before with
  | nil =>
    cases rest with
    | nil => exact h
    | cons c rest =>
      rw [List.nil_append, lazily_dotall]
      obtain ⟨found, hfound⟩ := Option.isSome_iff_exists.mp h
      rw [hfound]
      rfl
  | cons c before ih =>
    rw [List.cons_append, lazily_dotall]
    rcases pattern (c :: (before ++ rest)) with _ | found
    · rw [Option.isSome_map]
      exact ih
    · rfl

theorem fits_ends (part : List Char) : Fits (ends part) := by
  intro text _ n h
  obtain ⟨hpart, rfl⟩ := ends_iff.mp h
  exact hpart.length_le

theorem fits_after_literal (part : List Char) (h : Fits pattern) :
    Fits (after_literal part pattern) := by
  intro text a n hfound
  obtain ⟨rest, m, rfl, hrest, rfl⟩ := after_literal_iff.mp hfound
  rw [List.length_append]
  exact Nat.add_le_add_left (h _ _ _ hrest) _

theorem fits_lazily_dotall (h : Fits pattern) : Fits (lazily_dotall pattern) := by
  intro text a n hfound
  obtain ⟨before, rest, k, rfl, rfl, hrest⟩ := lazily_dotall_some hfound
  rw [List.length_append]
  exact Nat.add_le_add_left (h _ _ _ hrest) _

theorem fits_either {second : Pattern α} (h : Fits pattern) (h' : Fits second) :
    Fits (either pattern second) := by
  intro text a n hfound
  rcases Option.or_eq_some_iff.mp hfound with hfirst | ⟨-, hsecond⟩
  · exact h _ _ _ hfirst
  · exact h' _ _ _ hsecond

/-- A text which ends at the first place where `part` is. -/
theorem lazily_dotall_ends {part taken rest : List Char}
    (h : lazily_dotall (ends part) (taken ++ rest) = some ((), taken.length)) :
    ∃ middle, taken = middle ++ part := by
  obtain ⟨before, behind, k, hsplit, hlength, hfound⟩ := lazily_dotall_some h
  obtain ⟨⟨more, rfl⟩, rfl⟩ := ends_iff.mp hfound
  rw [← List.append_assoc] at hsplit
  exact ⟨before, (List.append_inj hsplit (by rw [List.length_append, hlength])).1⟩

/-- The match of a pattern that begins with a literal. -/
theorem after_literal_taken {part taken rest : List Char} {a : α}
    (h : after_literal part pattern (taken ++ rest) = some (a, taken.length)) :
    ∃ more, taken = part ++ more ∧ pattern (more ++ rest) = some (a, more.length) := by
  obtain ⟨behind, m, hsplit, hfound, hlength⟩ := after_literal_iff.mp h
  have hpart : part <+: taken :=
    List.prefix_of_prefix_length_le ⟨behind, hsplit.symm⟩ ⟨rest, rfl⟩ (by omega)
  obtain ⟨more, rfl⟩ := hpart
  rw [List.append_assoc] at hsplit
  rw [List.length_append] at hlength
  obtain rfl := List.append_cancel_left hsplit
  exact ⟨more, rfl, by rw [hfound, Nat.add_left_cancel hlength]⟩

theorem run_of_iff {p : Char → Bool} {text taken : List Char} {n : Nat} :
    run_of p text = some (taken, n) ↔
      text.takeWhile p = taken ∧ taken ≠ [] ∧ n = taken.length := by
  unfold run_of
  cases htaken : text.takeWhile p with
  | nil =>
    simp only [reduceCtorEq, false_iff, not_and]
    rintro rfl hne
    exact absurd rfl hne
  | cons c more =>
    simp only [Option.some.injEq, Prod.mk.injEq]
    constructor
    · rintro ⟨rfl, rfl⟩
      exact ⟨rfl, List.cons_ne_nil _ _, rfl⟩
    · rintro ⟨rfl, -, rfl⟩
      exact ⟨rfl, rfl⟩

theorem fits_run_of (p : Char → Bool) : Fits (run_of p) := by
  intro text taken n hfound
  obtain ⟨rfl, -, rfl⟩ := run_of_iff.mp hfound
  exact (List.takeWhile_prefix p).length_le

theorem group_run_iff {p : Char → Bool} {closing text taken : List Char} {n : Nat} :
    group_run p closing text = some (taken, n) ↔ text.takeWhile p = taken ∧ taken ≠ [] ∧
      closing <+: text.drop taken.length ∧ n = taken.length + closing.length := by
  unfold group_run
  dsimp only
  split
  · rename_i h
    simp only [Option.some.injEq, Prod.mk.injEq]
    constructor
    · rintro ⟨rfl, rfl⟩
      exact ⟨rfl, h.1, h.2, rfl⟩
    · rintro ⟨rfl, -, -, rfl⟩
      exact ⟨rfl, rfl⟩
  · rename_i h
    simp only [reduceCtorEq, false_iff]
    rintro ⟨rfl, hne, hclosing, -⟩
    exact h ⟨hne, hclosing⟩

theorem fits_group_run (p : Char → Bool) (closing : List Char) : Fits (group_run p closing) := by
  intro text taken n hfound
  obtain ⟨rfl, -, hclosing, rfl⟩ := group_run_iff.mp hfound
  have htaken := (List.takeWhile_prefix p (l := text)).length_le
  have hlength := hclosing.length_le
  rw [List.length_drop] at hlength
  omega

theorem fits_after_one (h : Fits pattern) : Fits (after_one pattern) := by
  intro text a n hfound
  cases text with
  | nil => cases hfound
  | cons c text =>
    rw [after_one] at hfound
    split at hfound
    · cases hfound
    · obtain ⟨⟨b, m⟩, hrest, heq⟩ := Option.map_eq_some_iff.mp hfound
      cases heq
      exact Nat.succ_le_succ (h _ _ _ hrest)

theorem fits_lazily (h : Fits pattern) : Fits (lazily pattern) := by
  intro text a n hfound
  obtain ⟨line, rest, k, rfl, -, rfl, hrest, -⟩ := lazily_some hfound
  rw [List.length_append]
  exact Nat.add_le_add_left (h _ _ _ hrest) _

theorem lazily_ends {part taken rest : List Char}
    (h : lazily (ends part) (taken ++ rest) = some ((), taken.length)) :
    ∃ middle, taken = middle ++ part := by
  obtain ⟨line, behind, k, hsplit, -, hlength, hfound, -⟩ := lazily_some h
  obtain ⟨⟨more, rfl⟩, rfl⟩ := ends_iff.mp hfound
  rw [← List.append_assoc] at hsplit
  exact ⟨line, (List.append_inj hsplit (by rw [List.length_append, hlength])).1⟩

theorem after_one_taken {taken rest : List Char} {a : α}
    (h : after_one pattern (taken ++ rest) = some (a, taken.length)) (hne : taken ≠ []) :
    ∃ c more, taken = c :: more ∧ pattern (more ++ rest) = some (a, more.length) := by
  obtain ⟨c, more, rfl⟩ := List.exists_cons_of_ne_nil hne
  rw [List.cons_append, after_one] at h
  split at h
  · cases h
  · obtain ⟨⟨b, m⟩, hrest, heq⟩ := Option.map_eq_some_iff.mp h
    cases heq
    exact ⟨c, more, rfl, hrest⟩

end

/-! ## Characters that end every match -/

section
variable {α : Type} {pattern : Pattern α} {c : Char}

/-- The pattern looks no further than a `c`. -/
def Stops (pattern : Pattern α) (c : Char) : Prop :=
  ∀ before behind, pattern (before ++ c :: behind) = pattern before

theorem takeWhile_stop {p : Char → Bool} (hc : p c = false) (before behind : List Char) :
    (before ++ c :: behind).takeWhile p = before.takeWhile p := by
  induction before with
  | nil => simp [hc]
  | cons d before ih =>
    rw [List.cons_append, List.takeWhile_cons, List.takeWhile_cons, ih]

theorem stops_after_literal {d : Char} (hd : d ≠ c) (h : Stops pattern c) :
    Stops (after_literal [d] pattern) c := by
  intro before behind
  unfold after_literal
  cases before with
  | nil => simp [hd]
  | cons e before =>
    have hstart : [d] <+: e :: before ++ c :: behind ↔ [d] <+: e :: before := by simp
    have hrest : (e :: before ++ c :: behind).drop [d].length = before ++ c :: behind := rfl
    simp only [hstart, hrest, h before behind]
    rfl

theorem stops_group_run {p : Char → Bool} {d : Char} (hp : p c = false) (hd : d ≠ c) :
    Stops (group_run p [d]) c := by
  intro before behind
  unfold group_run
  dsimp only
  rw [takeWhile_stop hp]
  have hlength : (before.takeWhile p).length ≤ before.length :=
    (List.takeWhile_prefix p).length_le
  rw [List.drop_append_of_le_length hlength]
  have hstart : [d] <+: before.drop (before.takeWhile p).length ++ c :: behind ↔
      [d] <+: before.drop (before.takeWhile p).length := by
    cases before.drop (before.takeWhile p).length with
    | nil => simp [hd]
    | cons e rest => simp
  simp only [hstart]

/-- A text is replaced before and behind a character that ends every match. -/
theorem sub_stop (hfits : Fits pattern) (hstop : Stops pattern c) (render : α → List Char)
    (text behind : List Char) :
    sub pattern render (text ++ c :: behind) =
      sub pattern render text ++ c :: sub pattern render behind := by
  have hnone : ∀ a n, pattern (c :: behind) ≠ some (a, n + 1) := by
    intro a n hfound
    have hempty := hstop [] behind
    rw [List.nil_append, hfound] at hempty
    exact absurd (hfits _ _ _ hempty.symm) (by simp)
  have hchar : Passes pattern [c] behind :=
    passes_cons.mpr ⟨hnone, passes_nil_rest behind⟩
  suffices hpieces : ∀ pieces, Split pattern text pieces →
      sub pattern render (text ++ c :: behind) =
        pieces.flatMap (Piece.rendered render) ++ c :: sub pattern render behind from
    hpieces _ (split_pieces hfits text)
  intro pieces hsplit
  induction hsplit with
  | @last text hfree =>
    have hpasses : Passes pattern (text ++ [c]) behind := by
      refine passes_append.mpr ⟨fun before after htext hne a n => ?_, hchar⟩
      rw [List.cons_append, List.nil_append, hstop]
      exact hfree before after htext hne a n
    have hkept := sub_passes hfits render hpasses
    rw [List.append_assoc, List.append_assoc] at hkept
    rw [List.flatMap_cons, List.flatMap_nil, List.append_nil]
    exact hkept
  | @more before taken rest a pieces hbefore hne hmatch hrest ih =>
    have hpasses : Passes pattern before (taken ++ (rest ++ c :: behind)) := by
      intro start after htext hafter b n
      have hsame := hstop (after ++ (taken ++ rest)) behind
      rw [List.append_assoc, List.append_assoc] at hsame
      rw [hsame]
      exact hbefore start after htext hafter b n
    have htaken : pattern (taken ++ (rest ++ c :: behind)) = some (a, taken.length) := by
      rw [← List.append_assoc, hstop, hmatch]
    rw [List.append_assoc, List.append_assoc, sub_passes hfits render hpasses,
      sub_match hfits render hne htaken, ih, List.flatMap_cons, List.flatMap_cons,
      List.append_assoc, List.append_assoc]
    rfl

theorem sub_intercalate (hfits : Fits pattern) (hstop : Stops pattern c) (render : α → List Char)
    (texts : List (List Char)) :
    sub pattern render ([c].intercalate texts) =
      [c].intercalate (texts.map (sub pattern render)) := by
  induction texts with
  | nil => rfl
  | cons text texts ih =>
    cases texts with
    | nil =>
      rw [List.map_cons, List.map_nil, List.intercalate_singleton, List.intercalate_singleton]
    | cons next texts =>
      rw [List.map_cons, List.map_cons, List.intercalate_cons_cons, List.intercalate_cons_cons,
        List.append_assoc, List.append_assoc, List.singleton_append, List.singleton_append,
        sub_stop hfits hstop, ih, List.map_cons]

/-- A character that no replacement brings in. -/
theorem not_mem_sub (hfits : Fits pattern) {render : α → List Char} (hrender : ∀ a, c ∉ render a)
    {text : List Char} (h : c ∉ text) : c ∉ sub pattern render text := by
  have hpieces := (split_pieces hfits text).flatten
  unfold sub
  rw [← hpieces] at h
  intro hmem
  obtain ⟨piece, hpiece, hc⟩ := List.mem_flatMap.mp hmem
  cases piece with
  | between text => exact h (List.mem_flatMap.mpr ⟨_, hpiece, hc⟩)
  | matched taken a => exact hrender a hc

end

/-! ## Replacing and joining -/

theorem free_of_not_mem {c : Char} {part text : List Char} (h : c ∉ text) :
    Free (ends (c :: part)) text := by
  intro before after hsplit _ a n hfound
  obtain ⟨⟨more, hmore⟩, -⟩ := ends_iff.mp hfound
  rw [hsplit, ← hmore] at h
  exact h (List.mem_append_right _ List.mem_cons_self)

theorem replace_passes {old new part rest : List Char} (h : Passes (ends old) part rest) :
    replace old new (part ++ rest) = part ++ replace old new rest := sub_passes (fits_ends old) _ h

theorem replace_nil (old new : List Char) : replace old new [] = [] := rfl

theorem replace_match {old : List Char} (new rest : List Char) (h : old ≠ []) :
    replace old new (old ++ rest) = new ++ replace old new rest :=
  sub_match (fits_ends old) _ h (ends_iff.mpr ⟨List.prefix_append _ _, rfl⟩)

theorem not_mem_of_passes {c : Char} {part rest : List Char} (h : Passes (ends [c]) part rest) :
    c ∉ part := by
  intro hmem
  obtain ⟨before, after, rfl⟩ := List.append_of_mem hmem
  exact h before (c :: after) rfl (List.cons_ne_nil _ _) () 0
    (ends_iff.mpr ⟨⟨after ++ rest, rfl⟩, rfl⟩)

theorem replace_of_not_mem {c : Char} {part text : List Char} (new : List Char) (h : c ∉ text) :
    replace (c :: part) new text = text := sub_of_free (free_of_not_mem h) _

/-- A single character is replaced wherever it is. -/
theorem replace_char (c : Char) (new text : List Char) :
    replace [c] new text = text.flatMap fun d => if d = c then new else [d] := by
  induction text with
  | nil => rfl
  | cons d text ih =>
    rw [List.flatMap_cons, ← ih]
    by_cases h : d = c
    · subst h
      rw [if_pos rfl]
      exact replace_match new text (List.cons_ne_nil d [])
    · rw [if_neg h]
      refine @replace_passes [c] new [d] text
        (passes_cons.mpr ⟨fun a n hfound => ?_, passes_nil_rest _⟩)
      obtain ⟨⟨rest, hrest⟩, -⟩ := ends_iff.mp hfound
      cases hrest
      exact h rfl

/-- A character that is replaced everywhere is gone. -/
theorem not_mem_replace {c : Char} {new : List Char} (hnew : c ∉ new) (text : List Char) :
    c ∉ replace [c] new text := by
  have hsplit := split_pieces (fits_ends [c]) text
  unfold replace sub
  generalize split (ends [c]) text = pieces at hsplit
  induction hsplit with
  | last hfree =>
    rw [List.flatMap_cons, List.flatMap_nil, List.append_nil]
    exact not_mem_of_passes (passes_nil_iff.mpr hfree)
  | more hbefore _ _ _ ih =>
    rw [List.flatMap_cons, List.flatMap_cons, List.mem_append, List.mem_append, not_or, not_or]
    exact ⟨not_mem_of_passes hbefore, hnew, ih⟩

theorem str_split_join (mark text : List Char) :
    mark.intercalate (str_split mark text) = text := by
  have hsplit := split_pieces (fits_ends mark) text
  unfold str_split
  generalize split (ends mark) text = pieces at hsplit
  induction hsplit with
  | @last text hfree => exact List.intercalate_singleton
  | @more before taken rest a pieces hbefore hne hmatch hrest ih =>
    have hmark : taken = mark := by
      obtain ⟨⟨more, hmore⟩, hlength⟩ := ends_iff.mp hmatch
      exact (List.append_inj hmore hlength.symm).1.symm
    obtain ⟨part, parts, hparts⟩ :
        ∃ part parts, pieces.filterMap Piece.outside = part :: parts := by
      cases hrest with
      | last => exact ⟨_, [], rfl⟩
      | more => exact ⟨_, _, rfl⟩
    have hpieces : (Piece.between before :: .matched taken a :: pieces).filterMap
        Piece.outside = before :: part :: parts := by
      simp only [List.filterMap_cons, Piece.outside, hparts]
    rw [hparts] at ih
    rw [hpieces, List.intercalate_cons_cons, ih, hmark, List.append_assoc]

end text_scan
