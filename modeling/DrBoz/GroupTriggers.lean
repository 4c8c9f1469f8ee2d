-- Law of the triggers of a group: what a message must begin with to be a
-- question for the bot. The service takes the first phrase of the list, the
-- copy of the search in the bot the longest one, and each cuts the question out
-- of the message at a place that it has found in another text.
import DrBoz.AmountTexts
import DrBoz.FinalResponses
import Mathlib.Data.List.Sort

open dr_boz.py (isSpace)
open dr_boz.amount_texts (CAPITALS toLower_cases)
open dr_boz.final_responses (Text strip strip_eq_self)

namespace dr_boz.group_triggers

/-! ## The service -/

/-- `re.sub(r"\s+", " ", text)` -/
def one_blank : Text → Text
  | [] => []
  | c :: rest =>
    if isSpace c then
      if rest.head?.any isSpace then one_blank rest else ' ' :: one_blank rest
    else c :: one_blank rest

/-- `" ".join(text.strip().split())` -/
def joined (text : Text) : Text := one_blank (strip text)

def persian_letter (c : Char) : Char := if c = 'ي' then 'ی' else if c = 'ك' then 'ک' else c

def _collapse_spaces (value : Text) : Text := (joined value).map persian_letter

def DEFAULT_GROUP_TRIGGER_PHRASES : List Text := ["hey doctor boz".toList]

def TRIGGER_PUNCTUATION : List Char := " \t\r\n:,-!?.،؛؟".toList

section
-- `str.casefold()`, character by character.
variable (casefold : Char → Text)

def fold (text : Text) : Text := text.flatMap casefold

/-- A phrase joins the others, unless nothing is left of it or it is one of them. -/
def add_phrase (normalized : List Text) (phrase : Text) : List Text :=
  let cleaned := fold casefold (_collapse_spaces phrase)
  if cleaned.isEmpty || normalized.contains cleaned then normalized else normalized ++ [cleaned]

/-- Nothing stands for a value that is no text. -/
def normalize_trigger_phrases (raw_phrases fallback : Option (List (Option Text))) : List Text :=
  let source := (raw_phrases.or fallback).getD (DEFAULT_GROUP_TRIGGER_PHRASES.map some)
  let normalized := (source.filterMap id).foldl (add_phrase casefold) []
  if normalized.isEmpty then DEFAULT_GROUP_TRIGGER_PHRASES.foldl (add_phrase casefold) []
  else normalized

/-- The loop over the triggers. -/
def first_trigger (normalized_text lowered_text : Text) : List Text → Option Text × Option Text
  | [] => (none, none)
  | trigger :: triggers =>
    if lowered_text = trigger then (some trigger, some [])
    else if !trigger.isPrefixOf lowered_text then
      first_trigger normalized_text lowered_text triggers
    else if lowered_text[trigger.length]?.any fun next_char =>
        !isSpace next_char && !TRIGGER_PUNCTUATION.contains next_char then
      first_trigger normalized_text lowered_text triggers
    else
      (some trigger, some ((normalized_text.drop trigger.length).dropWhile
        (TRIGGER_PUNCTUATION.contains ·)))

def detect_group_trigger (text : Option Text) (trigger_phrases : Option (List (Option Text))) :
    Option Text × Option Text :=
  let normalized_text := _collapse_spaces (text.getD [])
  if normalized_text.isEmpty then (none, none)
  else
    first_trigger normalized_text (fold casefold normalized_text)
      (normalize_trigger_phrases casefold trigger_phrases none)

end

/-! ## The copy in the bot -/

/-- The class `[\s:،,!?؟\-]`. -/
def is_separator (c : Char) : Bool := isSpace c || [':', '،', ',', '!', '?', '؟', '-'].contains c

section
-- `str.lower()`, and which characters `re.IGNORECASE` takes for the same.
variable (lower : Text → Text) (same : Char → Char → Bool)

def _normalize_group_trigger_phrase (value : Text) : Text := one_blank (lower (strip value))

/-- Where the match of `^trigger(?:[\s:،,!?؟\-]+|$)` ends. -/
def match_end (trigger lowered : Text) : Option Nat :=
  let rest := lowered.drop trigger.length
  if trigger.length ≤ lowered.length && (trigger.zip lowered).all fun (a, b) => same a b then
    if rest.isEmpty then some trigger.length
    else if (rest.takeWhile is_separator).isEmpty then none
    else some (trigger.length + (rest.takeWhile is_separator).length)
  else none

/-- The loop over the phrases. -/
def first_match (compact_text lowered : Text) : List Text → Option Text × Text
  | [] => (none, [])
  | trigger :: triggers =>
    if trigger.isEmpty then first_match compact_text lowered triggers
    else
      match match_end same trigger lowered with
      | none => first_match compact_text lowered triggers
      | some stop => (some trigger, strip (compact_text.drop stop))

def _extract_group_question (text_value : Text) (trigger_phrases : List Text) :
    Option Text × Text :=
  let compact_text := joined text_value
  if compact_text.isEmpty then (none, [])
  else
    first_match same compact_text (lower compact_text)
      ((trigger_phrases.map (_normalize_group_trigger_phrase lower)).mergeSort
        fun a b => b.length ≤ a.length)

end

/-! ## The terms of the law -/

/-- The text is the trigger, or goes on with a blank or a mark of punctuation behind it. -/
def Begins (text trigger : Text) : Prop :=
  text = trigger ∨ ∃ c rest, text = trigger ++ c :: rest ∧
    (isSpace c = true ∨ c ∈ TRIGGER_PUNCTUATION)

/-- The first of the triggers that the text begins with. -/
def FirstTrigger (text : Text) (triggers : List Text) (trigger : Text) : Prop :=
  ∃ before after, triggers = before ++ trigger :: after ∧ Begins text trigger ∧
    ∀ other ∈ before, ¬Begins text other

/-- The pattern of a phrase finds it at the beginning of the text. -/
def Matches (same : Char → Char → Bool) (text trigger : Text) : Prop :=
  trigger ≠ [] ∧ trigger.length ≤ text.length ∧
    (trigger.zip text).all (fun (a, b) => same a b) = true ∧
      ∀ c, (text.drop trigger.length).head? = some c → is_separator c = true

/-- Characters of ASCII and of the Arabic script, but for the two letters with a Persian form. -/
def is_plain (c : Char) : Bool :=
  c.toNat < 128 || (0x600 ≤ c.toNat && c.toNat < 0x700 && c ≠ 'ي' && c ≠ 'ك')

/-- What the documentation says of the three functions. -/
structure Documented (casefold : Char → Text) (lower : Text → Text) (same : Char → Char → Bool) :
    Prop where
  folds : ∀ c, casefold c ≠ []
  nothing : lower [] = []
  fold_plain : ∀ c, is_plain c = true → casefold c = [c.toLower]
  lower_plain : ∀ text, (∀ c ∈ text, is_plain c = true) → lower text = text.map Char.toLower
  same_plain : ∀ a b, is_plain a = true → is_plain b = true →
    (same a.toLower b.toLower = true ↔ a.toLower = b.toLower)

/-! ## Blanks -/

theorem mem_one_blank {text : Text} {c : Char} (h : c ∈ one_blank text) :
    c = ' ' ∨ c ∈ text ∧ isSpace c = false := by
  induction text with
  | nil => cases h
  | cons d rest ih =>
    have hrest : c ∈ one_blank rest → c = ' ' ∨ c ∈ d :: rest ∧ isSpace c = false := fun h =>
      (ih h).imp_right fun h => ⟨List.mem_cons_of_mem _ h.1, h.2⟩
    unfold one_blank at h
    split at h
    · split at h
      · exact hrest h
      · exact (List.mem_cons.mp h).elim .inl hrest
    · next hd =>
      rcases List.mem_cons.mp h with rfl | h
      · exact .inr ⟨List.mem_cons_self .., by simpa using hd⟩
      · exact hrest h

theorem one_blank_eq_nil {text : Text} : one_blank text = [] ↔ text = [] := by
  induction text with
  | nil => exact iff_of_true rfl rfl
  | cons c rest ih =>
    refine iff_of_false (fun h => ?_) (List.cons_ne_nil _ _)
    unfold one_blank at h
    split at h
    · split at h
      · next hhead =>
        rw [ih.mp h] at hhead
        cases hhead
      · cases h
    · cases h

theorem one_blank_map {f : Char → Char} (hblank : f ' ' = ' ') {text : Text}
    (hf : ∀ c ∈ text, isSpace (f c) = isSpace c) :
    one_blank (text.map f) = (one_blank text).map f := by
  induction text with
  | nil => rfl
  | cons c rest ih =>
    have hrest := ih fun d hd => hf d (List.mem_cons_of_mem _ hd)
    have hhead : (rest.map f).head?.any isSpace = rest.head?.any isSpace := by
      cases rest with
      | nil => rfl
      | cons d rest => exact hf d (by simp)
    rw [List.map_cons]
    unfold one_blank
    rw [hf c (List.mem_cons_self ..), hhead, hrest]
    split
    · split
      · rfl
      · rw [List.map_cons, hblank]
    · rw [List.map_cons]

theorem one_blank_last {text : Text} (h : ∀ c, text.getLast? = some c → isSpace c = false) :
    ∀ c, (one_blank text).getLast? = some c → isSpace c = false := by
  induction text with
  | nil => exact h
  | cons d rest ih =>
    by_cases hrest : rest = []
    · subst hrest
      have hd : isSpace d = false := h d rfl
      unfold one_blank
      rw [if_neg (by rw [hd]; decide)]
      exact h
    · have hlast : ∀ x : Char, ∀ text : Text, text ≠ [] → (x :: text).getLast? = text.getLast? :=
        fun x text htext => by
          obtain ⟨y, ys, rfl⟩ := List.exists_cons_of_ne_nil htext
          exact List.getLast?_cons_cons
      have hmore : one_blank rest ≠ [] := fun hnil => hrest (one_blank_eq_nil.mp hnil)
      have hih := ih fun c hc => h c ((hlast d rest hrest).trans hc)
      unfold one_blank
      split
      · split
        · exact hih
        · rw [hlast _ _ hmore]
          exact hih
      · rw [hlast _ _ hmore]
        exact hih

theorem joined_last {text : Text} {c : Char} (h : (joined text).getLast? = some c) :
    isSpace c = false := by
  refine one_blank_last (fun d hd => ?_) c h
  have hne : strip text ≠ [] := fun hnil => by
    rw [hnil] at hd
    cases hd
  have hlast := List.rdropWhile_last_not isSpace (text.dropWhile isSpace) hne
  rw [List.getLast?_eq_some_getLast hne] at hd
  cases hd
  exact Bool.eq_false_iff.mpr hlast

theorem mem_joined {text : Text} {c : Char} (h : c ∈ joined text) :
    c = ' ' ∨ c ∈ text ∧ isSpace c = false := by
  refine (mem_one_blank h).imp_right fun h => ⟨?_, h.2⟩
  exact (List.dropWhile_suffix _).subset ((List.rdropWhile_prefix _ _).subset h.1)

/-! ## The search of the service -/

section
variable {casefold : Char → Text} {normal folded : Text}

/-- What is cut out of the message behind a trigger. -/
def question (normal folded trigger : Text) : Text :=
  if folded = trigger then []
  else (normal.drop trigger.length).dropWhile (TRIGGER_PUNCTUATION.contains ·)

theorem first_trigger_begins {t : Text} (h : Begins folded t) (ts : List Text) :
    first_trigger normal folded (t :: ts) = (some t, some (question normal folded t)) := by
  unfold first_trigger question
  rcases h with h | ⟨c, rest, rfl, hc⟩
  · rw [if_pos h, if_pos h]
  · have hne : t ++ c :: rest ≠ t := by simp
    have hstart : t.isPrefixOf (t ++ c :: rest) = true :=
      List.isPrefixOf_iff_prefix.mpr (List.prefix_append _ _)
    have hnext : (t ++ c :: rest)[t.length]? = some c := by simp
    have hend : (!isSpace c && !TRIGGER_PUNCTUATION.contains c) = false := by
      rcases hc with hc | hc
      · rw [hc]
        rfl
      · rw [List.contains_iff_mem.mpr hc]
        exact Bool.and_false _
    rw [if_neg hne, if_neg hne, hstart, hnext, Option.any_some, hend, if_neg (by decide),
      if_neg (by decide)]

theorem first_trigger_skip {t : Text} (h : ¬Begins folded t) (ts : List Text) :
    first_trigger normal folded (t :: ts) = first_trigger normal folded ts := by
  unfold Begins at h
  obtain ⟨hne, hnext⟩ := not_or.mp h
  rw [first_trigger.eq_2, if_neg hne]
  by_cases hstart : t.isPrefixOf folded = true
  · obtain ⟨rest, rfl⟩ := List.isPrefixOf_iff_prefix.mp hstart
    cases rest with
    | nil => exact absurd (List.append_nil t) hne
    | cons c rest =>
      have hc : (!isSpace c && !TRIGGER_PUNCTUATION.contains c) = true := by
        by_contra hc
        refine hnext ⟨c, rest, rfl, ?_⟩
        by_cases hspace : isSpace c = true
        · exact .inl hspace
        · rw [Bool.not_eq_true] at hspace
          rw [hspace, Bool.not_false, Bool.true_and, Bool.not_eq_true', Bool.not_eq_false] at hc
          exact .inr (List.contains_iff_mem.mp hc)
      have hget : (t ++ c :: rest)[t.length]? = some c := by simp
      rw [hstart, hget, Option.any_some, hc, if_neg (by decide), if_pos rfl]
  · rw [Bool.not_eq_true] at hstart
    rw [hstart, Bool.not_false, if_pos rfl]

theorem first_trigger_found {ts : List Text} {t : Text} (h : FirstTrigger folded ts t) :
    first_trigger normal folded ts = (some t, some (question normal folded t)) := by
  obtain ⟨before, after, rfl, ht, hbefore⟩ := h
  induction before with
  | nil => exact first_trigger_begins ht after
  | cons u before ih =>
    rw [List.cons_append, first_trigger_skip (hbefore u (List.mem_cons_self ..)),
      ih fun v hv => hbefore v (List.mem_cons_of_mem _ hv)]

/-- Either no trigger begins the text, or there is a first one. -/
theorem first_or_none (folded : Text) (ts : List Text) :
    (∀ t ∈ ts, ¬Begins folded t) ∨ ∃ t, FirstTrigger folded ts t := by
  induction ts with
  | nil => exact .inl fun t ht => absurd ht List.not_mem_nil
  | cons t ts ih =>
    by_cases ht : Begins folded t
    · exact .inr ⟨t, [], ts, rfl, ht, fun u hu => absurd hu List.not_mem_nil⟩
    · rcases ih with hnone | ⟨u, before, after, rfl, hu, hbefore⟩
      · exact .inl (List.forall_mem_cons.mpr ⟨ht, hnone⟩)
      · exact .inr ⟨u, t :: before, after, rfl, hu, List.forall_mem_cons.mpr ⟨ht, hbefore⟩⟩

theorem first_trigger_none {ts : List Text} (h : ∀ t ∈ ts, ¬Begins folded t) :
    first_trigger normal folded ts = (none, none) := by
  induction ts with
  | nil => rfl
  | cons t ts ih =>
    rw [first_trigger_skip (h t (List.mem_cons_self ..)),
      ih fun u hu => h u (List.mem_cons_of_mem _ hu)]

theorem mem_add_phrase {normalized : List Text} {phrase t : Text} :
    t ∈ add_phrase casefold normalized phrase ↔
      t ∈ normalized ∨ t ≠ [] ∧ t = fold casefold (_collapse_spaces phrase) := by
  unfold add_phrase
  simp only
  generalize fold casefold (_collapse_spaces phrase) = cleaned
  split
  · next h =>
    refine ⟨.inl, ?_⟩
    rintro (ht | ⟨hne, rfl⟩)
    · exact ht
    · rw [Bool.or_eq_true, List.isEmpty_iff, List.contains_iff_mem] at h
      exact h.resolve_left hne
  · next h =>
    rw [Bool.or_eq_true, List.isEmpty_iff, List.contains_iff_mem, not_or] at h
    rw [List.mem_append, List.mem_singleton]
    refine or_congr_right ⟨?_, fun ht => ht.2⟩
    rintro rfl
    exact ⟨h.1, rfl⟩

theorem mem_phrases {phrases normalized : List Text} {t : Text} :
    t ∈ phrases.foldl (add_phrase casefold) normalized ↔
      t ∈ normalized ∨ t ≠ [] ∧ ∃ p ∈ phrases, t = fold casefold (_collapse_spaces p) := by
  induction phrases generalizing normalized with
  | nil => simp
  | cons p phrases ih =>
    rw [List.foldl_cons, ih, mem_add_phrase, or_assoc, ← and_or_left]
    simp

theorem trigger_ne_nil {raw fallback : Option (List (Option Text))} {t : Text}
    (h : t ∈ normalize_trigger_phrases casefold raw fallback) : t ≠ [] := by
  have hfold : ∀ phrases : List Text, t ∈ phrases.foldl (add_phrase casefold) [] → t ≠ [] :=
    fun phrases ht => ((mem_phrases.mp ht).resolve_left List.not_mem_nil).1
  unfold normalize_trigger_phrases at h
  simp only at h
  split at h
  · exact hfold _ h
  · exact hfold _ h

/-- No trigger begins an empty text. -/
theorem not_begins_nil {t : Text} (ht : t ≠ []) : ¬Begins [] t := by
  rintro (h | ⟨c, rest, h, -⟩)
  · exact ht h.symm
  · exact List.append_ne_nil_of_right_ne_nil t (List.cons_ne_nil c rest) h.symm

theorem detect_eq (casefold : Char → Text) (text : Option Text)
    (raw : Option (List (Option Text))) :
    detect_group_trigger casefold text raw =
      first_trigger (_collapse_spaces (text.getD []))
        (fold casefold (_collapse_spaces (text.getD [])))
        (normalize_trigger_phrases casefold raw none) := by
  unfold detect_group_trigger
  simp only
  split
  · next h =>
    rw [List.isEmpty_iff.mp h]
    exact (first_trigger_none fun t ht => not_begins_nil (trigger_ne_nil ht)).symm
  · rfl

/-- Characters that fold to one each are counted alike in both texts. -/
theorem fold_take {text : Text} {k : Nat}
    (h : ∀ c ∈ text.take k, (casefold c).length = 1) :
    fold casefold (text.take k) = (fold casefold text).take k := by
  induction text generalizing k with
  | nil =>
    rw [List.take_nil]
    exact List.take_nil.symm
  | cons c rest ih =>
    cases k with
    | zero => rfl
    | succ k =>
      rw [List.take_succ_cons] at h ⊢
      obtain ⟨x, hx⟩ := List.length_eq_one_iff.mp (h c (List.mem_cons_self ..))
      have hcons : ∀ text : Text, fold casefold (c :: text) = x :: fold casefold text := by
        intro text
        unfold fold
        rw [List.flatMap_cons, hx]
        rfl
      rw [hcons, hcons, List.take_succ_cons, ih fun d hd => h d (List.mem_cons_of_mem _ hd)]

theorem begins_start {t : Text} (h : Begins folded t) : t <+: folded := by
  rcases h with rfl | ⟨c, rest, rfl, -⟩
  · exact List.prefix_rfl
  · exact List.prefix_append _ _

theorem fold_eq_nil (hfolds : ∀ c, casefold c ≠ []) {text : Text} :
    fold casefold text = [] ↔ text = [] := by
  cases text with
  | nil => exact iff_of_true rfl rfl
  | cons c rest =>
    refine iff_of_false (fun h => ?_) (List.cons_ne_nil _ _)
    unfold fold at h
    rw [List.flatMap_cons] at h
    exact hfolds c (List.append_eq_nil_iff.mp h).1

/-- The question is cut out at the right place where the trigger has as many characters as what
folds to it. -/
theorem question_eq (hfolds : ∀ c, casefold c ≠ []) {t : Text}
    (ht : Begins (fold casefold normal) t)
    (hone : ∀ c ∈ normal.take t.length, (casefold c).length = 1) :
    fold casefold (normal.take t.length) = t ∧
      question normal (fold casefold normal) t =
        (normal.drop t.length).dropWhile (TRIGGER_PUNCTUATION.contains ·) := by
  have htake : fold casefold (normal.take t.length) = t :=
    (fold_take hone).trans (List.prefix_iff_eq_take.mp (begins_start ht)).symm
  refine ⟨htake, ?_⟩
  unfold question
  split
  · next hall =>
    have hsplit : fold casefold (normal.take t.length) ++ fold casefold (normal.drop t.length) =
        fold casefold normal := by
      unfold fold
      rw [← List.flatMap_append, List.take_append_drop]
    rw [htake, hall] at hsplit
    have hrest := (fold_eq_nil hfolds).mp (List.append_right_eq_self.mp hsplit)
    rw [hrest]
    rfl
  · rfl

end

/-! ## The search of the bot -/

section
variable {lower : Text → Text} {same : Char → Char → Bool} {compact lowered : Text}

/-- What the copy in the bot cuts out behind a phrase. -/
def bot_question (compact lowered trigger : Text) : Text :=
  strip (compact.drop
    (trigger.length + ((lowered.drop trigger.length).takeWhile is_separator).length))

theorem match_end_some {t : Text} (h : Matches same lowered t) : match_end same t lowered =
    some (t.length + ((lowered.drop t.length).takeWhile is_separator).length) := by
  obtain ⟨-, hlength, hsame, hnext⟩ := h
  unfold match_end
  simp only
  rw [if_pos (by rw [hsame, decide_eq_true hlength]; rfl)]
  cases hrest : lowered.drop t.length with
  | nil => rfl
  | cons c rest =>
    have hc : is_separator c = true := hnext c (by rw [hrest]; rfl)
    rw [List.takeWhile_cons_of_pos hc]
    rfl

theorem match_end_none {t : Text} (ht : t ≠ []) (h : ¬Matches same lowered t) :
    match_end same t lowered = none := by
  unfold match_end
  simp only
  split
  · next hstart =>
    rw [Bool.and_eq_true, decide_eq_true_eq] at hstart
    cases hrest : lowered.drop t.length with
    | nil =>
      refine absurd ⟨ht, hstart.1, hstart.2, fun c hc => ?_⟩ h
      rw [hrest] at hc
      cases hc
    | cons c rest =>
      have hc : ¬is_separator c = true := fun hc => h ⟨ht, hstart.1, hstart.2, fun d hd => by
        rw [hrest] at hd
        cases hd
        exact hc⟩
      rw [List.takeWhile_cons_of_neg hc]
      rfl
  · rfl

theorem first_match_cases (same : Char → Char → Bool) (compact lowered : Text) (ts : List Text) :
    first_match same compact lowered ts = (none, []) ∧ (∀ t ∈ ts, ¬Matches same lowered t) ∨
      ∃ before t after, ts = before ++ t :: after ∧ Matches same lowered t ∧
        (∀ u ∈ before, ¬Matches same lowered u) ∧
          first_match same compact lowered ts = (some t, bot_question compact lowered t) := by
  induction ts with
  | nil => exact .inl ⟨rfl, fun t ht => absurd ht List.not_mem_nil⟩
  | cons t ts ih =>
    by_cases ht : Matches same lowered t
    · refine .inr ⟨[], t, ts, rfl, ht, fun u hu => absurd hu List.not_mem_nil, ?_⟩
      unfold first_match
      rw [if_neg (by simpa using ht.1), match_end_some ht]
      rfl
    · have hskip : first_match same compact lowered (t :: ts) =
          first_match same compact lowered ts := by
        rw [first_match.eq_2]
        split
        · rfl
        · next hne => rw [match_end_none (by simpa using hne) ht]
      rw [hskip]
      rcases ih with ⟨hnone, hall⟩ | ⟨before, u, after, rfl, hu, hbefore, hfound⟩
      · exact .inl ⟨hnone, List.forall_mem_cons.mpr ⟨ht, hall⟩⟩
      · exact .inr ⟨t :: before, u, after, rfl, hu, List.forall_mem_cons.mpr ⟨ht, hbefore⟩, hfound⟩

/-- Of the phrases that match, the bot takes one of the longest. -/
theorem extract_cases (same : Char → Char → Bool) (hnothing : lower [] = []) (text : Text)
    (phrases : List Text) :
    _extract_group_question lower same text phrases = (none, []) ∧
        (∀ t ∈ phrases.map (_normalize_group_trigger_phrase lower),
          ¬Matches same (lower (joined text)) t) ∨
      ∃ t ∈ phrases.map (_normalize_group_trigger_phrase lower),
        Matches same (lower (joined text)) t ∧
        (∀ u ∈ phrases.map (_normalize_group_trigger_phrase lower),
          Matches same (lower (joined text)) u → u.length ≤ t.length) ∧
        _extract_group_question lower same text phrases =
          (some t, bot_question (joined text) (lower (joined text)) t) := by
  unfold _extract_group_question
  simp only
  generalize phrases.map (_normalize_group_trigger_phrase lower) = ts
  split
  · next hempty =>
    refine .inl ⟨rfl, fun t _ ht => ?_⟩
    rw [List.isEmpty_iff.mp hempty, hnothing] at ht
    exact ht.1 (List.length_eq_zero_iff.mp (Nat.le_zero.mp ht.2.1))
  · have hmem : ∀ t, t ∈ ts.mergeSort (fun a b => b.length ≤ a.length) ↔ t ∈ ts := fun t =>
      List.mem_mergeSort
    rcases first_match_cases same (joined text) (lower (joined text))
        (ts.mergeSort fun a b => b.length ≤ a.length) with
      ⟨hnone, hall⟩ | ⟨before, t, after, hsplit, ht, hbefore, hfound⟩
    · exact .inl ⟨hnone, fun t ht => hall t ((hmem t).mpr ht)⟩
    · have hsorted : (ts.mergeSort fun a b => b.length ≤ a.length).Pairwise
          fun a b => decide (b.length ≤ a.length) = true :=
        List.pairwise_mergeSort (fun a b c hab hbc => by simp at *; omega)
          (fun a b => by simp; omega) ts
      refine .inr ⟨t, (hmem t).mp (hsplit ▸ List.mem_append_right _ (List.mem_cons_self ..)), ht,
        fun u hu hmatch => ?_, hfound⟩
      rw [hsplit] at hsorted
      rcases List.mem_append.mp (hsplit ▸ (hmem u).mpr hu) with hu | hu
      · exact absurd hmatch (hbefore u hu)
      · rcases List.mem_cons.mp hu with rfl | hu
        · exact le_rfl
        · have hle := (List.pairwise_cons.mp (List.pairwise_append.mp hsorted).2.1).1 u hu
          exact of_decide_eq_true hle

end

/-! ## Plain texts -/

/-- A capital letter is neither a blank nor a mark of punctuation, and its small letter is not. -/
theorem toLower_kind (c : Char) : isSpace c.toLower = isSpace c ∧
    is_separator c.toLower = is_separator c ∧
      TRIGGER_PUNCTUATION.contains c.toLower = TRIGGER_PUNCTUATION.contains c := by
  rcases toLower_cases c with h | h
  · rw [h]
    exact ⟨rfl, rfl, rfl⟩
  · have hall : CAPITALS.all (fun c => decide (isSpace c.toLower = isSpace c ∧
        is_separator c.toLower = is_separator c ∧
          TRIGGER_PUNCTUATION.contains c.toLower = TRIGGER_PUNCTUATION.contains c)) = true := by
      decide
    exact of_decide_eq_true (List.all_eq_true.mp hall c h)

theorem separator_is_punctuation {c : Char} (hspace : isSpace c = true → c = ' ')
    (h : is_separator c = true) : c ∈ TRIGGER_PUNCTUATION := by
  unfold is_separator at h
  rw [Bool.or_eq_true] at h
  rcases h with h | h
  · rw [hspace h]
    decide
  · have hall : ([':', '،', ',', '!', '?', '؟', '-'] : List Char).all
        (TRIGGER_PUNCTUATION.contains ·) = true := by decide
    exact List.contains_iff_mem.mp (List.all_eq_true.mp hall c (List.contains_iff_mem.mp h))

theorem punctuation_is_separator {c : Char} (h : c ∈ TRIGGER_PUNCTUATION) (hdot : c ≠ '.')
    (hmark : c ≠ '؛') : is_separator c = true := by
  have hall : TRIGGER_PUNCTUATION.all (fun c => c = '.' || c = '؛' || is_separator c) = true := by
    decide
  have hc := List.all_eq_true.mp hall c h
  simpa [hdot, hmark] using hc

section
variable {casefold : Char → Text} {lower : Text → Text} {same : Char → Char → Bool}

theorem plain_joined {text : Text} (h : ∀ c ∈ text, is_plain c = true) :
    ∀ c ∈ joined text, is_plain c = true := by
  intro c hc
  rcases mem_joined hc with rfl | hc
  · decide
  · exact h c hc.1

theorem persian_plain {c : Char} (h : is_plain c = true) : persian_letter c = c := by
  unfold persian_letter
  rw [if_neg, if_neg]
  · rintro rfl
    exact absurd h (by decide)
  · rintro rfl
    exact absurd h (by decide)

theorem collapse_plain {text : Text} (h : ∀ c ∈ text, is_plain c = true) :
    _collapse_spaces text = joined text := by
  unfold _collapse_spaces
  rw [List.map_congr_left fun c hc => persian_plain (plain_joined h c hc), List.map_id']

theorem fold_plain (hdoc : Documented casefold lower same) {text : Text}
    (h : ∀ c ∈ text, is_plain c = true) : fold casefold text = text.map Char.toLower := by
  unfold fold
  rw [List.map_eq_flatMap]
  exact List.flatMap_congr fun c hc => hdoc.fold_plain c (h c hc)

theorem fold_collapse (hdoc : Documented casefold lower same) {text : Text}
    (h : ∀ c ∈ text, is_plain c = true) :
    fold casefold (_collapse_spaces text) = (joined text).map Char.toLower := by
  rw [collapse_plain h, fold_plain hdoc (plain_joined h)]

theorem mem_of_strip {text : Text} {c : Char} (h : c ∈ strip text) : c ∈ text :=
  (List.dropWhile_suffix _).subset ((List.rdropWhile_prefix _ _).subset h)

/-- Both programs make the same of a plain phrase. -/
theorem phrase_plain (hdoc : Documented casefold lower same) {phrase : Text}
    (h : ∀ c ∈ phrase, is_plain c = true) :
    _normalize_group_trigger_phrase lower phrase = (joined phrase).map Char.toLower := by
  unfold _normalize_group_trigger_phrase joined
  rw [hdoc.lower_plain _ fun c hc => h c (mem_of_strip hc)]
  exact one_blank_map (by decide) fun c _ => (toLower_kind c).1

theorem same_start (hdoc : Documented casefold lower same) {t text : Text}
    (ht : ∀ c ∈ t, is_plain c = true) (htext : ∀ c ∈ text, is_plain c = true)
    (hlength : t.length ≤ text.length) :
    ((t.map Char.toLower).zip (text.map Char.toLower)).all (fun (a, b) => same a b) = true ↔
      t.map Char.toLower <+: text.map Char.toLower := by
  induction t generalizing text with
  | nil => exact iff_of_true rfl List.nil_prefix
  | cons a t ih =>
    cases text with
    | nil => exact absurd hlength (by simp)
    | cons b text =>
      obtain ⟨ha, ht⟩ := List.forall_mem_cons.mp ht
      obtain ⟨hb, htext⟩ := List.forall_mem_cons.mp htext
      rw [List.map_cons, List.map_cons, List.zip_cons_cons, List.all_cons, Bool.and_eq_true,
        hdoc.same_plain a b ha hb, ih ht htext (Nat.le_of_succ_le_succ hlength),
        List.cons_prefix_cons]

/-- With a phrase that is not blank, the triggers are the phrases of the bot. -/
theorem trigger_plain (hdoc : Documented casefold lower same) {phrases : List Text}
    (hphrases : ∀ p ∈ phrases, ∀ c ∈ p, is_plain c = true) (hsome : ∃ p ∈ phrases, strip p ≠ [])
    {t : Text} : t ∈ normalize_trigger_phrases casefold (some (phrases.map some)) none ↔
      t ≠ [] ∧ t ∈ phrases.map (_normalize_group_trigger_phrase lower) := by
  have hmem : ∀ t, t ∈ phrases.foldl (add_phrase casefold) [] ↔
      t ≠ [] ∧ t ∈ phrases.map (_normalize_group_trigger_phrase lower) := by
    intro t
    rw [mem_phrases, List.mem_map, or_iff_right List.not_mem_nil]
    refine and_congr_right fun _ => ⟨?_, ?_⟩
    · rintro ⟨p, hp, rfl⟩
      exact ⟨p, hp, by rw [phrase_plain hdoc (hphrases p hp), fold_collapse hdoc (hphrases p hp)]⟩
    · rintro ⟨p, hp, rfl⟩
      exact ⟨p, hp, by rw [phrase_plain hdoc (hphrases p hp), fold_collapse hdoc (hphrases p hp)]⟩
  have hsource : ((some (phrases.map some)).or none).getD
      (DEFAULT_GROUP_TRIGGER_PHRASES.map some) = phrases.map some := rfl
  have hid : (phrases.map some).filterMap id = phrases := by
    rw [List.filterMap_map]
    exact List.filterMap_some
  unfold normalize_trigger_phrases
  simp only
  rw [hsource, hid, if_neg, hmem]
  obtain ⟨p, hp, hne⟩ := hsome
  have htrigger := (hmem ((joined p).map Char.toLower)).mpr
    ⟨fun h => hne (one_blank_eq_nil.mp (List.map_eq_nil_iff.mp h)),
      List.mem_map.mpr ⟨p, hp, phrase_plain hdoc (hphrases p hp)⟩⟩
  rw [List.isEmpty_iff]
  exact List.ne_nil_of_mem htrigger

theorem blank_of_joined {text : Text} {c : Char} (h : c ∈ joined text) (hc : isSpace c = true) :
    c = ' ' := by
  refine (mem_joined h).resolve_right fun h => ?_
  rw [h.2] at hc
  cases hc

theorem blank_of_lower {text : Text} {c : Char} (h : c ∈ (joined text).map Char.toLower)
    (hc : isSpace c = true) : c = ' ' := by
  obtain ⟨d, hd, rfl⟩ := List.mem_map.mp h
  rw [(toLower_kind d).1] at hc
  rw [blank_of_joined hd hc]
  decide

/-- A phrase that matches begins the text. -/
theorem begins_of_matches (hdoc : Documented casefold lower same) {text phrase : Text}
    (htext : ∀ c ∈ text, is_plain c = true) (hphrase : ∀ c ∈ phrase, is_plain c = true)
    (h : Matches same ((joined text).map Char.toLower) (phrase.map Char.toLower)) :
    Begins ((joined text).map Char.toLower) (phrase.map Char.toLower) := by
  obtain ⟨-, hlength, hsame, hnext⟩ := h
  have hprefix := (same_start hdoc hphrase (plain_joined htext) (by simpa using hlength)).mp hsame
  obtain ⟨rest, hrest⟩ := hprefix
  cases rest with
  | nil => exact .inl (by rw [← hrest, List.append_nil])
  | cons c rest =>
    refine .inr ⟨c, rest, hrest.symm, .inr ?_⟩
    have hc : c ∈ (joined text).map Char.toLower := by
      rw [← hrest]
      exact List.mem_append_right _ (List.mem_cons_self ..)
    exact separator_is_punctuation (blank_of_lower hc) (hnext c (by rw [← hrest]; simp))

/-- A trigger that begins the text matches, unless a mark behind it is no separator of the bot. -/
theorem matches_of_begins (hdoc : Documented casefold lower same) {text phrase : Text}
    (htext : ∀ c ∈ text, is_plain c = true) (hphrase : ∀ c ∈ phrase, is_plain c = true)
    (hne : phrase.map Char.toLower ≠ [])
    (h : Begins ((joined text).map Char.toLower) (phrase.map Char.toLower))
    (hmarks : ∀ c ∈ ((joined text).drop (phrase.map Char.toLower).length).takeWhile
      (TRIGGER_PUNCTUATION.contains ·), c ≠ '.' ∧ c ≠ '؛') :
    Matches same ((joined text).map Char.toLower) (phrase.map Char.toLower) := by
  have hprefix := begins_start h
  have hlength := hprefix.length_le
  refine ⟨hne, hlength, (same_start hdoc hphrase (plain_joined htext) (by simpa using hlength)).mpr
    hprefix, fun c hc => ?_⟩
  rw [← List.map_drop] at hc
  cases hdrop : (joined text).drop (phrase.map Char.toLower).length with
  | nil =>
    rw [hdrop] at hc
    cases hc
  | cons d rest =>
    rw [hdrop] at hc hmarks
    cases hc
    rw [(toLower_kind d).2.1]
    rcases h with h | ⟨c, more, h, hc⟩
    · have hnil := congrArg (List.drop (phrase.map Char.toLower).length) h
      rw [← List.map_drop, hdrop, List.drop_length] at hnil
      cases hnil
    · have hsame : d.toLower = c := by
        have hcut := congrArg (List.drop (phrase.map Char.toLower).length) h
        rw [← List.map_drop, hdrop, List.drop_left, List.map_cons] at hcut
        exact (List.cons.inj hcut).1
      rw [← hsame] at hc
      rcases hc with hc | hc
      · rw [(toLower_kind d).1] at hc
        unfold is_separator
        rw [hc, Bool.true_or]
      · rw [← List.contains_iff_mem, (toLower_kind d).2.2] at hc
        have hd : d ≠ '.' ∧ d ≠ '؛' := hmarks d (by
          rw [List.takeWhile_cons_of_pos hc]
          exact List.mem_cons_self ..)
        exact punctuation_is_separator (List.contains_iff_mem.mp hc) hd.1 hd.2

end

theorem drop_takeWhile (p : Char → Bool) (text : Text) :
    text.drop (text.takeWhile p).length = text.dropWhile p := by
  induction text with
  | nil => rfl
  | cons c rest ih =>
    by_cases hc : p c = true
    · rw [List.takeWhile_cons_of_pos hc, List.dropWhile_cons_of_pos hc, List.length_cons,
        List.drop_succ_cons, ih]
    · rw [List.takeWhile_cons_of_neg hc, List.dropWhile_cons_of_neg hc]
      rfl

/-- Without the two marks, both programs take the same characters off the question. -/
theorem questions_agree {rest : Text} (hblank : ∀ c ∈ rest, isSpace c = true → c = ' ')
    (hlast : ∀ c, rest.getLast? = some c → isSpace c = false)
    (hmarks : ∀ c ∈ rest.takeWhile (TRIGGER_PUNCTUATION.contains ·), c ≠ '.' ∧ c ≠ '؛') :
    rest.dropWhile (TRIGGER_PUNCTUATION.contains ·) =
      strip (rest.drop (rest.takeWhile is_separator).length) := by
  have hdrop : rest.dropWhile (TRIGGER_PUNCTUATION.contains ·) = rest.dropWhile is_separator := by
    clear hlast
    induction rest with
    | nil => rfl
    | cons c rest ih =>
      by_cases hc : TRIGGER_PUNCTUATION.contains c = true
      · rw [List.takeWhile_cons_of_pos hc] at hmarks
        obtain ⟨hhead, hrest⟩ := List.forall_mem_cons.mp hmarks
        have hsep := punctuation_is_separator (List.contains_iff_mem.mp hc) hhead.1 hhead.2
        rw [List.dropWhile_cons_of_pos hc, List.dropWhile_cons_of_pos hsep,
          ih (fun d hd => hblank d (List.mem_cons_of_mem _ hd)) hrest]
      · have hsep : ¬is_separator c = true := fun hsep => hc (List.contains_iff_mem.mpr
          (separator_is_punctuation (hblank c (List.mem_cons_self ..)) hsep))
        rw [List.dropWhile_cons_of_neg hc, List.dropWhile_cons_of_neg hsep]
  rw [drop_takeWhile, hdrop]
  refine (strip_eq_self.mpr ⟨fun c hc => ?_, fun c hc => ?_⟩).symm
  · have hne : rest.dropWhile is_separator ≠ [] := fun hnil => by
      rw [hnil] at hc
      cases hc
    rw [List.head?_eq_some_head hne] at hc
    cases hc
    have hhead := List.head_dropWhile_not is_separator hne
    unfold is_separator at hhead
    exact (Bool.or_eq_false_iff.mp hhead).1
  · have hne : rest.dropWhile is_separator ≠ [] := fun hnil => by
      rw [hnil] at hc
      cases hc
    refine hlast c ?_
    rw [← List.takeWhile_append_dropWhile (p := is_separator) (l := rest),
      List.getLast?_append_of_ne_nil _ hne]
    exact hc

section
variable {casefold : Char → Text} {lower : Text → Text} {same : Char → Char → Bool}

/-- Both leave the same question behind a trigger. -/
theorem question_agrees (hdoc : Documented casefold lower same) {text : Text}
    (htext : ∀ c ∈ text, is_plain c = true) {t : Text}
    (hbegin : Begins ((joined text).map Char.toLower) t)
    (hmarks : ∀ c ∈ ((joined text).drop t.length).takeWhile (TRIGGER_PUNCTUATION.contains ·),
      c ≠ '.' ∧ c ≠ '؛') :
    question (joined text) ((joined text).map Char.toLower) t =
      bot_question (joined text) (lower (joined text)) t := by
  have hplain := plain_joined htext
  have hfold : fold casefold (joined text) = (joined text).map Char.toLower :=
    fold_plain hdoc hplain
  have hone : ∀ c ∈ (joined text).take t.length, (casefold c).length = 1 := fun c hc => by
    rw [hdoc.fold_plain c (hplain c (List.mem_of_mem_take hc))]
    rfl
  have hcut := (question_eq hdoc.folds (t := t) (hfold ▸ hbegin) hone).2
  have hrun : (((joined text).map Char.toLower).drop t.length).takeWhile is_separator =
      (((joined text).drop t.length).takeWhile is_separator).map Char.toLower := by
    rw [← List.map_drop, List.takeWhile_map]
    exact congrArg (fun p => (List.takeWhile p _).map Char.toLower)
      (funext fun c => (toLower_kind c).2.1)
  rw [hfold] at hcut
  rw [hcut]
  unfold bot_question
  rw [hdoc.lower_plain _ hplain, hrun, List.length_map, ← List.drop_drop]
  refine questions_agree (fun c hc => blank_of_joined (List.mem_of_mem_drop hc)) (fun c hc => ?_)
    hmarks
  have hrest : (joined text).drop t.length ≠ [] := fun hnil => by
    rw [hnil] at hc
    cases hc
  have hlast : (joined text).getLast? = some c := by
    rw [← List.take_append_drop t.length (joined text), List.getLast?_append_of_ne_nil _ hrest]
    exact hc
  exact joined_last hlast

/-- On plain texts both searches give one answer, where the first trigger of the list that begins
the text is the longest and the two marks do not stand behind it. -/
theorem searches_agree (hdoc : Documented casefold lower same) {text : Text} {phrases : List Text}
    (htext : ∀ c ∈ text, is_plain c = true)
    (hphrases : ∀ p ∈ phrases, ∀ c ∈ p, is_plain c = true) (hsome : ∃ p ∈ phrases, strip p ≠ [])
    (hfirst : ∀ t, FirstTrigger (fold casefold (_collapse_spaces text))
        (normalize_trigger_phrases casefold (some (phrases.map some)) none) t →
      (∀ u ∈ normalize_trigger_phrases casefold (some (phrases.map some)) none,
        Begins (fold casefold (_collapse_spaces text)) u → u.length ≤ t.length) ∧
      ∀ c ∈ ((joined text).drop t.length).takeWhile (TRIGGER_PUNCTUATION.contains ·),
        c ≠ '.' ∧ c ≠ '؛') :
    detect_group_trigger casefold (some text) (some (phrases.map some)) =
      ((_extract_group_question lower same text phrases).1,
        (_extract_group_question lower same text phrases).1.map fun _ =>
          (_extract_group_question lower same text phrases).2) := by
  have hplain := plain_joined htext
  have hlower : lower (joined text) = (joined text).map Char.toLower := hdoc.lower_plain _ hplain
  have hphrase : ∀ u ∈ phrases.map (_normalize_group_trigger_phrase lower), ∃ p : Text,
      (∀ c ∈ p, is_plain c = true) ∧ u = p.map Char.toLower := by
    intro u hu
    obtain ⟨p, hp, rfl⟩ := List.mem_map.mp hu
    exact ⟨joined p, plain_joined (hphrases p hp), phrase_plain hdoc (hphrases p hp)⟩
  have hbegins : ∀ u ∈ phrases.map (_normalize_group_trigger_phrase lower),
      Matches same (lower (joined text)) u →
        Begins ((joined text).map Char.toLower) u ∧
          u ∈ normalize_trigger_phrases casefold (some (phrases.map some)) none := by
    intro u hu hmatch
    refine ⟨?_, (trigger_plain hdoc hphrases hsome).mpr ⟨hmatch.1, hu⟩⟩
    obtain ⟨p, hp, rfl⟩ := hphrase u hu
    rw [hlower] at hmatch
    exact begins_of_matches hdoc htext hp hmatch
  rw [fold_collapse hdoc htext] at hfirst
  rw [detect_eq, Option.getD_some, fold_collapse hdoc htext, collapse_plain htext]
  rcases first_or_none ((joined text).map Char.toLower)
      (normalize_trigger_phrases casefold (some (phrases.map some)) none) with hnone | ⟨t, ht⟩
  · rw [first_trigger_none hnone]
    rcases extract_cases same hdoc.nothing text phrases with ⟨hextract, -⟩ |
      ⟨u, hu, hmatch, -, -⟩
    · rw [hextract]
      rfl
    · obtain ⟨hbegin, hmem⟩ := hbegins u hu hmatch
      exact absurd hbegin (hnone u hmem)
  · obtain ⟨hlongest, hmarks⟩ := hfirst t ht
    have hbegin : Begins ((joined text).map Char.toLower) t := by
      obtain ⟨before, after, -, hbegin, -⟩ := ht
      exact hbegin
    have hmem : t ∈ normalize_trigger_phrases casefold (some (phrases.map some)) none := by
      obtain ⟨before, after, hsplit, -⟩ := ht
      rw [hsplit]
      exact List.mem_append_right _ (List.mem_cons_self ..)
    obtain ⟨hne, hphrases'⟩ := (trigger_plain hdoc hphrases hsome).mp hmem
    have hmatch : Matches same (lower (joined text)) t := by
      obtain ⟨p, hp, rfl⟩ := hphrase t hphrases'
      rw [hlower]
      exact matches_of_begins hdoc htext hp hne hbegin hmarks
    rw [first_trigger_found ht]
    rcases extract_cases same hdoc.nothing text phrases with ⟨-, hall⟩ |
      ⟨u, hu, humatch, hulongest, hextract⟩
    · exact absurd hmatch (hall t hphrases')
    · obtain ⟨hubegin, humem⟩ := hbegins u hu humatch
      have hlength : u.length = t.length :=
        le_antisymm (hlongest u humem hubegin) (hulongest t hphrases' hmatch)
      have hsame : u = t := by
        rw [List.prefix_iff_eq_take.mp (begins_start hubegin), hlength,
          ← List.prefix_iff_eq_take.mp (begins_start hbegin)]
      rw [hextract, hsame, question_agrees hdoc htext hbegin hmarks]
      rfl

end

/-! ## The law -/

/-- What the service reports: the first trigger of the list that begins the folded text. Where the
characters before its end fold to one each, the question is the rest of the text. -/
structure Detected (casefold : Char → Text) (text : Option Text)
    (raw_phrases : Option (List (Option Text))) : Prop where
  reported : ∀ t, (detect_group_trigger casefold text raw_phrases).1 = some t ↔
    FirstTrigger (fold casefold (_collapse_spaces (text.getD [])))
      (normalize_trigger_phrases casefold raw_phrases none) t
  silent : (detect_group_trigger casefold text raw_phrases).1 = none ↔
    ∀ t ∈ normalize_trigger_phrases casefold raw_phrases none,
      ¬Begins (fold casefold (_collapse_spaces (text.getD []))) t
  question : ∀ t q, detect_group_trigger casefold text raw_phrases = (some t, q) →
    (∀ c ∈ (_collapse_spaces (text.getD [])).take t.length, (casefold c).length = 1) →
      fold casefold ((_collapse_spaces (text.getD [])).take t.length) = t ∧
      q = some (((_collapse_spaces (text.getD [])).drop t.length).dropWhile
        (TRIGGER_PUNCTUATION.contains ·))

/-- What the bot reports: one of the longest phrases that match. -/
structure Extracted (lower : Text → Text) (same : Char → Char → Bool) (text : Text)
    (phrases : List Text) : Prop where
  reported : ∀ t, (_extract_group_question lower same text phrases).1 = some t →
    t ∈ phrases.map (_normalize_group_trigger_phrase lower) ∧
      Matches same (lower (joined text)) t ∧
        ∀ u ∈ phrases.map (_normalize_group_trigger_phrase lower),
          Matches same (lower (joined text)) u → u.length ≤ t.length
  silent : (_extract_group_question lower same text phrases).1 = none ↔
    ∀ t ∈ phrases.map (_normalize_group_trigger_phrase lower),
      ¬Matches same (lower (joined text)) t

theorem detected {casefold : Char → Text} (hfolds : ∀ c, casefold c ≠ []) (text : Option Text)
    (raw_phrases : Option (List (Option Text))) : Detected casefold text raw_phrases := by
  have heq := detect_eq casefold text raw_phrases
  rcases first_or_none (fold casefold (_collapse_spaces (text.getD [])))
    (normalize_trigger_phrases casefold raw_phrases none) with hnone | ⟨t, ht⟩
  · rw [first_trigger_none hnone] at heq
    refine ⟨fun u => ?_, ?_, fun u q hu => ?_⟩
    · rw [heq]
      refine iff_of_false (fun h => by cases h) ?_
      rintro ⟨before, after, hsplit, hu, -⟩
      exact hnone u (hsplit ▸ List.mem_append_right _ (List.mem_cons_self ..)) hu
    · rw [heq]
      exact iff_of_true rfl hnone
    · rw [heq] at hu
      cases hu
  · rw [first_trigger_found ht] at heq
    have hbegin : Begins (fold casefold (_collapse_spaces (text.getD []))) t := by
      obtain ⟨before, after, -, hbegin, -⟩ := ht
      exact hbegin
    refine ⟨fun u => ?_, ?_, fun u q hu hone => ?_⟩
    · rw [heq]
      refine ⟨fun h => ?_, fun hu => ?_⟩
      · cases h
        exact ht
      · have hboth := heq.symm.trans ((detect_eq _ text raw_phrases).trans (first_trigger_found hu))
        exact (Prod.mk.inj hboth).1
    · rw [heq]
      refine iff_of_false (fun h => by cases h) fun hall => ?_
      obtain ⟨before, after, hsplit, -⟩ := ht
      exact hall t (hsplit ▸ List.mem_append_right _ (List.mem_cons_self ..)) hbegin
    · rw [heq] at hu
      cases hu
      obtain ⟨htake, hcut⟩ := question_eq hfolds hbegin hone
      exact ⟨htake, congrArg some hcut⟩

theorem extracted {lower : Text → Text} (hnothing : lower [] = []) (same : Char → Char → Bool)
    (text : Text) (phrases : List Text) : Extracted lower same text phrases := by
  rcases extract_cases same hnothing text phrases with ⟨heq, hnone⟩ |
    ⟨t, ht, hmatch, hlongest, heq⟩
  · refine ⟨fun u hu => ?_, ?_⟩
    · rw [heq] at hu
      cases hu
    · rw [heq]
      exact iff_of_true rfl hnone
  · refine ⟨fun u hu => ?_, ?_⟩
    · rw [heq] at hu
      cases hu
      exact ⟨ht, hmatch, hlongest⟩
    · rw [heq]
      exact iff_of_false (fun h => by cases h) fun hall => hall t ht hmatch

/-- Folding that knows one letter beside those of ASCII. -/
def casefold_sharp (c : Char) : Text := if c = 'ß' then ['s', 's'] else [c.toLower]

theorem documented_sharp : Documented casefold_sharp (·.map Char.toLower) (· == ·) where
  folds c := by
    unfold casefold_sharp
    split <;> exact List.cons_ne_nil _ _
  nothing := rfl
  fold_plain c hc := by
    refine if_neg ?_
    rintro rfl
    exact absurd hc (by decide)
  lower_plain _ _ := rfl
  same_plain _ _ _ _ := beq_iff_eq

end dr_boz.group_triggers
