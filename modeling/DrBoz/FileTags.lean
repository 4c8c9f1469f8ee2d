-- Law of the tags that the bot writes for uploads: which names and captions
-- come back from `resolve_multimodal_tags_in_messages` as they went in.
import DrBoz.LearningOnboarding
import DrBoz.MultimodalTags

open text_scan dr_boz.py dr_boz.texts dr_boz.multimodal_tags

namespace dr_boz.file_tags

/-! ## What the bot writes -/

inductive Tag where
  | image (uploaded_file_id : Nat)
  | file (filename : String) (uploaded_file_id : Nat)

def Tag.kind : Tag → TagKind
  | .image _ => .image
  | .file _ _ => .file

def Tag.id : Tag → Nat
  | .image id => id
  | .file _ id => id

def Tag.text : Tag → String
  | .image id => "[عکس ارسال شده: ID=" ++ toString id ++ "]"
  | .file filename id => "[فایل: " ++ filename ++ " (ID=" ++ toString id ++ ")]"

/-- The message for one upload, with its caption if it has one. -/
def upload_message (tag : Tag) (caption : String) : String :=
  tag.text ++ if caption = "" then "" else "\n" ++ caption

/-- `"\n".join(parts)` -/
def lines (parts : List String) : String :=
  String.ofList (['\n'].intercalate (parts.map String.toList))

/-- The message for an album: the tags of its images, and the caption. -/
def album_message (ids : List Nat) (caption : String) : String :=
  let image_tags := lines (ids.map fun id => (Tag.image id).text)
  strip (lines ([image_tags, caption].filter (· ≠ "")))

/-! ## What is found -/

/-- The references in a text, with their places. -/
def found (content_str : String) : List (TagKind × Match Nat) :=
  let image_matches := (finditer IMAGE_TAG_PATTERN content_str.toList).map (TagKind.image, ·)
  let file_matches := (finditer FILE_TAG_PATTERN content_str.toList).map (TagKind.file, ·)
  (image_matches ++ file_matches).mergeSort fun a b => a.2.start ≤ b.2.start

/-- A message comes back: its references are these, at these places, and what is left without
its tags is the caption. -/
structure ComesBack (content_str : String) (references : List (TagKind × Match Nat))
    (caption : String) : Prop where
  references : found content_str = references
  caption : clean_text content_str = caption

/-- What ends the tag of a file. -/
def CLOSING : Pattern Nat := after " (ID=".toList (id_then ")]".toList)

/-- A caption without tags and without blanks at its ends. -/
structure FineCaption (caption : String) : Prop where
  no_image : finditer IMAGE_TAG_PATTERN caption.toList = []
  no_file : finditer FILE_TAG_PATTERN caption.toList = []
  trimmed : strip caption = caption

/-- A name without newlines, in which there is no tag of an image and nothing that ends the tag
of a file. -/
structure FineName (filename : String) : Prop where
  one_line : '\n' ∉ filename.toList
  no_image : finditer IMAGE_TAG_PATTERN filename.toList = []
  no_closing : finditer CLOSING filename.toList = []

def FineTag : Tag → Prop
  | .image _ => True
  | .file filename _ => FineName filename

/-! ## One pattern -/

/-- A text starts with an opening, digits and a closing. -/
structure Marked (opening closing text : List Char) (id n : Nat) : Prop where
  split : ∃ digits rest, digits ≠ [] ∧ (∀ c ∈ digits, (decimal c).isSome = true) ∧
    text = opening ++ digits ++ closing ++ rest ∧ id = number (digits.filterMap decimal) ∧
    n = opening.length + digits.length + closing.length

theorem literal_some {part text rest : List Char} :
    literal part text = some rest ↔ text = part ++ rest := by
  unfold literal
  split
  · rename_i hstarts
    obtain ⟨tail, rfl⟩ := hstarts
    simp
  · rename_i hstarts
    constructor
    · intro h
      cases h
    · rintro rfl
      exact absurd (List.prefix_append part rest) hstarts

theorem takeWhile_decimal {digits rest : List Char} {x : Char}
    (hdigits : ∀ c ∈ digits, (decimal c).isSome = true) (hx : decimal x = none) :
    (digits ++ x :: rest).takeWhile (fun c => (decimal c).isSome) = digits := by
  rw [List.takeWhile_append_of_pos hdigits, List.takeWhile_cons_of_neg (by simp [hx]),
    List.append_nil]

theorem after_some {α : Type} {opening text : List Char} {pattern : Pattern α} {a : α} {n : Nat} :
    after opening pattern text = some (a, n) ↔
      ∃ rest m, text = opening ++ rest ∧ pattern rest = some (a, m) ∧ n = opening.length + m := by
  simp only [after, Option.bind_eq_bind, Option.bind_eq_some_iff, literal_some]
  constructor
  · rintro ⟨rest, rfl, ⟨b, m⟩, hfound, heq⟩
    cases heq
    exact ⟨rest, m, rfl, hfound, rfl⟩
  · rintro ⟨rest, m, rfl, hfound, rfl⟩
    exact ⟨rest, rfl, (a, m), hfound, rfl⟩

theorem id_then_some {closing text : List Char} {x : Char} (hx : decimal x = none) {id n : Nat} :
    id_then (x :: closing) text = some (id, n) ↔
      ∃ digits rest, digits ≠ [] ∧ (∀ c ∈ digits, (decimal c).isSome = true) ∧
        text = digits ++ x :: closing ++ rest ∧ id = number (digits.filterMap decimal) ∧
        n = digits.length + (x :: closing).length := by
  unfold id_then
  constructor
  · intro h
    dsimp only at h
    split at h
    · cases h
    · rename_i hne
      simp only [Option.bind_eq_bind, Option.bind_eq_some_iff, literal_some] at h
      obtain ⟨rest, hrest, heq⟩ := h
      cases heq
      refine ⟨_, rest, hne, fun c hc => ?_, ?_, rfl, rfl⟩
      · exact List.mem_takeWhile_imp (p := fun c => (decimal c).isSome) hc
      · rw [List.append_assoc, ← hrest]
        exact (List.take_append_drop _ _).symm.trans (congrArg (· ++ _)
          (List.prefix_iff_eq_take.mp (List.takeWhile_prefix _)).symm)
  · rintro ⟨digits, rest, hne, hdigits, rfl, rfl, rfl⟩
    have htake : (digits ++ x :: closing ++ rest).takeWhile (fun c => (decimal c).isSome) =
        digits := by
      rw [List.append_assoc, List.cons_append, takeWhile_decimal hdigits hx]
    dsimp only
    rw [htake, if_neg hne, List.append_assoc, List.drop_left]
    simp only [Option.bind_eq_bind, Option.bind_eq_some_iff, literal_some]
    exact ⟨rest, rfl, trivial⟩

theorem marked_iff {opening closing : List Char} {x : Char} (hx : decimal x = none)
    {text : List Char} {id n : Nat} :
    after opening (id_then (x :: closing)) text = some (id, n) ↔
      Marked opening (x :: closing) text id n := by
  rw [after_some]
  constructor
  · rintro ⟨t, m, rfl, ht, rfl⟩
    obtain ⟨digits, rest, hne, hdigits, rfl, rfl, rfl⟩ := (id_then_some hx).mp ht
    refine ⟨digits, rest, hne, hdigits, ?_, rfl, ?_⟩
    · simp only [List.append_assoc]
    · omega
  · rintro ⟨digits, rest, hne, hdigits, rfl, rfl, rfl⟩
    refine ⟨digits ++ x :: closing ++ rest, digits.length + (x :: closing).length, ?_,
      (id_then_some hx).mpr ⟨digits, rest, hne, hdigits, rfl, rfl, rfl⟩, by omega⟩
    simp only [List.append_assoc]

theorem digits_decimal (n : Nat) : ∀ c ∈ Nat.toDigits 10 n, (decimal c).isSome = true := by
  intro c hc
  rw [decimal_of_digit (digits_are_digits hc)]
  rfl

theorem number_digits (n : Nat) : number ((Nat.toDigits 10 n).filterMap decimal) = n := by
  have hmap : ∀ cs : List Char, (∀ c ∈ cs, c.isDigit = true) →
      cs.filterMap decimal = cs.map (·.toNat - 48) := by
    intro cs hcs
    induction cs with
    | nil => rfl
    | cons c cs ih =>
      obtain ⟨hc, hcs⟩ := List.forall_mem_cons.mp hcs
      rw [List.filterMap_cons_some (decimal_of_digit hc), ih hcs, List.map_cons]
  rw [hmap _ fun c hc => digits_are_digits hc, number_toDigits]

theorem marked_written {opening closing : List Char} (id : Nat) (rest : List Char) :
    Marked opening closing (opening ++ Nat.toDigits 10 id ++ closing ++ rest) id
      (opening.length + (Nat.toDigits 10 id).length + closing.length) :=
  ⟨_, rest, Nat.toDigits_ne_nil, digits_decimal id, rfl, (number_digits id).symm, rfl⟩

/-- What matches goes on to match when more text is behind it. -/
theorem marked_append {opening closing text : List Char} {id n : Nat}
    (h : Marked opening closing text id n) (more : List Char) :
    Marked opening closing (text ++ more) id n := by
  obtain ⟨digits, rest, hne, hdigits, rfl, hid, hn⟩ := h
  exact ⟨digits, rest ++ more, hne, hdigits, by simp only [List.append_assoc], hid, hn⟩

/-- A match in a text with more behind it: it is in the text, or a part of it is behind. -/
theorem marked_split {opening closing text more : List Char} {id n : Nat}
    (h : Marked opening closing (text ++ more) id n) :
    Marked opening closing text id n ∧ n ≤ text.length ∨
      ∃ digits start, start ≠ [] ∧ (∀ c ∈ digits, (decimal c).isSome = true) ∧
        opening ++ digits ++ closing = text ++ start ∧ start <+: more := by
  obtain ⟨digits, rest, hne, hdigits, hsplit, hid, hn⟩ := h
  rcases List.append_eq_append_iff.mp hsplit with ⟨tail, htext, hrest⟩ | ⟨tail, htext, hrest⟩
  · by_cases htail : tail = []
    · subst htail
      rw [List.append_nil] at htext
      refine .inl ⟨⟨digits, [], hne, hdigits, ?_, hid, hn⟩, ?_⟩
      · rw [List.append_nil, htext]
      · rw [hn, ← htext, List.length_append, List.length_append]
    · exact .inr ⟨digits, tail, htail, hdigits, htext, ⟨rest, hrest.symm⟩⟩
  · refine .inl ⟨⟨digits, tail, hne, hdigits, htext, hid, hn⟩, ?_⟩
    rw [hn, htext, List.length_append, List.length_append, List.length_append]
    omega

/-! ## The patterns of the tags -/

def IMAGE_OPENING : List Char := "[عکس ارسال شده: ID=".toList
def FILE_OPENING : List Char := "[فایل: ".toList
def CLOSING_OPENING : List Char := " (ID=".toList

theorem image_iff {text : List Char} {id n : Nat} :
    IMAGE_TAG_PATTERN text = some (id, n) ↔ Marked IMAGE_OPENING [']'] text id n :=
  marked_iff (by decide)

theorem closing_iff {text : List Char} {id n : Nat} :
    CLOSING text = some (id, n) ↔ Marked CLOSING_OPENING [')', ']'] text id n :=
  marked_iff (by decide)

theorem file_iff {text : List Char} {id n : Nat} :
    FILE_TAG_PATTERN text = some (id, n) ↔
      ∃ rest m, text = FILE_OPENING ++ rest ∧ lazily CLOSING rest = some (id, m) ∧
        n = FILE_OPENING.length + m := after_some

/-- A tag begins with a bracket. -/
theorem bracket_of_tag {c : Char} {text : List Char} {id n : Nat}
    (h : IMAGE_TAG_PATTERN (c :: text) = some (id, n) ∨
      FILE_TAG_PATTERN (c :: text) = some (id, n)) : c = '[' := by
  rcases h with h | h
  · obtain ⟨digits, rest, -, -, hsplit, -⟩ := image_iff.mp h
    exact (List.cons.inj hsplit).1
  · obtain ⟨rest, m, hsplit, -⟩ := file_iff.mp h
    exact (List.cons.inj hsplit).1

theorem passes_without_bracket {part : List Char} (h : '[' ∉ part) (rest : List Char) :
    Passes IMAGE_TAG_PATTERN part rest ∧ Passes FILE_TAG_PATTERN part rest := by
  have hhead : ∀ before after, part = before ++ after → after ≠ [] →
      ∃ c text, after ++ rest = c :: text ∧ c ≠ '[' := by
    intro before after hsplit hne
    obtain ⟨c, text, rfl⟩ := List.exists_cons_of_ne_nil hne
    refine ⟨c, text ++ rest, rfl, ?_⟩
    rintro rfl
    exact h (hsplit ▸ List.mem_append_right _ List.mem_cons_self)
  constructor
  · intro before after hsplit hne a n hfound
    obtain ⟨c, text, htext, hc⟩ := hhead before after hsplit hne
    rw [htext] at hfound
    exact hc (bracket_of_tag (.inl hfound))
  · intro before after hsplit hne a n hfound
    obtain ⟨c, text, htext, hc⟩ := hhead before after hsplit hne
    rw [htext] at hfound
    exact hc (bracket_of_tag (.inr hfound))

theorem not_mem_digits {c : Char} (h : decimal c = none) (id : Nat) :
    c ∉ Nat.toDigits 10 id := by
  intro hmem
  have hdecimal := digits_decimal id c hmem
  rw [h] at hdecimal
  cases hdecimal

/-! ## The tags that are written -/

def Tag.chars : Tag → List Char
  | .image id => IMAGE_OPENING ++ Nat.toDigits 10 id ++ [']']
  | .file filename id =>
    FILE_OPENING ++ (filename.toList ++ (CLOSING_OPENING ++ Nat.toDigits 10 id ++ [')', ']']))

theorem tag_text_toList (tag : Tag) : tag.text.toList = tag.chars := by
  have hdigits : ∀ id : Nat, (toString id).toList = Nat.toDigits 10 id := fun id =>
    Nat.toList_repr
  have hone : "]".toList = [']'] := by decide
  have htwo : ")]".toList = [')', ']'] := by decide
  have hthree : ∀ a b c : String, (a ++ b ++ c).toList = a.toList ++ b.toList ++ c.toList := by
    intro a b c
    rw [String.toList_append, String.toList_append]
  cases tag with
  | image id =>
    refine (hthree "[عکس ارسال شده: ID=" (toString id) "]").trans ?_
    rw [hdigits, hone]
    rfl
  | file filename id =>
    refine (hthree ("[فایل: " ++ filename ++ " (ID=") (toString id) ")]").trans ?_
    rw [hthree, hdigits, htwo]
    simp only [List.append_assoc]
    rfl

/-- A scan over the tag of an image: it is found as one, and the tags of files are not. -/
theorem image_tag_scan (id : Nat) (rest : List Char) (pos : Nat) :
    find_from IMAGE_TAG_PATTERN 0 pos ((Tag.image id).chars ++ rest) =
        ⟨pos, id⟩ :: find_from IMAGE_TAG_PATTERN 0 (pos + (Tag.image id).chars.length) rest ∧
      remove_from IMAGE_TAG_PATTERN 0 ((Tag.image id).chars ++ rest) =
        remove_from IMAGE_TAG_PATTERN 0 rest := by
  obtain ⟨body, hbody⟩ : ∃ body, (Tag.image id).chars = '[' :: body := ⟨_, rfl⟩
  have hfound : IMAGE_TAG_PATTERN ((Tag.image id).chars ++ rest) =
      some (id, (Tag.image id).chars.length) := by
    refine image_iff.mpr ?_
    have hwritten := @marked_written IMAGE_OPENING [']'] id rest
    have hlength : (Tag.image id).chars.length =
        IMAGE_OPENING.length + (Nat.toDigits 10 id).length + [']'].length := by
      rw [Tag.chars, List.length_append, List.length_append]
    rw [hlength]
    exact hwritten
  rw [hbody] at hfound ⊢
  exact match_scan hfound pos

theorem passes_image_tag (id : Nat) (rest : List Char) :
    Passes FILE_TAG_PATTERN (Tag.image id).chars rest := by
  obtain ⟨body, hbody, hnot⟩ : ∃ body, (Tag.image id).chars = '[' :: 'ع' :: body ∧
      '[' ∉ 'ع' :: body := by
    have hopening : IMAGE_OPENING = '[' :: 'ع' :: "کس ارسال شده: ID=".toList := by decide
    have hchars : (Tag.image id).chars = IMAGE_OPENING ++ Nat.toDigits 10 id ++ [']'] := rfl
    refine ⟨"کس ارسال شده: ID=".toList ++ Nat.toDigits 10 id ++ [']'], ?_, ?_⟩
    · rw [hchars, hopening, List.cons_append, List.cons_append, List.cons_append, List.cons_append]
    have hdigits := not_mem_digits (c := '[') (by decide) id
    simp only [List.mem_cons, List.mem_append, hdigits, or_false]
    decide
  rw [hbody, passes_cons]
  refine ⟨fun a n hfound => ?_, (passes_without_bracket hnot rest).2⟩
  obtain ⟨tail, m, hsplit, -⟩ := file_iff.mp hfound
  have hsecond := (List.cons.inj (List.cons.inj hsplit).2).1
  revert hsecond
  decide

/-! ## The tag of a file -/

/-- What is behind the name in the tag of a file. -/
def tag_end (id : Nat) : List Char := CLOSING_OPENING ++ Nat.toDigits 10 id ++ [')', ']']

theorem file_chars (filename : String) (id : Nat) :
    (Tag.file filename id).chars = FILE_OPENING ++ (filename.toList ++ tag_end id) := rfl

theorem tag_end_head (id : Nat) (tail : List Char) :
    ∃ more, tag_end id ++ tail = ' ' :: '(' :: more := by
  have hopening : CLOSING_OPENING = [' ', '(', 'I', 'D', '='] := by decide
  unfold tag_end
  rw [hopening]
  exact ⟨_, rfl⟩

/-- A character that is in no part of a tag. -/
theorem not_in_tag {c : Char} {opening digits closing : List Char}
    (hdigits : ∀ d ∈ digits, (decimal d).isSome = true) (hc : (decimal c).isSome = false)
    (hopening : c ∉ opening) (hclosing : c ∉ closing) : c ∉ opening ++ digits ++ closing := by
  intro hmem
  rcases List.mem_append.mp hmem with hmem | hmem
  · rcases List.mem_append.mp hmem with hmem | hmem
    · exact hopening hmem
    · rw [hdigits c hmem] at hc
      cases hc
  · exact hclosing hmem

/-- The tag of an image that begins in a name does not end behind it. -/
theorem image_not_across {text start tail : List Char} {digits : List Char} {id : Nat}
    (hdigits : ∀ c ∈ digits, (decimal c).isSome = true) (hstart : start ≠ [])
    (hsplit : IMAGE_OPENING ++ digits ++ [']'] = text ++ start)
    (hstarts : start <+: tag_end id ++ tail) : False := by
  have hparenthesis : '(' ∉ IMAGE_OPENING ++ digits ++ [']'] :=
    not_in_tag hdigits (by decide) (by decide) (by decide)
  obtain ⟨more, hmore⟩ := hstarts
  obtain ⟨behind, hbehind⟩ := tag_end_head id tail
  obtain ⟨c, rest, rfl⟩ := List.exists_cons_of_ne_nil hstart
  rw [hbehind] at hmore
  obtain ⟨rfl, hsecond⟩ := List.cons.inj hmore
  cases rest with
  | nil =>
    have hlast := congrArg List.getLast? hsplit
    rw [List.getLast?_concat, List.getLast?_concat] at hlast
    revert hlast
    decide
  | cons d rest =>
    obtain ⟨rfl, -⟩ := List.cons.inj hsecond
    rw [hsplit] at hparenthesis
    exact hparenthesis (List.mem_append_right _ (List.mem_cons_of_mem _ List.mem_cons_self))

/-- The end of a tag that begins in a name does not end behind it. -/
theorem closing_not_across {text start tail : List Char} {digits : List Char} {id : Nat}
    (hdigits : ∀ c ∈ digits, (decimal c).isSome = true) (htext : text ≠ []) (hstart : start ≠ [])
    (hsplit : CLOSING_OPENING ++ digits ++ [')', ']'] = text ++ start)
    (hstarts : start <+: tag_end id ++ tail) : False := by
  obtain ⟨more, hmore⟩ := hstarts
  obtain ⟨behind, hbehind⟩ := tag_end_head id tail
  obtain ⟨c, rest, rfl⟩ := List.exists_cons_of_ne_nil hstart
  rw [hbehind] at hmore
  obtain ⟨rfl, -⟩ := List.cons.inj hmore
  obtain ⟨d, text, rfl⟩ := List.exists_cons_of_ne_nil htext
  have hopening : CLOSING_OPENING = ' ' :: ['(', 'I', 'D', '='] := by decide
  rw [hopening] at hsplit
  have htail : ['(', 'I', 'D', '='] ++ digits ++ [')', ']'] = text ++ ' ' :: rest :=
    (List.cons.inj hsplit).2
  have hspace : ' ' ∈ ['(', 'I', 'D', '='] ++ digits ++ [')', ']'] :=
    htail ▸ List.mem_append_right _ List.mem_cons_self
  exact not_in_tag hdigits (by decide) (by decide) (by decide) hspace

/-- The pattern of a closing is free in a name. -/
theorem no_closing_iff {filename : String} :
    finditer CLOSING filename.toList = [] ↔
      ∀ before after, filename.toList = before ++ after → after ≠ [] → CLOSING after = none := by
  constructor
  · intro h before after hsplit hne
    rcases hfound : CLOSING after with _ | ⟨a, n⟩
    · rfl
    · obtain ⟨digits, rest, -, -, -, -, hn⟩ := closing_iff.mp hfound
      have hpos : n = n - 1 + 1 := by
        rw [hn]
        simp only [List.length_cons, List.length_nil]
        omega
      rw [hpos] at hfound
      exact absurd hfound (free_of_find h before after hsplit hne a (n - 1))
  · intro h
    refine (free_scan (fun before after hsplit hne a n hfound => ?_) 0).1
    rw [h before after hsplit hne] at hfound
    cases hfound

/-- The tag of a file with a fine name is found as it was written. -/
theorem file_tag_found {filename : String} (hname : FineName filename) (id : Nat)
    (tail : List Char) :
    FILE_TAG_PATTERN ((Tag.file filename id).chars ++ tail) =
      some (id, (Tag.file filename id).chars.length) := by
  have hclosing : CLOSING (tag_end id ++ tail) = some (id, (tag_end id).length) := by
    have hlength : (tag_end id).length =
        CLOSING_OPENING.length + (Nat.toDigits 10 id).length + [')', ']'].length := by
      rw [tag_end, List.length_append, List.length_append]
    rw [hlength]
    exact closing_iff.mpr (marked_written id tail)
  have hno := no_closing_iff.mp hname.no_closing
  have hline : ∀ before after, filename.toList = before ++ after → after ≠ [] →
      CLOSING (after ++ (tag_end id ++ tail)) = none := by
    intro before after hsplit hne
    rcases hfound : CLOSING (after ++ (tag_end id ++ tail)) with _ | ⟨a, n⟩
    · rfl
    · rcases marked_split (closing_iff.mp hfound) with ⟨hmarked, -⟩ |
        ⟨digits, start, hstart, hdigits, hacross, hstarts⟩
      · cases (hno before after hsplit hne).symm.trans (closing_iff.mpr hmarked)
      · exact (closing_not_across hdigits hne hstart hacross hstarts).elim
  have hlazily := lazily_first hname.one_line hline hclosing
  rw [file_chars]
  refine file_iff.mpr ⟨filename.toList ++ (tag_end id ++ tail), _, ?_, hlazily, ?_⟩
  · simp only [List.append_assoc]
  · simp only [List.length_append]

/-- In the tag of a file with a name without tags of images there is none of these. -/
theorem file_tag_no_image {filename : String}
    (hno : Free IMAGE_TAG_PATTERN filename.toList) (id : Nat) (tail : List Char) :
    Passes IMAGE_TAG_PATTERN (Tag.file filename id).chars tail := by
  rw [file_chars, passes_append, passes_append]
  refine ⟨?_, ?_, ?_⟩
  · have hopening : FILE_OPENING = '[' :: "فایل: ".toList := by decide
    rw [hopening, passes_cons]
    refine ⟨fun a n hfound => ?_, (passes_without_bracket (by decide) _).1⟩
    obtain ⟨digits, rest, -, -, hsplit, -⟩ := image_iff.mp hfound
    have hsecond := (List.cons.inj (List.cons.inj hsplit).2).1
    revert hsecond
    decide
  · intro before after hsplit hne a n hfound
    rcases marked_split (image_iff.mp hfound) with ⟨hmarked, -⟩ |
      ⟨digits, start, hstart, hdigits, hacross, hstarts⟩
    · exact hno before after hsplit hne a n (image_iff.mpr hmarked)
    · exact image_not_across hdigits hstart hacross hstarts
  · have hbracket : '[' ∉ tag_end id := by
      unfold tag_end
      have hdigits := not_mem_digits (c := '[') (by decide) id
      simp only [List.mem_append, hdigits, or_false]
      decide
    exact (passes_without_bracket hbracket _).1

/-! ## Captions -/

/-- A caption on a line of its own, if there is one. -/
def caption_line (caption : String) : List Char :=
  if caption = "" then [] else '\n' :: caption.toList

theorem upload_message_toList (tag : Tag) (caption : String) :
    (upload_message tag caption).toList = tag.chars ++ caption_line caption := by
  unfold upload_message caption_line
  rw [String.toList_append, tag_text_toList]
  split
  · rfl
  · rw [String.toList_append]
    rfl

theorem free_nil {pattern : Pattern Nat} : Free pattern [] := fun _ _ hsplit hne =>
  absurd (List.append_eq_nil_iff.mp hsplit.symm).2 hne

theorem free_caption_line {pattern : Pattern Nat}
    (hnewline : ∀ text a n, pattern ('\n' :: text) ≠ some (a, n + 1)) (caption : String) :
    Free pattern (caption_line caption) ↔ finditer pattern caption.toList = [] := by
  have hfree : Free pattern caption.toList ↔ finditer pattern caption.toList = [] :=
    ⟨fun h => (free_scan h 0).1, free_of_find⟩
  unfold caption_line
  split
  · rename_i hempty
    rw [hempty]
    exact iff_of_true free_nil rfl
  · rw [← hfree, ← passes_nil_iff, passes_cons, passes_nil_iff]
    exact and_iff_right (by
      rw [List.append_nil]
      exact hnewline _)

theorem image_newline (text : List Char) (a n : Nat) :
    IMAGE_TAG_PATTERN ('\n' :: text) ≠ some (a, n + 1) := fun h =>
  absurd (bracket_of_tag (.inl h)) (by decide)

theorem file_newline (text : List Char) (a n : Nat) :
    FILE_TAG_PATTERN ('\n' :: text) ≠ some (a, n + 1) := fun h =>
  absurd (bracket_of_tag (.inr h)) (by decide)

/-- The letters of a text that are no blanks. -/
def letters (text : List Char) : List Char := text.filter fun c => !isSpace c

theorem letters_dropWhile (text : List Char) : letters (text.dropWhile isSpace) = letters text := by
  induction text with
  | nil => rfl
  | cons c text ih =>
    rw [List.dropWhile_cons]
    split
    · rename_i hspace
      rw [ih, letters, letters, List.filter_cons_of_neg (by simp [hspace])]
    · rfl

theorem letters_strip (s : String) : letters (strip s).toList = letters s.toList := by
  unfold strip
  rw [String.toList_ofList, letters, List.filter_reverse, ← letters, letters_dropWhile, letters,
    List.filter_reverse, List.reverse_reverse, ← letters, letters_dropWhile]

theorem letters_caption_line (caption : String) :
    letters (caption_line caption) = letters caption.toList := by
  unfold caption_line
  split
  · rename_i hempty
    rw [hempty]
    rfl
  · exact List.filter_cons_of_neg (by decide)

theorem strip_blank {blank : List Char} (h : ∀ c ∈ blank, isSpace c = true) (text : List Char) :
    strip (String.ofList (blank ++ text)) = strip (String.ofList text) := by
  unfold strip
  rw [String.toList_ofList, String.toList_ofList, List.dropWhile_append_of_pos h]

theorem strip_caption_line (caption : String) :
    strip (String.ofList (caption_line caption)) = strip caption := by
  unfold caption_line
  split
  · rename_i hempty
    rw [hempty]
  · have hblank := @strip_blank ['\n'] (List.all_eq_true.mp rfl) caption.toList
    rw [String.ofList_toList] at hblank
    exact hblank

/-! ## One upload -/

theorem clean_text_eq (content_str : String) :
    clean_text content_str = strip (String.ofList (remove_from FILE_TAG_PATTERN 0
      (remove_from IMAGE_TAG_PATTERN 0 content_str.toList))) := rfl

theorem start_of_find {α : Type} {pattern : Pattern α} {text : List Char} {skip pos : Nat}
    {m : Match α} (h : m ∈ find_from pattern skip pos text) : pos ≤ m.start := by
  induction text generalizing skip pos with
  | nil =>
    cases skip <;> cases h
  | cons c text ih =>
    cases skip with
    | succ skip =>
      rw [find_from] at h
      exact Nat.le_of_succ_le (ih h)
    | zero =>
      rw [find_from] at h
      split at h
      · rcases List.mem_cons.mp h with rfl | h
        · exact Nat.le_refl _
        · exact Nat.le_of_succ_le (ih h)
      · exact Nat.le_of_succ_le (ih h)

/-- The only reference of a text, if it is a tag of a file. -/
theorem only_file {content_str : String} {m : Match Nat}
    (h : found content_str = [(.file, m)]) :
    finditer IMAGE_TAG_PATTERN content_str.toList = [] ∧
      finditer FILE_TAG_PATTERN content_str.toList = [m] := by
  have hperm := List.mergeSort_perm
    ((finditer IMAGE_TAG_PATTERN content_str.toList).map (TagKind.image, ·) ++
      (finditer FILE_TAG_PATTERN content_str.toList).map (TagKind.file, ·))
    (fun a b => a.2.start ≤ b.2.start)
  have hsorted : found content_str = [(TagKind.file, m)] := h
  rw [show List.mergeSort _ _ = _ from hsorted] at hperm
  have hall := List.perm_singleton.mp hperm.symm
  rcases himages : finditer IMAGE_TAG_PATTERN content_str.toList with _ | ⟨image, images⟩
  · rw [himages] at hall
    refine ⟨rfl, ?_⟩
    rcases hfiles : finditer FILE_TAG_PATTERN content_str.toList with _ | ⟨file, files⟩
    · rw [hfiles] at hall
      cases hall
    · rw [hfiles] at hall
      simp only [List.map_nil, List.nil_append, List.map_cons, List.cons.injEq, Prod.mk.injEq,
        true_and, List.map_eq_nil_iff] at hall
      rw [hall.1, hall.2]
  · rw [himages] at hall
    cases (List.cons.inj hall).1

theorem found_of_files {content_str : String} {m : Match Nat}
    (himages : finditer IMAGE_TAG_PATTERN content_str.toList = [])
    (hfiles : finditer FILE_TAG_PATTERN content_str.toList = [m]) :
    found content_str = [(.file, m)] := by
  unfold found
  rw [himages, hfiles]
  exact List.mergeSort_singleton _

/-- The message for a file with a fine name, and what is left of it. -/
theorem file_message_scan {filename : String} (hname : FineName filename) (id : Nat)
    (caption : String) :
    (finditer FILE_TAG_PATTERN (upload_message (.file filename id) caption).toList =
        ⟨0, id⟩ :: find_from FILE_TAG_PATTERN 0 (Tag.file filename id).chars.length
          (caption_line caption)) ∧
      remove_from FILE_TAG_PATTERN 0 (upload_message (.file filename id) caption).toList =
        remove_from FILE_TAG_PATTERN 0 (caption_line caption) := by
  obtain ⟨body, hbody⟩ : ∃ body, (Tag.file filename id).chars = '[' :: body := ⟨_, rfl⟩
  have htag := file_tag_found hname id (caption_line caption)
  rw [upload_message_toList]
  rw [hbody] at htag ⊢
  obtain ⟨hfind, hremove⟩ := match_scan htag 0
  refine ⟨hfind.trans ?_, hremove⟩
  rw [Nat.zero_add, List.length_cons]

theorem image_free_name {filename caption : String} {id : Nat}
    (h : Free IMAGE_TAG_PATTERN (upload_message (.file filename id) caption).toList) :
    finditer IMAGE_TAG_PATTERN filename.toList = [] := by
  refine (free_scan (fun before after hsplit hne a n hfound => ?_) 0).1
  rw [upload_message_toList, file_chars, hsplit] at h
  have hmore := image_iff.mpr (marked_append (image_iff.mp hfound)
    (tag_end id ++ caption_line caption))
  refine h (FILE_OPENING ++ before) (after ++ (tag_end id ++ caption_line caption)) ?_
    (by simp [hne]) a n hmore
  simp only [List.append_assoc]

theorem image_free_caption {tag : Tag} {caption : String}
    (h : Free IMAGE_TAG_PATTERN (upload_message tag caption).toList) :
    finditer IMAGE_TAG_PATTERN caption.toList = [] := by
  rw [upload_message_toList] at h
  exact (free_caption_line image_newline caption).mp (free_suffix h)

/-- The tag of a file is found at the start: its name has no newline and nothing that ends the
tag, or the match ends within it. -/
theorem file_at_start {filename : String} {id found_id n : Nat} {tail : List Char}
    (h : FILE_TAG_PATTERN ((Tag.file filename id).chars ++ tail) = some (found_id, n)) :
    ('\n' ∉ filename.toList ∧ finditer CLOSING filename.toList = []) ∨
      ∃ start rest, filename.toList = start ++ rest ∧ n = FILE_OPENING.length + start.length := by
  obtain ⟨rest, m, hsplit, hlazily, rfl⟩ := file_iff.mp h
  rw [file_chars, List.append_assoc, List.append_assoc] at hsplit
  have hrest := List.append_cancel_left hsplit
  obtain ⟨line, after, k, rfl, hline, rfl, hclosing, hno⟩ := lazily_some hlazily
  rcases List.append_eq_append_iff.mp hrest with ⟨more, rfl, hmore⟩ | ⟨more, hname, rfl⟩
  · left
    rw [List.mem_append, not_or] at hline
    refine ⟨hline.1, no_closing_iff.mpr fun before suffix hsuffix hne => ?_⟩
    rcases hfound : CLOSING suffix with _ | ⟨a, n⟩
    · rfl
    · have hnone := hno before (suffix ++ more) (by rw [hsuffix, List.append_assoc])
        (by simp [hne])
      rw [List.append_assoc] at hnone
      cases hnone.symm.trans (closing_iff.mpr (marked_append (closing_iff.mp hfound) _))
  · by_cases hempty : more = []
    · subst hempty
      rw [List.append_nil] at hname
      left
      refine ⟨hname ▸ hline, no_closing_iff.mpr fun before suffix hsuffix hne => ?_⟩
      rcases hfound : CLOSING suffix with _ | ⟨a, n⟩
      · rfl
      · have hnone := hno before suffix (by rw [← hname, hsuffix]) hne
        cases hnone.symm.trans (closing_iff.mpr (marked_append (closing_iff.mp hfound) _))
    · right
      rcases marked_split (closing_iff.mp hclosing) with ⟨-, hle⟩ |
        ⟨digits, start, hstart, hdigits, hacross, hstarts⟩
      · refine ⟨line ++ more.take k, more.drop k, ?_, ?_⟩
        · rw [List.append_assoc, List.take_append_drop, hname]
        · rw [List.length_append, List.length_take, Nat.min_eq_left hle]
      · exact (closing_not_across hdigits hempty hstart hacross hstarts).elim

/-- A match that ends within the name leaves letters of the tag in the text. -/
theorem no_end_within {filename caption : String} {id : Nat} {start rest : List Char}
    (hname : filename.toList = start ++ rest)
    (hfound : FILE_TAG_PATTERN (upload_message (.file filename id) caption).toList =
      some (id, FILE_OPENING.length + start.length))
    (hfiles : finditer FILE_TAG_PATTERN (upload_message (.file filename id) caption).toList =
      [⟨0, id⟩]) (himages : Free IMAGE_TAG_PATTERN
        (upload_message (.file filename id) caption).toList)
    (hclean : clean_text (upload_message (.file filename id) caption) = caption) : False := by
  have hopening : FILE_OPENING = '[' :: "فایل: ".toList := by decide
  let left := rest ++ tag_end id ++ caption_line caption
  have hmessage : (upload_message (.file filename id) caption).toList =
      '[' :: ("فایل: ".toList ++ start) ++ left := by
    rw [upload_message_toList, file_chars, hname, hopening]
    simp only [left, List.append_assoc, List.cons_append]
  have hlength : FILE_OPENING.length + start.length =
      ("فایل: ".toList ++ start).length + 1 := by
    rw [hopening, List.length_cons, List.length_append]
    omega
  rw [hmessage, hlength] at hfound
  obtain ⟨hfind, hremove⟩ := match_scan hfound 0
  rw [hmessage] at hfiles
  have hnone := (List.cons.inj (hfind.symm.trans hfiles)).2
  have hleft : clean_text (upload_message (.file filename id) caption) =
      strip (String.ofList left) := by
    rw [clean_text_eq, (free_scan himages 0).2, hmessage, hremove,
      (free_scan (free_of_find hnone) 0).2]
  have hletters := congrArg letters (congrArg String.toList (hleft.symm.trans hclean))
  rw [letters_strip, String.toList_ofList] at hletters
  have hbracket : ']' ∈ letters (tag_end id) :=
    List.mem_filter.mpr ⟨List.mem_append_right _ (by decide), by decide⟩
  have hcount := congrArg List.length hletters
  simp only [left, letters, List.filter_append, List.length_append] at hcount
  rw [← letters, ← letters, ← letters, ← letters, letters_caption_line] at hcount
  have hpos := List.length_pos_of_mem hbracket
  omega

theorem file_comes_back_iff (filename : String) (id : Nat) (caption : String) :
    ComesBack (upload_message (.file filename id) caption) [(.file, ⟨0, id⟩)] caption ↔
      FineName filename ∧ FineCaption caption := by
  constructor
  · rintro ⟨hfound, hclean⟩
    obtain ⟨himages, hfiles⟩ := only_file hfound
    have hfree : Free IMAGE_TAG_PATTERN (upload_message (.file filename id) caption).toList :=
      free_of_find himages
    have htrimmed : strip caption = caption := by
      rw [← hclean]
      exact learning_onboarding.strip_strip _
    have hname : FineName filename := by
      obtain ⟨body, hbody⟩ : ∃ body, (upload_message (.file filename id) caption).toList =
          '[' :: body := by
        rw [upload_message_toList]
        exact ⟨_, rfl⟩
      have hstart : ∃ n, FILE_TAG_PATTERN
          (upload_message (.file filename id) caption).toList = some (id, n) := by
        by_contra hnot
        have hstarts : ∀ a n, FILE_TAG_PATTERN ('[' :: body) ≠ some (a, n + 1) := by
          intro a n hmatch
          have hhead := hfiles
          rw [hbody, finditer, find_from, hmatch] at hhead
          cases (List.cons.inj hhead).1
          exact hnot ⟨_, hbody ▸ hmatch⟩
        have hlater := hfiles
        rw [hbody, finditer, (find_from_cons_none hstarts 0).1] at hlater
        have hpos := start_of_find (hlater ▸ List.mem_singleton_self (⟨0, id⟩ : Match Nat))
        exact absurd hpos (Nat.not_succ_le_zero 0)
      obtain ⟨n, hn⟩ := hstart
      have hat := hn
      rw [upload_message_toList] at hat
      rcases file_at_start hat with ⟨hline, hclosing⟩ | ⟨start, rest, hsplit, rfl⟩
      · exact ⟨hline, image_free_name hfree, hclosing⟩
      · exact (no_end_within hsplit hn hfiles hfree hclean).elim
    refine ⟨hname, image_free_caption hfree, ?_, htrimmed⟩
    have hscan := (file_message_scan hname id caption).1
    exact (free_caption_line file_newline caption).mp
      (free_of_find (List.cons.inj (hscan.symm.trans hfiles)).2)
  · rintro ⟨hname, hcaption⟩
    obtain ⟨hfind, hremove⟩ := file_message_scan hname id caption
    have hfree := (free_caption_line file_newline caption).mpr hcaption.no_file
    have himage : Free IMAGE_TAG_PATTERN (upload_message (.file filename id) caption).toList := by
      rw [upload_message_toList, ← passes_nil_iff, passes_append, List.append_nil,
        passes_nil_iff]
      exact ⟨file_tag_no_image (free_of_find hname.no_image) id _,
        (free_caption_line image_newline caption).mpr hcaption.no_image⟩
    refine ⟨found_of_files (free_scan himage 0).1 ?_, ?_⟩
    · rw [hfind, (free_scan hfree _).1]
    · rw [clean_text_eq, (free_scan himage 0).2, hremove, (free_scan hfree 0).2,
        strip_caption_line, hcaption.trimmed]

/-! ## Albums -/

/-- The tags of the images after the first one, each on a line of its own. -/
def more_tags (ids : List Nat) : List Char :=
  ids.flatMap fun id => '\n' :: (Tag.image id).chars

/-- The references to the images of an album, if the first tag begins at `pos`. -/
def image_places (pos : Nat) : List Nat → List (Match Nat)
  | [] => []
  | id :: ids => ⟨pos, id⟩ :: image_places (pos + (Tag.image id).chars.length + 1) ids

theorem more_tags_scan (ids : List Nat) (tail : List Char) (pos : Nat) :
    find_from IMAGE_TAG_PATTERN 0 pos (more_tags ids ++ tail) =
        image_places (pos + 1) ids ++
          find_from IMAGE_TAG_PATTERN 0 (pos + (more_tags ids).length) tail ∧
      remove_from IMAGE_TAG_PATTERN 0 (more_tags ids ++ tail) =
        ids.map (fun _ => '\n') ++ remove_from IMAGE_TAG_PATTERN 0 tail := by
  induction ids generalizing pos with
  | nil => exact ⟨rfl, rfl⟩
  | cons id ids ih =>
    obtain ⟨hfinds, hremoves⟩ := ih (pos + 1 + (Tag.image id).chars.length)
    obtain ⟨hfind, hremove⟩ := image_tag_scan id (more_tags ids ++ tail) (pos + 1)
    obtain ⟨hnewline, hkept⟩ := find_from_cons_none
      (image_newline ((Tag.image id).chars ++ (more_tags ids ++ tail))) pos
    have hsplit : more_tags (id :: ids) ++ tail =
        '\n' :: ((Tag.image id).chars ++ (more_tags ids ++ tail)) := by
      rw [more_tags, List.flatMap_cons, List.append_assoc, List.cons_append]
      rfl
    have hlength : pos + 1 + (Tag.image id).chars.length + (more_tags ids).length =
        pos + (more_tags (id :: ids)).length := by
      rw [more_tags, more_tags, List.flatMap_cons, List.length_append, List.length_cons]
      omega
    rw [hsplit, hnewline, hkept, hfind, hremove, hfinds, hremoves, hlength]
    exact ⟨rfl, rfl⟩

theorem more_tags_passes (ids : List Nat) (tail : List Char) :
    Passes FILE_TAG_PATTERN (more_tags ids) tail := by
  induction ids with
  | nil => exact passes_nil_rest tail
  | cons id ids ih =>
    rw [more_tags, List.flatMap_cons, passes_append, passes_cons]
    exact ⟨⟨file_newline _, passes_image_tag id _⟩, ih⟩

theorem intercalate_newline (first : List Char) (parts : List (List Char)) :
    ['\n'].intercalate (first :: parts) = first ++ parts.flatMap ('\n' :: ·) := by
  induction parts generalizing first with
  | nil => simp
  | cons part parts ih =>
    rw [List.intercalate_cons_cons, ih, List.flatMap_cons, List.append_assoc]
    rfl

/-- The message for an album before blanks are taken from its ends. -/
def album_chars : List Nat → String → List Char
  | [], caption => caption.toList
  | id :: ids, caption => (Tag.image id).chars ++ more_tags ids ++ caption_line caption

theorem image_lines (id : Nat) (ids : List Nat) :
    (lines ((id :: ids).map fun id => (Tag.image id).text)).toList =
      (Tag.image id).chars ++ more_tags ids := by
  unfold lines
  rw [String.toList_ofList, List.map_cons, List.map_cons, intercalate_newline, tag_text_toList,
    List.map_map, more_tags, List.flatMap_map]
  refine congrArg ((Tag.image id).chars ++ ·) (List.flatMap_congr fun other _ => ?_)
  exact congrArg ('\n' :: ·) (tag_text_toList (.image other))

theorem album_lines (ids : List Nat) (caption : String) :
    (lines ([lines (ids.map fun id => (Tag.image id).text), caption].filter (· ≠ ""))).toList =
      album_chars ids caption := by
  cases ids with
  | nil =>
    by_cases hempty : caption = ""
    · rw [hempty]
      rfl
    · have hfilter : [lines ([].map fun id => (Tag.image id).text), caption].filter (· ≠ "") =
          [caption] := by
        have hnone : lines [] = "" := rfl
        simp [hnone, hempty]
      rw [hfilter]
      unfold lines album_chars
      rw [String.toList_ofList, List.map_singleton, List.intercalate_singleton]
  | cons id ids =>
    have htags := image_lines id ids
    generalize lines ((id :: ids).map fun id => (Tag.image id).text) = tags at htags ⊢
    have hne : tags ≠ "" := by
      rintro rfl
      cases htags
    change _ = (Tag.image id).chars ++ more_tags ids ++ caption_line caption
    rw [← htags, caption_line]
    by_cases hempty : caption = ""
    · have hfilter : [tags, caption].filter (· ≠ "") = [tags] := by simp [hne, hempty]
      rw [hfilter, if_pos hempty, List.append_nil, lines, String.toList_ofList,
        List.map_singleton, List.intercalate_singleton]
    · have hfilter : [tags, caption].filter (· ≠ "") = [tags, caption] := by simp [hne, hempty]
      rw [hfilter, if_neg hempty, lines, String.toList_ofList, List.map_cons,
        List.map_singleton, intercalate_newline, List.flatMap_singleton]

theorem more_tags_end (ids : List Nat) {head : List Char} (h : ∃ body, head = body ++ [']']) :
    ∃ body, head ++ more_tags ids = body ++ [']'] := by
  induction ids generalizing head with
  | nil =>
    rw [more_tags, List.flatMap_nil, List.append_nil]
    exact h
  | cons id ids ih =>
    rw [more_tags, List.flatMap_cons, ← List.append_assoc]
    refine ih ⟨head ++ '\n' :: (IMAGE_OPENING ++ Nat.toDigits 10 id), ?_⟩
    rw [List.append_assoc]
    rfl

theorem album_message_toList (ids : List Nat) {caption : String}
    (h : strip caption = caption) :
    (album_message ids caption).toList = album_chars ids caption := by
  have hlines := album_lines ids caption
  have hcaption := invoice_payloads.trimmed_strip caption
  rw [h] at hcaption
  have htrimmed : invoice_payloads.Trimmed (album_chars ids caption) := by
    cases ids with
    | nil => exact hcaption
    | cons id ids =>
      constructor
      · intro c hc
        cases hc
        decide
      · intro c hc
        obtain ⟨body, hbody⟩ := @more_tags_end ids
          (Tag.image id).chars ⟨IMAGE_OPENING ++ Nat.toDigits 10 id, rfl⟩
        rw [album_chars, hbody, caption_line] at hc
        split at hc
        · rw [List.append_nil, List.getLast?_concat] at hc
          cases hc
          decide
        · rename_i hempty
          have hne : caption.toList ≠ [] := fun hnil => hempty (String.toList_eq_nil_iff.mp hnil)
          rw [List.getLast?_append_of_ne_nil _ (by simp), List.getLast?_cons_of_ne_nil hne] at hc
          exact hcaption.last c hc
  unfold album_message
  rw [← hlines] at htrimmed ⊢
  rw [invoice_payloads.strip_trimmed htrimmed]

theorem image_places_starts (ids : List Nat) (pos : Nat) :
    (∀ m ∈ image_places pos ids, pos ≤ m.start) ∧
      (image_places pos ids).Pairwise fun a b => a.start ≤ b.start := by
  induction ids generalizing pos with
  | nil => exact ⟨List.forall_mem_nil _, List.Pairwise.nil⟩
  | cons id ids ih =>
    obtain ⟨hle, hpairwise⟩ := ih (pos + (Tag.image id).chars.length + 1)
    rw [image_places]
    refine ⟨fun m hm => ?_, List.pairwise_cons.mpr ⟨fun m hm => ?_, hpairwise⟩⟩
    · rcases List.mem_cons.mp hm with rfl | hm
      · exact Nat.le_refl _
      · exact le_trans (by omega) (hle m hm)
    · exact le_trans (by change pos ≤ _; omega) (hle m hm)

/-- What is found in an album: the tags of its images, and what is in the caption. -/
theorem album_scan (ids : List Nat) (caption : String) :
    ∃ pos tail, (tail = caption.toList ∨ tail = caption_line caption) ∧
      finditer IMAGE_TAG_PATTERN (album_chars ids caption) =
        image_places 0 ids ++ find_from IMAGE_TAG_PATTERN 0 pos tail ∧
      finditer FILE_TAG_PATTERN (album_chars ids caption) =
        find_from FILE_TAG_PATTERN 0 pos tail ∧
      remove_from IMAGE_TAG_PATTERN 0 (album_chars ids caption) =
        ids.tail.map (fun _ => '\n') ++ remove_from IMAGE_TAG_PATTERN 0 tail := by
  cases ids with
  | nil => exact ⟨0, caption.toList, .inl rfl, rfl, rfl, rfl⟩
  | cons id ids =>
    obtain ⟨hfind, hremove⟩ := image_tag_scan id (more_tags ids ++ caption_line caption) 0
    obtain ⟨hfinds, hremoves⟩ := more_tags_scan ids (caption_line caption)
      (0 + (Tag.image id).chars.length)
    have hfiles : Passes FILE_TAG_PATTERN ((Tag.image id).chars ++ more_tags ids)
        (caption_line caption) :=
      passes_append.mpr ⟨passes_image_tag id _, more_tags_passes ids _⟩
    refine ⟨0 + (Tag.image id).chars.length + (more_tags ids).length, caption_line caption,
      .inr rfl, ?_, ?_, ?_⟩
    · rw [album_chars, List.append_assoc, finditer, hfind, hfinds]
      rfl
    · rw [album_chars, finditer, (passes_scan hfiles 0).1, List.length_append, ← Nat.add_assoc]
    · rw [album_chars, List.append_assoc, hremove, hremoves]
      rfl

theorem free_tail {tail : List Char} {caption : String} {pattern : Pattern Nat}
    (h : tail = caption.toList ∨ tail = caption_line caption)
    (hnewline : ∀ text a n, pattern ('\n' :: text) ≠ some (a, n + 1)) :
    Free pattern tail ↔ finditer pattern caption.toList = [] := by
  rcases h with rfl | rfl
  · exact ⟨fun h => (free_scan h 0).1, free_of_find⟩
  · exact free_caption_line hnewline caption

theorem album_comes_back_iff (ids : List Nat) (caption : String) :
    ComesBack (album_message ids caption) ((image_places 0 ids).map (TagKind.image, ·)) caption ↔
      FineCaption caption := by
  by_cases htrimmed : strip caption = caption
  · obtain ⟨pos, tail, htail, hfind, hfiles, hremove⟩ := album_scan ids caption
    have himage := free_tail htail image_newline
    have hfile := free_tail htail file_newline
    have hmessage := album_message_toList ids htrimmed
    constructor
    · rintro ⟨hfound, -⟩
      have hlength := congrArg List.length hfound
      unfold found at hlength
      rw [List.length_mergeSort, hmessage, hfind, hfiles] at hlength
      simp only [List.length_append, List.length_map] at hlength
      have hnoimage : find_from IMAGE_TAG_PATTERN 0 pos tail = [] :=
        List.length_eq_zero_iff.mp (by omega)
      have hnofile : find_from FILE_TAG_PATTERN 0 pos tail = [] :=
        List.length_eq_zero_iff.mp (by omega)
      exact ⟨himage.mp (free_of_find hnoimage), hfile.mp (free_of_find hnofile), htrimmed⟩
    · rintro ⟨hnoimage, hnofile, -⟩
      have hfree := free_scan (himage.mpr hnoimage)
      have hfreefile := hfile.mpr hnofile
      constructor
      · unfold found
        rw [hmessage, hfind, hfiles, (hfree pos).1, (free_scan hfreefile pos).1,
          List.append_nil, List.map_nil]
        dsimp only
        rw [List.append_nil]
        refine List.mergeSort_of_pairwise (List.pairwise_map.mpr ?_)
        exact (image_places_starts ids 0).2.imp fun hle => decide_eq_true hle
      · have hblank : Passes FILE_TAG_PATTERN (ids.tail.map fun _ => '\n') tail := by
          refine (passes_without_bracket (fun hmem => ?_) tail).2
          obtain ⟨_, -, hnewline⟩ := List.mem_map.mp hmem
          revert hnewline
          decide
        have hspace : ∀ c ∈ ids.tail.map fun _ => '\n', isSpace c = true := by
          intro c hc
          obtain ⟨_, -, rfl⟩ := List.mem_map.mp hc
          decide
        rw [clean_text_eq, hmessage, hremove, (hfree 0).2, (passes_scan hblank 0).2,
          (free_scan hfreefile 0).2, strip_blank hspace]
        rcases htail with rfl | rfl
        · rw [String.ofList_toList, htrimmed]
        · rw [strip_caption_line, htrimmed]
  · refine iff_of_false (fun h => htrimmed ?_) fun h => htrimmed h.trimmed
    rw [← h.caption]
    exact learning_onboarding.strip_strip _

/-- The message for one image is that of an album, where the caption has no blanks at its ends. -/
theorem image_comes_back_iff (id : Nat) (caption : String) :
    ComesBack (upload_message (.image id) caption) [(.image, ⟨0, id⟩)] caption ↔
      FineCaption caption := by
  by_cases htrimmed : strip caption = caption
  · have hmessage : upload_message (.image id) caption = album_message [id] caption := by
      refine String.toList_inj.mp ?_
      rw [upload_message_toList, album_message_toList [id] htrimmed, album_chars, more_tags,
        List.flatMap_nil, List.append_nil]
    rw [hmessage]
    exact album_comes_back_iff [id] caption
  · refine iff_of_false (fun h => htrimmed ?_) fun h => htrimmed h.trimmed
    rw [← h.caption]
    exact learning_onboarding.strip_strip _

/-- LAW: the message for an upload comes back as one reference to its file, with its caption,
exactly if the name of a file is fine and the caption is. The message for an album comes back
as one reference for each of its images, in their order, exactly if the caption is fine. -/
theorem tags_come_back_iff (caption : String) :
    (∀ tag : Tag, ComesBack (upload_message tag caption) [(tag.kind, ⟨0, tag.id⟩)] caption ↔
      FineTag tag ∧ FineCaption caption) ∧
    ∀ ids, ComesBack (album_message ids caption) ((image_places 0 ids).map (TagKind.image, ·))
      caption ↔ FineCaption caption := by
  refine ⟨fun tag => ?_, fun ids => album_comes_back_iff ids caption⟩
  cases tag with
  | image id =>
    rw [FineTag, true_and]
    exact image_comes_back_iff id caption
  | file filename id => exact file_comes_back_iff filename id caption

/-- A name with the end of a tag in it: another id is found, and a part of the tag is left. -/
theorem a_name_with_an_id_is_cut :
    all_matches (upload_message (.file "report (ID=7)].pdf" 12) "") = [(.file, 7)] ∧
      clean_text (upload_message (.file "report (ID=7)].pdf" 12) "") = ".pdf (ID=12)]" ∧
      ¬ComesBack (upload_message (.file "report (ID=7)].pdf" 12) "") [(.file, ⟨0, 12⟩)] "" := by
  refine ⟨by decide +kernel, by decide +kernel, fun h => ?_⟩
  have hclean := h.caption
  revert hclean
  decide +kernel

end dr_boz.file_tags
