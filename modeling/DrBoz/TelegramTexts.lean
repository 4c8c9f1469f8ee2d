-- Law of the texts that go out to Telegram (`_telegram_format` of `bot.py`):
-- whatever the model writes, only the tags that Telegram allows get into the
-- message.
import DrBoz.FileTags
import DrBoz.Lib.TextSplits
import DrBoz.Lib.Words

open text_scan dr_boz.py dr_boz.file_tags

namespace dr_boz.telegram_texts

abbrev Text := List Char

/-! ## Mathematics -/

/-- `(.+?)` and the literal behind it, over the ends of lines: what the group has. -/
def group_some_until (part : Text) : Pattern Text
  | [] => none
  | c :: text => (group_until part text).map fun (group, n) => (c :: group, n + 1)

/-- `" ".join(expr.split())` -/
def one_line (expr : Text) : Text := [' '].intercalate (separated.words isSpace expr)

def MATH_BLOCK_RE : Pattern Text := after_literal "$$".toList (group_some_until "$$".toList)

/-- What stands before the first dollar that has no other beside it. `prev` is
the letter before the text. -/
def until_dollar (prev : Char) : Text → Option Text
  | [] => none
  | c :: text =>
    if c = '$' ∧ prev ≠ '$' ∧ text.head? ≠ some '$' then some []
    else (until_dollar c text).map (c :: ·)

/-- `(?!\$)(.+?)(?<!\$)\$(?!\$)` behind a dollar: what the group has. -/
def inline_group : Text → Option Text
  | [] => none
  | c :: text => if c = '$' then none else (until_dollar c text).map (c :: ·)

/-- `MATH_INLINE_RE.sub(repl_inline, text)`. The first `skip` letters belong to a match. -/
def inline_math (render : Text → Text) : Option Char → Nat → Text → Text
  | _, _, [] => []
  | _, skip + 1, c :: text => inline_math render (some c) skip text
  | prev, 0, c :: text =>
    if c = '$' ∧ prev ≠ some '$' then
      match inline_group text with
      | some group => render group ++ inline_math render (some c) (group.length + 1) text
      | none => c :: inline_math render (some c) 0 text
    else c :: inline_math render (some c) 0 text

def _normalize_math_for_telegram (text : Text) : Text :=
  let text := sub MATH_BLOCK_RE
    (fun expr => "\n<pre>".toList ++ one_line expr ++ "</pre>\n".toList) text
  inline_math (fun expr => "<code>".toList ++ one_line expr ++ "</code>".toList) none 0 text

/-! ## Tags -/

/-- The small letter that a letter is matched as when case is ignored: `İ`, `ı`, `ſ` and the
Kelvin sign stand for letters of ASCII too. -/
def folded (c : Char) : Char :=
  if c = '\u0130' ∨ c = '\u0131' then 'i'
  else if c = '\u017f' then 's'
  else if c = '\u212a' then 'k'
  else c.toLower

def TAG_NAMES : List String :=
  ["b", "strong", "i", "em", "u", "ins", "s", "strike", "del", "code", "pre", "blockquote",
    "tg-spoiler"]

def TAGS : List Text :=
  TAG_NAMES.flatMap fun name => [("<" ++ name ++ ">").toList, ("</" ++ name ++ ">").toList]

/-- `allowed_tags` -/
def allowed_tags : Pattern Unit := fun text =>
  (TAGS.find? fun tag => (text.take tag.length).map folded = tag).map fun tag => ((), tag.length)

/-- `f"__TG_TAG_{n}__"` -/
def key (n : Nat) : Text :=
  ['_', '_', 'T', 'G', '_', 'T', 'A', 'G', '_'] ++ Nat.toDigits 10 n ++ ['_', '_']

/-- The text with keys for its tags, counted from `n` on. -/
def keyed : Nat → List (Piece Unit) → Text
  | _, [] => []
  | n, .between text :: pieces => text ++ keyed n pieces
  | n, .matched _ _ :: pieces => key n ++ keyed (n + 1) pieces

/-- `placeholders` -/
def placeholders : Nat → List (Piece Unit) → List (Text × Text)
  | _, [] => []
  | n, .between _ :: pieces => placeholders n pieces
  | n, .matched tag _ :: pieces => (key n, tag) :: placeholders (n + 1) pieces

def escape (text : Text) : Text :=
  replace ['>'] "&gt;".toList (replace ['<'] "&lt;".toList (replace ['&'] "&amp;".toList text))

def _html_escape_non_tags (text : Text) : Text :=
  let pieces := split allowed_tags text
  (placeholders 0 pieces).foldl (fun text entry => replace entry.1 entry.2 text)
    (escape (keyed 0 pieces))

/-! ## Formatting -/

def line_break (c : Char) : Bool :=
  ['\n', '\r', '\x0b', '\x0c', '\x1c', '\x1d', '\x1e', '\x85', '\u2028', '\u2029'].contains c

/-- `text.splitlines()` -/
def splitlines : Text → List Text
  | [] => []
  | '\r' :: '\n' :: text => [] :: splitlines text
  | c :: text =>
    if line_break c then [] :: splitlines text
    else
      match splitlines text with
      | [] => [[c]]
      | line :: lines => (c :: line) :: lines

def bullet_line (line : Text) : Text :=
  let stripped := line.dropWhile isSpace
  let indent := line.take (line.length - stripped.length)
  if "* ".toList <+: stripped ∨ "- ".toList <+: stripped then
    indent ++ "• ".toList ++ stripped.drop 2
  else line

def _normalize_bullets (text : Text) : Text :=
  ['\n'].intercalate ((splitlines text).map bullet_line)

/-- `re.sub(r"mark(.+?)mark", r"<tag>\1</tag>", text)` -/
def wrap (mark tag : String) (text : Text) : Text :=
  sub (after_literal mark.toList (group_some_until mark.toList))
    (fun group => ("<" ++ tag ++ ">").toList ++ group ++ ("</" ++ tag ++ ">").toList) text

/-- The text before the tags are looked at. -/
def marked_up (text : Text) : Text :=
  let text := replace "<think>".toList "💭 ".toList text
  let text := replace "</think>".toList [] text
  let text := replace "\\#".toList "#".toList text
  let text := replace "\\*".toList "*".toList text
  let text := _normalize_math_for_telegram text
  let text := wrap "**" "b" text
  let text := wrap "__" "u" text
  let text := wrap "~~" "s" text
  let text := sub (after_literal ['`'] (group_run (· != '`') ['`']))
    (fun group => "<code>".toList ++ group ++ "</code>".toList) text
  _normalize_bullets text

/-- `_telegram_format` on Telegram. -/
def _telegram_format (text : Text) : Text :=
  if text.isEmpty then [] else _html_escape_non_tags (marked_up text)

/-! ## What Telegram can read -/

def ENTITIES : List Text := ["&amp;".toList, "&lt;".toList, "&gt;".toList]

/-- Allowed tags, entities, and letters that are neither. -/
inductive Sendable : Text → Prop where
  | nil : Sendable []
  | tag {tag text : Text} (htag : tag.map folded ∈ TAGS) (htext : Sendable text) :
      Sendable (tag ++ text)
  | entity {entity text : Text} (hentity : entity ∈ ENTITIES) (htext : Sendable text) :
      Sendable (entity ++ text)
  | letter {c : Char} {text : Text} (hc : c ≠ '<' ∧ c ≠ '>' ∧ c ≠ '&') (htext : Sendable text) :
      Sendable (c :: text)

theorem Sendable.append {a b : Text} (ha : Sendable a) (hb : Sendable b) : Sendable (a ++ b) := by
  induction ha with
  | nil => exact hb
  | tag htag _ ih =>
    rw [List.append_assoc]
    exact .tag htag ih
  | entity hentity _ ih =>
    rw [List.append_assoc]
    exact .entity hentity ih
  | letter hc _ ih => exact .letter hc ih

/-- Only small letters come of another letter. -/
theorem folded_low {c : Char} (h : (folded c).toNat < 97) : folded c = c := by
  unfold folded at h ⊢
  split_ifs at h ⊢
  · cases Nat.lt_irrefl _ (h.trans (by decide))
  · cases Nat.lt_irrefl _ (h.trans (by decide))
  · cases Nat.lt_irrefl _ (h.trans (by decide))
  · unfold Char.toLower at h ⊢
    split at h
    · rename_i hcapital
      have hlow : (65 : UInt32).toNat ≤ c.val.toNat := UInt32.le_iff_toNat_le.mp hcapital.1
      have hhigh : c.val.toNat ≤ (90 : UInt32).toNat := UInt32.le_iff_toNat_le.mp hcapital.2
      simp only [Char.toNat, UInt32.toNat_add] at h
      simp at hlow hhigh h
      omega
    · rename_i hsmall
      rw [dif_neg hsmall]

theorem head_of_tag {tag : Text} (h : tag.map folded ∈ TAGS) : ∃ more, tag = '<' :: more := by
  have hall : TAGS.all (fun tag => tag.head? == some '<') = true := by decide
  have hhead := beq_iff_eq.mp (List.all_eq_true.mp hall _ h)
  cases tag with
  | nil => cases hhead
  | cons c more =>
    have hc : folded c = '<' := Option.some.inj hhead
    have hsame : folded c = c := folded_low (by rw [hc]; decide)
    exact ⟨more, by rw [← hsame, hc]⟩

theorem underscore_not_in_tag {tag : Text} (h : tag.map folded ∈ TAGS) : '_' ∉ tag := by
  have hall : TAGS.all (fun tag => !tag.contains '_') = true := by decide
  have hno := List.all_eq_true.mp hall _ h
  rw [Bool.not_eq_true', List.contains_eq_mem, decide_eq_false_iff_not] at hno
  exact fun hmem => hno (List.mem_map.mpr ⟨'_', hmem, by decide⟩)

theorem head_of_entity {entity : Text} (h : entity ∈ ENTITIES) : ∃ more, entity = '&' :: more := by
  simp only [ENTITIES, List.mem_cons, List.not_mem_nil, or_false] at h
  rcases h with rfl | rfl | rfl
  all_goals exact ⟨_, rfl⟩

theorem underscore_not_in_entity {entity : Text} (h : entity ∈ ENTITIES) : '_' ∉ entity := by
  simp only [ENTITIES, List.mem_cons, List.not_mem_nil, or_false] at h
  rcases h with rfl | rfl | rfl
  all_goals decide

theorem Sendable.tail {c : Char} {text : Text} (h : Sendable (c :: text)) (htag : c ≠ '<')
    (hentity : c ≠ '&') : Sendable text := by
  generalize hwhole : c :: text = whole at h
  cases h with
  | nil => cases hwhole
  | tag h _ =>
    obtain ⟨more, rfl⟩ := head_of_tag h
    cases hwhole
    exact absurd rfl htag
  | entity h _ =>
    obtain ⟨more, rfl⟩ := head_of_entity h
    cases hwhole
    exact absurd rfl hentity
  | letter _ htext =>
    cases hwhole
    exact htext

theorem Sendable.behind {plain text : Text} (h : Sendable (plain ++ text))
    (hplain : ∀ c ∈ plain, c ≠ '<' ∧ c ≠ '&') : Sendable text := by
  induction plain with
  | nil => exact h
  | cons c plain ih =>
    have hc := hplain c List.mem_cons_self
    exact ih (h.tail hc.1 hc.2) fun d hd => hplain d (List.mem_cons_of_mem _ hd)

/-- No underscore is in a tag or an entity, so that a text can be cut there. -/
theorem cut_unit {unit text before rest : Text} (hunit : '_' ∉ unit)
    (h : unit ++ text = before ++ '_' :: rest) :
    ∃ more, before = unit ++ more ∧ text = more ++ '_' :: rest := by
  rcases List.append_eq_append_iff.mp h with ⟨more, rfl, htext⟩ | ⟨more, rfl, hrest⟩
  · exact ⟨more, rfl, htext⟩
  · cases more with
    | nil => exact ⟨[], by simp, hrest.symm⟩
    | cons c more =>
      cases hrest
      exact absurd (List.mem_append_right _ List.mem_cons_self) hunit

theorem Sendable.cut {before rest : Text} (h : Sendable (before ++ '_' :: rest)) :
    Sendable before ∧ Sendable ('_' :: rest) := by
  generalize hwhole : before ++ '_' :: rest = whole at h
  induction h generalizing before with
  | nil => exact absurd hwhole (by simp)
  | tag htag _ ih =>
    obtain ⟨more, rfl, htext⟩ := cut_unit (underscore_not_in_tag htag) hwhole.symm
    exact ⟨.tag htag (ih htext.symm).1, (ih htext.symm).2⟩
  | entity hentity _ ih =>
    obtain ⟨more, rfl, htext⟩ := cut_unit (underscore_not_in_entity hentity) hwhole.symm
    exact ⟨.entity hentity (ih htext.symm).1, (ih htext.symm).2⟩
  | letter hc htext ih =>
    cases before with
    | nil =>
      cases hwhole
      exact ⟨.nil, .letter hc htext⟩
    | cons d before =>
      cases hwhole
      exact ⟨.letter hc (ih rfl).1, (ih rfl).2⟩

/-! ## Escaping -/

def escape_char (c : Char) : Text :=
  if c = '&' then "&amp;".toList
  else if c = '<' then "&lt;".toList
  else if c = '>' then "&gt;".toList
  else [c]

theorem escape_eq (text : Text) : escape text = text.flatMap escape_char := by
  unfold escape
  rw [replace_char, replace_char, replace_char, List.flatMap_assoc, List.flatMap_assoc]
  refine List.flatMap_congr fun c _ => ?_
  unfold escape_char
  split_ifs with hamp hlt hgt
  · rfl
  · simp [hlt]
  · simp [hgt]
  · simp [hlt, hgt]

theorem escape_char_plain {c : Char} (h : c ≠ '<' ∧ c ≠ '>' ∧ c ≠ '&') : escape_char c = [c] := by
  unfold escape_char
  rw [if_neg h.2.2, if_neg h.1, if_neg h.2.1]

theorem escape_char_cases (c : Char) :
    (c ≠ '<' ∧ c ≠ '>' ∧ c ≠ '&') ∨ escape_char c ∈ ENTITIES := by
  unfold escape_char
  split_ifs with hamp hlt hgt
  · exact .inr (by decide)
  · exact .inr (by decide)
  · exact .inr (by decide)
  · exact .inl ⟨hlt, hgt, hamp⟩

theorem sendable_escape (text : Text) : Sendable (escape text) := by
  rw [escape_eq]
  induction text with
  | nil => exact .nil
  | cons c text ih =>
    rw [List.flatMap_cons]
    rcases escape_char_cases c with hplain | hentity
    · rw [escape_char_plain hplain]
      exact .letter hplain ih
    · exact .entity hentity ih

/-! ## Keys -/

theorem key_cons (n : Nat) : ∃ more, key n = '_' :: more := ⟨_, rfl⟩

theorem key_plain (n : Nat) : ∀ c ∈ key n, c ≠ '<' ∧ c ≠ '>' ∧ c ≠ '&' := by
  have hdigits : ∀ d : Char, texts.decimal d = none → ∀ c ∈ Nat.toDigits 10 n, c ≠ d :=
    fun d hd c hc h => not_mem_digits hd n (h ▸ hc)
  intro c hc
  unfold key at hc
  rcases List.mem_append.mp hc with hc | hc
  · rcases List.mem_append.mp hc with hc | hc
    · simp only [List.mem_cons, List.not_mem_nil, or_false] at hc
      rcases hc with rfl | rfl | rfl | rfl | rfl | rfl | rfl | rfl | rfl
      all_goals decide
    · exact ⟨hdigits _ (by decide) c hc, hdigits _ (by decide) c hc, hdigits _ (by decide) c hc⟩
  · simp only [List.mem_cons, List.not_mem_nil, or_false, or_self] at hc
    rw [hc]
    decide

/-- A tag in the place of a key leaves all as readable as it was. -/
theorem sendable_replace {text tag : Text} (n : Nat) (htag : tag.map folded ∈ TAGS)
    (h : Sendable text) : Sendable (replace (key n) tag text) := by
  have hsplit := split_pieces (fits_ends (key n)) text
  unfold replace sub
  generalize split (ends (key n)) text = pieces at hsplit
  induction hsplit with
  | last => simpa [Piece.rendered] using h
  | @more before taken rest a pieces _ _ hmatch _ ih =>
    obtain ⟨⟨behind, hkey⟩, hlength⟩ := ends_iff.mp hmatch
    obtain ⟨rfl, rfl⟩ := List.append_inj hkey hlength.symm
    obtain ⟨more, hmore⟩ := key_cons n
    rw [hmore, List.cons_append] at h
    have hbehind : Sendable behind := by
      have hkeyed := h.cut.2
      rw [← List.cons_append, ← hmore] at hkeyed
      exact hkeyed.behind fun c hc => ⟨(key_plain n c hc).1, (key_plain n c hc).2.2⟩
    have hrendered := Sendable.tag htag (ih hbehind)
    simpa [Piece.rendered] using h.cut.1.append hrendered

/-! ## The tags of a text -/

theorem allowed_tags_iff {text : Text} {n : Nat} (h : allowed_tags text = some ((), n)) :
    (text.take n).map folded ∈ TAGS := by
  unfold allowed_tags at h
  rw [Option.map_eq_some_iff] at h
  obtain ⟨tag, hfind, hfound⟩ := h
  cases hfound
  have htag := List.find?_some hfind
  rw [decide_eq_true_eq] at htag
  rw [htag]
  exact List.mem_of_find?_eq_some hfind

theorem fits_allowed_tags : Fits allowed_tags := by
  intro text _ n h
  unfold allowed_tags at h
  rw [Option.map_eq_some_iff] at h
  obtain ⟨tag, hfind, hfound⟩ := h
  cases hfound
  have htag := List.find?_some hfind
  rw [decide_eq_true_eq] at htag
  have hlength := congrArg List.length htag
  rw [List.length_map, List.length_take] at hlength
  omega

theorem tag_of_match {taken rest : Text} {a : Unit}
    (h : allowed_tags (taken ++ rest) = some (a, taken.length)) : taken.map folded ∈ TAGS := by
  have htag := allowed_tags_iff h
  rwa [List.take_left] at htag

theorem placeholders_tags {text : Text} {pieces : List (Piece Unit)}
    (h : Split allowed_tags text pieces) (n : Nat) :
    ∀ entry ∈ placeholders n pieces, ∃ k, entry.1 = key k ∧ entry.2.map folded ∈ TAGS := by
  induction h generalizing n with
  | last => exact fun _ hentry => nomatch hentry
  | more _ _ hmatch _ ih =>
    intro entry hentry
    rcases List.mem_cons.mp hentry with rfl | hentry
    · exact ⟨n, rfl, tag_of_match hmatch⟩
    · exact ih (n + 1) entry hentry

theorem sendable_after {entries : List (Text × Text)} {text : Text}
    (hentries : ∀ entry ∈ entries, ∃ k, entry.1 = key k ∧ entry.2.map folded ∈ TAGS)
    (h : Sendable text) :
    Sendable (entries.foldl (fun text entry => replace entry.1 entry.2 text) text) := by
  induction entries generalizing text with
  | nil => exact h
  | cons entry entries ih =>
    obtain ⟨k, hkey, htag⟩ := hentries entry List.mem_cons_self
    refine ih (fun other hother => hentries other (List.mem_cons_of_mem _ hother)) ?_
    dsimp only
    rw [hkey]
    exact sendable_replace k htag h

/-- LAW: Whatever text the bot formats, what goes to Telegram is made of allowed tags, without any
attribute, of `&amp;`, `&lt;` and `&gt;`, and of letters that are none of `<`, `>` and `&`: no text
of a user or a model brings another tag, a link or an open entity into the message. -/
theorem only_allowed_tags_go_out (text : Text) : Sendable (_telegram_format text) := by
  unfold _telegram_format
  split
  · exact .nil
  · exact sendable_after (placeholders_tags (split_pieces fits_allowed_tags _) 0)
      (sendable_escape _)

end dr_boz.telegram_texts
