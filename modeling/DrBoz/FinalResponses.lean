-- Law of the final response of the bot (`_send_final_response`): the answer is
-- cleaned, and cut into messages that are short enough. What the cleaning takes
-- from an answer never reaches the user.
import DrBoz.Lib.Pieces
import DrBoz.Py
import Mathlib.Data.List.DropRight

open pieces dr_boz.py

namespace dr_boz.final_responses

abbrev Text := List Char

/-! ## The cleaning -/

/-- The characters that are taken out everywhere. The last but one joins nothing in a Persian
word. -/
def INVISIBLE : List Char := ['\u200b', '\u200e', '\u200f', '\u200c', '\u200d']

/-- The marks of a running answer. -/
def STATUS_MARKS : List Char :=
  ['⌛', '⏳', '✍', '🔄', '⠋', '⠙', '⠹', '⠸', '⠼', '⠴', '⠦', '⠧', '⠇', '⠏']

/-- What else may stand at the beginning: the pen is written with a variation selector, which
is a member of the class on its own. -/
def OTHER_MARKS : List Char := ['\ufe0f', '✅', '.']

def PROCESSING : Text := "در حال پردازش".toList

/-- The length of what one turn of the pattern takes, or 0. -/
def turn : Text → Nat
  | [] => 0
  | c :: rest =>
    if STATUS_MARKS.contains c || OTHER_MARKS.contains c then 1
    else if PROCESSING.isPrefixOf (c :: rest) then PROCESSING.length
    else 0

/-- What all turns leave, when the first `skip` characters are taken already. No two
alternatives of the pattern begin with one character, so that no turn is tried again. -/
def after_turns : Nat → Text → Text
  | _, [] => []
  | skip + 1, _ :: rest => after_turns skip rest
  | 0, c :: rest =>
    match turn (c :: rest) with
    | 0 => c :: rest
    | taken + 1 => after_turns taken rest

/-- The substitution of the status at the beginning, with the blanks behind it. -/
def without_status (text : Text) : Text :=
  if turn text = 0 then text else (after_turns 0 text).dropWhile isSpace

def strip (text : Text) : Text := (text.dropWhile isSpace).rdropWhile isSpace

def cleaned (text : Text) : Text := strip (without_status (text.filter (!INVISIBLE.contains ·)))

def SUCCESS : Text := "✅ عملیات با موفقیت انجام شد.".toList

/-- The text that is sent for an answer. -/
def final_text (text : Text) : Text :=
  let text := if text.isEmpty then text else cleaned text
  if text.isEmpty || (strip text).isEmpty then SUCCESS else text

/-! ## The messages -/

def CONTINUATION : Text := "\n...".toList

/-- A call of a sending function. -/
inductive Call (Markup File : Type)
  | send_or_edit_formatted (text : Text) (reply_markup : Option Markup)
  | reply_formatted (text : Text) (reply_markup : Option Markup)
  | send_generated_files (generated_files : List File)

variable {Markup File : Type}

def Call.text : Call Markup File → Option Text
  | .send_or_edit_formatted text _ => some text
  | .reply_formatted text _ => some text
  | .send_generated_files _ => none

def Call.markup : Call Markup File → Option Markup
  | .send_or_edit_formatted _ reply_markup => reply_markup
  | .reply_formatted _ reply_markup => reply_markup
  | .send_generated_files _ => none

def Call.files : Call Markup File → Option (List File)
  | .send_generated_files generated_files => some generated_files
  | _ => none

/-- A message instead of the one that is there, or a new one. -/
def first_message (sent_msg : Bool) (text : Text) (reply_markup : Option Markup) :
    Call Markup File :=
  if sent_msg then .send_or_edit_formatted text reply_markup
  else .reply_formatted text reply_markup

/-- The messages with the chunks. The last one has the keyboard. -/
def later_messages (chunks : List Text) (reply_markup : Option Markup) :
    List (Call Markup File) :=
  chunks.zipIdx.map fun chunk => .reply_formatted chunk.1
    (if chunk.2 = chunks.length - 1 then reply_markup else none)

def file_message (generated_files : List File) : List (Call Markup File) :=
  if generated_files.isEmpty then [] else [.send_generated_files generated_files]

/-- The calls of `_send_final_response`. The sending functions raise nothing. -/
def send_final_response (sent_msg : Bool) (text : Text) (reply_markup : Option Markup)
    (generated_files : List File) : List (Call Markup File) :=
  let text := final_text text
  if text.length ≤ 4096 then [first_message sent_msg text reply_markup]
  else
    let chunks := slices 4096 (text.drop 4000)
    first_message sent_msg (text.take 4000 ++ CONTINUATION) none ::
      (later_messages chunks reply_markup ++ file_message generated_files)

/-- The messages show the text: one message has it all, or the first one is marked and the
others go on. -/
inductive Shows : List Text → Text → Prop
  | one (text : Text) : Shows [text] text
  | more (first : Text) (others : List Text) : others ≠ [] →
      Shows ((first ++ CONTINUATION) :: others) (first ++ others.flatten)

/-- The whole answer reaches the user, with its keyboard and its files. -/
structure Delivered (answer : Text) (reply_markup : Option Markup) (generated_files : List File)
    (calls : List (Call Markup File)) : Prop where
  whole : Shows (calls.filterMap Call.text) answer
  short : ∀ text ∈ calls.filterMap Call.text, text.length ≤ 4096
  markup_once : calls.filterMap Call.markup = reply_markup.toList
  files_sent : calls.filterMap Call.files =
    if generated_files.isEmpty then [] else [generated_files]

/-- The answer begins with a status of the bot. -/
def StatusPrefix (text : Text) : Prop :=
  (∃ c ∈ STATUS_MARKS, text.head? = some c) ∨ PROCESSING <+: text

/-- The cleaning has nothing to take. -/
structure Clean (text : Text) : Prop where
  visible : ∀ c ∈ text, c ∉ INVISIBLE
  start : ∀ c, text.head? = some c → c ∉ OTHER_MARKS ∧ isSpace c = false
  last : ∀ c, text.getLast? = some c → isSpace c = false

/-! ## What the cleaning leaves -/

theorem after_turns_length (skip : Nat) (text : Text) :
    (after_turns skip text).length ≤ text.length := by
  induction text generalizing skip with
  | nil => cases skip <;> exact le_refl 0
  | cons c rest ih =>
    cases skip with
    | succ skip => exact (ih skip).trans (Nat.le_succ _)
    | zero =>
      rw [after_turns]
      split
      · exact le_refl _
      · exact (ih _).trans (Nat.le_succ _)

theorem after_turns_shorter {text : Text} (h : turn text ≠ 0) :
    (after_turns 0 text).length < text.length := by
  cases text with
  | nil => exact absurd rfl h
  | cons c rest =>
    rw [after_turns]
    split
    · rename_i hzero
      exact absurd hzero h
    · exact Nat.lt_succ_of_le (after_turns_length _ rest)

theorem without_status_length (text : Text) : (without_status text).length ≤ text.length := by
  unfold without_status
  split
  · exact le_refl _
  · exact (List.dropWhile_suffix _).length_le.trans (after_turns_length 0 text)

theorem without_status_eq_self {text : Text} : without_status text = text ↔ turn text = 0 := by
  unfold without_status
  constructor
  · intro h
    by_contra hturn
    rw [if_neg hturn] at h
    have hshort := (List.dropWhile_suffix (l := after_turns 0 text) isSpace).length_le
    have hless := after_turns_shorter hturn
    rw [h] at hshort
    omega
  · exact fun h => if_pos h

theorem strip_length (text : Text) : (strip text).length ≤ text.length :=
  (List.rdropWhile_prefix _ _).length_le.trans (List.dropWhile_suffix _).length_le

theorem strip_eq_self {text : Text} : strip text = text ↔
    (∀ c, text.head? = some c → isSpace c = false) ∧
      ∀ c, text.getLast? = some c → isSpace c = false := by
  have hfirst : text.dropWhile isSpace = text ↔
      ∀ c, text.head? = some c → isSpace c = false := by
    cases text with
    | nil => simp
    | cons c rest => simp [List.dropWhile_eq_self_iff]
  have hlast : text.rdropWhile isSpace = text ↔
      ∀ c, text.getLast? = some c → isSpace c = false := by
    rw [List.rdropWhile_eq_self_iff]
    cases text using List.reverseRecOn with
    | nil => simp
    | append_singleton rest c => simp
  rw [← hfirst, ← hlast]
  unfold strip
  constructor
  · intro h
    have hlength := congrArg List.length h
    have hcut := (List.rdropWhile_prefix isSpace (text.dropWhile isSpace)).length_le
    have hall : text.dropWhile isSpace = text :=
      (List.dropWhile_suffix _).eq_of_length_le (by omega)
    rw [hall] at h
    exact ⟨hall, h⟩
  · rintro ⟨hall, hcut⟩
    rw [hall, hcut]

theorem cleaned_eq_self {text : Text} : cleaned text = text ↔
    text.filter (!INVISIBLE.contains ·) = text ∧ turn text = 0 ∧ strip text = text := by
  unfold cleaned
  constructor
  · intro h
    have hlength := congrArg List.length h
    have hstrip := strip_length (without_status (text.filter (!INVISIBLE.contains ·)))
    have hstatus := without_status_length (text.filter (!INVISIBLE.contains ·))
    have hvisible : text.filter (!INVISIBLE.contains ·) = text :=
      List.filter_sublist.eq_of_length_le (by omega)
    rw [hvisible] at h hlength hstrip
    have hturn : turn text = 0 := by
      by_contra hturn
      have hless := after_turns_shorter hturn
      have hdrop := (List.dropWhile_suffix (l := after_turns 0 text) isSpace).length_le
      have hsub : without_status text = (after_turns 0 text).dropWhile isSpace := if_neg hturn
      rw [hsub] at hlength hstrip
      omega
    rw [without_status_eq_self.mpr hturn] at h
    exact ⟨hvisible, hturn, h⟩
  · rintro ⟨hvisible, hturn, hstrip⟩
    rw [hvisible, without_status_eq_self.mpr hturn, hstrip]

theorem turn_eq_zero {text : Text} (hstatus : ¬StatusPrefix text) :
    turn text = 0 ↔ ∀ c, text.head? = some c → c ∉ OTHER_MARKS := by
  cases text with
  | nil => simp [turn]
  | cons c rest =>
    have hmark : c ∉ STATUS_MARKS := fun h => hstatus (.inl ⟨c, h, rfl⟩)
    have hword : PROCESSING.isPrefixOf (c :: rest) = false :=
      eq_false_of_ne_true fun h => hstatus (.inr (List.isPrefixOf_iff_prefix.mp h))
    simp [turn, hmark, hword]

/-- The cleaning leaves an answer as it is exactly if it has nothing to take. -/
theorem cleaned_iff {text : Text} (hstatus : ¬StatusPrefix text) :
    cleaned text = text ↔ Clean text := by
  rw [cleaned_eq_self, turn_eq_zero hstatus, strip_eq_self, List.filter_eq_self]
  constructor
  · rintro ⟨hvisible, hmarks, hstart, hlast⟩
    exact ⟨fun c hc => by simpa using hvisible c hc,
      fun c hc => ⟨hmarks c hc, hstart c hc⟩, hlast⟩
  · intro h
    exact ⟨fun c hc => by simpa using h.visible c hc, fun c hc => (h.start c hc).1,
      fun c hc => (h.start c hc).2, h.last⟩

theorem success_is_cleaned : (strip (cleaned SUCCESS)).isEmpty = false := by decide +kernel

theorem final_text_eq_self {text : Text} (hsome : text ≠ []) :
    final_text text = text ↔ cleaned text = text := by
  have hempty : text.isEmpty = false := by simpa using hsome
  unfold final_text
  simp only [hempty, Bool.false_eq_true, if_false]
  constructor
  · intro h
    split at h
    · rename_i hblank
      subst h
      have hcleaned := success_is_cleaned
      rw [Bool.or_eq_true] at hblank
      rcases hblank with hnone | hblank
      · rw [List.isEmpty_iff.mp hnone] at hcleaned
        cases hcleaned
      · rw [hblank] at hcleaned
        cases hcleaned
    · exact h
  · intro h
    have hstrip := (cleaned_eq_self.mp h).2.2
    rw [h, hstrip, hempty]
    rfl

/-! ## The messages show the text -/

theorem Shows.unique {texts : List Text} {text other : Text} (h : Shows texts text)
    (hother : Shows texts other) : text = other := by
  generalize hsame : texts = texts' at hother
  cases h with
  | one =>
    cases hother with
    | one => exact List.singleton_inj.mp hsame
    | more first others hothers =>
      exact absurd (List.cons.inj hsame).2.symm hothers
  | more first others hothers =>
    cases hother with
    | one => exact absurd (List.cons.inj hsame).2 hothers
    | more first' others' hothers' =>
      obtain ⟨hfirst, hrest⟩ := List.cons.inj hsame
      rw [List.append_cancel_right hfirst, hrest]

theorem slices_length {n : Nat} (l : List Char) : ∀ piece ∈ slices n l, piece.length ≤ n := by
  intro piece hpiece
  obtain ⟨start, -, rfl⟩ := List.mem_map.mp hpiece
  exact List.length_take_le n _

theorem later_texts (chunks : List Text) (reply_markup : Option Markup) :
    (later_messages chunks reply_markup : List (Call Markup File)).filterMap Call.text =
      chunks := by
  unfold later_messages
  rw [List.filterMap_map]
  refine Eq.trans (congrFun (congrArg List.filterMap (funext fun chunk => ?_)) _)
    (Eq.trans (congrFun (List.filterMap_eq_map (f := Prod.fst)) _) (List.zipIdx_map_fst 0 chunks))
  rfl

theorem later_files (chunks : List Text) (reply_markup : Option Markup) :
    (later_messages chunks reply_markup : List (Call Markup File)).filterMap Call.files = [] := by
  rw [List.filterMap_eq_nil_iff]
  intro call hcall
  obtain ⟨chunk, -, rfl⟩ := List.mem_map.mp hcall
  rfl

theorem later_markups {chunks : List Text} (hsome : chunks ≠ []) (reply_markup : Option Markup) :
    (later_messages chunks reply_markup : List (Call Markup File)).filterMap Call.markup =
      reply_markup.toList := by
  obtain ⟨front, last, rfl⟩ := (List.eq_nil_or_concat' chunks).resolve_left hsome
  unfold later_messages
  rw [List.zipIdx_append, List.map_append, List.filterMap_append]
  have hfront : (front.zipIdx.map fun chunk => (Call.reply_formatted chunk.1
      (if chunk.2 = (front ++ [last]).length - 1 then reply_markup else none) :
        Call Markup File)).filterMap Call.markup = [] := by
    rw [List.filterMap_eq_nil_iff]
    intro call hcall
    obtain ⟨chunk, hchunk, rfl⟩ := List.mem_map.mp hcall
    have hindex := (List.mem_zipIdx hchunk).2.1
    rw [List.length_append]
    exact if_neg (by simp; omega)
  rw [hfront]
  cases reply_markup <;> simp [Call.markup]

@[simp] theorem first_text (sent_msg : Bool) (text : Text) (reply_markup : Option Markup) :
    (first_message sent_msg text reply_markup : Call Markup File).text = some text := by
  cases sent_msg <;> rfl

@[simp] theorem first_markup (sent_msg : Bool) (text : Text) (reply_markup : Option Markup) :
    (first_message sent_msg text reply_markup : Call Markup File).markup = reply_markup := by
  cases sent_msg <;> rfl

@[simp] theorem first_files (sent_msg : Bool) (text : Text) (reply_markup : Option Markup) :
    (first_message sent_msg text reply_markup : Call Markup File).files = none := by
  cases sent_msg <;> rfl

section
variable (generated_files : List File)

@[simp] theorem file_texts :
    (file_message generated_files : List (Call Markup File)).filterMap Call.text = [] := by
  cases generated_files <;> rfl

@[simp] theorem file_markups :
    (file_message generated_files : List (Call Markup File)).filterMap Call.markup = [] := by
  cases generated_files <;> rfl

@[simp] theorem file_files :
    (file_message generated_files : List (Call Markup File)).filterMap Call.files =
      if generated_files.isEmpty then [] else [generated_files] := by
  cases generated_files <;> rfl

end

/-! ## The law -/

section
variable (sent_msg : Bool) (text : Text) (reply_markup : Option Markup)
  (generated_files : List File)

/-- Whatever is sent, it is the text that was made of the answer, in short messages and with
the keyboard once. -/
theorem sends_final_text :
    Shows ((send_final_response sent_msg text reply_markup generated_files).filterMap Call.text)
      (final_text text) ∧
    (∀ message ∈ (send_final_response sent_msg text reply_markup generated_files).filterMap
      Call.text, message.length ≤ 4096) ∧
    (send_final_response sent_msg text reply_markup generated_files).filterMap Call.markup =
      reply_markup.toList ∧
    (send_final_response sent_msg text reply_markup generated_files).filterMap Call.files =
      if (final_text text).length ≤ 4096 ∨ generated_files.isEmpty then []
      else [generated_files] := by
  unfold send_final_response
  generalize final_text text = shown
  by_cases hshort : shown.length ≤ 4096
  · rw [if_pos hshort, if_pos (.inl hshort)]
    cases sent_msg <;> cases reply_markup <;>
      exact ⟨.one shown, fun message hmessage => List.mem_singleton.mp hmessage ▸ hshort, rfl, rfl⟩
  · rw [if_neg hshort]
    have hpieces : (slices 4096 (shown.drop 4000)).flatten = shown.drop 4000 :=
      slices_flatten (by decide) _
    have hsome : slices 4096 (shown.drop 4000) ≠ [] := by
      intro hnone
      have hlength := congrArg List.length hpieces
      rw [hnone, List.length_drop] at hlength
      simp only [List.flatten_nil, List.length_nil] at hlength
      omega
    have hwhole := Shows.more (shown.take 4000) _ hsome
    rw [hpieces, List.take_append_drop] at hwhole
    simp only [List.filterMap_cons, List.filterMap_append, first_text, first_markup, first_files,
      later_texts, later_files, later_markups hsome, file_texts, file_markups, file_files,
      List.append_nil, List.nil_append]
    refine ⟨hwhole, fun message hmessage => ?_, trivial, ?_⟩
    · rcases List.mem_cons.mp hmessage with rfl | hlater
      · have htake := List.length_take_le 4000 shown
        have hmarker : CONTINUATION.length = 4 := rfl
        rw [List.length_append]
        omega
      · exact slices_length _ message hlater
    · simp only [hshort, false_or]

/-- LAW: A text without a status prefix is delivered exactly if the cleaning has nothing to take
from it, and it is too long for one message where there are files. -/
theorem answer_is_delivered_iff {text : Text} (hsome : text ≠ []) (hstatus : ¬StatusPrefix text) :
    Delivered text reply_markup generated_files
      (send_final_response sent_msg text reply_markup generated_files) ↔
    Clean text ∧ (generated_files = [] ∨ 4096 < text.length) := by
  obtain ⟨hshows, hlengths, hmarkup, hfiles⟩ :=
    sends_final_text sent_msg text reply_markup generated_files
  have hclean : final_text text = text ↔ Clean text :=
    (final_text_eq_self hsome).trans (cleaned_iff hstatus)
  constructor
  · intro h
    have hsame := hshows.unique h.whole
    refine ⟨hclean.mp hsame, ?_⟩
    have hsent := h.files_sent
    rw [hfiles, hsame] at hsent
    by_cases hnone : generated_files = []
    · exact .inl hnone
    · refine .inr (not_le.mp fun hshort => ?_)
      have hempty : generated_files.isEmpty = false := by simpa using hnone
      rw [if_pos (.inl hshort), hempty] at hsent
      cases hsent
  · rintro ⟨htext, hlong⟩
    have hsame := hclean.mpr htext
    rw [hsame] at hshows hfiles
    refine ⟨hshows, hlengths, hmarkup, hfiles.trans ?_⟩
    rcases hlong with rfl | hlong
    · exact if_pos (.inr rfl)
    · rw [if_congr (or_iff_right (not_le.mpr hlong)) rfl rfl]

end

/-- A leading dot and the joiner inside a word are taken away, and the file of a short answer
is not sent. -/
theorem short_answers_are_not_delivered :
    ¬Delivered ['.', 'a'] (none : Option Unit) ([] : List Unit)
        (send_final_response true ['.', 'a'] none []) ∧
      ¬Delivered ['م', 'ی', '\u200c', 'ر'] (none : Option Unit) ([] : List Unit)
        (send_final_response true ['م', 'ی', '\u200c', 'ر'] none []) ∧
      ¬Delivered ['a'] (none : Option Unit) [()]
        (send_final_response true ['a'] none [()]) := by
  refine ⟨fun h => ?_, fun h => ?_, fun h => ?_⟩
  · have hshows := (sends_final_text true ['.', 'a'] (none : Option Unit) ([] : List Unit)).1
    exact absurd (hshows.unique h.whole) (by decide)
  · have hshows := (sends_final_text true ['م', 'ی', '\u200c', 'ر'] (none : Option Unit)
      ([] : List Unit)).1
    exact absurd (hshows.unique h.whole) (by decide)
  · cases h.files_sent

/-- A sentence reaches the user as it is. -/
theorem a_sentence_is_delivered :
    Delivered ['s', 'o', ' ', 'a', '.'] (some ()) ([] : List Unit)
      (send_final_response true ['s', 'o', ' ', 'a', '.'] (some ()) []) :=
  (answer_is_delivered_iff true (some ()) [] (List.cons_ne_nil _ _)
    (not_or.mpr ⟨by simp [STATUS_MARKS], by decide⟩)).mpr
    ⟨⟨by simp [INVISIBLE], by simp [OTHER_MARKS, isSpace], by simp [isSpace]⟩, .inl rfl⟩

end dr_boz.final_responses
