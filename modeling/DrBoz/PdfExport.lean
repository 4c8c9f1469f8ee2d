-- The PDF export of an answer (services/pdf_export.py): which of its lines are in
-- the HTML, and when its own characters and the tags around them are in order.
import DrBoz.SanitizedReplies
import DrBoz.Texts
import DrBoz.Lib.Markup
import Mathlib.Data.List.DropRight

open regexes Regex markup
open dr_boz.py (isSpace)
open dr_boz.sanitized_replies hiding Text any

namespace dr_boz.pdf_export

/-! ## Texts that know their author -/

/-- A character, and whether it is one of the answer. All tests look at the character alone. -/
abbrev Mark := Char × Bool

def own (text : String) : List Mark := text.toList.map fun c => (c, true)

/-- A text that the exporter puts in. -/
def put (text : String) : List Mark := text.toList.map fun c => (c, false)

def letters (text : List Mark) : List Char := text.map Prod.fst

def is_blank (m : Mark) : Bool := isSpace m.1

/-- `text.strip()` -/
def strip_marks (text : List Mark) : List Mark := (text.dropWhile is_blank).rdropWhile is_blank

/-- `text.split("\n")` -/
def lines_of (text : List Mark) : List (List Mark) := text.splitOnP fun m => m.1 == '\n'

/-- `"\n".join(lines)` -/
def join_lines (lines : List (List Mark)) : List Mark := (put "\n").intercalate lines

/-- `part in text` -/
def has (part text : List Char) : Bool := text.tails.any fun tail => part.isPrefixOf tail

/-! ## Replacing a match in three parts -/

/-- How much the three parts of a match take at a place. -/
def three (a b c : Regex) (prev : Option Char) (text : List Char) : Option (Nat × Nat × Nat) :=
  ((a.rests prev text).flatMap fun p =>
    (b.rests p.1 p.2).flatMap fun q =>
      (c.rests q.1 q.2).map fun r =>
        (text.length - p.2.length, p.2.length - q.2.length, q.2.length - r.2.length)).head?

section
variable (a b c : Regex) (render : List Mark → List Mark → List Mark → List Mark)

def sub_from : Nat → Option Char → List Mark → List Mark
  | _, _, [] => []
  | skip + 1, _, m :: text => sub_from skip (some m.1) text
  | 0, prev, m :: text =>
    match three a b c prev (m.1 :: letters text) with
    | none => m :: sub_from 0 (some m.1) text
    | some (i, j, k) =>
      if i + j + k = 0 then m :: sub_from 0 (some m.1) text
      else
        let found := m :: text
        render (found.take i) ((found.drop i).take j) ((found.drop (i + j)).take k) ++
          sub_from (i + j + k - 1) (some m.1) text

/-- `re.sub(..)` of a pattern of three parts -/
def sub (text : List Mark) : List Mark := sub_from a b c render 0 none text

end

/-- `re.sub(pattern, repl, text)` with a text for `repl` -/
def sub_text (pattern : Regex) (repl : String) (text : List Mark) : List Mark :=
  sub pattern empty empty (fun _ _ _ => put repl) text

/-- The middle of a match is the group that is kept. -/
def sub_group (a b c : Regex) (before after : String) (text : List Mark) : List Mark :=
  sub a b c (fun _ group _ => put before ++ group ++ put after) text

/-! ## The steps before the sections -/

def TIPS_PATTERNS : List String :=
  ["اگر خواستی", "برای تمرین بیشتر", "نمونه سخت‌تر", "نمونه سختتر", "سوال دیگه", "پرسش دیگری",
    "علی جان", "🐐", "سیک حل کنم"]

/-- `.+?` -/
def shortest : Regex := seq (one not_in_line) (fewest not_in_line)

/-- `.+?`, where the dot takes the ends of lines too -/
def shortest_over_lines : Regex :=
  seq (one sanitized_replies.any) (fewest sanitized_replies.any)

/-- The letters of the patterns have no other case. -/
def remove_tips (text : List Mark) : List Mark :=
  strip_marks (TIPS_PATTERNS.foldl (fun text tip =>
    sub_text (seq (exactly tip) (most not_in_line)) "" text) text)

/-- `(?<!\*)\*(?!\*)` -/
def lone_star : Regex :=
  in_order [edge fun prev _ => prev != some '*', lit '*', edge fun _ next => next != some '*']

/-- `[a-zA-Z\[\]{}\(\)_%&$#^~]` -/
def after_backslash (c : Char) : Bool :=
  c.isAlpha || ['[', ']', '{', '}', '(', ')', '_', '%', '&', '$', '#', '^', '~'].contains c

def clean_markdown (text : List Mark) : List Mark :=
  let text := sub_group (exactly "**") shortest (exactly "**") "<strong>" "</strong>" text
  let text := sub_group lone_star shortest lone_star "<em>" "</em>" text
  let text := sub_group (lit '\x60') shortest (lit '\x60') "<code>" "</code>" text
  let text := sub_text (seq (lit '\\') (edge fun _ next => !next.any after_backslash)) "" text
  let text := sub_text (in_order [line_start, some_of (· == '#'), spaces]) "" text
  let text :=
    sub_text (in_order [line_start, one fun c => c == '-' || c == '*', space_between]) "• " text
  sub_text (at_least '\n' 3) "\n\n" text

def LATEX_COMMANDS : List String :=
  ["\\frac", "\\dfrac", "\\tfrac", "\\int", "\\iint", "\\iiint", "\\oint", "\\sum", "\\prod",
    "\\bigcup", "\\bigcap", "\\lim", "\\limsup", "\\liminf", "\\sqrt", "\\nthroot", "\\cdot",
    "\\times", "\\div", "\\pm", "\\mp", "\\ast", "\\circ", "\\quad", "\\qquad", "\\,", "\\;",
    "\\!", "\\boxed", "\\text", "\\mathrm", "\\mathbf", "\\mathit", "\\alpha", "\\beta",
    "\\gamma", "\\delta", "\\epsilon", "\\theta", "\\lambda", "\\mu", "\\pi", "\\sigma", "\\phi",
    "\\omega", "\\Delta", "\\Omega", "\\Sigma", "\\infty", "\\partial", "\\nabla", "\\neq",
    "\\approx", "\\equiv", "\\sim", "\\propto", "\\leq", "\\geq", "\\ll", "\\gg", "\\left",
    "\\right", "\\bigl", "\\bigr", "\\begin\x7b", "\\end\x7b", "\\displaystyle", "\\limits",
    "\\textbf", "\\textit", "\\underline", "\\rightarrow", "\\leftarrow", "\\Rightarrow",
    "\\Leftarrow", "\\in", "\\notin", "\\subset", "\\supset", "\\cup", "\\cap", "\\setminus",
    "\\forall", "\\exists", "\\neg", "\\land", "\\lor", "\\angle", "\\triangle", "\\square",
    "\\dots", "\\cdots", "\\vdots", "\\ddots", "\\hat", "\\bar", "\\tilde", "\\vec", "\\dot",
    "\\ddot", "\\degree"]

/-- `LATEX_COMMAND_PATTERN` at a place, which is not inside of dollars. -/
def command_at (prev : Option Char) (text : List Char) : Bool :=
  prev != some '$' && LATEX_COMMANDS.any fun command =>
    ((ignoring_case command).rests prev text).any fun place =>
      !(['$'].isPrefixOf place.2) && !(['\\', '$'].isPrefixOf place.2)

/-- `LATEX_COMMAND_PATTERN.search(line)` -/
def has_latex : Option Char → List Char → Bool
  | prev, [] => command_at prev []
  | prev, c :: text => command_at prev (c :: text) || has_latex (some c) text

section
variable (is_word : Char → Bool)

/-- `(?<!\\)\bint\b` -/
def bare_int : Regex :=
  in_order [edge fun prev _ => prev != some '\\', word_edge is_word, exactly "int",
    word_edge is_word]

/-- One turn of the loop over the lines. -/
def wrap_line (line : List Mark) : List Mark :=
  let stripped := strip_marks line
  let text := letters stripped
  if text.isEmpty then line
  else if [['$', '$'], ['\\', '['], ['$']].any fun start => start.isPrefixOf text then line
  else if ["• ", "- "].any fun start => start.toList.isPrefixOf text then line
  else if has_latex none (letters line) &&
      !([['$', '$'], ['\\', '['], ['$'], ['<']].any fun part => has part text) then
    put "$$ " ++ stripped ++ put " $$"
  else line

def wrap_latex_in_delimiters (text : List Mark) : List Mark :=
  let text := sub_text (bare_int is_word) "\\int" text
  -- `LATEX_BLOCK_PATTERN`: `\[\s*(.+?)\s*\\\s*\]`
  let result := sub_group (seq (lit '[') spaces) shortest_over_lines
    (in_order [spaces, lit '\\', spaces, lit ']']) "$$ " " $$" text
  join_lines ((lines_of result).map wrap_line)

end

/-- `\$\$\s*(.+?)\s*\$\$` -/
def process_math_blocks (text : List Mark) : List Mark :=
  sub (seq (exactly "$$") spaces) shortest_over_lines (seq spaces (exactly "$$"))
    (fun _ group _ =>
      put "<div class=\"math-container\">$$ " ++ strip_marks group ++ put " $$</div>") text

/-- `\d` -/
def is_digit (c : Char) : Bool := (dr_boz.texts.decimal c).isSome

/-- `[a-zA-Z/³²°]` -/
def is_unit (c : Char) : Bool := c.isAlpha || ['/', '³', '²', '°'].contains c

def fix_rtl_ltr_mixing (text : List Mark) : List Mark :=
  sub (in_order [some_of is_digit, optional (lit '.'), most is_digit]) spaces (some_of is_unit)
    (fun number _ unit =>
      put "<span class=\"ltr\">" ++ number ++ put " " ++ unit ++ put "</span>") text

/-! ## The sections -/

def SECTION_TITLES : List String :=
  ["مثال", "صورت مسئله", "صورت سوال", "حل", "نتیجه", "نتیجه نهایی", "پاسخ", "پاسخ نهایی",
    "توضیح", "نکته", "مرحله", "گام", "بخش", "پس", "داده‌ها", "مراحل حل"]

/-- `word\s*[:\n]` at the start of a line without an end of line: the match and what is behind. -/
def title_match (stripped : List Mark) (word : String) : Option (List Mark × List Mark) :=
  if word.toList.isPrefixOf (letters stripped) then
    match (stripped.drop word.length).dropWhile is_blank with
    | m :: rest =>
      if m.1 = ':' then some (stripped.take (stripped.length - rest.length), rest) else none
    | [] => none
  else none

/-- `SECTION_TITLE_PATTERN.match(stripped)` -/
def section_title (stripped : List Mark) : Option (List Mark × List Mark) :=
  SECTION_TITLES.findSome? (title_match stripped)

/-- `text.rstrip(":").strip()` -/
def without_colon (text : List Mark) : List Mark :=
  strip_marks (text.rdropWhile fun m => m.1 == ':')

/-- The title of the section that a title line opens. -/
def title_of (groups : List Mark × List Mark) : List Mark :=
  let title_rest := strip_marks groups.2
  if title_rest.isEmpty then without_colon groups.1
  else without_colon groups.1 ++ put ": " ++ title_rest

/-- A line of the text: blank, one that opens a section with its title, or any other. -/
inductive Entry where
  | blank
  | title (text : List Mark)
  | line (text : List Mark)
deriving DecidableEq

def read_line (line : List Mark) : Entry :=
  let stripped := strip_marks line
  if stripped.isEmpty then .blank
  else
    match section_title stripped with
    | some groups => .title (title_of groups)
    | none => .line line

/-- A section: its title, if a line gave one, and its lines, where `none` is a `<br/>`. -/
structure Section where
  title : Option (List Mark)
  content : List (Option (List Mark))

/-- What the loop has: the sections that were flushed, and the current one. -/
structure Sections where
  flushed : List Section
  current : Option Section

def BR : List Mark := put "<br/>"

def content_html (content : List (Option (List Mark))) : List Mark :=
  strip_marks (join_lines (content.map fun line => line.getD BR))

/-- `flush_section` -/
def flush_section (s : Sections) : Sections :=
  match s.current with
  | none => ⟨s.flushed, none⟩
  | some current =>
    if (content_html current.content).isEmpty then ⟨s.flushed, none⟩
    else ⟨s.flushed ++ [current], none⟩

/-- One turn of the loop over the lines. -/
def section_step (s : Sections) (entry : Entry) : Sections :=
  match entry with
  | .blank =>
    ⟨s.flushed, s.current.map fun current => ⟨current.title, current.content ++ [none]⟩⟩
  | .title text => ⟨(flush_section s).flushed, some ⟨some text, []⟩⟩
  | .line text =>
    let current := s.current.getD ⟨none, []⟩
    ⟨s.flushed, some ⟨current.title, current.content ++ [some text]⟩⟩

def sections (entries : List Entry) : List Section :=
  (flush_section (entries.foldl section_step ⟨[], none⟩)).flushed

/-- One character in `html.escape`. -/
def escape_mark (m : Mark) : List Mark :=
  match m.1 with
  | '&' => put "&amp;"
  | '<' => put "&lt;"
  | '>' => put "&gt;"
  | '"' => put "&quot;"
  | '\'' => put "&#x27;"
  | _ => [m]

def escape_html (text : List Mark) : List Mark := text.flatMap escape_mark

/-- What `flush_section` appends to the result for a section. -/
def Section.html (s : Section) : List (List Mark) :=
  [put "<div class=\"section\">",
    put "<div class=\"section-title\">" ++ escape_html (s.title.getD (put "پاسخ")) ++
      put "</div>",
    put "<div class=\"section-content\">", content_html s.content, put "</div>", put "</div>"]

def structure_sections (text : List Mark) : List Mark :=
  join_lines ((sections ((lines_of text).map read_line)).flatMap Section.html)

/-- The text that `generate_pdf_from_markdown` gives to `_structure_sections`. -/
def processed_text (is_word : Char → Bool) (markdown_text : String) : List Mark :=
  fix_rtl_ltr_mixing (process_math_blocks (wrap_latex_in_delimiters is_word
    (clean_markdown (remove_tips (own markdown_text)))))

/-- The HTML that `generate_pdf_from_markdown` writes. -/
def html_of (is_word : Char → Bool) (markdown_text : String) : List Mark :=
  structure_sections (processed_text is_word markdown_text)

/-! ## Stripping -/

theorem mem_dropWhile {p : Mark → Bool} {m : Mark} {text : List Mark} (hm : m ∈ text)
    (hp : p m = false) : m ∈ text.dropWhile p := by
  rw [← List.takeWhile_append_dropWhile (p := p) (l := text)] at hm
  rcases List.mem_append.mp hm with hm | hm
  · rw [List.mem_takeWhile_imp hm] at hp
    cases hp
  · exact hm

theorem mem_rdropWhile {p : Mark → Bool} {m : Mark} {text : List Mark} (hm : m ∈ text)
    (hp : p m = false) : m ∈ text.rdropWhile p :=
  List.mem_reverse.mpr (mem_dropWhile (List.mem_reverse.mpr hm) hp)

theorem strip_parts (text : List Mark) :
    ∃ before after, text = before ++ strip_marks text ++ after ∧
      (∀ m ∈ before, is_blank m = true) ∧ ∀ m ∈ after, is_blank m = true := by
  refine ⟨text.takeWhile is_blank, (text.dropWhile is_blank).rtakeWhile is_blank, ?_,
    fun m hm => List.mem_takeWhile_imp hm, fun m hm => List.mem_rtakeWhile_imp hm⟩
  rw [strip_marks, List.append_assoc, List.rdropWhile_append_rtakeWhile,
    List.takeWhile_append_dropWhile]

theorem mem_of_mem_strip {m : Mark} {text : List Mark} (hm : m ∈ strip_marks text) : m ∈ text := by
  obtain ⟨before, after, htext, -, -⟩ := strip_parts text
  rw [htext]
  simp [hm]

theorem mem_strip {m : Mark} {text : List Mark} (hm : m ∈ text) (hblank : is_blank m = false) :
    m ∈ strip_marks text :=
  mem_rdropWhile (mem_dropWhile hm hblank) hblank

/-- A text with something in it is stripped to one that begins and ends so. -/
theorem strip_ends {text : List Mark} (h : strip_marks text ≠ []) :
    (∃ m rest, strip_marks text = m :: rest ∧ is_blank m = false) ∧
      ∃ init m, strip_marks text = init ++ [m] ∧ is_blank m = false := by
  constructor
  · cases hstrip : strip_marks text with
    | nil => exact absurd hstrip h
    | cons m rest =>
      obtain ⟨after, hafter⟩ : strip_marks text <+: text.dropWhile is_blank :=
        List.rdropWhile_prefix is_blank _
      have hhead := List.head?_dropWhile_not is_blank text
      rw [← hafter, hstrip] at hhead
      exact ⟨m, rest, rfl, by simpa using hhead⟩
  · refine ⟨(strip_marks text).dropLast, (strip_marks text).getLast h,
      (List.dropLast_append_getLast h).symm, ?_⟩
    have hlast := List.rdropWhile_last_not is_blank (text.dropWhile is_blank) h
    exact Bool.eq_false_iff.mpr hlast

/-! ## Joining -/

theorem join_cons {line : List Mark} {lines : List (List Mark)} (h : lines ≠ []) :
    join_lines (line :: lines) = line ++ put "\n" ++ join_lines lines :=
  List.intercalate_cons_of_ne_nil h

theorem join_single (line : List Mark) : join_lines [line] = line := List.intercalate_singleton

theorem join_append {lines more : List (List Mark)} (h : lines ≠ []) (h' : more ≠ []) :
    join_lines (lines ++ more) = join_lines lines ++ put "\n" ++ join_lines more := by
  induction lines with
  | nil => exact absurd rfl h
  | cons line lines ih =>
    by_cases hlines : lines = []
    · subst hlines
      rw [List.singleton_append, join_cons h', join_single]
    · rw [List.cons_append, join_cons (by simp [hlines]), ih hlines, join_cons hlines]
      simp

theorem mem_join {m : Mark} {lines : List (List Mark)} (hm : m ∈ join_lines lines) :
    m.2 = false ∨ ∃ line ∈ lines, m ∈ line := by
  induction lines with
  | nil => cases hm
  | cons line lines ih =>
    by_cases hlines : lines = []
    · subst hlines
      rw [join_single] at hm
      exact .inr ⟨line, List.mem_cons_self, hm⟩
    · rw [join_cons hlines, List.mem_append, List.mem_append] at hm
      rcases hm with (hm | hm) | hm
      · exact .inr ⟨line, List.mem_cons_self, hm⟩
      · obtain ⟨c, -, rfl⟩ := List.mem_map.mp hm
        exact .inl rfl
      · rcases ih hm with hput | ⟨line', hmem, hm⟩
        · exact .inl hput
        · exact .inr ⟨line', List.mem_cons_of_mem _ hmem, hm⟩

theorem mem_join_of {m : Mark} {line : List Mark} {lines : List (List Mark)}
    (hline : line ∈ lines) (hm : m ∈ line) : m ∈ join_lines lines := by
  induction lines with
  | nil => cases hline
  | cons first lines ih =>
    by_cases hlines : lines = []
    · subst hlines
      rw [join_single, ← List.mem_singleton.mp hline]
      exact hm
    · rw [join_cons hlines, List.mem_append, List.mem_append]
      rcases List.mem_cons.mp hline with rfl | hline
      · exact .inl (.inl hm)
      · exact .inr (ih hline)

/-- Parts that stand in the lines one by one stand in the lines together. -/
theorem appear_join (pieces : List (List (List Mark) × List Mark))
    (h : ∀ piece ∈ pieces, Appear piece.1 piece.2) :
    Appear (pieces.flatMap Prod.fst) (join_lines (pieces.map Prod.snd)) := by
  induction pieces with
  | nil => trivial
  | cons piece pieces ih =>
    have hpiece := h piece List.mem_cons_self
    have hrest := ih fun piece hmem => h piece (List.mem_cons_of_mem _ hmem)
    by_cases hpieces : pieces = []
    · subst hpieces
      rw [List.map_cons, List.map_nil, join_single]
      simpa using hpiece
    · rw [List.flatMap_cons, List.map_cons, join_cons (by simp [hpieces]), List.append_assoc]
      exact hpiece.append (appear_of_suffix hrest _)

/-! ## The own characters of a text -/

/-- The characters that `html.escape` replaces. -/
def ESCAPED : List Char := ['&', '<', '>', '"', '\'']

/-- A character of the answer that every step of the sections keeps. -/
def is_kept (m : Mark) : Bool := m.2 && !is_blank m && !ESCAPED.contains m.1

def weight (text : List Mark) : Nat := text.countP is_kept

theorem weight_append (before after : List Mark) :
    weight (before ++ after) = weight before + weight after := List.countP_append

theorem weight_put (text : String) : weight (put text) = 0 := by
  refine List.countP_eq_zero.mpr fun m hm => ?_
  obtain ⟨c, -, rfl⟩ := List.mem_map.mp hm
  simp [is_kept]

theorem weight_blank {text : List Mark} (h : ∀ m ∈ text, is_blank m = true) : weight text = 0 := by
  refine List.countP_eq_zero.mpr fun m hm => ?_
  simp [is_kept, h m hm]

theorem weight_strip (text : List Mark) : weight (strip_marks text) = weight text := by
  obtain ⟨before, after, htext, hbefore, hafter⟩ := strip_parts text
  conv_rhs => rw [htext]
  rw [weight_append, weight_append, weight_blank hbefore, weight_blank hafter]
  omega

theorem escape_mark_cases (m : Mark) :
    (ESCAPED.contains m.1 = true ∧
      ∃ text : String, escape_mark m = put text ∧ '<' ∉ text.toList) ∨
      ESCAPED.contains m.1 = false ∧ escape_mark m = [m] := by
  unfold escape_mark
  split <;> rename_i hc
  · exact .inl ⟨by rw [hc]; rfl, _, rfl, by decide⟩
  · exact .inl ⟨by rw [hc]; rfl, _, rfl, by decide⟩
  · exact .inl ⟨by rw [hc]; rfl, _, rfl, by decide⟩
  · exact .inl ⟨by rw [hc]; rfl, _, rfl, by decide⟩
  · exact .inl ⟨by rw [hc]; rfl, _, rfl, by decide⟩
  · right
    simp_all [ESCAPED]

theorem weight_escape (text : List Mark) : weight (escape_html text) = weight text := by
  induction text with
  | nil => rfl
  | cons m text ih =>
    have hm : weight (escape_mark m) = weight [m] := by
      rcases escape_mark_cases m with ⟨hescaped, put_text, hput, -⟩ | ⟨-, hsame⟩
      · have hmem : m.1 ∈ ESCAPED := by simpa using hescaped
        rw [hput, weight_put]
        exact (List.countP_eq_zero.mpr (by simp [is_kept, hmem])).symm
      · rw [hsame]
    rw [escape_html, List.flatMap_cons, weight_append, hm, ← List.singleton_append (l := text),
      weight_append, ← ih]
    rfl

theorem weight_join (lines : List (List Mark)) :
    weight (join_lines lines) = (lines.map weight).sum := by
  induction lines with
  | nil => rfl
  | cons line lines ih =>
    by_cases hlines : lines = []
    · subst hlines
      rw [join_single]
      simp
    · rw [join_cons hlines, weight_append, weight_append, weight_put, ih]
      simp

/-! ## What the sections show -/

def Entry.is_title : Entry → Bool
  | .title _ => true
  | _ => false

def Entry.is_blank : Entry → Bool
  | .blank => true
  | _ => false

/-- What is to be in the HTML for an entry. A section begins and ends without spaces. -/
def Entry.shown : Entry → Option (List Mark)
  | .blank => none
  | .title text => some (escape_html text)
  | .line text => some (strip_marks text)

/-- What a section has for an entry behind its title. -/
def Entry.html : Entry → List Mark
  | .blank => BR
  | .title text | .line text => text

/-- The entries that a section shows. -/
def Section.entries (s : Section) : List Entry :=
  (s.title.map Entry.title).toList ++ s.content.filterMap fun line => line.map Entry.line

/-- All title entries that something other than a title follows, and all lines. -/
def kept : List Entry → List Entry
  | [] => []
  | .blank :: rest => kept rest
  | .line text :: rest => .line text :: kept rest
  | .title text :: rest =>
    (if rest.head?.any fun next => !next.is_title then [.title text] else []) ++ kept rest

/-- What the current section will show, if `rest` follows. -/
def ahead (current : Option Section) (rest : List Entry) : List Entry :=
  match current with
  | none => []
  | some s =>
    if s.content.isEmpty && !rest.head?.any fun next => !next.is_title then [] else s.entries

/-- The lines of the current section are not blank. -/
def Solid (current : Option Section) : Prop :=
  ∀ s ∈ current, ∀ text, some text ∈ s.content → strip_marks text ≠ []

def Solid_entries (entries : List Entry) : Prop :=
  ∀ text, Entry.line text ∈ entries → strip_marks text ≠ []

theorem br_strip : strip_marks BR = BR := by decide +kernel

theorem content_isEmpty {s : Section} (h : Solid (some s)) :
    (content_html s.content).isEmpty = s.content.isEmpty := by
  obtain ⟨title, content⟩ := s
  cases content with
  | nil => rfl
  | cons line content =>
    have hline : strip_marks (line.getD BR) ≠ [] := by
      cases line with
      | none => exact fun heq => by cases br_strip.symm.trans heq
      | some text => exact h _ rfl text List.mem_cons_self
    obtain ⟨⟨m, rest, hstrip, hm⟩, -⟩ := strip_ends hline
    have hmem : m ∈ line.getD BR := mem_of_mem_strip (hstrip ▸ List.mem_cons_self)
    have hhtml : m ∈ content_html (line :: content) :=
      mem_strip (mem_join_of List.mem_cons_self hmem) hm
    cases hcontent : content_html (line :: content) with
    | nil => rw [hcontent] at hhtml; cases hhtml
    | cons => rfl

theorem flush_none (flushed : List Section) : flush_section ⟨flushed, none⟩ = ⟨flushed, none⟩ := rfl

theorem flush_some {s : Section} (h : Solid (some s)) (flushed : List Section) :
    flush_section ⟨flushed, some s⟩ =
      ⟨if s.content.isEmpty then flushed else flushed ++ [s], none⟩ := by
  simp only [flush_section, content_isEmpty h]
  split <;> rfl

/-- A flushed section was shown before by `ahead`. -/
theorem flush_entries {current : Option Section} (h : Solid current) (flushed : List Section)
    (rest : List Entry) (hrest : (rest.head?.any fun next => !next.is_title) = false) :
    (flush_section ⟨flushed, current⟩).flushed.flatMap Section.entries =
      flushed.flatMap Section.entries ++ ahead current rest := by
  cases current with
  | none => simp [flush_none, ahead]
  | some s =>
    rw [flush_some h]
    simp only [ahead, hrest, Bool.not_false, Bool.and_true]
    split <;> simp

theorem section_step_entries {current : Option Section} (h : Solid current)
    (flushed : List Section) (entry : Entry) (rest : List Entry) :
    (section_step ⟨flushed, current⟩ entry).flushed.flatMap Section.entries ++
        ahead (section_step ⟨flushed, current⟩ entry).current rest ++ kept rest =
      flushed.flatMap Section.entries ++ ahead current (entry :: rest) ++
        kept (entry :: rest) := by
  cases entry with
  | blank => cases current <;> simp [section_step, ahead, kept, Section.entries, Entry.is_title]
  | title text =>
    have hflush := flush_entries h flushed (.title text :: rest) rfl
    simp only [section_step, hflush, kept]
    cases hnext : rest.head?.any fun next => !next.is_title <;>
      simp [ahead, Section.entries, hnext]
  | line text =>
    cases current <;> simp [section_step, ahead, kept, Section.entries, Entry.is_title]

theorem section_step_solid {s : Sections} (h : Solid s.current) {entry : Entry}
    (hentry : ∀ text, entry = .line text → strip_marks text ≠ []) :
    Solid (section_step s entry).current := by
  intro next hnext text htext
  cases entry with
  | blank =>
    obtain ⟨current, hcurrent, rfl⟩ := Option.map_eq_some_iff.mp hnext
    rcases List.mem_append.mp htext with htext | htext
    · exact h current hcurrent text htext
    · simp at htext
  | title _ =>
    cases hnext
    cases htext
  | line line =>
    cases hnext
    rcases List.mem_append.mp htext with htext | htext
    · cases hcurrent : s.current with
      | none => rw [hcurrent] at htext; cases htext
      | some current => rw [hcurrent] at htext; exact h current hcurrent text htext
    · simp only [List.mem_singleton, Option.some.injEq] at htext
      exact htext ▸ hentry line rfl

theorem Solid_entries.head {entry : Entry} {rest : List Entry}
    (h : Solid_entries (entry :: rest)) (text : List Mark) (heq : entry = .line text) :
    strip_marks text ≠ [] := h text (heq ▸ List.mem_cons_self)

theorem Solid_entries.tail {entry : Entry} {rest : List Entry}
    (h : Solid_entries (entry :: rest)) : Solid_entries rest :=
  fun text hmem => h text (List.mem_cons_of_mem _ hmem)

theorem run_entries {entries : List Entry} (hentries : Solid_entries entries) {s : Sections}
    (h : Solid s.current) :
    (flush_section (entries.foldl section_step s)).flushed.flatMap Section.entries =
      s.flushed.flatMap Section.entries ++ ahead s.current entries ++ kept entries := by
  induction entries generalizing s with
  | nil =>
    rw [List.foldl_nil, kept, List.append_nil]
    exact flush_entries h s.flushed [] rfl
  | cons entry rest ih =>
    rw [List.foldl_cons, ih hentries.tail (section_step_solid h hentries.head)]
    exact section_step_entries h s.flushed entry rest

/-- The sections show the lines and the titles that something other than a title follows. -/
theorem sections_entries {entries : List Entry} (h : Solid_entries entries) :
    (sections entries).flatMap Section.entries = kept entries :=
  run_entries h fun _ hnone => by cases hnone

theorem read_lines_solid (lines : List (List Mark)) : Solid_entries (lines.map read_line) := by
  intro text hmem
  obtain ⟨line, -, hline⟩ := List.mem_map.mp hmem
  unfold read_line at hline
  simp only at hline
  split at hline
  · cases hline
  · rename_i hempty
    split at hline
    · cases hline
    · cases hline
      exact fun heq => hempty (by rw [heq]; rfl)

/-! ## Titles -/

/-- Each title entry is directly followed by an entry that is no title. -/
def Titles_lead (entries : List Entry) : Prop :=
  ∀ before text after, entries = before ++ .title text :: after →
    ∃ next rest, after = next :: rest ∧ next.is_title = false

theorem Titles_lead.tail {entry : Entry} {rest : List Entry} (h : Titles_lead (entry :: rest)) :
    Titles_lead rest :=
  fun before text after heq => h (entry :: before) text after (by rw [heq]; rfl)

theorem kept_of_lead {entries : List Entry} (h : Titles_lead entries) :
    kept entries = entries.filter fun entry => !entry.is_blank := by
  induction entries with
  | nil => rfl
  | cons entry rest ih =>
    have hrest := ih h.tail
    cases entry with
    | blank => exact hrest
    | line text => rw [kept, hrest]; rfl
    | title text =>
      obtain ⟨next, more, rfl, hnext⟩ := h [] text rest rfl
      rw [kept, hrest]
      simp [hnext, Entry.is_blank]

def Entry.weight : Entry → Nat
  | .blank => 0
  | .title text | .line text => pdf_export.weight text

theorem mem_of_mem_kept {entry : Entry} {entries : List Entry} (h : entry ∈ kept entries) :
    entry ∈ entries := by
  induction entries with
  | nil => cases h
  | cons first rest ih =>
    cases first with
    | blank => exact List.mem_cons_of_mem _ (ih h)
    | line text =>
      rcases List.mem_cons.mp h with rfl | h
      · exact List.mem_cons_self
      · exact List.mem_cons_of_mem _ (ih h)
    | title text =>
      rcases List.mem_append.mp h with h | h
      · split at h
        · rw [List.mem_singleton.mp h]
          exact List.mem_cons_self
        · cases h
      · exact List.mem_cons_of_mem _ (ih h)

theorem kept_weight_le (entries : List Entry) :
    ((kept entries).map Entry.weight).sum ≤ (entries.map Entry.weight).sum := by
  induction entries with
  | nil => exact Nat.le_refl 0
  | cons entry rest ih =>
    cases entry with
    | blank => simpa [kept, Entry.weight] using ih
    | line text => simpa [kept] using ih
    | title text =>
      rw [kept]
      split <;> simp <;> omega

/-- If nothing is missing of titles that weigh something, no title was dropped. -/
theorem lead_of_weight {entries : List Entry}
    (htitles : ∀ text, Entry.title text ∈ entries → 0 < pdf_export.weight text)
    (h : (entries.map Entry.weight).sum ≤ ((kept entries).map Entry.weight).sum) :
    Titles_lead entries := by
  induction entries with
  | nil => exact fun before text after heq => by simp at heq
  | cons entry rest ih =>
    have hle := kept_weight_le rest
    have hrest : (rest.map Entry.weight).sum ≤ ((kept rest).map Entry.weight).sum := by
      cases entry with
      | blank => simpa [kept, Entry.weight] using h
      | line text => simpa [kept] using h
      | title text =>
        rw [kept] at h
        split at h <;> simp at h <;> omega
    have hlead := ih (fun text hmem => htitles text (List.mem_cons_of_mem _ hmem)) hrest
    intro before text after heq
    cases before with
    | cons first before => exact hlead before text after (List.cons.inj heq).2
    | nil =>
      obtain ⟨rfl, rfl⟩ := List.cons.inj heq
      have hpos := htitles text List.mem_cons_self
      rw [kept] at h
      split at h
      · rename_i hnext
        cases rest with
        | nil => cases hnext
        | cons next more => exact ⟨next, more, rfl, by simpa using hnext⟩
      · simp [Entry.weight] at h
        omega

/-! ## The lines in the HTML -/

/-- The parts of the HTML of a section, each with what it shows. -/
def Section.pieces (s : Section) : List (List (List Mark) × List Mark) :=
  [([], put "<div class=\"section\">"),
    ((s.title.map escape_html).toList,
      put "<div class=\"section-title\">" ++ escape_html (s.title.getD (put "پاسخ")) ++
        put "</div>"),
    ([], put "<div class=\"section-content\">"),
    (s.content.filterMap fun line => line.map strip_marks, content_html s.content),
    ([], put "</div>"), ([], put "</div>")]

theorem appear_content {s : Section} (h : Solid (some s)) :
    Appear (s.content.filterMap fun line => line.map strip_marks) (content_html s.content) := by
  have hlines := appear_join (s.content.map fun line =>
    ((line.map strip_marks).toList, line.getD BR)) fun piece hmem => by
      obtain ⟨line, -, rfl⟩ := List.mem_map.mp hmem
      cases line with
      | none => trivial
      | some text =>
        obtain ⟨before, after, htext, -, -⟩ := strip_parts text
        exact ⟨before, after, htext, trivial⟩
  rw [List.flatMap_map, List.map_map] at hlines
  have hparts : ∀ part ∈ s.content.filterMap fun line => line.map strip_marks,
      ∃ text, some text ∈ s.content ∧ part = strip_marks text := by
    intro part hpart
    obtain ⟨line, hmem, hline⟩ := List.mem_filterMap.mp hpart
    obtain ⟨text, rfl, rfl⟩ := Option.map_eq_some_iff.mp hline
    exact ⟨text, hmem, rfl⟩
  have hflat : (s.content.flatMap fun line => (line.map strip_marks).toList) =
      s.content.filterMap fun line => line.map strip_marks := by
    rw [List.filterMap_eq_flatMap_toList]
  rw [← hflat] at hparts ⊢
  refine (hlines.dropWhile fun part hpart => ?_).rdropWhile fun part hpart => ?_
  · obtain ⟨text, hmem, rfl⟩ := hparts part hpart
    exact (strip_ends (h s rfl text hmem)).1
  · obtain ⟨text, hmem, rfl⟩ := hparts part hpart
    exact (strip_ends (h s rfl text hmem)).2

theorem appear_pieces {s : Section} (h : Solid (some s)) :
    ∀ piece ∈ s.pieces, Appear piece.1 piece.2 := by
  intro piece hmem
  have htitle : Appear (s.title.map escape_html).toList
      (put "<div class=\"section-title\">" ++ escape_html (s.title.getD (put "پاسخ")) ++
        put "</div>") := by
    cases s.title with
    | none => trivial
    | some text => exact ⟨_, _, rfl, trivial⟩
  simp only [Section.pieces, List.mem_cons, List.not_mem_nil, or_false] at hmem
  rcases hmem with rfl | rfl | rfl | rfl | rfl | rfl
  · trivial
  · exact htitle
  · trivial
  · exact appear_content h
  · trivial
  · trivial

theorem pieces_shown (s : Section) :
    s.pieces.flatMap Prod.fst = s.entries.filterMap Entry.shown := by
  have hcontent : (s.content.filterMap fun line => line.map strip_marks) =
      (s.content.filterMap fun line => line.map Entry.line).filterMap Entry.shown := by
    rw [List.filterMap_filterMap]
    refine List.filterMap_congr fun line _ => ?_
    cases line <;> rfl
  cases htitle : s.title <;> simp [Section.pieces, Section.entries, hcontent, htitle, Entry.shown]

/-- The lines of the flushed sections are not blank. -/
theorem sections_solid {entries : List Entry} (h : Solid_entries entries) {s : Section}
    (hs : s ∈ sections entries) : Solid (some s) := by
  intro current hcurrent text htext
  cases hcurrent
  have hmem : Entry.line text ∈ (sections entries).flatMap Section.entries :=
    List.mem_flatMap.mpr ⟨s, hs, List.mem_append_right _
      (List.mem_filterMap.mpr ⟨some text, htext, rfl⟩)⟩
  rw [sections_entries h] at hmem
  exact h text (mem_of_mem_kept hmem)

theorem html_pieces (all : List Section) :
    all.flatMap Section.html = (all.flatMap Section.pieces).map Prod.snd := by
  rw [List.map_flatMap]
  rfl

/-- The HTML shows what the sections have. -/
theorem kept_appear {entries : List Entry} (h : Solid_entries entries) :
    Appear ((kept entries).filterMap Entry.shown)
      (join_lines ((sections entries).flatMap Section.html)) := by
  have hpieces := appear_join ((sections entries).flatMap Section.pieces)
    fun piece hmem => by
      obtain ⟨s, hs, hpiece⟩ := List.mem_flatMap.mp hmem
      exact appear_pieces (sections_solid h hs) piece hpiece
  rw [← html_pieces, List.flatMap_assoc] at hpieces
  simp only [pieces_shown] at hpieces
  rw [← sections_entries h, List.filterMap_flatMap]
  exact hpieces

/-- The HTML has no more of the answer than the entries that are kept. -/
theorem weight_html {entries : List Entry} (h : Solid_entries entries) :
    weight (join_lines ((sections entries).flatMap Section.html)) =
      ((kept entries).map Entry.weight).sum := by
  have hsection : ∀ s : Section,
      (s.html.map weight).sum = (s.entries.map Entry.weight).sum := by
    intro s
    have hcontent : weight (content_html s.content) =
        ((s.content.filterMap fun line => line.map Entry.line).map Entry.weight).sum := by
      rw [content_html, weight_strip, weight_join]
      induction s.content with
      | nil => rfl
      | cons line content ih =>
        cases line with
        | none => simpa [BR, weight_put] using ih
        | some text => simpa [Entry.weight] using ih
    cases htitle : s.title <;>
      simp [Section.html, Section.entries, weight_append, weight_put, weight_escape, hcontent,
        htitle, Entry.weight]
  rw [weight_join, ← sections_entries h]
  induction sections entries with
  | nil => rfl
  | cons s all ih =>
    rw [List.flatMap_cons, List.flatMap_cons, List.map_append, List.map_append, List.sum_append,
      List.sum_append, ih, hsection]

theorem weight_shown (entries : List Entry) :
    ((entries.filterMap Entry.shown).map weight).sum = (entries.map Entry.weight).sum := by
  induction entries with
  | nil => rfl
  | cons entry rest ih =>
    cases entry <;>
      simp [List.filterMap_cons, Entry.shown, Entry.weight, weight_escape, weight_strip, ih]

/-- All that is to be shown stands in the HTML if and only if no title is dropped. -/
theorem appear_iff_lead {entries : List Entry} (h : Solid_entries entries)
    (htitles : ∀ text, Entry.title text ∈ entries → 0 < weight text) :
    Appear (entries.filterMap Entry.shown)
      (join_lines ((sections entries).flatMap Section.html)) ↔ Titles_lead entries := by
  constructor
  · intro happear
    have hle : ((entries.filterMap Entry.shown).map weight).sum ≤ _ := happear.countP_le is_kept
    rw [weight_shown] at hle
    exact lead_of_weight htitles (hle.trans_eq (weight_html h))
  · intro hlead
    have happear := kept_appear h
    rw [kept_of_lead hlead, List.filterMap_filter] at happear
    have hshown : (entries.filterMap fun entry =>
        if !entry.is_blank then entry.shown else none) = entries.filterMap Entry.shown :=
      List.filterMap_congr fun entry _ => by cases entry <;> rfl
    rwa [hshown] at happear

/-! ## Escaping -/

/-- No `<`, `>` or `&` of the answer itself is in the text. -/
def Escaped (text : List Mark) : Prop :=
  ∀ m ∈ text, m.2 = true → ['<', '>', '&'].contains m.1 = false

/-- The lines behind the titles have no such character. -/
def Lines_plain (entries : List Entry) : Prop := ∀ text, Entry.line text ∈ entries → Escaped text

theorem escaped_put (text : String) : Escaped (put text) := by
  intro m hm hown
  obtain ⟨c, -, rfl⟩ := List.mem_map.mp hm
  cases hown

theorem Escaped.append {before after : List Mark} (h : Escaped before) (h' : Escaped after) :
    Escaped (before ++ after) := fun m hm =>
  (List.mem_append.mp hm).elim (h m) (h' m)

theorem escaped_escape (text : List Mark) : Escaped (escape_html text) := by
  intro m hm hown
  obtain ⟨n, -, hn⟩ := List.mem_flatMap.mp hm
  rcases escape_mark_cases n with ⟨-, put_text, hput, -⟩ | ⟨hplain, hsame⟩
  · rw [hput] at hn
    exact escaped_put put_text m hn hown
  · rw [hsame] at hn
    rw [List.mem_singleton.mp hn]
    simp only [ESCAPED, List.contains_cons, Bool.or_eq_false_iff] at hplain ⊢
    tauto

theorem escaped_join {lines : List (List Mark)} (h : ∀ line ∈ lines, Escaped line) :
    Escaped (join_lines lines) := by
  intro m hm hown
  rcases mem_join hm with hput | ⟨line, hline, hm⟩
  · rw [hput] at hown
    cases hown
  · exact h line hline m hm hown

theorem special_not_blank {m : Mark} (h : ['<', '>', '&'].contains m.1 = true) :
    is_blank m = false := by
  simp only [List.contains_cons, Bool.or_eq_true, beq_iff_eq] at h
  rcases h with h | h | h | h <;> first | (rw [is_blank, h]; rfl) | cases h

/-- A line is in a section if and only if it is one of the entries. -/
theorem line_iff {entries : List Entry} (h : Solid_entries entries) (text : List Mark) :
    (∃ s ∈ sections entries, some text ∈ s.content) ↔ Entry.line text ∈ entries := by
  have hkept : Entry.line text ∈ kept entries ↔ Entry.line text ∈ entries := by
    clear h
    induction entries with
    | nil => simp [kept]
    | cons entry rest ih =>
      cases entry with
      | blank => simpa [kept] using ih
      | line other => simp [kept, ih]
      | title other =>
        rw [kept, List.mem_append, ih]
        split <;> simp
  rw [← hkept, ← sections_entries h, List.mem_flatMap]
  refine exists_congr fun s => and_congr_right fun _ => ?_
  simp [Section.entries]

/-- The HTML is escaped if and only if the lines have nothing to escape. -/
theorem escaped_iff {entries : List Entry} (h : Solid_entries entries) :
    Escaped (join_lines ((sections entries).flatMap Section.html)) ↔ Lines_plain entries := by
  constructor
  · intro hhtml text htext m hm hown
    obtain ⟨s, hs, hline⟩ := (line_iff h text).mpr htext
    by_contra hspecial
    rw [Bool.not_eq_false] at hspecial
    have hcontent : m ∈ content_html s.content :=
      mem_strip (mem_join_of (List.mem_map.mpr ⟨some text, hline, rfl⟩) hm)
        (special_not_blank hspecial)
    have hjoined : m ∈ join_lines ((sections entries).flatMap Section.html) :=
      mem_join_of (List.mem_flatMap.mpr ⟨s, hs, by simp [Section.html]⟩) hcontent
    rw [hhtml m hjoined hown] at hspecial
    cases hspecial
  · intro hlines
    refine escaped_join fun piece hpiece => ?_
    obtain ⟨s, hs, hpiece⟩ := List.mem_flatMap.mp hpiece
    have hcontent : Escaped (content_html s.content) := by
      intro m hm hown
      refine escaped_join (fun line hline => ?_) m (mem_of_mem_strip hm) hown
      obtain ⟨content, hmem, rfl⟩ := List.mem_map.mp hline
      cases content with
      | none => exact escaped_put _
      | some text => exact hlines text ((line_iff h text).mp ⟨s, hs, hmem⟩)
    simp only [Section.html, List.mem_cons, List.not_mem_nil, or_false] at hpiece
    rcases hpiece with rfl | rfl | rfl | rfl | rfl | rfl
    · exact escaped_put _
    · exact ((escaped_put _).append (escaped_escape _)).append (escaped_put _)
    · exact escaped_put _
    · exact hcontent
    · exact escaped_put _
    · exact escaped_put _

/-! ## Tags -/

/-- Between two titles, before the first and behind the last, the tags are balanced. -/
def Runs_balanced (entries : List Entry) : Prop :=
  ∀ run ∈ entries.splitOnP Entry.is_title, Balanced (letters (join_lines (run.map Entry.html)))

/-- The content of a section is that of the run, but for blank lines at its start. -/
def Stands (run : List Entry) (content : List (Option (List Mark))) : Prop :=
  ∃ count, run.map Entry.html =
    List.replicate count BR ++ content.map fun line => line.getD BR

theorem flush_cases {s : Sections} {found : Section} (h : found ∈ (flush_section s).flushed) :
    found ∈ s.flushed ∨ s.current = some found := by
  unfold flush_section at h
  split at h
  · exact .inl h
  · rename_i current hcurrent
    split at h
    · exact .inl h
    · rcases List.mem_append.mp h with h | h
      · exact .inl h
      · exact .inr (List.mem_singleton.mp h ▸ hcurrent)

theorem Stands.snoc {run : List Entry} {current : Option Section}
    (h : Stands run ((current.map Section.content).getD [])) {entry : Entry}
    (hentry : entry.is_title = false) (flushed : List Section) :
    Stands (run ++ [entry])
      (((section_step ⟨flushed, current⟩ entry).current.map Section.content).getD []) := by
  obtain ⟨count, hrun⟩ := h
  cases entry with
  | title text => cases hentry
  | line text =>
    refine ⟨count, ?_⟩
    rw [List.map_append, hrun]
    cases current <;> simp [section_step, Entry.html]
  | blank =>
    cases current with
    | none =>
      refine ⟨count + 1, ?_⟩
      rw [List.map_append, hrun]
      simp [section_step, Entry.html, List.replicate_succ']
    | some s =>
      refine ⟨count, ?_⟩
      rw [List.map_append, hrun]
      simp [section_step, Entry.html]

theorem run_of_section {entries : List Entry} (run : List Entry) {s : Sections}
    (h : Stands run ((s.current.map Section.content).getD [])) {found : Section}
    (hfound : found ∈ (flush_section (entries.foldl section_step s)).flushed) :
    found ∈ s.flushed ∨
      ∃ whole ∈ (entries.splitOnP Entry.is_title).modifyHead (run ++ ·),
        Stands whole found.content := by
  induction entries generalizing s run with
  | nil =>
    rcases flush_cases hfound with hfound | hcurrent
    · exact .inl hfound
    · rw [List.foldl_nil] at hcurrent
      rw [hcurrent] at h
      exact .inr ⟨run, by simp, h⟩
  | cons entry rest ih =>
    rw [List.splitOnP_cons_eq_if_modifyHead]
    cases htitle : entry.is_title with
    | false =>
      have hrest := ih (run ++ [entry]) (h.snoc htitle s.flushed) hfound
      have hflushed : (section_step s entry).flushed = s.flushed := by
        cases entry <;> first | rfl | cases htitle
      rw [hflushed] at hrest
      have hsplit : ((rest.splitOnP Entry.is_title).modifyHead (List.cons entry)).modifyHead
          (run ++ ·) = (rest.splitOnP Entry.is_title).modifyHead ((run ++ [entry]) ++ ·) := by
        rw [List.modifyHead_modifyHead]
        congr 1
        funext more
        simp
      simpa only [Bool.false_eq_true, if_false, hsplit] using hrest
    | true =>
      cases entry with
      | blank | line => cases htitle
      | title text =>
        rw [if_pos rfl, List.modifyHead_cons, List.append_nil]
        rcases ih [] ⟨0, rfl⟩ hfound with hfound | ⟨whole, hwhole, hstands⟩
        · rcases flush_cases hfound with hfound | hcurrent
          · exact .inl hfound
          · rw [hcurrent] at h
            exact .inr ⟨run, List.mem_cons_self, h⟩
        · have hsame : (rest.splitOnP Entry.is_title).modifyHead ([] ++ ·) =
              rest.splitOnP Entry.is_title := by
            cases rest.splitOnP Entry.is_title <;> rfl
          rw [hsame] at hwhole
          exact .inr ⟨whole, List.mem_cons_of_mem _ hwhole, hstands⟩

theorem letters_append (before after : List Mark) :
    letters (before ++ after) = letters before ++ letters after := List.map_append

theorem letters_put (text : String) : letters (put text) = text.toList := by
  simp [letters, put, Function.comp_def]

theorem blank_no_tag {text : List Mark} (h : ∀ m ∈ text, is_blank m = true) :
    '<' ∉ letters text ∧ '>' ∉ letters text := by
  have hchar : ∀ c ∈ letters text, isSpace c = true := by
    intro c hc
    obtain ⟨m, hm, rfl⟩ := List.mem_map.mp hc
    exact h m hm
  exact ⟨fun hc => Bool.false_ne_true (hchar _ hc), fun hc => Bool.false_ne_true (hchar _ hc)⟩

theorem balanced_strip {text : List Mark} (h : Balanced (letters text)) :
    Balanced (letters (strip_marks text)) := by
  obtain ⟨before, after, htext, hbefore, hafter⟩ := strip_parts text
  rw [htext, letters_append, letters_append] at h
  obtain ⟨hopen, hclose⟩ := blank_no_tag hafter
  exact (h.of_text_append hopen hclose).of_append_text (blank_no_tag hbefore).1

theorem balanced_content {run : List Entry} {content : List (Option (List Mark))}
    (h : Stands run content) (hrun : Balanced (letters (join_lines (run.map Entry.html)))) :
    Balanced (letters (content_html content)) := by
  obtain ⟨count, heq⟩ := h
  rw [heq] at hrun
  refine balanced_strip ?_
  by_cases hcontent : content = []
  · subst hcontent
    rfl
  · clear heq
    induction count with
    | zero => exact hrun
    | succ count ih =>
      refine ih ?_
      rw [List.replicate_succ, List.cons_append, join_cons (by simp [hcontent]),
        letters_append] at hrun
      have hbreak : Balanced (letters (BR ++ put "\n")) := rfl
      exact hbreak.of_append_balanced hrun

theorem escape_no_tag (text : List Mark) : '<' ∉ letters (escape_html text) := by
  intro hmem
  obtain ⟨m, hm, hc⟩ := List.mem_map.mp hmem
  obtain ⟨n, -, hn⟩ := List.mem_flatMap.mp hm
  rcases escape_mark_cases n with ⟨-, put_text, hput, htext⟩ | ⟨hplain, hsame⟩
  · rw [hput] at hn
    obtain ⟨c, hmem, rfl⟩ := List.mem_map.mp hn
    exact htext (hc ▸ hmem)
  · rw [hsame] at hn
    rw [← List.mem_singleton.mp hn, hc] at hplain
    exact absurd hplain (by decide)

theorem balanced_section {s : Section} (h : Balanced (letters (content_html s.content))) :
    Balanced (letters (join_lines s.html)) := by
  have htitle : Balanced ("<div class=\"section-title\">".toList ++
      letters (escape_html (s.title.getD (put "پاسخ"))) ++ "</div>".toList) :=
    Balanced.element (read_text (escape_no_tag _) []) rfl rfl
  have hcontent : Balanced ("\n<div class=\"section-content\">\n".toList ++
      letters (content_html s.content) ++ "\n</div>\n".toList) := h.element rfl rfl
  have hsection : Balanced ("<div class=\"section\">\n".toList ++ _ ++ "</div>".toList) :=
    (htitle.append hcontent).element rfl rfl
  simp only [Section.html, join_lines, List.intercalate_cons_cons, List.intercalate_singleton,
    letters_append, letters_put]
  simpa using hsection

theorem balanced_sections {all : List Section}
    (h : ∀ s ∈ all, Balanced (letters (content_html s.content))) :
    Balanced (letters (join_lines (all.flatMap Section.html))) := by
  induction all with
  | nil => rfl
  | cons s rest ih =>
    have hsection := balanced_section (h s List.mem_cons_self)
    have hrest := ih fun s hs => h s (List.mem_cons_of_mem _ hs)
    cases rest with
    | nil => simpa using hsection
    | cons next rest =>
      rw [List.flatMap_cons, join_append (by simp [Section.html]) (by simp [Section.html]),
        letters_append, letters_append]
      exact (hsection.append (by rfl)).append hrest

theorem balanced_html {entries : List Entry} (h : Runs_balanced entries) :
    Balanced (letters (join_lines ((sections entries).flatMap Section.html))) := by
  refine balanced_sections fun s hs => ?_
  rcases run_of_section [] ⟨0, rfl⟩ hs with hnone | ⟨run, hrun, hstands⟩
  · cases hnone
  · have hsame : (entries.splitOnP Entry.is_title).modifyHead ([] ++ ·) =
        entries.splitOnP Entry.is_title := by
      cases entries.splitOnP Entry.is_title <;> rfl
    rw [hsame] at hrun
    exact balanced_content hstands (h run hrun)

/-! ## Titles are of the answer -/

/-- The letters that the titles of sections begin with. -/
def TITLE_LETTERS : List Char := SECTION_TITLES.filterMap fun word => word.toList.head?

/-- The exporter puts no such letter into the text. -/
def Letters_own (text : List Mark) : Prop :=
  ∀ m ∈ text, TITLE_LETTERS.contains m.1 = true → m.2 = true

theorem own_put {text : String}
    (h : (text.toList.all fun c => !TITLE_LETTERS.contains c) = true) :
    Letters_own (put text) := by
  intro m hm hletter
  obtain ⟨c, hc, rfl⟩ := List.mem_map.mp hm
  have hno := List.all_eq_true.mp h c hc
  rw [hletter] at hno
  cases hno

theorem Letters_own.append {before after : List Mark} (h : Letters_own before)
    (h' : Letters_own after) : Letters_own (before ++ after) := fun m hm =>
  (List.mem_append.mp hm).elim (h m) (h' m)

theorem Letters_own.mono {text part : List Mark} (h : Letters_own text)
    (hpart : ∀ m ∈ part, m ∈ text) : Letters_own part := fun m hm => h m (hpart m hm)

theorem Letters_own.strip {text : List Mark} (h : Letters_own text) :
    Letters_own (strip_marks text) := h.mono fun _ hm => mem_of_mem_strip hm

theorem Letters_own.join {lines : List (List Mark)} (h : ∀ line ∈ lines, Letters_own line) :
    Letters_own (join_lines lines) := by
  induction lines with
  | nil => exact fun _ hm => by cases hm
  | cons line lines ih =>
    have hrest := ih fun line hmem => h line (List.mem_cons_of_mem _ hmem)
    by_cases hlines : lines = []
    · subst hlines
      rw [join_single]
      exact h line List.mem_cons_self
    · rw [join_cons hlines]
      exact ((h line List.mem_cons_self).append (own_put rfl)).append hrest

theorem mem_of_mem_line {text line : List Mark} (hline : line ∈ lines_of text) :
    ∀ m ∈ line, m ∈ text := by
  unfold lines_of at hline
  induction text generalizing line with
  | nil =>
    rw [List.splitOnP_nil, List.mem_singleton] at hline
    exact fun m hm => by rw [hline] at hm; cases hm
  | cons first text ih =>
    intro m hm
    rw [List.splitOnP_cons_eq_if_modifyHead] at hline
    split at hline
    · rcases List.mem_cons.mp hline with rfl | hline
      · cases hm
      · exact List.mem_cons_of_mem _ (ih hline m hm)
    · cases hsplit : text.splitOnP fun m => m.1 == '\n' with
      | nil => rw [hsplit] at hline; cases hline
      | cons head rest =>
        rw [hsplit, List.modifyHead_cons] at hline
        rw [hsplit] at ih
        rcases List.mem_cons.mp hline with rfl | hline
        · rcases List.mem_cons.mp hm with rfl | hm
          · exact List.mem_cons_self
          · exact List.mem_cons_of_mem _ (ih List.mem_cons_self m hm)
        · exact List.mem_cons_of_mem _ (ih (List.mem_cons_of_mem _ hline) m hm)

/-- A replacement that keeps the letters of the titles, wherever it matches. -/
theorem own_sub {render : List Mark → List Mark → List Mark → List Mark}
    (hrender : ∀ x y z, Letters_own x → Letters_own y → Letters_own z →
      Letters_own (render x y z))
    (a b c : Regex) {text : List Mark} (h : Letters_own text) :
    Letters_own (sub a b c render text) := by
  suffices hfrom : ∀ skip prev, Letters_own (sub_from a b c render skip prev text) from hfrom 0 none
  induction text with
  | nil => exact fun skip prev m hm => by cases skip <;> cases hm
  | cons first text ih =>
    have hrest := ih (h.mono fun m hm => List.mem_cons_of_mem _ hm)
    have hfirst : Letters_own [first] :=
      h.mono fun m hm => List.mem_singleton.mp hm ▸ List.mem_cons_self
    intro skip prev
    cases skip with
    | succ skip => exact hrest skip _
    | zero =>
      rw [sub_from]
      split
      · exact hfirst.append (hrest 0 _)
      · split
        · exact hfirst.append (hrest 0 _)
        · refine (hrender _ _ _ ?_ ?_ ?_).append (hrest _ _)
          · exact h.mono fun m hm => List.mem_of_mem_take hm
          · exact h.mono fun m hm => List.mem_of_mem_drop (List.mem_of_mem_take hm)
          · exact h.mono fun m hm => List.mem_of_mem_drop (List.mem_of_mem_take hm)

theorem own_sub_text {repl : String} (hrepl : Letters_own (put repl)) (pattern : Regex)
    {text : List Mark} (h : Letters_own text) : Letters_own (sub_text pattern repl text) :=
  own_sub (fun _ _ _ _ _ _ => hrepl) _ _ _ h

theorem own_sub_group {before after : String} (hbefore : Letters_own (put before))
    (hafter : Letters_own (put after)) (a b c : Regex) {text : List Mark}
    (h : Letters_own text) : Letters_own (sub_group a b c before after text) :=
  own_sub (fun _ _ _ _ hgroup _ => (hbefore.append hgroup).append hafter) _ _ _ h

theorem own_remove_tips {text : List Mark} (h : Letters_own text) :
    Letters_own (remove_tips text) := by
  refine Letters_own.strip ?_
  induction TIPS_PATTERNS generalizing text with
  | nil => exact h
  | cons tip tips ih => exact ih (own_sub_text (own_put rfl) _ h)

theorem own_clean_markdown {text : List Mark} (h : Letters_own text) :
    Letters_own (clean_markdown text) := by
  have hgroup : ∀ (a c : Regex) {before after : String} {text : List Mark},
      Letters_own (put before) → Letters_own (put after) → Letters_own text →
      Letters_own (sub_group a shortest c before after text) :=
    fun a c _ _ _ hbefore hafter htext => own_sub_group hbefore hafter a shortest c htext
  unfold clean_markdown
  refine own_sub_text (own_put rfl) _ (own_sub_text (own_put rfl) _
    (own_sub_text (own_put rfl) _ (own_sub_text (own_put rfl) _ ?_)))
  exact hgroup _ _ (own_put rfl) (own_put rfl) (hgroup _ _ (own_put rfl) (own_put rfl)
    (hgroup _ _ (own_put rfl) (own_put rfl) h))

theorem own_wrap_line {line : List Mark} (h : Letters_own line) : Letters_own (wrap_line line) := by
  unfold wrap_line
  simp only
  split_ifs
  · exact h
  · exact h
  · exact h
  · exact ((own_put rfl).append h.strip).append (own_put rfl)
  · exact h

theorem own_wrap_latex (is_word : Char → Bool) {text : List Mark} (h : Letters_own text) :
    Letters_own (wrap_latex_in_delimiters is_word text) := by
  refine Letters_own.join fun line hline => ?_
  obtain ⟨source, hsource, rfl⟩ := List.mem_map.mp hline
  refine own_wrap_line (Letters_own.mono ?_ (mem_of_mem_line hsource))
  exact own_sub_group (own_put rfl) (own_put rfl) _ _ _ (own_sub_text (own_put rfl) _ h)

theorem own_processed_text (is_word : Char → Bool) (markdown_text : String) :
    Letters_own (processed_text is_word markdown_text) := by
  have hown : Letters_own (own markdown_text) := fun m hm _ => by
    obtain ⟨c, -, rfl⟩ := List.mem_map.mp hm
    rfl
  have hwrapped := own_wrap_latex is_word (own_clean_markdown (own_remove_tips hown))
  refine own_sub (fun number _ unit hnumber _ hunit => ?_) _ _ _
    (own_sub (fun _ group _ _ hgroup _ => ?_) _ _ _ hwrapped)
  · exact ((((own_put rfl).append hnumber).append (own_put rfl)).append hunit).append
      (own_put rfl)
  · exact ((own_put rfl).append hgroup.strip).append (own_put rfl)

theorem title_letters_kept : ∀ c ∈ TITLE_LETTERS,
    (!isSpace c && !ESCAPED.contains c && c != ':') = true := List.all_eq_true.mp rfl

/-- A title begins with a letter of its word. -/
theorem title_letter {stripped : List Mark} {groups : List Mark × List Mark}
    (h : section_title stripped = some groups) :
    ∃ m ∈ title_of groups, m ∈ stripped ∧ m.1 ∈ TITLE_LETTERS := by
  obtain ⟨word, hword, hmatch⟩ := List.exists_of_findSome?_eq_some h
  unfold title_match at hmatch
  split at hmatch
  · rename_i hstart
    split at hmatch
    · rename_i colon rest hcolon
      split at hmatch
      · cases hmatch
        have hne : ∀ word ∈ SECTION_TITLES, (!word.toList.isEmpty) = true :=
          List.all_eq_true.mp rfl
        cases hletters : word.toList with
        | nil =>
          have hempty := hne word hword
          rw [hletters] at hempty
          cases hempty
        | cons c letters_behind =>
          cases stripped with
          | nil => rw [hletters] at hstart; cases hstart
          | cons m text =>
            rw [hletters] at hstart
            have hm : c = m.1 := by
              simp only [letters, List.map_cons, List.isPrefixOf, Bool.and_eq_true,
                beq_iff_eq] at hstart
              exact hstart.1
            have hletter : m.1 ∈ TITLE_LETTERS :=
              List.mem_filterMap.mpr ⟨word, hword, by rw [hletters, hm]; rfl⟩
            have hlength : rest.length < (m :: text).length := by
              have hdrop := congrArg List.length hcolon
              have hle := ((List.dropWhile_sublist is_blank).trans
                (List.drop_sublist word.length (m :: text))).length_le
              simp only [List.length_cons] at hdrop
              omega
            have hgroup : m ∈ (m :: text).take ((m :: text).length - rest.length) := by
              obtain ⟨n, hn⟩ := Nat.exists_eq_succ_of_ne_zero (Nat.sub_ne_zero_of_lt hlength)
              rw [hn, List.take_succ_cons]
              exact List.mem_cons_self
            have hkept := title_letters_kept m.1 hletter
            simp only [Bool.and_eq_true, Bool.not_eq_true', bne_iff_ne] at hkept
            have hcolon' : m ∈ without_colon ((m :: text).take _) :=
              mem_strip (mem_rdropWhile hgroup (by simp [hkept.2])) hkept.1.1
            refine ⟨m, ?_, List.mem_cons_self, hletter⟩
            unfold title_of
            simp only
            split
            · exact hcolon'
            · exact List.mem_append_left _ (List.mem_append_left _ hcolon')
      · cases hmatch
    · cases hmatch
  · cases hmatch

theorem title_weight {text : List Mark} (h : Letters_own text) {title : List Mark}
    (htitle : Entry.title title ∈ (lines_of text).map read_line) : 0 < weight title := by
  obtain ⟨line, hline, hread⟩ := List.mem_map.mp htitle
  unfold read_line at hread
  simp only at hread
  split at hread
  · cases hread
  · split at hread
    · rename_i groups hgroups
      cases hread
      obtain ⟨m, hm, hstripped, hletter⟩ := title_letter hgroups
      have hown := h m (mem_of_mem_line hline m (mem_of_mem_strip hstripped))
        (List.contains_iff_mem.mpr hletter)
      have hkept := title_letters_kept m.1 hletter
      simp only [Bool.and_eq_true, Bool.not_eq_true'] at hkept
      refine List.countP_pos_iff.mpr ⟨m, hm, ?_⟩
      simp only [is_kept, is_blank, hown, hkept.1.1, hkept.1.2, Bool.not_false, Bool.and_true]
    · cases hread

/-! ## The export -/

/-- What the export is to do with an answer, given by the text behind the replacements: its
lines and titles stand in the HTML in their order, no `<`, `>` or `&` of the answer stands
there as it is, and the tags are balanced. -/
structure Keeps (text html : List Mark) : Prop where
  shown : Appear (((lines_of text).map read_line).filterMap Entry.shown) html
  escaped : Escaped html
  balanced : Balanced (letters html)

theorem sections_keep {text : List Mark} (h : Letters_own text) :
    let entries := (lines_of text).map read_line
    (Titles_lead entries ∧ Lines_plain entries ∧ Runs_balanced entries →
        Keeps text (structure_sections text)) ∧
      (Keeps text (structure_sections text) → Titles_lead entries ∧ Lines_plain entries) := by
  intro entries
  have hsolid : Solid_entries entries := read_lines_solid _
  have hshown := appear_iff_lead hsolid fun title htitle => title_weight h htitle
  have hescaped := escaped_iff hsolid
  have hhtml : structure_sections text = join_lines ((sections entries).flatMap Section.html) :=
    rfl
  rw [hhtml]
  constructor
  · rintro ⟨hlead, hplain, hruns⟩
    exact ⟨hshown.mpr hlead, hescaped.mpr hplain, balanced_html hruns⟩
  · intro hkeeps
    exact ⟨hshown.mp hkeeps.shown, hescaped.mp hkeeps.escaped⟩

/-- The HTML keeps the answer if no title is followed by a title or the end, no line
behind a title has something to escape, and the tags between two titles are balanced. The
first two are needed. -/
theorem export_keeps_the_answer (is_word : Char → Bool) (markdown_text : String) :
    let text := processed_text is_word markdown_text
    let entries := (lines_of text).map read_line
    (Titles_lead entries ∧ Lines_plain entries ∧ Runs_balanced entries →
        Keeps text (html_of is_word markdown_text)) ∧
      (Keeps text (html_of is_word markdown_text) →
        Titles_lead entries ∧ Lines_plain entries) :=
  sections_keep (own_processed_text is_word markdown_text)

/-- A title with a text on its line, and nothing behind it. -/
theorem an_answer_is_lost :
    html_of Char.isAlphanum "پاسخ: ۵" = [] ∧
      ¬ Keeps (processed_text Char.isAlphanum "پاسخ: ۵") (html_of Char.isAlphanum "پاسخ: ۵") := by
  have htext : processed_text Char.isAlphanum "پاسخ: ۵" = own "پاسخ: ۵" := by decide +kernel
  have hentries : (lines_of (own "پاسخ: ۵")).map read_line =
      [.title (own "پاسخ" ++ put ": " ++ own "۵")] := by decide +kernel
  have hhtml : html_of Char.isAlphanum "پاسخ: ۵" = [] := by
    rw [html_of, htext, structure_sections, hentries]
    rfl
  refine ⟨hhtml, fun hkeeps => ?_⟩
  have hlead := ((sections_keep (own_processed_text Char.isAlphanum "پاسخ: ۵")).2 hkeeps).1
  rw [htext] at hlead
  obtain ⟨next, rest, hnil, -⟩ := hlead [] _ [] hentries
  cases hnil

end dr_boz.pdf_export
