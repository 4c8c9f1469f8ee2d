-- The body of a LaTeX document, as the bot makes it from what the model wrote
-- (llm.py): the text is escaped, bold marks and images become commands, and
-- the math between dollars stays as it is.
import DrBoz.Lib.TextSplits
import DrBoz.Lib.PosixPaths
import Mathlib.Data.List.Chain

open text_scan posix_paths

namespace dr_boz.latex_body

/-! ## Escaping a text -/

/-- `replacements` -/
def REPLACEMENTS : List (Char × String) :=
  [('\\', "\\textbackslash{}"), ('{', "\\\x7b"), ('}', "\\\x7d"), ('$', "\\$"), ('&', "\\&"),
    ('#', "\\#"), ('%', "\\%"), ('_', "\\_"), ('~', "\\textasciitilde{}"),
    ('^', "\\textasciicircum{}")]

/-- `replacements.get(ch, ch)` -/
def replacement (ch : Char) : List Char := ((REPLACEMENTS.lookup ch).map String.toList).getD [ch]

def escape_latex_text (value : List Char) : List Char := value.flatMap replacement

def TEXTBF : List Char := "\\textbf\x7b".toList

/-- `f"\\textbf{{{_escape_latex_text(inner)}}}"` -/
def textbf (inner : List Char) : List Char := TEXTBF ++ escape_latex_text inner ++ ['}']

/-- `text[2:-2]` -/
def without_marks (text : List Char) : List Char := (text.take (text.length - 2)).drop 2

/-! ## The patterns -/

/-- `\$\$.*?\$\$|\$.*?\$`, where the dot takes the ends of lines too -/
def MATH : Pattern Unit :=
  either (after_literal ['$', '$'] (lazily_dotall (ends ['$', '$'])))
    (after_literal ['$'] (lazily_dotall (ends ['$'])))

/-- `!\[.*?\]\((.*?)\)`, where the dot takes the ends of lines too -/
def IMAGE : Pattern (List Char) :=
  after_literal ['!', '['] (lazily_dotall (after_literal [']', '('] (group_until [')'])))

/-- `\*\*.*?\*\*|__.*?__`, where the dot takes the ends of lines too -/
def BOLD : Pattern Unit :=
  either (after_literal ['*', '*'] (lazily_dotall (ends ['*', '*'])))
    (after_literal ['_', '_'] (lazily_dotall (ends ['_', '_'])))

/-- `\*\*.+?\*\*|__.+?__` -/
def TOKEN : Pattern Unit :=
  either (after_literal ['*', '*'] (after_one (lazily (ends ['*', '*']))))
    (after_literal ['_', '_'] (after_one (lazily (ends ['_', '_']))))

/-! ## The two functions -/

def normalized (content : List Char) : List Char :=
  replace ['\r'] ['\n'] (replace ['\r', '\n'] ['\n'] content)

/-- `text.startswith(mark) and text.endswith(mark)` -/
def between_marks (mark text : List Char) : Bool := mark <+: text && mark <:+ text

/-- The test of a part for math. -/
def is_math (part : List Char) : Bool :=
  (between_marks ['$', '$'] part && 4 ≤ part.length) ||
    (between_marks ['$'] part && 2 ≤ part.length)

/-- `re.split(r"(\$\$.*?\$\$|\$.*?\$)", normalized, flags=re.DOTALL)`, without empty parts -/
def parts (content : String) : List (Piece Unit) :=
  (split MATH (normalized content.toList)).filter fun part => !part.text.isEmpty

/-- The loops of both functions: what is in `rendered` when they end. -/
def render_parts (text : List Char → List Char) (content : String) : List (List Char) :=
  (parts content).map fun part => if is_math part.text then part.text else text part.text

/-- One turn of the loop of `_escape_text_with_markdown_bold`. -/
def escape_step (line : List Char) (state : Nat × List (List Char))
    (found : Match (List Char × Unit)) : Nat × List (List Char) :=
  let pieces :=
    if found.start > state.1 then
      state.2 ++ [escape_latex_text ((line.take found.start).drop state.1)]
    else state.2
  let token := found.captured.1
  (found.start + token.length, pieces ++ [textbf (without_marks token)])

def escape_text_with_markdown_bold (line : List Char) : List Char :=
  let (cursor, pieces) := (finditer (with_text TOKEN) line).foldl (escape_step line) (0, [])
  let pieces :=
    if cursor < line.length then pieces ++ [escape_latex_text (line.drop cursor)] else pieces
  if pieces.isEmpty then escape_latex_text line else pieces.flatten

def LINE_BREAK : List Char := "\\\\\n".toList

def PARAGRAPH : List Char := "\n\n\\par\n".toList

def escape_text_segment_for_latex_body (value : List Char) : List Char :=
  PARAGRAPH.intercalate ((str_split ['\n', '\n'] (normalized value)).map fun paragraph =>
    LINE_BREAK.intercalate ((str_split ['\n'] paragraph).map escape_text_with_markdown_bold))

/-- What is in the place of an image. -/
def image_command (path : List Char) : List Char :=
  "\\begin{center}\\includegraphics[width=0.8\\textwidth]\x7b".toList ++ basename path ++
    "\x7d\\end{center}".toList

/-- One piece of `bold_parts`. -/
def bold_part (bp : List Char) : List Char :=
  if between_marks ['*', '*'] bp || between_marks ['_', '_'] bp then textbf (without_marks bp)
  else escape_latex_text bp

/-- One part outside math in `_convert_markdown_bold_outside_math`. -/
def convert_part (part : List Char) : List Char :=
  let converted := sub IMAGE image_command part
  (split BOLD converted).flatMap fun bp => bold_part bp.text

/-- The list `rendered` of `_convert_markdown_bold_outside_math`. -/
def convert_rendered (content : String) : List (List Char) := render_parts convert_part content

def convert_markdown_bold_outside_math (content : String) : String :=
  String.ofList (convert_rendered content).flatten

/-- The list `rendered_parts` of `_coerce_body_content_to_safe_latex`. -/
def coerce_rendered_parts (content : String) : List (List Char) :=
  render_parts escape_text_segment_for_latex_body content

def coerce_body_content_to_safe_latex (content : String) : String :=
  String.ofList (coerce_rendered_parts content).flatten

/-! ## What a safe body is -/

def SPECIALS : List Char := ['\\', '{', '}', '$', '&', '#', '%', '_', '~', '^']

/-- How a character of the text is written: a special one by a command that prints it, any
other as it is. `\\`, `\~` and `\^` do not print their character. -/
def Escaped (c : Char) (output : List Char) : Prop :=
  if c ∈ SPECIALS then
    (output = ['\\', c] ∧ c ∉ ['\\', '~', '^']) ∨
      ∃ word, word ≠ [] ∧ (∀ x ∈ word, x.isAlpha = true) ∧ output = '\\' :: word ++ ['{', '}']
  else output = [c]

/-- A text and a way to write it: characters, and commands of the generator around them. -/
inductive Renders : List Char → List Char → Prop
  | nil : Renders [] []
  | char {c : Char} {text output out : List Char} (h : Escaped c out)
      (hrest : Renders text output) : Renders (c :: text) (out ++ output)
  | bold {opening inner closing text output out : List Char}
      (hmarks : ∀ c ∈ opening ++ closing, c = '*' ∨ c = '_') (hinner : Renders inner out)
      (hrest : Renders text output) :
      Renders (opening ++ inner ++ closing ++ text) (TEXTBF ++ out ++ ['}'] ++ output)
  | line_break {text output : List Char} (hrest : Renders text output) :
      Renders ('\n' :: text) (LINE_BREAK ++ output)
  | paragraph {text output : List Char} (hrest : Renders text output) :
      Renders ('\n' :: '\n' :: text) (PARAGRAPH ++ output)
  | image {alt path text output : List Char} (hrest : Renders text output) :
      Renders (['!', '['] ++ alt ++ [']', '('] ++ path ++ [')'] ++ text)
        (image_command path ++ output)

/-- One character of a LaTeX reader which counts the open braces; after a backslash the next
character is part of a command. -/
def brace_step (state : Bool × Nat) (c : Char) : Option (Bool × Nat) :=
  if state.1 then some (false, state.2)
  else if c = '\\' then some (true, state.2)
  else if c = '{' then some (false, state.2 + 1)
  else if c = '}' then if state.2 = 0 then none else some (false, state.2 - 1)
  else some state

/-- Every brace that is opened in the text is closed in it. -/
def Balanced (text : List Char) : Prop :=
  ∀ n, text.foldlM brace_step (false, n) = some (false, n)

/-- The paths of the markdown images in a text. -/
def image_paths (text : List Char) : List (List Char) :=
  (finditer IMAGE text).map Match.captured

def INCLUDEGRAPHICS : List Char := "\\includegraphics".toList

/-- The output has a command that shows the image at the path. -/
def Shows (path output : List Char) : Prop :=
  ∃ options, '{' ∉ options ∧
    INCLUDEGRAPHICS ++ options ++ ['{'] ++ basename path ++ ['}'] <:+: output

/-- What the body must have for a part of the content: math as it is; any other text escaped,
with balanced braces and with all its images. -/
def SafePart : Piece Unit → List Char → Prop
  | .matched math _, output => output = math
  | .between text, output =>
    Renders text output ∧ Balanced output ∧ ∀ path ∈ image_paths text, Shows path output

/-- The list of outputs, which is joined to the body, is right for the parts of the content. -/
def SafeBody (content : String) (rendered : List (List Char)) : Prop :=
  List.Forall₂ SafePart (parts content) rendered

/-! ## Escaped text -/

theorem escaped_replacement (c : Char) : Escaped c (replacement c) := by
  by_cases hspecial : c ∈ SPECIALS
  · rw [Escaped, if_pos hspecial]
    simp only [SPECIALS, List.mem_cons, List.not_mem_nil, or_false] at hspecial
    rcases hspecial with rfl | rfl | rfl | rfl | rfl | rfl | rfl | rfl | rfl | rfl
    · exact .inr ⟨"textbackslash".toList, by decide, List.all_eq_true.mp rfl, rfl⟩
    · exact .inl ⟨rfl, by decide⟩
    · exact .inl ⟨rfl, by decide⟩
    · exact .inl ⟨rfl, by decide⟩
    · exact .inl ⟨rfl, by decide⟩
    · exact .inl ⟨rfl, by decide⟩
    · exact .inl ⟨rfl, by decide⟩
    · exact .inl ⟨rfl, by decide⟩
    · exact .inr ⟨"textasciitilde".toList, by decide, List.all_eq_true.mp rfl, rfl⟩
    · exact .inr ⟨"textasciicircum".toList, by decide, List.all_eq_true.mp rfl, rfl⟩
  · rw [Escaped, if_neg hspecial]
    have hnone : REPLACEMENTS.lookup c = none := by
      rw [List.lookup_eq_none_iff]
      intro entry hentry
      have hmem : entry.1 ∈ SPECIALS := List.mem_map_of_mem (f := Prod.fst) hentry
      rw [bne_iff_ne]
      rintro rfl
      exact hspecial hmem
    rw [replacement, hnone]
    rfl

theorem renders_escape (text : List Char) : Renders text (escape_latex_text text) := by
  induction text with
  | nil => exact .nil
  | cons c text ih =>
    rw [escape_latex_text, List.flatMap_cons]
    exact .char (escaped_replacement c) ih

theorem Renders.append {text output more out : List Char} (h : Renders text output)
    (hmore : Renders more out) : Renders (text ++ more) (output ++ out) := by
  induction h with
  | nil => exact hmore
  | char h hrest ih =>
    rw [List.cons_append, List.append_assoc]
    exact .char h ih
  | bold hmarks hinner hrest _ ih =>
    rw [List.append_assoc _ _ more, List.append_assoc _ _ out]
    exact .bold hmarks hinner ih
  | line_break hrest ih =>
    rw [List.cons_append, List.append_assoc]
    exact .line_break ih
  | paragraph hrest ih =>
    rw [List.cons_append, List.cons_append, List.append_assoc]
    exact .paragraph ih
  | image hrest ih =>
    rw [List.append_assoc _ _ more, List.append_assoc _ _ out]
    exact .image ih

theorem renders_textbf {opening inner closing : List Char}
    (hmarks : ∀ c ∈ opening ++ closing, c = '*' ∨ c = '_') :
    Renders (opening ++ inner ++ closing) (textbf inner) := by
  have h := Renders.bold hmarks (renders_escape inner) .nil
  rwa [List.append_nil, List.append_nil] at h

/-- Parts which are joined by a mark, where the mark is written as `written`. -/
theorem renders_intercalate {mark written : List Char} {render : List Char → List Char}
    (hmark : ∀ {text output}, Renders text output → Renders (mark ++ text) (written ++ output))
    (hrender : ∀ text, Renders text (render text)) (texts : List (List Char)) :
    Renders (mark.intercalate texts) (written.intercalate (texts.map render)) := by
  induction texts with
  | nil => exact .nil
  | cons text texts ih =>
    cases texts with
    | nil =>
      rw [List.map_cons, List.map_nil, List.intercalate_singleton, List.intercalate_singleton]
      exact hrender text
    | cons next texts =>
      rw [List.map_cons, List.map_cons, List.intercalate_cons_cons, List.intercalate_cons_cons,
        List.append_assoc, List.append_assoc]
      rw [List.map_cons] at ih
      exact (hrender text).append (hmark ih)

/-! ## What is written never shows an image -/

/-- A written text whose braces are balanced, and in which no command begins with an `i`. -/
structure Tame (output : List Char) : Prop where
  balanced : Balanced output
  no_image : output.IsChain fun a b => ¬(a = '\\' ∧ b = 'i')
  no_end : output.getLast? ≠ some '\\'

theorem tame_nil : Tame [] := ⟨fun _ => rfl, .nil, by decide⟩

theorem Tame.append {first second : List Char} (h : Tame first) (h' : Tame second) :
    Tame (first ++ second) := by
  refine ⟨fun n => ?_, ?_, ?_⟩
  · rw [List.foldlM_append, h.balanced n]
    exact h'.balanced n
  · rw [List.isChain_append]
    refine ⟨h.no_image, h'.no_image, ?_⟩
    rintro a ha b - ⟨rfl, -⟩
    exact h.no_end ha
  · rw [List.getLast?_append]
    cases hlast : second.getLast? with
    | none => exact h.no_end
    | some c =>
      have hend := h'.no_end
      rw [hlast] at hend
      exact hend

theorem tame_of_plain {c : Char} (h : c ∉ SPECIALS) : Tame [c] := by
  simp only [SPECIALS, List.mem_cons, List.not_mem_nil, or_false, not_or] at h
  obtain ⟨hslash, hopen, hclose, -⟩ := h
  refine ⟨fun n => ?_, .singleton c, ?_⟩
  · rw [List.foldlM_cons, brace_step, if_neg Bool.false_ne_true, if_neg hslash, if_neg hopen,
      if_neg hclose]
    rfl
  · rw [List.getLast?_singleton, ne_eq, Option.some.injEq]
    exact hslash

theorem tame_replacement (c : Char) : Tame (replacement c) := by
  have h := escaped_replacement c
  by_cases hspecial : c ∈ SPECIALS
  · simp only [SPECIALS, List.mem_cons, List.not_mem_nil, or_false] at hspecial
    rcases hspecial with rfl | rfl | rfl | rfl | rfl | rfl | rfl | rfl | rfl | rfl
    all_goals exact ⟨fun n => rfl, by decide, by decide⟩
  · rw [Escaped, if_neg hspecial] at h
    rw [h]
    exact tame_of_plain hspecial

theorem tame_escape (text : List Char) : Tame (escape_latex_text text) := by
  induction text with
  | nil => exact tame_nil
  | cons c text ih =>
    rw [escape_latex_text, List.flatMap_cons]
    exact (tame_replacement c).append ih

theorem brace_TEXTBF (n : Nat) : TEXTBF.foldlM brace_step (false, n) = some (false, n + 1) := by
  have hchars : TEXTBF = ['\\', 't', 'e', 'x', 't', 'b', 'f', '{'] := by decide
  rw [hchars]
  rfl

theorem tame_textbf (inner : List Char) : Tame (textbf inner) := by
  have h := tame_escape inner
  refine ⟨fun n => ?_, ?_, ?_⟩
  · rw [textbf, List.foldlM_append, List.foldlM_append, brace_TEXTBF, Option.bind_eq_bind,
      Option.bind_some, h.balanced]
    rfl
  · rw [textbf, List.isChain_append, List.isChain_append]
    refine ⟨⟨by decide, h.no_image, ?_⟩, .singleton _, ?_⟩
    · rintro a ha b - ⟨rfl, -⟩
      revert ha
      decide
    · rintro a - b hb ⟨-, rfl⟩
      revert hb
      decide
  · rw [textbf, List.getLast?_concat]
    decide

theorem tame_intercalate {written : List Char} {render : List Char → List Char}
    (hwritten : Tame written) (hrender : ∀ text, Tame (render text)) (texts : List (List Char)) :
    Tame (written.intercalate (texts.map render)) := by
  induction texts with
  | nil => exact tame_nil
  | cons text texts ih =>
    cases texts with
    | nil =>
      rw [List.map_cons, List.map_nil, List.intercalate_singleton]
      exact hrender text
    | cons next texts =>
      rw [List.map_cons, List.map_cons, List.intercalate_cons_cons]
      rw [List.map_cons] at ih
      exact ((hrender text).append hwritten).append ih

/-- What is tame has no command that shows an image. -/
theorem Tame.not_shows {output : List Char} (h : Tame output) (path : List Char) :
    ¬Shows path output := by
  rintro ⟨options, -, hinfix⟩
  have hcommand : ['\\', 'i'] <:+: output := by
    obtain ⟨before, after, hsplit⟩ := hinfix
    have hstart : ['\\', 'i'] <+: INCLUDEGRAPHICS := by decide
    obtain ⟨name, hname⟩ := hstart
    rw [← hname] at hsplit
    simp only [List.append_assoc] at hsplit
    exact ⟨before, _, by rw [List.append_assoc]; exact hsplit⟩
  have hpair := h.no_image.infix hcommand
  rw [List.isChain_pair] at hpair
  exact hpair ⟨rfl, rfl⟩

/-! ## Text between bold marks -/

theorem between_marks_iff {mark text : List Char} :
    between_marks mark text = true ↔ mark <+: text ∧ mark <:+ text := by
  rw [between_marks, Bool.and_eq_true, decide_eq_true_iff, decide_eq_true_iff]

/-- What is between two marks is bold. A text of two or three marks has nothing between them. -/
theorem renders_marked {c : Char} {text : List Char} (hc : c = '*' ∨ c = '_')
    (h : between_marks [c, c] text = true) : Renders text (textbf (without_marks text)) := by
  obtain ⟨⟨more, rfl⟩, ⟨before, hbefore⟩⟩ := between_marks_iff.mp h
  by_cases hlong : 2 ≤ more.length
  · have hsuffix : [c, c] <:+ more :=
      List.suffix_of_suffix_length_le ⟨before, hbefore⟩ (List.suffix_append _ _) hlong
    obtain ⟨inner, rfl⟩ := hsuffix
    have hinner : without_marks ([c, c] ++ (inner ++ [c, c])) = inner := by
      have hlength : ([c, c] ++ (inner ++ [c, c])).length - 2 = ([c, c] ++ inner).length := by
        simp only [List.length_append, List.length_cons, List.length_nil]
        omega
      rw [without_marks, hlength, ← List.append_assoc, List.take_left]
      rfl
    rw [hinner, ← List.append_assoc]
    refine renders_textbf fun d hd => ?_
    rcases List.mem_append.mp hd with hd | hd
    all_goals
      simp only [List.mem_cons, List.not_mem_nil, or_false, or_self] at hd
      rw [hd]
      exact hc
  · have hmarks : ∀ d ∈ [c, c] ++ more, d = c := by
      rcases more with _ | ⟨d, _ | ⟨e, more⟩⟩
      · simp
      · have hlast := congrArg List.getLast? hbefore
        rw [List.getLast?_append] at hlast
        cases hlast
        simp
      · exact absurd hlong (by simp)
    have hinner : without_marks ([c, c] ++ more) = [] := by
      rw [without_marks, List.drop_eq_nil_iff, List.length_take, List.length_append,
        List.length_cons, List.length_cons, List.length_nil]
      omega
    rw [hinner]
    have hrenders := @renders_textbf ([c, c] ++ more) [] [] fun d hd => by
      rw [List.append_nil] at hd
      rw [hmarks d hd]
      exact hc
    rwa [List.append_nil, List.append_nil] at hrenders

theorem renders_bold_part (bp : List Char) : Renders bp (bold_part bp) := by
  unfold bold_part
  split
  · rename_i h
    rcases Bool.or_eq_true_iff.mp h with h | h
    · exact renders_marked (.inl rfl) h
    · exact renders_marked (.inr rfl) h
  · exact renders_escape bp

theorem tame_bold_part (bp : List Char) : Tame (bold_part bp) := by
  unfold bold_part
  split
  · exact tame_textbf _
  · exact tame_escape bp

/-- The pieces of a split are written one after the other. -/
theorem renders_split {pattern : Pattern Unit} {render : Piece Unit → List Char}
    (hbetween : ∀ text, Renders text (render (.between text)))
    (hmatched : ∀ taken rest a, pattern (taken ++ rest) = some (a, taken.length) →
      Renders taken (render (.matched taken a)))
    {text : List Char} {pieces : List (Piece Unit)} (h : Split pattern text pieces) :
    Renders text (pieces.flatMap render) := by
  induction h with
  | last hfree =>
    rw [List.flatMap_cons, List.flatMap_nil, List.append_nil]
    exact hbetween _
  | more hbefore hne hmatch hrest ih =>
    rw [List.flatMap_cons, List.flatMap_cons]
    exact (hbetween _).append ((hmatched _ _ _ hmatch).append ih)

theorem tame_flatMap {α : Type} {render : α → List Char} (h : ∀ piece, Tame (render piece))
    (pieces : List α) : Tame (pieces.flatMap render) := by
  induction pieces with
  | nil => exact tame_nil
  | cons piece pieces ih =>
    rw [List.flatMap_cons]
    exact (h piece).append ih

theorem fits_BOLD : Fits BOLD :=
  fits_either (fits_after_literal _ (fits_lazily_dotall (fits_ends _)))
    (fits_after_literal _ (fits_lazily_dotall (fits_ends _)))

theorem fits_TOKEN : Fits TOKEN :=
  fits_either (fits_after_literal _ (fits_after_one (fits_lazily (fits_ends _))))
    (fits_after_literal _ (fits_after_one (fits_lazily (fits_ends _))))

theorem fits_MATH : Fits MATH :=
  fits_either (fits_after_literal _ (fits_lazily_dotall (fits_ends _)))
    (fits_after_literal _ (fits_lazily_dotall (fits_ends _)))

/-! ## The two ways to write a part -/

/-- An image that is not there changes nothing. -/
theorem renders_convert_part {part : List Char} (h : image_paths part = []) :
    Renders part (convert_part part) := by
  have hfree : Free IMAGE part := free_of_find (List.map_eq_nil_iff.mp h)
  rw [convert_part, sub_of_free hfree]
  exact renders_split (fun text => renders_bold_part text)
    (fun taken _ _ _ => renders_bold_part taken) (split_pieces fits_BOLD part)

theorem tame_convert_part (part : List Char) : Tame (convert_part part) := by
  unfold convert_part
  exact tame_flatMap (fun piece => tame_bold_part (Piece.text piece)) _

/-- What the loop over the tokens of a line writes for a piece. -/
def token_output : Piece Unit → List Char
  | .between text => escape_latex_text text
  | .matched token _ => textbf (without_marks token)

theorem escape_loop (line : List Char) (found : List (Match (List Char × Unit)))
    (state : Nat × List (List Char)) :
    let last := found.foldl (escape_step line) state
    last.2.flatten ++ escape_latex_text (line.drop last.1) =
      state.2.flatten ++ (cut_at line state.1 found).flatMap token_output := by
  induction found generalizing state with
  | nil =>
    rw [cut_at, List.flatMap_cons, List.flatMap_nil, List.append_nil]
    rfl
  | cons m found ih =>
    have hstep := ih (escape_step line state m)
    rw [List.foldl_cons]
    refine hstep.trans ?_
    have hpieces : (escape_step line state m).2.flatten = state.2.flatten ++
        (escape_latex_text ((line.take m.start).drop state.1) ++
          textbf (without_marks m.captured.1)) := by
      unfold escape_step
      dsimp only
      split
      · simp only [List.flatten_append, List.flatten_cons, List.flatten_nil, List.append_nil,
          List.append_assoc]
      · rename_i hstart
        have hnone : (line.take m.start).drop state.1 = [] := by
          rw [List.drop_eq_nil_iff, List.length_take]
          omega
        rw [hnone]
        simp only [List.flatten_append, List.flatten_cons, List.flatten_nil, List.append_nil]
        rfl
    rw [hpieces, cut_at, List.flatMap_cons, List.flatMap_cons]
    simp only [token_output, escape_step, List.append_assoc]

/-- The line is escaped as one text, or its tokens and the text between them are. -/
theorem escape_text_cases (line : List Char) :
    escape_text_with_markdown_bold line = escape_latex_text line ∨
      escape_text_with_markdown_bold line = (split TOKEN line).flatMap token_output := by
  have hloop := escape_loop line (finditer (with_text TOKEN) line) (0, [])
  unfold escape_text_with_markdown_bold
  generalize (finditer (with_text TOKEN) line).foldl (escape_step line) (0, []) = last at hloop ⊢
  obtain ⟨cursor, pieces⟩ := last
  dsimp only at hloop ⊢
  have hpieces : (if cursor < line.length then
      pieces ++ [escape_latex_text (line.drop cursor)] else pieces).flatten =
        (split TOKEN line).flatMap token_output := by
    rw [List.flatten_nil, List.nil_append] at hloop
    rw [split, ← hloop]
    split
    · rw [List.flatten_append, List.flatten_cons, List.flatten_nil, List.append_nil]
    · rename_i hend
      rw [List.drop_eq_nil_of_le (Nat.le_of_not_lt hend)]
      exact (List.append_nil _).symm
  rw [hpieces]
  by_cases hempty : (if cursor < line.length then
      pieces ++ [escape_latex_text (line.drop cursor)] else pieces).isEmpty = true
  · exact .inl (if_pos hempty)
  · exact .inr (if_neg hempty)

theorem marked_token {c : Char} {token rest : List Char} {a : Unit}
    (h : after_literal [c, c] (after_one (lazily (ends [c, c]))) (token ++ rest) =
      some (a, token.length)) : between_marks [c, c] token = true := by
  obtain ⟨more, rfl, hmore⟩ := after_literal_taken h
  have hne : more ≠ [] := by
    rintro rfl
    cases rest with
    | nil => cases hmore
    | cons d rest =>
      rw [List.nil_append, after_one] at hmore
      split at hmore
      · cases hmore
      · obtain ⟨⟨b, n⟩, -, heq⟩ := Option.map_eq_some_iff.mp hmore
        cases heq
  obtain ⟨d, more, rfl, hlast⟩ := after_one_taken hmore hne
  obtain ⟨middle, rfl⟩ := lazily_ends hlast
  refine between_marks_iff.mpr ⟨List.prefix_append _ _, [c, c] ++ (d :: middle), ?_⟩
  rw [List.append_assoc]
  rfl

theorem renders_escape_text (line : List Char) :
    Renders line (escape_text_with_markdown_bold line) := by
  rcases escape_text_cases line with h | h
  · rw [h]
    exact renders_escape line
  · rw [h]
    refine renders_split (fun text => renders_escape text) (fun taken rest a hmatch => ?_)
      (split_pieces fits_TOKEN line)
    rcases Option.or_eq_some_iff.mp hmatch with hstars | ⟨-, hlines⟩
    · exact renders_marked (.inl rfl) (marked_token hstars)
    · exact renders_marked (.inr rfl) (marked_token hlines)

theorem tame_escape_text (line : List Char) : Tame (escape_text_with_markdown_bold line) := by
  rcases escape_text_cases line with h | h
  · rw [h]
    exact tame_escape line
  · rw [h]
    refine tame_flatMap (fun piece => ?_) _
    cases piece with
    | between text => exact tame_escape text
    | matched token a => exact tame_textbf _

theorem normalized_of_not_mem {text : List Char} (h : '\r' ∉ text) : normalized text = text := by
  rw [normalized, replace_of_not_mem _ h, replace_of_not_mem _ h]

theorem renders_segment {value : List Char} (h : '\r' ∉ value) :
    Renders value (escape_text_segment_for_latex_body value) := by
  have hlines : ∀ paragraph, Renders paragraph (LINE_BREAK.intercalate
      ((str_split ['\n'] paragraph).map escape_text_with_markdown_bold)) := by
    intro paragraph
    have hjoined := @renders_intercalate ['\n'] LINE_BREAK _ .line_break renders_escape_text
      (str_split ['\n'] paragraph)
    rwa [str_split_join] at hjoined
  have hjoined := @renders_intercalate ['\n', '\n'] PARAGRAPH _ .paragraph hlines
    (str_split ['\n', '\n'] value)
  rw [str_split_join] at hjoined
  rw [escape_text_segment_for_latex_body, normalized_of_not_mem h]
  exact hjoined

theorem tame_segment (value : List Char) : Tame (escape_text_segment_for_latex_body value) := by
  have hbreak : Tame LINE_BREAK := ⟨fun n => rfl, by decide, by decide⟩
  have hparagraph : Tame PARAGRAPH := ⟨fun n => rfl, by decide, by decide⟩
  exact tame_intercalate hparagraph
    (fun paragraph => tame_intercalate hbreak tame_escape_text _) _

/-! ## Math -/

theorem is_math_iff {part : List Char} :
    is_math part = true ↔ ∃ middle, part = '$' :: middle ++ ['$'] := by
  simp only [is_math, Bool.or_eq_true, Bool.and_eq_true, decide_eq_true_iff, between_marks_iff]
  constructor
  · intro h
    have hmarks : ['$'] <+: part ∧ ['$'] <:+ part ∧ 2 ≤ part.length := by
      rcases h with ⟨⟨hstart, hend⟩, hlong⟩ | ⟨⟨hstart, hend⟩, hlong⟩
      · exact ⟨(List.prefix_append ['$'] ['$']).trans hstart,
          (List.suffix_append ['$'] ['$']).trans hend, by omega⟩
      · exact ⟨hstart, hend, hlong⟩
    obtain ⟨⟨more, rfl⟩, ⟨before, hbefore⟩, hlong⟩ := hmarks
    cases before with
    | nil =>
      have hlength := congrArg List.length hbefore
      simp only [List.length_append, List.length_cons, List.length_nil] at hlength hlong
      omega
    | cons c middle =>
      obtain ⟨rfl, -⟩ := List.cons.inj hbefore
      exact ⟨middle, hbefore.symm⟩
  · rintro ⟨middle, rfl⟩
    exact .inr ⟨⟨⟨middle ++ ['$'], rfl⟩, List.suffix_append _ _⟩,
      by simp only [List.length_append, List.length_cons]; omega⟩

theorem math_taken {taken rest : List Char} {a : Unit}
    (h : MATH (taken ++ rest) = some (a, taken.length)) : is_math taken = true := by
  rw [is_math_iff]
  rcases Option.or_eq_some_iff.mp h with hdouble | ⟨-, hsingle⟩
  · obtain ⟨more, rfl, hmore⟩ := after_literal_taken hdouble
    obtain ⟨middle, rfl⟩ := lazily_dotall_ends hmore
    exact ⟨'$' :: (middle ++ ['$']), by simp⟩
  · obtain ⟨more, rfl, hmore⟩ := after_literal_taken hsingle
    obtain ⟨middle, rfl⟩ := lazily_dotall_ends hmore
    exact ⟨middle, rfl⟩

/-- Between two spans of math there is at most one dollar. -/
theorem math_passes {before rest : List Char} (h : Passes MATH before rest) :
    is_math before = false := by
  rw [Bool.eq_false_iff, ne_eq, is_math_iff]
  rintro ⟨middle, rfl⟩
  have hno : ∀ a n, MATH ('$' :: middle ++ ['$'] ++ rest) ≠ some (a, n + 1) :=
    h [] _ rfl (List.cons_ne_nil _ _)
  have hlazy : (lazily_dotall (ends ['$']) (middle ++ ('$' :: rest))).isSome = true :=
    lazily_dotall_isSome middle (Option.isSome_iff_exists.mpr
      ⟨((), 1), ends_iff.mpr ⟨⟨rest, rfl⟩, rfl⟩⟩)
  obtain ⟨⟨a, m⟩, hfound⟩ := Option.isSome_iff_exists.mp hlazy
  have htext : '$' :: middle ++ ['$'] ++ rest = ['$'] ++ (middle ++ ('$' :: rest)) := by simp
  have hsingle : after_literal ['$'] (lazily_dotall (ends ['$'])) ('$' :: middle ++ ['$'] ++ rest)
      = some (a, m + 1) := after_literal_iff.mpr ⟨_, m, htext, hfound, Nat.add_comm _ _⟩
  cases hdouble : after_literal ['$', '$'] (lazily_dotall (ends ['$', '$']))
      ('$' :: middle ++ ['$'] ++ rest) with
  | none => exact hno a m (by rw [MATH, either, hdouble, Option.none_or, hsingle])
  | some found =>
    obtain ⟨b, n⟩ := found
    obtain ⟨_, k, -, -, rfl⟩ := after_literal_iff.mp hdouble
    refine hno b (k + 1) ?_
    rw [MATH, either, hdouble, Option.some_or, Nat.add_comm]
    rfl

/-- The test of the loop says which pieces the pattern took. -/
theorem is_math_piece {text : List Char} {pieces : List (Piece Unit)} (h : Split MATH text pieces) :
    ∀ piece ∈ pieces, is_math piece.text = piece.outside.isNone := by
  induction h with
  | last hfree =>
    intro piece hpiece
    rw [List.mem_singleton.mp hpiece]
    exact math_passes (passes_nil_iff.mpr hfree)
  | more hbefore hne hmatch hrest ih =>
    intro piece hpiece
    rcases List.mem_cons.mp hpiece with rfl | hpiece
    · exact math_passes hbefore
    · rcases List.mem_cons.mp hpiece with rfl | hpiece
      · exact math_taken hmatch
      · exact ih piece hpiece

theorem part_is_math {content : String} {part : Piece Unit} (h : part ∈ parts content) :
    is_math part.text = part.outside.isNone :=
  is_math_piece (split_pieces fits_MATH _) part (List.mem_filter.mp h).1

theorem part_without_return {content : String} {text : List Char}
    (h : Piece.between text ∈ parts content) : '\r' ∉ text := by
  have hcontent : '\r' ∉ normalized content.toList := not_mem_replace (by decide) _
  intro hmem
  rw [← (split_pieces fits_MATH (normalized content.toList)).flatten] at hcontent
  exact hcontent (List.mem_flatMap.mpr ⟨_, (List.mem_filter.mp h).1, hmem⟩)

/-! ## The law -/

/-- No text between the math of the content has a markdown image. -/
def NoImage (content : String) : Prop :=
  ∀ text, Piece.between text ∈ parts content → image_paths text = []

/-- A way to write the text between the math, by which no image is shown. -/
theorem safe_body_iff {content : String} {write : List Char → List Char}
    (hrenders : ∀ text, Piece.between text ∈ parts content → image_paths text = [] →
      Renders text (write text))
    (htame : ∀ text, Tame (write text)) :
    SafeBody content (render_parts write content) ↔ NoImage content := by
  rw [SafeBody, render_parts, List.forall₂_map_right_iff, List.forall₂_same]
  constructor
  · intro h text htext
    have hpart := h _ htext
    have hmath : is_math text = false := part_is_math htext
    rw [Piece.text, hmath, if_neg Bool.false_ne_true] at hpart
    obtain ⟨-, -, himages⟩ := hpart
    rw [List.eq_nil_iff_forall_not_mem]
    intro path hpath
    exact (htame text).not_shows path (himages path hpath)
  · intro h part hpart
    have hmath := part_is_math hpart
    cases part with
    | between text =>
      rw [hmath]
      refine ⟨hrenders text hpart (h text hpart), (htame text).balanced, fun path hpath => ?_⟩
      rw [h text hpart] at hpath
      cases hpath
    | matched math a =>
      rw [hmath]
      rfl

/-- LAW: the body is safe and keeps its images exactly when it has no image. The one function
writes the command of an image before it escapes the text, and the other knows no images. -/
theorem body_is_safe_without_images (content : String) :
    (SafeBody content (convert_rendered content) ↔ NoImage content) ∧
      (SafeBody content (coerce_rendered_parts content) ↔ NoImage content) :=
  ⟨safe_body_iff (fun _ _ => renders_convert_part) tame_convert_part,
    safe_body_iff (fun _ htext _ => renders_segment (part_without_return htext)) tame_segment⟩

/-- An image is not shown by either function. -/
theorem an_image_is_not_shown :
    ¬SafeBody "![chart](plots/chart.png)" (convert_rendered "![chart](plots/chart.png)") ∧
      ¬SafeBody "![chart](plots/chart.png)"
        (coerce_rendered_parts "![chart](plots/chart.png)") := by
  have hparts : parts "![chart](plots/chart.png)" =
      [.between "![chart](plots/chart.png)".toList] := rfl
  have hpaths : "plots/chart.png".toList ∈ image_paths "![chart](plots/chart.png)".toList := by
    decide
  constructor
  · intro h
    rw [SafeBody, convert_rendered, render_parts, hparts] at h
    obtain ⟨hpart, -⟩ := List.forall₂_cons.mp h
    exact (tame_convert_part _).not_shows _ (hpart.2.2 _ hpaths)
  · intro h
    rw [SafeBody, coerce_rendered_parts, render_parts, hparts] at h
    obtain ⟨hpart, -⟩ := List.forall₂_cons.mp h
    exact (tame_segment _).not_shows _ (hpart.2.2 _ hpaths)

end dr_boz.latex_body
