-- Law of what is shown of an answer of the model. `sanitize_reply` removes the
-- markup of tool calls, shell blocks and server paths from it, one regular
-- expression after another, and then cleans the spacing.
import DrBoz.InvoicePayloads
import DrBoz.Lib.Regexes

open regexes Regex cuts
open dr_boz.py (isSpace)
open dr_boz.invoice_payloads (Trimmed strip_trimmed)

namespace dr_boz.sanitized_replies

abbrev Text := List Char

/-! ## The expressions -/

/-- The characters that match `c` with the flag `IGNORECASE`. -/
def same_letter (c d : Char) : Bool :=
  d.toLower == c.toLower ||
    c.toLower == 'i' && (d == '\u0130' || d == '\u0131') ||
    c.toLower == 'k' && d == '\u212a' || c.toLower == 's' && d == '\u017f'

def ignoring_case (text : String) : Regex :=
  in_order (text.toList.map fun c => one (same_letter c))

/-- `.` with the flag `DOTALL` -/
def any (_ : Char) : Bool := true

def not_end (c : Char) : Bool := c != '>'

def not_space (c : Char) : Bool := !isSpace c

def not_in_line (c : Char) : Bool := c != '\n'

/-- `\s*` and `\s+` -/
def spaces : Regex := most isSpace

def space_between : Regex := some_of isSpace

/-- `^` with the flag `MULTILINE` -/
def line_start : Regex := edge fun prev _ => prev.all (· == '\n')

/-- `$` with the flag `MULTILINE` -/
def line_end : Regex := edge fun _ next => next.all (· == '\n')

def tool_call_tag : Regex :=
  in_order [ignoring_case "<tool_call", optional (seq space_between (most not_end)), lit '>']

def TOOL_CALL : Pass :=
  .removal (in_order [tool_call_tag, fewest any, ignoring_case "</tool_call>"])

def TOOL_CALL_CUT_OFF : Pass := .removal (in_order [tool_call_tag, most any, finish])

def BASH_FENCE : Pass :=
  .removal (in_order [ignoring_case "\x60\x60\x60bash\n", fewest any, exactly "\x60\x60\x60"])

def BASH_SPAN : Pass :=
  .removal (in_order [ignoring_case "\x60\x60 bash\n", fewest any, exactly "\x60"])

def JSON_INVOCATION : Pass :=
  .removal (in_order [lit '{', spaces, any_of [exactly "\"action\"", exactly "\"name\""], spaces,
    lit ':', spaces, exactly "\"", some_of (· != '\"'), exactly "\"", spaces, lit ',', spaces,
    any_of [exactly "\"action_input\"", exactly "\"arguments\"", exactly "\"code\""], spaces,
    lit ':', spaces, fewest any, lit '}'])

def FILE_CLAIM : Pass :=
  .removal (in_order [any_of [lit 'F', lit 'f'], exactly "ile", space_between,
    any_of [exactly "created", exactly "saved", exactly "generated", exactly "is"], space_between,
    any_of [exactly "at", exactly "in", exactly "to"], space_between, lit '/',
    any_of [exactly "home", exactly "tmp", exactly "var", exactly "opt", exactly "root"], lit '/',
    most not_space])

def _KNOWN_TOOL_NAMES : List String :=
  ["run_python", "calculator", "web_search", "pdf_generator", "image_generator", "send_file",
    "search_project", "search_project_queries", "list_project_files", "read_skill",
    "read_skill_file", "save_user_preference", "create_excel", "create_pdf", "create_docx",
    "generate_chart", "run_code", "execute", "bash", "terminal"]

def _KNOWN_TOOL_NAMES_RE : Regex := any_of (_KNOWN_TOOL_NAMES.map ignoring_case)

section
variable (is_word : Char → Bool)

/-- `\b` -/
def word_edge : Regex := edge fun prev next => prev.any is_word != next.any is_word

def opening_tag (name : Regex) : Regex :=
  in_order [lit '<', name, word_edge is_word, most not_end]

def element (name : Regex) : Regex :=
  in_order [opening_tag is_word name, lit '>', fewest any, exactly "</", name, lit '>']

def TOOL : Pass := .removal (element is_word (ignoring_case "tool"))

def SYSTEM_REMINDER : Pass := .removal (element is_word (ignoring_case "system-reminder"))

def BASH : Pass := .removal (element is_word (ignoring_case "bash"))

def SELF_CLOSING_TAG : Pass :=
  .removal (in_order [opening_tag is_word _KNOWN_TOOL_NAMES_RE, exactly "/>"])

def FULL_TAG : Pass := .removal (element is_word _KNOWN_TOOL_NAMES_RE)

def python : Regex := in_order [exactly "python", optional (lit '3')]

def PSEUDO_COMMAND : Pass :=
  .removal (in_order [line_start,
    any_of [
      in_order [exactly "cd", space_between, lit '/', some_of not_space, spaces, exactly "&&",
        spaces, python, space_between, some_of not_space],
      in_order [python, space_between, some_of not_space, exactly ".py", word_edge is_word,
        most not_in_line]],
    spaces, line_end])
end

def BLANK_LINES : Pass where
  pattern := at_least '\n' 3
  repl := ['\n', '\n']

def SPACES : Pass where
  pattern := at_least ' ' 2
  repl := [' ']

def invisible (c : Char) : Bool :=
  ['\u200b', '\u200c', '\u200d', '\u200e', '\u200f', '\ufeff'].contains c

def INVISIBLE : Pass := .removal (at_the_end invisible)

/-! ## The function -/

def strip (text : Text) : Text := (text.dropWhile isSpace).rdropWhile isSpace

/-- What is shown when nothing of the answer is left. -/
def no_answer : Text :=
  ("⚠️ مدل درخواست اجرای ابزار داد، اما پاسخ نهایی قابل نمایش تولید نکرد. " ++
    "لطفاً درخواست را دوباره بفرستید یا کمی محدودتر کنید.").toList

section
variable (is_word : Char → Bool)

def sanitize_reply (text : Text) (saw_tool_request : Bool) : Text :=
  let text := strip text
  if text = [] then text
  else
    -- only the second of the two is followed by a `strip`
    let text := TOOL_CALL.sub text
    let text := strip (TOOL_CALL_CUT_OFF.sub text)
    let text := strip ((TOOL is_word).sub text)
    let text := strip ((SYSTEM_REMINDER is_word).sub text)
    let text := strip ((BASH is_word).sub text)
    let text := strip (BASH_FENCE.sub text)
    let text := strip (BASH_SPAN.sub text)
    let text := strip (JSON_INVOCATION.sub text)
    let text := strip ((SELF_CLOSING_TAG is_word).sub text)
    let text := strip ((FULL_TAG is_word).sub text)
    let text := strip ((PSEUDO_COMMAND is_word).sub text)
    let text := strip (FILE_CLAIM.sub text)
    let text := strip (BLANK_LINES.sub text)
    let text := strip (SPACES.sub text)
    let text := strip (INVISIBLE.sub text)
    if saw_tool_request ∧ text.length < 40 then no_answer else text

/-! ## Its expressions as a list -/

/-- The constructs that are removed after the elements `tool_call`. -/
def later_constructs : List Pass :=
  [TOOL_CALL_CUT_OFF, TOOL is_word, SYSTEM_REMINDER is_word, BASH is_word, BASH_FENCE, BASH_SPAN,
    JSON_INVOCATION, SELF_CLOSING_TAG is_word, FULL_TAG is_word, PSEUDO_COMMAND is_word, FILE_CLAIM]

/-- The constructs that are removed. -/
def constructs : List Pass := TOOL_CALL :: later_constructs is_word

def spacing : List Pass := [BLANK_LINES, SPACES, INVISIBLE]

def stripped (passes : List Pass) : List (Cut Char) :=
  passes.flatMap fun p => [p.cut, Cut.trim isSpace]

def removals : List (Cut Char) := TOOL_CALL.cut :: stripped (later_constructs is_word)

def all_cuts : List (Cut Char) := Cut.trim isSpace :: removals is_word ++ stripped spacing

theorem trim_on_id (text : Text) : (Cut.trim isSpace).on id text = strip text := rfl

theorem run_stripped_nil (text : Text) : run (stripped []) id text = text := rfl

theorem run_stripped_cons (p : Pass) (passes : List Pass) (text : Text) :
    run (stripped (p :: passes)) id text = run (stripped passes) id (strip (p.sub text)) := by
  rw [stripped, List.flatMap_cons, run_append, run_cons, run_cons, p.cut_on_id, trim_on_id]
  rfl

theorem run_all_cuts (text : Text) :
    run (all_cuts is_word) id text =
      run (stripped spacing) id
        (run (stripped (later_constructs is_word)) id (TOOL_CALL.sub (strip text))) := by
  rw [all_cuts, run_append, run_cons, removals, run_cons, TOOL_CALL.cut_on_id, trim_on_id]

theorem sanitize_reply_eq (text : Text) :
    sanitize_reply is_word text false = run (all_cuts is_word) id text := by
  by_cases h : strip text = []
  · rw [sanitize_reply, if_pos h, run_all_cuts, h]
    have hnil : TOOL_CALL.sub [] = [] := rfl
    rw [hnil, ← run_append]
    exact (List.sublist_nil.mp (run_sublist _ id [])).symm
  · rw [sanitize_reply, if_neg h, run_all_cuts]
    simp only [later_constructs, spacing, run_stripped_cons, run_stripped_nil,
      Bool.false_eq_true, false_and, if_false]
end

/-! ## Trimmed texts -/

theorem strip_eq (text : Text) : strip text = (py.strip (String.ofList text)).toList := by
  rw [py.strip, String.toList_ofList, String.toList_ofList]
  rfl

theorem trimmed_strip (text : Text) : Trimmed (strip text) := by
  rw [strip_eq]
  exact invoice_payloads.trimmed_strip _

theorem strip_of_trimmed {text : Text} (h : Trimmed text) : strip text = text := by
  rw [← String.toList_ofList (l := text)] at h
  rw [strip_eq, strip_trimmed h, String.toList_ofList]

theorem trimmed_squeezed {text : Text} {c : Char} {k : Nat} (hc : isSpace c = true) (hk : 0 < k)
    (h : Trimmed text) : Trimmed (squeezed c k text) := by
  refine ⟨fun d hd => h.head d (squeezed_head? hk text ▸ hd), fun d hd => ?_⟩
  rcases List.eq_nil_or_concat' text with rfl | ⟨start, e, rfl⟩
  · cases hd
  · have he := h.last e List.getLast?_concat
    have hne : e ≠ c := fun hec => by
      rw [hec, hc] at he
      cases he
    rw [squeezed, squeezed_from_concat hne, List.getLast?_concat] at hd
    exact Option.some.inj hd ▸ he

section
variable {is_word : Char → Bool}

theorem trimmed_run_stripped (passes : List Pass) {text : Text} (h : Trimmed text) :
    Trimmed (run (stripped passes) id text) := by
  induction passes generalizing text with
  | nil => exact h
  | cons p passes ih =>
    rw [run_stripped_cons]
    exact ih (trimmed_strip _)

theorem trimmed_sanitize_reply (text : Text) : Trimmed (sanitize_reply is_word text false) := by
  rw [sanitize_reply_eq, run_all_cuts, spacing, run_stripped_cons]
  exact trimmed_run_stripped _ (trimmed_strip _)

/-! ## Texts that stay -/

theorem stripped_fix_iff {text : Text} (htrimmed : Trimmed text) (passes : List Pass) :
    (∀ c ∈ stripped passes, c.on id text = text) ↔
      ∀ p ∈ passes, p.pattern.found text = false := by
  constructor
  · intro h p hp
    have hcut := h p.cut (List.mem_flatMap.mpr ⟨p, hp, by simp⟩)
    rw [p.cut_on_id] at hcut
    exact p.sub_eq_self_iff.mp hcut
  · intro h c hc
    obtain ⟨p, hp, hc⟩ := List.mem_flatMap.mp hc
    rcases List.mem_cons.mp hc with rfl | hc
    · rw [p.cut_on_id]
      exact p.sub_eq_self_iff.mpr (h p hp)
    · rw [List.mem_singleton.mp hc]
      exact strip_of_trimmed htrimmed

theorem removals_fix_iff {text : Text} (htrimmed : Trimmed text) :
    (∀ c ∈ removals is_word, c.on id text = text) ↔
      ∀ p ∈ constructs is_word, p.pattern.found text = false := by
  rw [removals, constructs, List.forall_mem_cons, List.forall_mem_cons,
    stripped_fix_iff htrimmed, TOOL_CALL.cut_on_id, Pass.sub_eq_self_iff]

/-- A second call leaves an answer as it is when nothing is found in it. -/
theorem sanitize_reply_fixed_iff {text : Text} (htrimmed : Trimmed text) :
    sanitize_reply is_word text false = text ↔
      ∀ p ∈ constructs is_word ++ spacing, p.pattern.found text = false := by
  rw [sanitize_reply_eq, run_eq_self_iff, all_cuts, List.forall_mem_append, List.forall_mem_cons,
    removals_fix_iff htrimmed, stripped_fix_iff htrimmed, List.forall_mem_append]
  exact ⟨fun h => ⟨h.1.2, h.2⟩, fun h => ⟨⟨strip_of_trimmed htrimmed, h.1⟩, h.2⟩⟩

/-- A text with none of the constructs in it only has its spacing cleaned. -/
theorem sanitize_reply_of_clean {text : Text}
    (hclean : ∀ p ∈ constructs is_word, p.pattern.found (strip text) = false) :
    sanitize_reply is_word text false =
      strip ((squeezed ' ' 1 (squeezed '\n' 2 (strip text))).rdropWhile invisible) := by
  have htrimmed := trimmed_strip text
  have hremovals := run_eq_self_iff.mpr ((removals_fix_iff htrimmed).mpr hclean)
  rw [removals, run_cons, TOOL_CALL.cut_on_id] at hremovals
  have hlines : Trimmed (squeezed '\n' 2 (strip text)) :=
    trimmed_squeezed (by decide) (by decide) htrimmed
  have hspaces : Trimmed (squeezed ' ' 1 (squeezed '\n' 2 (strip text))) :=
    trimmed_squeezed (by decide) (by decide) hlines
  have hlast : (squeezed ' ' 1 (squeezed '\n' 2 (strip text))).getLast? ≠ some '\n' :=
    fun h => absurd (hspaces.last '\n' h) (by decide)
  rw [sanitize_reply_eq, run_all_cuts, hremovals, spacing, run_stripped_cons, run_stripped_cons,
    run_stripped_cons, run_stripped_nil,
    sub_at_least (p := BLANK_LINES) (c := '\n') (k := 2) rfl rfl, strip_of_trimmed hlines,
    sub_at_least (p := SPACES) (c := ' ') (k := 1) rfl rfl, strip_of_trimmed hspaces]
  exact congrArg strip (sub_from_at_the_end (p := INVISIBLE) (q := invisible) rfl rfl hlast none)
end

/-! ## Places in the text -/

section
variable (is_word : Char → Bool)

/-- The letters that `sanitize_reply` leaves, with their places in the text. -/
def marked_reply (text : Text) : List (Char × Nat) :=
  run (all_cuts is_word) Prod.fst text.zipIdx

/-- The constructs that begin and end with a character of their own: the elements of tool
calls and reminders, the shell blocks, and the invocations in JSON. -/
def elements : List Pass :=
  [TOOL_CALL, TOOL is_word, SYSTEM_REMINDER is_word, BASH is_word, SELF_CLOSING_TAG is_word,
    FULL_TAG is_word, JSON_INVOCATION, BASH_FENCE, BASH_SPAN]
end

section
variable {is_word : Char → Bool}

theorem marked_reply_letters (text : Text) :
    (marked_reply is_word text).map Prod.fst = sanitize_reply is_word text false := by
  rw [marked_reply, run_natural, List.zipIdx_map_fst, sanitize_reply_eq]

theorem element_is_removed {p : Pass} (hp : p ∈ elements is_word) :
    p ∈ constructs is_word ∧ p.repl = [] ∧ p.pattern.starts = true ∧ p.pattern.ends = true := by
  simp only [elements, List.mem_cons, List.not_mem_nil, or_false] at hp
  rcases hp with rfl | rfl | rfl | rfl | rfl | rfl | rfl | rfl | rfl <;>
    exact ⟨by simp [constructs, later_constructs], rfl, rfl, rfl⟩

theorem cut_mem_all_cuts {p : Pass} (hp : p ∈ constructs is_word) : p.cut ∈ all_cuts is_word := by
  refine List.mem_append_left _ (List.mem_cons_of_mem _ ?_)
  rcases List.mem_cons.mp hp with rfl | hp
  · exact List.mem_cons_self
  · exact List.mem_cons_of_mem _ (List.mem_flatMap.mpr ⟨p, hp, List.mem_cons_self⟩)

/-- An element of the answer was joined by what was removed inside it. -/
theorem element_is_joined {text : Text} {p : Pass} (hp : p ∈ elements is_word)
    {m : List (Char × Nat)} (hm : m <:+: marked_reply is_word text)
    (hwhole : p.pattern.Whole (m.map Prod.fst)) : ¬ SideBySide m := by
  obtain ⟨hconstruct, hrepl, hstarts, hends⟩ := element_is_removed hp
  have hne : m ≠ [] := fun h => hwhole.ne_nil hends (h ▸ rfl)
  exact not_side_by_side (cut_mem_all_cuts hconstruct) (p.cut_breaks hrepl hstarts hends) hm hne
    hwhole

/-- As many calls as the text has letters leave a text that further calls do not change, and
nothing is found in it. -/
theorem calls_come_to_rest (text : Text) :
    ∀ p ∈ constructs is_word ++ spacing,
      p.pattern.found ((fun t => sanitize_reply is_word t false)^[text.length] text) = false := by
  have hcalls : (fun t => sanitize_reply is_word t false) = run (all_cuts is_word) id :=
    funext (sanitize_reply_eq is_word)
  have hrest := iterate_run_rests (all_cuts is_word) id text.length text le_rfl
  rw [← hcalls] at hrest
  refine (sanitize_reply_fixed_iff ?_).mp hrest
  rw [← hrest]
  exact trimmed_sanitize_reply _

theorem calls_come_to_rest_open_tag :
    TOOL_CALL.pattern.found ((fun t => sanitize_reply (·.isAlphanum) t false)^[2] ['<', 'b']) =
      false :=
  calls_come_to_rest ['<', 'b'] _ List.mem_cons_self
end

/-! ## The law -/

/-- LAW: `sanitize_reply` only leaves letters out, and none of the elements and invocations
that it removes stays in one piece: one that is in the answer was joined from letters that
did not stand side by side in the text. A second call changes nothing exactly when no
expression finds anything in the answer, and then no element is in it. A text with none of
the constructs in it keeps all but the blanks around it, the third and later of newlines in
a row, the second and later of spaces in a row, and the invisible characters at its end. -/
theorem only_joined_elements_stay (is_word : Char → Bool) (text : Text) :
    (marked_reply is_word text).map Prod.fst = sanitize_reply is_word text false ∧
    (marked_reply is_word text).Sublist text.zipIdx ∧
    (∀ p ∈ elements is_word, ∀ m, m <:+: marked_reply is_word text →
      p.pattern.Whole (m.map Prod.fst) → ¬ SideBySide m) ∧
    (sanitize_reply is_word (sanitize_reply is_word text false) false =
        sanitize_reply is_word text false ↔
      ∀ p ∈ constructs is_word ++ spacing,
        p.pattern.found (sanitize_reply is_word text false) = false) ∧
    (sanitize_reply is_word (sanitize_reply is_word text false) false =
        sanitize_reply is_word text false →
      ∀ p ∈ elements is_word, ∀ m, m <:+: sanitize_reply is_word text false →
        ¬ p.pattern.Whole m) ∧
    ((∀ p ∈ constructs is_word, p.pattern.found (strip text) = false) →
      sanitize_reply is_word text false =
        strip ((squeezed ' ' 1 (squeezed '\n' 2 (strip text))).rdropWhile invisible)) := by
  have htrimmed : Trimmed (sanitize_reply is_word text false) := trimmed_sanitize_reply text
  refine ⟨marked_reply_letters text, run_sublist _ _ _, fun p hp m hm hwhole =>
    element_is_joined hp hm hwhole, sanitize_reply_fixed_iff htrimmed, fun h p hp m hm => ?_,
    sanitize_reply_of_clean⟩
  obtain ⟨hconstruct, -, hstarts, hends⟩ := element_is_removed hp
  have hfound := (sanitize_reply_fixed_iff htrimmed).mp h p (List.mem_append_left _ hconstruct)
  exact not_whole_of_not_found hstarts hends hfound hm

/-- The word characters of ASCII. -/
def ascii_word (c : Char) : Bool := c.isAlphanum || c == '_'

/-- Two spaces in plain text become one, and what stands around an element can be joined to
one, which stays until a second call. -/
theorem a_text_loses_a_space_and_gains_an_element :
    ((∀ p ∈ constructs ascii_word, p.pattern.found (strip "a  b".toList) = false) ∧
      sanitize_reply ascii_word "a  b".toList false ≠ strip "a  b".toList) ∧
    (TOOL ascii_word).pattern.Whole
      (sanitize_reply ascii_word "<to<tool>x</tool>ol>y</tool>".toList false) ∧
    sanitize_reply ascii_word
        (sanitize_reply ascii_word "<to<tool>x</tool>ol>y</tool>".toList false) false ≠
      sanitize_reply ascii_word "<to<tool>x</tool>ol>y</tool>".toList false := by
  exact ⟨⟨by decide +kernel, by decide +kernel⟩, ⟨some '>', by decide +kernel⟩,
    by decide +kernel⟩

end dr_boz.sanitized_replies
