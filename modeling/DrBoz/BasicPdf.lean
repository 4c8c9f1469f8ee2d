-- Law of the plain PDF: `_build_basic_pdf_bytes` wraps a text, lays it out on
-- pages, and writes the objects and the table of their places by hand. A text
-- is any list of code points.
import DrBoz.AppServer
import DrBoz.Lib.Pieces

open pieces
open dr_boz.app_server (PyText text)

namespace dr_boz.basic_pdf

/-! ## The page -/

def PDF_FALLBACK_PAGE_WIDTH : Nat := 595
def PDF_FALLBACK_PAGE_HEIGHT : Nat := 842
def PDF_FALLBACK_MARGIN_X : Nat := 50
def PDF_FALLBACK_MARGIN_Y : Nat := 50
def PDF_FALLBACK_FONT_SIZE : Nat := 12
def PDF_FALLBACK_LINE_HEIGHT : Nat := 16

def lines_per_page : Nat :=
  max 1 ((PDF_FALLBACK_PAGE_HEIGHT - 2 * PDF_FALLBACK_MARGIN_Y) / PDF_FALLBACK_LINE_HEIGHT)

/-- A character is half as wide as the font is high. -/
def max_chars : Nat :=
  max 20 ((PDF_FALLBACK_PAGE_WIDTH - 2 * PDF_FALLBACK_MARGIN_X) * 2 / PDF_FALLBACK_FONT_SIZE)

/-! ## Lines -/

def BACKSLASH : Nat := 92
def OPEN : Nat := 40
def CLOSE : Nat := 41
def QUESTION_MARK : Nat := 63
def SPACE : Nat := 32
def NEWLINE : Nat := 10
def RETURN : Nat := 13

/-- A printable character of ASCII, a space among them. -/
def printable (c : Nat) : Bool := decide (32 ≤ c ∧ c ≤ 126)

/-- `value.replace(c, "\\" + c)` -/
def escape (c : Nat) (value : PyText) : PyText :=
  value.flatMap fun d => if d = c then [BACKSLASH, d] else [d]

def _escape_pdf_literal (value : PyText) : PyText :=
  (escape CLOSE (escape OPEN (escape BACKSLASH value))).map fun c =>
    if printable c then c else QUESTION_MARK

/-- The words are put into lines; `current` is the line that is being filled. -/
def wrap_words (max_chars : Nat) (chunks : List PyText) (current : PyText) :
    List PyText → List PyText
  | [] => if current ≠ [] ∨ chunks = [] then chunks ++ [current] else chunks
  | word :: words =>
    let candidate := if current = [] then word else current ++ SPACE :: word
    if candidate.length ≤ max_chars then wrap_words max_chars chunks candidate words
    else
      let chunks := if current = [] then chunks else chunks ++ [current]
      if word.length ≤ max_chars then wrap_words max_chars chunks word words
      else wrap_words max_chars (chunks ++ slices max_chars word) [] words

def _wrap_pdf_text_line (line : PyText) (max_chars : Nat) : List PyText :=
  if line = [] then [[]] else wrap_words max_chars [] [] (line.splitOn SPACE)

/-- `text.replace("\r\n", "\n")` -/
def replace_pairs : PyText → PyText
  | [] => []
  | [c] => [c]
  | c :: d :: rest =>
    if c = RETURN ∧ d = NEWLINE then NEWLINE :: replace_pairs rest
    else c :: replace_pairs (d :: rest)

def raw_lines (text : PyText) : List PyText :=
  ((replace_pairs text).map fun c => if c = RETURN then NEWLINE else c).splitOn NEWLINE

def wrapped_lines (text : PyText) : List PyText :=
  let lines := (raw_lines text).flatMap fun line => _wrap_pdf_text_line line max_chars
  if lines = [] then [[]] else lines

def pages (text : PyText) : List (List PyText) := slices lines_per_page (wrapped_lines text)

/-! ## Objects -/

abbrev Bytes := List UInt8

def ascii (s : String) : Bytes := s.toList.map fun c => UInt8.ofNat c.toNat

/-- `str(n).encode("ascii")` -/
def number (n : Nat) : Bytes := ascii (toString n)

/-- `text.encode("latin-1", errors="replace")` -/
def latin1 (t : PyText) : Bytes := t.map fun c => UInt8.ofNat (if c < 256 then c else QUESTION_MARK)

/-- `"\n".join(lines) + "\n"` -/
def joined (lines : List PyText) : PyText := lines.flatMap (· ++ [NEWLINE])

def line_commands (i : Nat) (line : PyText) : List PyText :=
  (if 0 < i then [text s!"0 -{PDF_FALLBACK_LINE_HEIGHT} Td"] else []) ++
    [text "(" ++ _escape_pdf_literal line ++ text ") Tj"]

def stream_lines (page_lines : List PyText) : List PyText :=
  [text "BT", text s!"/F1 {PDF_FALLBACK_FONT_SIZE} Tf",
    text s!"{PDF_FALLBACK_MARGIN_X} {PDF_FALLBACK_PAGE_HEIGHT - PDF_FALLBACK_MARGIN_Y} Td"] ++
  (page_lines.zipIdx.flatMap fun x => line_commands x.2 x.1) ++ [text "ET"]

def stream_bytes (page_lines : List PyText) : Bytes := latin1 (joined (stream_lines page_lines))

def content_object (stream_bytes : Bytes) : Bytes :=
  ascii "<< /Length " ++ number stream_bytes.length ++ ascii " >>\nstream\n" ++ stream_bytes ++
    ascii "endstream"

def pages_object (kids : List Nat) : Bytes :=
  ascii "<< /Type /Pages /Kids [" ++
    [UInt8.ofNat SPACE].intercalate (kids.map fun page_id => number page_id ++ ascii " 0 R") ++
    ascii "] /Count " ++ number kids.length ++ ascii " >>"

def page_object (font_object_index content_id : Nat) : Bytes :=
  ascii "<< /Type /Page /Parent 2 0 R /MediaBox [0 0 " ++ number PDF_FALLBACK_PAGE_WIDTH ++
    ascii " " ++ number PDF_FALLBACK_PAGE_HEIGHT ++ ascii "] /Resources << /Font << /F1 " ++
    number font_object_index ++ ascii " 0 R >> >> /Contents " ++ number content_id ++
    ascii " 0 R >>"

/-- The objects so far, and the numbers of those that were put in last. -/
structure Objects where
  objects : List Bytes
  indexes : List Nat

def Objects.append (o : Objects) (object : Bytes) : Objects :=
  ⟨o.objects ++ [object], o.indexes ++ [o.objects.length + 1]⟩

def CATALOG : Bytes := ascii "<< /Type /Catalog /Pages 2 0 R >>"
def FONT : Bytes := ascii "<< /Type /Font /Subtype /Type1 /BaseFont /Helvetica >>"

def objects_of (pages : List (List PyText)) : List Bytes :=
  let reserved := (pages.map fun _ => []).foldl Objects.append ⟨[CATALOG, []], []⟩
  let contents := (pages.map fun page_lines => content_object (stream_bytes page_lines)).foldl
    Objects.append ⟨reserved.objects, []⟩
  let font_object_index := contents.objects.length + 1
  let objects := (contents.objects ++ [FONT]).set 1 (pages_object reserved.indexes)
  (reserved.indexes.zip contents.indexes).foldl
    (fun objects x => objects.set (x.1 - 1) (page_object font_object_index x.2)) objects

/-! ## The file -/

def HEADER : Bytes := ascii "%PDF-1.4\n%" ++ [0xE2, 0xE3, 0xCF, 0xD3] ++ ascii "\n"

def indirect (index : Nat) (object : Bytes) : Bytes :=
  number index ++ ascii " 0 obj\n" ++ object ++ ascii "\nendobj\n"

/-- The output so far, and the places of the objects in it. -/
structure Output where
  output : Bytes
  offsets : List Nat

def Output.write (o : Output) (x : Bytes × Nat) : Output :=
  ⟨o.output ++ indirect x.2 x.1, o.offsets ++ [o.output.length]⟩

/-- `f"{offset:010d}"` -/
def ten_digits (offset : Nat) : Bytes :=
  List.replicate (10 - (number offset).length) (UInt8.ofNat '0'.toNat) ++ number offset

def xref (size : Nat) (offsets : List Nat) : Bytes :=
  ascii "xref\n0 " ++ number size ++ ascii "\n" ++ ascii "0000000000 65535 f \n" ++
    offsets.flatMap fun offset => ten_digits offset ++ ascii " 00000 n \n"

def trailer (size xref_pos : Nat) : Bytes :=
  ascii "trailer\n<< /Size " ++ number size ++ ascii " /Root 1 0 R >>\nstartxref\n" ++
    number xref_pos ++ ascii "\n%%EOF\n"

def _build_basic_pdf_bytes (text : PyText) : Bytes :=
  let objects := objects_of (pages text)
  let written := (objects.zipIdx 1).foldl Output.write ⟨HEADER, []⟩
  let xref_pos := written.output.length
  written.output ++ xref (objects.length + 1) written.offsets ++
    trailer (objects.length + 1) xref_pos

/-! ## What a PDF is -/

/-- The kinds of objects, with the numbers of the objects they point to. -/
inductive Object where
  | catalog (root : Nat)
  | pages (kids : List Nat) (count : Nat)
  | page (parent contents f1 : Nat)
  | content (length : Nat) (stream : Bytes)
  | font

def Object.bytes : Object → Bytes
  | .catalog root => ascii "<< /Type /Catalog /Pages " ++ number root ++ ascii " 0 R >>"
  | .pages kids count =>
    ascii "<< /Type /Pages /Kids [" ++
      [UInt8.ofNat SPACE].intercalate (kids.map fun kid => number kid ++ ascii " 0 R") ++
      ascii "] /Count " ++ number count ++ ascii " >>"
  | .page parent contents f1 =>
    ascii "<< /Type /Page /Parent " ++ number parent ++ ascii " 0 R /MediaBox [0 0 595 842]" ++
      ascii " /Resources << /Font << /F1 " ++ number f1 ++ ascii " 0 R >> >> /Contents " ++
      number contents ++ ascii " 0 R >>"
  | .content length stream =>
    ascii "<< /Length " ++ number length ++ ascii " >>\nstream\n" ++ stream ++ ascii "endstream"
  | .font => ascii "<< /Type /Font /Subtype /Type1 /BaseFont /Helvetica >>"

/-- The strings of a stream, if their parentheses are balanced: a backslash makes a parenthesis
or a backslash a plain character. `state` is the depth in a string and what was read of it. -/
def literals_from : Option (Nat × Bytes) → Bytes → Option (List Bytes)
  | none, [] => some []
  | some _, [] => none
  | none, c :: rest =>
    if c = UInt8.ofNat OPEN then literals_from (some (0, [])) rest
    else if c = UInt8.ofNat CLOSE then none
    else literals_from none rest
  | some (depth, shown), c :: rest =>
    if c = UInt8.ofNat BACKSLASH then
      match rest with
      | [] => none
      | d :: rest =>
        if d = UInt8.ofNat BACKSLASH ∨ d = UInt8.ofNat OPEN ∨ d = UInt8.ofNat CLOSE then
          literals_from (some (depth, shown ++ [d])) rest
        else none
    else if c = UInt8.ofNat OPEN then literals_from (some (depth + 1, shown ++ [c])) rest
    else if c = UInt8.ofNat CLOSE then
      match depth with
      | 0 => (literals_from none rest).map (shown :: ·)
      | depth + 1 => literals_from (some (depth, shown ++ [c])) rest
    else literals_from (some (depth, shown ++ [c])) rest

def literals (stream : Bytes) : Option (List Bytes) := literals_from none stream

/-- The file is its objects, each on a line of its own at the place that the table gives, the
table at the place that is given at the end, and the number of the objects plus one. -/
structure Skeleton (pdf : Bytes) (objects : List Object) (offsets : List Nat)
    (startxref : Nat) : Prop where
  entries : offsets.length = objects.length
  at_their_places : ∀ i object, objects[i]? = some object →
    ∃ before after, pdf = before ++ ascii "\n" ++ indirect (i + 1) object.bytes ++ after ∧
      offsets[i]? = some (before ++ ascii "\n").length
  table : ∃ body, pdf = body ++ xref (objects.length + 1) offsets ++
    trailer (objects.length + 1) startxref ∧ body.length = startxref

/-- The object with a number. -/
def numbered (objects : List Object) (n : Nat) : Option Object :=
  if n = 0 then none else objects[n - 1]?

/-- The objects are the tree of a document whose pages have these streams. -/
structure Tree (objects : List Object) (kids : List Nat) (streams : List Bytes) : Prop where
  root : numbered objects 1 = some (.catalog 2)
  pages : numbered objects 2 = some (.pages kids kids.length)
  page : ∀ (i kid : Nat), kids[i]? = some kid → ∃ contents f1 stream,
    numbered objects kid = some (.page 2 contents f1) ∧ streams[i]? = some stream ∧
    numbered objects contents = some (.content stream.length stream) ∧
    numbered objects f1 = some .font
  streams : streams.length = kids.length
  lengths : ∀ length stream, .content length stream ∈ objects → length = stream.length

/-- A printable character of ASCII that is no space. -/
def visible (c : Nat) : Bool := decide (33 ≤ c ∧ c ≤ 126)

/-- The strings of the pages are balanced, and the lines in them have all visible characters of
the text, in its order. -/
structure Shows (streams : List Bytes) (lines : List (List Bytes)) (text : PyText) : Prop where
  balanced : streams.map literals = lines.map some
  shown : ((text.filter visible).map UInt8.ofNat).Sublist lines.flatten.flatten

/-! ## Lines of a text -/

theorem flatten_filter_splitOn (l : PyText) {sep : Nat} (h : visible sep = false) :
    (l.splitOn sep).flatten.filter visible = l.filter visible := by
  have hjoin : ∀ parts : List PyText,
      ([sep].intercalate parts).filter visible = parts.flatten.filter visible := by
    intro parts
    induction parts with
    | nil => rfl
    | cons part rest ih =>
      cases rest with
      | nil => simp
      | cons next rest =>
        rw [List.intercalate_cons_cons, List.filter_append, List.filter_append, ih,
          List.filter_cons_of_neg (by simp [h]), List.filter_nil, List.append_nil,
          List.flatten_cons (l := part), List.filter_append]
  rw [← hjoin, List.intercalate_splitOn]

theorem wrap_words_filter {max_chars : Nat} (hmax : 0 < max_chars) (words : List PyText)
    (chunks : List PyText) (current : PyText) :
    (wrap_words max_chars chunks current words).flatten.filter visible =
      (chunks.flatten ++ current ++ words.flatten).filter visible := by
  have hspace : visible SPACE = false := rfl
  induction words generalizing chunks current with
  | nil =>
    rw [wrap_words]
    split
    · simp
    · rename_i hnot
      rw [not_or, not_not] at hnot
      simp [hnot.1]
  | cons word words ih =>
    rw [wrap_words]
    by_cases hcurrent : current = []
    · simp only [hcurrent, if_true]
      split
      · rw [ih]
        simp
      · rw [ih, List.flatten_append, slices_flatten hmax]
        simp
    · simp only [hcurrent, if_false]
      split
      · rw [ih]
        simp [hspace]
      · split
        · rw [ih]
          simp
        · rw [ih, List.flatten_append, slices_flatten hmax]
          simp

theorem wrap_line_filter {max_chars : Nat} (hmax : 0 < max_chars) (line : PyText) :
    (_wrap_pdf_text_line line max_chars).flatten.filter visible = line.filter visible := by
  unfold _wrap_pdf_text_line
  split
  · rename_i hline
    rw [hline]
    rfl
  · rw [wrap_words_filter hmax, List.flatten_nil, List.nil_append, List.nil_append,
      flatten_filter_splitOn line rfl]

theorem replace_pairs_filter (t : PyText) :
    (replace_pairs t).filter visible = t.filter visible := by
  induction t using replace_pairs.induct with
  | case1 => rfl
  | case2 c => rfl
  | case3 c d rest h ih =>
    rw [replace_pairs, if_pos h, h.1, h.2, List.filter_cons_of_neg (by decide), ih,
      List.filter_cons_of_neg (by decide), List.filter_cons_of_neg (by decide)]
  | case4 c d rest h ih =>
    rw [replace_pairs, if_neg h, List.filter_cons, ih, List.filter_cons (x := c)]

theorem raw_lines_filter (t : PyText) :
    (raw_lines t).flatten.filter visible = t.filter visible := by
  unfold raw_lines
  rw [flatten_filter_splitOn _ rfl, ← replace_pairs_filter t]
  generalize replace_pairs t = l
  induction l with
  | nil => rfl
  | cons c rest ih =>
    rw [List.map_cons, List.filter_cons, List.filter_cons, ih]
    by_cases hreturn : c = RETURN
    · rw [if_pos hreturn, hreturn]
      rfl
    · rw [if_neg hreturn]

/-- The pages have all visible characters of the text. -/
theorem pages_filter (t : PyText) :
    (pages t).flatten.flatten.filter visible = t.filter visible := by
  have hwrapped : (wrapped_lines t).flatten.filter visible = t.filter visible := by
    have hflat : ((raw_lines t).flatMap fun line =>
        _wrap_pdf_text_line line max_chars).flatten.filter visible = t.filter visible := by
      rw [← raw_lines_filter t]
      generalize raw_lines t = lines
      induction lines with
      | nil => rfl
      | cons line rest ih =>
        rw [List.flatMap_cons, List.flatten_append, List.filter_append, ih,
          wrap_line_filter (by decide), List.flatten_cons, List.filter_append]
    unfold wrapped_lines
    dsimp only
    split
    · rename_i hempty
      rw [hempty] at hflat
      exact hflat
    · exact hflat
  unfold pages
  rw [slices_flatten (by decide), hwrapped]

/-! ## Strings in a stream -/

/-- The character that stands in a string for a character of the text. -/
def shown_char (c : Nat) : UInt8 := UInt8.ofNat (if printable c then c else QUESTION_MARK)

/-- A character as it is written in a string. -/
def written_char (c : Nat) : PyText :=
  if c = BACKSLASH ∨ c = OPEN ∨ c = CLOSE then [BACKSLASH, c]
  else if printable c then [c] else [QUESTION_MARK]

theorem escape_pdf_literal_eq (value : PyText) :
    _escape_pdf_literal value = value.flatMap written_char := by
  unfold _escape_pdf_literal escape
  rw [List.flatMap_assoc, List.flatMap_assoc, List.map_flatMap]
  congr 1
  funext c
  unfold written_char
  by_cases hbackslash : c = BACKSLASH
  · subst hbackslash
    rfl
  · by_cases hopen : c = OPEN
    · subst hopen
      rfl
    · by_cases hclose : c = CLOSE
      · subst hclose
        rfl
      · by_cases hprintable : printable c = true <;>
          simp [hbackslash, hopen, hclose, hprintable]

theorem byte_inj {c d : Nat} (hc : c < 256) (hd : d < 256) :
    UInt8.ofNat c = UInt8.ofNat d ↔ c = d := by
  constructor
  · intro h
    have hnat := congrArg UInt8.toNat h
    rwa [UInt8.toNat_ofNat_of_lt' hc, UInt8.toNat_ofNat_of_lt' hd] at hnat
  · intro h
    rw [h]

/-- The byte is no parenthesis and no backslash. -/
structure Plain (b : UInt8) : Prop where
  not_backslash : b ≠ UInt8.ofNat BACKSLASH
  not_open : b ≠ UInt8.ofNat OPEN
  not_close : b ≠ UInt8.ofNat CLOSE

instance (b : UInt8) : Decidable (Plain b) :=
  decidable_of_iff (b ≠ UInt8.ofNat BACKSLASH ∧ b ≠ UInt8.ofNat OPEN ∧ b ≠ UInt8.ofNat CLOSE)
    ⟨fun h => ⟨h.1, h.2.1, h.2.2⟩, fun h => ⟨h.not_backslash, h.not_open, h.not_close⟩⟩

theorem literals_plain_char {b : UInt8} (h : Plain b) (depth : Nat) (shown rest : Bytes) :
    literals_from (some (depth, shown)) (b :: rest) =
      literals_from (some (depth, shown ++ [b])) rest := by
  rw [literals_from.eq_def (some (depth, shown)) (b :: rest)]
  dsimp only
  rw [if_neg h.not_backslash, if_neg h.not_open, if_neg h.not_close]

theorem literals_close (shown rest : Bytes) :
    literals_from (some (0, shown)) (UInt8.ofNat CLOSE :: rest) =
      (literals_from none rest).map (shown :: ·) := by
  rw [literals_from.eq_def]
  rfl

theorem plain_bytes {l : Bytes} (h : (l.all fun b => decide (Plain b)) = true) :
    ∀ b ∈ l, Plain b := fun b hb => of_decide_eq_true (List.all_eq_true.mp h b hb)

theorem literals_plain {l : Bytes} (h : ∀ b ∈ l, Plain b) (rest : Bytes) :
    literals_from none (l ++ rest) = literals_from none rest := by
  induction l with
  | nil => rfl
  | cons b l ih =>
    obtain ⟨hb, hl⟩ := List.forall_mem_cons.mp h
    rw [List.cons_append, literals_from, if_neg hb.not_open, if_neg hb.not_close, ih hl]

/-- A character of the text is read back in a string. -/
theorem literals_written_char (depth : Nat) (shown : Bytes) (c : Nat) (rest : Bytes) :
    literals_from (some (depth, shown)) (latin1 (written_char c) ++ rest) =
      literals_from (some (depth, shown ++ [shown_char c])) rest := by
  unfold written_char
  split
  · rename_i hspecial
    rcases hspecial with rfl | rfl | rfl <;> rfl
  · rename_i hspecial
    rw [not_or, not_or] at hspecial
    obtain ⟨hbackslash, hopen, hclose⟩ := hspecial
    split
    · rename_i hprintable
      have hlt : c < 256 := by
        have hle := (of_decide_eq_true hprintable).2
        omega
      have hplain : Plain (UInt8.ofNat c) :=
        ⟨fun h => hbackslash ((byte_inj hlt (by decide)).mp h),
          fun h => hopen ((byte_inj hlt (by decide)).mp h),
          fun h => hclose ((byte_inj hlt (by decide)).mp h)⟩
      have hbyte : latin1 [c] = [UInt8.ofNat c] := by
        simp only [latin1, List.map_cons, List.map_nil, if_pos hlt]
      rw [hbyte, shown_char, if_pos hprintable]
      exact literals_plain_char hplain depth shown rest
    · rename_i hprintable
      rw [shown_char, if_neg hprintable]
      exact literals_plain_char (by decide) depth shown rest

theorem latin1_append (t u : PyText) : latin1 (t ++ u) = latin1 t ++ latin1 u := List.map_append

/-- The line as it stands in its string. -/
def shown_line (line : PyText) : Bytes := line.map shown_char

theorem literals_line (shown : Bytes) (line : PyText) (rest : Bytes) :
    literals_from (some (0, shown)) (latin1 (line.flatMap written_char) ++
        UInt8.ofNat CLOSE :: rest) =
      (literals_from none rest).map ((shown ++ shown_line line) :: ·) := by
  induction line generalizing shown with
  | nil =>
    rw [shown_line, List.map_nil, List.append_nil]
    exact literals_close shown rest
  | cons c line ih =>
    rw [List.flatMap_cons, latin1_append, List.append_assoc, literals_written_char, ih]
    simp [shown_line]

theorem joined_append (l m : List PyText) : joined (l ++ m) = joined l ++ joined m :=
  List.flatMap_append

theorem plain_joined {l : List PyText} (h : ∀ b ∈ latin1 (joined l), Plain b)
    (m : List PyText) :
    literals_from none (latin1 (joined (l ++ m))) = literals_from none (latin1 (joined m)) := by
  rw [joined_append, latin1_append, literals_plain h]

/-- The commands for a line: what is read is the line. -/
theorem literals_command (i : Nat) (line : PyText) (m : List PyText) :
    literals_from none (latin1 (joined (line_commands i line ++ m))) =
      (literals_from none (latin1 (joined m))).map (shown_line line :: ·) := by
  have hstring : literals_from none
      (latin1 (joined ([text "(" ++ _escape_pdf_literal line ++ text ") Tj"] ++ m))) =
      (literals_from none (latin1 (joined m))).map (shown_line line :: ·) := by
    have htail : literals_from none (latin1 (text " Tj" ++ [NEWLINE]) ++ latin1 (joined m)) =
        literals_from none (latin1 (joined m)) := literals_plain (plain_bytes rfl) _
    have hsplit : latin1 (joined ([text "(" ++ _escape_pdf_literal line ++ text ") Tj"] ++ m)) =
        UInt8.ofNat OPEN :: (latin1 (line.flatMap written_char) ++ UInt8.ofNat CLOSE ::
          (latin1 (text " Tj" ++ [NEWLINE]) ++ latin1 (joined m))) := by
      rw [escape_pdf_literal_eq, joined_append, latin1_append]
      have htext : text ") Tj" = CLOSE :: text " Tj" := by decide
      have hopen : text "(" = [OPEN] := by decide
      simp only [joined, List.flatMap_cons, List.flatMap_nil, List.append_nil, latin1_append,
        htext, hopen]
      simp [latin1, OPEN, CLOSE]
    rw [hsplit, literals_from, if_pos rfl, literals_line, htail, List.nil_append]
  unfold line_commands
  rw [List.append_assoc]
  split
  · rw [plain_joined (plain_bytes rfl), hstring]
  · rw [List.nil_append, hstring]

/-- The strings of a page are its lines. -/
theorem literals_stream (page_lines : List PyText) :
    literals (stream_bytes page_lines) = some (page_lines.map shown_line) := by
  have hlines : ∀ k, literals_from none
      (latin1 (joined (((page_lines.zipIdx k).flatMap fun x => line_commands x.2 x.1) ++
        [text "ET"]))) = some (page_lines.map shown_line) := by
    induction page_lines with
    | nil =>
      intro k
      exact (by decide : literals_from none (latin1 (joined [text "ET"])) = some [])
    | cons line rest ih =>
      intro k
      rw [List.zipIdx_cons, List.flatMap_cons, List.append_assoc, literals_command, ih]
      rfl
  unfold literals stream_bytes stream_lines
  rw [List.append_assoc, plain_joined (plain_bytes rfl), hlines 0]

/-! ## The objects -/

theorem append_all (l : List Bytes) (o : Objects) :
    l.foldl Objects.append o =
      ⟨o.objects ++ l, o.indexes ++ List.range' (o.objects.length + 1) l.length⟩ := by
  induction l generalizing o with
  | nil => simp
  | cons object rest ih =>
    rw [List.foldl_cons, ih, List.length_cons, List.range'_succ]
    simp [Objects.append]

/-- The places that were kept free are filled in. -/
theorem set_all (g : Nat → Bytes) (head rest : List Bytes) (ids : List Nat)
    (free : List Bytes) (h : free.length = ids.length) :
    ((List.range' (head.length + 1) ids.length).zip ids).foldl
        (fun objects x => objects.set (x.1 - 1) (g x.2)) (head ++ (free ++ rest)) =
      head ++ (ids.map g ++ rest) := by
  induction ids generalizing head free with
  | nil =>
    rw [List.length_nil, List.length_eq_zero_iff] at h
    rw [h]
    rfl
  | cons id ids ih =>
    obtain ⟨first, free, rfl⟩ := List.exists_cons_of_length_eq_add_one h
    have hset : (head ++ (first :: free ++ rest)).set (head.length + 1 - 1) (g id) =
        head ++ [g id] ++ (free ++ rest) := by
      rw [Nat.add_sub_cancel, List.set_append_right _ _ (Nat.le_refl _), Nat.sub_self]
      simp
    have hlength : (head ++ [g id]).length = head.length + 1 := List.length_append
    have hrest := ih (head ++ [g id]) free (Nat.succ.inj h)
    rw [hlength] at hrest
    rw [List.length_cons, List.range'_succ, List.zip_cons_cons, List.foldl_cons, hset, hrest]
    simp

/-- The objects of a document with these pages. -/
def tree_of (streams : List Bytes) : List Object :=
  let count := streams.length
  [.catalog 2, .pages (List.range' 3 count) count] ++
    ((List.range' (3 + count) count).map fun contents => .page 2 contents (3 + count + count)) ++
    (streams.map fun stream => .content stream.length stream) ++ [.font]

theorem catalog_bytes : CATALOG = (Object.catalog 2).bytes := by decide

theorem page_bytes (font_object_index contents : Nat) :
    page_object font_object_index contents =
      (Object.page 2 contents font_object_index).bytes := by
  have hhead : ascii "<< /Type /Page /Parent 2 0 R /MediaBox [0 0 " ++
      number PDF_FALLBACK_PAGE_WIDTH ++ ascii " " ++ number PDF_FALLBACK_PAGE_HEIGHT ++
      ascii "] /Resources << /Font << /F1 " =
      ascii "<< /Type /Page /Parent " ++ number 2 ++ ascii " 0 R /MediaBox [0 0 595 842]" ++
        ascii " /Resources << /Font << /F1 " := by decide
  unfold page_object Object.bytes
  rw [hhead]

theorem objects_eq (pages : List (List PyText)) :
    objects_of pages = (tree_of (pages.map stream_bytes)).map Object.bytes := by
  let count := pages.length
  let free : List Bytes := pages.map fun _ => []
  let contents := pages.map fun page_lines => content_object (stream_bytes page_lines)
  let kids := List.range' 3 count
  let content_ids := List.range' (3 + count) count
  have hfree : free.length = content_ids.length := by
    rw [List.length_map, List.length_range']
  have hreserved : free.foldl Objects.append ⟨[CATALOG, []], []⟩ =
      ⟨[CATALOG, []] ++ free, kids⟩ := by
    rw [append_all, List.length_map]
    rfl
  have hlength : ([CATALOG, []] ++ free).length + 1 = 3 + count := by
    rw [List.length_append, List.length_map, List.length_cons, List.length_singleton]
    omega
  have hcontents : contents.foldl Objects.append ⟨[CATALOG, []] ++ free, []⟩ =
      ⟨[CATALOG, []] ++ free ++ contents, content_ids⟩ := by
    rw [append_all, hlength, List.length_map, List.nil_append]
  have hfont : ([CATALOG, []] ++ free ++ contents).length + 1 = 3 + count + count := by
    rw [List.length_append, List.length_map]
    omega
  have hset := set_all (page_object (3 + count + count)) [CATALOG, pages_object kids]
    (contents ++ [FONT]) content_ids free hfree
  rw [List.length_range'] at hset
  have hobjects : objects_of pages = [CATALOG, pages_object kids] ++
      (content_ids.map (page_object (3 + count + count)) ++ (contents ++ [FONT])) := by
    let reserved := free.foldl Objects.append ⟨[CATALOG, []], []⟩
    let built := contents.foldl Objects.append ⟨reserved.objects, []⟩
    change (reserved.indexes.zip built.indexes).foldl
      (fun objects x => objects.set (x.1 - 1) (page_object (built.objects.length + 1) x.2))
      ((built.objects ++ [FONT]).set 1 (pages_object reserved.indexes)) = _
    have hkept : reserved = ⟨[CATALOG, []] ++ free, kids⟩ := hreserved
    have hbuilt : built = ⟨[CATALOG, []] ++ free ++ contents, content_ids⟩ := by
      change contents.foldl Objects.append ⟨reserved.objects, []⟩ = _
      rw [hkept, hcontents]
    have hsecond : ([CATALOG, []] ++ free ++ contents ++ [FONT]).set 1 (pages_object kids) =
        [CATALOG, pages_object kids] ++ (free ++ (contents ++ [FONT])) := by simp
    rw [hbuilt, hfont, ← hset, hkept, hsecond]
    rfl
  have hpages : content_ids.map (page_object (3 + count + count)) =
      (content_ids.map fun contents => Object.page 2 contents (3 + count + count)).map
        Object.bytes := by
    rw [List.map_map]
    exact List.map_congr_left fun contents _ => page_bytes _ contents
  have hkids : pages_object kids = (Object.pages kids count).bytes := by
    unfold pages_object Object.bytes
    rw [List.length_range']
  have hstreams : contents = ((pages.map stream_bytes).map fun stream =>
      Object.content stream.length stream).map Object.bytes := by
    rw [List.map_map, List.map_map]
    rfl
  rw [hobjects, hpages, catalog_bytes, hkids, hstreams]
  simp [tree_of, FONT, Object.bytes, kids, content_ids, count]

theorem numbered_append {before l after : List Object} {i : Nat} {object : Object}
    (h : l[i]? = some object) :
    numbered (before ++ l ++ after) (before.length + 1 + i) = some object := by
  have hlt : i < l.length := (List.getElem?_eq_some_iff.mp h).1
  unfold numbered
  rw [if_neg (by omega), List.append_assoc, List.getElem?_append_right (by omega),
    List.getElem?_append_left (by omega)]
  rw [show before.length + 1 + i - 1 - before.length = i by omega]
  exact h

theorem tree_of_tree (streams : List Bytes) :
    Tree (tree_of streams) (List.range' 3 streams.length) streams := by
  have hkids : (List.range' 3 streams.length).length = streams.length := List.length_range'
  refine ⟨rfl, ?_, ?_, hkids.symm, ?_⟩
  · rw [hkids]
    rfl
  · intro i kid hkid
    have hlt : i < streams.length := by
      have hindex := (List.getElem?_eq_some_iff.mp hkid).1
      rwa [hkids] at hindex
    rw [List.getElem?_range' hlt] at hkid
    cases hkid
    let count := streams.length
    let pages := (List.range' (3 + count) count).map fun contents =>
      Object.page 2 contents (3 + count + count)
    let contents := streams.map fun stream => Object.content stream.length stream
    let top := [Object.catalog 2, .pages (List.range' 3 count) count]
    have htree : tree_of streams = top ++ pages ++ (contents ++ [.font]) :=
      List.append_assoc _ _ _
    refine ⟨3 + count + i, 3 + count + count, streams[i], ?_, List.getElem?_eq_getElem hlt,
      ?_, ?_⟩
    · have hpage : pages[i]? = some (.page 2 (3 + count + i) (3 + count + count)) := by
        simp [pages, hlt, count]
      rw [htree, Nat.one_mul]
      exact numbered_append hpage
    · have hcontent : contents[i]? = some (.content streams[i].length streams[i]) := by
        simp [contents, hlt]
      have hnumbered := @numbered_append (top ++ pages) contents [.font] i _ hcontent
      rw [htree, ← List.append_assoc]
      have hlength : (top ++ pages).length + 1 + i = 3 + count + i := by
        simp [top, pages]
        omega
      rwa [hlength] at hnumbered
    · have hfont : [Object.font][0]? = some .font := rfl
      have hnumbered := @numbered_append (top ++ pages ++ contents) [.font] [] 0 _ hfont
      have hlength : (top ++ pages ++ contents).length + 1 + 0 = 3 + count + count := by
        simp [top, pages, contents, count]
        omega
      rw [hlength, List.append_nil] at hnumbered
      rwa [htree, ← List.append_assoc]
  · intro length stream hmem
    rcases List.mem_append.mp hmem with hmem | hfont
    · rcases List.mem_append.mp hmem with htop | hcontent
      · simp at htop
      · obtain ⟨other, -, h⟩ := List.mem_map.mp hcontent
        cases h
        rfl
    · simp at hfont

/-! ## The file -/

theorem write_all (l : List (Bytes × Nat)) (o : Output) :
    l.foldl Output.write o =
      ⟨o.output ++ (l.map fun x => indirect x.2 x.1).flatten,
        o.offsets ++ places o.output.length (l.map fun x => indirect x.2 x.1)⟩ := by
  induction l generalizing o with
  | nil => simp [places]
  | cons x rest ih =>
    rw [List.foldl_cons, ih]
    simp [Output.write, places]

/-- The bytes end in a newline. -/
def EndsLine (l : Bytes) : Prop := ∃ before, l = before ++ ascii "\n"

theorem ends_line_append (before : Bytes) {l : Bytes} (h : EndsLine l) :
    EndsLine (before ++ l) := by
  obtain ⟨start, rfl⟩ := h
  exact ⟨before ++ start, (List.append_assoc _ _ _).symm⟩

theorem ends_line_flatten {head : Bytes} (hhead : EndsLine head) {l : List Bytes}
    (h : ∀ piece ∈ l, EndsLine piece) : EndsLine (head ++ l.flatten) := by
  induction l generalizing head with
  | nil =>
    rw [List.flatten_nil, List.append_nil]
    exact hhead
  | cons piece rest ih =>
    obtain ⟨hpiece, hrest⟩ := List.forall_mem_cons.mp h
    rw [List.flatten_cons, ← List.append_assoc]
    exact ih (ends_line_append head hpiece) hrest

theorem indirect_ends_line (index : Nat) (object : Bytes) : EndsLine (indirect index object) :=
  ends_line_append _ ⟨ascii "\nendobj", by decide⟩

theorem skeleton_of (objects : List Object) :
    let written := ((objects.map Object.bytes).zipIdx 1).foldl Output.write ⟨HEADER, []⟩
    Skeleton (written.output ++ xref (objects.length + 1) written.offsets ++
      trailer (objects.length + 1) written.output.length) objects written.offsets
      written.output.length := by
  intro written
  let chunks := ((objects.map Object.bytes).zipIdx 1).map fun x => indirect x.2 x.1
  have hwritten : written = ⟨HEADER ++ chunks.flatten, places HEADER.length chunks⟩ :=
    write_all _ _
  rw [hwritten]
  refine ⟨?_, ?_, HEADER ++ chunks.flatten, rfl, rfl⟩
  · simp [places_length, chunks]
  · intro i object hobject
    have hchunk : chunks[i]? = some (indirect (i + 1) object.bytes) := by
      simp [chunks, hobject, Nat.add_comm]
    obtain ⟨before, after, hsplit, hplace, hbefore⟩ := piece_at_place HEADER chunks hchunk
    have hends : EndsLine before := by
      rw [hbefore]
      refine ends_line_flatten (ends_line_append _ ⟨[], rfl⟩) fun piece hmem => ?_
      obtain ⟨x, -, rfl⟩ := List.mem_map.mp (List.mem_of_mem_take hmem)
      exact indirect_ends_line _ _
    obtain ⟨start, rfl⟩ := hends
    refine ⟨start, after ++ (xref (objects.length + 1) (places HEADER.length chunks) ++
      trailer (objects.length + 1) (HEADER ++ chunks.flatten).length), ?_, hplace⟩
    rw [hsplit]
    simp only [List.append_assoc]

/-- LAW: for every text the bytes are a PDF. The table gives the place of each object, on a line
of its own, and the end gives the place of the table; the objects are the tree of a document with
one stream for each page, of the right length; the strings of the streams are balanced, and the
lines in them have all visible characters of the text, in its order. -/
theorem the_plain_pdf_is_well_formed (text : PyText) :
    ∃ objects offsets startxref kids streams lines,
      Skeleton (_build_basic_pdf_bytes text) objects offsets startxref ∧
        Tree objects kids streams ∧ Shows streams lines text := by
  let streams := (pages text).map stream_bytes
  have hskeleton := skeleton_of (tree_of streams)
  have hlength : (tree_of streams).length = (objects_of (pages text)).length := by
    rw [objects_eq, List.length_map]
  rw [hlength, ← objects_eq] at hskeleton
  have htree := tree_of_tree streams
  have hshown : Shows streams ((pages text).map fun page_lines => page_lines.map shown_line)
      text := by
    constructor
    · rw [List.map_map, List.map_map]
      exact List.map_congr_left fun page_lines _ => literals_stream page_lines
    · have hlines : ((pages text).map fun page_lines =>
          page_lines.map shown_line).flatten.flatten =
            (pages text).flatten.flatten.map shown_char := by
        rw [← List.map_flatten, List.map_flatten (L := (pages text).flatten)]
        rfl
      have hchars : (text.filter visible).map UInt8.ofNat =
          (text.filter visible).map shown_char := by
        refine List.map_congr_left fun c hc => ?_
        have hvisible := of_decide_eq_true (List.mem_filter.mp hc).2
        have hprintable : printable c = true := decide_eq_true ⟨by omega, hvisible.2⟩
        rw [shown_char, if_pos hprintable]
      rw [hlines, hchars, ← pages_filter]
      exact List.filter_sublist.map shown_char
  exact ⟨tree_of streams, _, _, _, streams, _, hskeleton, htree, hshown⟩

end dr_boz.basic_pdf
