-- Law of the names of generated PDF files: what `_sanitize_pdf_filename` of
-- `llm` makes of a name is a fixed point of it, and `download_generated_pdf`
-- serves the file under it.
import DrBoz.AmountTexts
import DrBoz.CliLines
import DrBoz.Lib.Words
import DrBoz.UploadPaths

open dr_boz.amount_texts (CAPITALS of_all toLower_cases)
open dr_boz.cli_lines (JsonValue)
open dr_boz.phone_numbers (SPACES mem_spaces)
open dr_boz.py (isSpace)
open dr_boz.upload_paths
open posix_paths
open separated (Bare bare_trim trim trim_eq_self trim_subset)

namespace dr_boz.pdf_names

/-! ## The name of a file -/

/-- The characters that `PDF_FILENAME_SAFE_RE` does not match. -/
def safe (c : Char) : Bool := c.isAlphanum || c ∈ ['.', '_', '-']

/-- `PDF_FILENAME_SAFE_RE.sub("_", name)`. A run of other characters becomes one `_`. -/
def sub_safe_re : Path → Path
  | [] => []
  | c :: rest =>
    if safe c then c :: sub_safe_re rest
    else if rest.head?.any fun c => !safe c then sub_safe_re rest
    else '_' :: sub_safe_re rest

def dot_or_underscore (c : Char) : Bool := c ∈ ['.', '_']

/-- `name.strip("._")` -/
def strip_dots (name : Path) : Path :=
  ((name.dropWhile dot_or_underscore).reverse.dropWhile dot_or_underscore).reverse

/-- `name.lower().endswith(".pdf")`. Only ASCII letters lower to those of `.pdf`. -/
def ends_pdf (name : Path) : Bool := ".pdf".toList.isSuffixOf (name.map Char.toLower)

def with_extension (name : Path) : Path := if ends_pdf name then name else name ++ ".pdf".toList

/-- Nothing is cut from the extension. -/
def shortened (name : Path) : Path :=
  if name.length > 80 then
    let (stem, ext) := splitext name
    stem.take (max 1 (80 - ext.length)) ++ ext
  else name

/-- `_sanitize_pdf_filename` of a text. -/
def sanitized (value : Path) : Option Path :=
  let normalized := stripped value
  if normalized = [] then none
  else
    let normalized := (basename normalized).filter fun c => c ≠ '\\'
    let normalized := strip_dots (sub_safe_re normalized)
    if normalized = [] then none else some (shortened (with_extension normalized))

def _sanitize_pdf_filename : JsonValue → Except String (Option Path)
  | .null => .ok none
  | .str value => .ok (sanitized value.toList)
  | _ => .error "output_filename must be a string"

/-- The first check of `download_generated_pdf`. -/
def filename_refused (server : Server) (normalized_name : Path) : Bool :=
  normalized_name = [] || !".pdf".toList.isSuffixOf (server.lower normalized_name) ||
    '/' ∈ normalized_name || '\\' ∈ normalized_name || !generated_pdf_filename normalized_name

/-- The server with the small letters of ASCII, which decide about `.pdf`. -/
def lowering (server : Server) : Server :=
  { server with lower := fun name => name.map Char.toLower }

/-- The path of a generated file. -/
def generated_path (server : Server) (name : Path) : Path :=
  GENERATED_PDF_DIR server ++ '/' :: name

/-! ## What a name is to be -/

structure PdfName (name : Path) : Prop where
  short : name.length ≤ 80
  is_safe : ∀ c ∈ name, safe c = true
  no_separator : '/' ∉ name ∧ '\\' ∉ name
  first : name.head? ≠ some '.'
  extension : ends_pdf name = true

theorem strip_dots_eq (name : Path) : strip_dots name = trim dot_or_underscore name := rfl

/-! ## Safe characters -/

section
variable {c : Char} {name : Path}

theorem safe_not_space (h : safe c = true) : isSpace c = false := by
  by_contra hspace
  have hall : ∀ n ∈ SPACES, safe (Char.ofNat n) = false := by decide
  have hc := hall _ (mem_spaces (Bool.eq_true_of_not_eq_false hspace))
  rw [Char.ofNat_toNat, h] at hc
  cases hc

theorem safe_no_separator (h : ∀ c ∈ name, safe c = true) : '/' ∉ name ∧ '\\' ∉ name :=
  ⟨fun hm => absurd (h _ hm) (by decide), fun hm => absurd (h _ hm) (by decide)⟩

theorem sub_safe_re_safe (name : Path) : ∀ c ∈ sub_safe_re name, safe c = true := by
  induction name with
  | nil => exact fun c hc => absurd hc List.not_mem_nil
  | cons c rest ih =>
    unfold sub_safe_re
    split
    · next hc => exact List.forall_mem_cons.mpr ⟨hc, ih⟩
    · split
      · exact ih
      · exact List.forall_mem_cons.mpr ⟨by decide, ih⟩

theorem sub_safe_re_eq_self (h : ∀ c ∈ name, safe c = true) : sub_safe_re name = name := by
  induction name with
  | nil => rfl
  | cons c rest ih =>
    obtain ⟨hc, hrest⟩ := List.forall_mem_cons.mp h
    unfold sub_safe_re
    rw [if_pos hc, ih hrest]

theorem stripped_safe (h : ∀ c ∈ name, safe c = true) : stripped name = name :=
  trim_eq_self ⟨fun c hc => safe_not_space (h c (List.mem_of_mem_head? hc)),
    fun c hc => safe_not_space (h c (List.mem_of_getLast? hc))⟩

theorem basename_eq_self (h : '/' ∉ name) : basename name = name := by
  have hall : name.reverse.takeWhile (· ≠ '/') = name.reverse :=
    List.takeWhile_eq_self_iff.mpr fun c hc => by
      have hne : c ≠ '/' := fun he => h (he ▸ List.mem_reverse.mp hc)
      exact decide_eq_true hne
  unfold basename
  rw [hall, List.reverse_reverse]

end

/-! ## Names of four letters more -/

/-- `.pdf` in any case. -/
def Extension (ext : Path) : Prop := ext.map Char.toLower = ".pdf".toList

section
variable {name stem ext : Path}

theorem ends_pdf_iff : ends_pdf name = true ↔ ∃ stem ext, Extension ext ∧ name = stem ++ ext := by
  unfold ends_pdf Extension
  rw [List.isSuffixOf_iff_suffix]
  constructor
  · rintro ⟨before, hbefore⟩
    obtain ⟨stem, ext, hname, -, hext⟩ := List.map_eq_append_iff.mp hbefore.symm
    exact ⟨stem, ext, hext, hname⟩
  · rintro ⟨stem, ext, hext, rfl⟩
    rw [List.map_append, hext]
    exact List.suffix_append _ _

theorem pdf_extension : Extension ".pdf".toList := by
  unfold Extension
  decide

theorem Extension.length_eq (h : Extension ext) : ext.length = 4 := by
  have hlength := congrArg List.length h
  rwa [List.length_map] at hlength

/-- A dot and three characters that are neither dots nor underscores. -/
theorem Extension.cases (h : Extension ext) : ∃ a b c, ext = ['.', a, b, c] ∧
    ∀ d ∈ [a, b, c], dot_or_underscore d = false ∧ safe d = true := by
  have hletters : ∀ d : Char, d.toLower ∈ ['p', 'd', 'f'] →
      dot_or_underscore d = false ∧ safe d = true := by
    intro d hd
    rcases toLower_cases d with hsame | hcapital
    · rw [hsame] at hd
      have hall : ∀ d ∈ ['p', 'd', 'f'], dot_or_underscore d = false ∧ safe d = true :=
        of_all (by decide)
      exact hall d hd
    · have hall : ∀ d ∈ CAPITALS, dot_or_underscore d = false ∧ safe d = true :=
        of_all (by decide)
      exact hall d hcapital
  have hdot : ∀ d : Char, d.toLower = '.' → d = '.' := by
    intro d hd
    rcases toLower_cases d with hsame | hcapital
    · exact hsame ▸ hd
    · have hall : ∀ d ∈ CAPITALS, d.toLower ≠ '.' := of_all (by decide)
      exact absurd hd (hall d hcapital)
  match ext, h.length_eq with
  | [dot, a, b, c], _ =>
    have hmap : [dot.toLower, a.toLower, b.toLower, c.toLower] = ['.', 'p', 'd', 'f'] := h
    obtain ⟨h1, h2, h3, h4, -⟩ := by simpa only [List.cons.injEq] using hmap
    refine ⟨a, b, c, by rw [hdot dot h1], ?_⟩
    simp only [List.forall_mem_cons]
    exact ⟨hletters a (by simp [h2]), hletters b (by simp [h3]), hletters c (by simp [h4]), by simp⟩

end

/-- Safe characters before an extension, and neither a dot nor an underscore in front. -/
structure Stem (stem : Path) : Prop where
  is_safe : ∀ c ∈ stem, safe c = true
  first : ∃ c, stem.head? = some c ∧ dot_or_underscore c = false

section
variable {name stem ext : Path}

theorem Stem.take (h : Stem stem) {n : Nat} (hn : 0 < n) : Stem (stem.take n) := by
  obtain ⟨c, hc, hdot⟩ := h.first
  refine ⟨fun d hd => h.is_safe d (List.mem_of_mem_take hd), c, ?_, hdot⟩
  rw [List.head?_take, if_neg (by omega), hc]

theorem Stem.all_safe (h : Stem stem) (hext : Extension ext) :
    ∀ c ∈ stem ++ ext, safe c = true := by
  obtain ⟨a, b, c, rfl, hletters⟩ := hext.cases
  intro d hd
  rcases List.mem_append.mp hd with hd | hd
  · exact h.is_safe d hd
  · rcases List.mem_cons.mp hd with rfl | hd
    · decide
    · exact (hletters d hd).2

theorem Stem.first_append (h : Stem stem) (ext : Path) :
    ∃ c, (stem ++ ext).head? = some c ∧ dot_or_underscore c = false := by
  obtain ⟨c, hc, hdot⟩ := h.first
  exact ⟨c, by rw [List.head?_append, hc]; rfl, hdot⟩

theorem Stem.bare (h : Stem stem) (hext : Extension ext) :
    Bare dot_or_underscore (stem ++ ext) := by
  obtain ⟨a, b, c, rfl, hletters⟩ := hext.cases
  obtain ⟨d, hd, hdot⟩ := h.first_append ['.', a, b, c]
  constructor
  · intro e he
    rw [hd, Option.some.injEq] at he
    exact he ▸ hdot
  · intro e he
    have hlast : (stem ++ ['.', a, b, c]).getLast? = some c := by simp
    rw [hlast, Option.some.injEq] at he
    exact he ▸ (hletters c (by simp)).1

/-- The last dot is the one of the extension. -/
theorem Stem.splitext_eq (h : Stem stem) (hext : Extension ext) :
    splitext (stem ++ ext) = (stem, ext) := by
  obtain ⟨a, b, c, rfl, hletters⟩ := hext.cases
  have hplain : ∀ d ∈ [a, b, c], d ≠ '.' := fun d hd hdot => by
    have hnot := (hletters d hd).1
    rw [hdot] at hnot
    cases hnot
  have hafter : ((stem ++ ['.', a, b, c]).reverse.takeWhile (· ≠ '.')).reverse = [a, b, c] := by
    have hreverse : (stem ++ ['.', a, b, c]).reverse = [c, b, a] ++ '.' :: stem.reverse := by simp
    have hletter : ∀ d ∈ [c, b, a], decide (d ≠ '.') = true := fun d hd =>
      decide_eq_true (hplain d (by simpa [or_comm, or_left_comm] using hd))
    rw [hreverse, List.takeWhile_append_of_pos hletter, List.takeWhile_cons_of_neg (by simp)]
    rfl
  have hlength : (stem ++ ['.', a, b, c]).length - [a, b, c].length - 1 = stem.length := by simp
  obtain ⟨d, hd, hdot⟩ := h.first
  have hmore : ¬([a, b, c].length = (stem ++ ['.', a, b, c]).length ∨
      stem.all (· = '.') = true) := by
    rintro (hsame | hall)
    · rw [List.length_append] at hsame
      simp only [List.length_cons, List.length_nil] at hsame
      omega
    · have hd' := of_decide_eq_true (List.all_eq_true.mp hall d (List.mem_of_mem_head? hd))
      rw [hd'] at hdot
      cases hdot
  unfold splitext
  simp only [hafter, hlength, List.take_left', List.drop_left', if_neg hmore]

theorem ends_pdf_append (hext : Extension ext) : ends_pdf (stem ++ ext) = true :=
  ends_pdf_iff.mpr ⟨stem, ext, hext, rfl⟩

/-- A stripped name has a stem before its extension, or it is one. -/
theorem with_extension_parts (hsafe : ∀ c ∈ name, safe c = true) (hne : name ≠ [])
    (hbare : Bare dot_or_underscore name) : ∃ stem ext, Stem stem ∧ Extension ext ∧
      with_extension name = stem ++ ext := by
  obtain ⟨c, rest, rfl⟩ := List.exists_cons_of_ne_nil hne
  have hc := hbare.1 c rfl
  unfold with_extension
  by_cases hends : ends_pdf (c :: rest) = true
  · rw [if_pos hends]
    obtain ⟨stem, ext, hext, hname⟩ := ends_pdf_iff.mp hends
    refine ⟨stem, ext, ⟨fun d hd => hsafe d (hname ▸ List.mem_append_left _ hd), c, ?_, hc⟩,
      hext, hname⟩
    cases stem with
    | nil =>
      -- The name would begin with the dot of its extension.
      obtain ⟨x, y, z, rfl, -⟩ := hext.cases
      rw [List.nil_append, List.cons.injEq] at hname
      rw [hname.1] at hc
      cases hc
    | cons d stem =>
      rw [List.cons_append, List.cons.injEq] at hname
      rw [hname.1, List.head?_cons]
  · rw [if_neg hends]
    exact ⟨c :: rest, ".pdf".toList, ⟨hsafe, c, rfl, hc⟩, pdf_extension, rfl⟩

theorem shortened_parts (h : Stem stem) (hext : Extension ext) : ∃ stem', Stem stem' ∧
    shortened (stem ++ ext) = stem' ++ ext ∧ (stem' ++ ext).length ≤ 80 := by
  unfold shortened
  by_cases hlong : (stem ++ ext).length > 80
  · rw [if_pos hlong, h.splitext_eq hext]
    simp only
    rw [hext.length_eq]
    refine ⟨stem.take 76, h.take (by decide), rfl, ?_⟩
    rw [List.length_append, List.length_take, hext.length_eq]
    omega
  · rw [if_neg hlong]
    exact ⟨stem, h, rfl, by omega⟩

/-- A short name with a stem stays as it is. -/
theorem sanitized_parts (h : Stem stem) (hext : Extension ext)
    (hlength : (stem ++ ext).length ≤ 80) : sanitized (stem ++ ext) = some (stem ++ ext) := by
  have hsafe := h.all_safe hext
  have hseparators := safe_no_separator hsafe
  have hne : stem ++ ext ≠ [] := by
    rw [← List.length_pos_iff, List.length_append, hext.length_eq]
    omega
  have hfilter : (stem ++ ext).filter (fun c => c ≠ '\\') = stem ++ ext :=
    List.filter_eq_self.mpr fun c hc => decide_eq_true fun he => hseparators.2 (he ▸ hc)
  have hstrip : strip_dots (stem ++ ext) = stem ++ ext := by
    rw [strip_dots_eq, trim_eq_self (h.bare hext)]
  unfold sanitized
  simp only [stripped_safe hsafe, basename_eq_self hseparators.1, hfilter,
    sub_safe_re_eq_self hsafe, hstrip, if_neg hne]
  unfold with_extension shortened
  rw [if_pos (ends_pdf_append hext), if_neg (by omega)]

/-- What a name becomes has a stem and an extension. -/
theorem sanitized_some {value : Path} (h : sanitized value = some name) :
    ∃ stem ext, Stem stem ∧ Extension ext ∧ name = stem ++ ext ∧ name.length ≤ 80 := by
  unfold sanitized at h
  simp only [Option.ite_none_left_eq_some, Option.some.injEq] at h
  rw [strip_dots_eq] at h
  obtain ⟨-, hne, hname⟩ := h
  obtain ⟨stem, ext, hstem, hext, hparts⟩ := with_extension_parts
    (fun c hc => sub_safe_re_safe _ c (trim_subset hc)) hne (bare_trim _ _)
  rw [hparts] at hname
  obtain ⟨stem', hstem', hshort, hlength⟩ := shortened_parts hstem hext
  rw [hshort] at hname
  exact ⟨stem', ext, hstem', hext, hname.symm, hname ▸ hlength⟩

theorem pdfName_parts (h : Stem stem) (hext : Extension ext)
    (hlength : (stem ++ ext).length ≤ 80) : PdfName (stem ++ ext) where
  short := hlength
  is_safe := h.all_safe hext
  no_separator := safe_no_separator (h.all_safe hext)
  first := by
    obtain ⟨c, hc, hdot⟩ := h.first_append ext
    rw [hc]
    intro he
    rw [Option.some.inj he] at hdot
    cases hdot
  extension := ends_pdf_append hext

end

/-! ## The download -/

section
variable {name : Path}

theorem PdfName.ne_nil (h : PdfName name) : name ≠ [] := by
  rintro rfl
  have hends := h.extension
  revert hends
  decide

theorem PdfName.valid (h : PdfName name) : ValidName name := by
  refine ⟨h.ne_nil, h.no_separator.1, ?_, ?_⟩
  · rintro rfl
    exact h.first rfl
  · rintro rfl
    exact h.first rfl

theorem PdfName.accepted (h : PdfName name) (server : Server) :
    filename_refused (lowering server) (stripped name) = false := by
  have hpattern : generated_pdf_filename name = true := by
    have hend : ¬name.getLast? = some '\n' := fun hlast =>
      absurd (h.is_safe _ (List.mem_of_getLast? hlast)) (by decide)
    unfold generated_pdf_filename
    rw [if_neg hend, Bool.and_eq_true]
    exact ⟨decide_eq_true h.ne_nil, List.all_eq_true.mpr h.is_safe⟩
  have hends : ".pdf".toList.isSuffixOf ((lowering server).lower name) = true := h.extension
  rw [stripped_safe h.is_safe]
  unfold filename_refused
  simp only [h.ne_nil, hends, h.no_separator.1, h.no_separator.2, hpattern, decide_false,
    Bool.not_true, Bool.or_false]

theorem download_eq (server : Server) (filename : Path) : download_generated_pdf server filename =
    if filename_refused server (stripped filename) then none
    else
      let file_path := abspath server.cwd (join (GENERATED_PDF_DIR server) (stripped filename))
      if ¬GENERATED_PDF_DIR server ++ ['/'] <+: file_path then none
      else if server.isfile file_path = false then none
      else some file_path := by
  unfold download_generated_pdf filename_refused
  simp only [Bool.or_eq_true, Bool.not_eq_true', decide_eq_true_eq, or_assoc,
    ← List.isSuffixOf_iff_suffix, Bool.not_eq_true]

/-- The name leads to its file in the directory of the generated files. -/
theorem PdfName.served (h : PdfName name) (server : Server) :
    download_generated_pdf (lowering server) name =
      if server.isfile (generated_path server name) then some (generated_path server name)
      else none := by
  have hpath : abspath (lowering server).cwd (join (GENERATED_PDF_DIR (lowering server)) name) =
      generated_path server name :=
    abspath_join_name server.cwd_valid generated_ne_nil h.valid
  have hin : GENERATED_PDF_DIR (lowering server) ++ ['/'] <+: generated_path server name :=
    ⟨name, by rw [List.append_assoc]; rfl⟩
  rw [download_eq, h.accepted server, if_neg Bool.false_ne_true, stripped_safe h.is_safe]
  simp only [hpath]
  rw [if_neg (not_not.mpr hin)]
  change (if server.isfile (generated_path server name) = false then _ else _) = _
  cases server.isfile (generated_path server name) <;> rfl

end

/-! ## The law -/

theorem sanitize_str (value : String) :
    _sanitize_pdf_filename (.str value) = .ok (sanitized value.toList) := rfl

example : sanitized " ../my résumé._".toList = some "my_r_sum.pdf".toList := by decide

/-- LAW: a name that is made of a text is short, safe and ends with `.pdf`. It
is made of itself again, and under it the file is served if it is there. -/
theorem sanitized_names_are_fixed_and_served (value : String) :
    _sanitize_pdf_filename (.str value) = .ok none ∨
      ∃ name, _sanitize_pdf_filename (.str value) = .ok (some name) ∧ PdfName name ∧
        _sanitize_pdf_filename (.str (String.ofList name)) = .ok (some name) ∧
        ∀ server : Server, filename_refused (lowering server) (stripped name) = false ∧
          download_generated_pdf (lowering server) name =
            if server.isfile (generated_path server name) then some (generated_path server name)
            else none := by
  rw [sanitize_str]
  cases hname : sanitized value.toList with
  | none => exact .inl rfl
  | some name =>
    obtain ⟨stem, ext, hstem, hext, rfl, hlength⟩ := sanitized_some hname
    have hpdf := pdfName_parts hstem hext hlength
    refine .inr ⟨stem ++ ext, rfl, hpdf, ?_, fun server => ⟨hpdf.accepted server,
      hpdf.served server⟩⟩
    rw [sanitize_str, String.toList_ofList, sanitized_parts hstem hext hlength]

end dr_boz.pdf_names
