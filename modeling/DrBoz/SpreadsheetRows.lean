-- Law of the rows of a spreadsheet (`_read_xlsx_rows`): the value of a cell
-- stands at the index of its column where the cells of a row come from left to
-- right, in the part that the workbook names by a path from its own directory.
import DrBoz.Decimals
import DrBoz.Lib.PosixPaths
import DrBoz.Texts

open posix_paths dr_boz.py dr_boz.texts

namespace dr_boz.spreadsheet_rows

abbrev Text := List Char

/-! ## The archive -/

/-- An element of a parsed XML file. -/
inductive Element where
  | node (tag : String) (attrib : List (String × Text)) (text : Option Text)
    (children : List Element)

def Element.tag : Element → String | .node tag _ _ _ => tag

def Element.text : Element → Option Text | .node _ _ text _ => text

def Element.children : Element → List Element | .node _ _ _ children => children

def Element.get (e : Element) (name : String) : Option Text :=
  match e with
  | .node _ attrib _ _ => attrib.lookup name

/-- `main:name` -/
def main (name : String) : String :=
  "\x7bhttp://schemas.openxmlformats.org/spreadsheetml/2006/main\x7d" ++ name

/-- The attribute `r:id`. -/
def REL_ID : String :=
  "\x7bhttp://schemas.openxmlformats.org/officeDocument/2006/relationships\x7did"

/-- The children with a tag, in their order. -/
def Element.find_all (e : Element) (name : String) : List Element :=
  e.children.filter fun child => child.tag = main name

mutual
/-- All elements below, in the order of the document. -/
def Element.descendants : Element → List Element
  | .node _ _ _ children => all_descendants children

def all_descendants : List Element → List Element
  | [] => []
  | child :: children => child :: (child.descendants ++ all_descendants children)
end

/-- The joined texts of the elements `t` below. -/
def joined_text (e : Element) : Text :=
  (e.descendants.filter fun t => t.tag = main "t").flatMap fun t => t.text.getD []

inductive ReadError | key_error | parse_error

/-- The parts of an archive, by their names. -/
abbrev Archive := Text → Except ReadError Element

/-- Letters as Python knows them. -/
structure Letters where
  is_alpha : Char → Bool
  upper : Text → Text
  latin : ∀ c : Char, c.isUpper = true → is_alpha c = true
  digit : ∀ c : Char, c.isDigit = true → is_alpha c = false
  upper_latin : ∀ cs : Text, (∀ c ∈ cs, c.isUpper = true) → upper cs = cs

/-! ## The cells -/

def read_shared_strings (archive : Archive) : Except ReadError (List Text) :=
  match archive "xl/sharedStrings.xml".toList with
  | .error .key_error => .ok []
  | .error e => .error e
  | .ok root => .ok ((root.find_all "si").map joined_text)

/-- `shared_strings[i]`, where a negative index counts from the end. -/
def item (shared_strings : List Text) (i : Int) : Option Text :=
  if 0 ≤ i then shared_strings[i.toNat]?
  else if -shared_strings.length ≤ i then shared_strings[(shared_strings.length + i).toNat]?
  else none

def xlsx_cell_value (shared_strings : List Text) (cell : Element) : Text :=
  if cell.get "t" = some "inlineStr".toList then joined_text cell
  else
    match (cell.find_all "v").head? with
    | none => []
    | some value_node =>
      let value := value_node.text.getD []
      if cell.get "t" = some ['s'] then
        ((int_of (String.ofList value)).bind (item shared_strings)).getD value
      else value

section
variable (py : Letters)

def xlsx_column_index (ref : Text) : Nat :=
  let value := (py.upper (ref.filter py.is_alpha)).foldl
    (fun (value : Int) ch => value * 26 + ch.toNat - 64) 0
  (value - 1).toNat

/-- The index that the reference of a cell gives. -/
def index_of (cell : Element) : Nat := xlsx_column_index py ((cell.get "r").getD ['A', '1'])

/-- The loop of `_xlsx_row_values`. -/
def row_values_from (shared_strings : List Text) (values : List Text) : List Element → List Text
  | [] => values
  | cell :: cells =>
    row_values_from shared_strings
      (values ++ List.replicate (index_of py cell - values.length) [] ++
        [xlsx_cell_value shared_strings cell]) cells

def xlsx_row_values (shared_strings : List Text) (row : Element) : List Text :=
  row_values_from py shared_strings [] (row.find_all "c")

/-! ## The first sheet -/

/-- `{rel.attrib["Id"]: rel.attrib["Target"] for rel in rels}` -/
def rel_map (rels : Element) : Except ReadError (List (Text × Text)) :=
  rels.children.mapM fun rel =>
    match rel.get "Id", rel.get "Target" with
    | some id, some target => .ok (id, target)
    | _, _ => .error .key_error

def sheet_path (target : Text) : Text :=
  if ['x', 'l', '/'].isPrefixOf target then target
  else ['x', 'l', '/'] ++ target.dropWhile (· = '/')

/-- The target of the first sheet, if the workbook has one. Of two relations with one id, the
later one counts. -/
def first_target (workbook : Element) (map : List (Text × Text)) : Option Text :=
  match ((workbook.find_all "sheets").flatMap (·.find_all "sheet")).head? with
  | none => none
  | some sheet => map.reverse.lookup ((sheet.get REL_ID).getD [])

/-- The rows in the part of a sheet. -/
def sheet_rows (root : Element) : List Element :=
  (root.find_all "sheetData").flatMap (·.find_all "row")

/-- What `_read_xlsx_rows` tries. -/
def try_read (archive : Archive) : Except ReadError (List (List Text)) := do
  let shared_strings ← read_shared_strings archive
  let workbook ← archive "xl/workbook.xml".toList
  let rels ← archive "xl/_rels/workbook.xml.rels".toList
  let map ← rel_map rels
  match first_target workbook map with
  | none | some [] => return []
  | some target =>
    let root ← archive (sheet_path target)
    return (sheet_rows root).map (xlsx_row_values py shared_strings)

/-- Whatever is raised, there are no rows then. -/
def read_xlsx_rows (archive : Archive) : List (List Text) := (try_read py archive).toOption.getD []

end

/-! ## The series -/

/-- `part in text` -/
def within (part text : Text) : Bool := text.tails.any fun rest => part.isPrefixOf rest

def TIME : Text := "time".toList

/-- The nearest header with a time on the left, or the first one. -/
def nearest_time_header (headers : List Text) (value_index : Nat) : Option Nat :=
  ((List.range value_index).reverse.find? fun index => within TIME (headers.getD index [])).or
    (headers.findIdx? (within TIME))

def strip (text : Text) : Text := ((text.dropWhile isSpace).reverse.dropWhile isSpace).reverse

section
variable {F : Type} (float : Text → Option F)

def to_float (value : Text) : Option F :=
  let text := strip value
  if text.isEmpty then none else float text

/-- The time and the value of a row that has both. -/
def pair_of (time_index value_index : Nat) (row : List Text) : Option (F × F) :=
  match row[time_index]?, row[value_index]? with
  | some time, some value =>
    match to_float float time, to_float float value with
    | some time_value, some data_value => some (time_value, data_value)
    | _, _ => none
  | _, _ => none

def extract_series (rows : List (List Text)) (headers : List Text) (value_name : Text) :
    Option (List F × List F) :=
  match headers.findIdx? (within value_name) with
  | none => none
  | some value_index =>
    match nearest_time_header headers value_index with
    | none => none
    | some time_index =>
      let pairs := rows.filterMap (pair_of float time_index value_index)
      if pairs.isEmpty then none else some (pairs.map Prod.fst, pairs.map Prod.snd)

end

/-! ## Where the cells stand -/

/-- The letters of the column with the number `n`, counted from 1. -/
def column_letters (n : Nat) : Text :=
  if n = 0 then [] else column_letters ((n - 1) / 26) ++ [Char.ofNat (65 + (n - 1) % 26)]
termination_by n
decreasing_by omega

/-- A reference to the column with the index `j`, in any row. -/
def RefersTo (ref : Text) (j : Nat) : Prop :=
  ∃ row : Text, (∀ c ∈ row, c.isDigit = true) ∧ ref = column_letters (j + 1) ++ row

/-- The columns of the cells of a row. A cell without a reference stands behind the one before
it, of which `next` is the following column. -/
inductive Columns : Nat → List Element → List Nat → Prop
  | nil (next : Nat) : Columns next [] []
  | unnamed {next : Nat} {cell : Element} {cells : List Element} {columns : List Nat} :
      cell.get "r" = none → Columns (next + 1) cells columns →
      Columns next (cell :: cells) (next :: columns)
  | named {next j : Nat} {ref : Text} {cell : Element} {cells : List Element}
      {columns : List Nat} : cell.get "r" = some ref → RefersTo ref j →
      Columns (j + 1) cells columns → Columns next (cell :: cells) (j :: columns)

/-- Where the loop puts the values of the cells. -/
def positions (py : Letters) (length : Nat) : List Element → List Nat
  | [] => []
  | cell :: cells =>
    max length (index_of py cell) :: positions py (max length (index_of py cell) + 1) cells

/-- The values stand at the columns, and everything else is empty. -/
structure StandAt (shared_strings : List Text) (cells : List Element) (columns : List Nat)
    (values : List Text) : Prop where
  here : ∀ p ∈ cells.zip columns, values[p.2]? = some (xlsx_cell_value shared_strings p.1)
  gaps : ∀ j, j < values.length → j ∉ columns → values[j]? = some []
  width : values.length = (columns.getLast?.map (· + 1)).getD 0

/-! ## Columns in base 26 -/

theorem letter_of {k : Nat} (h : k < 26) :
    (Char.ofNat (65 + k)).toNat = 65 + k ∧ (Char.ofNat (65 + k)).isUpper = true := by
  interval_cases k <;> exact ⟨rfl, rfl⟩

theorem column_letters_upper (n : Nat) : ∀ c ∈ column_letters n, c.isUpper = true := by
  induction n using Nat.strong_induction_on with
  | _ n ih =>
    intro c hc
    rw [column_letters] at hc
    split at hc
    · cases hc
    · rcases List.mem_append.mp hc with hc | hc
      · exact ih _ (by omega) c hc
      · rw [List.mem_singleton.mp hc]
        exact (letter_of (Nat.mod_lt _ (by decide))).2

theorem column_letters_value (n : Nat) :
    (column_letters n).foldl (fun (value : Int) ch => value * 26 + ch.toNat - 64) 0 = n := by
  induction n using Nat.strong_induction_on with
  | _ n ih =>
    rw [column_letters]
    split
    · rename_i hzero
      rw [hzero]
      rfl
    · rename_i hpos
      rw [List.foldl_append, ih _ (by omega), List.foldl_cons, List.foldl_nil,
        (letter_of (Nat.mod_lt (n - 1) (by decide))).1]
      push_cast
      omega

/-- The letters of a reference are decoded to its column. -/
theorem column_index_of (py : Letters) {ref : Text} {j : Nat} (h : RefersTo ref j) :
    xlsx_column_index py ref = j := by
  obtain ⟨row, hrow, rfl⟩ := h
  have hletters : ((column_letters (j + 1)).filter py.is_alpha) = column_letters (j + 1) :=
    List.filter_eq_self.mpr fun c hc => py.latin c (column_letters_upper _ c hc)
  have hdigits : row.filter py.is_alpha = [] :=
    List.filter_eq_nil_iff.mpr fun c hc => by simp [py.digit c (hrow c hc)]
  unfold xlsx_column_index
  rw [List.filter_append, hletters, hdigits, List.append_nil,
    py.upper_latin _ (column_letters_upper _), column_letters_value]
  simp

theorem index_of_unnamed (py : Letters) {cell : Element} (h : cell.get "r" = none) :
    index_of py cell = 0 := by
  unfold index_of
  rw [h]
  refine column_index_of py ⟨['1'], by simp [Char.isDigit], ?_⟩
  simp [column_letters]

/-! ## The loop -/

/-- The values stand in place exactly if the columns go up. -/
theorem positions_iff (py : Letters) {next : Nat} {cells : List Element} {columns : List Nat}
    (h : Columns next cells columns) :
    positions py next cells = columns ↔ columns.Pairwise (· < ·) ∧ ∀ j ∈ columns, next ≤ j := by
  induction h with
  | nil => simp [positions]
  | @unnamed next cell cells columns hcell hcells ih =>
    rw [positions, index_of_unnamed py hcell, Nat.max_zero, List.cons_inj_right, ih,
      List.pairwise_cons]
    constructor
    · rintro ⟨hup, hle⟩
      exact ⟨⟨hle, hup⟩, List.forall_mem_cons.mpr
        ⟨le_refl _, fun j hj => Nat.le_of_succ_le (hle j hj)⟩⟩
    · rintro ⟨⟨hlt, hup⟩, -⟩
      exact ⟨hup, hlt⟩
  | @named next j ref cell cells columns hcell href hcells ih =>
    have hindex : index_of py cell = j := by
      unfold index_of
      rw [hcell]
      exact column_index_of py href
    rw [positions, hindex, List.pairwise_cons, List.forall_mem_cons]
    constructor
    · intro hsame
      obtain ⟨hj, hrest⟩ := List.cons.inj hsame
      rw [hj] at hrest
      have hnext : next ≤ j := hj ▸ le_max_left next j
      obtain ⟨hup, hle⟩ := ih.mp hrest
      exact ⟨⟨hle, hup⟩, hnext, fun i hi => hnext.trans (Nat.le_of_succ_le (hle i hi))⟩
    · rintro ⟨⟨hlt, hup⟩, hnext, -⟩
      rw [max_eq_right hnext, ih.mpr ⟨hup, hlt⟩]

/-- One turn of the loop: the values as they are, blanks up to the index, and the value. -/
theorem turn_at (values : List Text) (index : Nat) (value : Text) :
    (values ++ List.replicate (index - values.length) [] ++ [value]).length =
      max values.length index + 1 ∧
    (values ++ List.replicate (index - values.length) [] ++ [value])[max values.length index]? =
      some value ∧
    ∀ j, values.length ≤ j → j < max values.length index →
      (values ++ List.replicate (index - values.length) [] ++ [value])[j]? = some [] := by
  have hlength : (values ++ List.replicate (index - values.length) ([] : Text)).length =
      max values.length index := by
    rw [List.length_append, List.length_replicate]
    omega
  refine ⟨?_, ?_, fun j hlow hhigh => ?_⟩
  · rw [List.length_append, hlength]
    rfl
  · rw [List.getElem?_append_right hlength.le, hlength, Nat.sub_self]
    rfl
  · rw [List.getElem?_append_left (hlength ▸ hhigh), List.getElem?_append_right hlow,
      List.getElem?_replicate, if_pos (by omega)]

section
variable (py : Letters) (shared_strings : List Text)

theorem row_values_prefix (values : List Text) (cells : List Element) :
    values <+: row_values_from py shared_strings values cells := by
  induction cells generalizing values with
  | nil => exact List.prefix_refl _
  | cons cell cells ih =>
    rw [row_values_from, List.append_assoc]
    exact (List.prefix_append _ _).trans (ih _)

/-- The loop, from the values that it has: each value stands at its position, and there are
blanks between. -/
theorem row_values_stand (values : List Text) (cells : List Element) :
    (∀ p ∈ cells.zip (positions py values.length cells),
      (row_values_from py shared_strings values cells)[p.2]? =
        some (xlsx_cell_value shared_strings p.1)) ∧
    (∀ j, values.length ≤ j → j < (row_values_from py shared_strings values cells).length →
      j ∉ positions py values.length cells →
      (row_values_from py shared_strings values cells)[j]? = some []) ∧
    (row_values_from py shared_strings values cells).length =
      ((positions py values.length cells).getLast?.map (· + 1)).getD values.length := by
  induction cells generalizing values with
  | nil =>
    exact ⟨fun p hp => (by cases hp), fun j hlow hhigh => absurd hlow (not_le.mpr hhigh), rfl⟩
  | cons cell cells ih =>
    obtain ⟨hlength, hvalue, hblank⟩ :=
      turn_at values (index_of py cell) (xlsx_cell_value shared_strings cell)
    rw [row_values_from, positions]
    generalize values ++ List.replicate (index_of py cell - values.length) [] ++
      [xlsx_cell_value shared_strings cell] = values' at hlength hvalue hblank
    generalize max values.length (index_of py cell) = place at hlength hvalue hblank
    obtain ⟨hhere, hgaps, hwidth⟩ := ih values'
    have hprefix := row_values_prefix py shared_strings values' cells
    rw [hlength] at hhere hgaps hwidth
    have hkept : ∀ {j : Nat} {value : Text}, values'[j]? = some value →
        (row_values_from py shared_strings values' cells)[j]? = some value := by
      intro j value hj
      obtain ⟨rest, hrest⟩ := hprefix
      rw [← hrest, List.getElem?_append_left (List.getElem?_eq_some_iff.mp hj).1, hj]
    refine ⟨?_, fun j hlow hhigh hnot => ?_, ?_⟩
    · intro p hp
      rw [List.zip_cons_cons] at hp
      rcases List.mem_cons.mp hp with rfl | hp
      · exact hkept hvalue
      · exact hhere p hp
    · obtain ⟨hne, hrest⟩ := not_or.mp (fun h => hnot (List.mem_cons.mpr h))
      rcases Nat.lt_or_gt_of_ne hne with hless | hmore
      · exact hkept (hblank j hlow hless)
      · exact hgaps j hmore hhigh hrest
    · rw [hwidth, List.getLast?_cons]
      cases (positions py (place + 1) cells).getLast? <;> rfl

/-- Each value of a row stands at the position of its cell. -/
theorem stand_at_positions (row : Element) :
    StandAt shared_strings (row.find_all "c") (positions py 0 (row.find_all "c"))
      (xlsx_row_values py shared_strings row) := by
  obtain ⟨hhere, hgaps, hwidth⟩ := row_values_stand py shared_strings [] (row.find_all "c")
  exact ⟨hhere, fun j hj hnot => hgaps j (Nat.zero_le j) hj hnot, hwidth⟩

end

/-! ## The part of the sheet -/

/-- The part that a target names, from the directory of the workbook. -/
def named_part (target : Text) : Text := render 0 (location [['x', 'l']] target)

/-- A relative path of plain names that does not begin with the directory itself. -/
def PlainTarget (target : Text) : Prop :=
  (∀ name ∈ parts target, ValidName name) ∧ ¬['x', 'l', '/'] <+: target

theorem parts_xl (path : Text) : parts (['x', 'l', '/'] ++ path) = ['x', 'l'] :: parts path := by
  have hxl : parts ['x', 'l'] = [['x', 'l']] := by decide
  refine (parts_cons ['x', 'l'] path).trans ?_
  rw [hxl]
  rfl

theorem xl_valid : ∀ name ∈ [['x', 'l']], ValidName name := by
  intro name hname
  rw [List.mem_singleton.mp hname]
  exact ⟨by simp, by decide, by decide, by decide⟩

theorem intercalate_parts (path : Text) : ['/'].intercalate (parts path) = path :=
  List.intercalate_splitOn '/'

theorem relative_of_valid {path : Text} (h : ∀ name ∈ parts path, ValidName name) :
    ¬isabs path = true := by
  intro habs
  obtain ⟨rest, rfl⟩ := List.head?_eq_some_iff.mp (of_decide_eq_true habs)
  have hempty : ([] : Name) ∈ parts ('/' :: rest) := by
    rw [show parts ('/' :: rest) = parts [] ++ parts rest from parts_cons [] rest]
    exact List.mem_append_left _ (by decide)
  exact (h [] hempty).1 rfl

/-- A path of plain names leads down from where it begins. -/
theorem location_plain {path : Text} (h : ∀ name ∈ parts path, ValidName name) (cwd : List Name) :
    location cwd path = cwd ++ parts path := by
  unfold location
  rw [if_neg (relative_of_valid h), walk_names h]

theorem drop_nothing {path : Text} (h : ¬isabs path = true) :
    path.dropWhile (· = '/') = path := by
  cases path with
  | nil => rfl
  | cons c path =>
    refine List.dropWhile_cons_of_neg fun hc => h ?_
    exact decide_eq_true (congrArg some (of_decide_eq_true hc))

/-- Slashes before a path of plain names lead there from the root. -/
theorem location_absolute {path : Text} (habs : isabs path = true)
    (h : ∀ name ∈ parts (path.dropWhile (· = '/')), ValidName name) (cwd : List Name) :
    location cwd path = parts (path.dropWhile (· = '/')) := by
  have hslashes : path.takeWhile (· = '/') =
      List.replicate (path.takeWhile (· = '/')).length '/' :=
    List.eq_replicate_of_mem fun c hc =>
      of_decide_eq_true (List.all_eq_true.mp List.all_takeWhile c hc)
  have hpath : path = render (path.takeWhile (· = '/')).length
      (parts (path.dropWhile (· = '/'))) := by
    unfold render
    rw [← hslashes, intercalate_parts, List.takeWhile_append_dropWhile]
  have hnames : names_of path = parts (path.dropWhile (· = '/')) := by
    rw [congrArg names_of hpath]
    exact names_of_render _ h
  unfold location
  rw [if_pos habs, ← walk_filter]
  exact (congrArg (walk []) hnames).trans ((walk_names h).trans (List.nil_append _))

theorem render_xl (path : Text) :
    render 0 ([['x', 'l']] ++ parts path) = ['x', 'l', '/'] ++ path := by
  rw [List.singleton_append, ← parts_xl]
  exact intercalate_parts _

theorem sheet_path_iff (target : Text) :
    sheet_path target = named_part target ↔ PlainTarget target := by
  have hvalid := location_valid xl_valid target
  constructor
  · intro h
    have hparts : ∀ name ∈ parts (sheet_path target), ValidName name := by
      by_cases hnone : location [['x', 'l']] target = []
      · exfalso
        unfold named_part at h
        rw [hnone] at h
        have hlength := congrArg List.length h
        unfold sheet_path at hlength
        split at hlength
        · rename_i hprefix
          have hle := (List.isPrefixOf_iff_prefix.mp hprefix).length_le
          simp [render] at hlength
          rw [hlength] at hle
          simp at hle
        · simp [render] at hlength
      · have hrender : parts (named_part target) = location [['x', 'l']] target :=
          parts_intercalate (fun name hname => (hvalid name hname).2.1) hnone
        rw [h, hrender]
        exact hvalid
    by_cases hprefix : ['x', 'l', '/'] <+: target
    · have hpath : sheet_path target = target := if_pos (List.isPrefixOf_iff_prefix.mpr hprefix)
      rw [hpath] at hparts h
      unfold named_part at h
      rw [location_plain hparts, render_xl] at h
      have hlength := congrArg List.length h
      rw [List.length_append] at hlength
      exact absurd hlength (Nat.lt_add_of_pos_left (by decide)).ne
    · have hpath : sheet_path target = ['x', 'l', '/'] ++ target.dropWhile (· = '/') :=
        if_neg fun hp => hprefix (List.isPrefixOf_iff_prefix.mp hp)
      rw [hpath, parts_xl] at hparts
      have hrest : ∀ name ∈ parts (target.dropWhile (· = '/')), ValidName name :=
        fun name hname => hparts name (List.mem_cons_of_mem _ hname)
      by_cases habs : isabs target = true
      · rw [hpath, named_part, location_absolute habs hrest] at h
        have hlength := congrArg List.length (h.trans (intercalate_parts _))
        rw [List.length_append] at hlength
        exact absurd hlength.symm (Nat.lt_add_of_pos_left (by decide)).ne
      · rw [drop_nothing habs] at hrest
        exact ⟨hrest, hprefix⟩
  · rintro ⟨hparts, hprefix⟩
    have hpath : sheet_path target = ['x', 'l', '/'] ++ target.dropWhile (· = '/') :=
      if_neg fun hp => hprefix (List.isPrefixOf_iff_prefix.mp hp)
    unfold named_part
    rw [hpath, drop_nothing (relative_of_valid hparts), location_plain hparts, render_xl]

/-! ## The law -/

/-- The archive is a workbook: `root` is the part that its first sheet names by `target`, and
every reference of a cell names a column. -/
structure Workbook (archive : Archive) (target : Text) (root : Element)
    (shared_strings : List Text) : Prop where
  strings : read_shared_strings archive = .ok shared_strings
  first : ∃ workbook rels map, archive "xl/workbook.xml".toList = .ok workbook ∧
    archive "xl/_rels/workbook.xml.rels".toList = .ok rels ∧ rel_map rels = .ok map ∧
    first_target workbook map = some target
  named : target ≠ []
  part : archive (named_part target) = .ok root
  columns : ∀ row ∈ sheet_rows root, ∃ columns, Columns 0 (row.find_all "c") columns

/-- The part that is read is the part of the first sheet, and in each of its rows the value of
a cell is put at the index of its column. -/
structure InPlace (py : Letters) (target : Text) (root : Element) : Prop where
  part : sheet_path target = named_part target
  cells : ∀ row ∈ sheet_rows root, ∀ columns, Columns 0 (row.find_all "c") columns →
    positions py 0 (row.find_all "c") = columns

/-- In each row the columns go up. -/
def Ordered (root : Element) : Prop :=
  ∀ row ∈ sheet_rows root, ∀ columns, Columns 0 (row.find_all "c") columns →
    columns.Pairwise (· < ·)

theorem in_place_iff (py : Letters) (target : Text) (root : Element) :
    InPlace py target root ↔ PlainTarget target ∧ Ordered root := by
  have hrow : ∀ {row : Element} {columns : List Nat}, Columns 0 (row.find_all "c") columns →
      (positions py 0 (row.find_all "c") = columns ↔ columns.Pairwise (· < ·)) := fun h =>
    (positions_iff py h).trans (and_iff_left fun j _ => Nat.zero_le j)
  constructor
  · intro h
    exact ⟨(sheet_path_iff target).mp h.part, fun row hmem columns hcolumns =>
      (hrow hcolumns).mp (h.cells row hmem columns hcolumns)⟩
  · rintro ⟨hplain, hordered⟩
    exact ⟨(sheet_path_iff target).mpr hplain, fun row hmem columns hcolumns =>
      (hrow hcolumns).mpr (hordered row hmem columns hcolumns)⟩

section
variable {py : Letters} {archive : Archive} {target : Text} {root : Element}
  {shared_strings : List Text}

theorem read_in_place (hw : Workbook archive target root shared_strings)
    (h : InPlace py target root) :
    read_xlsx_rows py archive = (sheet_rows root).map (xlsx_row_values py shared_strings) := by
  obtain ⟨workbook, rels, map, hworkbook, hrels, hmap, hfirst⟩ := hw.first
  have htarget : ∃ c rest, target = c :: rest := List.exists_cons_of_ne_nil hw.named
  obtain ⟨c, rest, htarget⟩ := htarget
  unfold read_xlsx_rows try_read
  simp only [hw.strings, hworkbook, hrels, hmap, bind, Except.bind, hfirst]
  rw [htarget] at h ⊢
  simp only
  have hpart := hw.part
  rw [htarget] at hpart
  rw [h.part, hpart]
  rfl

theorem Columns.length {next : Nat} {cells : List Element} {columns : List Nat}
    (h : Columns next cells columns) : columns.length = cells.length := by
  induction h with
  | nil => rfl
  | unnamed _ _ ih => exact congrArg (· + 1) ih
  | named _ _ _ ih => exact congrArg (· + 1) ih

/-- What is a number in a row is the value of the cell in its column. -/
theorem number_of_cell {F : Type} {float : Text → Option F} {cells : List Element}
    {columns : List Nat} {values : List Text} (hcolumns : columns.length = cells.length)
    (h : StandAt shared_strings cells columns values) {j : Nat} {text : Text} {x : F}
    (htext : values[j]? = some text) (hx : to_float float text = some x) :
    ∃ cell, (cell, j) ∈ cells.zip columns ∧
      to_float float (xlsx_cell_value shared_strings cell) = some x := by
  by_cases hmem : j ∈ columns
  · obtain ⟨k, hk, hj⟩ := List.mem_iff_getElem.mp hmem
    have hkc : k < cells.length := hcolumns ▸ hk
    have hzip : (cells[k], j) ∈ cells.zip columns :=
      List.mem_iff_getElem.mpr ⟨k, by rw [List.length_zip]; omega, by rw [List.getElem_zip, hj]⟩
    have hvalue := h.here _ hzip
    rw [htext] at hvalue
    exact ⟨_, hzip, Option.some.inj hvalue ▸ hx⟩
  · have hgap := h.gaps j (List.getElem?_eq_some_iff.mp htext).1 hmem
    rw [htext] at hgap
    rw [Option.some.inj hgap] at hx
    cases hx

/-- A pair of the series comes from one row. -/
theorem pair_of_some {F : Type} {float : Text → Option F} {time_index value_index : Nat}
    {row : List Text} {p : F × F} (h : pair_of float time_index value_index row = some p) :
    (∃ time, row[time_index]? = some time ∧ to_float float time = some p.1) ∧
      ∃ value, row[value_index]? = some value ∧ to_float float value = some p.2 := by
  unfold pair_of at h
  split at h
  · rename_i time value htime hvalue
    split at h
    · rename_i t v ht hv
      cases h
      exact ⟨⟨time, htime, ht⟩, value, hvalue, hv⟩
    · cases h
  · cases h

theorem within_of_findIdx {part : Text} {headers : List Text} {i : Nat}
    (h : headers.findIdx? (within part) = some i) : within part (headers.getD i []) = true := by
  obtain ⟨hi, hwithin, -⟩ := List.findIdx?_eq_some_iff_getElem.mp h
  rw [List.getD_eq_getElem?_getD, List.getElem?_eq_getElem hi]
  exact hwithin

theorem nearest_time_header_some {headers : List Text} {value_index time_index : Nat}
    (h : nearest_time_header headers value_index = some time_index) :
    within TIME (headers.getD time_index []) = true := by
  rcases Option.or_eq_some_iff.mp h with hleft | ⟨-, hfirst⟩
  · exact List.find?_some (p := fun index => within TIME (headers.getD index [])) hleft
  · exact within_of_findIdx hfirst

theorem extract_series_some {F : Type} {float : Text → Option F} {rows : List (List Text)}
    {headers : List Text} {value_name : Text} {times values : List F}
    (h : extract_series float rows headers value_name = some (times, values)) :
    ∃ time_index value_index, within TIME (headers.getD time_index []) = true ∧
      within value_name (headers.getD value_index []) = true ∧
      times = (rows.filterMap (pair_of float time_index value_index)).map Prod.fst ∧
      values = (rows.filterMap (pair_of float time_index value_index)).map Prod.snd := by
  unfold extract_series at h
  split at h
  · cases h
  · rename_i value_index hvalue
    split at h
    · cases h
    · rename_i time_index htime
      simp only at h
      split at h
      · cases h
      · cases h
        exact ⟨time_index, value_index, nearest_time_header_some htime, within_of_findIdx hvalue,
          rfl, rfl⟩

/-- LAW: The rows are decoded in place exactly if the target is a plain relative path and the
columns of every row go up. Then the values stand at their columns with blanks between, and a
series pairs numbers of one row: of a column with a time, and of the named column. -/
theorem rows_are_decoded_in_place (hw : Workbook archive target root shared_strings) :
    (InPlace py target root ↔ PlainTarget target ∧ Ordered root) ∧
    (InPlace py target root →
      List.Forall₂ (fun row values => ∀ columns, Columns 0 (row.find_all "c") columns →
        StandAt shared_strings (row.find_all "c") columns values)
        (sheet_rows root) (read_xlsx_rows py archive) ∧
      ∀ (F : Type) (float : Text → Option F) (skipped : Nat) (headers : List Text)
        (value_name : Text) (times values : List F),
        extract_series float ((read_xlsx_rows py archive).drop skipped) headers value_name =
          some (times, values) →
        times.length = values.length ∧
        ∃ time_index value_index, within TIME (headers.getD time_index []) = true ∧
          within value_name (headers.getD value_index []) = true ∧
          ∀ p ∈ times.zip values, ∃ row ∈ sheet_rows root, ∀ columns,
            Columns 0 (row.find_all "c") columns →
            (∃ cell, (cell, time_index) ∈ (row.find_all "c").zip columns ∧
              to_float float (xlsx_cell_value shared_strings cell) = some p.1) ∧
            ∃ cell, (cell, value_index) ∈ (row.find_all "c").zip columns ∧
              to_float float (xlsx_cell_value shared_strings cell) = some p.2) := by
  refine ⟨in_place_iff py target root, fun h => ?_⟩
  have hstand : ∀ row ∈ sheet_rows root, ∀ columns, Columns 0 (row.find_all "c") columns →
      StandAt shared_strings (row.find_all "c") columns
        (xlsx_row_values py shared_strings row) := by
    intro row hrow columns hcolumns
    have hstands := stand_at_positions py shared_strings row
    rw [h.cells row hrow columns hcolumns] at hstands
    exact hstands
  rw [read_in_place hw h]
  refine ⟨List.forall₂_map_right_iff.mpr (List.forall₂_same.mpr hstand), ?_⟩
  intro F float skipped headers value_name times values hseries
  obtain ⟨time_index, value_index, htime, hvalue, rfl, rfl⟩ := extract_series_some hseries
  refine ⟨by rw [List.length_map, List.length_map], time_index, value_index, htime, hvalue, ?_⟩
  intro p hp
  rw [List.zip_map', show (fun a : F × F => (a.1, a.2)) = id from rfl, List.map_id] at hp
  obtain ⟨values, hvalues, hpair⟩ := List.mem_filterMap.mp hp
  obtain ⟨row, hrow, rfl⟩ := List.mem_map.mp (List.mem_of_mem_drop hvalues)
  obtain ⟨⟨time, htext, hnumber⟩, data, hdata, hdatum⟩ := pair_of_some hpair
  refine ⟨row, hrow, fun columns hcolumns => ?_⟩
  have hcells := hstand row hrow columns hcolumns
  exact ⟨number_of_cell hcolumns.length hcells htext hnumber,
    number_of_cell hcolumns.length hcells hdata hdatum⟩

end

/-! ## Workbooks with one cell or two -/

/-- The Latin letters only. -/
def latin : Letters where
  is_alpha := Char.isAlpha
  upper := List.map Char.toUpper
  latin c hc := by
    have halpha : (c.isUpper || c.isLower) = true := by rw [hc, Bool.true_or]
    exact halpha
  digit c hc := by
    have hrange := digit_range hc
    have hself : Char.ofNat c.toNat = c := Char.ofNat_toNat c
    generalize c.toNat = k at hrange hself
    subst hself
    obtain ⟨hlow, hhigh⟩ := hrange
    interval_cases k <;> rfl
  upper_latin cs hcs := by
    refine (List.map_congr_left fun c hc => ?_).trans (List.map_id cs)
    have hrange := decimals.upper_range (hcs c hc)
    have hself : Char.ofNat c.toNat = c := Char.ofNat_toNat c
    generalize c.toNat = k at hrange hself
    subst hself
    obtain ⟨hlow, hhigh⟩ := hrange
    interval_cases k <;> rfl

def leaf (tag : String) (attrib : List (String × Text)) (text : Text) : Element :=
  .node (main tag) attrib (some text) []

def cell (ref value : Text) : Element :=
  .node (main "c") [("r", ref)] none [leaf "v" [] value]

def sheet_of (cells : List Element) : Element :=
  .node (main "worksheet") [] none
    [.node (main "sheetData") [] none [.node (main "row") [] none cells]]

/-- A workbook with one sheet, without shared strings. -/
def archive_of (target : Text) (cells : List Element) : Archive := fun part =>
  if part = "xl/workbook.xml".toList then
    .ok (.node (main "workbook") [] none
      [.node (main "sheets") [] none [leaf "sheet" [(REL_ID, ['1'])] []]])
  else if part = "xl/_rels/workbook.xml.rels".toList then
    .ok (.node "Relationships" [] none
      [.node "Relationship" [("Id", ['1']), ("Target", target)] none []])
  else if part = "xl/s.xml".toList then .ok (sheet_of cells)
  else .error .key_error

theorem a_refers_to_zero : RefersTo ['A', '1'] 0 :=
  ⟨['1'], by simp [Char.isDigit], by simp [column_letters]⟩

theorem b_refers_to_one : RefersTo ['B', '1'] 1 :=
  ⟨['1'], by simp [Char.isDigit], by simp [column_letters]⟩

/-- One cell, in a part that is named from the root. -/
def named_from_root : Archive := archive_of "/xl/s.xml".toList [cell ['A', '1'] ['7']]

/-- The second cell of the row comes first. -/
def from_right_to_left : Archive :=
  archive_of "s.xml".toList [cell ['B', '1'] ['b'], cell ['A', '1'] ['a']]

theorem workbook_named_from_root :
    Workbook named_from_root "/xl/s.xml".toList (sheet_of [cell ['A', '1'] ['7']]) [] where
  strings := rfl
  first := ⟨_, _, _, rfl, rfl, rfl, rfl⟩
  named := by decide
  part := rfl
  columns row hrow := by
    obtain rfl := List.mem_singleton.mp hrow
    exact ⟨[0], .named rfl a_refers_to_zero (.nil 1)⟩

theorem workbook_from_right_to_left :
    Workbook from_right_to_left "s.xml".toList
      (sheet_of [cell ['B', '1'] ['b'], cell ['A', '1'] ['a']]) [] where
  strings := rfl
  first := ⟨_, _, _, rfl, rfl, rfl, rfl⟩
  named := by decide
  part := rfl
  columns row hrow := by
    obtain rfl := List.mem_singleton.mp hrow
    exact ⟨[1, 0], .named rfl b_refers_to_one (.named rfl a_refers_to_zero (.nil 1))⟩

/-- The rows of a part that is named from the root are not read, and a cell that comes too late
stands in another column. -/
theorem workbooks_are_not_read_in_place :
    (Workbook named_from_root "/xl/s.xml".toList (sheet_of [cell ['A', '1'] ['7']]) [] ∧
      sheet_rows (sheet_of [cell ['A', '1'] ['7']]) ≠ [] ∧
      read_xlsx_rows latin named_from_root = []) ∧
    Workbook from_right_to_left "s.xml".toList
      (sheet_of [cell ['B', '1'] ['b'], cell ['A', '1'] ['a']]) [] ∧
    read_xlsx_rows latin from_right_to_left = [[[], ['b'], ['a']]] := by
  refine ⟨⟨workbook_named_from_root, List.cons_ne_nil _ _, ?_⟩, workbook_from_right_to_left, ?_⟩
  · decide +kernel
  · decide +kernel

theorem workbook_of_one_cell :
    Workbook (archive_of "s.xml".toList [cell ['B', '1'] ['7']]) "s.xml".toList
      (sheet_of [cell ['B', '1'] ['7']]) [] where
  strings := rfl
  first := ⟨_, _, _, rfl, rfl, rfl, rfl⟩
  named := by decide
  part := rfl
  columns row hrow := by
    obtain rfl := List.mem_singleton.mp hrow
    exact ⟨[1], .named rfl b_refers_to_one (.nil 2)⟩

/-- A cell in a part that is named from the workbook is read in place. -/
theorem a_plain_workbook_is_read_in_place :
    InPlace latin "s.xml".toList (sheet_of [cell ['B', '1'] ['7']]) := by
  refine (rows_are_decoded_in_place workbook_of_one_cell).1.mpr ⟨⟨by decide, by decide⟩, ?_⟩
  intro row hrow columns hcolumns
  obtain rfl := List.mem_singleton.mp hrow
  obtain ⟨j, rfl⟩ := List.length_eq_one_iff.mp hcolumns.length
  exact List.pairwise_singleton _ j

end dr_boz.spreadsheet_rows
