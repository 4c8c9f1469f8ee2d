-- Paths as the POSIX functions of a standard library read them, on a system
-- without symbolic links: where a path leads to, and what joining and
-- normalising do to that place.
import Mathlib.Data.List.Induction

namespace posix_paths

abbrev Path := List Char

/-- A part of a path between two slashes. -/
abbrev Name := List Char

/-! ## Where a path leads to -/

def parts (p : Path) : List Name := p.splitOn '/'

def isabs (p : Path) : Bool := p.head? = some '/'

/-- A part that leads nowhere: nothing, or a dot. -/
def idle (name : Name) : Bool := name = [] || name = ['.']

/-- One step down to a name, up with two dots, or none. -/
def walk_step (place : List Name) (name : Name) : List Name :=
  if idle name then place
  else if name = ['.', '.'] then place.dropLast
  else place ++ [name]

def walk (place : List Name) (names : List Name) : List Name := names.foldl walk_step place

/-- The place that a path leads to from the directory `cwd`: the names on the way from the root. -/
def location (cwd : List Name) (p : Path) : List Name :=
  walk (if isabs p then [] else cwd) (parts p)

/-- A place is strictly inside of a directory. -/
def Inside (dir place : List Name) : Prop := dir <+: place ∧ place ≠ dir

instance (dir place : List Name) : Decidable (Inside dir place) := by
  unfold Inside
  exact inferInstance

theorem inside_iff {dir place : List Name} :
    Inside dir place ↔ ∃ rest, rest ≠ [] ∧ dir ++ rest = place := by
  constructor
  · rintro ⟨⟨rest, hrest⟩, hne⟩
    refine ⟨rest, ?_, hrest⟩
    rintro rfl
    rw [List.append_nil] at hrest
    exact hne hrest.symm
  · rintro ⟨rest, hne, rfl⟩
    refine ⟨List.prefix_append _ _, ?_⟩
    intro h
    exact hne (List.append_right_eq_self.mp h)

@[simp] theorem walk_append (place names more : List Name) :
    walk place (names ++ more) = walk (walk place names) more := by
  simp [walk]

/-! ## How far a path climbs -/

/-- One name of a relative path: how often it has led above its start, and the names below. -/
def climb_step (s : Nat × List Name) (name : Name) : Nat × List Name :=
  if idle name then s
  else if name = ['.', '.'] then (if s.2 = [] then (s.1 + 1, []) else (s.1, s.2.dropLast))
  else (s.1, s.2 ++ [name])

/-- How often the names lead above where they start, and the names below that they end at. -/
def climb (names : List Name) : Nat × List Name := names.foldl climb_step (0, [])

/-- A walk goes up as often as the names climb, and then down the names that they end at. -/
theorem walk_eq_climb (place names : List Name) :
    walk place names = place.take (place.length - (climb names).1) ++ (climb names).2 := by
  induction names using List.reverseRecOn with
  | nil => simp [walk, climb]
  | append_singleton names name ih =>
    have hclimb : climb (names ++ [name]) = climb_step (climb names) name := by simp [climb]
    have hwalk : walk place (names ++ [name]) = walk_step (walk place names) name := by
      simp [walk]
    rw [hwalk, ih, hclimb]
    unfold walk_step climb_step
    split
    · rfl
    · split
      · by_cases hnone : (climb names).2 = []
        · rw [if_pos hnone, hnone, List.append_nil, List.append_nil, List.dropLast_eq_take,
            List.take_take, List.length_take]
          congr 1
          omega
        · rw [if_neg hnone, List.dropLast_append_of_ne_nil hnone]
      · rw [List.append_assoc]

/-- The path leads from the directory `start` into the directory `dir`: from as far above the
start as the path climbs, its last names go down through `dir`. -/
def LeadsInto (start dir : List Name) (p : Path) : Prop :=
  Inside dir ((if isabs p then [] else start.take (start.length - (climb (parts p)).1)) ++
    (climb (parts p)).2)

instance (start dir : List Name) (p : Path) : Decidable (LeadsInto start dir p) := by
  unfold LeadsInto
  exact inferInstance

theorem leadsInto_iff {start dir : List Name} {p : Path} :
    LeadsInto start dir p ↔ Inside dir (location start p) := by
  unfold LeadsInto location
  rw [walk_eq_climb]
  split
  · simp only [List.take_nil]
  · exact Iff.rfl

/-! ## Joining -/

/-- `os.path.join(a, b)` -/
def join (a b : Path) : Path :=
  if isabs b then b
  else if a = [] ∨ a.getLast? = some '/' then a ++ b
  else a ++ '/' :: b

theorem parts_cons (a b : Path) : parts (a ++ '/' :: b) = parts a ++ parts b :=
  List.splitOn_append_cons_self a b

/-- The parts of a path that ends with a slash end with an empty part. -/
theorem parts_slash (a : Path) : parts (a ++ ['/']) = parts a ++ [[]] := parts_cons a []

theorem walk_idle (place : List Name) {name : Name} (h : idle name = true) :
    walk place [name] = place := by
  simp [walk, walk_step, h]

theorem isabs_append {a : Path} (ha : a ≠ []) (c : Path) : isabs (a ++ c) = isabs a := by
  rcases a with _ | ⟨x, a⟩
  · exact absurd rfl ha
  · rfl

theorem isabs_join {a : Path} (ha : isabs a = true) (b : Path) : isabs (join a b) = true := by
  have hne : a ≠ [] := by
    rintro rfl
    cases ha
  unfold join
  split
  · assumption
  · split
    · rw [isabs_append hne, ha]
    · rw [isabs_append hne, ha]

/-- A relative path joined to another one leads on from there. -/
theorem location_join (cwd : List Name) (a b : Path) :
    location cwd (join a b) = location (location cwd a) b := by
  unfold join
  by_cases hb : isabs b = true
  · rw [if_pos hb]
    unfold location
    rw [if_pos hb, if_pos hb]
  · rw [if_neg hb]
    by_cases hne : a = []
    · rw [if_pos (Or.inl hne), hne]
      rfl
    · have habs := isabs_append hne
      split
      · rename_i hend
        -- The slash at the end of the first path stands between the two.
        obtain ⟨front, hfront⟩ : ∃ front, a = front ++ ['/'] := by
          rcases List.eq_nil_or_concat a with hnil | ⟨front, x, hx⟩
          · exact absurd hnil hne
          · rw [List.concat_eq_append] at hx
            rw [hx] at hend
            simp only [List.append_eq_nil_iff, List.cons_ne_self, and_false, false_or,
              List.getLast?_append, List.getLast?_singleton, Option.some_or,
              Option.some.injEq] at hend
            exact ⟨front, by rw [hx, hend]⟩
        unfold location
        rw [habs b, if_neg hb]
        rw [hfront, parts_slash, walk_append, walk_idle _ rfl, List.append_assoc,
          List.singleton_append, parts_cons, walk_append]
      · unfold location
        rw [habs, if_neg hb, parts_cons, walk_append]

/-! ## Names that are written out -/

/-- A name of a directory: not empty, without a slash, and no dots. -/
def ValidName (name : Name) : Prop :=
  name ≠ [] ∧ '/' ∉ name ∧ name ≠ ['.'] ∧ name ≠ ['.', '.']

instance (name : Name) : Decidable (ValidName name) := by
  unfold ValidName
  exact inferInstance

/-- An absolute path with `slashes` slashes before its names. -/
def render (slashes : Nat) (names : List Name) : Path :=
  List.replicate slashes '/' ++ ['/'].intercalate names

/-- The names of a path, as `commonpath` takes them. -/
def names_of (p : Path) : List Name := (parts p).filter fun name => !idle name

theorem parts_no_slash (p : Path) : ∀ name ∈ parts p, '/' ∉ name := by
  induction p with
  | nil =>
    intro name hname
    have hnil : name = [] := by simpa [parts] using hname
    rw [hnil]
    simp
  | cons c p ih =>
    intro name hname
    unfold parts at hname ih
    rw [List.splitOn_cons_eq_if_modifyHead] at hname
    split at hname
    · rcases List.mem_cons.mp hname with rfl | hname
      · simp
      · exact ih name hname
    · rename_i hc
      rcases hsplit : p.splitOn '/' with _ | ⟨first, rest⟩
      · exact absurd hsplit (List.splitOn_ne_nil _ _)
      · rw [hsplit, List.modifyHead_cons] at hname
        rw [hsplit] at ih
        rcases List.mem_cons.mp hname with rfl | hname
        · have hfirst := ih first List.mem_cons_self
          simp only [List.mem_cons, not_or]
          refine ⟨?_, hfirst⟩
          intro h
          exact hc (by rw [← h]; simp)
        · exact ih name (List.mem_cons_of_mem _ hname)

/-- A walk from names that are valid keeps them so. -/
theorem walk_valid {place names : List Name} (hplace : ∀ name ∈ place, ValidName name)
    (hnames : ∀ name ∈ names, '/' ∉ name) : ∀ name ∈ walk place names, ValidName name := by
  induction names generalizing place with
  | nil => exact hplace
  | cons name names ih =>
    refine ih ?_ fun n hn => hnames n (List.mem_cons_of_mem _ hn)
    intro n hn
    unfold walk_step at hn
    split at hn
    · exact hplace n hn
    · rename_i hidle
      split at hn
      · exact hplace n (List.dropLast_subset _ hn)
      · rename_i hdots
        rcases List.mem_append.mp hn with hn | hn
        · exact hplace n hn
        · rw [List.mem_singleton.mp hn]
          simp only [idle, Bool.or_eq_true, decide_eq_true_eq, not_or] at hidle
          exact ⟨hidle.1, hnames name List.mem_cons_self, hidle.2, hdots⟩

theorem location_valid {cwd : List Name} (hcwd : ∀ name ∈ cwd, ValidName name) (p : Path) :
    ∀ name ∈ location cwd p, ValidName name := by
  unfold location
  split
  · exact walk_valid (by simp) (parts_no_slash p)
  · exact walk_valid hcwd (parts_no_slash p)

theorem parts_replicate (slashes : Nat) (p : Path) :
    parts (List.replicate slashes '/' ++ p) = List.replicate slashes [] ++ parts p := by
  induction slashes with
  | zero => rfl
  | succ n ih =>
    rw [List.replicate_succ, List.replicate_succ, List.cons_append, List.cons_append, ← ih]
    exact parts_cons [] (List.replicate n '/' ++ p)

theorem parts_intercalate {names : List Name} (h : ∀ name ∈ names, '/' ∉ name)
    (hne : names ≠ []) : parts (['/'].intercalate names) = names := by
  induction names with
  | nil => exact absurd rfl hne
  | cons name names ih =>
    rcases names with _ | ⟨next, names⟩
    · have hsingle : ['/'].intercalate [name] = name := by simp [List.intercalate]
      rw [hsingle]
      exact List.splitOn_eq_singleton (h name List.mem_cons_self)
    · have hcons : ['/'].intercalate (name :: next :: names) =
          name ++ '/' :: ['/'].intercalate (next :: names) := by
        simp [List.intercalate]
      rw [hcons, parts_cons, ih (fun n hn => h n (List.mem_cons_of_mem _ hn)) (by simp)]
      have hname : parts name = [name] := List.splitOn_eq_singleton (h name List.mem_cons_self)
      rw [hname]
      rfl

theorem not_idle {name : Name} (h : ValidName name) : idle name = false := by
  simp [idle, h.1, h.2.2.1]

/-- The names of a path that is written out are the names. -/
theorem names_of_render (slashes : Nat) {names : List Name} (h : ∀ name ∈ names, ValidName name) :
    names_of (render slashes names) = names := by
  have hparts : names_of (['/'].intercalate names) = names := by
    unfold names_of
    by_cases hne : names = []
    · rw [hne]
      rfl
    · rw [parts_intercalate (fun name hn => (h name hn).2.1) hne]
      exact List.filter_eq_self.mpr fun name hn => by simp [not_idle (h name hn)]
  unfold names_of render at *
  rw [parts_replicate, List.filter_append, hparts]
  have hslashes : (List.replicate slashes ([] : Name)).filter (fun name => !idle name) = [] := by
    rw [List.filter_eq_nil_iff]
    intro name hname
    rw [List.eq_of_mem_replicate hname]
    decide
  rw [hslashes, List.nil_append]

/-- Parts that lead nowhere can be left out of a walk. -/
theorem walk_filter (place names : List Name) :
    walk place (names.filter fun name => !idle name) = walk place names := by
  induction names generalizing place with
  | nil => rfl
  | cons name names ih =>
    by_cases hidle : idle name = true
    · rw [List.filter_cons_of_neg (by simp [hidle]), ih]
      simp [walk, walk_step, hidle]
    · rw [List.filter_cons_of_pos (by simpa using hidle)]
      exact ih _

theorem walk_names {place names : List Name} (h : ∀ name ∈ names, ValidName name) :
    walk place names = place ++ names := by
  induction names generalizing place with
  | nil => simp [walk]
  | cons name names ih =>
    have hname := h name List.mem_cons_self
    have hstep : walk_step place name = place ++ [name] := by
      simp [walk_step, not_idle hname, hname.2.2.2]
    have hrest : walk place (name :: names) = walk (walk_step place name) names := rfl
    rw [hrest, hstep, ih fun n hn => h n (List.mem_cons_of_mem _ hn), List.append_assoc]
    rfl

theorem not_isabs_name {name : Name} (h : ValidName name) : ¬isabs name = true := by
  intro habs
  obtain ⟨x, rest, rfl⟩ := List.exists_cons_of_ne_nil h.1
  simp only [isabs, List.head?_cons, Option.some.injEq, decide_eq_true_eq] at habs
  exact h.2.1 (habs ▸ List.mem_cons_self)

/-- A name joined to a path leads one step further down. -/
theorem location_join_name (cwd : List Name) (a : Path) {name : Name} (h : ValidName name) :
    location cwd (join a name) = location cwd a ++ [name] := by
  have hparts : parts name = [name] := List.splitOn_eq_singleton h.2.1
  have hdown : walk (location cwd a) [name] = location cwd a ++ [name] :=
    walk_names fun n hn => List.mem_singleton.mp hn ▸ h
  rw [location_join, ← hdown]
  unfold location
  rw [if_neg (not_isabs_name h), hparts]

theorem isabs_render (slashes : Nat) (names : List Name) :
    isabs (render (slashes + 1) names) = true := by
  simp [isabs, render, List.replicate_succ]

/-- A path that is written out leads to its names. -/
theorem location_render (cwd : List Name) (slashes : Nat) {names : List Name}
    (h : ∀ name ∈ names, ValidName name) : location cwd (render (slashes + 1) names) = names := by
  have hnames := names_of_render (slashes + 1) h
  unfold names_of at hnames
  unfold location
  rw [if_pos (isabs_render slashes names), ← walk_filter, hnames, walk_names h, List.nil_append]

/-! ## Normal paths -/

/-- One part in the loop of `os.path.normpath`. -/
def norm_step (rooted : Bool) (comps : List Name) (name : Name) : List Name :=
  if idle name then comps
  else if name ≠ ['.', '.'] ∨ (rooted = false ∧ comps = []) ∨ comps.getLast? = some ['.', '.'] then
    comps ++ [name]
  else comps.dropLast

/-- POSIX keeps two slashes at the start, and takes three or more as one. -/
def leading_slashes (p : Path) : Nat :=
  if isabs p then (if ['/', '/'] <+: p ∧ ¬['/', '/', '/'] <+: p then 2 else 1) else 0

/-- `os.path.normpath(p)` -/
def normpath (p : Path) : Path :=
  let path := render (leading_slashes p) ((parts p).foldl (norm_step (isabs p)) [])
  if path = [] then ['.'] else path

/-- `os.path.abspath(p)` in the directory `cwd`. -/
def abspath (cwd : List Name) (p : Path) : Path :=
  normpath (if isabs p then p else join (render 1 cwd) p)

/-- Below the root, the loop of `normpath` walks. -/
theorem norm_eq_walk (names : List Name) (hnames : ∀ name ∈ names, '/' ∉ name) :
    names.foldl (norm_step true) [] = walk [] names := by
  induction names using List.reverseRecOn with
  | nil => rfl
  | append_singleton names name ih =>
    have hbefore := ih fun n hn => hnames n (List.mem_append_left _ hn)
    have hvalid : ∀ n ∈ walk [] names, ValidName n := walk_valid (by simp) fun n hn =>
      hnames n (List.mem_append_left [name] hn)
    have hdots : (walk [] names).getLast? ≠ some ['.', '.'] := by
      intro hlast
      exact (hvalid _ (List.mem_of_getLast? hlast)).2.2.2 rfl
    rw [List.foldl_append, hbefore, walk_append]
    simp only [List.foldl_cons, List.foldl_nil, walk, norm_step, walk_step] at hdots ⊢
    by_cases hidle : idle name = true
    · rw [if_pos hidle, if_pos hidle]
    · rw [if_neg hidle, if_neg hidle]
      by_cases hname : name = ['.', '.']
      · rw [if_pos hname, if_neg]
        rintro (h | ⟨h, _⟩ | h)
        · exact h hname
        · cases h
        · exact hdots h
      · rw [if_neg hname, if_pos (Or.inl hname)]

theorem leading_slashes_le (p : Path) : leading_slashes p ≤ 2 := by
  unfold leading_slashes
  by_cases hp : isabs p = true
  · rw [if_pos hp]
    split <;> omega
  · rw [if_neg hp]
    omega

/-- An absolute path normalises to the place that it leads to. -/
theorem normpath_eq_render {p : Path} (h : isabs p = true) (cwd : List Name) :
    normpath p = render (leading_slashes p) (location cwd p) := by
  obtain ⟨slashes, hs⟩ : ∃ slashes, leading_slashes p = slashes + 1 := by
    unfold leading_slashes
    rw [if_pos h]
    split
    · exact ⟨1, rfl⟩
    · exact ⟨0, rfl⟩
  unfold normpath location
  rw [hs, h, norm_eq_walk _ (parts_no_slash p), if_pos rfl]
  simp only
  rw [if_neg]
  simp [render, List.replicate_succ]

/-- `abspath` gives the place that a path leads to, behind one slash or two. -/
theorem abspath_eq_render {cwd : List Name} (hcwd : ∀ name ∈ cwd, ValidName name) (p : Path) :
    ∃ slashes, slashes + 1 ≤ 2 ∧ abspath cwd p = render (slashes + 1) (location cwd p) := by
  have habs : ∀ q, isabs q = true → location cwd q = location cwd p →
      ∃ slashes, slashes + 1 ≤ 2 ∧ normpath q = render (slashes + 1) (location cwd p) := by
    intro q hq hplace
    have hpos : 0 < leading_slashes q := by
      unfold leading_slashes
      rw [if_pos hq]
      split <;> omega
    obtain ⟨slashes, hs⟩ := Nat.exists_eq_add_one.mpr hpos
    refine ⟨slashes, hs ▸ leading_slashes_le q, ?_⟩
    rw [normpath_eq_render hq cwd, hs, hplace]
  unfold abspath
  by_cases hp : isabs p = true
  · rw [if_pos hp]
    exact habs p hp rfl
  · rw [if_neg hp]
    refine habs _ (isabs_join (isabs_render 0 cwd) p) ?_
    rw [location_join, location_render cwd 0 hcwd]

/-- `abspath` gives the place that a path leads to. -/
theorem abspath_eq {cwd : List Name} (hcwd : ∀ name ∈ cwd, ValidName name) (p : Path) :
    ∃ slashes, abspath cwd p = render (slashes + 1) (location cwd p) := by
  obtain ⟨slashes, -, hpath⟩ := abspath_eq_render hcwd p
  exact ⟨slashes, hpath⟩

theorem location_abspath {cwd : List Name} (hcwd : ∀ name ∈ cwd, ValidName name) (p : Path) :
    location cwd (abspath cwd p) = location cwd p := by
  obtain ⟨slashes, hpath⟩ := abspath_eq hcwd p
  rw [hpath]
  exact location_render cwd slashes (location_valid hcwd p)

/-! ## Paths that are normal -/

/-- Names in a row neither begin nor end with a slash. -/
theorem intercalate_ends {names : List Name} (h : ∀ name ∈ names, ValidName name)
    (hne : names ≠ []) : ∃ c rest, c ≠ '/' ∧ ['/'].intercalate names = c :: rest ∧
      (c :: rest).getLast? ≠ some '/' := by
  induction names with
  | nil => exact absurd rfl hne
  | cons name names ih =>
    have hname := h name List.mem_cons_self
    obtain ⟨c, rest, rfl⟩ := List.exists_cons_of_ne_nil hname.1
    have hc : c ≠ '/' := fun he => hname.2.1 (he ▸ List.mem_cons_self)
    by_cases hnone : names = []
    · rw [hnone, List.intercalate_singleton]
      exact ⟨c, rest, hc, rfl, fun hlast => hname.2.1 (List.mem_of_getLast? hlast)⟩
    · obtain ⟨d, more, -, hmore, hlast⟩ :=
        ih (fun n hn => h n (List.mem_cons_of_mem _ hn)) hnone
      refine ⟨c, rest ++ '/' :: d :: more, hc, ?_, ?_⟩
      · rw [List.intercalate_cons_of_ne_nil hnone, hmore]
        simp
      · rw [← List.cons_append, List.getLast?_append, List.getLast?_cons_cons,
          List.getLast?_eq_some_getLast (List.cons_ne_nil d more)]
        rwa [List.getLast?_eq_some_getLast (List.cons_ne_nil d more)] at hlast

theorem render_concat (slashes : Nat) {names : List Name} (hne : names ≠ []) (name : Name) :
    render slashes (names ++ [name]) = render slashes names ++ '/' :: name := by
  have hrow : ['/'].intercalate (names ++ [name]) = ['/'].intercalate names ++ '/' :: name := by
    induction names with
    | nil => exact absurd rfl hne
    | cons first names ih =>
      by_cases hnone : names = []
      · rw [hnone, List.intercalate_singleton]
        simp [List.intercalate]
      · rw [List.cons_append, List.intercalate_cons_of_ne_nil (by simp), ih hnone,
          List.intercalate_cons_of_ne_nil hnone]
        simp
  unfold render
  rw [hrow, List.append_assoc]

/-- A path that is written out keeps its slashes. -/
theorem leading_slashes_render {slashes : Nat} (hpos : 0 < slashes) (hle : slashes ≤ 2)
    {names : List Name} (h : ∀ name ∈ names, ValidName name) (hne : names ≠ []) :
    leading_slashes (render slashes names) = slashes := by
  obtain ⟨c, rest, hc, hrow, -⟩ := intercalate_ends h hne
  unfold leading_slashes render
  rw [hrow]
  rcases (by omega : slashes = 1 ∨ slashes = 2) with rfl | rfl
  · simp [isabs, List.replicate, List.cons_prefix_cons, hc.symm]
  · simp [isabs, List.replicate, List.cons_prefix_cons, hc.symm]

/-- A normal path normalises to itself. -/
theorem normpath_render {slashes : Nat} (hpos : 0 < slashes) (hle : slashes ≤ 2)
    {names : List Name} (h : ∀ name ∈ names, ValidName name) (hne : names ≠ []) :
    normpath (render slashes names) = render slashes names := by
  obtain ⟨n, rfl⟩ := Nat.exists_eq_add_one.mpr hpos
  rw [normpath_eq_render (isabs_render n names) [], leading_slashes_render hpos hle h hne,
    location_render [] n h]

/-- A name in a directory that is written out stands behind it. -/
theorem abspath_join_name {cwd : List Name} (hcwd : ∀ name ∈ cwd, ValidName name) {dir : Path}
    (hdir : location cwd dir ≠ []) {name : Name} (h : ValidName name) :
    abspath cwd (join (abspath cwd dir) name) = abspath cwd dir ++ '/' :: name := by
  obtain ⟨slashes, hle, hpath⟩ := abspath_eq_render hcwd dir
  have hvalid := location_valid hcwd dir
  have hrow : ∀ n ∈ location cwd dir ++ [name], ValidName n := fun n hn =>
    (List.mem_append.mp hn).elim (hvalid n) fun hn => List.mem_singleton.mp hn ▸ h
  have hjoin : join (render (slashes + 1) (location cwd dir)) name =
      render (slashes + 1) (location cwd dir ++ [name]) := by
    obtain ⟨c, rest, -, hnames, hlast⟩ := intercalate_ends hvalid hdir
    rw [render_concat _ hdir]
    unfold join
    rw [if_neg, if_neg]
    · rintro (hnil | hslash)
      · cases hnil
      · unfold render at hslash
        rw [hnames, List.getLast?_append, List.getLast?_eq_some_getLast (List.cons_ne_nil c rest)]
          at hslash
        rw [List.getLast?_eq_some_getLast (List.cons_ne_nil c rest)] at hlast
        exact hlast hslash
    · exact not_isabs_name h
  rw [hpath, hjoin]
  unfold abspath
  rw [if_pos (isabs_render _ _), normpath_render (Nat.succ_pos _) hle hrow (by simp),
    render_concat _ hdir]

/-! ## Resolved paths -/

/-- `Path(p).resolve()` in the directory `cwd`. -/
def resolve (cwd : List Name) (p : Path) : Path := render 1 (location cwd p)

/-- `root in p.parents` of two resolved paths. -/
def is_parent (root p : Path) : Bool := decide (Inside (names_of root) (names_of p))

theorem location_resolve {cwd : List Name} (hcwd : ∀ name ∈ cwd, ValidName name) (p : Path) :
    location cwd (resolve cwd p) = location cwd p :=
  location_render cwd 0 (location_valid hcwd p)

theorem is_parent_resolve {cwd : List Name} (hcwd : ∀ name ∈ cwd, ValidName name) (p q : Path) :
    is_parent (resolve cwd p) (resolve cwd q) = true ↔
      Inside (location cwd p) (location cwd q) := by
  unfold is_parent resolve
  rw [decide_eq_true_eq, names_of_render 1 (location_valid hcwd p),
    names_of_render 1 (location_valid hcwd q)]

/-- `PurePath.suffix` of a last name: from its last dot on, if something is before and after it. -/
def suffix (name : Name) : List Char :=
  let extension := (name.reverse.takeWhile (· ≠ '.')).reverse
  if extension = [] ∨ name.length ≤ extension.length + 1 then [] else '.' :: extension

/-! ## Last names -/

/-- `os.path.basename(p)` -/
def basename (p : Path) : Name := (p.reverse.takeWhile (· ≠ '/')).reverse

/-- `os.path.splitext` of a last name. Dots at its start begin no extension. -/
def splitext (name : Name) : Name × Name :=
  let after := (name.reverse.takeWhile (· ≠ '.')).reverse
  let stem := name.take (name.length - after.length - 1)
  if after.length = name.length ∨ stem.all (· = '.') then (name, [])
  else (stem, name.drop (name.length - after.length - 1))

example : splitext "a.tar.gz".toList = ("a.tar".toList, ".gz".toList) := by decide

example : splitext "..a".toList = ("..a".toList, []) := by decide

theorem basename_no_slash (p : Path) : '/' ∉ basename p := by
  unfold basename
  intro h
  rw [List.mem_reverse] at h
  have hne := List.all_eq_true.mp List.all_takeWhile '/' h
  simp at hne

theorem splitext_no_slash {name : Name} (h : '/' ∉ name) :
    '/' ∉ (splitext name).1 ∧ '/' ∉ (splitext name).2 := by
  unfold splitext
  simp only
  split
  · exact ⟨h, by simp⟩
  · exact ⟨fun hm => h (List.mem_of_mem_take hm), fun hm => h (List.mem_of_mem_drop hm)⟩

/-! ## The common path -/

/-- The names that two paths have in common at the start. -/
def common : List Name → List Name → List Name
  | a :: as, b :: bs => if a = b then a :: common as bs else []
  | _, _ => []

/-- `os.path.commonpath([a, b])` of two absolute paths. -/
def commonpath (a b : Path) : Path := render 1 (common (names_of a) (names_of b))

theorem common_prefix (as bs : List Name) : common as bs <+: as ∧ common as bs <+: bs := by
  induction as generalizing bs with
  | nil => exact ⟨List.nil_prefix, List.nil_prefix⟩
  | cons a as ih =>
    rcases bs with _ | ⟨b, bs⟩
    · exact ⟨List.nil_prefix, List.nil_prefix⟩
    · unfold common
      split
      · rename_i hab
        obtain ⟨h1, h2⟩ := ih bs
        rw [← hab]
        exact ⟨List.cons_prefix_cons.mpr ⟨rfl, h1⟩, List.cons_prefix_cons.mpr ⟨rfl, h2⟩⟩
      · exact ⟨List.nil_prefix, List.nil_prefix⟩

/-- Where the common path is the first path, the second one is that place or inside of it. -/
theorem prefix_of_commonpath {slashes slashes' : Nat} {as bs : List Name}
    (ha : ∀ name ∈ as, ValidName name) (hb : ∀ name ∈ bs, ValidName name)
    (h : commonpath (render slashes as) (render slashes' bs) = render slashes as) : as <+: bs := by
  unfold commonpath at h
  rw [names_of_render slashes ha, names_of_render slashes' hb] at h
  obtain ⟨hleft, hright⟩ := common_prefix as bs
  have hnames := congrArg names_of h
  rw [names_of_render slashes ha,
    names_of_render 1 fun name hn => ha name (hleft.subset hn)] at hnames
  rwa [hnames] at hright

/-! ## Paths that start with a directory -/

theorem parts_render (slashes : Nat) {names : List Name} (h : ∀ name ∈ names, ValidName name)
    (hne : names ≠ []) : parts (render slashes names) = List.replicate slashes [] ++ names := by
  unfold render
  rw [parts_replicate, parts_intercalate (fun name hn => (h name hn).2.1) hne]

/-- `p.startswith(dir + "/")`, of two paths that are written out: the second
leads inside of the first. -/
theorem inside_of_startswith {slashes slashes' : Nat} {as bs : List Name}
    (ha : ∀ name ∈ as, ValidName name) (hb : ∀ name ∈ bs, ValidName name) (hne : as ≠ [])
    (h : render slashes as ++ ['/'] <+: render slashes' bs) : Inside as bs := by
  obtain ⟨rest, hrest⟩ := h
  rw [List.append_assoc, List.singleton_append] at hrest
  have hnames : bs = as ++ names_of rest := by
    have hof := congrArg names_of hrest
    unfold names_of at hof
    rw [parts_cons, List.filter_append] at hof
    have hleft := names_of_render slashes ha
    have hright := names_of_render slashes' hb
    unfold names_of at hleft hright
    rw [hleft, hright] at hof
    exact hof.symm
  refine inside_iff.mpr ⟨names_of rest, ?_, hnames.symm⟩
  -- Without a name after the slash, the second path would have more slashes in front.
  intro hnone
  rw [hnone, List.append_nil] at hnames
  subst hnames
  have hparts := congrArg parts hrest
  rw [parts_cons, parts_render slashes ha hne, parts_render slashes' ha hne] at hparts
  have hpos : 0 < (parts rest).length :=
    List.length_pos_iff.mpr (List.splitOn_ne_nil _ _)
  have hlength := congrArg List.length hparts
  simp only [List.length_append, List.length_replicate] at hlength
  have hat := congrArg (fun l => l[slashes]?) hparts
  simp only [List.append_assoc] at hat
  rw [List.getElem?_append_right (by simp), List.length_replicate, Nat.sub_self,
    List.getElem?_append_left (List.length_pos_iff.mpr hne),
    List.getElem?_append_left (by rw [List.length_replicate]; omega),
    List.getElem?_replicate, if_pos (by omega)] at hat
  exact (ha [] (List.mem_of_getElem? hat)).1 rfl

end posix_paths
