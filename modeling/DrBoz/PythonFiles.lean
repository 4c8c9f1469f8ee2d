-- The files that a call of `run_python` reports and delivers. All calls share
-- the directory of the server and the one for temporary files, and a call takes
-- for its own what changed there while it ran, and what its output names.
import Mathlib.Data.List.Dedup
import DrBoz.Lib.Runs
import DrBoz.Lib.TextScan
import DrBoz.SharedFiles
import DrBoz.Texts

open posix_paths runs text_scan dr_boz.py dr_boz.shared_files

namespace dr_boz.python_files

/-! ## `tool_file_tracking` -/

/-- `sorted` of the resolved paths, each one once. -/
def sorted (places : List Place) : List Place :=
  places.dedup.mergeSort fun a b => decide (str a ≤ str b)

@[simp] theorem mem_sorted {places : List Place} {place : Place} :
    place ∈ sorted places ↔ place ∈ places := by
  unfold sorted
  rw [List.mem_mergeSort, List.mem_dedup]

def TRACKED_TEMP_EXTENSIONS : List String :=
  [".csv", ".docx", ".jpeg", ".jpg", ".pdf", ".png", ".webp", ".xls", ".xlsx"]

def tracked (place : Place) : Bool := suffix_of place ∈ TRACKED_TEMP_EXTENSIONS

/-- The directory of the server and the one for temporary files. -/
structure Dirs where
  cwd : List Name
  temp_dir : List Name

/-- `_iter_candidate_files` looks at the files with a dot in their name, in the two directories. -/
def candidate (dirs : Dirs) (place : Place) : Bool :=
  match place.getLast? with
  | none => false
  | some name =>
    '.' ∈ name &&
      (place.dropLast = dirs.cwd || place.dropLast = dirs.temp_dir && tracked place)

def snapshot_tool_files (dirs : Dirs) (files : List File) : List File :=
  files.filter fun file => candidate dirs file.place

def changed_tool_files (dirs : Dirs) (before files : List File) (exclude : Place) : List Place :=
  let changed := files.filter fun file => candidate dirs file.place && file.place ≠ exclude &&
    signature_at before file.place ≠ signature_at files file.place
  sorted (changed.map (·.place))

/-- A dot and one to eight letters or digits. -/
def extension_pattern : Pattern Unit
  | '.' :: text =>
    let n := min 8 (text.takeWhile Char.isAlphanum).length
    if n = 0 then none else some ((), n + 1)
  | _ => none

def path_character (c : Char) : Bool := !isSpace c && c ∉ "'\"<>|".toList

/-- Characters of a path up to the first extension after at least one of them. -/
def name_pattern : Pattern Unit
  | [] => none
  | c :: text =>
    if path_character c then
      match extension_pattern text with
      | some (_, n) => some ((), n + 1)
      | none => (name_pattern text).map fun (_, n) => ((), n + 1)
    else none

/-- The expression for a path in an output. -/
def path_pattern : Pattern (List Char) := fun text =>
  ["/", "../", "./", ""].findSome? fun start => do
    let rest ← literal start.toList text
    let (_, n) ← name_pattern rest
    some (text.take (start.toList.length + n), start.toList.length + n)

/-- The characters that are taken from the end of a match. -/
def rstrip (path : List Char) : List Char :=
  (path.reverse.dropWhile (· ∈ ".,;:)]\x7d".toList)).reverse

example : (finditer path_pattern "saved ./a.csv, and /t/b.pdf.".toList).map (·.captured) =
    ["./a.csv".toList, "/t/b.pdf".toList] := by decide +kernel

/-- The places that an output names. -/
def named_places (dirs : Dirs) (output : String) : List Place :=
  (finditer path_pattern output.toList).map fun found =>
    location dirs.cwd (rstrip found.captured)

/-- The place has a file with one of the extensions, not older than two seconds before the start. -/
def recent (files : List File) (start_time : Int) (place : Place) : Bool :=
  tracked place &&
    match signature_at files place with
    | some (mtime_ns, _) => start_time - 2000000000 ≤ mtime_ns
    | none => false

def existing_tool_files_from_output (dirs : Dirs) (files : List File) (output : String)
    (start_time : Int) : List Place :=
  sorted ((named_places dirs output).filter (recent files start_time))

/-! ## What a call gives back -/

/-- A value of JSON. -/
inductive Value
  | null
  | bool (b : Bool)
  | number (n : PyFloat)
  | string (s : String)
  | array (items : List Value)
  | object (items : List (String × Value))

/-- What `run_python` gives back: the text of an object, or the output itself. -/
inductive Output
  | json (data : List (String × Value))
  | text (output : String)

def member (data : List (String × Value)) (key : String) : Value :=
  match data.find? fun item => item.1 = key with
  | some item => item.2
  | none => .null

/-- `json.loads`, `none` where it raises. -/
abbrev Loads := String → Option Value

def parse_tool_output (loads : Loads) : Output → Option (List (String × Value))
  | .json data => some data
  | .text output =>
    if output = "" then none
    else
      match loads output with
      | some (.object data) => some data
      | _ => none

/-- The strings of `data["new_files"]`, `none` where it cannot be gone through. -/
def strings : Value → Option (List String)
  | .array items => some (items.filterMap fun item =>
      match item with
      | .string s => some s
      | _ => none)
  | .object items => some (items.map (·.1))
  | .string s => some (s.toList.map fun c => String.ofList [c])
  | .null => some []
  | .bool b => if b then none else some []
  | .number n => if n = 0 then some [] else none

def DIRECT_DELIVERABLE_EXTENSIONS : List String := [".pdf", ".docx", ".xlsx", ".pptx", ".csv"]

/-- `files_to_deliver_from_python`; nothing is delivered where it raises. -/
def files_to_deliver_from_python (loads : Loads) (tool_output : Output) : List String :=
  match parse_tool_output loads tool_output with
  | none => []
  | some data =>
    let files := (strings (member data "new_files")).getD []
    match member data "send_to_chat" with
    | .bool true => files
    | _ => files.filter fun path =>
        DIRECT_DELIVERABLE_EXTENSIONS.any fun ext => texts.ends_with path ext

/-! ## Calls on shared directories -/

/-- A call that runs. `own` are the places that it has written. -/
structure Call where
  start_time : Int
  before : List File
  temp_path : Place
  send_to_chat : Bool
  own : List Place

variable {User : Type} [DecidableEq User]

/-- The shared files, the calls that run, one at most for each user, and what each user has ever
written. -/
structure World (User : Type) where
  files : List File
  calls : User → Option Call
  written : User → List Place

inductive Event (User : Type)
  | start (user : User) (now : Int) (script : File) (send_to_chat : Bool)
  | write (user : User) (file : File)
  | remove (user : User) (place : Place)
  | finish (user : User) (stdout stderr : String)
  | fail (user : User)

/-- A call writes a file. -/
def World.write (w : World User) (user : User) (call : Call) (file : File) : World User where
  files := put w.files file
  calls := Function.update w.calls user (some { call with own := file.place :: call.own })
  written := Function.update w.written user (file.place :: w.written user)

/-- A call is over, and its script is removed. -/
def World.close (w : World User) (user : User) (call : Call) : World User :=
  { w with files := discard w.files call.temp_path, calls := Function.update w.calls user none }

/-- One step: `run_python` starts with a snapshot and writes its script, its code writes and removes
files, and it ends with its output or with an error. -/
def step (dirs : Dirs) (w : World User) : Event User → World User
  | .start user now script send_to_chat =>
    match w.calls user with
    | some _ => w
    | none =>
      let before := snapshot_tool_files dirs w.files
      w.write user ⟨now, before, script.place, send_to_chat, []⟩ script
  | .write user file =>
    match w.calls user with
    | some call => w.write user call file
    | none => w
  | .remove user place =>
    match w.calls user with
    | some _ => { w with files := discard w.files place }
    | none => w
  | .finish user _ _ =>
    match w.calls user with
    | some call => w.close user call
    | none => w
  | .fail user =>
    match w.calls user with
    | some call => w.close user call
    | none => w

/-- `output` in `run_python`. -/
def output_of (stdout stderr : String) : String :=
  if stderr = "" then stdout else stdout ++ "\n--- ERRORS ---\n" ++ stderr

/-- The places of `new_files` at the end of a call. -/
def new_files (dirs : Dirs) (files : List File) (call : Call) (output : String) : List Place :=
  let changed := changed_tool_files dirs call.before files call.temp_path
  let output_paths := existing_tool_files_from_output dirs files output call.start_time
  if output_paths = [] then changed else sorted (changed ++ output_paths)

/-- The text that is given back where there are no files. -/
def plain_reply (output : String) : String :=
  if output = "" then "Code executed successfully (no output)." else output

/-- What `run_python` gives back at its end. -/
def run_python (dirs : Dirs) (files : List File) (call : Call) (output : String) : Output :=
  let found := new_files dirs files call output
  if found = [] then
    .text (plain_reply output)
  else
    .json [("output", .string (if output = "" then "Code executed successfully." else output)),
      ("new_files", .array (found.map fun place => .string (str place))),
      ("send_to_chat", .bool call.send_to_chat)]

/-! ## Whose files they are -/

/-- The call has written the place, and no other user ever has. -/
def Own (w : World User) (user : User) (call : Call) (place : Place) : Prop :=
  place ∈ call.own ∧ ∀ other, other ≠ user → place ∉ w.written other

def OwnPath (w : World User) (user : User) (call : Call) (path : String) : Prop :=
  ∃ place, path = str place ∧ Own w user call place

/-- Where a call ends, each file that it reports is its own, and so is each that is delivered. -/
def Attributed (dirs : Dirs) (loads : Loads) (w : World User) : Event User → Prop
  | .finish user stdout stderr => ∀ call, w.calls user = some call →
    (∀ place ∈ new_files dirs w.files call (output_of stdout stderr), Own w user call place) ∧
    ∀ path ∈ files_to_deliver_from_python loads
      (run_python dirs w.files call (output_of stdout stderr)), OwnPath w user call path
  | _ => True

/-! ## When they are the caller's -/

/-- The signature at the place is not the one that the call found when it started. -/
def Changed (dirs : Dirs) (files : List File) (call : Call) (place : Place) : Prop :=
  candidate dirs place = true ∧ place ≠ call.temp_path ∧ signature_at files place ≠ none ∧
    signature_at call.before place ≠ signature_at files place

/-- Where a call ends, nothing that another user has written changed since its start, each recent
file that its output names is its own, and where there is neither a change nor such a file, the
output is not itself an object that lists other files. -/
def Undisturbed (dirs : Dirs) (loads : Loads) (w : World User) : Event User → Prop
  | .finish user stdout stderr => ∀ call, w.calls user = some call →
    (∀ other, other ≠ user → ∀ place ∈ w.written other, ¬Changed dirs w.files call place) ∧
    (∀ place ∈ named_places dirs (output_of stdout stderr),
      recent w.files call.start_time place = true → Own w user call place) ∧
    ((∀ place, ¬Changed dirs w.files call place) →
      (∀ place ∈ named_places dirs (output_of stdout stderr),
        recent w.files call.start_time place = false) →
      ∀ path ∈ files_to_deliver_from_python loads (.text (plain_reply (output_of stdout stderr))),
        OwnPath w user call path)
  | _ => True

/-! ## Signatures -/

theorem signature_at_snapshot (dirs : Dirs) (files : List File) {place : Place}
    (h : candidate dirs place = true) :
    signature_at (snapshot_tool_files dirs files) place = signature_at files place := by
  have hkept := signature_at_filter files (candidate dirs) place
  rw [if_pos h] at hkept
  exact hkept

/-! ## What a call reports -/

theorem mem_new_files {dirs : Dirs} {files : List File} {call : Call} {output : String}
    {place : Place} : place ∈ new_files dirs files call output ↔
      Changed dirs files call place ∨
        place ∈ named_places dirs output ∧ recent files call.start_time place = true := by
  have hchanged : place ∈ changed_tool_files dirs call.before files call.temp_path ↔
      Changed dirs files call place := by
    unfold changed_tool_files Changed
    rw [signature_at_ne_none]
    simp only [mem_sorted, List.mem_map, List.mem_filter, Bool.and_eq_true, decide_eq_true_eq]
    constructor
    · rintro ⟨file, ⟨hfile, ⟨hcandidate, hne⟩, hsig⟩, rfl⟩
      exact ⟨hcandidate, hne, ⟨file, hfile, rfl⟩, hsig⟩
    · rintro ⟨hcandidate, hne, ⟨file, hfile, rfl⟩, hsig⟩
      exact ⟨file, ⟨hfile, ⟨hcandidate, hne⟩, hsig⟩, rfl⟩
  have hnamed : place ∈ existing_tool_files_from_output dirs files output call.start_time ↔
      place ∈ named_places dirs output ∧ recent files call.start_time place = true := by
    unfold existing_tool_files_from_output
    rw [mem_sorted, List.mem_filter]
  unfold new_files
  simp only
  split
  · rename_i hnone
    rw [hnone] at hnamed
    rw [hchanged, ← hnamed]
    simp
  · rw [mem_sorted, List.mem_append, hchanged, hnamed]

/-- What is delivered from a report is in the report. -/
theorem delivered_of_report {loads : Loads} {dirs : Dirs} {files : List File} {call : Call}
    {output path : String} (hfound : new_files dirs files call output ≠ [])
    (h : path ∈ files_to_deliver_from_python loads (run_python dirs files call output)) :
    ∃ place ∈ new_files dirs files call output, path = str place := by
  unfold run_python files_to_deliver_from_python at h
  simp only at h
  rw [if_neg hfound] at h
  have hstrings : strings (.array ((new_files dirs files call output).map fun place =>
      Value.string (str place))) = some ((new_files dirs files call output).map str) := by
    simp only [strings, List.filterMap_map, Function.comp_def, List.filterMap_eq_map']
  have hall : path ∈ (new_files dirs files call output).map str := by
    simp only [parse_tool_output, member, List.find?_cons, String.reduceEq, decide_false,
      decide_true, hstrings, Option.getD_some] at h
    split at h
    · exact h
    · exact (List.mem_filter.mp h).1
  obtain ⟨place, hplace, rfl⟩ := List.mem_map.mp hall
  exact ⟨place, hplace, rfl⟩

/-! ## Who wrote what -/

/-- What differs from what a call found was written by the call, or by another user. -/
def TracedCall (dirs : Dirs) (w : World User) (user : User) (call : Call) : Prop :=
  ∀ place, candidate dirs place = true →
    signature_at w.files place = none ∨
      signature_at w.files place = signature_at call.before place ∨
      place ∈ call.own ∨ ∃ other, other ≠ user ∧ place ∈ w.written other

def Traced (dirs : Dirs) (w : World User) : Prop :=
  ∀ user call, w.calls user = some call → TracedCall dirs w user call

theorem traced_write {dirs : Dirs} {w : World User} {user : User} {call : Call} (h : Traced dirs w)
    (hcall : TracedCall dirs w user call) (file : File) : Traced dirs (w.write user call file) := by
  intro u c hc place hplace
  unfold World.write at hc ⊢
  simp only at hc ⊢
  rw [signature_at_put]
  by_cases hu : u = user
  · subst hu
    rw [Function.update_self, Option.some.injEq] at hc
    subst hc
    by_cases hfile : place = file.place
    · exact Or.inr (Or.inr (Or.inl (hfile ▸ List.mem_cons_self)))
    · rw [if_neg hfile]
      rcases hcall place hplace with hnone | hsame | hown | ⟨other, hother, hwritten⟩
      · exact Or.inl hnone
      · exact Or.inr (Or.inl hsame)
      · exact Or.inr (Or.inr (Or.inl (List.mem_cons_of_mem _ hown)))
      · refine Or.inr (Or.inr (Or.inr ⟨other, hother, ?_⟩))
        rwa [Function.update_of_ne hother]
  · rw [Function.update_of_ne hu] at hc
    by_cases hfile : place = file.place
    · -- For the other calls, this one is the other user.
      refine Or.inr (Or.inr (Or.inr ⟨user, Ne.symm hu, ?_⟩))
      rw [Function.update_self, hfile]
      exact List.mem_cons_self
    · rw [if_neg hfile]
      rcases h u c hc place hplace with hnone | hsame | hown | ⟨other, hother, hwritten⟩
      · exact Or.inl hnone
      · exact Or.inr (Or.inl hsame)
      · exact Or.inr (Or.inr (Or.inl hown))
      · refine Or.inr (Or.inr (Or.inr ⟨other, hother, ?_⟩))
        by_cases hw : other = user
        · rw [hw, Function.update_self]
          exact List.mem_cons_of_mem _ (hw ▸ hwritten)
        · rwa [Function.update_of_ne hw]

omit [DecidableEq User] in
theorem traced_discard {dirs : Dirs} {w : World User} (h : Traced dirs w) (removed : Place) :
    Traced dirs { w with files := discard w.files removed } := by
  intro u c hc place hplace
  simp only
  rw [signature_at_discard]
  by_cases hremoved : place = removed
  · rw [if_pos hremoved]
    exact Or.inl rfl
  · rw [if_neg hremoved]
    exact h u c hc place hplace

theorem traced_close {dirs : Dirs} {w : World User} (h : Traced dirs w) (user : User)
    (call : Call) :
    Traced dirs (w.close user call) := by
  intro u c hc
  unfold World.close at hc
  simp only at hc
  by_cases hu : u = user
  · rw [hu, Function.update_self] at hc
    cases hc
  · rw [Function.update_of_ne hu] at hc
    exact traced_discard h call.temp_path u c hc

/-- Each step keeps the trace. -/
theorem traced_step {dirs : Dirs} {w : World User} (h : Traced dirs w) (e : Event User) :
    Traced dirs (step dirs w e) := by
  cases e with
  | start user now script send_to_chat =>
    simp only [step]
    rcases w.calls user with _ | call
    · refine traced_write h ?_ script
      intro place hplace
      exact Or.inr (Or.inl (signature_at_snapshot dirs w.files hplace).symm)
    · exact h
  | write user file =>
    simp only [step]
    rcases hcall : w.calls user with _ | call
    · exact h
    · exact traced_write h (h user call hcall) file
  | remove user place =>
    simp only [step]
    rcases w.calls user with _ | call
    · exact h
    · exact traced_discard h place
  | finish user stdout stderr =>
    simp only [step]
    rcases w.calls user with _ | call
    · exact h
    · exact traced_close h user call
  | fail user =>
    simp only [step]
    rcases w.calls user with _ | call
    · exact h
    · exact traced_close h user call

/-! ## The end of a call -/

theorem new_files_eq_nil {dirs : Dirs} {files : List File} {call : Call} {output : String} :
    new_files dirs files call output = [] ↔ (∀ place, ¬Changed dirs files call place) ∧
      ∀ place ∈ named_places dirs output, recent files call.start_time place = false := by
  rw [List.eq_nil_iff_forall_not_mem]
  simp only [mem_new_files, not_or, not_and, Bool.not_eq_true]
  exact forall_and

omit [DecidableEq User] in
theorem attributed_iff {dirs : Dirs} {loads : Loads} {w : World User} (htraced : Traced dirs w)
    (e : Event User) : Attributed dirs loads w e ↔ Undisturbed dirs loads w e := by
  cases e with
  | start user now script send_to_chat => exact Iff.rfl
  | write user file => exact Iff.rfl
  | remove user place => exact Iff.rfl
  | fail user => exact Iff.rfl
  | finish user stdout stderr =>
    refine forall_congr' fun call => forall_congr' fun hcall => ?_
    generalize output_of stdout stderr = output
    constructor
    · rintro ⟨hreported, hdelivered⟩
      refine ⟨?_, ?_, ?_⟩
      · intro other hother place hwritten hchanged
        exact (hreported place (mem_new_files.mpr (Or.inl hchanged))).2 other hother hwritten
      · intro place hnamed hrecent
        exact hreported place (mem_new_files.mpr (Or.inr ⟨hnamed, hrecent⟩))
      · intro hchanged hnamed path hpath
        have hnone := new_files_eq_nil.mpr ⟨hchanged, hnamed⟩
        refine hdelivered path ?_
        unfold run_python
        simp only
        rwa [if_pos hnone]
    · rintro ⟨hothers, hnamed, htext⟩
      have hreported : ∀ place ∈ new_files dirs w.files call output, Own w user call place := by
        intro place hplace
        rcases mem_new_files.mp hplace with hchanged | ⟨hname, hrecent⟩
        · have hnot : ∀ other, other ≠ user → place ∉ w.written other :=
            fun other hother hwritten => hothers other hother place hwritten hchanged
          refine ⟨?_, hnot⟩
          obtain ⟨hcandidate, _, hthere, hdiffers⟩ := hchanged
          rcases htraced user call hcall place hcandidate with hgone | hsame | hown | hother
          · exact absurd hgone hthere
          · exact absurd hsame.symm hdiffers
          · exact hown
          · obtain ⟨other, hother, hwritten⟩ := hother
            exact absurd hwritten (hnot other hother)
        · exact hnamed place hname hrecent
      refine ⟨hreported, ?_⟩
      intro path hpath
      by_cases hfound : new_files dirs w.files call output = []
      · obtain ⟨hchanged, hnames⟩ := new_files_eq_nil.mp hfound
        refine htext hchanged hnames path ?_
        unfold run_python at hpath
        simp only at hpath
        rwa [if_pos hfound] at hpath
      · obtain ⟨place, hplace, rfl⟩ := delivered_of_report hfound hpath
        exact ⟨place, rfl, hreported place hplace⟩

/-! ## The law -/

/-- The shared directories before any call. -/
def opened (files : List File) : World User := ⟨files, fun _ => none, fun _ => []⟩

/-- LAW: in a run of calls, each file that is reported or delivered is of the call that gets it
exactly when at the end of each call nothing of another user has changed since its start, its
output names no recent file of others, and it is not itself an object that lists them. -/
theorem python_files_reach_their_user_iff (dirs : Dirs) (loads : Loads) (files : List File)
    (events : List (Event User)) :
    Each (step dirs) (Attributed dirs loads) (opened files) events ↔
      Each (step dirs) (Undisturbed dirs loads) (opened files) events := by
  refine each_congr (I := Traced dirs) ?_ ?_ ?_ events
  · intro w e hw
    exact traced_step hw e
  · intro w e hw
    exact attributed_iff hw e
  · intro user call hcall
    cases hcall

/-- Two calls run in one directory, and the second user's report is written while the first call
runs. -/
def two_calls : List (Event Nat) :=
  [.start 1 0 ⟨["tmp".toList, "a.py".toList], 0, 1⟩ false,
    .start 2 0 ⟨["tmp".toList, "b.py".toList], 0, 1⟩ false,
    .write 2 ⟨["srv".toList, "report.pdf".toList], 5, 7⟩,
    .finish 1 "" ""]

/-- The first user gets the report of the second one. -/
theorem a_report_reaches_the_other_user :
    ¬ ∀ events : List (Event Nat), Each (step ⟨["srv".toList], ["tmp".toList]⟩)
      (Attributed ⟨["srv".toList], ["tmp".toList]⟩ fun _ => none) (opened []) events := by
  intro h
  obtain ⟨_, _, _, hfinish, _⟩ := h two_calls
  have hreport := (hfinish _ rfl).1 ["srv".toList, "report.pdf".toList] (by decide +kernel)
  exact absurd hreport.1 (by decide +kernel)

end dr_boz.python_files
