-- The files that Codex runs write into the workspace of their account:
-- `request_codex_completion` of `llm.py` returns some of them, and the end of
-- `_run_tool_aware_completion` of the bot sends some of all accounts.
import DrBoz.Lib.Runs
import DrBoz.SharedFiles

open posix_paths runs dr_boz.py dr_boz.shared_files

namespace dr_boz.codex_files

/-! ## The listed files -/

def IMAGE_EXTS : List String := [".png", ".jpg", ".jpeg", ".gif", ".webp", ".svg"]

def DOC_EXTS : List String :=
  [".pdf", ".docx", ".xlsx", ".csv", ".txt", ".md", ".py", ".html"]

def is_image (place : Place) : Bool := suffix_of place ∈ IMAGE_EXTS

/-- Both functions list the files with one of these extensions. -/
def listed (place : Place) : Bool := is_image place || suffix_of place ∈ DOC_EXTS

structure FileInfo where
  path : Place
  filename : Name
  size : Nat
  type : String
deriving DecidableEq

def file_info (file : File) : FileInfo :=
  ⟨file.place, file.place.getLast?.getD [], file.size,
    if is_image file.place then "image" else "document"⟩

/-- `build_codex_workspace`, below `CODEX_WORKSPACES_DIR`. -/
def build_codex_workspace (root : List Name) (account_id : Nat) : Place :=
  root ++ ["acct_".toList ++ Nat.toDigits 10 account_id]

/-- `rglob("*")` finds the file in the workspace. -/
def in_workspace (workspace place : Place) : Bool := decide (Inside workspace place)

/-- The file is below one of the directories of `CODEX_WORKSPACES_DIR`. -/
def in_workspaces (root place : Place) : Bool :=
  decide (root <+: place ∧ root.length + 2 ≤ place.length)

/-! ## The two scans of `request_codex_completion` -/

/-- `original_files`: what is in the workspace when the runs of the request are over. -/
def original_files (workspace : Place) (files : List File) : List Place :=
  (files.filter fun file => in_workspace workspace file.place).map (·.place)

/-- `generated_files`: the listed files of the workspace that were not there. -/
def generated_files (workspace : Place) (original : List Place) (files : List File) :
    List FileInfo :=
  (files.filter fun file => in_workspace workspace file.place && file.place ∉ original &&
    listed file.place).map file_info

/-! ## The scan of the bot -/

/-- The file at the place is not older than 120 seconds. -/
def recent (files : List File) (now : Int) (place : Place) : Bool :=
  match signature_at files place with
  | some (mtime_ns, _) => now - mtime_ns ≤ 120000000000
  | none => false

/-- `generated` at the end of `_run_tool_aware_completion`, which is then sent. -/
def sent_files (root : Place) (files : List File) (now : Int) : List FileInfo :=
  (files.filter fun file => in_workspaces root file.place && listed file.place &&
    recent files now file.place).map file_info

/-! ## Turns over shared workspaces -/

/-- A request of a turn: its account, the files that its runs created, and `original_files` once
the runs are over. -/
structure Request where
  account_id : Nat
  created : List Place := []
  original : Option (List Place) := none

/-- A turn of a user: its request, and the files that the runs of the turn created. -/
structure Turn where
  request : Option Request := none
  created : List Place := []

variable {Id : Type} [DecidableEq Id]

structure World (Id : Type) where
  files : List File
  turns : Id → Turn

inductive Event (Id : Type)
  | request (turn : Id) (account_id : Nat)
  | write (turn : Id) (name : Name) (path : List Name) (now : Int) (size : Nat)
  | scan_before (turn : Id)
  | scan_after (turn : Id)
  | fail (turn : Id)
  | send (turn : Id) (now : Int)

/-- A place is created when a file is written where there was none. -/
def created_by (files : List File) (place : Place) : List Place :=
  if signature_at files place = none then [place] else []

/-- A run of the request writes the file. -/
def World.write (w : World Id) (turn : Id) (request : Request) (file : File) : World Id where
  files := put w.files file
  turns := Function.update w.turns turn
    { request := some { request with
        created := created_by w.files file.place ++ request.created }
      created := created_by w.files file.place ++ (w.turns turn).created }

def World.set_request (w : World Id) (turn : Id) (request : Option Request) : World Id :=
  { w with turns := Function.update w.turns turn { w.turns turn with request } }

/-- One step. A turn has one request at a time, whose runs write to the workspace of its account
until they are over; then come the two scans. -/
def step (root : Place) (w : World Id) : Event Id → World Id
  | .request turn account_id =>
    match (w.turns turn).request with
    | some _ => w
    | none => w.set_request turn (some { account_id })
  | .write turn name path now size =>
    match (w.turns turn).request with
    | some request =>
      if request.original = none then
        let place := build_codex_workspace root request.account_id ++ name :: path
        w.write turn request ⟨place, now, size⟩
      else w
    | none => w
  | .scan_before turn =>
    match (w.turns turn).request with
    | some request =>
      let workspace := build_codex_workspace root request.account_id
      if request.original = none then
        w.set_request turn
          (some { request with original := some (original_files workspace w.files) })
      else w
    | none => w
  | .scan_after turn =>
    match (w.turns turn).request with
    | some request => if request.original = none then w else w.set_request turn none
    | none => w
  | .fail turn => w.set_request turn none
  | .send _ _ => w

/-! ## What is to be returned and sent -/

/-- The scan of a request returns the listed files that its runs created, and the bot sends the
listed files that the runs of the turn created. -/
def Delivered (root : Place) (w : World Id) : Event Id → Prop
  | .scan_after turn => ∀ request original, (w.turns turn).request = some request →
    request.original = some original → ∀ place,
      (∃ info ∈ generated_files (build_codex_workspace root request.account_id) original w.files,
        info.path = place) ↔ listed place = true ∧ place ∈ request.created
  | .send turn now => ∀ place, (∃ info ∈ sent_files root w.files now, info.path = place) ↔
      listed place = true ∧ place ∈ (w.turns turn).created
  | _ => True

/-- The runs of a request created no listed file, and none appeared in the workspace between its two
scans. Where the bot sends, the listed files of all accounts that are not older than 120 seconds
are those that the runs of the turn created. -/
def Clean (root : Place) (w : World Id) : Event Id → Prop
  | .scan_after turn => ∀ request original, (w.turns turn).request = some request →
    request.original = some original →
      (∀ place ∈ request.created, listed place = false) ∧
      ∀ file ∈ w.files, in_workspace (build_codex_workspace root request.account_id) file.place →
        listed file.place = true → file.place ∈ original
  | .send turn now =>
    (∀ place, in_workspaces root place = true → listed place = true →
      recent w.files now place = true → place ∈ (w.turns turn).created) ∧
    ∀ place ∈ (w.turns turn).created, listed place = true → recent w.files now place = true
  | _ => True

/-! ## What the scans find -/

/-- A scan finds the files that it keeps by their place. -/
theorem exists_info (files : List File) (keep : Place → Bool) (place : Place) :
    (∃ info ∈ (files.filter fun file => keep file.place).map file_info, info.path = place) ↔
      keep place = true ∧ signature_at files place ≠ none := by
  rw [signature_at_ne_none]
  simp only [List.mem_map, List.mem_filter]
  constructor
  · rintro ⟨_, ⟨file, ⟨hfile, hkeep⟩, rfl⟩, rfl⟩
    exact ⟨hkeep, file, hfile, rfl⟩
  · rintro ⟨hkeep, file, hfile, rfl⟩
    exact ⟨_, ⟨file, ⟨hfile, hkeep⟩, rfl⟩, rfl⟩

theorem mem_generated_files {workspace : Place} {original : List Place} {files : List File}
    {place : Place} :
    (∃ info ∈ generated_files workspace original files, info.path = place) ↔
      (in_workspace workspace place = true ∧ place ∉ original ∧ listed place = true) ∧
        signature_at files place ≠ none := by
  have hinfo := exists_info files
    (fun p => in_workspace workspace p && p ∉ original && listed p) place
  simp only [Bool.and_eq_true, decide_eq_true_eq, and_assoc] at hinfo ⊢
  exact hinfo

/-- A file that is recent is there. -/
theorem recent_there {files : List File} {now : Int} {place : Place}
    (h : recent files now place = true) : signature_at files place ≠ none := by
  intro hnone
  unfold recent at h
  rw [hnone] at h
  cases h

theorem mem_sent_files {root : Place} {files : List File} {now : Int} {place : Place} :
    (∃ info ∈ sent_files root files now, info.path = place) ↔
      in_workspaces root place = true ∧ listed place = true ∧ recent files now place = true := by
  have hinfo := exists_info files
    (fun p => in_workspaces root p && listed p && recent files now p) place
  simp only [Bool.and_eq_true, and_assoc] at hinfo
  refine hinfo.trans ⟨?_, ?_⟩
  · rintro ⟨hroot, hlisted, hrecent, _⟩
    exact ⟨hroot, hlisted, hrecent⟩
  · rintro ⟨hroot, hlisted, hrecent⟩
    exact ⟨hroot, hlisted, hrecent, recent_there hrecent⟩

theorem mem_original_files {workspace : Place} {files : List File} {place : Place} :
    place ∈ original_files workspace files ↔
      in_workspace workspace place = true ∧ signature_at files place ≠ none := by
  unfold original_files
  rw [signature_at_ne_none]
  simp only [List.mem_map, List.mem_filter]
  constructor
  · rintro ⟨file, ⟨hfile, hin⟩, rfl⟩
    exact ⟨hin, file, hfile, rfl⟩
  · rintro ⟨hin, file, hfile, rfl⟩
    exact ⟨file, ⟨hfile, hin⟩, rfl⟩

/-! ## Created files stay -/

/-- What a request has created is in its workspace, and was there for its first scan. -/
structure RequestKept (root : Place) (files : List File) (request : Request) : Prop where
  there : ∀ place ∈ request.created, signature_at files place ≠ none
  inside : ∀ place ∈ request.created,
    in_workspace (build_codex_workspace root request.account_id) place = true
  scanned : ∀ original, request.original = some original → ∀ place ∈ request.created,
    place ∈ original

structure TurnKept (root : Place) (files : List File) (turn : Turn) : Prop where
  inside : ∀ place ∈ turn.created, in_workspaces root place = true
  request : ∀ request, turn.request = some request → RequestKept root files request

def Kept (root : Place) (w : World Id) : Prop := ∀ turn, TurnKept root w.files (w.turns turn)

/-- Writing removes no file. -/
theorem put_there {files : List File} {place : Place} (h : signature_at files place ≠ none)
    (file : File) : signature_at (put files file) place ≠ none := by
  rw [signature_at_put]
  split
  · exact Option.some_ne_none _
  · exact h

theorem RequestKept.put {root : Place} {files : List File} {request : Request}
    (h : RequestKept root files request) (file : File) :
    RequestKept root (put files file) request :=
  ⟨fun place hplace => put_there (h.there place hplace) file, h.inside, h.scanned⟩

theorem created_by_eq {files : List File} {place p : Place} (h : p ∈ created_by files place) :
    p = place := by
  unfold created_by at h
  split at h
  · exact List.mem_singleton.mp h
  · cases h

/-- A place below a name in a workspace is in the workspace, and in the workspaces. -/
theorem place_inside (root : Place) (account_id : Nat) (name : Name) (path : List Name) :
    in_workspace (build_codex_workspace root account_id)
        (build_codex_workspace root account_id ++ name :: path) = true ∧
      in_workspaces root (build_codex_workspace root account_id ++ name :: path) = true := by
  unfold in_workspace in_workspaces
  rw [decide_eq_true_eq, decide_eq_true_eq]
  refine ⟨inside_iff.mpr ⟨name :: path, by simp, rfl⟩, ?_, ?_⟩
  · unfold build_codex_workspace
    rw [List.append_assoc]
    exact List.prefix_append _ _
  · simp only [build_codex_workspace, List.length_append, List.length_cons, List.length_nil]
    omega

theorem kept_set_request {root : Place} {w : World Id} (h : Kept root w) (turn : Id)
    {request : Option Request}
    (hrequest : ∀ r, request = some r → RequestKept root w.files r) :
    Kept root (w.set_request turn request) := by
  intro t
  unfold World.set_request
  simp only
  by_cases ht : t = turn
  · rw [ht, Function.update_self]
    exact ⟨(h turn).inside, hrequest⟩
  · rw [Function.update_of_ne ht]
    exact h t

theorem kept_write {root : Place} {w : World Id} (h : Kept root w) {turn : Id} {request : Request}
    (hrequest : (w.turns turn).request = some request) (hopen : request.original = none)
    (name : Name) (path : List Name) (now : Int) (size : Nat) :
    Kept root (w.write turn request
      ⟨build_codex_workspace root request.account_id ++ name :: path, now, size⟩) := by
  obtain ⟨hworkspace, hroot⟩ := place_inside root request.account_id name path
  generalize build_codex_workspace root request.account_id ++ name :: path = place at *
  intro t
  unfold World.write
  simp only
  by_cases ht : t = turn
  · rw [ht, Function.update_self]
    have hkept := (h turn).request request hrequest
    refine ⟨?_, ?_⟩
    · intro p hp
      rcases List.mem_append.mp hp with hnew | hold
      · rw [created_by_eq hnew]
        exact hroot
      · exact (h turn).inside p hold
    · intro r hr
      rw [Option.some.injEq] at hr
      subst hr
      refine ⟨?_, ?_, ?_⟩
      · intro p hp
        rcases List.mem_append.mp hp with hnew | hold
        · rw [created_by_eq hnew, signature_at_put, if_pos rfl]
          exact Option.some_ne_none _
        · exact put_there (hkept.there p hold) _
      · intro p hp
        rcases List.mem_append.mp hp with hnew | hold
        · rw [created_by_eq hnew]
          exact hworkspace
        · exact hkept.inside p hold
      · intro original horiginal
        simp only at horiginal
        rw [hopen] at horiginal
        cases horiginal
  · rw [Function.update_of_ne ht]
    exact ⟨(h t).inside, fun r hr => ((h t).request r hr).put _⟩

/-- Each step keeps what was created. -/
theorem kept_step {root : Place} {w : World Id} (h : Kept root w) (e : Event Id) :
    Kept root (step root w e) := by
  cases e with
  | request turn account_id =>
    simp only [step]
    split
    · exact h
    · refine kept_set_request h turn ?_
      intro r hr
      rw [Option.some.injEq] at hr
      subst hr
      exact ⟨by simp, by simp, by simp⟩
  | write turn name path now size =>
    simp only [step]
    split
    · rename_i request hrequest
      split
      · rename_i hopen
        exact kept_write h hrequest hopen name path now size
      · exact h
    · exact h
  | scan_before turn =>
    simp only [step]
    split
    · rename_i request hrequest
      split
      · refine kept_set_request h turn ?_
        intro r hr
        rw [Option.some.injEq] at hr
        subst hr
        have hkept := (h turn).request request hrequest
        refine ⟨hkept.there, hkept.inside, ?_⟩
        intro original horiginal place hplace
        rw [Option.some.injEq] at horiginal
        rw [← horiginal]
        exact mem_original_files.mpr ⟨hkept.inside place hplace, hkept.there place hplace⟩
      · exact h
    · exact h
  | scan_after turn =>
    simp only [step]
    split
    · split
      · exact h
      · exact kept_set_request h turn (by simp)
    · exact h
  | fail turn => exact kept_set_request h turn (by simp)
  | send turn now => exact h

/-! ## The law -/

omit [DecidableEq Id] in
theorem delivered_iff {root : Place} {w : World Id} (h : Kept root w) (e : Event Id) :
    Delivered root w e ↔ Clean root w e := by
  cases e with
  | request turn account_id => exact Iff.rfl
  | write turn name path now size => exact Iff.rfl
  | scan_before turn => exact Iff.rfl
  | fail turn => exact Iff.rfl
  | scan_after turn =>
    refine forall_congr' fun request => forall_congr' fun original =>
      forall_congr' fun hrequest => forall_congr' fun horiginal => ?_
    have hscanned := ((h turn).request request hrequest).scanned original horiginal
    simp only [mem_generated_files]
    constructor
    · intro hgenerated
      -- What the runs created was there for the first scan, so none of it is generated.
      have hnone : ∀ place ∈ request.created, listed place = false := by
        intro place hplace
        by_contra hlisted
        rw [Bool.not_eq_false] at hlisted
        exact ((hgenerated place).mpr ⟨hlisted, hplace⟩).1.2.1 (hscanned place hplace)
      refine ⟨hnone, ?_⟩
      intro file hfile hin hlisted
      by_contra hnew
      have hthere := signature_at_ne_none.mpr ⟨file, hfile, rfl⟩
      have hcreated := ((hgenerated file.place).mp ⟨⟨hin, hnew, hlisted⟩, hthere⟩).2
      rw [hnone file.place hcreated] at hlisted
      cases hlisted
    · rintro ⟨hnone, hold⟩ place
      refine iff_of_false ?_ ?_
      · rintro ⟨⟨hin, hnew, hlisted⟩, hthere⟩
        obtain ⟨file, hfile, rfl⟩ := signature_at_ne_none.mp hthere
        exact hnew (hold file hfile hin hlisted)
      · rintro ⟨hlisted, hcreated⟩
        rw [hnone place hcreated] at hlisted
        cases hlisted
  | send turn now =>
    unfold Delivered Clean
    simp only [mem_sent_files]
    constructor
    · intro hsent
      refine ⟨?_, ?_⟩
      · intro place hroot hlisted hrecent
        exact ((hsent place).mp ⟨hroot, hlisted, hrecent⟩).2
      · intro place hcreated hlisted
        exact ((hsent place).mpr ⟨hlisted, hcreated⟩).2.2
    · rintro ⟨hothers, hown⟩ place
      constructor
      · rintro ⟨hroot, hlisted, hrecent⟩
        exact ⟨hlisted, hothers place hroot hlisted hrecent⟩
      · rintro ⟨hlisted, hcreated⟩
        exact ⟨(h turn).inside place hcreated, hlisted, hown place hcreated hlisted⟩

def opened (files : List File) : World Id := ⟨files, fun _ => {}⟩

/-- Two turns on two accounts: the run of each creates a file, and then the bot sends for the
first one. -/
def two_turns : List (Event Nat) :=
  [.request 1 1, .request 2 2, .write 1 "a.pdf".toList [] 0 5, .write 2 "b.pdf".toList [] 1 5,
    .scan_before 1, .scan_after 1, .send 1 1000000000]

end dr_boz.codex_files
