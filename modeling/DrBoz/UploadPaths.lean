-- Law of the file names that clients send to `main_routes`: two uploads join
-- the name to the directory of the project as it is, and two downloads look
-- whether the joined path starts with their directory. The server has no
-- symbolic links.
import DrBoz.Lib.PosixPaths
import DrBoz.Py

open posix_paths dr_boz.py

namespace dr_boz.upload_paths

/-! ## The endpoints -/

/-- The server: its directory, its projects, what `open(p, "wb")` opens, what
is a file, and `str.lower()`. -/
structure Server where
  cwd : List Name
  cwd_valid : ∀ name ∈ cwd, ValidName name
  projects : List Nat
  opens : Path → Bool
  isfile : Path → Bool
  lower : Path → Path

def UPLOAD_DIR : Path := "./uploads".toList

section
variable (server : Server)

def Server.place (p : Path) : List Name := location server.cwd p

def project_dir (project_id : Nat) : Path :=
  join UPLOAD_DIR ("project_".toList ++ Nat.toDigits 10 project_id)

def SUPPORTED_KB_EXTS : List Path :=
  [".pdf".toList, ".txt".toList, ".md".toList, ".csv".toList, ".docx".toList, ".xlsx".toList,
    ".pptx".toList, ".html".toList, ".jpg".toList, ".jpeg".toList, ".png".toList, ".webp".toList]

/-- `os.path.splitext(filename)[1].lower()` -/
def extension (filename : Path) : Path := server.lower (splitext (basename filename)).2

/-- `upload_project_file`: the file that it writes. -/
def upload_project_file (project_id : Nat) (filename : Path) : Option Path :=
  let file_path := join (project_dir project_id) filename
  if project_id ∈ server.projects ∧ extension server filename ∈ SUPPORTED_KB_EXTS ∧
      server.opens file_path = true then some file_path
  else none

/-- `upload_document_base64`. The file is there before the content is decoded. -/
def upload_document_base64 (project_id : Nat) (filename : Path) (file_type : String) :
    Option Path :=
  let file_path := join (project_dir project_id) filename
  if project_id ∈ server.projects ∧ file_type ∈ ["pdf", "txt", "md"] ∧
      server.opens file_path = true then some file_path
  else none

/-- `filename.strip()` -/
def stripped (filename : Path) : Path :=
  ((filename.dropWhile isSpace).reverse.dropWhile isSpace).reverse

def GENERATED_PDF_DIR : Path :=
  abspath server.cwd (join UPLOAD_DIR "generated_pdfs".toList)

/-- `GENERATED_PDF_FILENAME_RE.match(name)`. A `$` also stands before a newline
at the end. -/
def generated_pdf_filename (name : Path) : Bool :=
  let name := if name.getLast? = some '\n' then name.dropLast else name
  name ≠ [] && name.all fun c => c.isAlphanum || c ∈ ['.', '_', '-']

/-- `download_generated_pdf`: the file that it serves. -/
def download_generated_pdf (filename : Path) : Option Path :=
  let normalized_name := stripped filename
  let file_path := abspath server.cwd (join (GENERATED_PDF_DIR server) normalized_name)
  if normalized_name = [] ∨ ¬".pdf".toList <:+ server.lower normalized_name ∨
      '/' ∈ normalized_name ∨ '\\' ∈ normalized_name ∨
      generated_pdf_filename normalized_name = false then none
  else if ¬GENERATED_PDF_DIR server ++ ['/'] <+: file_path then none
  else if server.isfile file_path = false then none
  else some file_path

def deliver_dir : Path := abspath server.cwd UPLOAD_DIR

/-- `".." in text` -/
def has_two_dots (text : Path) : Bool :=
  text.tails.any fun rest => ['.', '.'].isPrefixOf rest

/-- `deliver_file`: the file that it serves. -/
def deliver_file (filename : Path) : Option Path :=
  let normalized := stripped filename
  let file_path := abspath server.cwd (join (deliver_dir server) normalized)
  if normalized = [] ∨ has_two_dots normalized = true then none
  else if ¬deliver_dir server ++ ['/'] <+: file_path then none
  else if server.isfile file_path = false then none
  else some file_path

/-! ## Where the files are to be -/

/-- The file, if there is one, lies inside of the directory. -/
def StaysIn (dir : Path) (file : Option Path) : Prop :=
  ∀ p, file = some p → Inside (server.place dir) (server.place p)

/-- What is done with one name stays in the directories. -/
structure Contained (project_id : Nat) (filename : Path) (file_type : String) : Prop where
  upload : StaysIn server (project_dir project_id) (upload_project_file server project_id filename)
  upload_base64 : StaysIn server (project_dir project_id)
    (upload_document_base64 server project_id filename file_type)
  download : StaysIn server (GENERATED_PDF_DIR server) (download_generated_pdf server filename)
  deliver : StaysIn server (deliver_dir server) (deliver_file server filename)

/-- An upload opens the file under this name. -/
def Uploaded (project_id : Nat) (filename : Path) (file_type : String) : Prop :=
  project_id ∈ server.projects ∧
    (extension server filename ∈ SUPPORTED_KB_EXTS ∨ file_type ∈ ["pdf", "txt", "md"]) ∧
    server.opens (join (project_dir project_id) filename) = true

/-- From the directory of the project the name leads into that directory. -/
def LeadsIn (project_id : Nat) (filename : Path) : Prop :=
  LeadsInto (server.place (project_dir project_id)) (server.place (project_dir project_id))
    filename

end

/-! ## The downloads -/

section
variable {server : Server}

/-- A path that starts with a normal directory lies in it. -/
theorem inside_of_abspath {dir p : Path} (hne : server.place dir ≠ [])
    (h : abspath server.cwd dir ++ ['/'] <+: abspath server.cwd p) :
    Inside (server.place (abspath server.cwd dir)) (server.place (abspath server.cwd p)) := by
  obtain ⟨slashes, hdir⟩ := abspath_eq server.cwd_valid dir
  obtain ⟨slashes', hp⟩ := abspath_eq server.cwd_valid p
  rw [hdir, hp] at h
  unfold Server.place at *
  rw [location_abspath server.cwd_valid, location_abspath server.cwd_valid]
  exact inside_of_startswith (location_valid server.cwd_valid dir)
    (location_valid server.cwd_valid p) hne h

/-- The uploads are one step down from the directory of the process. -/
theorem uploads_place : server.place UPLOAD_DIR = server.cwd ++ ["uploads".toList] := by
  have hparts : parts UPLOAD_DIR = [['.'], "uploads".toList] := by decide
  unfold Server.place location
  rw [hparts]
  rfl

theorem uploads_ne_nil : server.place UPLOAD_DIR ≠ [] := by
  rw [uploads_place]
  simp

theorem generated_ne_nil : server.place (join UPLOAD_DIR "generated_pdfs".toList) ≠ [] := by
  unfold Server.place
  rw [location_join_name _ _ (by decide)]
  simp

theorem download_stays (filename : Path) :
    StaysIn server (GENERATED_PDF_DIR server) (download_generated_pdf server filename) := by
  intro p hp
  unfold download_generated_pdf at hp
  simp only at hp
  split at hp
  · cases hp
  · split at hp
    · cases hp
    · rename_i hstarts
      split at hp
      · cases hp
      · cases hp
        exact inside_of_abspath generated_ne_nil (not_not.mp hstarts)

theorem deliver_stays (filename : Path) :
    StaysIn server (deliver_dir server) (deliver_file server filename) := by
  intro p hp
  unfold deliver_file at hp
  simp only at hp
  split at hp
  · cases hp
  · split at hp
    · cases hp
    · rename_i hstarts
      split at hp
      · cases hp
      · cases hp
        exact inside_of_abspath uploads_ne_nil (not_not.mp hstarts)

/-! ## The uploads -/

/-- The joined path leads on from the directory of the project. -/
theorem leadsIn_iff (project_id : Nat) (filename : Path) : LeadsIn server project_id filename ↔
    Inside (server.place (project_dir project_id))
      (server.place (join (project_dir project_id) filename)) := by
  unfold LeadsIn
  rw [leadsInto_iff]
  unfold Server.place
  rw [location_join]

end

/-! ## The law -/

/-- LAW: the files that are written and served under a name stay in their
directories iff an upload that opens a file has a name that leads into the
directory of the project. The downloads stay in theirs under every name. -/
theorem files_stay_in_their_directories_iff_uploads_lead_in (server : Server) (project_id : Nat)
    (filename : Path) (file_type : String) :
    Contained server project_id filename file_type ↔
      (Uploaded server project_id filename file_type → LeadsIn server project_id filename) := by
  rw [leadsIn_iff]
  constructor
  · rintro hcontained ⟨hproject, hext | htype, hopens⟩
    · refine hcontained.upload _ ?_
      exact if_pos ⟨hproject, hext, hopens⟩
    · refine hcontained.upload_base64 _ ?_
      exact if_pos ⟨hproject, htype, hopens⟩
  · intro h
    refine ⟨?_, ?_, download_stays filename, deliver_stays filename⟩
    · intro p hp
      unfold upload_project_file at hp
      simp only [Option.ite_none_right_eq_some, Option.some.injEq] at hp
      obtain ⟨⟨hproject, hext, hopens⟩, rfl⟩ := hp
      exact h ⟨hproject, .inl hext, hopens⟩
    · intro p hp
      unfold upload_document_base64 at hp
      simp only [Option.ite_none_right_eq_some, Option.some.injEq] at hp
      obtain ⟨⟨hproject, htype, hopens⟩, rfl⟩ := hp
      exact h ⟨hproject, .inr htype, hopens⟩

theorem srv_valid : ∀ name ∈ ["srv".toList], ValidName name := by decide

/-- A server in `/srv` with one project, where every file can be written. -/
def a_server : Server where
  cwd := ["srv".toList]
  cwd_valid := srv_valid
  projects := [1]
  opens := fun _ => true
  isfile := fun _ => true
  lower := fun name => name.map Char.toLower

/-- An absolute name is written where it says. -/
theorem an_absolute_name_is_written_outside :
    ¬Contained a_server 1 "/etc/a.txt".toList "txt" := by
  intro h
  have hinside := h.upload_base64 "/etc/a.txt".toList (by decide)
  revert hinside
  decide

end dr_boz.upload_paths
