-- Law of the copies of a shared project. An acceptance looks for a copy that
-- the recipient has, and else makes one: a project, a document for each
-- document with a copy of its file, and after the commit a copy of the chunks.
-- Other acceptances of the same share go on in between.
import DrBoz.BillingIdentity
import DrBoz.Lib.PosixPaths
import DrBoz.Lib.Runs
import Mathlib.Data.List.Sort
import Mathlib.Data.List.Perm.Subperm
import Mathlib.Logic.Function.Basic

open posix_paths runs dr_boz.py dr_boz.cli_lines dr_boz.billing_identity

namespace dr_boz.project_copies

/-! ## Files -/

/-- The files with what they hold, and the directories, by their places. -/
structure Disk where
  files : List (List Name × List UInt8)
  dirs : List (List Name)
deriving DecidableEq

section
variable (cwd : List Name) (disk : Disk)

def Disk.entries : List (List Name) := disk.dirs ++ disk.files.map Prod.fst

def Disk.read (p : Path) : Option (List UInt8) :=
  (disk.files.find? fun file => file.1 = location cwd p).map Prod.snd

/-- `os.path.exists(p)` -/
def Disk.exists (p : Path) : Bool :=
  !p.isEmpty && disk.entries.any fun place => place = location cwd p

/-- `os.makedirs(p, exist_ok=True)` -/
def Disk.makedirs (p : Path) : Disk := { disk with dirs := disk.dirs ++ (location cwd p).inits }

/-- A new file. -/
def Disk.write (p : Path) (content : List UInt8) : Disk :=
  { disk with files := disk.files ++ [(location cwd p, content)] }

def numbered_path (directory : Path) (stem ext : Name) (counter : Nat) : Path :=
  join directory (stem ++ '_' :: Nat.toDigits 10 counter ++ ext)

/-- The loop, which ends after as many rounds as there are entries. -/
def first_free (directory : Path) (stem ext : Name) : Nat → Nat → Path
  | 0, counter => numbered_path directory stem ext counter
  | fuel + 1, counter =>
    if disk.exists cwd (numbered_path directory stem ext counter) then
      first_free directory stem ext fuel (counter + 1)
    else numbered_path directory stem ext counter

def _unique_destination_path (directory : Path) (filename : Name) : Path :=
  let safe_name := basename (if filename = [] then "document".toList else filename)
  let (stem, ext) := splitext safe_name
  if disk.exists cwd (join directory safe_name) then
    first_free cwd disk directory stem ext disk.entries.length 1
  else join directory safe_name

end

def _project_upload_dir (upload_root : Path) (project_id : Nat) : Path :=
  join upload_root ("project_".toList ++ Nat.toDigits 10 project_id)

/-! ## Tables and collections -/

structure Project where
  id : Nat
  name : Option String
  description : Option String
  instructions : Option String
  owner_user_id : Option Nat
  share_token : Option String
  shared_from_project_id : Option Nat
deriving DecidableEq

structure Document where
  id : Nat
  project_id : Option Nat
  filename : Option Name
  file_type : Option String
  file_path : Option Path
  chunk_count : Option Int
  status : Option String
deriving DecidableEq

/-- A chunk in a collection of Chroma. -/
structure Chunk where
  id : String
  document : String
  metadata : Fields
  embedding : List PyFloat

/-- A collection remembers the embedding function that it was made with. -/
structure Collection where
  embedding_function : String
  chunks : List Chunk

/-- What an acceptance is called with, and what it runs on: the directory of
the process, whether Chroma opens a collection for an embedding function, and
`str` of a value. -/
structure Acceptance where
  token : String
  recipient_id : Nat
  upload_root : Path := "./uploads".toList
  cwd : List Name
  opens : String → String → Bool
  str : JsonValue → String

/-! ## The chunks -/

def chunk_id (document_id : Nat) (chunk_index : String) : String :=
  "doc_" ++ toString document_id ++ "_chunk_" ++ chunk_index

/-- `int(metadata.get("document_id"))` -/
def Chunk.document_id (c : Chunk) : Except IntError Int :=
  int_of_value (c.metadata.get "document_id" .null)

/-- `metadata.get("chunk_index", 0)` -/
def Chunk.chunk_index (c : Chunk) : JsonValue := c.metadata.get "chunk_index" (.int 0)

abbrev IdMap := List (Nat × Nat)

/-- `document_id_map.get(id)` -/
def IdMap.get (document_id_map : IdMap) (id : Int) : Option Nat :=
  (document_id_map.find? fun p => (p.1 : Int) = id).map Prod.snd

section
variable (a : Acceptance)

def copied_chunk (c : Chunk) (new_document_id : Nat) : Chunk where
  id := chunk_id new_document_id (a.str c.chunk_index)
  document := c.document
  metadata := set_field c.metadata "document_id" (.int new_document_id)
  embedding := c.embedding

/-- The loop over the chunks. An id that is infinite ends it. -/
def target_chunks (document_id_map : IdMap) : List Chunk → Except IntError (List Chunk)
  | [] => .ok []
  | c :: chunks => do
    match c.document_id with
    | .error .overflow_error => throw .overflow_error
    | .error _ => target_chunks document_id_map chunks
    | .ok old_document_id =>
      match document_id_map.get old_document_id with
      | none | some 0 => target_chunks document_id_map chunks
      | some new_document_id =>
        return copied_chunk a c new_document_id :: (← target_chunks document_id_map chunks)

/-- `collection.add(..)`. An id that is twice in the call raises, and one that
is in the collection is left as it is. -/
def Collection.add (target : Collection) (batch : List Chunk) : Option Collection :=
  if (batch.map (·.id)).Nodup then
    some { target with
      chunks := target.chunks ++ batch.filter fun c => c.id ∉ target.chunks.map (·.id) }
  else none

def batch_size : Nat := 5000

/-- The calls up to the first that raises. `left` calls get through to Chroma,
or all of them. -/
def add_batches (left : Option Nat) (target : Collection) (chunks : List Chunk) : Collection :=
  if chunks = [] ∨ left = some 0 then target
  else
    match target.add (chunks.take batch_size) with
    | none => target
    | some target => add_batches (left.map (· - 1)) target (chunks.drop batch_size)
termination_by chunks.length
decreasing_by
  have hne : chunks ≠ [] := fun h => ‹¬(chunks = [] ∨ left = some 0)› (.inl h)
  have hpos : 0 < chunks.length := List.length_pos_iff.mpr hne
  simp only [List.length_drop, batch_size]
  omega

/-- What fails from outside in the copy of the index. -/
inductive Failure where
  | get_emb_config
  | get_source
  | get_target
  | read_source
  | add (n : Nat)
deriving DecidableEq

/-- The provider is never passed on, so it is the default one. -/
def provider : String := "google"

/-- The target collection, made if it is not there. -/
def get_or_create (target : Option Collection) : Option Collection :=
  match target with
  | none => some ⟨provider, []⟩
  | some target => if a.opens target.embedding_function provider then some target else none

/-- What the target collection is in the end. What is raised is logged. -/
def copy_project_index (source target : Option Collection) (document_id_map : IdMap)
    (failure : Option Failure) : Option Collection :=
  if document_id_map = [] ∨ failure = some .get_emb_config ∨ failure = some .get_source then target
  else
    match source with
    | none => target
    | some source =>
      if ¬a.opens source.embedding_function provider ∨ failure = some .get_target then target
      else
        match get_or_create a target with
        | none => target
        | some made =>
          if failure = some .read_source then made
          else
            match target_chunks a document_id_map source.chunks with
            | .error _ => made
            | .ok chunks =>
              add_batches (match failure with | some (.add n) => some n | _ => none) made chunks

end

/-! ## Acceptances -/

/-- A copy that is being made: the two projects, the directory of the copied
files, and the documents that were copied, each with its copy. -/
structure Copying where
  source : Project
  copied : Project
  target_dir : Path
  done : List (Document × Document)
deriving DecidableEq

def document_id_map (done : List (Document × Document)) : IdMap :=
  done.map fun p => (p.1.id, p.2.id)

/-- Where an acceptance waits, or how it is over. -/
inductive Session where
  | waits
  | inserts (source : Project)
  | copies (c : Copying) (left : List Document)
  | indexes (c : Copying)
  | indexed (c : Copying)
  | found (existing : Project)
  | raised
deriving DecidableEq

/-- What is committed, the ids that the database gives next, and the sessions. -/
structure World where
  projects : List Project
  documents : List Document
  next_project_id : Nat
  next_document_id : Nat
  disk : Disk
  collections : Nat → Option Collection
  sessions : Nat → Session := fun _ => .waits

def World.turn (w : World) (i : Nat) (session : Session) : World :=
  { w with sessions := Function.update w.sessions i session }

def World.documents_of (w : World) (project_id : Nat) : List Document :=
  w.documents.filter fun d => d.project_id = some project_id

/-- The documents of a project, ordered by their ids. -/
def World.source_docs (w : World) (project_id : Nat) : List Document :=
  (w.documents_of project_id).insertionSort fun d e => d.id ≤ e.id

def chunks_in (collection : Option Collection) : List Chunk :=
  (collection.map (·.chunks)).getD []

def World.chunks_of (w : World) (project_id : Nat) : List Chunk :=
  chunks_in (w.collections project_id)

def copies_of (recipient_id source_id : Nat) (projects : List Project) : List Project :=
  projects.filter fun p =>
    p.owner_user_id = some recipient_id ∧ p.shared_from_project_id = some source_id

def scalar_one_or_none {α : Type} : List α → Except PyError (Option α)
  | [] => .ok none
  | [row] => .ok (some row)
  | _ => .error .multiple_results_found

def get_project_by_share_token (token : String) (projects : List Project) :
    Except PyError (Option Project) :=
  if strip token = "" then .ok none
  else scalar_one_or_none (projects.filter fun p => p.share_token = some (strip token))

section
variable (a : Acceptance)

/-- The queries at the start. -/
def copy_project_for_user (projects : List Project) : Session :=
  match get_project_by_share_token a.token projects with
  | .error _ | .ok none => .raised
  | .ok (some source) =>
    match scalar_one_or_none (copies_of a.recipient_id source.id projects) with
    | .error _ => .raised
    | .ok (some existing) => .found existing
    | .ok none => .inserts source

/-- The copy is flushed, but no other session sees it. -/
def World.insert (w : World) (i : Nat) (source : Project) : World :=
  let copied : Project :=
    { id := w.next_project_id, name := source.name, description := source.description
      instructions := source.instructions, owner_user_id := some a.recipient_id
      share_token := none, shared_from_project_id := some source.id }
  let target_dir := _project_upload_dir a.upload_root copied.id
  { w with
    next_project_id := w.next_project_id + 1
    disk := w.disk.makedirs a.cwd target_dir
    sessions := Function.update w.sessions i
      (.copies ⟨source, copied, target_dir, []⟩ (w.source_docs source.id)) }

/-- How `shutil.copy2` ends. When it fails it may leave a part of the file. -/
inductive CopyOutcome where
  | copied
  | fails (left : Option (List UInt8))
deriving DecidableEq

/-- The file of a document that is there for `os.path.exists`. -/
def Disk.file_of (disk : Disk) (d : Document) : Option Path :=
  d.file_path.filter fun p => disk.exists a.cwd p

def Disk.content (disk : Disk) (d : Document) : Option (List UInt8) :=
  (disk.file_of a d).bind (disk.read a.cwd)

def target_path_of (disk : Disk) (target_dir : Path) (d : Document) (file_path : Path) : Path :=
  _unique_destination_path a.cwd disk target_dir
    (match d.filename with
    | none | some [] => basename file_path
    | some filename => filename)

/-- The copy of the file: the disk, and the path if it was made. -/
def copy_file (disk : Disk) (target_dir : Path) (d : Document) (outcome : CopyOutcome) :
    Disk × Option Path :=
  match disk.file_of a d with
  | none => (disk, none)
  | some file_path =>
    let target_path := target_path_of a disk target_dir d file_path
    match outcome, disk.read a.cwd file_path with
    | .copied, some content => (disk.write a.cwd target_path content, some target_path)
    | .fails (some left), some _ => (disk.write a.cwd target_path left, none)
    | _, _ => (disk, none)

/-- `status="indexed" if target_path is None and chunk_count > 0 else "pending"`,
which raises for a count that is null. -/
def status_of (target_path : Option Path) (chunk_count : Option Int) : Option String :=
  match target_path, chunk_count with
  | some _, _ => some "pending"
  | none, some n => some (if n > 0 then "indexed" else "pending")
  | none, none => none

def filename_of (target_path : Option Path) (d : Document) : Name :=
  match target_path, d.filename with
  | some p, _ => basename p
  | none, none | none, some [] => "missing_".toList ++ Nat.toDigits 10 d.id
  | none, some filename => filename

def copied_document (id project_id : Nat) (d : Document) (target_path : Option Path)
    (status : String) : Document where
  id := id
  project_id := some project_id
  filename := some (filename_of target_path d)
  file_type := d.file_type
  file_path := target_path
  chunk_count := d.chunk_count
  status := some status

/-- One round of the loop over the documents. -/
def World.copy (w : World) (i : Nat) (c : Copying) (d : Document) (left : List Document)
    (outcome : CopyOutcome) : World :=
  let (disk, target_path) := copy_file a w.disk c.target_dir d outcome
  match status_of target_path d.chunk_count with
  | none => { w.turn i .raised with disk }
  | some status =>
    let copied_doc := copied_document w.next_document_id c.copied.id d target_path status
    { w.turn i (.copies { c with done := c.done ++ [(d, copied_doc)] } left) with
      disk, next_document_id := w.next_document_id + 1 }

def World.commit (w : World) (i : Nat) (c : Copying) : World :=
  { w.turn i (.indexes c) with
    projects := w.projects ++ [c.copied]
    documents := w.documents ++ c.done.map Prod.snd }

def World.index (w : World) (i : Nat) (c : Copying) (failure : Option Failure) : World :=
  { w.turn i (.indexed c) with
    collections := Function.update w.collections c.copied.id
      (copy_project_index a (w.collections c.source.id) (w.collections c.copied.id)
        (document_id_map c.done) failure) }

/-- What happens in the `i`-th acceptance. -/
inductive Event where
  | accept (i : Nat)
  | insert (i : Nat)
  | copy (i : Nat) (outcome : CopyOutcome)
  | commit (i : Nat)
  | index (i : Nat) (failure : Option Failure)
  | crash (i : Nat)
deriving DecidableEq

def step (w : World) : Event → World
  | .accept i =>
    match w.sessions i with
    | .waits => w.turn i (copy_project_for_user a w.projects)
    | _ => w
  | .insert i =>
    match w.sessions i with
    | .inserts source => w.insert a i source
    | _ => w
  | .copy i outcome =>
    match w.sessions i with
    | .copies c (d :: left) => w.copy a i c d left outcome
    | _ => w
  | .commit i =>
    match w.sessions i with
    | .copies c [] => w.commit i c
    | _ => w
  | .index i failure =>
    match w.sessions i with
    | .indexes c => w.index a i c failure
    | _ => w
  | .crash i =>
    match w.sessions i with
    | .indexed _ | .found _ => w
    | _ => w.turn i .raised

end

/-! ## What is to be copied -/

section
variable (a : Acceptance)

/-- The copy of a document has its type and its count of chunks, and a file if
the document had one at the start. Both files hold the same. -/
structure SameContent (disk₀ disk : Disk) (d copy : Document) : Prop where
  file_type : copy.file_type = d.file_type
  chunk_count : copy.chunk_count = d.chunk_count
  file : disk₀.content a d ≠ none → copy.file_path ≠ none
  content : copy.file_path ≠ none →
    ∃ content, disk.content a d = some content ∧ disk.content a copy = some content

/-- The documents of the source and those of the copy, one to one. -/
structure Copied (disk₀ : Disk) (w : World) (source_id copied_id : Nat)
    (pairs : List (Document × Document)) : Prop where
  documents : (pairs.map Prod.fst).Perm (w.documents_of source_id)
  copies : (pairs.map Prod.snd).Perm (w.documents_of copied_id)
  same : ∀ p ∈ pairs, SameContent a disk₀ w.disk p.1 p.2

/-- A chunk of a document that was copied. -/
def Kept (pairs : List (Document × Document)) (c : Chunk) : Prop :=
  ∃ p ∈ pairs, c.document_id.toOption = some (p.1.id : Int)

instance (pairs : List (Document × Document)) (c : Chunk) : Decidable (Kept pairs c) := by
  unfold Kept
  exact inferInstance

def copied_chunks_of (pairs : List (Document × Document)) (chunks : List Chunk) : List Chunk :=
  chunks.filter fun c => Kept pairs c

structure SameChunk (pairs : List (Document × Document)) (c copy : Chunk) : Prop where
  text : copy.document = c.document
  mapped : ∃ p ∈ pairs, c.document_id.toOption = some (p.1.id : Int) ∧
    copy.document_id.toOption = some (p.2.id : Int)

/-- The chunks of the source and those of the copy, one to one. -/
structure Indexed (w : World) (source_id copied_id : Nat)
    (pairs : List (Document × Document)) : Prop where
  ids : ((w.chunks_of copied_id).map (·.id)).Nodup
  chunks : List.Forall₂ (SameChunk pairs) (copied_chunks_of pairs (w.chunks_of source_id))
    (w.chunks_of copied_id)

/-- There is at most one copy. The copies that were not there at the start
have the documents of the source, and after the copy of the index its chunks. -/
structure Faithful (source_id : Nat) (w₀ w : World) : Prop where
  once : (copies_of a.recipient_id source_id w.projects).length ≤ 1
  copied : ∀ p ∈ copies_of a.recipient_id source_id w.projects, p ∉ w₀.projects →
    ∃ pairs, Copied a w₀.disk w source_id p.id pairs
  indexed : ∀ i c, w.sessions i = .indexed c →
    Copied a w₀.disk w source_id c.copied.id c.done ∧ Indexed w source_id c.copied.id c.done

/-- A database in which the token shares the source, before any acceptance. -/
structure Ready (source : Project) (w : World) : Prop where
  shared : get_project_by_share_token a.token w.projects = .ok (some source)
  once : (copies_of a.recipient_id source.id w.projects).length ≤ 1
  project_ids : ∀ p ∈ w.projects, p.id < w.next_project_id
  projects_of : ∀ d ∈ w.documents, ∀ n, d.project_id = some n → n < w.next_project_id
  positive : 0 < w.next_document_id
  waits : ∀ i, w.sessions i = .waits

/-- The chunks get through: no call fails, Chroma opens both collections, and
no two chunks have one document and one shown index. -/
structure Opens (w : World) (c : Copying) (failure : Option Failure) : Prop where
  calls : failure = none
  source : ∀ s, w.collections c.source.id = some s → a.opens s.embedding_function provider = true
  target : ∀ t, w.collections c.copied.id = some t → a.opens t.embedding_function provider = true
  finite : ∀ chunk ∈ w.chunks_of c.source.id, chunk.document_id ≠ .error .overflow_error
  distinct : ((copied_chunks_of c.done (w.chunks_of c.source.id)).map fun chunk =>
    (chunk.document_id.toOption, a.str chunk.chunk_index)).Nodup

/-- A commit finds no copy of the source, the file of a document is copied if
it is there, and the copy of the index finds a collection without chunks, and
gets through if there is a chunk to copy. -/
def Fits (w : World) : Event → Prop
  | .copy i outcome =>
    match w.sessions i with
    | .copies _ (d :: _) => w.disk.content a d ≠ none → outcome = .copied
    | _ => True
  | .commit i =>
    match w.sessions i with
    | .copies c [] => copies_of a.recipient_id c.source.id w.projects = []
    | _ => True
  | .index i failure =>
    match w.sessions i with
    | .indexes c =>
      w.chunks_of c.copied.id = [] ∧
        (copied_chunks_of c.done (w.chunks_of c.source.id) ≠ [] → Opens a w c failure)
    | _ => True
  | _ => True

end

/-! ## A free path -/

section
variable {cwd : List Name} {disk : Disk} {directory : Path}

theorem exists_iff {p : Path} :
    disk.exists cwd p = true ↔ p ≠ [] ∧ location cwd p ∈ disk.entries := by
  simp [Disk.exists]

theorem exists_of_read {p : Path} {content : List UInt8} (hp : p ≠ [])
    (h : disk.read cwd p = some content) : disk.exists cwd p = true := by
  unfold Disk.read at h
  rw [Option.map_eq_some_iff] at h
  obtain ⟨file, hfile, -⟩ := h
  have hplace := List.find?_some hfile
  simp only [decide_eq_true_eq] at hplace
  refine exists_iff.mpr ⟨hp, List.mem_append_right _ ?_⟩
  rw [← hplace]
  exact List.mem_map_of_mem (List.mem_of_find?_eq_some hfile)

theorem numbered_valid {stem ext : Name} (hstem : '/' ∉ stem) (hext : '/' ∉ ext) (counter : Nat) :
    ValidName (stem ++ '_' :: Nat.toDigits 10 counter ++ ext) := by
  have hmark : '_' ∈ stem ++ '_' :: Nat.toDigits 10 counter ++ ext := by simp
  refine ⟨List.ne_nil_of_mem hmark, ?_, ?_, ?_⟩
  · have hdigits : '/' ∉ Nat.toDigits 10 counter := fun hm =>
      absurd (texts.digits_are_digits hm) (by decide)
    simp only [List.mem_append, List.mem_cons, not_or]
    exact ⟨⟨hstem, by decide, hdigits⟩, hext⟩
  · intro hdot
    rw [hdot] at hmark
    exact absurd hmark (by decide)
  · intro hdots
    rw [hdots] at hmark
    exact absurd hmark (by decide)

theorem toDigits_injective {m n : Nat} (h : Nat.toDigits 10 m = Nat.toDigits 10 n) : m = n := by
  have hm := texts.parse_toDigits m
  rw [h, texts.parse_toDigits n, Option.some.injEq] at hm
  exact hm.symm

/-- Two counters lead to two places. -/
theorem numbered_place_injective {stem ext : Name} (hstem : '/' ∉ stem) (hext : '/' ∉ ext)
    {m n : Nat} (h : location cwd (numbered_path directory stem ext m) =
      location cwd (numbered_path directory stem ext n)) : m = n := by
  unfold numbered_path at h
  rw [location_join_name _ _ (numbered_valid hstem hext m),
    location_join_name _ _ (numbered_valid hstem hext n)] at h
  have hname := List.append_cancel_left h
  simp only [List.cons.injEq, and_true, List.append_assoc, List.cons_append,
    List.append_cancel_left_eq, true_and, List.append_cancel_right_eq] at hname
  exact toDigits_injective hname

/-- The loop ends at a path that is taken only when all the paths before are. -/
theorem first_free_taken {stem ext : Name} {fuel counter : Nat}
    (h : disk.exists cwd (first_free cwd disk directory stem ext fuel counter) = true) :
    ∀ k ≤ fuel, disk.exists cwd (numbered_path directory stem ext (counter + k)) = true := by
  induction fuel generalizing counter with
  | zero =>
    intro k hk
    obtain rfl : k = 0 := by omega
    exact h
  | succ fuel ih =>
    unfold first_free at h
    by_cases htaken : disk.exists cwd (numbered_path directory stem ext counter) = true
    · rw [if_pos htaken] at h
      intro k hk
      rcases k with _ | k
      · exact htaken
      · have hrest := ih h k (by omega)
        rwa [show counter + 1 + k = counter + (k + 1) by omega] at hrest
    · rw [if_neg htaken] at h
      exact absurd h htaken

/-- There are more counters than entries. -/
theorem first_free_free {stem ext : Name} (hstem : '/' ∉ stem) (hext : '/' ∉ ext)
    (counter : Nat) :
    disk.exists cwd (first_free cwd disk directory stem ext disk.entries.length counter) =
      false := by
  by_contra htaken
  rw [Bool.not_eq_false] at htaken
  have hall := first_free_taken htaken
  let places := (List.range (disk.entries.length + 1)).map fun k =>
    location cwd (numbered_path directory stem ext (counter + k))
  have hnodup : places.Nodup := by
    refine List.Nodup.map_on ?_ List.nodup_range
    intro m _ n _ hmn
    have := numbered_place_injective hstem hext hmn
    omega
  have hsubset : places ⊆ disk.entries := by
    intro place hplace
    obtain ⟨k, hk, rfl⟩ := List.mem_map.mp hplace
    exact (exists_iff.mp (hall k (by simpa [Nat.lt_succ_iff] using hk))).2
  have hle := (hnodup.subperm hsubset).length_le
  simp [places] at hle

theorem join_ne_nil (h : directory ≠ []) {name : Name} (hname : '/' ∉ name) :
    join directory name ≠ [] := by
  unfold join
  split
  · rename_i habs
    rintro rfl
    cases habs
  · split
    · simp [h]
    · simp

theorem first_free_numbered (cwd : List Name) (disk : Disk) (directory : Path) (stem ext : Name)
    (fuel counter : Nat) : ∃ k, first_free cwd disk directory stem ext fuel counter =
      numbered_path directory stem ext k := by
  induction fuel generalizing counter with
  | zero => exact ⟨counter, rfl⟩
  | succ fuel ih =>
    unfold first_free
    split
    · exact ih (counter + 1)
    · exact ⟨counter, rfl⟩

/-- The path of a copy is free. -/
theorem unique_path_free (h : directory ≠ []) (filename : Name) :
    _unique_destination_path cwd disk directory filename ≠ [] ∧
      disk.exists cwd (_unique_destination_path cwd disk directory filename) = false := by
  unfold _unique_destination_path
  simp only
  generalize hname : basename (if filename = [] then "document".toList else filename) = name
  have hslash : '/' ∉ name := by
    rw [← hname]
    exact basename_no_slash _
  obtain ⟨hstem, hext⟩ := splitext_no_slash hslash
  split
  · refine ⟨?_, first_free_free hstem hext 1⟩
    obtain ⟨k, hk⟩ := first_free_numbered cwd disk directory (splitext name).1 (splitext name).2
      disk.entries.length 1
    rw [hk]
    exact join_ne_nil h (numbered_valid hstem hext k).2.1
  · rename_i hfree
    exact ⟨join_ne_nil h hslash, by simpa using hfree⟩

end

/-! ## Files stay -/

section
variable {a : Acceptance} {disk disk' : Disk} {d copy : Document}

/-- What was in a file is still in it. -/
def Disk.Keeps (cwd : List Name) (disk disk' : Disk) : Prop :=
  ∀ p content, disk.read cwd p = some content → disk'.read cwd p = some content

theorem Disk.Keeps.trans {cwd : List Name} {disk'' : Disk} (h : disk.Keeps cwd disk')
    (h' : disk'.Keeps cwd disk'') : disk.Keeps cwd disk'' := fun p content hread =>
  h' p content (h p content hread)

theorem keeps_makedirs (cwd : List Name) (disk : Disk) (p : Path) :
    disk.Keeps cwd (disk.makedirs cwd p) := fun _ _ hread => hread

theorem keeps_write (cwd : List Name) (disk : Disk) (p : Path) (content : List UInt8) :
    disk.Keeps cwd (disk.write cwd p content) := by
  intro q old hread
  unfold Disk.read at hread ⊢
  rw [Option.map_eq_some_iff] at hread
  obtain ⟨file, hfile, hold⟩ := hread
  simp only [Disk.write, List.find?_append, hfile, Option.some_or, Option.map_some, hold]

/-- A new file is read as it was written. -/
theorem read_write {cwd : List Name} {p : Path} (hp : p ≠ [])
    (hfree : disk.exists cwd p = false) (content : List UInt8) :
    (disk.write cwd p content).read cwd p = some content := by
  have hnone : disk.read cwd p = none := by
    cases hread : disk.read cwd p with
    | none => rfl
    | some old =>
      rw [exists_of_read hp hread] at hfree
      cases hfree
  unfold Disk.read at hnone ⊢
  rw [Option.map_eq_none_iff] at hnone
  simp [Disk.write, List.find?_append, hnone]

theorem content_iff {content : List UInt8} : disk.content a d = some content ↔
    ∃ p, d.file_path = some p ∧ p ≠ [] ∧ disk.read a.cwd p = some content := by
  unfold Disk.content Disk.file_of
  simp only [Option.bind_eq_some_iff, Option.filter_eq_some_iff]
  constructor
  · rintro ⟨p, ⟨hpath, hexists⟩, hread⟩
    exact ⟨p, hpath, (exists_iff.mp hexists).1, hread⟩
  · rintro ⟨p, hpath, hp, hread⟩
    exact ⟨p, ⟨hpath, exists_of_read hp hread⟩, hread⟩

theorem Disk.Keeps.content (h : disk.Keeps a.cwd disk') {content : List UInt8}
    (hcontent : disk.content a d = some content) : disk'.content a d = some content := by
  obtain ⟨p, hpath, hp, hread⟩ := content_iff.mp hcontent
  exact content_iff.mpr ⟨p, hpath, hp, h p content hread⟩

theorem SameContent.keep {disk₀ : Disk} (h : SameContent a disk₀ disk d copy)
    (hkeeps : disk.Keeps a.cwd disk') : SameContent a disk₀ disk' d copy where
  file_type := h.file_type
  chunk_count := h.chunk_count
  file := h.file
  content := by
    intro hfile
    obtain ⟨content, hd, hcopy⟩ := h.content hfile
    exact ⟨content, hkeeps.content hd, hkeeps.content hcopy⟩

theorem target_path_free {target_dir : Path} (hdir : target_dir ≠ []) (d : Document)
    (file_path : Path) : target_path_of a disk target_dir d file_path ≠ [] ∧
      disk.exists a.cwd (target_path_of a disk target_dir d file_path) = false :=
  unique_path_free hdir _

/-- What the copy of a file does: the other files stay, and a path that it
gives leads to what is in the file of the document. -/
theorem copy_file_spec (a : Acceptance) (disk : Disk) {target_dir : Path}
    (hdir : target_dir ≠ []) (d : Document) (outcome : CopyOutcome) :
    disk.Keeps a.cwd (copy_file a disk target_dir d outcome).1 ∧
      ∀ p, (copy_file a disk target_dir d outcome).2 = some p → p ≠ [] ∧
        ∃ content, disk.content a d = some content ∧
          (copy_file a disk target_dir d outcome).1.read a.cwd p = some content := by
  unfold copy_file
  cases hfile : disk.file_of a d with
  | none => exact ⟨fun _ _ hread => hread, fun p hp => by cases hp⟩
  | some file_path =>
    have hcontent : disk.content a d = disk.read a.cwd file_path := by
      simp [Disk.content, hfile]
    simp only
    split
    · rename_i content hread
      obtain ⟨hne, hfree⟩ := target_path_free hdir d file_path
      refine ⟨keeps_write _ _ _ _, ?_⟩
      rintro p hp
      obtain rfl := Option.some.inj hp
      exact ⟨hne, content, hcontent.trans hread, read_write hne hfree content⟩
    · exact ⟨keeps_write _ _ _ _, fun p hp => by cases hp⟩
    · exact ⟨fun _ _ hread => hread, fun p hp => by cases hp⟩

/-- A copy that gets through gives a path. -/
theorem copy_file_copied {target_dir : Path} (h : disk.content a d ≠ none) :
    (copy_file a disk target_dir d .copied).2 ≠ none := by
  obtain ⟨content, hcontent⟩ := Option.ne_none_iff_exists'.mp h
  unfold Disk.content at hcontent
  rw [Option.bind_eq_some_iff] at hcontent
  obtain ⟨file_path, hfile, hread⟩ := hcontent
  simp [copy_file, hfile, hread]

end

/-! ## The chunks of a copy -/

section
variable {a : Acceptance} {pairs : List (Document × Document)}

/-- The ids of the copies of documents. -/
structure Numbered (pairs : List (Document × Document)) : Prop where
  positive : ∀ p ∈ pairs, 0 < p.2.id
  nodup : (pairs.map fun p => p.2.id).Nodup

/-- The document that a chunk goes to, or 0. -/
def new_document_id (pairs : List (Document × Document)) (c : Chunk) : Nat :=
  (c.document_id.toOption.bind (document_id_map pairs).get).getD 0

theorem get_some {id : Int} {n : Nat} (h : (document_id_map pairs).get id = some n) :
    ∃ p ∈ pairs, (p.1.id : Int) = id ∧ p.2.id = n := by
  unfold IdMap.get document_id_map at h
  rw [Option.map_eq_some_iff] at h
  obtain ⟨q, hq, rfl⟩ := h
  obtain ⟨p, hp, rfl⟩ := List.mem_map.mp (List.mem_of_find?_eq_some hq)
  exact ⟨p, hp, by simpa using List.find?_some hq, rfl⟩

theorem get_none {id : Int} (h : (document_id_map pairs).get id = none) :
    ∀ p ∈ pairs, (p.1.id : Int) ≠ id := by
  unfold IdMap.get document_id_map at h
  rw [Option.map_eq_none_iff, List.find?_eq_none] at h
  intro p hp
  simpa using h _ (List.mem_map_of_mem hp)

theorem kept_get {c : Chunk} (h : Kept pairs c) : ∃ p ∈ pairs,
    c.document_id = .ok (p.1.id : Int) ∧ new_document_id pairs c = p.2.id := by
  obtain ⟨q, hq, hid⟩ := h
  cases hc : c.document_id with
  | error e =>
    rw [hc] at hid
    cases hid
  | ok id =>
    rw [hc] at hid
    obtain rfl := Option.some.inj hid
    cases hget : (document_id_map pairs).get (q.1.id : Int) with
    | none => exact absurd rfl (get_none hget q hq)
    | some n =>
      obtain ⟨p, hp, hold, hnew⟩ := get_some hget
      refine ⟨p, hp, by rw [hold], ?_⟩
      simp only [new_document_id, hc, Except.toOption, Option.bind_some, hget, Option.getD_some,
        hnew]

/-- The loop gives the chunks of the documents that were copied, if it ends. -/
theorem target_chunks_ok (hpos : ∀ p ∈ pairs, 0 < p.2.id) {chunks copies : List Chunk}
    (h : target_chunks a (document_id_map pairs) chunks = .ok copies) :
    copies = (copied_chunks_of pairs chunks).map fun c =>
      copied_chunk a c (new_document_id pairs c) := by
  induction chunks generalizing copies with
  | nil =>
    unfold target_chunks at h
    cases h
    rfl
  | cons c chunks ih =>
    unfold target_chunks at h
    unfold copied_chunks_of at ih ⊢
    cases hc : c.document_id with
    | error e =>
      have hout : ¬Kept pairs c := by
        rintro ⟨p, -, hid⟩
        rw [hc] at hid
        cases hid
      rw [List.filter_cons_of_neg (by simpa using hout)]
      rw [hc] at h
      cases e with
      | overflow_error => cases h
      | value_error => exact ih h
      | type_error => exact ih h
    | ok id =>
      rw [hc] at h
      simp only at h
      cases hget : (document_id_map pairs).get id with
      | none =>
        have hout : ¬Kept pairs c := by
          rintro ⟨p, hp, hid⟩
          rw [hc] at hid
          exact get_none hget p hp (Option.some.inj hid).symm
        rw [List.filter_cons_of_neg (by simpa using hout)]
        rw [hget] at h
        exact ih h
      | some n =>
        obtain ⟨p, hp, hold, hnew⟩ := get_some hget
        have hin : Kept pairs c :=
          ⟨p, hp, by rw [hc, hold]; rfl⟩
        rw [List.filter_cons_of_pos (by simpa using hin), List.map_cons]
        rw [hget] at h
        cases n with
        | zero => exact absurd hnew (Nat.ne_of_gt (hpos p hp))
        | succ n =>
          simp only at h
          obtain ⟨rest, hrest, hcopies⟩ := of_bind_ok h
          cases hcopies
          rw [ih hrest]
          simp only [new_document_id, hc, Except.toOption, Option.bind_some, hget,
            Option.getD_some]

theorem target_chunks_finite (ids : IdMap) {chunks : List Chunk}
    (h : ∀ c ∈ chunks, c.document_id ≠ .error .overflow_error) :
    ∃ copies, target_chunks a ids chunks = .ok copies := by
  induction chunks with
  | nil => exact ⟨[], rfl⟩
  | cons c chunks ih =>
    obtain ⟨rest, hrest⟩ := ih fun x hx => h x (List.mem_cons_of_mem c hx)
    have hc := h c List.mem_cons_self
    unfold target_chunks
    rw [hrest]
    split
    · rename_i hover
      exact absurd hover hc
    · exact ⟨rest, rfl⟩
    · split
      · exact ⟨rest, rfl⟩
      · exact ⟨rest, rfl⟩
      · exact ⟨_, rfl⟩

theorem digits_cut {xs ys us vs : List Char} (hx : ∀ c ∈ xs, c.isDigit = true)
    (hy : ∀ c ∈ ys, c.isDigit = true) (h : xs ++ '_' :: us = ys ++ '_' :: vs) :
    xs = ys ∧ us = vs := by
  have hcut : ∀ zs ws : List Char, (∀ c ∈ zs, c.isDigit = true) →
      (zs ++ '_' :: ws).takeWhile Char.isDigit = zs := by
    intro zs ws hz
    rw [List.takeWhile_append_of_pos hz, List.takeWhile_cons_of_neg (by decide), List.append_nil]
  obtain rfl : xs = ys := by rw [← hcut xs us hx, h, hcut ys vs hy]
  have htail := List.append_cancel_left h
  rw [List.cons.injEq] at htail
  exact ⟨rfl, htail.2⟩

theorem chunk_id_injective {m n : Nat} {s t : String} (h : chunk_id m s = chunk_id n t) :
    m = n ∧ s = t := by
  have hlist := congrArg String.toList h
  have hmark : "_chunk_".toList = '_' :: "chunk_".toList := by decide
  have hdigits : ∀ k : Nat, (toString k).toList = Nat.toDigits 10 k := fun k => by
    simp [toString, Nat.repr]
  unfold chunk_id at hlist
  simp only [String.toList_append, List.append_assoc, hmark, hdigits,
    List.append_cancel_left_eq, List.cons_append] at hlist
  obtain ⟨hid, hindex⟩ := digits_cut (fun c hc => texts.digits_are_digits hc)
    (fun c hc => texts.digits_are_digits hc) hlist
  exact ⟨toDigits_injective hid, String.toList_inj.mp (List.append_cancel_left hindex)⟩

/-- The copy of a chunk belongs to the copy of its document. -/
theorem copied_chunk_id (c : Chunk) (n : Nat) :
    (copied_chunk a c n).document_id = .ok (n : Int) := by
  unfold Chunk.document_id copied_chunk
  rw [get_set_field]
  rfl

end

/-! ## The index of a copy -/

section
variable {a : Acceptance} {pairs : List (Document × Document)}

/-- Batches with ids of their own are all stored. -/
theorem add_batches_chunks (target : Collection) (chunks : List Chunk)
    (hnodup : (chunks.map (·.id)).Nodup)
    (hapart : ∀ c ∈ chunks, c.id ∉ target.chunks.map (·.id)) :
    (add_batches none target chunks).chunks = target.chunks ++ chunks := by
  generalize hn : chunks.length = n
  induction n using Nat.strong_induction_on generalizing target chunks with
  | _ n ih =>
    unfold add_batches
    by_cases hnil : chunks = []
    · rw [if_pos (.inl hnil), hnil, List.append_nil]
    · rw [if_neg (by simpa using hnil)]
      have hsplit : (chunks.take batch_size).map (·.id) ++ (chunks.drop batch_size).map (·.id) =
          chunks.map (·.id) := by
        rw [← List.map_append, List.take_append_drop]
      rw [← hsplit, List.nodup_append] at hnodup
      obtain ⟨hbatch, hrest, hbetween⟩ := hnodup
      have hfilter : (chunks.take batch_size).filter
          (fun c => c.id ∉ target.chunks.map (·.id)) = chunks.take batch_size := by
        rw [List.filter_eq_self]
        intro c hc
        exact decide_eq_true (hapart c (List.mem_of_mem_take hc))
      simp only [Collection.add, if_pos hbatch, hfilter, Option.map_none]
      have hpos : 0 < chunks.length := List.length_pos_iff.mpr hnil
      rw [ih _ _ _ _ hrest _ rfl]
      · rw [List.append_assoc, List.take_append_drop]
      · rw [List.length_drop, ← hn]
        unfold batch_size
        omega
      · intro c hc hin
        rw [List.map_append, List.mem_append] at hin
        rcases hin with hold | hnew
        · exact hapart c (List.mem_of_mem_drop hc) hold
        · exact hbetween _ hnew _ (List.mem_map_of_mem hc) rfl

theorem add_batches_nil (left : Option Nat) (target : Collection) :
    add_batches left target [] = target := by
  unfold add_batches
  rw [if_pos (.inl rfl)]

/-- A target without chunks stays so when there is no chunk to copy. -/
theorem copy_project_index_nothing {source target : Option Collection}
    (hpos : ∀ p ∈ pairs, 0 < p.2.id) (htarget : chunks_in target = [])
    (hnone : copied_chunks_of pairs (chunks_in source) = []) (failure : Option Failure) :
    chunks_in (copy_project_index a source target (document_id_map pairs) failure) = [] := by
  unfold copy_project_index
  split
  · exact htarget
  · cases source with
    | none => exact htarget
    | some source =>
      simp only
      split
      · exact htarget
      · cases hmade : get_or_create a target with
        | none => exact htarget
        | some made =>
          have hempty : chunks_in (some made) = [] := by
            unfold get_or_create at hmade
            cases target with
            | none =>
              cases hmade
              rfl
            | some target =>
              simp only at hmade
              split at hmade
              · cases hmade
                exact htarget
              · cases hmade
          simp only
          split
          · exact hempty
          · cases hchunks : target_chunks a (document_id_map pairs) source.chunks with
            | error e => exact hempty
            | ok chunks =>
              have hcopies := target_chunks_ok hpos hchunks
              have hkept : copied_chunks_of pairs source.chunks = [] := hnone
              rw [hkept, List.map_nil] at hcopies
              rw [hcopies]
              simp only [add_batches_nil]
              exact hempty

/-- The ids of the copies are distinct if no two chunks have one document and
one shown index. -/
theorem copied_ids_nodup (hnum : Numbered pairs) {chunks : List Chunk}
    (hdistinct : ((copied_chunks_of pairs chunks).map fun c =>
      (c.document_id.toOption, a.str c.chunk_index)).Nodup) :
    (((copied_chunks_of pairs chunks).map fun c =>
      copied_chunk a c (new_document_id pairs c)).map (·.id)).Nodup := by
  rw [List.map_map]
  refine List.Nodup.map_on ?_ hdistinct.of_map
  intro c hc c' hc' hid
  obtain ⟨hnew, hindex⟩ := chunk_id_injective hid
  obtain ⟨p, hp, hdoc, hp'⟩ := kept_get (of_decide_eq_true (List.mem_filter.mp hc).2)
  obtain ⟨q, hq, hdoc', hq'⟩ := kept_get (of_decide_eq_true (List.mem_filter.mp hc').2)
  rw [hp', hq'] at hnew
  obtain rfl : p = q := List.inj_on_of_nodup_map hnum.nodup hp hq hnew
  refine List.inj_on_of_nodup_map hdistinct hc hc' ?_
  simp only [hdoc, hdoc', hindex]

/-- What the target holds when the copy of the index gets through. -/
theorem copy_project_index_chunks {source : Collection} {target : Option Collection}
    (hnum : Numbered pairs) (htarget : chunks_in target = []) (hne : pairs ≠ [])
    (hsource : a.opens source.embedding_function provider = true)
    (hopens : ∀ t, target = some t → a.opens t.embedding_function provider = true)
    (hfinite : ∀ c ∈ source.chunks, c.document_id ≠ .error .overflow_error)
    (hdistinct : ((copied_chunks_of pairs source.chunks).map fun c =>
      (c.document_id.toOption, a.str c.chunk_index)).Nodup) :
    chunks_in (copy_project_index a (some source) target (document_id_map pairs) none) =
      (copied_chunks_of pairs source.chunks).map fun c =>
        copied_chunk a c (new_document_id pairs c) := by
  obtain ⟨made, hmade, hempty⟩ : ∃ made, get_or_create a target = some made ∧ made.chunks = [] := by
    cases target with
    | none => exact ⟨_, rfl, rfl⟩
    | some target =>
      refine ⟨target, ?_, htarget⟩
      simp only [get_or_create, if_pos (hopens target rfl)]
  obtain ⟨copies, hcopies⟩ := target_chunks_finite (a := a) (document_id_map pairs) hfinite
  have hmap : document_id_map pairs ≠ [] := by
    unfold document_id_map
    simpa using hne
  simp only [copy_project_index, hmap, reduceCtorEq, or_self, if_false, hsource, not_true_eq_false,
    hmade, hcopies]
  rw [target_chunks_ok hnum.positive hcopies]
  have hadd := add_batches_chunks made ((copied_chunks_of pairs source.chunks).map fun c =>
    copied_chunk a c (new_document_id pairs c)) (copied_ids_nodup hnum hdistinct)
    fun c _ hin => by simp [hempty] at hin
  rw [hempty, List.nil_append] at hadd
  simpa [chunks_in] using hadd

end

/-! ## What a run keeps -/

section
variable (a : Acceptance) (source : Project) (w₀ : World)

/-- A copy before its commit. -/
structure Making (w : World) (c : Copying) (left : List Document) : Prop where
  from_source : c.source = source
  owner : c.copied.owner_user_id = some a.recipient_id
  shared_from : c.copied.shared_from_project_id = some source.id
  share_token : c.copied.share_token = none
  target_dir : c.target_dir ≠ []
  no_project : ∀ p ∈ w.projects, p.id ≠ c.copied.id
  no_documents : w.documents_of c.copied.id = []
  documents : c.done.map Prod.fst ++ left = w.source_docs source.id
  project_id : ∀ p ∈ c.done, p.2.project_id = some c.copied.id
  same : ∀ p ∈ c.done, SameContent a w₀.disk w.disk p.1 p.2
  numbered : Numbered c.done
  below : ∀ p ∈ c.done, p.2.id < w.next_document_id

def Sound (w : World) : Session → Prop
  | .inserts s => s = source
  | .copies c left => Making a source w₀ w c left
  | .indexes c => c.source = source ∧ Numbered c.done ∧
      Copied a w₀.disk w source.id c.copied.id c.done
  | .indexed c => Copied a w₀.disk w source.id c.copied.id c.done ∧
      Indexed w source.id c.copied.id c.done
  | _ => True

def Session.project_id : Session → Option Nat
  | .copies c _ | .indexes c | .indexed c => some c.copied.id
  | _ => none

structure Inv (w : World) : Prop where
  shared : get_project_by_share_token a.token w.projects = .ok (some source)
  once : (copies_of a.recipient_id source.id w.projects).length ≤ 1
  project_ids : ∀ p ∈ w.projects, p.id < w.next_project_id
  projects_of : ∀ d ∈ w.documents, ∀ n, d.project_id = some n → n < w.next_project_id
  positive : 0 < w.next_document_id
  keeps : w₀.disk.Keeps a.cwd w.disk
  copied : ∀ p ∈ copies_of a.recipient_id source.id w.projects, p ∉ w₀.projects →
    ∃ pairs, Copied a w₀.disk w source.id p.id pairs
  sound : ∀ i, Sound a source w₀ w (w.sessions i)
  below : ∀ i n, (w.sessions i).project_id = some n → n < w.next_project_id ∧ n ≠ source.id
  apart : ∀ i j n, (w.sessions i).project_id = some n → (w.sessions j).project_id = some n → i = j

/-- A step that is about the project `n` and no other. -/
structure Leaves (n : Nat) (w w' : World) : Prop where
  projects : ∀ p ∈ w'.projects, p ∈ w.projects ∨ p.id = n
  documents : ∀ m ≠ n, w'.documents_of m = w.documents_of m
  collections : ∀ m ≠ n, w'.collections m = w.collections m
  disk : w.disk.Keeps a.cwd w'.disk
  project_ids : w.next_project_id ≤ w'.next_project_id
  document_ids : w.next_document_id ≤ w'.next_document_id

/-- A step of one session, about a project that no other session has. -/
structure Turns (w w' : World) (i n : Nat) (session : Session) : Prop where
  leaves : Leaves a n w w'
  not_source : source.id ≠ n
  others : ∀ j ≠ i, (w.sessions j).project_id ≠ some n
  sessions : w'.sessions = Function.update w.sessions i session
  sound : Sound a source w₀ w' session
  mine : ∀ m, session.project_id = some m → m = n ∧ m < w'.next_project_id

variable {a source w₀} {w w' : World} {n : Nat}

theorem shared_mem (h : get_project_by_share_token a.token w.projects = .ok (some source)) :
    source ∈ w.projects := by
  unfold get_project_by_share_token at h
  split at h
  · cases h
  · unfold scalar_one_or_none at h
    split at h
    · cases h
    · rename_i row hrows
      cases h
      have hmem : source ∈ w.projects.filter fun p => p.share_token = some (strip a.token) := by
        rw [hrows]
        exact List.mem_singleton_self source
      exact (List.mem_filter.mp hmem).1
    · cases h

theorem Copied.keep {m : Nat} {pairs : List (Document × Document)}
    (h : Copied a w₀.disk w source.id m pairs) (hsource : w'.documents_of source.id =
      w.documents_of source.id) (hm : w'.documents_of m = w.documents_of m)
    (hdisk : w.disk.Keeps a.cwd w'.disk) : Copied a w₀.disk w' source.id m pairs where
  documents := by
    rw [hsource]
    exact h.documents
  copies := by
    rw [hm]
    exact h.copies
  same := fun p hp => (h.same p hp).keep hdisk

theorem Leaves.copied {m : Nat} {pairs : List (Document × Document)} (h : Leaves a n w w')
    (hsource : source.id ≠ n) (hm : m ≠ n) (hcopied : Copied a w₀.disk w source.id m pairs) :
    Copied a w₀.disk w' source.id m pairs :=
  hcopied.keep (h.documents _ hsource) (h.documents _ hm) h.disk

/-- What a step about another project leaves of a session. -/
theorem Sound.keep {session : Session} (h : Sound a source w₀ w session)
    (hleaves : Leaves a n w w') (hsource : source.id ≠ n) (hn : session.project_id ≠ some n) :
    Sound a source w₀ w' session := by
  cases session with
  | waits => trivial
  | inserts s => exact h
  | found existing => trivial
  | raised => trivial
  | copies c left =>
    have hne : c.copied.id ≠ n := fun heq => hn (congrArg some heq)
    exact {
      from_source := h.from_source
      owner := h.owner
      shared_from := h.shared_from
      share_token := h.share_token
      target_dir := h.target_dir
      no_project := by
        intro p hp
        rcases hleaves.projects p hp with hold | hid
        · exact h.no_project p hold
        · rw [hid]
          exact hne.symm
      no_documents := by
        rw [hleaves.documents _ hne]
        exact h.no_documents
      documents := by
        rw [h.documents]
        unfold World.source_docs
        rw [hleaves.documents _ hsource]
      project_id := h.project_id
      same := fun p hp => (h.same p hp).keep hleaves.disk
      numbered := h.numbered
      below := fun p hp => Nat.lt_of_lt_of_le (h.below p hp) hleaves.document_ids }
  | indexes c =>
    have hne : c.copied.id ≠ n := fun heq => hn (congrArg some heq)
    exact ⟨h.1, h.2.1, hleaves.copied hsource hne h.2.2⟩
  | indexed c =>
    have hne : c.copied.id ≠ n := fun heq => hn (congrArg some heq)
    refine ⟨hleaves.copied hsource hne h.1, ?_, ?_⟩
    · unfold World.chunks_of
      rw [hleaves.collections _ hne]
      exact h.2.ids
    · unfold World.chunks_of
      rw [hleaves.collections _ hne, hleaves.collections _ hsource]
      exact h.2.chunks

theorem Turns.inv {i : Nat} {session : Session}
    (h : Turns a source w₀ w w' i n session)
    (hinv : Inv a source w₀ w)
    (hshared : get_project_by_share_token a.token w'.projects = .ok (some source))
    (honce : (copies_of a.recipient_id source.id w'.projects).length ≤ 1)
    (hids : ∀ p ∈ w'.projects, p.id < w'.next_project_id)
    (hof : ∀ d ∈ w'.documents, ∀ m, d.project_id = some m → m < w'.next_project_id)
    (hcopied : ∀ p ∈ copies_of a.recipient_id source.id w'.projects, p ∉ w₀.projects →
      ∃ pairs, Copied a w₀.disk w' source.id p.id pairs) : Inv a source w₀ w' where
  shared := hshared
  once := honce
  project_ids := hids
  projects_of := hof
  positive := Nat.lt_of_lt_of_le hinv.positive h.leaves.document_ids
  keeps := hinv.keeps.trans h.leaves.disk
  copied := hcopied
  sound := by
    intro j
    rw [h.sessions]
    by_cases hj : j = i
    · rw [hj, Function.update_self]
      exact h.sound
    · rw [Function.update_of_ne hj]
      exact (hinv.sound j).keep h.leaves h.not_source (h.others j hj)
  below := by
    intro j m hm
    rw [h.sessions] at hm
    by_cases hj : j = i
    · rw [hj, Function.update_self] at hm
      obtain ⟨rfl, hlt⟩ := h.mine m hm
      exact ⟨hlt, h.not_source.symm⟩
    · rw [Function.update_of_ne hj] at hm
      obtain ⟨hlt, hne⟩ := hinv.below j m hm
      exact ⟨Nat.lt_of_lt_of_le hlt h.leaves.project_ids, hne⟩
  apart := by
    have hother : ∀ j m, j ≠ i → (w'.sessions i).project_id = some m →
        (w'.sessions j).project_id ≠ some m := by
      intro j m hj hi hm
      rw [h.sessions, Function.update_self] at hi
      rw [h.sessions, Function.update_of_ne hj] at hm
      obtain ⟨rfl, -⟩ := h.mine m hi
      exact h.others j hj hm
    intro j k m hj hk
    by_cases hji : j = i
    · by_cases hki : k = i
      · rw [hji, hki]
      · rw [hji] at hj
        exact absurd hk (hother k m hki hj)
    · by_cases hki : k = i
      · rw [hki] at hk
        exact absurd hj (hother j m hji hk)
      · rw [h.sessions, Function.update_of_ne hji] at hj
        rw [h.sessions, Function.update_of_ne hki] at hk
        exact hinv.apart j k m hj hk

end

/-! ## What a step keeps -/

section
variable {a : Acceptance} {source : Project} {w₀ w : World} {i : Nat} {c : Copying}

/-- No session has the id of the next project. -/
theorem Inv.next_free (h : Inv a source w₀ w) :
    source.id ≠ w.next_project_id ∧ ∀ j, (w.sessions j).project_id ≠ some w.next_project_id :=
  ⟨Nat.ne_of_lt (h.project_ids source (shared_mem h.shared)),
    fun j hj => Nat.lt_irrefl _ (h.below j _ hj).1⟩

/-- The id of a copy is of no other session. -/
theorem Inv.own (h : Inv a source w₀ w) {n : Nat} (hn : (w.sessions i).project_id = some n) :
    source.id ≠ n ∧ ∀ j ≠ i, (w.sessions j).project_id ≠ some n :=
  ⟨(h.below i n hn).2.symm, fun j hj hjn => hj (h.apart j i n hjn hn)⟩

/-- A step that commits nothing. -/
theorem Inv.unseen (h : Inv a source w₀ w) {n k l : Nat} {disk : Disk} {session : Session}
    (hdisk : w.disk.Keeps a.cwd disk) (hk : w.next_document_id ≤ k) (hl : w.next_project_id ≤ l)
    (hn : source.id ≠ n ∧ ∀ j ≠ i, (w.sessions j).project_id ≠ some n)
    (hsound : Sound a source w₀ { w with
      disk, next_document_id := k, next_project_id := l
      sessions := Function.update w.sessions i session } session)
    (hmine : ∀ m, session.project_id = some m → m = n ∧ m < l) :
    Inv a source w₀ { w with
      disk, next_document_id := k, next_project_id := l
      sessions := Function.update w.sessions i session } := by
  have hturns : Turns a source w₀ w { w with
      disk, next_document_id := k, next_project_id := l
      sessions := Function.update w.sessions i session } i n session :=
    { leaves := ⟨fun p hp => .inl hp, fun _ _ => rfl, fun _ _ => rfl, hdisk, hl, hk⟩
      not_source := hn.1
      others := hn.2
      sessions := rfl
      sound := hsound
      mine := hmine }
  refine hturns.inv h h.shared h.once (fun p hp => Nat.lt_of_lt_of_le (h.project_ids p hp) hl)
    (fun d hd m hm => Nat.lt_of_lt_of_le (h.projects_of d hd m hm) hl) ?_
  intro p hp hnew
  obtain ⟨pairs, hpairs⟩ := h.copied p hp hnew
  exact ⟨pairs, hpairs.keep rfl rfl hdisk⟩

theorem Inv.turn (h : Inv a source w₀ w) {disk : Disk} {session : Session}
    (hdisk : w.disk.Keeps a.cwd disk) (hsound : ∀ w', Sound a source w₀ w' session)
    (hid : session.project_id = none) :
    Inv a source w₀ { w with disk, sessions := Function.update w.sessions i session } :=
  h.unseen hdisk (Nat.le_refl _) (Nat.le_refl _)
    ⟨h.next_free.1, fun j _ => h.next_free.2 j⟩ (hsound _) fun m hm => by
      rw [hid] at hm
      cases hm

theorem Inv.accept (h : Inv a source w₀ w) :
    Inv a source w₀ (w.turn i (copy_project_for_user a w.projects)) := by
  have hkeeps : w.disk.Keeps a.cwd w.disk := fun _ _ hread => hread
  unfold copy_project_for_user
  rw [h.shared]
  simp only
  cases scalar_one_or_none (copies_of a.recipient_id source.id w.projects) with
  | error e => exact h.turn hkeeps (fun _ => trivial) rfl
  | ok existing =>
    cases existing with
    | none => exact h.turn hkeeps (fun _ => rfl) rfl
    | some existing => exact h.turn hkeeps (fun _ => trivial) rfl

theorem upload_dir_ne_nil (upload_root : Path) (n : Nat) :
    _project_upload_dir upload_root n ≠ [] := by
  unfold _project_upload_dir join
  split
  · simp
  · split
    · simp
    · simp

theorem documents_of_next (h : Inv a source w₀ w) : w.documents_of w.next_project_id = [] := by
  unfold World.documents_of
  rw [List.filter_eq_nil_iff]
  intro d hd hid
  exact Nat.lt_irrefl _ (h.projects_of d hd _ (of_decide_eq_true hid))

theorem Inv.insert (h : Inv a source w₀ w) : Inv a source w₀ (w.insert a i source) := by
  refine h.unseen (keeps_makedirs a.cwd w.disk _) (Nat.le_refl _) (Nat.le_succ _)
    ⟨h.next_free.1, fun j _ => h.next_free.2 j⟩ ?_ ?_
  · exact {
      from_source := rfl
      owner := rfl
      shared_from := rfl
      share_token := rfl
      target_dir := upload_dir_ne_nil _ _
      no_project := fun p hp => Nat.ne_of_lt (h.project_ids p hp)
      no_documents := documents_of_next h
      documents := rfl
      project_id := fun p hp => by cases hp
      same := fun p hp => by cases hp
      numbered := ⟨(fun p hp => by cases hp), List.nodup_nil⟩
      below := fun p hp => by cases hp }
  · rintro m hm
    obtain rfl := Option.some.inj hm
    exact ⟨rfl, Nat.lt_succ_self _⟩

/-- A copied document is like its document, if its file was copied. -/
theorem same_content_copied {disk₀ disk : Disk} {d : Document} {outcome : CopyOutcome}
    {target_dir : Path} (hdir : target_dir ≠ []) (hkeeps : disk₀.Keeps a.cwd disk)
    (hfit : disk.content a d ≠ none → outcome = .copied) (id project_id : Nat) (status : String) :
    SameContent a disk₀ (copy_file a disk target_dir d outcome).1 d
      (copied_document id project_id d (copy_file a disk target_dir d outcome).2 status) := by
  obtain ⟨hfiles, hpath⟩ := copy_file_spec a disk hdir d outcome
  refine ⟨rfl, rfl, ?_, ?_⟩
  · intro hfile
    obtain ⟨content, hcontent⟩ := Option.ne_none_iff_exists'.mp hfile
    have hnow : disk.content a d ≠ none := by
      rw [hkeeps.content hcontent]
      exact Option.some_ne_none content
    obtain rfl := hfit hnow
    exact copy_file_copied hnow
  · intro hfile
    obtain ⟨p, hp⟩ := Option.ne_none_iff_exists'.mp hfile
    obtain ⟨hne, content, hcontent, hread⟩ := hpath p hp
    exact ⟨content, hfiles.content hcontent, content_iff.mpr ⟨p, hp, hne, hread⟩⟩

theorem Numbered.append {pairs : List (Document × Document)} (h : Numbered pairs)
    {p : Document × Document} (hpos : 0 < p.2.id) (hbelow : ∀ q ∈ pairs, q.2.id < p.2.id) :
    Numbered (pairs ++ [p]) where
  positive := by
    intro q hq
    rcases List.mem_append.mp hq with hq | hq
    · exact h.positive q hq
    · rw [List.mem_singleton.mp hq]
      exact hpos
  nodup := by
    rw [List.map_append, List.nodup_append]
    refine ⟨h.nodup, List.nodup_singleton _, ?_⟩
    intro id hid id' hid' heq
    obtain ⟨q, hq, rfl⟩ := List.mem_map.mp hid
    rw [List.map_singleton, List.mem_singleton] at hid'
    exact Nat.ne_of_lt (hbelow q hq) (heq.trans hid')

theorem Inv.copy (h : Inv a source w₀ w) {d : Document} {left : List Document}
    {outcome : CopyOutcome} (hs : w.sessions i = .copies c (d :: left))
    (hfit : w.disk.content a d ≠ none → outcome = .copied) :
    Inv a source w₀ (w.copy a i c d left outcome) := by
  have hmaking : Making a source w₀ w c (d :: left) := by
    have hsound := h.sound i
    rw [hs] at hsound
    exact hsound
  have hid : (w.sessions i).project_id = some c.copied.id := by
    rw [hs]
    rfl
  obtain ⟨hfiles, -⟩ := copy_file_spec a w.disk hmaking.target_dir d outcome
  unfold World.copy
  simp only
  cases hstatus : status_of (copy_file a w.disk c.target_dir d outcome).2 d.chunk_count with
  | none => exact h.turn hfiles (fun _ => trivial) rfl
  | some status =>
    refine h.unseen hfiles (Nat.le_succ _) (Nat.le_refl _) (h.own hid) ?_ ?_
    · have hnew : ∀ p ∈ c.done ++ [(d, copied_document w.next_document_id c.copied.id d
          (copy_file a w.disk c.target_dir d outcome).2 status)], p ∈ c.done ∨
          p = (d, copied_document w.next_document_id c.copied.id d
            (copy_file a w.disk c.target_dir d outcome).2 status) := fun p hp => by
        simpa using hp
      exact {
        from_source := hmaking.from_source
        owner := hmaking.owner
        shared_from := hmaking.shared_from
        share_token := hmaking.share_token
        target_dir := hmaking.target_dir
        no_project := hmaking.no_project
        no_documents := hmaking.no_documents
        documents := by
          rw [List.map_append, List.append_assoc]
          exact hmaking.documents
        project_id := by
          intro p hp
          rcases hnew p hp with hold | rfl
          · exact hmaking.project_id p hold
          · rfl
        same := by
          intro p hp
          rcases hnew p hp with hold | rfl
          · exact (hmaking.same p hold).keep hfiles
          · exact same_content_copied hmaking.target_dir h.keeps hfit _ _ _
        numbered := hmaking.numbered.append h.positive hmaking.below
        below := by
          intro p hp
          rcases hnew p hp with hold | rfl
          · exact Nat.lt_succ_of_lt (hmaking.below p hold)
          · exact Nat.lt_succ_self _ }
    · rintro m hm
      obtain rfl := Option.some.inj hm
      exact ⟨rfl, (h.below i _ hid).1⟩

theorem documents_of_commit (w : World) (i : Nat) (c : Copying) (m : Nat) :
    (w.commit i c).documents_of m =
      w.documents_of m ++ (c.done.map Prod.snd).filter fun d => d.project_id = some m :=
  List.filter_append ..

/-- A commit that finds a copy makes one more: the condition on commits cannot
be left out. -/
theorem commit_adds_copy (h : Making a source w₀ w c []) :
    (copies_of a.recipient_id source.id (w.commit i c).projects).length =
      (copies_of a.recipient_id source.id w.projects).length + 1 := by
  have hcopy : copies_of a.recipient_id source.id [c.copied] = [c.copied] := by
    simp [copies_of, h.owner, h.shared_from]
  unfold copies_of at hcopy ⊢
  rw [World.commit, List.filter_append, hcopy, List.length_append, List.length_singleton]

theorem Making.project_ids (h : Making a source w₀ w c []) :
    ∀ d ∈ c.done.map Prod.snd, d.project_id = some c.copied.id := by
  intro d hd
  obtain ⟨p, hp, rfl⟩ := List.mem_map.mp hd
  exact h.project_id p hp

/-- A commit adds no documents to another project. -/
theorem documents_of_other (h : Making a source w₀ w c []) {m : Nat} (hm : m ≠ c.copied.id) :
    (w.commit i c).documents_of m = w.documents_of m := by
  rw [documents_of_commit, List.append_right_eq_self, List.filter_eq_nil_iff]
  intro d hd hdm
  rw [h.project_ids d hd] at hdm
  exact hm (Option.some.inj (of_decide_eq_true hdm)).symm

/-- The documents that a commit adds are those of the copy. -/
theorem copied_commit (h : Making a source w₀ w c []) (hsource : source.id ≠ c.copied.id) :
    Copied a w₀.disk (w.commit i c) source.id c.copied.id c.done := by
  have hmine : (w.commit i c).documents_of c.copied.id = c.done.map Prod.snd := by
    rw [documents_of_commit, h.no_documents, List.nil_append, List.filter_eq_self]
    exact fun d hd => decide_eq_true (h.project_ids d hd)
  refine ⟨?_, ?_, h.same⟩
  · rw [documents_of_other h hsource, ← List.append_nil (c.done.map Prod.fst), h.documents]
    exact List.perm_insertionSort _ _
  · rw [hmine]

theorem Inv.commit (h : Inv a source w₀ w) (hs : w.sessions i = .copies c [])
    (hfit : copies_of a.recipient_id c.source.id w.projects = []) :
    Inv a source w₀ (w.commit i c) := by
  have hmaking : Making a source w₀ w c [] := by
    have hsound := h.sound i
    rw [hs] at hsound
    exact hsound
  have hid : (w.sessions i).project_id = some c.copied.id := by
    rw [hs]
    rfl
  obtain ⟨hsource, hothers⟩ := h.own hid
  have hbelow := (h.below i _ hid).1
  have hcopied : Copied a w₀.disk (w.commit i c) source.id c.copied.id c.done :=
    copied_commit hmaking hsource
  rw [hmaking.from_source] at hfit
  have hcopies : ∀ p ∈ copies_of a.recipient_id source.id (w.commit i c).projects,
      p = c.copied := by
    intro p hp
    unfold copies_of at hfit hp
    rw [World.commit, List.filter_append, hfit, List.nil_append] at hp
    simpa using (List.mem_filter.mp hp).1
  have hturns : Turns a source w₀ w (w.commit i c) i c.copied.id (.indexes c) :=
    { leaves := {
        projects := fun p hp => (List.mem_append.mp hp).imp id fun hp => by
          rw [List.mem_singleton.mp hp]
        documents := fun m hm => documents_of_other hmaking hm
        collections := fun _ _ => rfl
        disk := fun _ _ hread => hread
        project_ids := Nat.le_refl _
        document_ids := Nat.le_refl _ }
      not_source := hsource
      others := hothers
      sessions := rfl
      sound := ⟨hmaking.from_source, hmaking.numbered, hcopied⟩
      mine := fun m hm => by
        obtain rfl := Option.some.inj hm
        exact ⟨rfl, hbelow⟩ }
  refine hturns.inv h ?_ ?_ ?_ ?_ ?_
  · have hshared := h.shared
    unfold get_project_by_share_token at hshared ⊢
    rw [World.commit, List.filter_append, List.filter_cons_of_neg (by simp [hmaking.share_token]),
      List.filter_nil, List.append_nil]
    exact hshared
  · rw [commit_adds_copy hmaking, hfit]
    exact Nat.le_refl 1
  · intro p hp
    rcases List.mem_append.mp hp with hp | hp
    · exact h.project_ids p hp
    · rw [List.mem_singleton.mp hp]
      exact hbelow
  · intro d hd m hm
    rcases List.mem_append.mp hd with hd | hd
    · exact h.projects_of d hd m hm
    · rw [hmaking.project_ids d hd] at hm
      obtain rfl := Option.some.inj hm
      exact hbelow
  · intro p hp _
    rw [hcopies p hp]
    exact ⟨c.done, hcopied⟩

/-- The copy of the index, from a target without chunks. -/
theorem indexed_copy (hnum : Numbered c.done) (hsource : c.source.id ≠ c.copied.id)
    (hempty : w.chunks_of c.copied.id = []) {failure : Option Failure}
    (hopens : copied_chunks_of c.done (w.chunks_of c.source.id) ≠ [] → Opens a w c failure) :
    Indexed (w.index a i c failure) c.source.id c.copied.id c.done := by
  have hchunks : (w.index a i c failure).chunks_of c.source.id = w.chunks_of c.source.id := by
    simp only [World.chunks_of, World.index, World.turn, Function.update_of_ne hsource]
  have htarget : (w.index a i c failure).chunks_of c.copied.id =
      chunks_in (copy_project_index a (w.collections c.source.id) (w.collections c.copied.id)
        (document_id_map c.done) failure) := by
    simp only [World.chunks_of, World.index, World.turn, Function.update_self]
  by_cases hnone : copied_chunks_of c.done (w.chunks_of c.source.id) = []
  · have hnothing := copy_project_index_nothing (a := a) hnum.positive hempty hnone failure
    rw [← htarget] at hnothing
    refine ⟨?_, ?_⟩
    · rw [hnothing]
      exact List.nodup_nil
    · rw [hnothing, hchunks, hnone]
      exact .nil
  · have ho := hopens hnone
    obtain ⟨chunk, hchunk⟩ := List.exists_mem_of_ne_nil _ hnone
    have hkept : Kept c.done chunk := of_decide_eq_true (List.mem_filter.mp hchunk).2
    have hne : c.done ≠ [] := by
      obtain ⟨p, hp, -⟩ := hkept
      exact List.ne_nil_of_mem hp
    obtain ⟨s, hs⟩ : ∃ s, w.collections c.source.id = some s := by
      cases hs : w.collections c.source.id with
      | some s => exact ⟨s, rfl⟩
      | none =>
        have hmem := (List.mem_filter.mp hchunk).1
        simp [World.chunks_of, chunks_in, hs] at hmem
    have hof : w.chunks_of c.source.id = s.chunks := by
      simp [World.chunks_of, chunks_in, hs]
    have hfinite := ho.finite
    have hdistinct := ho.distinct
    rw [hof] at hfinite hdistinct
    have hcopies := copy_project_index_chunks hnum hempty hne (ho.source s hs) ho.target hfinite
      hdistinct
    rw [← hs, ← ho.calls, ← htarget] at hcopies
    refine ⟨?_, ?_⟩
    · rw [hcopies]
      exact copied_ids_nodup hnum hdistinct
    · rw [hcopies, hchunks, hof, List.forall₂_map_right_iff, List.forall₂_same]
      intro x hx
      obtain ⟨p, hp, hid, hnew⟩ := kept_get (of_decide_eq_true (List.mem_filter.mp hx).2)
      exact ⟨rfl, p, hp, by rw [hid]; rfl, by rw [copied_chunk_id, hnew]; rfl⟩

theorem Inv.index (h : Inv a source w₀ w) (hs : w.sessions i = .indexes c)
    (hempty : w.chunks_of c.copied.id = []) {failure : Option Failure}
    (hopens : copied_chunks_of c.done (w.chunks_of c.source.id) ≠ [] → Opens a w c failure) :
    Inv a source w₀ (w.index a i c failure) := by
  have hid : (w.sessions i).project_id = some c.copied.id := by
    rw [hs]
    rfl
  obtain ⟨hsource, hothers⟩ := h.own hid
  have hsound := h.sound i
  rw [hs] at hsound
  obtain ⟨rfl, hnum, hcopied⟩ := hsound
  have hturns : Turns a c.source w₀ w (w.index a i c failure) i c.copied.id (.indexed c) :=
    { leaves := {
        projects := fun p hp => .inl hp
        documents := fun _ _ => rfl
        collections := fun m hm => Function.update_of_ne hm ..
        disk := fun _ _ hread => hread
        project_ids := Nat.le_refl _
        document_ids := Nat.le_refl _ }
      not_source := hsource
      others := hothers
      sessions := rfl
      sound := ⟨hcopied.keep rfl rfl fun _ _ hread => hread,
        indexed_copy hnum hsource hempty hopens⟩
      mine := fun m hm => by
        obtain rfl := Option.some.inj hm
        exact ⟨rfl, (h.below i _ hid).1⟩ }
  refine hturns.inv h h.shared h.once h.project_ids h.projects_of ?_
  intro p hp hnew
  obtain ⟨pairs, hpairs⟩ := h.copied p hp hnew
  exact ⟨pairs, hpairs.keep rfl rfl fun _ _ hread => hread⟩

theorem Inv.after_step (h : Inv a source w₀ w) (e : Event) (hfit : Fits a w e) :
    Inv a source w₀ (step a w e) := by
  cases e with
  | accept i =>
    cases hs : w.sessions i with
    | waits =>
      simp only [step, hs]
      exact h.accept
    | _ =>
      simp only [step, hs]
      exact h
  | insert i =>
    cases hs : w.sessions i with
    | inserts s =>
      have hsound := h.sound i
      rw [hs] at hsound
      obtain rfl : s = source := hsound
      simp only [step, hs]
      exact h.insert
    | _ =>
      simp only [step, hs]
      exact h
  | copy i outcome =>
    cases hs : w.sessions i with
    | copies c left =>
      cases left with
      | nil =>
        simp only [step, hs]
        exact h
      | cons d left =>
        simp only [Fits, hs] at hfit
        simp only [step, hs]
        exact h.copy hs hfit
    | _ =>
      simp only [step, hs]
      exact h
  | commit i =>
    cases hs : w.sessions i with
    | copies c left =>
      cases left with
      | nil =>
        simp only [Fits, hs] at hfit
        simp only [step, hs]
        exact h.commit hs hfit
      | cons d left =>
        simp only [step, hs]
        exact h
    | _ =>
      simp only [step, hs]
      exact h
  | index i failure =>
    cases hs : w.sessions i with
    | indexes c =>
      simp only [Fits, hs] at hfit
      simp only [step, hs]
      exact h.index hs hfit.1 hfit.2
    | _ =>
      simp only [step, hs]
      exact h
  | crash i =>
    have hraised : Inv a source w₀ (w.turn i .raised) :=
      h.turn (fun _ _ hread => hread) (fun _ => trivial) rfl
    simp only [step]
    split
    · exact h
    · exact h
    · exact hraised

theorem Ready.inv (h : Ready a source w) : Inv a source w w where
  shared := h.shared
  once := h.once
  project_ids := h.project_ids
  projects_of := h.projects_of
  positive := h.positive
  keeps := fun _ _ hread => hread
  copied := fun p hp hnew => absurd (List.mem_filter.mp hp).1 hnew
  sound := fun i => by
    rw [h.waits i]
    trivial
  below := fun i n hn => by
    rw [h.waits i] at hn
    cases hn
  apart := fun i j n hn => by
    rw [h.waits i] at hn
    cases hn

theorem Inv.faithful (h : Inv a source w₀ w) : Faithful a source.id w₀ w where
  once := h.once
  copied := h.copied
  indexed := by
    intro i c hs
    have hsound := h.sound i
    rw [hs] at hsound
    exact hsound

end

/-! ## The law -/

/-- LAW: the copies of a shared project are made once and are faithful in each
state of a run in which a commit finds no other copy, the files that are there
are copied, and the copy of the index finds an empty collection, can open what
it reads, and no two chunks that show one index for one document. -/
theorem a_copy_is_made_once_and_faithful_if_each_step_fits (a : Acceptance) (source : Project)
    (w : World) (es : List Event) (hready : Ready a source w)
    (hfits : Each (step a) (Fits a) w es) :
    Faithful a source.id w (after (step a) w es) :=
  (hfits.keeps (fun _ e hinv hfit => hinv.after_step e hfit) hready.inv).faithful

/-! ## One shared document -/

/-- `str` of a whole number or a text. -/
def str_of_value : JsonValue → String
  | .int n => toString n
  | .str text => text
  | _ => ""

def an_acceptance : Acceptance where
  token := "t"
  recipient_id := 2
  cwd := []
  opens := fun stored wanted => stored = wanted
  str := str_of_value

def a_project : Project where
  id := 1
  name := some "Physics"
  description := none
  instructions := none
  owner_user_id := some 1
  share_token := some "t"
  shared_from_project_id := none

def a_document : Document where
  id := 1
  project_id := some 1
  filename := some ['a']
  file_type := some "txt"
  file_path := some ['/', 'a']
  chunk_count := some 1
  status := some "indexed"

def a_chunk : Chunk where
  id := "doc_1_chunk_0"
  document := "text"
  metadata := [("document_id", .int 1), ("chunk_index", .int 0)]
  embedding := []

/-- A database with one shared project of one document. -/
def a_world : World where
  projects := [a_project]
  documents := [a_document]
  next_project_id := 2
  next_document_id := 2
  disk := ⟨[([['a']], [65])], [[]]⟩
  collections := fun n => if n = 1 then some ⟨"google", [a_chunk]⟩ else none

theorem a_world_ready : Ready an_acceptance a_project a_world where
  shared := by decide +kernel
  once := by decide
  project_ids := by decide
  projects_of := by
    intro d hd n hn
    rw [List.mem_singleton.mp hd] at hn
    obtain rfl := Option.some.inj hn
    decide
  positive := by decide
  waits := fun _ => rfl

theorem one_copy :
    Faithful an_acceptance a_project.id a_world (after (step an_acceptance) a_world
      [.accept 0, .insert 0, .copy 0 .copied, .commit 0, .index 0 none]) := by
  refine a_copy_is_made_once_and_faithful_if_each_step_fits an_acceptance a_project a_world _
    a_world_ready ⟨trivial, trivial, fun _ => rfl, ?_, ⟨?_, fun _ => ?_⟩, trivial⟩
  · exact (by decide : copies_of 2 1 [a_project] = [])
  · rfl
  · refine ⟨rfl, ?_, ?_, ?_, ?_⟩
    · intro s hs
      cases hs
      rfl
    · intro t ht
      cases ht
    · intro chunk hchunk
      rw [List.mem_singleton.mp hchunk]
      exact (by decide : (.ok 1 : Except IntError Int) ≠ .error .overflow_error)
    · exact List.nodup_singleton (some (1 : Int), "0")

/-- Two acceptances look for a copy before either commits: there are two. -/
theorem two_acceptances_make_two_copies :
    ¬∀ (a : Acceptance) (source : Project) (w : World) (es : List Event), Ready a source w →
      Faithful a source.id w (after (step a) w es) := by
  intro h
  have honce := (h an_acceptance a_project a_world [.accept 0, .accept 1, .insert 0, .insert 1,
    .copy 0 .copied, .copy 1 .copied, .commit 0, .commit 1] a_world_ready).once
  revert honce
  decide +kernel

end dr_boz.project_copies
