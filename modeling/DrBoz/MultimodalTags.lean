-- The uploaded files that are put into the messages for a model: the tags of
-- images and files in the texts of a user, `resolve_multimodal_tags_in_messages`
-- of `llm.py` with the two streams that call it, and `_resolve_vision_messages`
-- of the bot.
import DrBoz.Lib.PosixPaths
import DrBoz.Lib.TextScan
import DrBoz.Models
import DrBoz.Texts

open keyed_table posix_paths text_scan dr_boz.py

namespace dr_boz.multimodal_tags

/-! ## The files -/

structure UploadedFile where
  id : Nat := 0
  user_id : Nat
  filename : Option String := none
  mime_type : Option String := none
  storage_path : Option String
deriving DecidableEq

instance : Row UploadedFile Empty :=
  ⟨(·.id), fun a n => { a with id := n }, fun _ => none, fun _ _ => rfl, fun _ _ => rfl⟩

/-- What stands at a path. A directory is there, but cannot be read as a file. -/
inductive Entry
  | missing
  | unreadable
  | file (bytes : List UInt8)
deriving DecidableEq

structure Disk where
  cwd : List Name
  entry : Path → Entry

def Disk.exists (disk : Disk) (p : Path) : Bool := disk.entry p ≠ .missing

/-! ## Base 64 -/

def B64_ALPHABET : List Char :=
  "ABCDEFGHIJKLMNOPQRSTUVWXYZabcdefghijklmnopqrstuvwxyz0123456789+/".toList

def b64_digit (n : Nat) : Char := B64_ALPHABET.getD (n % 64) '='

/-- `base64.b64encode(bytes).decode("utf-8")` -/
def b64encode : List UInt8 → List Char
  | a :: b :: c :: bytes =>
    let n := a.toNat * 65536 + b.toNat * 256 + c.toNat
    [b64_digit (n / 262144), b64_digit (n / 4096), b64_digit (n / 64), b64_digit n] ++
      b64encode bytes
  | [a, b] =>
    let n := a.toNat * 65536 + b.toNat * 256
    [b64_digit (n / 262144), b64_digit (n / 4096), b64_digit (n / 64), '=']
  | [a] =>
    let n := a.toNat * 65536
    [b64_digit (n / 262144), b64_digit (n / 4096), '=', '=']
  | [] => []

example : b64encode [0x4d, 0x61, 0x6e, 0xff] = "TWFu/w==".toList := by decide +kernel

/-! ## The tags -/

inductive TagKind
  | image
  | file
deriving DecidableEq

/-- `(\d+)` and then a literal. -/
def id_then (closing : List Char) : Pattern Nat := fun text => do
  let digits := text.takeWhile fun c => (texts.decimal c).isSome
  if digits = [] then none
  else
    let _ ← literal closing (text.drop digits.length)
    some (texts.number (digits.filterMap texts.decimal), digits.length + closing.length)

/-- A literal and then a pattern. -/
def after {α : Type} (opening : List Char) (pattern : Pattern α) : Pattern α := fun text => do
  let text ← literal opening text
  let (a, n) ← pattern text
  some (a, opening.length + n)

/-- `_IMAGE_TAG_PATTERN` -/
def IMAGE_TAG_PATTERN : Pattern Nat := after "[عکس ارسال شده: ID=".toList (id_then "]".toList)

/-- `_FILE_TAG_PATTERN` -/
def FILE_TAG_PATTERN : Pattern Nat :=
  after "[فایل: ".toList (lazily (after " (ID=".toList (id_then ")]".toList)))

/-- The image tag, with a newline after it. -/
def image_tag_line : Pattern Nat := fun text => do
  let (a, n) ← IMAGE_TAG_PATTERN text
  some (a, if (text.drop n).head? = some '\n' then n + 1 else n)

example : finditer FILE_TAG_PATTERN "a[فایل: x (ID=1) y (ID=12)](ID=3)]".toList = [⟨1, 12⟩] := by
  decide +kernel

/-- `all_matches`: the tags of a text in the order of their places. -/
def all_matches (content_str : String) : List (TagKind × Nat) :=
  let image_matches := (finditer IMAGE_TAG_PATTERN content_str.toList).map (TagKind.image, ·)
  let file_matches := (finditer FILE_TAG_PATTERN content_str.toList).map (TagKind.file, ·)
  ((image_matches ++ file_matches).mergeSort fun a b => a.2.start ≤ b.2.start).map
    fun (kind, m) => (kind, m.captured)

/-! ## Messages -/

inductive Part
  | text (text : String)
  | image_url (url : String)
  | file (file_data filename : String)
deriving DecidableEq

inductive Content
  | none
  | text (text : String)
  | parts (parts : List Part)
deriving DecidableEq

structure Msg where
  role : String
  content : Content
deriving DecidableEq

/-- The text of a user's message, which is all that tags are looked for in. -/
def user_text (msg : Msg) : Option String :=
  match msg.content with
  | .text text => if msg.role = "user" then some text else none
  | _ => none

def data_url (mime : String) (bytes : List UInt8) : String :=
  s!"data:{mime};base64,{String.ofList (b64encode bytes)}"

/-! ## `resolve_multimodal_tags_in_messages` -/

/-- The path of an upload, looked for in the directory of the server and in `backend`. -/
def upload_path (disk : Disk) (storage_path : String) : Path :=
  if isabs storage_path.toList then storage_path.toList
  else
    match ([".", "backend"].map fun base =>
        abspath disk.cwd (join base.toList storage_path.toList)).find? disk.exists with
    | some p => p
    | none => abspath disk.cwd storage_path.toList

/-- The bytes of a file that is not larger than `limit`. -/
def read_file (disk : Disk) (limit : Nat) (p : Path) : Option (List UInt8) :=
  match disk.entry p with
  | .file bytes => if bytes.length > limit then none else some bytes
  | _ => none

def read_upload (disk : Disk) (file : UploadedFile) : Option (List UInt8) := do
  let storage_path ← file.storage_path.filter (· ≠ "")
  read_file disk (50 * 1024 * 1024) (upload_path disk storage_path)

def upload_mime (file : UploadedFile) : String :=
  let filename := (strOr file.filename (some "file")).getD ""
  if truthyKey file.mime_type then file.mime_type.getD ""
  else if texts.ends_with filename ".jpg" || texts.ends_with filename ".jpeg" then "image/jpeg"
  else if texts.ends_with filename ".png" then "image/png"
  else if texts.ends_with filename ".gif" then "image/gif"
  else if texts.ends_with filename ".webp" then "image/webp"
  else "application/octet-stream"

def upload_part (kind : TagKind) (file : UploadedFile) (bytes : List UInt8) : Part :=
  let mime := upload_mime file
  if kind = .image ∨ "image/".toList <+: mime.toList then .image_url (data_url mime bytes)
  else .file (data_url mime bytes) ((strOr file.filename (some "file")).getD "")

/-- One tag in the loop of `resolve_multimodal_tags_in_messages`: the row whose file is put in, and
the part that it gives. -/
def resolve_tag (db : Table UploadedFile) (disk : Disk) (tag : TagKind × Nat) :
    Option (UploadedFile × Part) := do
  let file ← db.get tag.2
  let bytes ← read_upload disk file
  some (file, upload_part tag.1 file bytes)

def clean_text (content_str : String) : String :=
  strip (String.ofList
    (remove FILE_TAG_PATTERN (remove IMAGE_TAG_PATTERN content_str.toList)))

def resolve_message (db : Table UploadedFile) (disk : Disk) (msg : Msg) : Msg :=
  match user_text msg with
  | none => msg
  | some content_str =>
    let content_parts := ((all_matches content_str).filterMap (resolve_tag db disk)).map (·.2)
    if content_parts = [] then msg
    else
      let text := clean_text content_str
      ⟨"user", .parts (if text = "" then content_parts else .text text :: content_parts)⟩

def resolve_multimodal_tags_in_messages (db : Table UploadedFile) (disk : Disk)
    (messages : List Msg) : List Msg := messages.map (resolve_message db disk)

/-! ## `_resolve_vision_messages` -/

/-- Consecutive texts of the user become one message. -/
def collapse_step (collapsed : List Msg) (msg : Msg) : List Msg :=
  match collapsed.getLast? with
  | some last =>
    match user_text last, user_text msg with
    | some a, some b => collapsed.dropLast ++ [⟨"user", .text (a ++ "\n\n" ++ b)⟩]
    | _, _ => collapsed ++ [msg]
  | none => [msg]

def collapse (llm_messages : List Msg) : List Msg := llm_messages.foldl collapse_step []

def image_path (disk : Disk) (storage_path : String) : Path :=
  let path := storage_path.toList
  if isabs path then path
  else if disk.exists path then abspath disk.cwd path
  else if disk.exists (join "backend".toList path) then
    abspath disk.cwd (join "backend".toList path)
  else abspath disk.cwd path

def read_image (disk : Disk) (file : UploadedFile) : Option (Path × List UInt8) := do
  let storage_path ← file.storage_path.filter (· ≠ "")
  let path := image_path disk storage_path
  let bytes ← read_file disk (10 * 1024 * 1024) path
  some (path, bytes)

def image_mime (file : UploadedFile) (path : Path) : String :=
  let mime := file.mime_type.getD ""
  if "image/".toList <+: mime.toList then mime
  else if texts.ends_with (String.ofList path) ".png" then "image/png"
  else if texts.ends_with (String.ofList path) ".gif" then "image/gif"
  else if texts.ends_with (String.ofList path) ".webp" then "image/webp"
  else "image/jpeg"

/-- One tag in the loop of `_resolve_vision_messages`. -/
def resolve_image (db : Table UploadedFile) (disk : Disk) (file_id : Nat) :
    Option (UploadedFile × Part) := do
  let file ← db.get file_id
  let (path, bytes) ← read_image disk file
  some (file, .image_url (data_url (image_mime file path) bytes))

def image_matches (content_str : String) : List Nat :=
  (finditer IMAGE_TAG_PATTERN content_str.toList).map (·.captured)

/-- What stands for one message, after the texts of the user were collapsed. -/
def resolve_vision_message (db : Table UploadedFile) (disk : Disk) (supports_vision : Option Bool)
    (msg : Msg) : List Msg :=
  match user_text msg with
  | none => [msg]
  | some content_str =>
    let found := image_matches content_str
    if found ≠ [] ∧ supports_vision = some false then
      [msg, ⟨"_vision", .text "_needs_vision_warning"⟩]
    else
      let content_parts := (found.filterMap (resolve_image db disk)).map (·.2)
      if content_parts = [] then [msg]
      else
        let text := strip (String.ofList (remove image_tag_line content_str.toList))
        let text_for_llm := if text = "" then "لطفاً این تصویر را بررسی کن." else text
        [⟨"user", .parts (content_parts ++ [.text text_for_llm])⟩]

def resolve_vision_messages (db : Table UploadedFile) (disk : Disk)
    (llm_messages : List Msg) (supports_vision : Option Bool) : List Msg :=
  (collapse llm_messages).flatMap (resolve_vision_message db disk supports_vision)

/-! ## The three places that send messages -/

/-- A message of a chat, as the database has it. -/
structure StoredMessage where
  id : Nat
  role : String
  content : Option String
deriving DecidableEq

def StoredMessage.msg (m : StoredMessage) : Msg :=
  ⟨m.role, match m.content with | some text => .text text | none => .none⟩

/-- The messages of `stream_codex_direct_completion` before tags are resolved. -/
def codex_messages (system_prompt : String) (stored : List StoredMessage) (message : Content) :
    List Msg :=
  let history_messages := (stored.filter fun m =>
    (m.role = "user" || m.role = "assistant") && truthyKey m.content).map (·.msg)
  let messages := (if system_prompt = "" then [] else [⟨"system", .text system_prompt⟩]) ++
    history_messages
  if history_messages.getLast?.map (·.role) = some "user" then
    messages.dropLast ++ [⟨"user", message⟩]
  else messages ++ [⟨"user", message⟩]

/-- The history that `event_generator` puts into an empty thread, before tags are resolved. -/
def agent_history (stored : List StoredMessage) (message_id : Option Nat) : List Msg :=
  ((stored.filter fun m => m.role = "user" || m.role = "assistant").filter fun m =>
    match message_id with
    | some id => id = 0 || m.id ≠ id
    | none => true).map (·.msg)

/-- What is sent for a user: by the stream of Codex, by the agent, or by the bot. -/
inductive Site
  | codex (system_prompt : String) (stored : List StoredMessage) (message : Content)
  | agent (stored : List StoredMessage) (message_id : Option Nat) (message : Content)
  | bot (llm_messages : List Msg) (supports_vision : Option Bool)

/-- The messages of the agent are resolved one by one. -/
def sent (db : Table UploadedFile) (disk : Disk) : Site → List Msg
  | .codex system_prompt stored message =>
    resolve_multimodal_tags_in_messages db disk (codex_messages system_prompt stored message)
  | .agent stored message_id message =>
    (agent_history stored message_id).flatMap (fun msg =>
      resolve_multimodal_tags_in_messages db disk [msg]) ++
    resolve_multimodal_tags_in_messages db disk [⟨"user", message⟩]
  | .bot llm_messages supports_vision =>
    resolve_vision_messages db disk llm_messages supports_vision

/-- The messages in which tags are looked for. -/
def Site.messages : Site → List Msg
  | .codex system_prompt stored message => codex_messages system_prompt stored message
  | .agent stored message_id message => agent_history stored message_id ++ [⟨"user", message⟩]
  | .bot llm_messages _ => collapse llm_messages

/-- The tags in the texts of the user that the place resolves. -/
def Site.tags (site : Site) : List (TagKind × Nat) :=
  (site.messages.filterMap user_text).flatMap fun content_str =>
    match site with
    | .codex _ _ _ => all_matches content_str
    | .agent _ _ _ => all_matches content_str
    | .bot _ supports_vision =>
      if supports_vision = some false then []
      else (image_matches content_str).map (TagKind.image, ·)

/-- The row and the part of a tag, by the place that resolves it. -/
def Site.resolve (site : Site) (db : Table UploadedFile) (disk : Disk) (tag : TagKind × Nat) :
    Option (UploadedFile × Part) :=
  match site with
  | .codex _ _ _ => resolve_tag db disk tag
  | .agent _ _ _ => resolve_tag db disk tag
  | .bot _ _ => resolve_image db disk tag.2

/-- The rows whose files are in the messages that are sent. -/
def embedded (db : Table UploadedFile) (disk : Disk) (site : Site) : List UploadedFile :=
  (site.tags.filterMap (site.resolve db disk)).map (·.1)

/-! ## When files stay private -/

/-- The file of the row can be read where the place looks for it. -/
def Site.reads (site : Site) (disk : Disk) (file : UploadedFile) : Bool :=
  match site with
  | .codex _ _ _ => (read_upload disk file).isSome
  | .agent _ _ _ => (read_upload disk file).isSome
  | .bot _ _ => (read_image disk file).isSome

/-- Each tag in the texts with the id of a file that can be read has the id of an own file. -/
def OwnTags (user_id : Nat) (db : Table UploadedFile) (disk : Disk) (site : Site) : Prop :=
  ∀ tag ∈ site.tags, ∀ file, db.get tag.2 = some file → site.reads disk file = true →
    file.user_id = user_id

/-- The paths at which a file that is stored at `path` is looked for. -/
def paths_of (cwd : List Name) (path : Path) : List Path :=
  [path, join "backend".toList path, abspath cwd path, abspath cwd (join ".".toList path),
    abspath cwd (join "backend".toList path)]

/-- The two disks differ in files of other users at most. -/
structure SameFilesOf (user_id : Nat) (db : Table UploadedFile) (disk disk' : Disk) : Prop where
  cwd : disk.cwd = disk'.cwd
  entry : ∀ file ∈ db.rows, file.user_id = user_id → ∀ path, file.storage_path = some path →
    ∀ p ∈ paths_of disk.cwd path.toList, disk.entry p = disk'.entry p

/-- A tag resolves exactly when its row is there and its file can be read. -/
theorem resolve_eq_some_iff {site : Site} {db : Table UploadedFile} {disk : Disk}
    {tag : TagKind × Nat} {file : UploadedFile} :
    (∃ part, site.resolve db disk tag = some (file, part)) ↔
      db.get tag.2 = some file ∧ site.reads disk file = true := by
  have hupload : (∃ part, resolve_tag db disk tag = some (file, part)) ↔
      db.get tag.2 = some file ∧ (read_upload disk file).isSome = true := by
    simp only [resolve_tag, Option.bind_eq_bind, Option.bind_eq_some_iff, Option.some.injEq,
      Prod.mk.injEq, Option.isSome_iff_exists]
    constructor
    · rintro ⟨part, row, hrow, bytes, hbytes, rfl, _⟩
      exact ⟨hrow, bytes, hbytes⟩
    · rintro ⟨hrow, bytes, hbytes⟩
      exact ⟨_, file, hrow, bytes, hbytes, rfl, rfl⟩
  cases site with
  | codex system_prompt stored message => exact hupload
  | agent stored message_id message => exact hupload
  | bot llm_messages supports_vision =>
    simp only [Site.resolve, Site.reads, resolve_image, Option.bind_eq_bind,
      Option.bind_eq_some_iff, Option.some.injEq, Prod.mk.injEq, Option.isSome_iff_exists]
    constructor
    · rintro ⟨part, row, hrow, found, hfound, rfl, _⟩
      exact ⟨hrow, found, hfound⟩
    · rintro ⟨hrow, found, hfound⟩
      exact ⟨_, file, hrow, found, hfound, rfl, rfl⟩

theorem mem_embedded {db : Table UploadedFile} {disk : Disk} {site : Site} {file : UploadedFile} :
    file ∈ embedded db disk site ↔
      ∃ tag ∈ site.tags, db.get tag.2 = some file ∧ site.reads disk file = true := by
  unfold embedded
  simp only [List.mem_map, List.mem_filterMap]
  constructor
  · rintro ⟨⟨row, part⟩, ⟨tag, htag, hresolve⟩, rfl⟩
    exact ⟨tag, htag, resolve_eq_some_iff.mp ⟨part, hresolve⟩⟩
  · rintro ⟨tag, htag, hfile⟩
    obtain ⟨part, hresolve⟩ := resolve_eq_some_iff.mpr hfile
    exact ⟨(file, part), ⟨tag, htag, hresolve⟩, rfl⟩

/-! ## Two runs on different disks -/

/-- A message depends on the disk through its tags only. -/
theorem resolve_message_same {db : Table UploadedFile} {disk disk' : Disk} {msg : Msg}
    (h : ∀ content_str, user_text msg = some content_str → ∀ tag ∈ all_matches content_str,
      resolve_tag db disk tag = resolve_tag db disk' tag) :
    resolve_message db disk msg = resolve_message db disk' msg := by
  unfold resolve_message
  rcases htext : user_text msg with _ | content_str
  · rfl
  · simp only
    rw [List.filterMap_congr (h content_str htext)]

theorem resolve_vision_message_same {db : Table UploadedFile} {disk disk' : Disk}
    {supports_vision : Option Bool} {msg : Msg}
    (h : supports_vision ≠ some false → ∀ content_str, user_text msg = some content_str →
      ∀ id ∈ image_matches content_str, resolve_image db disk id = resolve_image db disk' id) :
    resolve_vision_message db disk supports_vision msg =
      resolve_vision_message db disk' supports_vision msg := by
  unfold resolve_vision_message
  rcases htext : user_text msg with _ | content_str
  · rfl
  · simp only
    by_cases hvision : supports_vision = some false
    · by_cases hfound : image_matches content_str = []
      · simp [hfound]
      · rw [if_pos ⟨hfound, hvision⟩, if_pos ⟨hfound, hvision⟩]
    · rw [List.filterMap_congr (h hvision content_str htext)]

/-- What is sent depends on the disk through the tags of the user's texts only. -/
theorem sent_same {db : Table UploadedFile} {disk disk' : Disk} {site : Site}
    (h : ∀ tag ∈ site.tags, site.resolve db disk tag = site.resolve db disk' tag) :
    sent db disk site = sent db disk' site := by
  -- The tags of a message of the place are tags of the place.
  have htags : ∀ msg ∈ site.messages, ∀ content_str, user_text msg = some content_str →
      content_str ∈ site.messages.filterMap user_text := fun msg hmsg content_str htext =>
    List.mem_filterMap.mpr ⟨msg, hmsg, htext⟩
  cases site with
  | codex system_prompt stored message =>
    refine List.map_congr_left fun msg hmsg => resolve_message_same ?_
    intro content_str htext tag htag
    exact h tag (List.mem_flatMap.mpr ⟨content_str, htags msg hmsg content_str htext, htag⟩)
  | agent stored message_id message =>
    have hmessage : ∀ msg ∈ agent_history stored message_id ++ [⟨"user", message⟩],
        resolve_message db disk msg = resolve_message db disk' msg := by
      intro msg hmsg
      apply resolve_message_same
      intro content_str htext tag htag
      exact h tag (List.mem_flatMap.mpr ⟨content_str, htags msg hmsg content_str htext, htag⟩)
    simp only [sent, resolve_multimodal_tags_in_messages, List.map_cons, List.map_nil]
    rw [hmessage _ (List.mem_append_right _ (List.mem_singleton.mpr rfl))]
    congr 1
    refine List.flatMap_congr fun msg hmsg => ?_
    rw [hmessage msg (List.mem_append_left _ hmsg)]
  | bot llm_messages supports_vision =>
    refine List.flatMap_congr fun msg hmsg => resolve_vision_message_same ?_
    intro hvision content_str htext id hid
    refine h (.image, id) (List.mem_flatMap.mpr ⟨content_str, htags msg hmsg content_str htext, ?_⟩)
    simp only
    rw [if_neg hvision]
    exact List.mem_map_of_mem hid

/-! ### The disks agree on one stored path -/

section agreement

variable {disk disk' : Disk} {path : String} (hcwd : disk.cwd = disk'.cwd)
  (h : ∀ p ∈ paths_of disk.cwd path.toList, disk.entry p = disk'.entry p)
include hcwd h

theorem upload_path_same : upload_path disk path = upload_path disk' path ∧
    disk.entry (upload_path disk path) = disk'.entry (upload_path disk path) := by
  simp only [paths_of, List.mem_cons, List.not_mem_nil, or_false, forall_eq_or_imp, forall_eq] at h
  obtain ⟨hraw, _, habs, hdot, hback⟩ := h
  unfold upload_path Disk.exists
  simp only [List.map_cons, List.map_nil, List.find?_cons, List.find?_nil, ← hcwd, ← hdot, ← hback]
  refine ⟨trivial, ?_⟩
  by_cases hroot : isabs path.toList = true
  · rw [if_pos hroot, hraw]
  · rw [if_neg hroot]
    by_cases hone : disk.entry (abspath disk.cwd (join ".".toList path.toList)) = .missing
    · by_cases htwo : disk.entry (abspath disk.cwd (join "backend".toList path.toList)) = .missing
      · simp only [hone, htwo, ne_eq, not_true_eq_false, decide_false]
        exact habs
      · simp only [hone, htwo, ne_eq, not_true_eq_false, not_false_eq_true, decide_false,
          decide_true]
        exact hback
    · simp only [hone, ne_eq, not_false_eq_true, decide_true]
      exact hdot

theorem image_path_same : image_path disk path = image_path disk' path ∧
    disk.entry (image_path disk path) = disk'.entry (image_path disk path) := by
  simp only [paths_of, List.mem_cons, List.not_mem_nil, or_false, forall_eq_or_imp, forall_eq] at h
  obtain ⟨hraw, hjoined, habs, _, hback⟩ := h
  unfold image_path Disk.exists
  simp only [← hcwd, ← hraw, ← hjoined]
  refine ⟨trivial, ?_⟩
  split
  · exact hraw
  · split
    · exact habs
    · split
      · exact hback
      · exact habs

end agreement

/-- A file of the user is read alike from the two disks. -/
theorem own_file_same {user_id : Nat} {db : Table UploadedFile} {disk disk' : Disk}
    (h : SameFilesOf user_id db disk disk') {file : UploadedFile} (hrow : file ∈ db.rows)
    (hown : file.user_id = user_id) :
    read_upload disk file = read_upload disk' file ∧
      read_image disk file = read_image disk' file := by
  unfold read_upload read_image
  rcases hpath : file.storage_path.filter (· ≠ "") with _ | path
  · exact ⟨rfl, rfl⟩
  · have hentry := h.entry file hrow hown path (Option.filter_eq_some_iff.mp hpath).1
    obtain ⟨hupload, hupload_entry⟩ := upload_path_same h.cwd hentry
    obtain ⟨himage, himage_entry⟩ := image_path_same h.cwd hentry
    simp only [Option.bind_eq_bind, Option.bind_some, read_file, ← hupload, ← himage,
      hupload_entry, himage_entry]
    exact ⟨trivial, trivial⟩

theorem resolve_same {user_id : Nat} {db : Table UploadedFile} {disk disk' : Disk} {site : Site}
    (hsame : SameFilesOf user_id db disk disk') (hown : OwnTags user_id db disk site)
    (hown' : OwnTags user_id db disk' site) {tag : TagKind × Nat} (htag : tag ∈ site.tags) :
    site.resolve db disk tag = site.resolve db disk' tag := by
  rcases hrow : db.get tag.2 with _ | file
  · cases site with
    | codex system_prompt stored message => simp [Site.resolve, resolve_tag, hrow]
    | agent stored message_id message => simp [Site.resolve, resolve_tag, hrow]
    | bot llm_messages supports_vision => simp [Site.resolve, resolve_image, hrow]
  · by_cases huser : file.user_id = user_id
    · obtain ⟨hupload, himage⟩ := own_file_same hsame (Table.get_eq_some db |>.mp hrow).1 huser
      cases site with
      | codex system_prompt stored message => simp [Site.resolve, resolve_tag, hrow, hupload]
      | agent stored message_id message => simp [Site.resolve, resolve_tag, hrow, hupload]
      | bot llm_messages supports_vision => simp [Site.resolve, resolve_image, hrow, himage]
    · -- The file of another user can be read from neither disk.
      have hnone : ∀ d, OwnTags user_id db d site → site.resolve db d tag = none := by
        intro d hd
        rcases hresolve : site.resolve db d tag with _ | ⟨row, part⟩
        · rfl
        · obtain ⟨hget, hreads⟩ := resolve_eq_some_iff.mp ⟨part, hresolve⟩
          rw [hrow, Option.some.injEq] at hget
          subst hget
          exact absurd (hd tag htag file hrow hreads) huser
      rw [hnone disk hown, hnone disk' hown']

/-! ## The law -/

/-- A file of user 2. -/
def other_upload : Table UploadedFile :=
  Table.empty.insert { user_id := 2, mime_type := some "image/png", storage_path := some "/f.png" }

def disk_with (byte : UInt8) : Disk :=
  ⟨[], fun p => if p = "/f.png".toList then .file [byte] else .missing⟩

def typed_tag : String := "[عکس ارسال شده: ID=1]"

/-- What is sent for user 1 has the file of user 2 in it, and changes with it. -/
def Leaks (site : Site) : Prop :=
  ¬ (∀ file ∈ embedded other_upload (disk_with 0) site, file.user_id = 1) ∧
    sent other_upload (disk_with 0) site ≠ sent other_upload (disk_with 1) site

instance (site : Site) : Decidable (Leaks site) := by
  unfold Leaks
  exact inferInstance

end dr_boz.multimodal_tags
