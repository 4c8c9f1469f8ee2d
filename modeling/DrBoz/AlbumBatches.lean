-- Law of the albums that the bot receives. Each item of an album registers,
-- reads its file, registers what it has read, and finishes, and the last one to
-- finish takes what is there as one batch. Every call holds the lock of the
-- albums, so the calls of several items come one after the other, in any order.
import DrBoz.Lib.Runs
import DrBoz.Py
import Mathlib.Data.List.Basic
import Mathlib.Logic.Function.Basic

open runs dr_boz.py

namespace dr_boz.album_batches

/-! ## What is registered -/

/-- A message, with what the calls look at. A document may have no name. -/
structure Message where
  media_group_id : Option String
  caption : Option String
  document : Option (Option String)
  photo : Bool
deriving DecidableEq, Repr

/-- The arguments of `_register_album_update`, but for `count_pending`. -/
structure Registration where
  message : Message
  extracted_text : Option String := none
  file_id : Option Int := none
  rag : Bool := false
deriving DecidableEq, Repr

structure FileRef where
  id : Int
  filename : String
  rag : Bool
  is_image : Bool
deriving DecidableEq, Repr

/-- A text that is there and not empty. -/
def truthy (text : Option String) : Option String := text.filter (· ≠ "")

-- `str.lower()`, whatever it does.
variable (lower : String → String)

/-- `ext in ("jpg", "jpeg", "png", "webp")` of the part after the last dot. -/
def is_image_name (filename : Option String) : Bool :=
  let name := (filename.getD "").toList
  let ext :=
    if '.' ∈ name then lower (.ofList (name.reverse.takeWhile (· ≠ '.')).reverse) else ""
  ext ∈ ["jpg", "jpeg", "png", "webp"]

/-- The name that the text of a message is kept under. -/
def text_filename (message : Message) : Option String :=
  match message.document with
  | some file_name => file_name
  | none => some "image"

/-- `filename or "image"`. -/
def shown_filename (message : Message) : String :=
  match message.document with
  | some file_name => (truthy file_name).getD "image"
  | none => "image"

namespace Registration

def named_text (r : Registration) : Option (Option String × String) :=
  (truthy r.extracted_text).map fun text => (text_filename r.message, text)

def file_ref (r : Registration) : Option FileRef :=
  (r.file_id.filter (· ≠ 0)).map fun id =>
    { id
      filename := shown_filename r.message
      rag := r.rag
      is_image :=
        match r.message.document with
        | some file_name => is_image_name lower file_name
        | none => r.message.photo }

end Registration

/-! ## The maps -/

/-- The entries of one group in the maps of the module. -/
structure Album where
  pending_count : Int := 0
  caption : Option String := none
  message : Option Message := none
  extracted_texts : List (Option String × String) := []
  file_refs : List FileRef := []
deriving DecidableEq, Repr

/-- By `media_group_id`. A group without entries has empty ones. -/
abbrev Albums := String → Album

/-- `mg_id`, if there is one. -/
def Message.group (message : Message) : Option String := truthy message.media_group_id

def Album.register (album : Album) (r : Registration) (count_pending : Bool) : Album :=
  { pending_count := if count_pending then album.pending_count + 1 else album.pending_count
    caption := (truthy r.message.caption).or album.caption
    extracted_texts := album.extracted_texts ++ r.named_text.toList
    file_refs := album.file_refs ++ (r.file_ref lower).toList
    message := some r.message }

def _register_album_update (albums : Albums) (r : Registration) (count_pending : Bool) : Albums :=
  match r.message.group with
  | none => albums
  | some mg_id => Function.update albums mg_id ((albums mg_id).register lower r count_pending)

/-- What the last item takes out of the maps. -/
structure Batch where
  caption : Option String
  target : Message
  texts : List (Option String × String)
  file_refs : List FileRef
deriving DecidableEq, Repr

/-- The album after an item has finished, and the batch that it takes. -/
def Album.finish (album : Album) : Album × Option Batch :=
  let album := { album with pending_count := album.pending_count - 1 }
  if album.pending_count ≤ 0 then
    ({}, match album.message with
      | none => none
      | some target =>
        if (truthy album.caption).isSome ∨ album.extracted_texts ≠ [] ∨ album.file_refs ≠ [] then
          some ⟨album.caption, target, album.extracted_texts, album.file_refs⟩
        else none)
  else (album, none)

/-- The part of `_finish_album_update` that holds the lock. -/
def _finish_album_update (albums : Albums) (message : Message) : Albums × Option Batch :=
  match message.group with
  | none => (albums, none)
  | some mg_id =>
    let (album, batch) := (albums mg_id).finish
    (Function.update albums mg_id album, batch)

/-! ## Where a batch goes -/

structure QueueItem where
  filename : String
  id : Int
  rag : Bool
  is_image : Bool
  text : Option String
deriving DecidableEq, Repr

/-- `text[:15000]`. -/
def cut (text : String) : String := .ofList (text.toList.take 15000)

/-- The loop over the texts, up to its `break`. -/
def find_text (fname : String) : List (Option String × String) → Option String
  | [] => none
  | (t_fname, t_text) :: texts =>
    if t_fname = some fname then some (cut t_text) else find_text fname texts

def queue_item (texts : List (Option String × String)) (ref : FileRef) : QueueItem :=
  ⟨ref.filename, ref.id, ref.rag, ref.is_image, find_text ref.filename texts⟩

/-- What follows after the sleep. Without a caption the files are appended to
the pending ones, and with one the whole batch is the context of an answer. -/
inductive Route where
  | queue (items : List QueueItem)
  | answer (forced_text : String) (texts : List (Option String × String)) (files : List FileRef)
deriving DecidableEq, Repr

def forced_text (caption : String) (file_refs : List FileRef) : String :=
  let image_tags := (file_refs.filter (·.is_image)).map fun ref =>
    "[عکس ارسال شده: ID=" ++ toString ref.id ++ "]"
  strip ("\n".intercalate (image_tags ++ [caption]))

def Batch.route (batch : Batch) : Route :=
  match truthy batch.caption with
  | none => .queue (batch.file_refs.map (queue_item batch.texts))
  | some caption => .answer (forced_text caption batch.file_refs) batch.texts batch.file_refs

/-! ## The items -/

structure Item where
  message : Message
  finished : Bool := false
deriving DecidableEq, Repr

/-- A batch that was handed over, with its group and the record of the calls
that it comes from. -/
structure Handed where
  group : String
  batch : Batch
  calls : List Registration
deriving DecidableEq, Repr

/-- The maps, the items and the batches. `registered` records the calls for
each group, and `waiting` those since its maps were last emptied. -/
structure World where
  albums : Albums := fun _ => {}
  items : List Item := []
  handed : List Handed := []
  registered : String → List Registration := fun _ => []
  waiting : String → List Registration := fun _ => []

/-- An item arrives with a call that counts, makes any number of calls that do
not, and finishes. -/
inductive Event where
  | arrive (r : Registration)
  | add (i : Nat) (extracted_text : Option String) (file_id : Option Int) (rag : Bool)
  | finish (i : Nat)
deriving DecidableEq, Repr

def World.register (w : World) (r : Registration) (count_pending : Bool) : World :=
  { w with
    albums := _register_album_update lower w.albums r count_pending
    registered := fun mg_id =>
      if r.message.group = some mg_id then w.registered mg_id ++ [r] else w.registered mg_id
    waiting := fun mg_id =>
      if r.message.group = some mg_id then w.waiting mg_id ++ [r] else w.waiting mg_id }

def World.finish (w : World) (message : Message) : World :=
  match message.group with
  | none => w
  | some mg_id =>
    let (albums, batch) := _finish_album_update w.albums message
    { w with
      albums
      handed := w.handed ++ (batch.map (Handed.mk mg_id · (w.waiting mg_id))).toList
      waiting :=
        if (albums mg_id).pending_count = 0 then Function.update w.waiting mg_id []
        else w.waiting }

def step (w : World) : Event → World
  | .arrive r => { w.register lower r true with items := w.items ++ [⟨r.message, false⟩] }
  | .add i extracted_text file_id rag =>
    match w.items[i]? with
    | some ⟨message, false⟩ => w.register lower ⟨message, extracted_text, file_id, rag⟩ false
    | _ => w
  | .finish i =>
    match w.items[i]? with
    | some ⟨message, false⟩ => { w.finish message with items := w.items.set i ⟨message, true⟩ }
    | _ => w

/-- The item is of the group, and has not finished. -/
def Item.pends (mg_id : String) (item : Item) : Bool :=
  !item.finished && item.message.group = some mg_id

/-! ## What the albums are for -/

/-- The item of the queue that a call is to end in, with its own text. -/
def own_item (r : Registration) : Option QueueItem :=
  (r.file_ref lower).map fun ref =>
    ⟨ref.filename, ref.id, ref.rag, ref.is_image, (truthy r.extracted_text).map cut⟩

/-- The batches of a group. -/
def World.batches (w : World) (mg_id : String) : List Batch :=
  (w.handed.filter (·.group = mg_id)).map (·.batch)

/-- In the order of the calls, each text and each file is in one batch or is
still in the maps, where nothing is left when all items have finished. A queue
gets each file with the text of the call that has registered the file. -/
structure LosesAndMixesNothing (w : World) : Prop where
  calls : ∀ h ∈ w.handed, h.batch.texts = h.calls.filterMap Registration.named_text ∧
    h.batch.file_refs = h.calls.filterMap (Registration.file_ref lower)
  texts : ∀ mg_id, (w.registered mg_id).filterMap Registration.named_text =
    (w.batches mg_id).flatMap (·.texts) ++ (w.albums mg_id).extracted_texts
  files : ∀ mg_id, (w.registered mg_id).filterMap (Registration.file_ref lower) =
    (w.batches mg_id).flatMap (·.file_refs) ++ (w.albums mg_id).file_refs
  finished : ∀ mg_id, (∀ item ∈ w.items, item.pends mg_id = false) → w.albums mg_id = {}
  paired : ∀ h ∈ w.handed, ∀ items, h.batch.route = .queue items →
    items = h.calls.filterMap (own_item lower)

/-- The first call of the list with a text under this name. -/
def first_text (filename : String) (calls : List Registration) : Option Registration :=
  calls.find? fun r => r.named_text.isSome ∧ text_filename r.message = some filename

/-- The first text under the name that a file is shown with reads as the text
of the file itself, and a file without a text has none under its name. -/
def FirstTextIsOwn (calls : List Registration) (r : Registration) : Prop :=
  ((first_text (shown_filename r.message) calls).bind fun first =>
    (truthy first.extracted_text).map cut) = (truthy r.extracted_text).map cut

/-- It is so for each file of each batch without a caption. -/
def FirstTextsAreOwn (w : World) : Prop :=
  ∀ h ∈ w.handed, truthy h.batch.caption = none →
    ∀ r ∈ h.calls, (r.file_ref lower).isSome → FirstTextIsOwn h.calls r

/-! ## What a call keeps -/

/-- The maps of a group with `n` items that have not finished. -/
structure Kept (w : World) (mg_id : String) (n : Nat) : Prop where
  count : (w.albums mg_id).pending_count = n
  waiting_texts :
    (w.albums mg_id).extracted_texts = (w.waiting mg_id).filterMap Registration.named_text
  waiting_files :
    (w.albums mg_id).file_refs = (w.waiting mg_id).filterMap (Registration.file_ref lower)
  message : (w.albums mg_id).message = none → w.waiting mg_id = []
  empty : n = 0 → w.albums mg_id = {} ∧ w.waiting mg_id = []
  texts : (w.registered mg_id).filterMap Registration.named_text =
    (w.batches mg_id).flatMap (·.texts) ++ (w.albums mg_id).extracted_texts
  files : (w.registered mg_id).filterMap (Registration.file_ref lower) =
    (w.batches mg_id).flatMap (·.file_refs) ++ (w.albums mg_id).file_refs

/-- A batch has what its calls have registered. -/
def Handed.FromCalls (h : Handed) : Prop :=
  h.batch.texts = h.calls.filterMap Registration.named_text ∧
    h.batch.file_refs = h.calls.filterMap (Registration.file_ref lower)

section
variable {lower : String → String} {w : World} {mg_id : String} {n : Nat} {r : Registration}
  {message : Message}

theorem kept_of_same {w' : World} (h : Kept lower w mg_id n)
    (halbum : w'.albums mg_id = w.albums mg_id) (hwaiting : w'.waiting mg_id = w.waiting mg_id)
    (hregistered : w'.registered mg_id = w.registered mg_id)
    (hbatches : w'.batches mg_id = w.batches mg_id) : Kept lower w' mg_id n := by
  obtain ⟨h1, h2, h3, h4, h5, h6, h7⟩ := h
  constructor <;> simp only [halbum, hwaiting, hregistered, hbatches] <;> assumption

theorem filterMap_snoc {α β : Type} (f : α → Option β) (l : List α) (a : α) :
    (l ++ [a]).filterMap f = l.filterMap f ++ (f a).toList := by
  rw [List.filterMap_append]
  rfl

theorem register_other (h : r.message.group ≠ some mg_id) (count_pending : Bool)
    (hw : Kept lower w mg_id n) : Kept lower (w.register lower r count_pending) mg_id n := by
  refine kept_of_same hw ?_ (if_neg h) (if_neg h) rfl
  simp only [World.register, _register_album_update]
  cases hg : r.message.group with
  | none => rfl
  | some g =>
    have hne : mg_id ≠ g := fun heq => h (by rw [hg, heq])
    exact Function.update_of_ne hne _ _

/-- A call for the group, that counts or comes from an item that has not
finished. -/
theorem register_own (h : r.message.group = some mg_id) {count_pending : Bool}
    (hcount : count_pending = false → n ≠ 0) (hw : Kept lower w mg_id n) :
    Kept lower (w.register lower r count_pending) mg_id
      (if count_pending then n + 1 else n) := by
  have halbum : (w.register lower r count_pending).albums mg_id =
      (w.albums mg_id).register lower r count_pending := by
    simp only [World.register, _register_album_update, h, Function.update_self]
  have hwaiting : (w.register lower r count_pending).waiting mg_id = w.waiting mg_id ++ [r] :=
    if_pos h
  have hregistered : (w.register lower r count_pending).registered mg_id =
      w.registered mg_id ++ [r] := if_pos h
  have hbatches : (w.register lower r count_pending).batches mg_id = w.batches mg_id := rfl
  constructor
  · rw [halbum]
    cases count_pending <;> simp [Album.register, hw.count]
  · rw [halbum, hwaiting, filterMap_snoc, ← hw.waiting_texts]
    rfl
  · rw [halbum, hwaiting, filterMap_snoc, ← hw.waiting_files]
    rfl
  · rw [halbum]
    intro hmessage
    cases hmessage
  · intro hn
    cases count_pending with
    | true => simp at hn
    | false => exact absurd hn (hcount rfl)
  · rw [halbum, hregistered, hbatches, filterMap_snoc, hw.texts, List.append_assoc]
    rfl
  · rw [halbum, hregistered, hbatches, filterMap_snoc, hw.files, List.append_assoc]
    rfl

theorem finish_other (h : message.group ≠ some mg_id) (hw : Kept lower w mg_id n) :
    Kept lower (w.finish message) mg_id n := by
  unfold World.finish
  cases hg : message.group with
  | none => exact hw
  | some g =>
    have hne : mg_id ≠ g := fun heq => h (by rw [hg, heq])
    refine kept_of_same hw ?_ ?_ rfl ?_
    · simp only [_finish_album_update, hg]
      exact Function.update_of_ne hne _ _
    · simp only
      split
      · exact Function.update_of_ne hne _ _
      · rfl
    · simp only [World.batches, List.filter_append]
      cases (_finish_album_update w.albums message).2 <;> simp [Ne.symm hne]

/-- The last item takes all that the maps have. -/
theorem album_finish_last {album : Album} (h : album.pending_count = 1) :
    album.finish.1 = {} ∧ ((album.message = none → album.extracted_texts = [] ∧
      album.file_refs = []) → ((album.finish.2.map (·.texts)).getD [] = album.extracted_texts ∧
        (album.finish.2.map (·.file_refs)).getD [] = album.file_refs)) := by
  have hzero : album.pending_count - 1 ≤ 0 := by omega
  simp only [Album.finish, hzero, if_true, true_and]
  intro hempty
  cases hm : album.message with
  | none => simp [hempty hm]
  | some target =>
    simp only
    split
    · exact ⟨rfl, rfl⟩
    · next hnothing =>
      simp only [not_or, not_not] at hnothing
      simp [hnothing.2.1, hnothing.2.2]

theorem album_finish_early {album : Album} (h : album.pending_count > 1) :
    album.finish = ({ album with pending_count := album.pending_count - 1 }, none) := by
  have hpos : ¬album.pending_count - 1 ≤ 0 := by omega
  simp only [Album.finish, hpos, if_false]

theorem batches_finish (h : message.group = some mg_id) :
    (w.finish message).batches mg_id = w.batches mg_id ++ (w.albums mg_id).finish.2.toList := by
  simp only [World.finish, h, _finish_album_update, World.batches, List.filter_append,
    List.map_append]
  congr 1
  cases (w.albums mg_id).finish.2 <;> simp

theorem finish_own (h : message.group = some mg_id) (hn : n ≠ 0) (hw : Kept lower w mg_id n) :
    Kept lower (w.finish message) mg_id (n - 1) := by
  have halbum : (w.finish message).albums mg_id = (w.albums mg_id).finish.1 := by
    simp only [World.finish, h, _finish_album_update, Function.update_self]
  have hregistered : (w.finish message).registered = w.registered := by
    simp only [World.finish, h]
  have hwaiting : (w.finish message).waiting mg_id =
      if (w.albums mg_id).finish.1.pending_count = 0 then [] else w.waiting mg_id := by
    simp only [World.finish, h, _finish_album_update, Function.update_self]
    split
    · exact Function.update_self ..
    · rfl
  have hbatches := batches_finish (w := w) h
  have hcount := hw.count
  by_cases hlast : n = 1
  · subst hlast
    obtain ⟨hempty, htaken⟩ := album_finish_last hcount
    obtain ⟨htexts, hfiles⟩ := htaken fun hm => by
      rw [hw.waiting_texts, hw.waiting_files, hw.message hm]
      exact ⟨rfl, rfl⟩
    rw [hempty] at halbum hwaiting
    rw [if_pos rfl] at hwaiting
    have hflat : ∀ {α : Type} (f : Batch → List α),
        ((w.albums mg_id).finish.2.toList).flatMap f =
          ((w.albums mg_id).finish.2.map f).getD [] := by
      intro α f
      cases (w.albums mg_id).finish.2 <;> simp
    constructor
    · rw [halbum]
      rfl
    · rw [halbum, hwaiting]
      rfl
    · rw [halbum, hwaiting]
      rfl
    · exact fun _ => hwaiting
    · exact fun _ => ⟨halbum, hwaiting⟩
    · rw [halbum, hregistered, hbatches, List.flatMap_append, hflat, htexts, hw.texts]
      simp
    · rw [halbum, hregistered, hbatches, List.flatMap_append, hflat, hfiles, hw.files]
      simp
  · have hmore : (w.albums mg_id).pending_count > 1 := by omega
    have hearly := album_finish_early hmore
    have hopen : ¬(w.albums mg_id).pending_count - 1 = 0 := by omega
    rw [hearly] at halbum hwaiting hbatches
    simp only [hopen, if_false] at hwaiting
    simp only [Option.toList_none, List.append_nil] at hbatches
    constructor
    · rw [halbum]
      simp only
      omega
    · rw [halbum, hwaiting]
      exact hw.waiting_texts
    · rw [halbum, hwaiting]
      exact hw.waiting_files
    · rw [halbum, hwaiting]
      exact hw.message
    · intro hzero
      omega
    · rw [halbum, hregistered, hbatches]
      exact hw.texts
    · rw [halbum, hregistered, hbatches]
      exact hw.files

theorem batch_from_album {album : Album} {batch : Batch} (h : album.finish.2 = some batch) :
    batch.texts = album.extracted_texts ∧ batch.file_refs = album.file_refs := by
  by_cases hlast : album.pending_count - 1 ≤ 0
  · simp only [Album.finish, hlast, if_true] at h
    cases hm : album.message with
    | none =>
      rw [hm] at h
      cases h
    | some target =>
      simp only [hm] at h
      split at h
      · cases h
        exact ⟨rfl, rfl⟩
      · cases h
  · simp only [Album.finish, hlast, if_false] at h
    cases h

end

/-! ## What a run keeps -/

structure Sound (w : World) : Prop where
  kept : ∀ mg_id, Kept lower w mg_id (w.items.countP (Item.pends mg_id))
  calls : ∀ h ∈ w.handed, h.FromCalls lower

section
variable {lower : String → String} {w : World}

theorem sound_init : Sound lower {} :=
  ⟨fun _ => ⟨rfl, rfl, rfl, fun _ => rfl, fun _ => ⟨rfl, rfl⟩, rfl, rfl⟩, fun _ hh => nomatch hh⟩

theorem pends_open {message : Message} {mg_id : String} :
    (Item.mk message false).pends mg_id = true ↔ message.group = some mg_id := by
  simp [Item.pends]

theorem pends_finished {message : Message} {mg_id : String} :
    (Item.mk message true).pends mg_id = false := rfl

theorem sound_arrive (h : Sound lower w) (r : Registration) :
    Sound lower (step lower w (.arrive r)) := by
  refine ⟨fun mg_id => ?_, h.calls⟩
  refine kept_of_same (w := w.register lower r true) ?_ rfl rfl rfl rfl
  simp only [step, List.countP_append, List.countP_singleton]
  by_cases hg : r.message.group = some mg_id
  · have hkept : Kept lower (w.register lower r true) mg_id (_ + 1) :=
      register_own hg Bool.noConfusion (h.kept mg_id)
    simpa only [pends_open.mpr hg, if_true] using hkept
  · have hkept := register_other hg true (h.kept mg_id)
    have hpends : (Item.mk r.message false).pends mg_id = false := by
      rw [← Bool.not_eq_true, pends_open]
      exact hg
    simpa [hpends] using hkept

/-- An item that has not finished is among those that the group waits for. -/
theorem pending_pos {i : Nat} {message : Message} {mg_id : String}
    (hi : w.items[i]? = some ⟨message, false⟩) (hg : message.group = some mg_id) :
    w.items.countP (Item.pends mg_id) ≠ 0 := by
  have hpos : 0 < w.items.countP (Item.pends mg_id) :=
    List.countP_pos_iff.mpr ⟨_, List.mem_of_getElem? hi, pends_open.mpr hg⟩
  omega

theorem sound_add (h : Sound lower w) (i : Nat) (extracted_text : Option String)
    (file_id : Option Int) (rag : Bool) :
    Sound lower (step lower w (.add i extracted_text file_id rag)) := by
  simp only [step]
  split
  · next message hi =>
    refine ⟨fun mg_id => ?_, h.calls⟩
    by_cases hg : message.group = some mg_id
    · exact register_own (r := ⟨message, extracted_text, file_id, rag⟩) hg
        (fun _ => pending_pos hi hg) (h.kept mg_id)
    · exact register_other (r := ⟨message, extracted_text, file_id, rag⟩) hg false (h.kept mg_id)
  · exact h

theorem handed_finish (message : Message) {h : Handed} (hh : h ∈ (w.finish message).handed) :
    h ∈ w.handed ∨ ∃ mg_id, message.group = some mg_id ∧
      (w.albums mg_id).finish.2 = some h.batch ∧ h.calls = w.waiting mg_id := by
  unfold World.finish at hh
  cases hg : message.group with
  | none =>
    rw [hg] at hh
    exact .inl hh
  | some mg_id =>
    rw [hg] at hh
    simp only [_finish_album_update, hg, List.mem_append, Option.mem_toList, Option.map_eq_some_iff]
      at hh
    rcases hh with hh | ⟨batch, hbatch, rfl⟩
    · exact .inl hh
    · exact .inr ⟨mg_id, rfl, hbatch, rfl⟩

theorem sound_finish (h : Sound lower w) (i : Nat) : Sound lower (step lower w (.finish i)) := by
  simp only [step]
  split
  · next message hi =>
    obtain ⟨hlen, hget⟩ := List.getElem?_eq_some_iff.mp hi
    refine ⟨fun mg_id => ?_, fun hd hhd => ?_⟩
    · refine kept_of_same (w := w.finish message) ?_ rfl rfl rfl rfl
      simp only [List.countP_set hlen, hget, pends_finished, Bool.false_eq_true, if_false,
        Nat.add_zero]
      by_cases hg : message.group = some mg_id
      · rw [if_pos (pends_open.mpr hg)]
        exact finish_own hg (pending_pos hi hg) (h.kept mg_id)
      · rw [if_neg fun hp => hg (pends_open.mp hp)]
        exact finish_other hg (h.kept mg_id)
    · rcases handed_finish message hhd with hhd | ⟨mg_id, -, hbatch, hcalls⟩
      · exact h.calls hd hhd
      · obtain ⟨htexts, hfiles⟩ := batch_from_album hbatch
        unfold Handed.FromCalls
        rw [htexts, hfiles, hcalls]
        exact ⟨(h.kept mg_id).waiting_texts, (h.kept mg_id).waiting_files⟩
  · exact h

theorem sound_after (es : List Event) (h : Sound lower w) :
    Sound lower (after (step lower) w es) := by
  induction es generalizing w with
  | nil => exact h
  | cons e es ih =>
    cases e with
    | arrive r => exact ih (sound_arrive h r)
    | add i extracted_text file_id rag => exact ih (sound_add h i extracted_text file_id rag)
    | finish i => exact ih (sound_finish h i)

/-! ## Texts and files -/

theorem find_text_of_calls (fname : String) (calls : List Registration) :
    find_text fname (calls.filterMap Registration.named_text) =
      (first_text fname calls).bind fun first => (truthy first.extracted_text).map cut := by
  induction calls with
  | nil => rfl
  | cons r calls ih =>
    unfold first_text at ih ⊢
    cases ht : truthy r.extracted_text with
    | none =>
      have hnone : r.named_text = none := by simp [Registration.named_text, ht]
      rw [List.filterMap_cons_none hnone, List.find?_cons_of_neg (by simp [hnone])]
      exact ih
    | some text =>
      have hsome : r.named_text = some (text_filename r.message, text) := by
        simp [Registration.named_text, ht]
      rw [List.filterMap_cons_some hsome]
      by_cases hname : text_filename r.message = some fname
      · rw [List.find?_cons_of_pos (by simp [hsome, hname])]
        simp [find_text, hname, ht]
      · rw [List.find?_cons_of_neg (by simp [hname])]
        simpa only [find_text, hname, if_false] using ih

/-- Two readings of a list with as many answers. -/
theorem map_filterMap_eq_iff {α β γ : Type} {f : α → Option β} {g : β → γ} {k : α → β → γ}
    {l : List α} : (l.filterMap f).map g = l.filterMap (fun a => (f a).map (k a)) ↔
      ∀ a ∈ l, ∀ b, f a = some b → g b = k a b := by
  induction l with
  | nil => simp
  | cons a l ih =>
    cases hf : f a with
    | none =>
      rw [List.filterMap_cons_none hf, List.filterMap_cons_none (by rw [hf]; rfl), ih]
      simp [hf]
    | some b =>
      rw [List.filterMap_cons_some hf, List.filterMap_cons_some (b := k a b) (by rw [hf]; rfl),
        List.map_cons, List.cons.injEq, ih]
      simp [hf]

theorem shown_of_file_ref {r : Registration} {ref : FileRef} (h : r.file_ref lower = some ref) :
    ref.filename = shown_filename r.message := by
  obtain ⟨id, -, rfl⟩ := Option.map_eq_some_iff.mp h
  rfl

theorem route_queue_iff {batch : Batch} {items : List QueueItem} : batch.route = .queue items ↔
    truthy batch.caption = none ∧ items = batch.file_refs.map (queue_item batch.texts) := by
  unfold Batch.route
  cases truthy batch.caption with
  | none => simp [eq_comm]
  | some caption => simp

/-- The queue has the own text of each file exactly when the first text under
each name is the own one. -/
theorem paired_iff {h : Handed} (hcalls : h.FromCalls lower) :
    (∀ items, h.batch.route = .queue items → items = h.calls.filterMap (own_item lower)) ↔
      (truthy h.batch.caption = none →
        ∀ r ∈ h.calls, (r.file_ref lower).isSome → FirstTextIsOwn h.calls r) := by
  have hitems : h.batch.file_refs.map (queue_item h.batch.texts) =
      h.calls.filterMap (own_item lower) ↔
        ∀ r ∈ h.calls, (r.file_ref lower).isSome → FirstTextIsOwn h.calls r := by
    unfold own_item
    rw [hcalls.1, hcalls.2, map_filterMap_eq_iff]
    refine forall₂_congr fun r _ => ?_
    rw [Option.isSome_iff_exists, forall_exists_index]
    refine forall₂_congr fun ref href => ?_
    simp only [queue_item, QueueItem.mk.injEq, true_and, find_text_of_calls,
      shown_of_file_ref href]
    exact Iff.rfl
  rw [← hitems]
  constructor
  · intro hpaired hcaption
    exact hpaired _ (route_queue_iff.mpr ⟨hcaption, rfl⟩)
  · intro hpaired items hroute
    obtain ⟨hcaption, rfl⟩ := route_queue_iff.mp hroute
    exact hpaired hcaption

theorem loses_and_mixes_nothing_iff (h : Sound lower w) :
    LosesAndMixesNothing lower w ↔ FirstTextsAreOwn lower w := by
  constructor
  · intro hnothing hd hhd
    exact (paired_iff (h.calls hd hhd)).mp (hnothing.paired hd hhd)
  · intro hown
    refine ⟨h.calls, fun mg_id => (h.kept mg_id).texts, fun mg_id => (h.kept mg_id).files,
      fun mg_id hall => ?_, fun hd hhd => (paired_iff (h.calls hd hhd)).mpr (hown hd hhd)⟩
    have hzero : w.items.countP (Item.pends mg_id) = 0 := by
      rw [List.countP_eq_zero]
      intro item hitem
      rw [hall item hitem]
      exact Bool.false_ne_true
    exact ((h.kept mg_id).empty hzero).1

end

/-! ## The law -/

/-- LAW: whatever items arrive and in whatever order their calls come, the
albums lose and mix nothing exactly when, in each batch without a caption, the
first text under the name of a file is the text of the file. -/
theorem albums_mix_nothing_iff_first_texts_are_own (lower : String → String) (es : List Event) :
    LosesAndMixesNothing lower (after (step lower) {} es) ↔
      FirstTextsAreOwn lower (after (step lower) {} es) :=
  loses_and_mixes_nothing_iff (sound_after es sound_init)

/-- A document `a.txt` in an album, without a caption. -/
def a_document : Message :=
  { media_group_id := some "album", caption := none, document := some (some "a.txt"),
    photo := false }

/-- Two documents of one name, from two folders of the sender. -/
def two_documents : List Event :=
  [.arrive { message := a_document }, .arrive { message := a_document },
    .add 0 (some "one") (some 1) false, .add 1 (some "two") (some 2) false, .finish 0, .finish 1]

/-- LAW: the second document is queued with the text of the first. -/
theorem a_document_gets_the_text_of_its_namesake :
    ¬LosesAndMixesNothing (fun name => name) (after (step fun name => name) {} two_documents) := by
  intro h
  have hitems := h.paired _ (List.mem_singleton.mpr rfl) _ rfl
  revert hitems
  decide

end dr_boz.album_batches
