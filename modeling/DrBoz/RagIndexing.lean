-- Law of the documents that the bot indexes: the usage event of the upload
-- and the task that indexes the document and charges for it. The upload writes
-- one request id, and the task looks for two others.
import DrBoz.BotUsers
import DrBoz.UsageQuotes
import DrBoz.WalletRuns
import DrBoz.Lib.Parts
import DrBoz.Lib.Runs
import DrBoz.Calls

open keyed_table unit_of_work runs dr_boz.py dr_boz.models dr_boz.codex_capacity
open dr_boz.toman_billing dr_boz.accounts dr_boz.views dr_boz.billing_runs dr_boz.bot_users

namespace dr_boz.rag_indexing

/-! ## Tables -/

structure UsageEvent where
  id : Nat := 0
  user_id : Nat
  chat_id : Option Nat
  message_id : Option Nat
  uploaded_file_id : Option Nat
  operation_type : String
  channel : Option String := some "telegram"
  request_id : Option String
  units : Option Int := some 0
  estimated_cost_minor : Option Int := some 0
  status : Option String := some "estimated"
  completed_at : Option Datetime := none
deriving DecidableEq

structure Document where
  id : Nat := 0
  project_id : Option Nat
  chat_id : Option Nat
  filename : String
  file_type : String
  file_path : String
  chunk_count : Option Int := some 0
  status : Option String := some "pending"
  error : Option String := none
deriving DecidableEq

instance : Row UsageEvent String :=
  ⟨(·.id), fun a n => { a with id := n }, (·.request_id), fun _ _ => rfl, fun _ _ => rfl⟩

instance : Row Document Empty :=
  ⟨(·.id), fun a n => { a with id := n }, fun _ => none, fun _ _ => rfl, fun _ _ => rfl⟩

def UsageEvent.merge (o n c : UsageEvent) : UsageEvent :=
  { c with
    units := col o.units n.units c.units
    status := col o.status n.status c.status
    completed_at := col o.completed_at n.completed_at c.completed_at }

def Document.merge (o n c : Document) : Document :=
  { c with
    chunk_count := col o.chunk_count n.chunk_count c.chunk_count
    status := col o.status n.status c.status
    error := col o.error n.error c.error }

/-- The accounts, and the two tables that the bot keeps next to them. -/
structure Shelf where
  accounts : Db
  usage_events : Table UsageEvent
  documents : Table Document

inductive ShelfChange where
  | account (c : Change)
  | addUsageEvent (e : UsageEvent)
  | setUsageEvent (old new : UsageEvent)
  | addDocument (d : Document)
  | setDocument (old new : Document)

def Shelf.apply (s : Shelf) : ShelfChange → Shelf
  | .account c => { s with accounts := s.accounts.apply c }
  | .addUsageEvent e => { s with usage_events := s.usage_events.insert e }
  | .setUsageEvent o n =>
    { s with usage_events := s.usage_events.update n.id (.merge o n) (fun _ => rfl) fun _ => rfl }
  | .addDocument d => { s with documents := s.documents.insert d }
  | .setDocument o n =>
    { s with documents := s.documents.update n.id (.merge o n) (fun _ => rfl) fun _ => rfl }

def Shelf.admits (s : Shelf) : ShelfChange → Bool
  | .account c => s.accounts.admits c
  | .addUsageEvent e => decide (s.usage_events.Accepts e)
  | _ => true

instance : Store Shelf ShelfChange PyError := ⟨Shelf.apply, Shelf.admits, .integrity_error⟩

abbrev ShelfTx := Prog Shelf ShelfChange PyError

def the_accounts : Part Db Shelf := ⟨(·.accounts), .account, fun _ _ => rfl, fun _ _ => rfl, rfl⟩

/-! ## The request ids -/

/-- `if id`. -/
def truthy_id (id : Option Nat) : Bool := id.getD 0 != 0

/-- An optional number in an f-string. -/
def shown (id : Option Nat) : String :=
  match id with
  | some n => toString n
  | none => "None"

/-- What the upload calls its usage event. -/
def upload_request_id (update_id : Int) (file_unique_id : String) : String :=
  s!"tg:{update_id}:rag:{file_unique_id}"

/-- What a task is created with. -/
structure Task where
  project_id : Option Nat
  document_id : Nat
  uid : Int
  update_id : Int
  file_unique_id : String
  estimated_cost : PyFloat
  estimated_tokens : Int
  filename : String
  model : Option String
  target_chat_id : Option Nat

/-- `telegram:..` with a project or a chat in it. -/
def task_request_id (t : Task) (place : String) : String :=
  s!"telegram:{t.update_id}:rag:{place}:{t.document_id}:{t.file_unique_id}"

def Task.request_id (t : Task) : String := task_request_id t (shown t.project_id)

def Task.request_id_chat (t : Task) : String :=
  task_request_id t ("chat_" ++ shown t.target_chat_id)

/-! ## The upload -/

/-- What `_perform_rag_indexing` is called with, the active embedding config,
and the ids of the rows that it makes on its way. -/
structure Upload where
  uid : Int
  update_id : Int
  message_id : Nat
  media_group_id : Option String
  caption : Option String
  file_unique_id : String
  project_id : Option Nat
  chat_id : Option Nat
  new_chat_id : Nat
  uploaded_file_id : Nat
  filename : String
  ext : String
  file_path : String
  estimated_tokens : Int
  emb_config : Option usage_quotes.EmbeddingConfig
  model : Option String

def create_usage_event (user : UserPreference) (chat_id message_id : Option Nat)
    (operation_type : String) (uploaded_file_id : Option Nat) (estimated_cost_usd : PyFloat)
    (request_id : Option String) : ShelfTx UsageEvent := do
  let existing ← Prog.read fun s =>
    if truthyKey request_id then s.usage_events.first fun e => e.request_id = request_id else none
  match existing with
  | some existing => return existing
  | none =>
    let id ← Prog.read fun s => s.usage_events.nextKey
    let usage : UsageEvent :=
      { user_id := user.id, chat_id, message_id, uploaded_file_id, operation_type, request_id
        estimated_cost_minor := some (wallet_runs.usd_to_minor (max 0 estimated_cost_usd)) }
    Prog.flush (.addUsageEvent usage)
    return { usage with id }

/-- The chat of the document: a new one when it has no chat and no project. -/
def Upload.chat (u : Upload) : Option Nat :=
  if !truthy_id u.chat_id && !truthy_id u.project_id then some u.new_chat_id else u.chat_id

def Upload.cost (u : Upload) : PyFloat :=
  usage_quotes.embedding_cost_usd u.emb_config u.estimated_tokens

/-- The rows of an upload: the ids of its document and of its usage event. -/
def recorded (u : Upload) : ShelfTx (Nat × Nat) := do
  let user ← (get_user u.uid (some "") (some "")).within the_accounts
  let document_id ← Prog.read fun s => s.documents.nextKey
  Prog.flush (.addDocument
    { project_id := u.project_id, chat_id := if truthy_id u.project_id then none else u.chat
      filename := u.filename, file_type := u.ext, file_path := u.file_path })
  let usage ← create_usage_event user u.chat (some u.message_id) "rag_embedding"
    (some u.uploaded_file_id) u.cost (some (upload_request_id u.update_id u.file_unique_id))
  Prog.flush (.setUsageEvent usage { usage with status := some "authorized" })
  Prog.publish
  return (document_id, usage.id)

/-- The message about the upload. `_safe_edit_or_reply` has no parameter
`reply_markup`, which the call without a caption hands over. -/
def announce (u : Upload) : Except PyError Unit :=
  if truthy u.media_group_id then .ok ()
  else if truthy u.caption then .ok ()
  else .error .type_error

def Upload.task (u : Upload) (document_id : Nat) : Task where
  project_id := u.project_id
  document_id := document_id
  uid := u.uid
  update_id := u.update_id
  file_unique_id := u.file_unique_id
  estimated_cost := u.cost
  estimated_tokens := u.estimated_tokens
  filename := u.filename
  model := if u.emb_config.isSome then u.model else none
  target_chat_id := if truthy_id u.project_id then none else u.chat

/-! ## The task -/

/-- How the embedding of a document ends. It raises when the database does not
take its failure either. -/
inductive Indexing where
  | indexed (chunk_count : Int)
  | failed (error : String)
  | raised (error : PyError)
deriving DecidableEq

/-- What gets out of `background_index_document`. -/
def Indexing.gets_out : Indexing → Except PyError Unit
  | .raised error => .error error
  | _ => .ok ()

/-- Gives back whether the document is indexed. -/
def background_index_document (document_id : Nat) (indexing : Indexing) : ShelfTx Bool := do
  let doc ← Prog.read fun s => s.documents.get document_id
  match doc with
  | none =>
    Prog.lift indexing.gets_out
    return false
  | some doc =>
  let processing := { doc with status := some "processing" }
  Prog.flush (.setDocument doc processing)
  Prog.publish
  match indexing with
  | .indexed chunk_count =>
    Prog.flush (.setDocument processing
      { processing with chunk_count := some chunk_count, status := some "indexed", error := none })
    Prog.publish
    return true
  | .failed error =>
    Prog.flush (.setDocument processing { processing with status := some "failed", error })
    Prog.publish
    return false
  | .raised error => Prog.throw error

/-- What the task has in its hands before it writes. -/
structure Looked where
  doc : Option Document
  user : UserPreference
  usage_event : Option UsageEvent

def look_up (t : Task) : ShelfTx Looked := do
  let doc ← Prog.read fun s => s.documents.get t.document_id
  let user ← (get_user t.uid (some "") (some "")).within the_accounts
  let usage_event ← Prog.read fun s =>
    s.usage_events.first fun e => e.request_id = some t.request_id
  match usage_event with
  | some usage_event => return { doc, user, usage_event := some usage_event }
  | none =>
    let usage_event ← Prog.read fun s =>
      if truthy_id t.target_chat_id then
        s.usage_events.first fun e => e.request_id = some t.request_id_chat
      else none
    return { doc, user, usage_event }

def Scalar.ofOption {α : Type} (f : α → Scalar) (value : Option α) : Scalar :=
  match value with
  | some v => f v
  | none => .null

/-- The event that was found, if any, is completed before the charge. -/
def complete_event (now : Datetime) (doc : Document) (usage_event : Option UsageEvent) :
    ShelfTx Unit :=
  match usage_event with
  | some e => Prog.flush (.setUsageEvent e
      { e with status := some "completed", completed_at := some now, units := doc.chunk_count })
  | none => return ()

/-- A missing document raises, at the latest when its chunks are noted. -/
def settle (now : Datetime) (t : Task) (l : Looked) : ShelfTx GenericUsageChargeResult := do
  match l.doc with
  | none => Prog.throw .attribute_error
  | some doc =>
  complete_event now doc l.usage_event
  let result ← (charge_generic_usage_toman l.user t.estimated_cost "rag_embedding"
    "telegram document indexing" (l.usage_event.map (·.id))
    (l.usage_event.map fun e => s!"usage:{e.id}:charge")
    [("project_id", Scalar.ofOption (fun n : Nat => .int n) t.project_id),
     ("filename", Scalar.str t.filename),
     ("chunk_count", Scalar.ofOption .int doc.chunk_count),
     ("estimated_tokens", Scalar.int t.estimated_tokens),
     ("embedding_model", Scalar.ofOption .str t.model)] true).within the_accounts
  Prog.publish
  return result

/-! ## Runs -/

/-- What one repetition of a task comes to: whether its document was indexed,
what it found when it looked for the usage event, what the charge gave back,
and whether the user was told that the document is ready. -/
structure Repetition where
  upload : Nat
  indexed : Bool := false
  found : Option (Option UsageEvent) := none
  charge : Option GenericUsageChargeResult := none
  announced : Bool := false

/-- The task of the upload with this number. An exception ends it with an error
message, and its session is dropped. -/
def background_index_with_notification (now : Datetime) (upload : Nat) (t : Task)
    (indexing : Indexing) (s : Shelf) : Shelf × Repetition :=
  match (background_index_document t.document_id indexing).run (.opened s) with
  | (.error _, s) => (s.stored, { upload })
  | (.ok indexed, s) =>
    match (look_up t).run (.opened s.stored) with
    | (.error _, s) => (s.stored, { upload, indexed })
    | (.ok looked, s) =>
      match (settle now t looked).run s with
      | (.error _, s) => (s.stored, { upload, indexed, found := some looked.usage_event })
      | (.ok result, s) =>
        (s.stored, { upload, indexed, found := some looked.usage_event
                     charge := some result, announced := true })

/-- An upload: its usage event, and its task when one was created. -/
structure Uploaded where
  event : Nat
  task : Option Task

structure World where
  shelf : Shelf
  uploads : List Uploaded := []
  repetitions : List Repetition := []

/-- A new upload, one more run of the task of an earlier one, or anything that
the rest of the platform does to the accounts and the documents. -/
inductive Step where
  | upload (u : Upload)
  | index (i : Nat) (now : Datetime) (indexing : Indexing)
  | elsewhere (accounts : Db) (documents : Table Document)

def perform_rag_indexing (u : Upload) (w : World) : World :=
  match (recorded u).run (.opened w.shelf) with
  | (.error _, s) => { w with shelf := s.stored }
  | (.ok (document_id, event), s) =>
    let task := match announce u with
      | .ok _ => some (u.task document_id)
      | .error _ => none
    { w with shelf := s.stored, uploads := w.uploads ++ [{ event, task }] }

def Step.run (w : World) : Step → World
  | .upload u => perform_rag_indexing u w
  | .index i now indexing =>
    match w.uploads[i]?.bind (·.task) with
    | none => w
    | some t =>
      let (shelf, r) := background_index_with_notification now i t indexing w.shelf
      { w with shelf, repetitions := w.repetitions ++ [r] }
  | .elsewhere accounts documents => { w with shelf := { w.shelf with accounts, documents } }

/-! ## What is asked of the accounts -/

/-- The cost is paid, or there is none. -/
def Repetition.charged (r : Repetition) : Bool := r.charge.any (·.ok)

/-- The charge has written an entry. -/
def Repetition.pays (r : Repetition) : Bool := r.charge.any fun c => c.ok && c.reason.isNone

def Repetition.refused (r : Repetition) : Bool := r.charge.any fun c => !c.ok

def event_status (n : Nat) (s : Shelf) : Option String :=
  (s.usage_events.get n).bind (·.status)

/-- The upload with this number is accounted for once. -/
structure Accounted (w : World) (i : Nat) (up : Uploaded) : Prop where
  found : ∀ r ∈ w.repetitions, r.upload = i → ∀ f, r.found = some f →
    f.map (·.id) = some up.event
  completed : event_status up.event w.shelf = some "completed" ↔
    ∃ r ∈ w.repetitions, r.upload = i ∧ r.indexed = true ∧ r.charged = true
  once : (w.repetitions.filter fun r => r.upload = i && r.pays).length ≤ 1
  refused : ∀ r ∈ w.repetitions, r.upload = i → r.refused = true → r.announced = false

def AllAccounted (w : World) : Prop := ∀ i up, w.uploads[i]? = some up → Accounted w i up

/-! ## The request ids differ -/

theorem upload_request_id_head (update_id : Int) (file_unique_id : String) :
    (upload_request_id update_id file_unique_id).toList.take 2 = ['t', 'g'] := by
  have htg : (toString "tg:").toList = ['t', 'g', ':'] := by decide
  unfold upload_request_id
  simp only [String.toList_append, htg, List.append_assoc]
  rfl

theorem task_request_id_head (t : Task) (place : String) :
    (task_request_id t place).toList.take 2 = ['t', 'e'] := by
  have hte : (toString "telegram:").toList = 't' :: 'e' :: "legram:".toList := by decide
  unfold task_request_id
  simp only [String.toList_append, hte, List.append_assoc]
  rfl

/-- The event of an upload is never under a request id of a task. -/
theorem request_ids_differ (update_id : Int) (file_unique_id : String) (t : Task)
    (place : String) : upload_request_id update_id file_unique_id ≠ task_request_id t place := by
  intro h
  have hhead := upload_request_id_head update_id file_unique_id
  rw [h, task_request_id_head] at hhead
  revert hhead
  decide

theorem truthy_upload_request_id (update_id : Int) (file_unique_id : String) :
    truthyKey (some (upload_request_id update_id file_unique_id)) = true := by
  have hne : some (upload_request_id update_id file_unique_id) ≠ some "" := by
    intro h
    have hhead := upload_request_id_head update_id file_unique_id
    rw [Option.some.inj h] at hhead
    revert hhead
    decide
  unfold truthyKey
  rw [Option.isSome_some, Bool.true_and]
  exact bne_iff_ne.mpr hne

/-! ## An event stands -/

/-- The usage event of an upload, as the upload leaves it. -/
def Standing (n : Nat) (s : Shelf) : Prop :=
  ∃ e, s.usage_events.get n = some e ∧ e.status = some "authorized" ∧
    ∃ update_id file_unique_id, e.request_id = some (upload_request_id update_id file_unique_id)

/-- The change completes no usage event. -/
def Harmless : ShelfChange → Prop
  | .setUsageEvent _ new => new.status = some "authorized"
  | _ => True

theorem col_authorized {o n c : Option String} (hn : n = some "authorized")
    (hc : c = some "authorized") : col o n c = some "authorized" := by
  unfold col
  split
  · exact hc
  · exact hn

theorem keeps_harmless (n : Nat) {c : ShelfChange} (hc : Harmless c) (s : Shelf) :
    Standing n s → Standing n (Store.apply s c) := by
  rintro ⟨e, hget, hstatus, hkey⟩
  cases c with
  | account c => exact ⟨e, hget, hstatus, hkey⟩
  | addUsageEvent added => exact ⟨e, Table.get_insert_some hget, hstatus, hkey⟩
  | addDocument d => exact ⟨e, hget, hstatus, hkey⟩
  | setDocument old new => exact ⟨e, hget, hstatus, hkey⟩
  | setUsageEvent old new =>
    have hupdate := s.usage_events.get_update new.id (UsageEvent.merge old new) (fun _ => rfl)
      (fun _ => rfl) n
    rw [hget] at hupdate
    by_cases hn : n = new.id
    · rw [if_pos hn] at hupdate
      exact ⟨_, hupdate, col_authorized hc hstatus, hkey⟩
    · rw [if_neg hn] at hupdate
      exact ⟨e, hupdate, hstatus, hkey⟩

/-- What the session has published, and what it sees. -/
def Throughout (I : Shelf → Prop) (s : Session Shelf) : Prop := I s.stored ∧ I s.view

theorem Throughout.of_writes {α : Type} {x : ShelfTx α} {P : ShelfChange → Prop}
    {I : Shelf → Prop} {s : Session Shelf} (h : Throughout I s) (hx : x.Writes P)
    (hP : ∀ c, P c → ∀ t, I t → I (Store.apply t c)) :
    Throughout I (x.run s).2 :=
  (hx.moves (A := fun t t' => I t → I t') hP s).keeps (fun _ _ hk => hk) h

theorem Throughout.run {α : Type} {x : ShelfTx α} {n : Nat} {s : Session Shelf}
    (h : Throughout (Standing n) s) (hx : x.Writes Harmless) :
    Throughout (Standing n) (x.run s).2 := h.of_writes hx fun _ hc t => keeps_harmless n hc t

theorem harmless_accounts {α : Type} (x : Tx α) : (x.within the_accounts).Writes Harmless := by
  refine (Prog.writes_within the_accounts x).mono fun c hc => ?_
  obtain ⟨d, rfl⟩ := hc
  trivial

theorem harmless_recorded (u : Upload) : (recorded u).Writes Harmless := by
  unfold recorded create_usage_event
  refine (harmless_accounts _).bind fun user => ?_
  refine (Prog.writes_read _).bind fun document_id => ?_
  refine (Prog.writes_flush trivial).bind fun _ => ?_
  refine Prog.Writes.bind ?_ fun usage => ?_
  · refine (Prog.writes_read _).bind fun existing => ?_
    cases existing with
    | some existing => exact Prog.writes_pure _
    | none =>
      refine (Prog.writes_read _).bind fun id => ?_
      exact (Prog.writes_flush trivial).bind fun _ => Prog.writes_pure _
  · refine (Prog.writes_flush (by exact rfl)).bind fun _ => ?_
    exact Prog.writes_publish.bind fun _ => Prog.writes_pure _

/-- The embedding writes to its document only. -/
theorem writes_background (document_id : Nat) (indexing : Indexing) :
    (background_index_document document_id indexing).Writes
      fun c => ∃ old new, c = .setDocument old new := by
  unfold background_index_document
  refine (Prog.writes_read _).bind fun doc => ?_
  cases doc with
  | none => exact (Prog.writes_lift _).bind fun _ => Prog.writes_pure _
  | some doc =>
    refine (Prog.writes_flush ⟨_, _, rfl⟩).bind fun _ => Prog.writes_publish.bind fun _ => ?_
    cases indexing with
    | raised error => exact Prog.writes_throw error
    | indexed chunk_count | failed error =>
      refine (Prog.writes_flush ⟨_, _, rfl⟩).bind fun _ => Prog.writes_publish.bind fun _ => ?_
      exact Prog.writes_pure _

theorem harmless_background (document_id : Nat) (indexing : Indexing) :
    (background_index_document document_id indexing).Writes Harmless := by
  refine (writes_background document_id indexing).mono ?_
  rintro c ⟨old, new, rfl⟩
  trivial

theorem harmless_look_up (t : Task) : (look_up t).Writes Harmless := by
  unfold look_up
  refine (Prog.writes_read _).bind fun doc => ?_
  refine (harmless_accounts _).bind fun user => ?_
  refine (Prog.writes_read _).bind fun usage_event => ?_
  cases usage_event with
  | some usage_event => exact Prog.writes_pure _
  | none => exact (Prog.writes_read _).bind fun _ => Prog.writes_pure _

/-! ## What a task finds -/

/-- What is under a request id of a task is another event. -/
theorem not_the_event {n : Nat} {s : Shelf} (hs : Standing n s) {t : Task} {place : String}
    {e : UsageEvent} (h : (s.usage_events.first fun e =>
      e.request_id = some (task_request_id t place)) = some e) : e.id ≠ n := by
  rintro rfl
  obtain ⟨e', hget, -, update_id, file_unique_id, hkey⟩ := hs
  obtain ⟨hmem, hrequest⟩ := Table.first_mem h
  have hself : s.usage_events.get e.id = some e := (Table.get_eq_some _).mpr ⟨hmem, rfl⟩
  rw [hself] at hget
  cases hget
  rw [of_decide_eq_true hrequest] at hkey
  exact request_ids_differ update_id file_unique_id t place (Option.some.inj hkey).symm

theorem look_up_result (t : Task) (s : Session Shelf) :
    (∃ l, ((look_up t).run s).1 = .ok l) ↔
      ∃ user, ((get_user t.uid (some "") (some "")).run
        (s.map the_accounts.view)).1 = .ok user := by
  have hwithin := (Prog.run_within the_accounts (get_user t.uid (some "") (some "")) s).1
  unfold look_up
  rw [Prog.run_bind, Prog.run_read, Prog.continueWith_ok, Prog.run_bind]
  rw [← hwithin]
  generalize (Prog.within the_accounts (get_user t.uid (some "") (some ""))).run s = y
  obtain ⟨r, s₁⟩ := y
  cases r with
  | error e => simp
  | ok user =>
    rw [Prog.continueWith_ok, Prog.run_bind, Prog.run_read, Prog.continueWith_ok]
    cases s₁.view.usage_events.first fun e => e.request_id = some t.request_id with
    | some e => exact ⟨fun _ => ⟨user, rfl⟩, fun _ => ⟨_, rfl⟩⟩
    | none => exact ⟨fun _ => ⟨user, rfl⟩, fun _ => ⟨_, rfl⟩⟩

theorem look_up_event {t : Task} {s s' : Session Shelf} {l : Looked} {n : Nat}
    (h : (look_up t).run s = (.ok l, s')) (hs : Throughout (Standing n) s) :
    l.usage_event.map (·.id) ≠ some n := by
  have hkept := hs.run (harmless_accounts (get_user t.uid (some "") (some "")))
  unfold look_up at h
  rw [Prog.run_bind, Prog.run_read, Prog.continueWith_ok, Prog.run_bind] at h
  generalize (Prog.within the_accounts (get_user t.uid (some "") (some ""))).run s = y at h hkept
  obtain ⟨r, s₁⟩ := y
  cases r with
  | error e => cases h
  | ok user =>
    rw [Prog.continueWith_ok, Prog.run_bind, Prog.run_read, Prog.continueWith_ok] at h
    cases hfirst : s₁.view.usage_events.first fun e => e.request_id = some t.request_id with
    | some e =>
      rw [hfirst] at h
      cases h
      exact fun hid => not_the_event hkept.2 hfirst (Option.some.inj hid)
    | none =>
      rw [hfirst] at h
      cases h
      cases truthy_id t.target_chat_id with
      | false => simp
      | true =>
        simp only [if_true]
        cases hsecond : s'.view.usage_events.first fun e =>
            e.request_id = some t.request_id_chat with
        | none => simp
        | some e => exact fun hid => not_the_event hkept.2 hsecond (Option.some.inj hid)

theorem complete_event_keeps {now : Datetime} {doc : Document} {usage_event : Option UsageEvent}
    {n : Nat} {s : Session Shelf} (he : usage_event.map (·.id) ≠ some n)
    (hs : Throughout (Standing n) s) :
    Throughout (Standing n) ((complete_event now doc usage_event).run s).2 := by
  unfold complete_event
  cases usage_event with
  | none => exact hs
  | some e =>
    refine ⟨hs.1, ?_⟩
    obtain ⟨row, hget, hstatus, hkey⟩ := hs.2
    refine ⟨row, ?_, hstatus, hkey⟩
    have hupdate := s.view.usage_events.get_update e.id (UsageEvent.merge e
      { e with status := some "completed", completed_at := some now, units := doc.chunk_count })
      (fun _ => rfl) (fun _ => rfl) n
    rw [if_neg fun hid => he (congrArg some hid.symm), hget] at hupdate
    exact hupdate

/-- Whatever else the task completes, the event of the upload stands. -/
theorem settle_keeps {now : Datetime} {t : Task} {l : Looked} {n : Nat} {s : Session Shelf}
    (hl : l.usage_event.map (·.id) ≠ some n) (hs : Throughout (Standing n) s) :
    Throughout (Standing n) ((settle now t l).run s).2 := by
  unfold settle
  cases l.doc with
  | none => exact hs
  | some doc =>
    have hkept := @complete_event_keeps now doc _ _ _ hl hs
    rw [Prog.run_bind]
    generalize (complete_event now doc l.usage_event).run s = y at hkept
    obtain ⟨r, s₁⟩ := y
    cases r with
    | error e => exact hkept
    | ok _ =>
      refine hkept.run ?_
      exact (harmless_accounts _).bind fun _ => Prog.writes_publish.bind fun _ => Prog.writes_pure _

theorem background_result (document_id : Nat) (indexing : Indexing) (s : Session Shelf) :
    (∃ b, ((background_index_document document_id indexing).run s).1 = .ok b) ↔
      indexing.gets_out = .ok () := by
  unfold background_index_document
  rw [Prog.run_bind, Prog.run_read, Prog.continueWith_ok]
  cases s.view.documents.get document_id with
  | none =>
    cases indexing with
    | raised error => exact ⟨fun ⟨_, h⟩ => (by cases h), fun h => (by cases h)⟩
    | indexed chunk_count | failed error => exact ⟨fun _ => rfl, fun _ => ⟨_, rfl⟩⟩
  | some doc =>
    cases indexing with
    | raised error => exact ⟨fun ⟨_, h⟩ => (by cases h), fun h => (by cases h)⟩
    | indexed chunk_count | failed error => exact ⟨fun _ => rfl, fun _ => ⟨_, rfl⟩⟩

/-- The embedding leaves the accounts. -/
theorem background_accounts (document_id : Nat) (indexing : Indexing) (s : Shelf) :
    Throughout (fun t => t.accounts = s.accounts)
      ((background_index_document document_id indexing).run (.opened s)).2 := by
  refine Throughout.of_writes (s := .opened s) ⟨rfl, rfl⟩
    (writes_background document_id indexing) ?_
  rintro c ⟨old, new, rfl⟩ t ht
  exact ht

/-! ## One run of a task -/

/-- The task gets to its accounting: what embeds the document lets nothing
out, and the user of the task is found or made. -/
def Reaches (s : Shelf) (t : Task) (indexing : Indexing) : Prop :=
  indexing.gets_out = .ok () ∧
    ∃ user, ((get_user t.uid (some "") (some "")).run (.opened s.accounts)).1 = .ok user

/-- The two ways of a run: it does not get to its accounting and notes
nothing, or it has looked for its event. -/
inductive TaskRun (now : Datetime) (i : Nat) (t : Task) (indexing : Indexing) (s : Shelf) :
    Shelf × Repetition → Prop where
  | quiet (s' : Shelf) (indexed : Bool) (h : ¬Reaches s t indexing)
      (hkept : ∀ n, Standing n s → Standing n s') :
      TaskRun now i t indexing s (s', { upload := i, indexed })
  | reached (s' : Shelf) (r : Repetition) (f : Option UsageEvent) (h : Reaches s t indexing)
      (hkept : ∀ n, Standing n s → Standing n s') (hupload : r.upload = i)
      (hfound : r.found = some f) (hother : ∀ n, Standing n s → f.map (·.id) ≠ some n) :
      TaskRun now i t indexing s (s', r)

theorem taskRun (now : Datetime) (i : Nat) (t : Task) (indexing : Indexing) (s : Shelf) :
    TaskRun now i t indexing s (background_index_with_notification now i t indexing s) := by
  have hbackground := background_result t.document_id indexing (.opened s)
  have haccounts := background_accounts t.document_id indexing s
  have hkept₁ : ∀ n, Standing n s → Throughout (Standing n)
      ((background_index_document t.document_id indexing).run (.opened s)).2 := fun n hn =>
    Throughout.run (s := .opened s) ⟨hn, hn⟩ (harmless_background t.document_id indexing)
  unfold background_index_with_notification
  generalize (background_index_document t.document_id indexing).run (.opened s) = x
    at hbackground haccounts hkept₁
  obtain ⟨r, s₁⟩ := x
  cases r with
  | error e =>
    refine .quiet _ false (fun h => ?_) fun n hn => (hkept₁ n hn).1
    obtain ⟨b, hb⟩ := hbackground.mpr h.1
    cases hb
  | ok indexed =>
    have hlook := look_up_result t (.opened s₁.stored)
    have hkept₂ : ∀ n, Standing n s → Throughout (Standing n)
        ((look_up t).run (.opened s₁.stored)).2 := fun n hn =>
      Throughout.run (s := .opened s₁.stored) ⟨(hkept₁ n hn).1, (hkept₁ n hn).1⟩
        (harmless_look_up t)
    have hmap : Session.map the_accounts.view (.opened s₁.stored) = .opened s.accounts :=
      congrArg Session.opened haccounts.1
    rw [hmap] at hlook
    dsimp only
    generalize hrun : (look_up t).run (.opened s₁.stored) = y at hlook hkept₂
    obtain ⟨r, s₂⟩ := y
    cases r with
    | error e =>
      refine .quiet _ indexed (fun h => ?_) fun n hn => (hkept₂ n hn).1
      obtain ⟨l, hl⟩ := hlook.mpr h.2
      cases hl
    | ok l =>
      have hreaches : Reaches s t indexing := ⟨hbackground.mp ⟨_, rfl⟩, hlook.mp ⟨_, rfl⟩⟩
      have hother : ∀ n, Standing n s → l.usage_event.map (·.id) ≠ some n := fun n hn =>
        look_up_event hrun ⟨(hkept₁ n hn).1, (hkept₁ n hn).1⟩
      have hkept₃ : ∀ n, Standing n s → Standing n ((settle now t l).run s₂).2.stored :=
        fun n hn => (settle_keeps (hother n hn) (hkept₂ n hn)).1
      dsimp only
      generalize (settle now t l).run s₂ = z at hkept₃
      obtain ⟨r, s₃⟩ := z
      cases r with
      | error e => exact .reached _ _ _ hreaches hkept₃ rfl rfl hother
      | ok result => exact .reached _ _ _ hreaches hkept₃ rfl rfl hother

/-! ## The event of an upload -/

theorem create_usage_event_run (user : UserPreference) (chat_id message_id file_id : Option Nat)
    (operation_type : String) (cost : PyFloat) (update_id : Int) (file_unique_id : String)
    (s : Session Shelf) :
    ∃ usage v, (create_usage_event user chat_id message_id operation_type file_id cost
        (some (upload_request_id update_id file_unique_id))).run s = (.ok usage, ⟨s.stored, v⟩) ∧
      v.usage_events.get usage.id = some usage ∧
      usage.request_id = some (upload_request_id update_id file_unique_id) := by
  unfold create_usage_event
  simp only [Prog.run_bind, Prog.run_read, Prog.continueWith_ok, truthy_upload_request_id, if_true]
  cases hfirst : s.view.usage_events.first fun e =>
      e.request_id = some (upload_request_id update_id file_unique_id) with
  | some e =>
    obtain ⟨hmem, hrequest⟩ := Table.first_mem hfirst
    exact ⟨e, s.view, rfl, (Table.get_eq_some _).mpr ⟨hmem, rfl⟩, of_decide_eq_true hrequest⟩
  | none =>
    let usage : UsageEvent :=
      { user_id := user.id, chat_id, message_id, uploaded_file_id := file_id, operation_type
        request_id := some (upload_request_id update_id file_unique_id)
        estimated_cost_minor := some (wallet_runs.usd_to_minor (max 0 cost)) }
    have haccepts : s.view.usage_events.Accepts usage := by
      intro k hk e he hek
      have hother := of_decide_eq_false (Table.first_eq_none.mp hfirst e he)
      exact hother (hek.trans hk.symm)
    have hadmits : Store.admits s.view (ShelfChange.addUsageEvent usage) = true :=
      decide_eq_true haccepts
    have hget : (s.view.apply (.addUsageEvent usage)).usage_events.get
        s.view.usage_events.nextKey = some { usage with id := s.view.usage_events.nextKey } :=
      Table.get_insert_new haccepts
    refine ⟨{ usage with id := s.view.usage_events.nextKey },
      s.view.apply (.addUsageEvent usage), ?_, hget, rfl⟩
    simp only [Prog.run_bind, Prog.run_read, Prog.continueWith_ok, Prog.run_flush]
    rw [if_pos (by exact hadmits)]
    rfl

theorem admits_document (s : Shelf) (d : Document) :
    Store.admits s (ShelfChange.addDocument d) = true := rfl

theorem recorded_event {u : Upload} {s s' : Session Shelf} {document_id event : Nat}
    (h : (recorded u).run s = (.ok (document_id, event), s')) : Standing event s'.stored := by
  unfold recorded at h
  rw [Prog.run_bind] at h
  generalize (Prog.within the_accounts (get_user u.uid (some "") (some ""))).run s = y at h
  obtain ⟨r, s₁⟩ := y
  cases r with
  | error e => cases h
  | ok user =>
    rw [Prog.continueWith_ok, Prog.run_bind, Prog.run_read, Prog.continueWith_ok, Prog.run_bind,
      Prog.run_flush, admits_document, if_pos rfl, Prog.continueWith_ok, Prog.run_bind] at h
    obtain ⟨usage, v, hrun, hget, hrequest⟩ := create_usage_event_run user u.chat
      (some u.message_id) (some u.uploaded_file_id) "rag_embedding" u.cost u.update_id
      u.file_unique_id ⟨s₁.stored, Store.apply s₁.view (.addDocument
        { project_id := u.project_id, chat_id := if truthy_id u.project_id then none else u.chat
          filename := u.filename, file_type := u.ext, file_path := u.file_path })⟩
    rw [hrun, Prog.continueWith_ok] at h
    cases h
    have hupdate := v.usage_events.get_update usage.id (UsageEvent.merge usage
      { usage with status := some "authorized" }) (fun _ => rfl) (fun _ => rfl) usage.id
    rw [if_pos rfl, hget] at hupdate
    exact ⟨_, hupdate, col_self _ _, _, _, hrequest⟩

/-! ## Every run -/

theorem run_index_none {w : World} {i : Nat} {now : Datetime} {indexing : Indexing}
    (h : w.uploads[i]?.bind (·.task) = none) : (Step.index i now indexing).run w = w := by
  simp only [Step.run, h]

theorem run_index_some {w : World} {i : Nat} {now : Datetime} {indexing : Indexing} {t : Task}
    (h : w.uploads[i]?.bind (·.task) = some t) :
    (Step.index i now indexing).run w =
      { w with
        shelf := (background_index_with_notification now i t indexing w.shelf).1
        repetitions := w.repetitions ++
          [(background_index_with_notification now i t indexing w.shelf).2] } := by
  simp only [Step.run, h]

/-- Each upload has its event, and nothing has completed it. -/
def AllStand (w : World) : Prop := ∀ up ∈ w.uploads, Standing up.event w.shelf

theorem stand_upload {u : Upload} {w : World} (hw : AllStand w) :
    AllStand (perform_rag_indexing u w) := by
  have hkept : ∀ n, Standing n w.shelf →
      Standing n ((recorded u).run (.opened w.shelf)).2.stored := fun n hn =>
    (Throughout.run (s := .opened w.shelf) ⟨hn, hn⟩ (harmless_recorded u)).1
  unfold perform_rag_indexing
  cases hrun : (recorded u).run (.opened w.shelf) with
  | mk r s =>
    rw [hrun] at hkept
    cases r with
    | error e => exact fun up hup => hkept _ (hw up hup)
    | ok rows =>
      intro up hup
      rcases List.mem_append.mp hup with hold | hnew
      · exact hkept _ (hw up hold)
      · rw [List.mem_singleton] at hnew
        subst hnew
        exact recorded_event hrun

/-- A run of a task keeps the events of all uploads. -/
theorem TaskRun.kept {now : Datetime} {i : Nat} {t : Task} {indexing : Indexing} {s : Shelf}
    {p : Shelf × Repetition} (h : TaskRun now i t indexing s p) {n : Nat} (hn : Standing n s) :
    Standing n p.1 := by
  cases h with
  | quiet s' indexed h hkept => exact hkept n hn
  | reached s' r f h hkept hupload hfound hother => exact hkept n hn

theorem stand_step (w : World) (e : Step) (hw : AllStand w) : AllStand (e.run w) := by
  cases e with
  | upload u => exact stand_upload hw
  | elsewhere accounts documents => exact hw
  | index i now indexing =>
    cases htask : w.uploads[i]?.bind (·.task) with
    | none =>
      rw [run_index_none htask]
      exact hw
    | some t =>
      rw [run_index_some htask]
      exact fun up hup => (taskRun now i t indexing w.shelf).kept (hw up hup)

/-- In every run the usage event of every upload stays as the upload left it. -/
theorem every_event_stays_authorized (s : Shelf) (es : List Step) :
    AllStand (after Step.run { shelf := s } es) := by
  suffices h : ∀ w, AllStand w → AllStand (after Step.run w es) from
    h _ fun up hup => by cases hup
  induction es with
  | nil => exact fun w hw => hw
  | cons e es ih => exact fun w hw => ih _ (stand_step w e hw)

/-- Uploads and repetitions are only added. -/
def Grows (w w' : World) : Prop :=
  w.uploads <+: w'.uploads ∧ w.repetitions <+: w'.repetitions

theorem grows_step (w : World) (e : Step) : Grows w (e.run w) := by
  cases e with
  | elsewhere accounts documents => exact ⟨List.prefix_rfl, List.prefix_rfl⟩
  | upload u =>
    change Grows w (perform_rag_indexing u w)
    unfold perform_rag_indexing
    cases (recorded u).run (.opened w.shelf) with
    | mk r s =>
      cases r with
      | error e => exact ⟨List.prefix_rfl, List.prefix_rfl⟩
      | ok rows => exact ⟨List.prefix_append _ _, List.prefix_rfl⟩
  | index i now indexing =>
    cases htask : w.uploads[i]?.bind (·.task) with
    | none =>
      rw [run_index_none htask]
      exact ⟨List.prefix_rfl, List.prefix_rfl⟩
    | some t =>
      rw [run_index_some htask]
      exact ⟨List.prefix_rfl, List.prefix_append _ _⟩

theorem grows_run (w : World) (es : List Step) : Grows w (after Step.run w es) := by
  induction es generalizing w with
  | nil => exact ⟨List.prefix_rfl, List.prefix_rfl⟩
  | cons e es ih =>
    have hstep := grows_step w e
    have hrest := ih (e.run w)
    exact ⟨hstep.1.trans hrest.1, hstep.2.trans hrest.2⟩

/-! ## The law -/

/-- A task that is run does not get to its accounting. -/
def Quiet (w : World) : Step → Prop
  | .index i _ indexing =>
    ∀ t, w.uploads[i]?.bind (·.task) = some t → ¬Reaches w.shelf t indexing
  | _ => True

/-- A repetition that has neither looked for its event nor charged. -/
def Repetition.Silent (r : Repetition) : Prop := r.found = none ∧ r.charge = none

theorem quiet_step (w : World) (e : Step) (hw : ∀ r ∈ w.repetitions, r.Silent)
    (he : Quiet w e) : ∀ r ∈ (e.run w).repetitions, r.Silent := by
  cases e with
  | elsewhere accounts documents => exact hw
  | upload u =>
    change ∀ r ∈ (perform_rag_indexing u w).repetitions, r.Silent
    unfold perform_rag_indexing
    cases (recorded u).run (.opened w.shelf) with
    | mk r s =>
      cases r with
      | error e => exact hw
      | ok rows => exact hw
  | index i now indexing =>
    cases htask : w.uploads[i]?.bind (·.task) with
    | none =>
      rw [run_index_none htask]
      exact hw
    | some t =>
      rw [run_index_some htask]
      have hrun := taskRun now i t indexing w.shelf
      generalize background_index_with_notification now i t indexing w.shelf = p at hrun
      intro r hr
      rcases List.mem_append.mp hr with hold | hnew
      · exact hw r hold
      · rw [List.mem_singleton] at hnew
        subst hnew
        cases hrun with
        | quiet s' indexed h hkept => exact ⟨rfl, rfl⟩
        | reached s' r f h => exact absurd h (he t htask)

theorem Accounted.of_silent {w : World} (hw : AllStand w) (hr : ∀ r ∈ w.repetitions, r.Silent)
    {i : Nat} {up : Uploaded} (hup : w.uploads[i]? = some up) : Accounted w i up := by
  obtain ⟨e, hget, hstatus, -⟩ := hw up (List.mem_of_getElem? hup)
  have hunpaid : ∀ r ∈ w.repetitions, r.charged = false ∧ r.pays = false ∧ r.refused = false := by
    intro r hmem
    unfold Repetition.charged Repetition.pays Repetition.refused
    rw [(hr r hmem).2]
    exact ⟨rfl, rfl, rfl⟩
  refine ⟨fun r hmem _ f hf => ?_, ⟨fun h => ?_, ?_⟩, ?_, fun r hmem _ hrefused => ?_⟩
  · rw [(hr r hmem).1] at hf
    cases hf
  · unfold event_status at h
    rw [hget, Option.bind_some, hstatus] at h
    exact absurd h (by decide)
  · rintro ⟨r, hmem, -, -, hcharged⟩
    rw [(hunpaid r hmem).1] at hcharged
    cases hcharged
  · have hnone : w.repetitions.filter (fun r => r.upload = i && r.pays) = [] := by
      refine List.filter_eq_nil_iff.mpr fun r hmem => ?_
      rw [(hunpaid r hmem).2.1, Bool.and_false]
      decide
    rw [hnone]
    exact Nat.zero_le 1
  · rw [(hunpaid r hmem).2.2] at hrefused
    cases hrefused

/-- A task that gets to its accounting does not find the event of its upload. -/
theorem reached_step (now : Datetime) {w : World} {i : Nat} {indexing : Indexing} {t : Task}
    {up : Uploaded} (hw : AllStand w) (hup : w.uploads[i]? = some up) (ht : up.task = some t)
    (h : Reaches w.shelf t indexing) :
    ∃ r ∈ ((Step.index i now indexing).run w).repetitions, r.upload = i ∧
      ∃ f, r.found = some f ∧ f.map (·.id) ≠ some up.event := by
  have htask : w.uploads[i]?.bind (·.task) = some t := by
    rw [hup]
    exact ht
  rw [run_index_some htask]
  have hrun := taskRun now i t indexing w.shelf
  generalize background_index_with_notification now i t indexing w.shelf = p at hrun
  refine ⟨p.2, List.mem_append_right _ (List.mem_singleton_self _), ?_⟩
  cases hrun with
  | quiet s' indexed hnot hkept => exact absurd h hnot
  | reached s' r f _ hkept hupload hfound hother =>
    exact ⟨hupload, f, hfound, hother _ (hw up (List.mem_of_getElem? hup))⟩

/-- LAW: In a run of uploads and of their tasks, any number of times each and
with anything between them, every upload is accounted for once exactly when no
run of a task gets to its accounting. -/
theorem uploads_are_accounted_iff_no_task_gets_to_its_accounting (s : Shelf) (es : List Step) :
    AllAccounted (after Step.run { shelf := s } es) ↔ Each Step.run Quiet { shelf := s } es := by
  constructor
  · intro h
    refine each_iff.mpr fun pre e post hes => ?_
    cases e with
    | upload u => trivial
    | elsewhere accounts documents => trivial
    | index i now indexing =>
      intro t htask hreaches
      obtain ⟨up, hup, ht⟩ := Option.bind_eq_some_iff.mp htask
      obtain ⟨r, hr, hupload, f, hfound, hother⟩ :=
        reached_step now (every_event_stays_authorized s pre) hup ht hreaches
      have hfirst := grows_step (after Step.run { shelf := s } pre) (.index i now indexing)
      have hrest := grows_run ((Step.index i now indexing).run (after Step.run { shelf := s } pre))
        post
      rw [hes, after_append, after_cons] at h
      have hlt := (List.getElem?_eq_some_iff.mp hup).1
      obtain ⟨more, hmore⟩ := hfirst.1.trans hrest.1
      have hacc := h i up (by rw [← hmore, List.getElem?_append_left hlt, hup])
      exact hother (hacc.found r (hrest.2.subset hr) hupload f hfound)
  · intro h
    have hsilent : ∀ r ∈ (after Step.run { shelf := s } es).repetitions, r.Silent :=
      h.keeps (I := fun w => ∀ r ∈ w.repetitions, r.Silent) quiet_step fun r hr => by cases hr
    exact fun i up hup => .of_silent (every_event_stays_authorized s es) hsilent hup

/-- A document with a caption, in a chat, for a customer with 5000 Toman. -/
def book : Upload where
  uid := 100
  update_id := 7
  message_id := 3
  media_group_id := none
  caption := some "What is it about?"
  file_unique_id := "AgAD"
  project_id := none
  chat_id := some 5
  new_chat_id := 9
  uploaded_file_id := 2
  filename := "book.pdf"
  ext := "pdf"
  file_path := "uploads/book.pdf"
  estimated_tokens := 10000
  emb_config := some ⟨some 1⟩
  model := some "gemini-embedding"

/-- The task of the document runs twice, and the embedding succeeds. -/
def indexed_twice : World :=
  after Step.run { shelf := ⟨calls.shop, .empty, .empty⟩ }
    [.upload book, .index 0 calls.noon (.indexed 12), .index 0 calls.noon (.indexed 12)]

/-- Each of the two runs finds no event and charges, and the event stays
authorized. -/
theorem two_runs_charge_twice :
    ¬AllAccounted indexed_twice ∧
      indexed_twice.repetitions.map (·.found) = [some none, some none] ∧
      indexed_twice.repetitions.map (·.pays) = [true, true] ∧
      indexed_twice.uploads.map (fun up => event_status up.event indexed_twice.shelf) =
        [some "authorized"] := by
  have honce : ¬(indexed_twice.repetitions.filter fun r => r.upload = 0 && r.pays).length ≤ 1 := by
    decide +kernel
  refine ⟨fun h => ?_, by decide +kernel, by decide +kernel, by decide +kernel⟩
  cases hup : indexed_twice.uploads[0]? with
  | some up => exact honce (h 0 up hup).once
  | none =>
    have hsome : indexed_twice.uploads[0]?.isSome = true := by decide +kernel
    rw [hup] at hsome
    cases hsome

end dr_boz.rag_indexing
