-- The bot of `transactions_bot.py`, which settles payment requests by calling
-- the backend with the admin's credential, and its law: who settles a request,
-- and whether the answer says what has become of it.
import DrBoz.BotPayments
import DrBoz.Lib.Runs
import DrBoz.PaymentDecisions

open keyed_table unit_of_work dr_boz.py dr_boz.texts dr_boz.models dr_boz.codex_capacity
open dr_boz.toman_billing dr_boz.payment_requests dr_boz.payment_runs dr_boz.payment_decisions
open dr_boz.bot_payments dr_boz.calls

namespace dr_boz.transactions_bot

/-! ## The backend -/

/-- One call of the backend: it may not arrive, its credential may be a wrong
one, and its answer may not come back. -/
structure Exchange where
  now : Datetime
  reaches : Bool
  authorized : Bool
  answered : Bool

/-- The body of an answer: the request with its user, or the detail of an
error. Every error of the backend comes as JSON. -/
inductive Response where
  | out (req : PaymentRequest) (user : Option UserPreference)
  | detail (text : String)

def response (db : Db) : Except PyError PaymentRequest → Response
  | .ok req => .out req (db.users.get req.user_id)
  | .error (.http_exception _ detail) => .detail detail
  | .error _ => .detail "Internal Server Error"

/-- The row of a path like `/payment-requests/5/approve`. -/
def by_id (request_id : Int) (route : Nat → Tx PaymentRequest) : Tx PaymentRequest :=
  if request_id < 0 then Prog.throw (.http_exception 404 "درخواست پرداخت یافت نشد")
  else route request_id.toNat

/-- No response stands for a call that raises. -/
def Exchange.run (x : Exchange) (route : Tx PaymentRequest) (db : Db) : Option Response × Db :=
  if x.reaches = false then (none, db)
  else if x.authorized = false then
    (if x.answered then some (.detail "Unauthorized") else none, db)
  else
    let y := route.run (.opened db)
    (if x.answered then some (response y.2.stored y.1) else none, y.2.stored)

inductive Verdict where
  | approve
  | reject
deriving DecidableEq

/-- `_approve_payment` and `_reject_payment`. -/
def Verdict.route (now : Datetime) (request_id : Int) : Verdict → Tx PaymentRequest
  | .approve => by_id request_id fun id => approve_payment_request now id none
  | .reject => by_id request_id fun id => reject_payment_request now id "رد توسط ادمین"

/-- The status that the verdict leads to. -/
def Verdict.status : Verdict → String
  | .approve => "approved"
  | .reject => "rejected"

/-! ## The texts -/

def format_toman (amount : Int) : String := thousands amount ++ " تومان"

def payment_type_label (ptype : Option String) : String :=
  if ptype = some "topup" then "شارژ حساب" else "خرید اشتراک"

def status_label (status : Option String) : String :=
  if status = some "pending" then "⏳ در انتظار بررسی"
  else if status = some "approved" then "✅ تأیید شده"
  else if status = some "rejected" then "❌ رد شده"
  else formatted status

/-- `f"@{username}"`, or nothing. -/
def at_name (username : Option String) : String :=
  if truthyKey username then "@" ++ formatted username else ""

def result_lines (id uname username amount ptype status note : String) : String :=
  "🆔 شناسه: `" ++ id ++ "`\n👤 کاربر: " ++ uname ++ " " ++ username ++ "\n💰 مبلغ: " ++ amount ++
    "\n📂 نوع: " ++ ptype ++ "\n📊 وضعیت: " ++ status ++ note

/-- The body of an error has none of the fields. -/
def build_payment_message_from_result : Response → String
  | .out req user => result_lines (toString req.id)
      (formatted (user.bind (·.first_name))) (at_name (user.bind (·.username)))
      (format_toman req.amount_toman) (payment_type_label (strOr req.payment_type (some "topup")))
      (status_label req.status)
      (if truthyKey req.admin_note then "\n📝 یادداشت: " ++ formatted req.admin_note else "")
  | .detail _ => result_lines "?" "کاربر" "" (format_toman 0) (payment_type_label (some "topup"))
      (status_label (some "unknown")) ""

/-- What the chat gets to see: a request with its two buttons, the headline of
a verdict with the body below it, or an error. -/
inductive Notice where
  | running
  | none_pending
  | pending (req : PaymentRequest)
  | done (verdict : Verdict) (request_id : Int) (text : String)
  | failed (verdict : Verdict) (request_id : Int)

/-- "پرداخت با موفقیت تأیید شد", or "پرداخت رد شد". -/
def headline (verdict : Verdict) (text : String) : String :=
  (match verdict with
    | .approve => "✅ پرداخت با موفقیت تأیید شد!\n\n"
    | .reject => "❌ پرداخت رد شد.\n\n") ++ text

/-! ## The handlers -/

/-- The latest requests first, twenty at most. `created_at` is a column that
nothing else reads. -/
def cmd_list (created_at : Nat → Datetime) (db : Db) : List Notice :=
  let requests := ((db.payment_requests.rows.filter (·.status = some "pending")).mergeSort
    fun a b => decide (created_at b.id ≤ created_at a.id)).take 20
  if requests.isEmpty then [.none_pending] else requests.map .pending

/-- A button pressed in a chat: what its message is edited to may not go out,
and then the error may not either. -/
structure Press where
  chat : Int
  data : String
  exchange : Exchange
  edits : Bool
  edits_error : Bool

def APPROVE : List Char := "txn_approve_".toList
def REJECT : List Char := "txn_reject_".toList

/-- The verdict that the data of a button asks for, and the request. Data
without a number raises. -/
def asked (data : String) : Option (Verdict × Int) :=
  if APPROVE.isPrefixOf data.toList then
    (int_of (String.ofList (removeAll APPROVE data.toList))).map (.approve, ·)
  else if REJECT.isPrefixOf data.toList then
    (int_of (String.ofList (removeAll REJECT data.toList))).map (.reject, ·)
  else none

/-- Any answer of the backend counts as a success. The button of the list
raises, since the update of a button has no message of its own. -/
def handle_action_callback (p : Press) (db : Db) : List Notice × Db :=
  match asked p.data with
  | none => ([], db)
  | some (verdict, request_id) =>
    let x := p.exchange.run (verdict.route p.exchange.now request_id) db
    let failed := if p.edits_error then [Notice.failed verdict request_id] else []
    match x.1 with
    | none => (failed, x.2)
    | some result =>
      (if p.edits then
        [.done verdict request_id (headline verdict (build_payment_message_from_result result))]
      else failed, x.2)

/-! ## Runs of the bot -/

/-- What the bot gets, and whatever else happens to the store in between. -/
inductive Event where
  | start (chat : Int)
  | list (chat : Int) (created_at : Nat → Datetime)
  | press (p : Press)
  | elsewhere (db : Db)

def Event.handle (db : Db) : Event → List Notice × Db
  | .start _ => ([.running], db)
  | .list _ created_at => (cmd_list created_at db, db)
  | .press p => handle_action_callback p db
  | .elsewhere db' => ([], db')

def Event.run (db : Db) (e : Event) : Db := (e.handle db).2

def Event.chat : Event → Option Int
  | .press p => some p.chat
  | _ => none

/-- The status of the request with the id. -/
def statusOf (db : Db) (id : Nat) : Option String := (db.payment_requests.get id).bind (·.status)

/-- The verdict becomes the status of a pending request. -/
def Becomes (db db' : Db) (verdict : Verdict) (id : Nat) : Prop :=
  statusOf db id = some "pending" ∧ statusOf db' id = some verdict.status

/-- One event: a request is settled from the admin's chat only, and a chat is
told of a verdict only if it has become the request's status. -/
structure Fair (admin_chat : Int) (db : Db) (e : Event) : Prop where
  by_admin : ∀ verdict id, (∀ db', e ≠ .elsewhere db') → Becomes db (e.run db) verdict id →
    e.chat = some admin_chat
  truthful : ∀ verdict request_id text, .done verdict request_id text ∈ (e.handle db).1 →
    0 ≤ request_id ∧ Becomes db (e.run db) verdict request_id.toNat

/-- The call reaches the backend with the right credential, and the backend
settles the request. -/
def Settles (db : Db) (p : Press) (verdict : Verdict) (request_id : Int) : Prop :=
  p.exchange.reaches = true ∧ p.exchange.authorized = true ∧
    ∃ req, ((verdict.route p.exchange.now request_id).run (.opened db)).1 = .ok req

/-- An answer comes back and is shown. -/
def Shows (p : Press) : Prop :=
  p.exchange.reaches = true ∧ p.exchange.answered = true ∧ p.edits = true

/-- Only the admin's chat presses a button that settles a request, and the
answer that is shown is not that of an error. -/
def Trusted (admin_chat : Int) (db : Db) : Event → Prop
  | .press p => ∀ verdict request_id, asked p.data = some (verdict, request_id) →
      (Settles db p verdict request_id → p.chat = admin_chat) ∧
        (Shows p → Settles db p verdict request_id)
  | _ => True

/-! ## What the backend does -/

/-- What a settled request leaves behind. -/
structure Done (db db' : Db) (verdict : Verdict) (id : Nat) : Prop where
  becomes : Becomes db db' verdict id
  others : ∀ k, k ≠ id → statusOf db' k = statusOf db k

theorem done_of_put {db t db' : Db} {req : PaymentRequest} (verdict : Verdict) (now : Datetime)
    (note : Option String) (act : AdminAction) (hreq : db.payment_requests.get req.id = some req)
    (hst : req.status = some "pending") (ht : t.payment_requests = db.payment_requests)
    (hdb : db' = settleIn t (settled req now verdict.status note) act) :
    Done db db' verdict req.id := by
  have hget : t.payment_requests.get req.id = some req := by rw [ht, hreq]
  subst hdb
  refine ⟨⟨?_, ?_⟩, fun k hk => ?_⟩
  · unfold statusOf
    rw [hreq]
    exact hst
  · unfold statusOf
    rw [get_settled now verdict.status note act hget]
    rfl
  · unfold statusOf settleIn
    have hother := Table.get_put_ne hget
      (r := settled req now verdict.status note) ⟨rfl, rfl⟩ hk
    rw [hother, ht]

/-- The backend settles the request, or it raises and leaves the store. -/
theorem route_cases (verdict : Verdict) (now : Datetime) (request_id : Int) (db : Db) :
    let y := (verdict.route now request_id).run (.opened db)
    (0 ≤ request_id ∧ (∃ req, y.1 = .ok req) ∧ Done db y.2.stored verdict request_id.toNat) ∨
      ((∃ e, y.1 = .error e) ∧ y.2.stored = db) := by
  intro y
  by_cases hneg : request_id < 0
  · right
    simp only [y]
    cases verdict with
    | approve =>
      simp only [Verdict.route, by_id, if_pos hneg]
      exact ⟨⟨_, rfl⟩, rfl⟩
    | reject =>
      simp only [Verdict.route, by_id, if_pos hneg]
      exact ⟨⟨_, rfl⟩, rfl⟩
  · cases verdict with
    | approve =>
      have h := approveRun now request_id.toNat none (.opened db)
      simp only [y, Verdict.route, by_id, if_neg hneg]
      generalize (approve_payment_request now request_id.toNat none).run (.opened db) = x at h
      obtain ⟨r, s⟩ := x
      simp only at h ⊢
      cases h with
      | kept e => exact .inr ⟨⟨e, rfl⟩, rfl⟩
      | failed req user plan r e s' hreq hst hr hno =>
        exact .inr ⟨⟨e, rfl⟩, stored_of_refused hr hno⟩
      | topup req user act hreq hst hu hp =>
        have hid : req.id = request_id.toNat := ((Table.get_eq_some _).mp hreq).2
        rw [← hid] at hreq ⊢
        have hput := done_of_put (t := views.post (views.withAccount db user.id)
          (paid_in (views.accountRow db user.id) req.amount_toman)
          [manual_entry user (paid_in (views.accountRow db user.id) req.amount_toman) req])
          .approve now (strOr none req.admin_note) act hreq hst rfl rfl
        exact .inl ⟨not_lt.mp hneg, ⟨_, rfl⟩, hput⟩
      | subscribed req user plan r s' act hreq hst hu hp hr hok =>
        have hid : req.id = request_id.toNat := ((Table.get_eq_some _).mp hreq).2
        rw [← hid] at hreq ⊢
        exact .inl ⟨not_lt.mp hneg, ⟨_, rfl⟩,
          done_of_put _ _ _ _ hreq hst (requests_of_purchase hr) rfl⟩
    | reject =>
      have h := rejectRun now request_id.toNat "رد توسط ادمین" (.opened db)
      simp only [y, Verdict.route, by_id, if_neg hneg]
      generalize (reject_payment_request now request_id.toNat _).run (.opened db) = x at h
      obtain ⟨r, s⟩ := x
      simp only at h ⊢
      cases h with
      | kept e => exact .inr ⟨⟨e, rfl⟩, rfl⟩
      | rejected req act hreq hst =>
        have hid : req.id = request_id.toNat := ((Table.get_eq_some _).mp hreq).2
        rw [← hid] at hreq ⊢
        exact .inl ⟨not_lt.mp hneg, ⟨_, rfl⟩, done_of_put _ _ _ _ hreq hst rfl rfl⟩

theorem not_becomes_self (db : Db) (verdict : Verdict) (id : Nat) : ¬Becomes db db verdict id := by
  rintro ⟨hbefore, hafter⟩
  rw [hbefore] at hafter
  cases verdict with
  | approve => simp [Verdict.status] at hafter
  | reject => simp [Verdict.status] at hafter

/-! ## One event -/

section
variable {admin_chat : Int} {db : Db} {p : Press} {verdict : Verdict} {request_id : Int}

/-- A call settles the request as the backend does, or it leaves the store. -/
theorem exchange_cases (db : Db) (p : Press) (verdict : Verdict) (request_id : Int) :
    let x := p.exchange.run (verdict.route p.exchange.now request_id) db
    ((Settles db p verdict request_id ∧ 0 ≤ request_id ∧
        Done db x.2 verdict request_id.toNat) ∨
      (¬Settles db p verdict request_id ∧ x.2 = db)) ∧
    (x.1.isSome ↔ p.exchange.reaches = true ∧ p.exchange.answered = true) := by
  intro x
  simp only [x, Exchange.run]
  split
  · rename_i hlost
    refine ⟨.inr ⟨fun h => ?_, rfl⟩, by simp [hlost]⟩
    rw [h.1] at hlost
    cases hlost
  · rename_i hreached
    have hreaches : p.exchange.reaches = true := by simpa using hreached
    split
    · rename_i hforeign
      refine ⟨.inr ⟨fun h => ?_, rfl⟩, ?_⟩
      · rw [h.2.1] at hforeign
        cases hforeign
      · cases p.exchange.answered <;> simp [hreaches]
    · rename_i hauth
      have hauthorized : p.exchange.authorized = true := by simpa using hauth
      refine ⟨?_, ?_⟩
      · rcases route_cases verdict p.exchange.now request_id db with
          ⟨hid, hok, hdone⟩ | ⟨⟨e, herr⟩, hstore⟩
        · exact .inl ⟨⟨hreaches, hauthorized, hok⟩, hid, hdone⟩
        · refine .inr ⟨fun h => ?_, hstore⟩
          obtain ⟨req, hok⟩ := h.2.2
          rw [herr] at hok
          cases hok
      · cases p.exchange.answered <;> simp [hreaches]

/-- What a press shows and leaves. -/
theorem press_shows (db : Db) (hasked : asked p.data = some (verdict, request_id)) :
    let x := p.exchange.run (verdict.route p.exchange.now request_id) db
    ((Event.press p).handle db).2 = x.2 ∧
      ∀ v id text, .done v id text ∈ ((Event.press p).handle db).1 ↔
        x.1.isSome ∧ p.edits = true ∧ v = verdict ∧ id = request_id ∧
          ∃ result, x.1 = some result ∧
            text = headline verdict (build_payment_message_from_result result) := by
  intro x
  have hfailed : ∀ v id text,
      .done v id text ∉ (if p.edits_error then [Notice.failed verdict request_id] else []) := by
    intro v id text h
    split at h
    · simp at h
    · simp at h
  simp only [Event.handle, handle_action_callback, hasked]
  cases hx : x.1 with
  | none =>
    refine ⟨rfl, fun v id text => ⟨fun h => absurd h (hfailed v id text), fun h => ?_⟩⟩
    simp at h
  | some result =>
    refine ⟨rfl, fun v id text => ?_⟩
    by_cases he : p.edits = true
    · simp [he]
    · simp only [he]
      exact ⟨fun h => absurd h (hfailed v id text), fun h => by simp at h⟩

theorem fair_press : Fair admin_chat db (.press p) ↔ Trusted admin_chat db (.press p) := by
  cases hasked : asked p.data with
  | none =>
    have hnone : (Event.press p).handle db = ([], db) := by
      simp only [Event.handle, handle_action_callback, hasked]
    have hrun : (Event.press p).run db = db := by
      unfold Event.run
      rw [hnone]
    refine iff_of_true ⟨fun v id _ h => ?_, fun v id text h => ?_⟩ fun v id h => ?_
    · rw [hrun] at h
      exact absurd h (not_becomes_self db v id)
    · rw [hnone] at h
      cases h
    · rw [hasked] at h
      cases h
  | some a =>
    obtain ⟨verdict, request_id⟩ := a
    obtain ⟨hrun, hshown⟩ := press_shows db hasked
    obtain ⟨hstore, hanswer⟩ := exchange_cases db p verdict request_id
    have hleft : (Event.press p).run db =
        (p.exchange.run (verdict.route p.exchange.now request_id) db).2 := hrun
    constructor
    · intro hfair v id h
      obtain ⟨rfl, rfl⟩ : verdict = v ∧ request_id = id := by
        rw [hasked] at h
        cases h
        exact ⟨rfl, rfl⟩
      refine ⟨fun hs => ?_, fun hshows => ?_⟩
      · rcases hstore with ⟨-, -, hdone⟩ | ⟨hno, -⟩
        · have hchat := hfair.by_admin verdict request_id.toNat (fun _ h => by cases h)
            (hleft ▸ hdone.becomes)
          exact Option.some.inj hchat
        · exact absurd hs hno
      · rcases hstore with ⟨hs, -, -⟩ | ⟨hno, hsame⟩
        · exact hs
        · obtain ⟨result, hresult⟩ :=
            Option.isSome_iff_exists.mp (hanswer.mpr ⟨hshows.1, hshows.2.1⟩)
          have hdone := (hshown verdict request_id _).mpr
            ⟨by rw [hresult]; rfl, hshows.2.2, rfl, rfl, result, hresult, rfl⟩
          have hbecomes := (hfair.truthful verdict request_id _ hdone).2
          rw [hleft, hsame] at hbecomes
          exact absurd hbecomes (not_becomes_self db _ _)
    · intro htrusted
      obtain ⟨hadmin, hright⟩ := htrusted verdict request_id hasked
      refine ⟨fun v id _ hbecomes => ?_, fun v id text hdone => ?_⟩
      · rcases hstore with ⟨hs, -, -⟩ | ⟨-, hsame⟩
        · exact congrArg some (hadmin hs)
        · rw [hleft, hsame] at hbecomes
          exact absurd hbecomes (not_becomes_self db v id)
      · obtain ⟨hsome, hedits, rfl, rfl, -⟩ := (hshown v id text).mp hdone
        obtain ⟨hreaches, hanswered⟩ := hanswer.mp hsome
        have hs := hright ⟨hreaches, hanswered, hedits⟩
        rcases hstore with ⟨-, hid, hdone⟩ | ⟨hno, -⟩
        · exact ⟨hid, hleft ▸ hdone.becomes⟩
        · exact absurd hs hno

theorem no_verdict_in_list (created_at : Nat → Datetime) (v : Verdict) (id : Int) (text : String) :
    .done v id text ∉ cmd_list created_at db := by
  intro h
  unfold cmd_list at h
  simp only at h
  split at h
  · simp at h
  · obtain ⟨req, -, hreq⟩ := List.mem_map.mp h
    cases hreq

theorem fair_iff (admin_chat : Int) (db : Db) (e : Event) :
    Fair admin_chat db e ↔ Trusted admin_chat db e := by
  cases e with
  | press p => exact fair_press
  | start chat =>
    refine iff_of_true ⟨fun v id _ h => absurd h (not_becomes_self db v id), fun v id text h => ?_⟩
      trivial
    simp [Event.handle] at h
  | list chat created_at =>
    refine iff_of_true ⟨fun v id _ h => absurd h (not_becomes_self db v id), fun v id text h => ?_⟩
      trivial
    exact absurd h (no_verdict_in_list created_at v id text)
  | elsewhere db' =>
    refine iff_of_true ⟨fun v id hno _ => absurd rfl (hno db'), fun v id text h => ?_⟩ trivial
    simp [Event.handle] at h

end

/-! ## Law -/

/-- A stranger sees the receipt in /list and presses its button. -/
def stranger_approves : Event :=
  .press ⟨7, "txn_approve_1", ⟨noon, true, true, true⟩, true, true⟩

end dr_boz.transactions_bot
