-- Law of the two ways to pay a top-up quote: by the online gateway, or by a
-- card transfer whose receipt an admin approves. The online way credits the
-- amount of the quote and marks the discount as used. The card way credits
-- what was paid, and marks nothing.
import DrBoz.ConfirmedPayments
import DrBoz.PaymentRuns
import DrBoz.Writers
import DrBoz.Lib.Runs

open keyed_table unit_of_work runs dr_boz.py dr_boz.models dr_boz.codex_capacity
open dr_boz.toman_billing dr_boz.views dr_boz.billing_runs dr_boz.effects dr_boz.calls
open dr_boz.payment_requests dr_boz.payment_runs dr_boz.bot_users dr_boz.payment_payloads
open dr_boz.bot_payments dr_boz.bot_purchases dr_boz.confirmed_payments dr_boz.commits
open dr_boz.writers

namespace dr_boz.topup_channels

/-! ## One quote -/

def paid_online (now : Datetime) (user : UserPreference) (credit_amount_toman : Int)
    (key : Option String) (metadata : Dict) (db : Db) : Db :=
  ((apply_toman_topup now user credit_amount_toman key metadata true).run (.opened db)).2.stored

/-- The card is chosen, the receipt is sent, and the request is approved. -/
def paid_by_card (later : Datetime) (sender : Sender) (quote : TopupQuote)
    (receipt_path : String) (caption note : Option String) (db : Db) : Db :=
  let x := (handle_card_receipt_photo sender (handle_topup_method_card true (some quote))
    (some receipt_path) caption).run (.opened db)
  match x.1 with
  | .ok (some req) =>
    ((approve_payment_request later req.id note).run (.opened x.2.stored)).2.stored
  | _ => x.2.stored

def paid (db : Db) (u : Nat) : Int := intOr0 (accountRow db u).paid_balance_toman

def discount_used (db : Db) (u : Nat) : Option Bool := (accountRow db u).first_topup_discount_used

/-- Both stores have the credit on the paid balance, and the same mark. -/
structure SameResult (db online card : Db) (u : Nat) (credit : Int) : Prop where
  online_paid : paid online u = paid db u + credit
  card_paid : paid card u = paid db u + credit
  mark : discount_used online u = discount_used card u

/-- No entry has the key. -/
def Fresh (key : Option String) (db : Db) : Prop :=
  ∀ k, key = some k → ∀ e ∈ db.ledger.rows, e.idempotency_key ≠ some k

section
variable {now later : Datetime} {db : Db} {sender : Sender} {u : UserPreference} {credit : Int}
variable {q : TopupQuote} {key : Option String}

theorem quote_nonneg {a : UserBillingAccount} {c : SubscriptionConfig}
    {r : Option UserSubscription} {n : Int} (h : topup_quote a c r n = .ok q) :
    0 ≤ q.credit_amount_toman := by
  unfold topup_quote at h
  simp only [bind, Except.bind] at h
  split at h
  · cases h
  · split at h
    · cases h
    · cases h
      exact positive_int_nonneg _ _

/-- Only an account without the mark is quoted a discount. -/
theorem quoted_discount {a : UserBillingAccount} {c : SubscriptionConfig}
    {r : Option UserSubscription} {n : Int} (h : topup_quote a c r n = .ok q)
    (hq : q.discount_applied = true) : a.first_topup_discount_used ≠ some true := by
  intro ha
  unfold topup_quote at h
  simp only [bind, Except.bind, ha, decide_true, Bool.not_true, Bool.and_false, if_false,
    Bool.false_eq_true] at h
  split at h
  · cases h
  · split at h
    · cases h
    · rename_i discount hd
      cases h
      have hzero : discount = 0 := by
        simp only [Int.cast_zero, zero_mul, ctx_zero, zero_div, round_toman_zero] at hd
        exact (Except.ok.inj hd).symm
      simp [hzero] at hq

/-- No entry is found under a fresh key. -/
theorem ledgerRow_of_fresh (h : Fresh key db) : ledgerRow db key = none := by
  cases hk : ledgerRow db key with
  | none => rfl
  | some e =>
    exfalso
    unfold ledgerRow at hk
    split at hk
    · rename_i htrue
      obtain ⟨hm, hp⟩ := Table.first_mem hk
      obtain ⟨k, hk'⟩ : ∃ k, key = some k := by
        cases key with
        | none => simp [truthyKey] at htrue
        | some k => exact ⟨k, rfl⟩
      exact h k hk' e hm (by simpa [hk'] using hp)
    · cases hk

/-- A top-up under a fresh key is on the books, if it is for more than zero. -/
theorem fresh_topup {s : Session Db} (hq : topupQuoteOf now s.view u.id credit = .ok q)
    (hkey : Fresh key s.view) (metadata : Dict) :
    let x := (apply_toman_topup now u credit key metadata true).run s
    (q.credit_amount_toman = 0 ∧ x.2.stored = s.stored) ∨
      0 < q.credit_amount_toman ∧ ∃ e, x.2.stored =
        post (withConfig (withAccount s.view u.id))
          (topped_up (accountRow s.view u.id) q) [e] := by
  intro x
  have h := topupRun now ⟨u, credit, key, metadata, true⟩ s
  change TopupRun now _ _ x.1 x.2 at h
  generalize x = y at h ⊢
  obtain ⟨r, s'⟩ := y
  simp only at h ⊢
  cases h with
  | raised e hq' =>
    rw [hq] at hq'
    cases hq'
  | replay q' e r hq' hk hr =>
    rw [ledgerRow_of_fresh hkey] at hk
    cases hk
  | refused q' r hq' hk hle hr =>
    rw [hq] at hq'
    cases hq'
    exact .inl ⟨le_antisymm hle (quote_nonneg hq), rfl⟩
  | credited q' e r hq' hk hpos hb hg hp hkeyed ha hr =>
    rw [hq] at hq'
    cases hq'
    exact .inr ⟨hpos, e, rfl⟩
  | conflict q' e hq' hkeyed ha =>
    exfalso
    refine ha fun k hk x hx hxk => hkey k ?_ x hx hxk
    exact hkeyed.symm.trans hk

theorem topped_up_row (db : Db) (n : Nat) (e : TomanLedgerEntry) :
    accountRow (post (withConfig (withAccount db n)) (topped_up (accountRow db n) q) [e]) n =
      topped_up (accountRow db n) q :=
  accountRow_post [e] (show (withConfig (withAccount db n)).accounts.first _ = _ from
      first_withAccount db n)
    (owner_topped_up (accountRow db n) q)

/-- The online payment of a fresh key. -/
theorem online_result (hq : topupQuoteOf now db u.id credit = .ok q) (hkey : Fresh key db)
    (metadata : Dict) :
    paid (paid_online now u credit key metadata db) u.id = paid db u.id + q.credit_amount_toman ∧
      discount_used (paid_online now u credit key metadata db) u.id =
        if q.discount_applied ∧ 0 < q.credit_amount_toman then some true
        else discount_used db u.id := by
  unfold paid discount_used paid_online
  rcases fresh_topup (s := .opened db) hq hkey metadata with ⟨hzero, hx⟩ | ⟨hpos, e, hx⟩
  · rw [hx, hzero]
    simp
  · rw [hx, Session.view_opened, topped_up_row]
    refine ⟨rfl, ?_⟩
    simp [topped_up, hpos]

theorem discount_needs_credit {a : UserBillingAccount} {c : SubscriptionConfig}
    {r : Option UserSubscription} {n : Int} (h : topup_quote a c r n = .ok q)
    (hq : q.discount_applied = true) : 0 < q.credit_amount_toman := by
  have hnonneg := quote_nonneg h
  by_contra hle
  have hzero : q.credit_amount_toman = 0 := by omega
  unfold topup_quote at h
  simp only [bind, Except.bind] at h
  split at h
  · cases h
  · split at h
    · cases h
    · rename_i discount hd
      cases h
      simp only at hzero
      rw [hzero, min_eq_left (positive_int_nonneg _ _)] at hd
      simp only [ite_self, Int.cast_zero, zero_mul, ctx_zero, zero_div, round_toman_zero] at hd
      have hdiscount : discount = 0 := (Except.ok.inj hd).symm
      simp [hdiscount] at hq

/-- The request that a receipt leaves. -/
def receiptRequest (db : Db) (user_id : Nat) (amount_toman : Int) (receipt_path : String)
    (caption : Option String) : PaymentRequest where
  id := db.payment_requests.nextKey
  user_id
  amount_toman
  receipt_image_path := receipt_path
  description := strOr caption none

/-- The store with the receipt of a known user. -/
def withReceipt (db : Db) (v : UserPreference) (r : PaymentRequest) : Db :=
  { putUser db v with payment_requests := db.payment_requests.insert { r with id := 0 } }

/-- A receipt for an amount becomes a pending request. -/
theorem run_receipt (hu : userOf db sender.id = some u) {amount : Int} (hne : amount ≠ 0)
    (receipt_path : String) (caption : Option String) :
    let r := receiptRequest db u.id amount receipt_path caption
    (handle_card_receipt_photo sender (some amount) (some receipt_path) caption).run (.opened db) =
      (.ok (some r),
        .opened (withReceipt db (seen u sender.first_name sender.username) r)) := by
  have hamount : orDefault (some amount) 0 = amount := if_neg hne
  unfold handle_card_receipt_photo
  rw [hamount, if_neg hne]
  simp only [Prog.run_bind, run_get_user hu, Prog.continueWith_ok, Prog.run_read,
    Session.view_opened, Prog.run_flush, seen_id]
  rfl

theorem get_receipt (db : Db) (v : UserPreference) (n : Nat) (amount : Int)
    (receipt_path : String) (caption : Option String) :
    let r := receiptRequest db n amount receipt_path caption
    (withReceipt db v r).payment_requests.get r.id = some r :=
  Table.get_insert_new (Table.accepts_of_no_unique rfl)

theorem accountRow_settle (db : Db) (req : PaymentRequest) (act : AdminAction) (n : Nat) :
    accountRow (settleIn db req act) n = accountRow db n := rfl

/-- The approval of a pending top-up request of a user credits its amount and
leaves the mark. -/
theorem approved_row {d : Db} {v : UserPreference} {r : PaymentRequest}
    (hr : d.payment_requests.get r.id = some r) (hst : r.status = some "pending")
    (hp : plan_of_request r = none) (hv : d.users.get r.user_id = some v)
    (now : Datetime) (note : Option String) :
    accountRow ((approve_payment_request now r.id note).run (.opened d)).2.stored v.id =
      paid_in (accountRow d v.id) r.amount_toman := by
  obtain ⟨act, hx⟩ := run_approve_topup (s := .opened d) now v note hr
  have hrun : (approve_payment_request now r.id note).run (.opened d) =
      (approve_topup now r v note).run (.opened d) := by
    unfold approve_payment_request
    simp only [Prog.run_bind]
    rcases run_pending_request r.id (.opened d) with ⟨r', hr', -, hrun⟩ | ⟨e, -, hno⟩
    · rw [Session.view_opened, hr] at hr'
      cases hr'
      rw [hrun]
      simp only [Prog.continueWith_ok, Prog.run_bind, Prog.run_read, Session.view_opened, hv, hp]
    · exact absurd hst (hno r hr)
  rw [hrun, hx]
  exact (accountRow_settle _ _ _ _).trans
    (accountRow_post _ (first_withAccount d v.id) (owner_paid_in _ r.amount_toman))

/-- The card way puts on the paid balance what was due, and marks nothing. -/
theorem card_result (hu : userOf db sender.id = some u) (later : Datetime) (receipt_path : String)
    (caption note : Option String) :
    let card := paid_by_card later sender q receipt_path caption note db
    paid card u.id = paid db u.id + q.payment_due_toman ∧
      discount_used card u.id = discount_used db u.id := by
  intro card
  by_cases hdue : q.payment_due_toman = 0
  · have hcard : card = db := by
      simp only [card, paid_by_card, handle_topup_method_card, hdue, handle_card_receipt_photo]
      rfl
    rw [hcard, hdue, add_zero]
    exact ⟨rfl, rfl⟩
  · have hrun := run_receipt hu hdue receipt_path caption
    have hget : (putUser db (seen u sender.first_name sender.username)).users.get u.id =
        some (seen u sender.first_name sender.username) := by
      rw [← seen_id u sender.first_name sender.username]
      exact Table.get_put_self (get_userOf hu) ⟨seen_id _ _ _, seen_telegram _ _ _⟩
    have hrow := approved_row (get_receipt db (seen u sender.first_name sender.username)
      u.id q.payment_due_toman receipt_path caption) rfl rfl hget later note
    have hcard : accountRow card u.id = paid_in (accountRow db u.id) q.payment_due_toman := by
      simp only [card, paid_by_card, handle_topup_method_card, if_true, hrun]
      rw [seen_id] at hrow
      exact hrow
    unfold paid discount_used
    rw [hcard]
    exact ⟨rfl, rfl⟩

/-- The two ways agree on a quote exactly when it asks for its credit and
gives no discount. -/
theorem same_result_iff (hu : userOf db sender.id = some u)
    (hq : topupQuoteOf now db u.id credit = .ok q) (hkey : Fresh key db) (metadata : Dict)
    (receipt_path : String) (caption note : Option String) :
    SameResult db (paid_online now u credit key metadata db)
        (paid_by_card later sender q receipt_path caption note db) u.id q.credit_amount_toman ↔
      q.payment_due_toman = q.credit_amount_toman ∧ q.discount_applied = false := by
  obtain ⟨ho, homark⟩ := online_result hq hkey metadata
  obtain ⟨hc, hcmark⟩ := card_result (q := q) hu later receipt_path caption note
  constructor
  · intro h
    have hpaid := h.card_paid
    have hmark := h.mark
    rw [hc] at hpaid
    rw [homark, hcmark] at hmark
    refine ⟨by omega, ?_⟩
    by_contra happlied
    rw [Bool.not_eq_false] at happlied
    rw [if_pos ⟨happlied, discount_needs_credit hq happlied⟩] at hmark
    exact quoted_discount hq happlied hmark.symm
  · rintro ⟨hdue, happlied⟩
    refine ⟨ho, by rw [hc, hdue], ?_⟩
    rw [homark, hcmark, happlied]
    simp

end

/-! ## The mark stays -/

/-- The account of the user has used its discount. -/
def Marked (u : Nat) (db : Db) : Prop :=
  ∃ a ∈ db.accounts.rows, a.user_id = u ∧ a.first_topup_discount_used = some true

/-- The change takes no mark away. -/
def keeps_mark : Change → Prop
  | .setAccount o n =>
    n.first_topup_discount_used = o.first_topup_discount_used ∨
      n.first_topup_discount_used = some true
  | _ => True

theorem marked_row {u : Nat} {db : Db} : Marked u db ↔ discount_used db u = some true := by
  constructor
  · rintro ⟨a, ha, hu, hmark⟩
    have hfirst : db.accounts.first (fun a => a.user_id = u) = some a := by
      cases hf : db.accounts.first fun a => a.user_id = u with
      | none =>
        have := Table.first_eq_none.mp hf a ha
        simp [hu] at this
      | some b =>
        obtain ⟨hb, hbu⟩ := Table.first_mem hf
        rw [db.accounts.row_of_unique ha hb (congrArg some hu)
          (congrArg some (by simpa using hbu))]
    unfold discount_used
    rw [accountRow_eq hfirst]
    exact hmark
  · intro h
    unfold discount_used accountRow at h
    cases hf : db.accounts.first fun a => a.user_id = u with
    | none =>
      rw [hf] at h
      simp at h
    | some a =>
      rw [hf] at h
      obtain ⟨ha, hu⟩ := Table.first_mem hf
      exact ⟨a, ha, by simpa using hu, h⟩

theorem marked_change {u : Nat} {db : Db} {c : Change} (hc : keeps_mark c) (h : Marked u db) :
    Marked u (db.apply c) := by
  obtain ⟨a, ha, hu, hmark⟩ := h
  cases c with
  | addAccount x => exact ⟨a, Table.mem_insert_of_mem ha, hu, hmark⟩
  | setAccount o n =>
    by_cases hid : a.id = n.id
    · refine ⟨.merge o n a, ?_, hu, ?_⟩
      · simp only [Db.apply]
        refine List.mem_map.mpr ⟨a, ha, ?_⟩
        exact if_pos hid
      · change col _ _ a.first_topup_discount_used = _
        unfold col
        split
        · exact hmark
        · rename_i hne
          rcases hc with hc | hc
          · exact absurd hc hne
          · exact hc
    · refine ⟨a, ?_, hu, hmark⟩
      simp only [Db.apply]
      exact List.mem_map.mpr ⟨a, ha, if_neg hid⟩
  | addUser | setTelegramId | setUser | addLedger | addSubscription | setSubscription
  | deleteSubscription | setPool | addConfig | addRedemption | setRedemption | addPaymentRequest
  | setPaymentRequest | addAdminAction | addWallet | setWallet | addCreditLedger | addReferralEvent
  | addClick | setClick | addStarterConfig | setStarterConfig => exact ⟨a, ha, hu, hmark⟩

theorem looks_keeps_mark : Looks keeps_mark := ⟨fun _ => trivial, trivial⟩

theorem subscribes_keeps_mark : Subscribes keeps_mark :=
  ⟨fun _ => trivial, fun _ _ => trivial, fun _ => trivial, fun _ _ => trivial⟩

theorem greets_keeps_mark : Greets keeps_mark where
  toLooks := looks_keeps_mark
  add _ := trivial
  set _ _ := trivial
  entry _ := trivial
  user _ _ := trivial
  welcomed _ _ := .inl rfl
  starter _ _ _ _ := trivial
  added _ := trivial
  seen _ _ _ := trivial

/-- The program takes no mark away. -/
abbrev KeepsMark {α : Type} (x : Tx α) : Prop := x.Writes keeps_mark

theorem topped_up_keeps_mark (a : UserBillingAccount) (q : TopupQuote) :
    keeps_mark (.setAccount a (topped_up a q)) := by
  by_cases h : q.discount_applied = true
  · exact .inr (if_pos h)
  · exact .inl (if_neg h)

theorem sales_keeps_mark : Sales keeps_mark where
  toLooks := looks_keeps_mark
  toSubscribes := subscribes_keeps_mark
  spent _ _ := .inl rfl
  bought _ _ _ _ _ := .inl rfl
  topped_up := topped_up_keeps_mark
  entry _ := trivial

theorem ask_keeps_mark (now : Datetime) (sender : Sender) (amount_toman : Int) :
    KeepsMark (ask_toman_topup now sender amount_toman) := by
  unfold ask_toman_topup
  refine (writes_get_user greets_keeps_mark _ _ _).bind fun user => ?_
  refine Prog.writes_ite (Prog.writes_pure _) ?_
  exact (writes_quote looks_keeps_mark _ _ _).bind fun _ => Prog.writes_pure _

theorem receipt_keeps_mark (sender : Sender) (amount : Option Int) (path caption : Option String) :
    KeepsMark (handle_card_receipt_photo sender amount path caption) := by
  unfold handle_card_receipt_photo
  refine Prog.writes_ite (Prog.writes_pure _) ?_
  cases path with
  | none => exact Prog.writes_pure _
  | some path =>
    refine (writes_get_user greets_keeps_mark _ _ _).bind fun user => ?_
    refine (Prog.writes_read _).bind fun id => ?_
    refine (Prog.writes_flush trivial).bind fun _ => ?_
    exact Prog.writes_publish.bind fun _ => Prog.writes_pure _

theorem pending_keeps_mark (id : Nat) : KeepsMark (pending_request id) := by
  unfold pending_request
  refine (Prog.writes_read _).bind fun req => ?_
  cases req with
  | none => exact Prog.writes_throw _
  | some req => exact Prog.writes_ite (Prog.writes_throw _) (Prog.writes_pure _)

theorem reject_keeps_mark (now : Datetime) (id : Nat) (note : String) :
    KeepsMark (reject_payment_request now id note) := by
  unfold reject_payment_request record_admin_action
  refine (pending_keeps_mark id).bind fun req => ?_
  refine (Prog.writes_flush trivial).bind fun _ => ?_
  refine (Prog.writes_flush trivial).bind fun _ => ?_
  exact Prog.writes_publish.bind fun _ => Prog.writes_pure _

theorem approve_keeps_mark (now : Datetime) (id : Nat) (note : Option String) :
    KeepsMark (approve_payment_request now id note) := by
  unfold approve_payment_request
  refine (pending_keeps_mark id).bind fun req => ?_
  refine (Prog.writes_read _).bind fun user => ?_
  cases user with
  | none => exact Prog.writes_throw _
  | some user =>
    cases plan_of_request req with
    | none =>
      unfold approve_topup record_admin_action
      refine (writes_account user looks_keeps_mark.account).bind fun account => ?_
      refine (Prog.writes_flush (.inl rfl)).bind fun _ => ?_
      refine (writes_add_ledger trivial).bind fun _ => ?_
      refine (Prog.writes_flush trivial).bind fun _ => ?_
      refine (Prog.writes_flush trivial).bind fun _ => ?_
      exact Prog.writes_publish.bind fun _ => Prog.writes_pure _
    | some plan_id =>
      unfold approve_subscription record_admin_action
      refine (Prog.writes_read _).bind fun plan => ?_
      cases plan with
      | none => exact Prog.writes_throw _
      | some plan =>
        refine (writes_sold sales_keeps_mark _ _ _ _ _ _ _ _).bind fun result => ?_
        refine Prog.writes_ite (Prog.writes_throw _) ?_
        refine (Prog.writes_flush trivial).bind fun _ => ?_
        refine (Prog.writes_flush trivial).bind fun _ => ?_
        exact Prog.writes_publish.bind fun _ => Prog.writes_pure _

theorem payment_keeps_mark (now : Datetime) (sender : Sender) (payment : Payment) :
    KeepsMark (handle_successful_payment now sender payment) := by
  rcases writes_payment sales_keeps_mark now sender payment with ⟨answer, h⟩ | h
  · rw [h]
    exact Prog.writes_pure _
  · exact h.writes greets_keeps_mark

theorem marked_program {α : Type} {u : Nat} {x : Tx α} (hx : KeepsMark x) {db : Db}
    (h : Marked u db) : Marked u (x.run (.opened db)).2.stored :=
  (hx.keeps (fun _ _ hc => marked_change hc) ⟨h, h⟩).1

/-! ## Payments of both channels -/

/-- What the bot keeps of the conversation with a user. -/
structure Conversation where
  pending_toman_topup_quote : Option TopupQuote := none
  pending_card_amount_toman : Option Int := none
  /-- The quote that the amount was taken from. -/
  card_quote : Option TopupQuote := none

/-- The store, the conversations, and for each request of a card transfer the
quote that it pays. -/
structure World where
  store : Db
  conversation : Int → Conversation
  card_quotes : List (Nat × TopupQuote)

def World.say (w : World) (uid : Int) (c : Conversation) : Int → Conversation :=
  fun i => if i = uid then c else w.conversation i

/-- A user types an amount, chooses the card transfer or sends a receipt, an
admin decides on a request or changes the configuration, and the gateway
confirms a payment. -/
inductive Event where
  | ask (now : Datetime) (sender : Sender) (amount_toman : Int)
  | choose_card (card_listed : Bool) (sender : Sender)
  | send_receipt (sender : Sender) (receipt_path caption : Option String)
  | approve (now : Datetime) (request_id : Nat) (note : Option String)
  | reject (now : Datetime) (request_id : Nat) (note : String)
  | confirm (now : Datetime) (sender : Sender) (payment : Payment)
  | configure (configs : Table SubscriptionConfig) (plans : Table SubscriptionPlan)
      (pools : Table CapacityPool)

/-- A new amount or a new choice clears what was pending before. -/
def Event.run (w : World) : Event → World
  | .ask now sender amount_toman =>
    let x := (ask_toman_topup now sender amount_toman).run (.opened w.store)
    { w with
      store := x.2.stored
      conversation := w.say sender.id { pending_toman_topup_quote := x.1.toOption.join } }
  | .choose_card card_listed sender =>
    match (w.conversation sender.id).pending_toman_topup_quote,
      handle_topup_method_card card_listed
        (w.conversation sender.id).pending_toman_topup_quote with
    | some quote, some amount =>
      { w with
        conversation := w.say sender.id
          { pending_card_amount_toman := some amount, card_quote := some quote } }
    | _, _ => w
  | .send_receipt sender receipt_path caption =>
    let x := (handle_card_receipt_photo sender
      (w.conversation sender.id).pending_card_amount_toman receipt_path caption).run
      (.opened w.store)
    match x.1 with
    | .ok (some req) =>
      { store := x.2.stored
        conversation := w.say sender.id {}
        card_quotes := w.card_quotes ++
          ((w.conversation sender.id).card_quote.map fun quote => (req.id, quote)).toList }
    | _ => { w with store := x.2.stored }
  | .approve now request_id note =>
    { w with
      store := ((approve_payment_request now request_id note).run (.opened w.store)).2.stored }
  | .reject now request_id note =>
    { w with
      store := ((reject_payment_request now request_id note).run (.opened w.store)).2.stored }
  | .confirm now sender payment => { w with store := confirmed now sender payment w.store }
  | .configure configs plans pools => { w with store := { w.store with configs, plans, pools } }

/-- Nothing is pending. -/
def started (db : Db) : World := ⟨db, fun _ => {}, []⟩

/-- The event pays a discounted quote of the user, by one of the channels. -/
def PaysDiscounted (u : Nat) (w : World) : Event → Prop
  | .confirm now sender payment => ∃ p v d q,
      checked_payload sender payment = .ok (.toman_topup p) ∧
      visitor w.store sender.id sender.first_name sender.username = some (v, d) ∧ v.id = u ∧
      confirmed_payments.Credits now d u p (topup_key now sender p payment) ∧
      topupQuoteOf now d u p.credit_amount_toman = .ok q ∧ q.discount_applied = true
  | .approve _ request_id _ => ∃ req q,
      w.store.payment_requests.get request_id = some req ∧ req.status = some "pending" ∧
      req.user_id = u ∧ (request_id, q) ∈ w.card_quotes ∧ q.discount_applied = true
  | _ => False

/-- A quote that the card transfer is chosen for gives no discount. -/
def PlainByCard (w : World) : Event → Prop
  | .choose_card _ sender =>
    ∀ q, (w.conversation sender.id).pending_toman_topup_quote = some q →
      q.discount_applied = false
  | _ => True

/-- No discounted quote is on its way by card. -/
structure PlainCards (w : World) : Prop where
  chosen : ∀ uid q, (w.conversation uid).card_quote = some q → q.discount_applied = false
  sent : ∀ i q, (i, q) ∈ w.card_quotes → q.discount_applied = false

section
variable {w : World} {u : Nat}

theorem plain_event (e : Event) (h : PlainCards w) (he : PlainByCard w e) :
    PlainCards (e.run w) := by
  have hclear : ∀ uid c q, c.card_quote = none →
      ∀ i, (w.say uid c i).card_quote = some q → q.discount_applied = false := by
    intro uid c q hc i hi
    unfold World.say at hi
    split at hi
    · rw [hc] at hi
      cases hi
    · exact h.chosen i q hi
  cases e with
  | ask now sender amount_toman => exact ⟨fun i q hi => hclear _ _ q rfl i hi, h.sent⟩
  | choose_card card_listed sender =>
    simp only [Event.run]
    split
    · rename_i quote amount hquote _
      refine ⟨fun i q hi => ?_, h.sent⟩
      simp only [World.say] at hi
      split at hi
      · cases hi
        exact he _ hquote
      · exact h.chosen i q hi
    · exact h
  | send_receipt sender receipt_path caption =>
    simp only [Event.run]
    split
    · rename_i req hreq
      refine ⟨fun i q hi => hclear _ _ q rfl i hi, fun i q hi => ?_⟩
      rcases List.mem_append.mp hi with hi | hi
      · exact h.sent i q hi
      · obtain ⟨quote, hquote, hpair⟩ := Option.map_eq_some_iff.mp (Option.mem_toList.mp hi)
        cases hpair
        exact h.chosen _ _ hquote
    · exact ⟨h.chosen, h.sent⟩
  | approve | reject | confirm | configure =>
    simp only [Event.run]
    exact ⟨h.chosen, h.sent⟩

theorem marked_confirmed {db : Db} (now : Datetime) (sender : Sender) (payment : Payment)
    (h : Marked u db) : Marked u (confirmed now sender payment db) := by
  have hx := payment_keeps_mark now sender payment
  exact marked_program hx h

theorem marked_event (e : Event) (h : Marked u w.store) : Marked u (e.run w).store := by
  cases e with
  | ask now sender amount_toman =>
    simp only [Event.run]
    exact marked_program (ask_keeps_mark now sender amount_toman) h
  | choose_card card_listed sender =>
    simp only [Event.run]
    split
    · exact h
    · exact h
  | send_receipt sender receipt_path caption =>
    have hx := marked_program (receipt_keeps_mark sender
      (w.conversation sender.id).pending_card_amount_toman receipt_path caption) h
    simp only [Event.run]
    split
    · exact hx
    · exact hx
  | approve now request_id note =>
    simp only [Event.run]
    exact marked_program (approve_keeps_mark now request_id note) h
  | reject now request_id note =>
    simp only [Event.run]
    exact marked_program (reject_keeps_mark now request_id note) h
  | confirm now sender payment =>
    simp only [Event.run]
    exact marked_confirmed now sender payment h
  | configure configs plans pools => exact h

/-- A confirmed payment that is discounted finds no mark and leaves one. -/
theorem discounted_confirm {now : Datetime} {sender : Sender} {payment : Payment} {db d : Db}
    {p : TomanTopupPayload} {v : UserPreference} {q : TopupQuote}
    (hp : checked_payload sender payment = .ok (.toman_topup p))
    (hv : visitor db sender.id sender.first_name sender.username = some (v, d))
    (hc : confirmed_payments.Credits now d v.id p (topup_key now sender p payment))
    (hq : topupQuoteOf now d v.id p.credit_amount_toman = .ok q)
    (hd : q.discount_applied = true) :
    ¬Marked v.id db ∧ Marked v.id (confirmed now sender payment db) := by
  have hget := run_visitor hv
  constructor
  · intro hmark
    have hfound := marked_program (writes_get_user greets_keeps_mark sender.id sender.first_name
      sender.username) hmark
    rw [hget] at hfound
    exact quoted_discount hq hd (marked_row.mp hfound)
  · obtain ⟨q', hq', hdue⟩ := hc.terms
    rw [hq] at hq'
    cases hq'
    have hlooked : Looked v.id d (withConfig (withAccount d v.id)) :=
      (looked_account _ _).trans (looked_config _ _)
    have hfresh : Fresh (some (topup_key now sender p payment))
        (withConfig (withAccount d v.id)) := by
      intro k hk e he
      cases hk
      exact hc.fresh e he
    rw [marked_row]
    unfold confirmed handle_successful_payment discount_used
    simp only [hp, handle_successful_toman_topup_payment, Prog.run_bind, hget, Prog.continueWith_ok,
      run_quote_toman_topup_payment, Session.view_opened, Session.stored_opened, hq,
      not_not.mpr hdue, if_false]
    rw [Prog.session_continue]
    rcases fresh_topup (s := ⟨d, withConfig (withAccount d v.id)⟩)
      ((quote_looked hlooked now p.credit_amount_toman).trans hq) hfresh _ with
      ⟨hzero, -⟩ | ⟨-, e, hx⟩
    · exact absurd hzero (discount_needs_credit hq hd).ne'
    · rw [hx, topped_up_row]
      exact if_pos hd

/-- A discounted payment finds no mark and leaves one. -/
theorem discounted_event (e : Event) (h : PlainCards w) (hpays : PaysDiscounted u w e) :
    ¬Marked u w.store ∧ Marked u (e.run w).store := by
  cases e with
  | confirm now sender payment =>
    obtain ⟨p, v, d, q, hp, hv, rfl, hc, hq, hd⟩ := hpays
    simp only [Event.run]
    exact discounted_confirm hp hv hc hq hd
  | approve now request_id note =>
    obtain ⟨req, q, -, -, -, hmem, hd⟩ := hpays
    rw [h.sent _ _ hmem] at hd
    cases hd
  | ask | choose_card | send_receipt | reject | configure => exact hpays.elim

end

/-! ## Law -/

/-- LAW: Paying a quote online and paying it by card give the same result if
and only if the quote asks for its credit and gives no discount. And in every
run in which no discounted quote is paid by card, at most one discounted quote
of a user is paid, by whichever channel. -/
theorem the_channels_agree_iff_the_quote_is_plain (db : Db) :
    (∀ (now later : Datetime) (sender : Sender) (u : UserPreference) (credit : Int)
        (q : TopupQuote) (key : Option String) (metadata : Dict) (receipt_path : String)
        (caption note : Option String),
      userOf db sender.id = some u → topupQuoteOf now db u.id credit = .ok q → Fresh key db →
      (SameResult db (paid_online now u credit key metadata db)
          (paid_by_card later sender q receipt_path caption note db) u.id q.credit_amount_toman ↔
        q.payment_due_toman = q.credit_amount_toman ∧ q.discount_applied = false)) ∧
    ∀ (es : List Event) (u : Nat), Each Event.run PlainByCard (started db) es →
      AtMostOnce Event.run (PaysDiscounted u) (started db) es := by
  constructor
  · intro now later sender u credit q key metadata receipt_path caption note hu hq hkey
    exact same_result_iff hu hq hkey metadata receipt_path caption note
  · intro es u hplain
    refine at_most_once (Marked u ·.store) (I := PlainCards) ?_ ?_ ?_ ?_ ?_ hplain
    · exact fun w e hw he => plain_event e hw he
    · exact fun w e hw _ hpays => (discounted_event e hw hpays).1
    · exact fun w e hw _ hpays => (discounted_event e hw hpays).2
    · exact fun w e _ _ hmark => marked_event e hmark
    · exact ⟨fun _ _ h => by simp [started] at h, fun _ _ h => by simp [started] at h⟩

/-- The quote for 100000 Toman at half the price. -/
def half_price : TopupQuote := ⟨100000, 125000, 62500, 62500, true, 100000, 25, 50⟩

/-- A quote is asked for and paid by card. -/
def by_card (request_id : Nat) : List Event :=
  [.ask noon buyer 100000, .choose_card true buyer, .send_receipt buyer (some "receipt.jpg") none,
    .approve noon request_id none]

/-- The card way credits what was paid, and the next quote is at half the
price again. -/
theorem the_discount_is_lost_and_kept_by_card :
    (¬∀ (now later : Datetime) (db : Db) (sender : Sender) (u : UserPreference) (credit : Int)
        (q : TopupQuote) (key : Option String) (metadata : Dict) (receipt_path : String)
        (caption note : Option String),
      userOf db sender.id = some u → topupQuoteOf now db u.id credit = .ok q → Fresh key db →
      SameResult db (paid_online now u credit key metadata db)
        (paid_by_card later sender q receipt_path caption note db) u.id q.credit_amount_toman) ∧
    ¬∀ (db : Db) (es : List Event) (u : Nat),
      AtMostOnce Event.run (PaysDiscounted u) (started db) es := by
  constructor
  · intro h
    have hpaid := (h noon noon former_subscriber buyer customer 100000 half_price none []
      "receipt.jpg" none none (by decide +kernel) (by decide +kernel) (by simp [Fresh])).card_paid
    revert hpaid
    decide +kernel
  · intro h
    have hpays : ∀ (es : List Event) (id : Nat) (req : PaymentRequest),
        (after Event.run (started former_subscriber) es).store.payment_requests.get id =
          some req →
        req.status = some "pending" ∧ req.user_id = 1 →
        (id, half_price) ∈ (after Event.run (started former_subscriber) es).card_quotes →
        PaysDiscounted 1 (after Event.run (started former_subscriber) es) (.approve noon id none) :=
      fun es id req hreq hst hq => ⟨req, half_price, hreq, hst.1, hst.2, hq, rfl⟩
    refine h former_subscriber (by_card 1 ++ by_card 2) 1 ((by_card 1).take 3)
      (.approve noon 1 none) ((by_card 2).take 3) (.approve noon 2 none) [] rfl ?_ ?_
    · exact hpays _ 1 (receiptRequest former_subscriber 1 62500 "receipt.jpg" none)
        (by decide +kernel) (by decide +kernel) (by decide +kernel)
    · exact hpays _ 2
        { receiptRequest former_subscriber 1 62500 "receipt.jpg" none with id := 2 }
        (by decide +kernel) (by decide +kernel) (by decide +kernel)

/-- No markup, and nothing bought before: the quote is plain. -/
def plain_shop : Db :=
  { shop with
    configs := Table.empty.insert { defaultConfig with api_markup_percent := some 0 } }

def plain_quote : TopupQuote := ⟨100000, 100000, 100000, 0, false, 0, 0, 50⟩

/-- A plain quote gives the same result by both channels. -/
theorem a_plain_quote_is_paid_alike :
    SameResult plain_shop (paid_online noon customer 100000 none [] plain_shop)
        (paid_by_card noon buyer plain_quote "receipt.jpg" none none plain_shop) 1 100000 ∧
      AtMostOnce Event.run (PaysDiscounted 1) (started plain_shop) (by_card 1) := by
  constructor
  · exact ((the_channels_agree_iff_the_quote_is_plain plain_shop).1 noon noon buyer customer
      100000 plain_quote none [] "receipt.jpg" none none (by decide +kernel) (by decide +kernel)
      (by simp [Fresh])).mpr ⟨rfl, rfl⟩
  · refine (the_channels_agree_iff_the_quote_is_plain plain_shop).2 (by_card 1) 1
      ⟨trivial, fun q hq => ?_, trivial, trivial, trivial⟩
    have hplain : ((Event.run (started plain_shop) (.ask noon buyer 100000)).conversation
        buyer.id).pending_toman_topup_quote = some plain_quote := by decide +kernel
    rw [hplain] at hq
    cases hq
    rfl

end dr_boz.topup_channels
