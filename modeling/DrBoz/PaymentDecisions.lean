-- Admins who decide on one pending payment request at the same time. The
-- status is read at the start, and nothing reads it again before the commit.
-- An approval of the subscription kind commits the purchase first, and the
-- status after it.
import DrBoz.Calls
import DrBoz.Lib.Interleaving

open keyed_table unit_of_work dr_boz.py dr_boz.models dr_boz.codex_capacity dr_boz.toman_billing
open dr_boz.payment_requests dr_boz.views dr_boz.purchase_runs dr_boz.payment_runs dr_boz.calls

namespace dr_boz.payment_decisions

/-- An admin's decision on a request. -/
inductive Decision where
  | approve (now : Datetime) (admin_note : Option String)
  | reject (now : Datetime) (admin_note : String)

def Decision.prog (request_id : Nat) : Decision → Tx Unit
  | .approve now note => (Call.approve request_id note).prog now
  | .reject now note => (Call.reject request_id note).prog now

/-- The entry pays the request out: a manual payment that names it, or the
entry under the key of its purchase. -/
def pays_out (req : PaymentRequest) (e : TomanLedgerEntry) : Bool :=
  match plan_of_request req with
  | none =>
    e.entry_type = "manual_payment" &&
      e.metadata_json.get "payment_request_id" = some (Scalar.int req.id)
  | some plan_id => e.idempotency_key = some (manual_key req.user_id plan_id req.id)

/-- How often the request was paid out. -/
def payouts (req : PaymentRequest) (db : Db) : Nat := db.ledger.count (pays_out req)

def status (req : PaymentRequest) (db : Db) : Option String :=
  (db.payment_requests.get req.id).bind (·.status)

/-- What the request was for has arrived: its amount on the paid balance, or
one more subscription. -/
def Credited (req : PaymentRequest) (db db' : Db) : Prop :=
  match plan_of_request req with
  | none =>
    intOr0 (accountRow db' req.user_id).paid_balance_toman =
      intOr0 (accountRow db req.user_id).paid_balance_toman + req.amount_toman
  | some _ => db'.subscriptions.rows.length = db.subscriptions.rows.length + 1

/-- Nothing on the books has changed. -/
structure SameBooks (db db' : Db) : Prop where
  accounts : db'.accounts = db.accounts
  ledger : db'.ledger = db.ledger
  subscriptions : db'.subscriptions = db.subscriptions

/-- What the admins promise for a request that was pending in `db`. -/
structure SettledOnce (req : PaymentRequest) (db db' : Db) : Prop where
  once : payouts req db' ≤ 1
  rejected : status req db' = some "rejected" → payouts req db' = 0
  approved : 0 < payouts req db' → status req db' = some "approved"
  unpaid : payouts req db' = 0 → SameBooks db db'
  paid : 0 < payouts req db' → Credited req db db'

/-! ## One decision after the other -/

/-- Where a request can be, when the decisions run one after the other. -/
inductive Outcome (req : PaymentRequest) (db : Db) (db' : Db) : Prop where
  | pending (hr : db'.payment_requests.get req.id = some req) (hb : SameBooks db db')
  | rejected (r : PaymentRequest) (hr : db'.payment_requests.get req.id = some r)
      (hs : r.status = some "rejected") (hb : SameBooks db db')
  | approved (r : PaymentRequest) (hr : db'.payment_requests.get req.id = some r)
      (hs : r.status = some "approved") (hp : payouts req db' = 1) (hc : Credited req db db')

section
variable {req : PaymentRequest} {db db' : Db}

theorem SameBooks.refl (db : Db) : SameBooks db db := ⟨rfl, rfl, rfl⟩

theorem SameBooks.payouts (h : SameBooks db db') : payouts req db' = payouts req db := by
  unfold payment_decisions.payouts
  rw [h.ledger]

theorem settled_once (h0 : payouts req db = 0) (h : Outcome req db db') :
    SettledOnce req db db' := by
  cases h with
  | pending hr hb =>
    have hp : payouts req db' = 0 := hb.payouts.trans h0
    refine ⟨by omega, fun _ => hp, fun h => ?_, fun _ => hb, fun h => ?_⟩ <;> omega
  | rejected r hr hs hb =>
    have hp : payouts req db' = 0 := hb.payouts.trans h0
    refine ⟨by omega, fun _ => hp, fun h => ?_, fun _ => hb, fun h => ?_⟩ <;> omega
  | approved r hr hs hp hc =>
    have hstatus : status req db' = some "approved" := by
      unfold status
      rw [hr]
      exact hs
    refine ⟨by omega, fun h => ?_, fun _ => hstatus, fun h => ?_, fun _ => hc⟩
    · rw [hstatus] at h
      simp at h
    · omega

/-- A decision finds the request as it was, or changes nothing. -/
theorem Outcome.found {r : PaymentRequest} (h : Outcome req db db')
    (hr : db'.payment_requests.get req.id = some r) (hst : r.status = some "pending") :
    r = req ∧ SameBooks db db' := by
  cases h with
  | pending hr' hb =>
    rw [hr'] at hr
    exact ⟨(Option.some.inj hr).symm, hb⟩
  | rejected r' hr' hs hb =>
    rw [hr'] at hr
    cases hr
    rw [hs] at hst
    simp at hst
  | approved r' hr' hs hp hc =>
    rw [hr'] at hr
    cases hr
    rw [hs] at hst
    simp at hst

/-- The settled row is found under the key of the request. -/
theorem get_settled {t : Db} (now : Datetime) (st : String) (note : Option String)
    (act : AdminAction) (h : t.payment_requests.get req.id = some req) :
    (settleIn t (settled req now st note) act).payment_requests.get req.id =
      some (settled req now st note) :=
  Table.get_put_self h ⟨rfl, rfl⟩

/-- A rejection. -/
theorem outcome_of_reject {now : Datetime} {note : String} {t : Db}
    {r : Except PyError PaymentRequest} {s' : Session Db} (ht : Outcome req db t)
    (h : RejectRun now req.id note (.opened t) r s') : Outcome req db s'.stored := by
  cases h with
  | kept e => exact ht
  | rejected r act hr hst =>
    obtain ⟨rfl, hb⟩ := ht.found hr hst
    exact .rejected _ (get_settled now "rejected" (some note) act hr) rfl
      ⟨hb.accounts, hb.ledger, hb.subscriptions⟩

/-- A refused purchase commits nothing. -/
theorem stored_of_refused {now : Datetime} {c : PurchaseCall} {s s' : Session Db}
    {r : Except PyError PurchaseTomanSubscriptionResult} (h : PurchaseRun now c s r s')
    (hno : ∀ r', r = .ok r' → r'.ok = false) : s'.stored = s.stored := by
  cases h with
  | replay | active_exists | unpaid | end_raised | no_pool | conflict => rfl
  | bought t pool e₁ e₂ r hk ha hu ht hp he h1 h2 hr =>
    have := hno r rfl
    rw [hr] at this
    cases this

/-- The manual payment of a top-up request. -/
theorem payouts_of_topup {t : Db} {user : UserPreference} {a : UserBillingAccount}
    (hp : plan_of_request req = none) (ht : payouts req t = 0) (act : AdminAction)
    (req' : PaymentRequest) :
    payouts req (settleIn (post t a [manual_entry user a req]) req' act) = 1 := by
  have hpays : pays_out req (manual_entry user a req) = true := by
    unfold pays_out
    rw [hp]
    simp [manual_entry, Dict.get]
  have hcount := Table.count_insert (t := t.ledger) (accepts_manual user a req) (pays_out req)
  have hkey : pays_out req (Row.setKey (manual_entry user a req) t.ledger.nextKey) = true := hpays
  rw [if_pos hkey] at hcount
  unfold payouts at ht ⊢
  rw [ht] at hcount
  exact hcount

theorem credited_of_topup {t : Db} {user : UserPreference} {es : List TomanLedgerEntry}
    (hu : user.id = req.user_id) (hp : plan_of_request req = none) (hb : SameBooks db t)
    (act : AdminAction) (req' : PaymentRequest) :
    Credited req db (settleIn (post (withAccount t user.id)
      (paid_in (accountRow t user.id) req.amount_toman) es) req' act) := by
  have hfirst : (settleIn (post (withAccount t user.id)
      (paid_in (accountRow t user.id) req.amount_toman) es) req' act).accounts.first
        (fun a => a.user_id = user.id) =
      some (paid_in (accountRow t user.id) req.amount_toman) := by
    rw [post_eq]
    exact Table.first_put (first_withAccount t user.id) ⟨rfl, rfl⟩
      (by simp [paid_in, accountRow_user])
  have hsame : accountRow t user.id = accountRow db user.id := by
    unfold accountRow
    rw [hb.accounts]
  unfold Credited
  rw [hp, ← hu, accountRow_eq hfirst, hsame]
  rfl

/-- The key of the payment entry of a purchase is another one. -/
theorem payment_key_ne (k : String) : payment_key (some k) ≠ some k := by
  unfold payment_key
  split
  · intro h
    have hlen := congrArg String.length (Option.some.inj h)
    rw [String.length_append] at hlen
    have : (":payment" : String).length = 8 := by decide
    omega
  · simp

/-- The purchase of a subscription request. -/
theorem payouts_of_purchase {now : Datetime} {user : UserPreference} {plan : SubscriptionPlan}
    {s s' : Session Db} {r : PurchaseTomanSubscriptionResult} (hu : user.id = req.user_id)
    (hp : plan_of_request req = some plan.id) (h0 : payouts req s.view = 0)
    (h : PurchaseRun now (manualPurchase user plan req) s (.ok r) s') (hok : r.ok = true) :
    payouts req s'.view = 1 ∧
      s'.view.subscriptions.rows.length = s.view.subscriptions.rows.length + 1 := by
  have hpays : ∀ e : TomanLedgerEntry, pays_out req e =
      decide (e.idempotency_key = some (manual_key user.id plan.id req.id)) := by
    intro e
    unfold pays_out
    rw [hp, hu]
  cases h with
  | active_exists u r hk ha hr | unpaid r hk ha hu hr | no_pool r hk ha hu hp hr =>
    rw [hr] at hok
    cases hok
  | replay e r hk hr =>
    exfalso
    unfold ledgerRow at hk
    split at hk
    · have hmem := Table.first_mem hk
      refine absurd h0 (Nat.pos_iff_ne_zero.mp (List.countP_pos_iff.mpr ⟨e, hmem.1, ?_⟩))
      rw [hpays]
      exact hmem.2
    · cases hk
  | bought t pool e₁ e₂ r hk ha hu ht hp he h1 h2 hr =>
    rw [Session.view_commitIf, post_eq]
    have hn₁ : pays_out req (Row.setKey e₁ s.view.ledger.nextKey) = false := by
      rw [hpays]
      exact decide_eq_false (he.payment_keyed.symm ▸ payment_key_ne _)
    have hn₂ : pays_out req (Row.setKey e₂ (s.view.ledger.insert e₁).nextKey) = true := by
      rw [hpays]
      exact decide_eq_true he.gift_keyed
    have hc₁ := Table.count_insert h1 (pays_out req)
    have hc₂ := Table.count_insert h2 (pays_out req)
    rw [hn₁] at hc₁
    rw [hn₂] at hc₂
    unfold payouts at h0
    refine ⟨?_, ?_⟩
    · change ((s.view.ledger.insert e₁).insert e₂).count (pays_out req) = 1
      rw [hc₂, hc₁, h0]
      rfl
    · have hrows := Table.rows_insert (t := s.view.subscriptions)
        (a := { (manualPurchase user plan req).row now t with pool_id := some pool.id })
        (Table.accepts_of_no_unique rfl)
      have hlen := congrArg List.length hrows
      rw [List.length_append] at hlen
      exact hlen

/-- An approval. -/
theorem outcome_of_approve {now : Datetime} {note : Option String} {t : Db}
    {r : Except PyError PaymentRequest} {s' : Session Db} (h0 : payouts req db = 0)
    (ht : Outcome req db t) (h : ApproveRun now req.id note (.opened t) r s') :
    Outcome req db s'.stored := by
  cases h with
  | kept e => exact ht
  | topup r user act hr hst hu hp =>
    obtain ⟨rfl, hb⟩ := ht.found hr hst
    refine .approved _ (get_settled now "approved" (strOr note r.admin_note) act hr) rfl ?_ ?_
    · exact payouts_of_topup hp (hb.payouts.trans h0) act
        (settled r now "approved" (strOr note r.admin_note))
    · exact credited_of_topup hu hp hb act (settled r now "approved" (strOr note r.admin_note))
  | failed r user plan x e s' hr hst hx hno =>
    rw [stored_of_refused hx hno]
    exact ht
  | subscribed r user plan x s' act hr hst hu hp hx hok =>
    obtain ⟨rfl, hb⟩ := ht.found hr hst
    obtain ⟨h1, h2⟩ := payouts_of_purchase hu hp (hb.payouts.trans h0) hx hok
    have hr' : s'.view.payment_requests.get r.id = some r := by
      rw [requests_of_purchase hx]
      exact hr
    refine .approved _ (get_settled now "approved" (strOr note r.admin_note) act hr') rfl h1 ?_
    unfold Credited
    rw [hp]
    exact h2.trans (congrArg (fun t => t.rows.length + 1) hb.subscriptions)

theorem outcome_of_decision {t : Db} (h0 : payouts req db = 0) (ht : Outcome req db t)
    (d : Decision) : Outcome req db ((d.prog req.id).run (.opened t)).2.stored := by
  cases d with
  | approve now note =>
    change Outcome req db ((calls.discard (approve_payment_request now req.id note)).run _).2.stored
    rw [run_discard]
    exact outcome_of_approve h0 ht (approveRun now req.id note (.opened t))
  | reject now note =>
    change Outcome req db ((calls.discard (reject_payment_request now req.id note)).run _).2.stored
    rw [run_discard]
    exact outcome_of_reject ht (rejectRun now req.id note (.opened t))

end

/-! ## Decisions side by side -/

/-- Every change leaves the ledger's entries where they are. -/
theorem ledger_grows (p : TomanLedgerEntry → Bool) :
    Grows (σ := Db) fun s t => s.ledger.count p ≤ t.ledger.count p where
  refl _ := le_refl _
  trans := le_trans
  apply s c := by
    cases c with
    | addLedger e =>
      change _ ≤ (s.ledger.insert e).count p
      by_cases h : s.ledger.Accepts e
      · rw [Table.count_insert h]
        omega
      · rw [Table.insert, dif_neg h]
    | _ => exact le_refl _

section
variable {ι : Type} [DecidableEq ι]

/-- The admins, each with a session of its own. -/
def side_by_side (db : Db) (request_id : Nat) (d : ι → Decision) :
    System ι Db Change PyError Unit :=
  .init db fun i => (d i).prog request_id

/-- Whatever the schedule, the request is settled once when all admins are
done or gone. -/
def ExactlyOnce (db : Db) (req : PaymentRequest) (d : ι → Decision) : Prop :=
  ∀ ms, (∀ i, (((side_by_side db req.id d).run ms).worker i).closed = true ∨
      (((side_by_side db req.id d).run ms).worker i).crashed = true) →
    SettledOnce req db ((side_by_side db req.id d).run ms).store

/-- LAW: when every decision commits on a store that still answers what it has
read, nobody comes between the two commits of an approval and no process dies
there, the request is paid out at most once at every moment; and whenever no
approval is between its commits, it is paid out exactly when it is approved. -/
theorem sound_decisions_pay_once (db : Db) (req : PaymentRequest) (d : ι → Decision)
    (ms : List (Move ι)) (hreq : db.payment_requests.get req.id = some req)
    (h0 : payouts req db = 0)
    (hsound : (side_by_side db req.id d).SoundRun false (fun _ _ => True) ms) :
    payouts req ((side_by_side db req.id d).run ms).store ≤ 1 ∧
      ((∀ i, (((side_by_side db req.id d).run ms).worker i).busy = false) →
        SettledOnce req db ((side_by_side db req.id d).run ms).store) := by
  have hstart : Outcome req db db := .pending hreq (.refl db)
  have hkeep : ∀ i t, True → Outcome req db t →
      Outcome req db (((d i).prog req.id).run (.opened t)).2.stored :=
    fun i t _ ht => outcome_of_decision h0 ht (d i)
  constructor
  · obtain ⟨is, u, hserial, hle⟩ := below_serial (ledger_grows (pays_out req)) hsound
    exact hle.trans (settled_once h0 (hserial.keeps (fun i _ => hkeep i) hstart)).once
  · intro hrest
    obtain ⟨is, hserial, -, -⟩ := sound_runs_are_serial hsound hrest
    exact settled_once h0 (hserial.keeps (fun i _ => hkeep i) hstart)

end

/-! ## Two admins and a receipt -/

def receipt : PaymentRequest where
  id := 1
  user_id := 1
  amount_toman := 20000
  receipt_image_path := "receipt.jpg"

/-- The customer has sent a receipt. -/
def shop_with_receipt : Db := { shop with payment_requests := Table.empty.insert receipt }

def two_approvals (_ : Bool) : Decision := .approve noon none

/-- Both admins have read the request before one of them commits. -/
theorem overlapping_approvals_pay_twice :
    ¬ExactlyOnce shop_with_receipt receipt two_approvals := by
  intro h
  have honce := (h (.step true :: .replicate 12 (.step false) ++ .replicate 12 (.step true))
    (by decide +kernel)).once
  revert honce
  decide +kernel

def approve_or_reject (late : Bool) : Decision :=
  if late then .reject noon "no" else .approve noon none

/-- One after the other, the first decision stands. -/
theorem decisions_in_turn_pay_once :
    let x := (side_by_side shop_with_receipt receipt.id approve_or_reject).run
      (.replicate 12 (.step false) ++ .replicate 12 (.step true))
    payouts receipt x.store ≤ 1 ∧
      ((∀ i, (x.worker i).busy = false) → SettledOnce receipt shop_with_receipt x.store) := by
  refine sound_decisions_pay_once shop_with_receipt receipt approve_or_reject _
    (by decide +kernel) (by decide +kernel) (soundRun_append ?_ ?_)
  · exact sound_alone (fun _ => trivial) (fun _ => trivial) (by decide +kernel) 12
  · refine sound_alone (fun _ => trivial) (fun _ => ?_) (by decide +kernel) 12
    rw [run_alone_ne (by decide)]
    trivial

end dr_boz.payment_decisions
