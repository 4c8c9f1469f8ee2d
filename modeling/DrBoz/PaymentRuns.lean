-- What the decisions on a manual payment do in a session. An approval of the
-- top-up kind is one commit. One of the subscription kind is two: the purchase
-- commits first, and the status of the request follows.
import DrBoz.Effects

open keyed_table unit_of_work dr_boz.py dr_boz.models dr_boz.codex_capacity dr_boz.toman_billing
open dr_boz.payment_requests dr_boz.views dr_boz.billing_runs dr_boz.purchase_runs dr_boz.effects

namespace dr_boz.payment_runs

/-- The database after a request is settled and the admin action is kept. -/
def settleIn (db : Db) (req' : PaymentRequest) (act : AdminAction) : Db :=
  { db with
    payment_requests := db.payment_requests.put req'
    admin_actions := db.admin_actions.insert act }

theorem apply_setPaymentRequest {db : Db} {req : PaymentRequest} (now : Datetime)
    (status : String) (note : Option String)
    (h : db.payment_requests.get req.id = some req) :
    db.apply (.setPaymentRequest req (settled req now status note)) =
      { db with payment_requests := db.payment_requests.put (settled req now status note) } := by
  have hm : PaymentRequest.merge req (settled req now status note) req =
      settled req now status note := by
    unfold PaymentRequest.merge
    simp only [col_self]
    rfl
  exact congrArg (fun t => { db with payment_requests := t }) (Table.update_eq_put _ _ h hm)

/-- The settlement of a request, as both decisions end. -/
theorem run_settle {req : PaymentRequest} {s : Session Db} (now : Datetime) (status : String)
    (note : Option String) (action reason : String) (before after : Option Dict)
    (h : s.view.payment_requests.get req.id = some req) :
    ∃ act, (do
      Prog.flush (.setPaymentRequest req (settled req now status note))
      record_admin_action action req.id reason before after
      Prog.publish
      return settled req now status note : Tx PaymentRequest).run s =
      (.ok (settled req now status note),
        Session.commit ⟨s.stored, settleIn s.view (settled req now status note) act⟩) := by
  refine ⟨{ admin_user_id := admin_user, action_type := action, target_type := "payment_request",
            target_id := some req.id, before_json := before, after_json := after,
            reason := some reason }, ?_⟩
  have h1 : (Prog.flush (.setPaymentRequest req (settled req now status note)) : Tx Unit).run s =
      (.ok (), ⟨s.stored, { s.view with
        payment_requests := s.view.payment_requests.put (settled req now status note) }⟩) := by
    rw [Prog.run_flush, store_apply, apply_setPaymentRequest now status note h]
    rfl
  simp only [Prog.run_bind, h1, Prog.continueWith_ok, record_admin_action]
  rfl

/-- `pending_request` finds a pending request, or raises. -/
theorem run_pending_request (id : Nat) (s : Session Db) :
    (∃ req, s.view.payment_requests.get id = some req ∧ req.status = some "pending" ∧
      (pending_request id).run s = (.ok req, s)) ∨
    (∃ e, (pending_request id).run s = (.error e, s) ∧
      ∀ req, s.view.payment_requests.get id = some req → req.status ≠ some "pending") := by
  unfold pending_request
  simp only [Prog.run_bind, Prog.run_read, Prog.continueWith_ok]
  cases hr : s.view.payment_requests.get id with
  | none => exact .inr ⟨_, rfl, fun req h => by cases h⟩
  | some req =>
    by_cases hst : req.status = some "pending"
    · refine .inl ⟨req, rfl, hst, ?_⟩
      simp only [hst]
      rfl
    · refine .inr ⟨.http_exception 400 "درخواست قبلاً بررسی شده است", ?_, ?_⟩
      · simp only [ne_eq, hst, not_false_eq_true, if_true]
        rfl
      · intro req' h
        cases h
        exact hst

/-! ## Approval -/

/-- The purchase of an approved request of the subscription kind. -/
def manualPurchase (user : UserPreference) (plan : SubscriptionPlan) (req : PaymentRequest) :
    PurchaseCall where
  user
  plan
  idempotency_key := some (manual_key user.id plan.id req.id)
  payment_confirmed := true
  wallet_payment_toman := some 0
  grant_gift_toman_balance := true
  commit := true

/-- A purchase leaves the requests alone. -/
theorem requests_of_purchase {now : Datetime} {c : PurchaseCall} {s s' : Session Db}
    {r : PurchaseTomanSubscriptionResult} (h : PurchaseRun now c s (.ok r) s') :
    s'.view.payment_requests = s.view.payment_requests := by
  cases h with
  | replay | active_exists | unpaid | no_pool => rfl
  | bought => rw [Session.view_commitIf, post_eq]; rfl

/-- How an approval ends. -/
inductive ApproveRun (now : Datetime) (id : Nat) (note : Option String) (s : Session Db) :
    Except PyError PaymentRequest → Session Db → Prop where
  | kept (e : PyError) : ApproveRun now id note s (.error e) s
  | topup (req : PaymentRequest) (user : UserPreference) (act : AdminAction)
      (hreq : s.view.payment_requests.get id = some req) (hst : req.status = some "pending")
      (hu : user.id = req.user_id) (hp : plan_of_request req = none) :
      ApproveRun now id note s (.ok (settled req now "approved" (strOr note req.admin_note)))
        (Session.commit ⟨s.stored, settleIn
          (post (withAccount s.view user.id)
            (paid_in (accountRow s.view user.id) req.amount_toman)
            [manual_entry user (paid_in (accountRow s.view user.id) req.amount_toman) req])
          (settled req now "approved" (strOr note req.admin_note)) act⟩)
  | failed (req : PaymentRequest) (user : UserPreference) (plan : SubscriptionPlan)
      (r : Except PyError PurchaseTomanSubscriptionResult) (e : PyError) (s' : Session Db)
      (hreq : s.view.payment_requests.get id = some req) (hst : req.status = some "pending")
      (hr : PurchaseRun now (manualPurchase user plan req) s r s')
      (hno : ∀ r', r = .ok r' → r'.ok = false) : ApproveRun now id note s (.error e) s'
  | subscribed (req : PaymentRequest) (user : UserPreference) (plan : SubscriptionPlan)
      (r : PurchaseTomanSubscriptionResult) (s' : Session Db) (act : AdminAction)
      (hreq : s.view.payment_requests.get id = some req) (hst : req.status = some "pending")
      (hu : user.id = req.user_id) (hp : plan_of_request req = some plan.id)
      (hr : PurchaseRun now (manualPurchase user plan req) s (.ok r) s') (hok : r.ok = true) :
      ApproveRun now id note s (.ok (settled req now "approved" (strOr note req.admin_note)))
        (Session.commit ⟨s'.stored, settleIn s'.view
          (settled req now "approved" (strOr note req.admin_note)) act⟩)

/-- The entry of a manual payment has no key, so nothing keeps it out. -/
theorem accepts_manual {t : Table TomanLedgerEntry} (user : UserPreference)
    (a : UserBillingAccount) (req : PaymentRequest) : t.Accepts (manual_entry user a req) :=
  Table.accepts_of_no_unique rfl

theorem owner_paid_in (a : UserBillingAccount) (n : Int) : SameOwner (paid_in a n) a :=
  ⟨rfl, rfl, rfl⟩

/-- The top-up branch puts the amount of the request on the paid balance and
settles the request. -/
theorem run_approve_topup {s : Session Db} {req : PaymentRequest} (now : Datetime)
    (user : UserPreference) (note : Option String)
    (hreq : s.view.payment_requests.get req.id = some req) :
    ∃ act, (approve_topup now req user note).run s =
      (.ok (settled req now "approved" (strOr note req.admin_note)),
        Session.commit ⟨s.stored, settleIn
          (post (withAccount s.view user.id)
            (paid_in (accountRow s.view user.id) req.amount_toman)
            [manual_entry user (paid_in (accountRow s.view user.id) req.amount_toman) req])
          (settled req now "approved" (strOr note req.admin_note)) act⟩) := by
  simp only [approve_topup, get_or_create_billing_account_row, Prog.run_bind,
    run_get_or_create_billing_account, Prog.continueWith_ok]
  rw [run_flush_account (get_accountRow _ _) (owner_paid_in _ req.amount_toman)]
  simp only [Prog.continueWith_ok, Prog.run_bind]
  rcases add_ledger_cases (manual_entry user (paid_in (accountRow s.view user.id)
      req.amount_toman) req) ⟨s.stored, putAccount (withAccount s.view user.id)
        (paid_in (accountRow s.view user.id) req.amount_toman)⟩ with ⟨-, hrun⟩ | ⟨hno, -⟩
  · rw [hrun, Prog.continueWith_ok]
    obtain ⟨act, hs⟩ := run_settle (s := ⟨s.stored, post (withAccount s.view user.id)
        (paid_in (accountRow s.view user.id) req.amount_toman)
        [manual_entry user (paid_in (accountRow s.view user.id) req.amount_toman) req]⟩)
      now "approved" (strOr note req.admin_note) "approve_payment"
      ("تأیید پرداخت " ++ thousands req.amount_toman ++ " تومان برای کاربر " ++ toString user.id)
      (some (paid_sums (accountRow s.view user.id)))
      (some (paid_sums (paid_in (accountRow s.view user.id) req.amount_toman))) hreq
    refine ⟨act, ?_⟩
    erw [hs]
  · exact absurd (accepts_manual _ _ _) hno

theorem approveRun_topup {now : Datetime} {id : Nat} {note : Option String} {s : Session Db}
    {req : PaymentRequest} {user : UserPreference}
    (hreq : s.view.payment_requests.get id = some req) (hst : req.status = some "pending")
    (hu : user.id = req.user_id) (hp : plan_of_request req = none) :
    let x := (approve_topup now req user note).run s
    ApproveRun now id note s x.1 x.2 := by
  have hid : req.id = id := ((Table.get_eq_some _).mp hreq).2
  obtain ⟨act, hx⟩ := run_approve_topup now user note (hid ▸ hreq)
  rw [hx]
  exact .topup req user act hreq hst hu hp

theorem approveRun_subscription {now : Datetime} {id plan_id : Nat} {note : Option String}
    {s : Session Db} {req : PaymentRequest} {user : UserPreference}
    (hreq : s.view.payment_requests.get id = some req) (hst : req.status = some "pending")
    (hu : user.id = req.user_id) (hp : plan_of_request req = some plan_id) :
    let x := (approve_subscription now req user plan_id note).run s
    ApproveRun now id note s x.1 x.2 := by
  have hid : req.id = id := ((Table.get_eq_some _).mp hreq).2
  simp only [approve_subscription, Prog.run_bind, Prog.run_read, Prog.continueWith_ok]
  cases hplan : s.view.plans.get plan_id with
  | none => exact .kept _
  | some plan =>
    have hpid : plan.id = plan_id := ((Table.get_eq_some _).mp hplan).2
    subst hpid
    have hrun := purchaseRun now (manualPurchase user plan req) s
    simp only [PurchaseCall.prog, manualPurchase] at hrun
    simp only [Prog.run_bind]
    generalize (purchase_toman_subscription now user plan
      (some (manual_key user.id plan.id req.id)) true (some 0) true true).run s = x at hrun ⊢
    obtain ⟨r, s'⟩ := x
    cases r with
    | error e => exact .failed req user plan _ e s' hreq hst hrun fun r' h => by cases h
    | ok r =>
      simp only [Prog.continueWith_ok]
      by_cases hok : r.ok = false
      · rw [if_pos hok]
        exact .failed req user plan _ _ s' hreq hst hrun fun r' h => by cases h; exact hok
      · rw [if_neg hok]
        have hreqs := requests_of_purchase hrun
        have hget : s'.view.payment_requests.get req.id = some req := by
          rw [hreqs, hid]
          exact hreq
        obtain ⟨act, hs⟩ := run_settle (s := s') now "approved" (strOr note req.admin_note)
          "approve_subscription_payment"
          ("تأیید پرداخت اشتراک " ++ formatted plan.name ++ " برای کاربر " ++ toString user.id)
          (some []) (some [("subscription_id",
            (r.subscription.elim Scalar.null fun u => Scalar.int u.id))]) hget
        erw [hs]
        exact .subscribed req user plan r s' act hreq hst hu hp hrun (by simpa using hok)

theorem approveRun (now : Datetime) (id : Nat) (note : Option String) (s : Session Db) :
    ApproveRun now id note s ((approve_payment_request now id note).run s).1
      ((approve_payment_request now id note).run s).2 := by
  unfold approve_payment_request
  simp only [Prog.run_bind]
  rcases run_pending_request id s with ⟨req, hreq, hst, hrun⟩ | ⟨e, hrun, -⟩
  · rw [hrun]
    simp only [Prog.continueWith_ok, Prog.run_bind, Prog.run_read]
    cases hu : s.view.users.get req.user_id with
    | none => exact .kept _
    | some user =>
      have huid : user.id = req.user_id := ((Table.get_eq_some _).mp hu).2
      cases hp : plan_of_request req with
      | none => exact approveRun_topup hreq hst huid hp
      | some plan_id => exact approveRun_subscription hreq hst huid hp
  · rw [hrun]
    exact .kept e

/-! ## Rejection -/

/-- How a rejection ends. -/
inductive RejectRun (now : Datetime) (id : Nat) (note : String) (s : Session Db) :
    Except PyError PaymentRequest → Session Db → Prop where
  | kept (e : PyError) : RejectRun now id note s (.error e) s
  | rejected (req : PaymentRequest) (act : AdminAction)
      (hreq : s.view.payment_requests.get id = some req) (hst : req.status = some "pending") :
      RejectRun now id note s (.ok (settled req now "rejected" (some note)))
        (Session.commit ⟨s.stored, settleIn s.view (settled req now "rejected" (some note)) act⟩)

theorem rejectRun (now : Datetime) (id : Nat) (note : String) (s : Session Db) :
    RejectRun now id note s ((reject_payment_request now id note).run s).1
      ((reject_payment_request now id note).run s).2 := by
  unfold reject_payment_request
  simp only [Prog.run_bind]
  rcases run_pending_request id s with ⟨req, hreq, hst, hrun⟩ | ⟨e, hrun, -⟩
  · have hid : req.id = id := ((Table.get_eq_some _).mp hreq).2
    rw [hrun]
    obtain ⟨act, hs⟩ := run_settle (s := s) now "rejected" (some note) "reject_payment"
      ("رد پرداخت " ++ thousands req.amount_toman ++ " تومان: " ++ note) none none (hid ▸ hreq)
    rw [Prog.continueWith_ok, hs]
    exact .rejected req act hreq hst
  · rw [hrun]
    exact .kept e

/-! ## Their effects on the books -/

section
variable {now : Datetime} {s s' : Session Db}

theorem trail_settle {t : Session Db} {req : PaymentRequest} (status : String)
    (note : Option String) (act : AdminAction) (h : EffectTrail now s t)
    (hreq : t.view.payment_requests.get req.id = some req) :
    EffectTrail now s
      (Session.commit ⟨t.stored, settleIn t.view (settled req now status note) act⟩) := by
  have h1 := h.step (effect_aside now t.view
    (c := .setPaymentRequest req (settled req now status note)) rfl)
  rw [apply_setPaymentRequest now status note hreq] at h1
  exact (h1.step (effect_aside now _ (c := .addAdminAction act) rfl)).commit

theorem trail_of_reject {id : Nat} {note : String} {r : Except PyError PaymentRequest}
    (h : RejectRun now id note s r s') : EffectTrail now s s' := by
  cases h with
  | kept e => exact .refl s
  | rejected req act hreq hst =>
    have hid : req.id = id := ((Table.get_eq_some _).mp hreq).2
    exact trail_settle "rejected" (some note) act (.refl s) (hid ▸ hreq)

/-- A manual payment puts the amount of the request on the paid balance. -/
theorem effect_paid_in {req : PaymentRequest} {db : Db} {user : UserPreference}
    (hreq : req ∈ db.payment_requests.rows) (hp : plan_of_request req = none) :
    Effect now (withAccount db user.id)
      (post (withAccount db user.id) (paid_in (accountRow db user.id) req.amount_toman)
        [manual_entry user (paid_in (accountRow db user.id) req.amount_toman) req]) := by
  refine .posting (accountRow db user.id) _ _ (get_accountRow _ _) (owner_paid_in _ _) ?_ ?_ ?_ ?_
    ⟨accepts_manual _ _ _, trivial⟩
  · intro x hx
    rw [List.mem_singleton.mp hx]
    rfl
  · simp [paid_in, manual_entry]
  · simp [paid_in, manual_entry, intOr0]
  · intro hfit hg0 hp0
    have ha : 0 ≤ req.amount_toman := hfit req hreq hp
    refine ⟨hg0, ?_⟩
    simp only [paid_in, intOr0, Option.getD_some] at hp0 ⊢
    omega

theorem trail_of_approve {id : Nat} {note : Option String} {r : Except PyError PaymentRequest}
    (h : ApproveRun now id note s r s') : EffectTrail now s s' := by
  cases h with
  | kept e => exact .refl s
  | topup req user act hreq hst hu hp =>
    have hmem := (Table.get_eq_some _).mp hreq
    have hid : req.id = id := hmem.2
    exact trail_settle (t := ⟨s.stored, _⟩) "approved" (strOr note req.admin_note) act
      ((trail_account user.id).step (effect_paid_in hmem.1 hp)) (hid ▸ hreq)
  | failed req user plan r e s' hreq hst hr hno => exact trail_of_purchase hr
  | subscribed req user plan r s' act hreq hst hu hp hr hok =>
    have hid : req.id = id := ((Table.get_eq_some _).mp hreq).2
    refine trail_settle "approved" (strOr note req.admin_note) act (trail_of_purchase hr) ?_
    rw [requests_of_purchase hr, hid]
    exact hreq

/-- A request is created with a positive amount. -/
theorem moves_create_payment_request (telegram_user_id amount_toman : Int)
    (description : Option String) (receipt_path : String) :
    (create_payment_request telegram_user_id amount_toman description receipt_path).Moves
      (Effect now) := by
  unfold create_payment_request get_user_by_telegram
  refine Prog.moves_bind (Prog.moves_bind (Prog.moves_read _) fun user => ?_) fun user => ?_
  · cases user
    · exact Prog.moves_throw _
    · exact Prog.moves_pure _
  · by_cases h : amount_toman ≤ 0
    · rw [if_pos h]
      exact Prog.moves_throw _
    · rw [if_neg h]
      refine Prog.moves_bind (Prog.moves_read _) fun _ => Prog.moves_bind
        (Prog.moves_flush fun db => .aside _ rfl rfl rfl rfl fun hfit => ?_)
        fun _ => Prog.moves_bind Prog.moves_publish fun _ => Prog.moves_pure _
      intro r hr hn
      have hacc : ∀ x : PaymentRequest, db.payment_requests.Accepts x :=
        fun x => Table.accepts_of_no_unique rfl
      simp only [store_apply, Db.apply, Table.rows_insert (hacc _)] at hr
      rcases List.mem_append.mp hr with hr | hr
      · exact hfit r hr hn
      · rw [List.mem_singleton.mp hr]
        exact (not_le.mp h).le

end
end dr_boz.payment_runs
