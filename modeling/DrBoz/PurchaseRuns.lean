-- What a purchase and the calls beside it do to subscriptions and pools: a
-- new subscription takes a slot of the first pool with room, and the admin
-- endpoints recount the pool that they touch.
import DrBoz.BillingRuns
import DrBoz.Subscriptions

open keyed_table unit_of_work dr_boz.py dr_boz.models dr_boz.codex_capacity dr_boz.toman_billing
open dr_boz.subscriptions dr_boz.views dr_boz.billing_runs

namespace dr_boz.purchase_runs

/-! ## Slots -/

/-- The database after a recount of a subscription's pool. -/
def recounted (now : Datetime) (db : Db) (pool_id : Option Nat) : Db :=
  match pool_id with
  | none => db
  | some k =>
    match db.pools.get k with
    | none => db
    | some p =>
      let users := db.subscriptions.count fun u => u.pool_id = some k && active_at now u
      putPool db { p with active_users := some users }

/-- The database after a new subscription took a slot of the pool. -/
def subscribed (db : Db) (u : UserSubscription) (pool : CapacityPool) : Db :=
  { db with
    subscriptions := db.subscriptions.insert { u with pool_id := some pool.id }
    pools := db.pools.put { pool with active_users := some (one_more pool) } }

@[simp] theorem subscribed_ledger (db : Db) (u : UserSubscription) (pool : CapacityPool) :
    (subscribed db u pool).ledger = db.ledger := rfl

/-- A slot for a subscription that was just added. -/
theorem run_assign_subscription_pool {u : UserSubscription} {s : Session Db} {db : Db}
    (hu : u.pool_id = none)
    (hs : s.view = { db with subscriptions := db.subscriptions.insert u }) :
    (assign_subscription_pool { u with id := db.subscriptions.nextKey }).run s =
      match db.pools.lowest has_room with
      | none =>
        (.error (.codex_capacity_error "codex_capacity_unavailable"
          "No Codex capacity pool has available user capacity"), s)
      | some pool =>
        (.ok ({ u with id := db.subscriptions.nextKey, pool_id := some pool.id },
            { pool with active_users := some (one_more pool) }),
          ⟨s.stored, subscribed db u pool⟩) := by
  have hlow : s.view.pools.lowest has_room = db.pools.lowest has_room := by rw [hs]
  unfold assign_subscription_pool
  split
  · rename_i k hk
    change u.pool_id = some k at hk
    rw [hu] at hk
    cases hk
  simp only [Prog.run_bind, Prog.run_read, Prog.continueWith_ok, hlow]
  cases hp : db.pools.lowest has_room with
  | none => rfl
  | some pool =>
    have hpool : db.pools.get pool.id = some pool := by
      rw [Table.get_eq_some]
      exact ⟨(List.mem_filter.mp (List.argmin_mem hp)).1, rfl⟩
    have hacc : ∀ x : UserSubscription, db.subscriptions.Accepts x :=
      fun x => Table.accepts_of_no_unique rfl
    have hget : s.view.subscriptions.get ({ u with id := db.subscriptions.nextKey } :
        UserSubscription).id = some { u with id := db.subscriptions.nextKey } := by
      rw [hs]; exact Table.get_insert_new (hacc u)
    have h1 := run_flush_subscription (s := s) (a := { u with id := db.subscriptions.nextKey })
      (b := { u with id := db.subscriptions.nextKey, pool_id := some pool.id }) hget
      ⟨rfl, rfl, rfl, rfl⟩
    have hput : putSubscription s.view
        { u with id := db.subscriptions.nextKey, pool_id := some pool.id } =
        { db with
          subscriptions := db.subscriptions.insert { u with pool_id := some pool.id } } := by
      rw [hs]
      exact congrArg (fun t => { db with subscriptions := t })
        (Table.put_insert (hacc u) (hacc { u with pool_id := some pool.id }) rfl)
    rw [hput] at h1
    simp only [Prog.run_bind]
    have h2 := run_flush_pool
      (s := ⟨s.stored, { db with
        subscriptions := db.subscriptions.insert { u with pool_id := some pool.id } }⟩)
      (b := { pool with active_users := some (one_more pool) }) hpool ⟨rfl, rfl, rfl⟩
    rw [h1, Prog.continueWith_ok, Prog.run_bind, h2]
    rfl

/-- The assignment hands its one exception over: no pool has room. -/
theorem run_attempt_assign {u : UserSubscription} {s : Session Db} {db : Db}
    (hu : u.pool_id = none)
    (hs : s.view = { db with subscriptions := db.subscriptions.insert u }) :
    (assign_subscription_pool { u with id := db.subscriptions.nextKey }).attempt.run s =
      match db.pools.lowest has_room with
      | none =>
        (.ok (.error (.codex_capacity_error "codex_capacity_unavailable"
          "No Codex capacity pool has available user capacity")), s)
      | some pool =>
        (.ok (.ok ({ u with id := db.subscriptions.nextKey, pool_id := some pool.id },
            { pool with active_users := some (one_more pool) })),
          ⟨s.stored, subscribed db u pool⟩) := by
  have hrun := run_assign_subscription_pool hu hs
  rw [Prog.run_attempt]
  · rw [hrun]
    cases db.pools.lowest has_room <;> rfl
  · rw [hrun]
    cases db.pools.lowest has_room <;> simp

/-- The database after a subscription was added that has no pool yet. -/
def unassigned (db : Db) (u : UserSubscription) : Db :=
  { db with subscriptions := db.subscriptions.insert u }

/-- How a purchase and a trial add their subscription: the row first, and the
slot for it second. -/
theorem run_add_subscription {α : Type} {u : UserSubscription} (hu : u.pool_id = none)
    (k : Except PyError (UserSubscription × CapacityPool) → Tx α) (s : Session Db) :
    (do
      Prog.flush (.addSubscription u)
      let assigned ← Prog.attempt
        (assign_subscription_pool { u with id := s.view.subscriptions.nextKey })
      k assigned : Tx α).run s =
      match s.view.pools.lowest has_room with
      | none =>
        (k (.error (.codex_capacity_error "codex_capacity_unavailable"
          "No Codex capacity pool has available user capacity"))).run
            ⟨s.stored, unassigned s.view u⟩
      | some pool =>
        (k (.ok ({ u with id := s.view.subscriptions.nextKey, pool_id := some pool.id },
          { pool with active_users := some (one_more pool) }))).run
            ⟨s.stored, subscribed s.view u pool⟩ := by
  have hflush : (Prog.flush (.addSubscription u) : Tx Unit).run s =
      (.ok (), ⟨s.stored, unassigned s.view u⟩) := rfl
  rw [Prog.run_bind, hflush, Prog.continueWith_ok, Prog.run_bind,
    run_attempt_assign hu (show (Session.view ⟨s.stored, unassigned s.view u⟩) = unassigned s.view u
      from rfl)]
  cases s.view.pools.lowest has_room <;> rfl

/-! ## Admin endpoints -/

theorem run_recount (now : Datetime) (u : UserSubscription) (s : Session Db) :
    (recount now u).run s = (.ok (), ⟨s.stored, recounted now s.view u.pool_id⟩) := by
  unfold recount recounted
  cases u.pool_id with
  | none => rfl
  | some k =>
    unfold recalculate_pool_active_users
    simp only [Prog.run_bind, Prog.run_read, Prog.continueWith_ok]
    cases hp : s.view.pools.get k with
    | none => rfl
    | some p =>
      have hk : p.id = k := ((Table.get_eq_some _).mp hp).2
      have hf := run_flush_pool (s := s) (a := p) (b := { p with
        active_users := some (Int.ofNat
          (s.view.subscriptions.count fun u => u.pool_id = some k && active_at now u)) })
        (hk ▸ hp) ⟨rfl, rfl, rfl⟩
      simp only [Prog.run_bind]
      erw [hf]
      rfl

/-- The database after an admin has cancelled the subscription. -/
def cancelledIn (now : Datetime) (db : Db) (u : UserSubscription) : Db :=
  recounted now (putSubscription db { u with status := some "cancelled" }) u.pool_id

theorem run_cancel_user_subscription (now : Datetime) (id : Nat) (s : Session Db) :
    (cancel_user_subscription now id).run s =
      match s.view.subscriptions.get id with
      | none => (.error (.http_exception 404 "Subscription not found"), s)
      | some u => (.ok { u with status := some "cancelled" },
          Session.commit ⟨s.stored, cancelledIn now s.view u⟩) := by
  unfold cancel_user_subscription find_subscription
  simp only [Prog.run_bind, Prog.run_read, Prog.continueWith_ok]
  cases hu : s.view.subscriptions.get id with
  | none => rfl
  | some u =>
    have hid : u.id = id := ((Table.get_eq_some _).mp hu).2
    have hf := run_flush_subscription (s := s) (a := u) (b := { u with status := some "cancelled" })
      (hid ▸ hu) ⟨rfl, rfl, rfl, rfl⟩
    simp only [Prog.run_pure, Prog.continueWith_ok, Prog.run_bind, hf, run_recount,
      Prog.run_publish]
    rfl

/-- The database after an admin has reactivated `u`, whose new row is `v`. -/
def reactivatedIn (now : Datetime) (db : Db) (u v : UserSubscription) : Db :=
  recounted now (putSubscription db v) u.pool_id

/-- A reactivation changes the status and the end only. -/
theorem reactivated_row {now : Datetime} {u v : UserSubscription} (h : reactivated now u = .ok v) :
    ∃ t, v = { u with status := some "active", expires_at := t } ∧ now < t := by
  unfold reactivated at h
  split at h
  · unfold addDelta at h
    split at h
    · cases h
      exact ⟨now + days 30, rfl, Int.lt_add_of_pos_right now (by decide)⟩
    · cases h
  · rename_i hlt
    cases h
    exact ⟨u.expires_at, rfl, not_le.mp hlt⟩

theorem run_reactivate_user_subscription (now : Datetime) (id : Nat) (s : Session Db) :
    (reactivate_user_subscription now id).run s =
      match s.view.subscriptions.get id with
      | none => (.error (.http_exception 404 "Subscription not found"), s)
      | some u =>
        match reactivated now u with
        | .error e => (.error e, s)
        | .ok v => (.ok v, Session.commit ⟨s.stored, reactivatedIn now s.view u v⟩) := by
  unfold reactivate_user_subscription find_subscription
  simp only [Prog.run_bind, Prog.run_read, Prog.continueWith_ok]
  cases hu : s.view.subscriptions.get id with
  | none => rfl
  | some u =>
    have hid : u.id = id := ((Table.get_eq_some _).mp hu).2
    simp only [Prog.run_pure, Prog.continueWith_ok, Prog.run_bind]
    cases hv : reactivated now u with
    | error e => rfl
    | ok v =>
      obtain ⟨t, rfl, -⟩ := reactivated_row hv
      have hf := run_flush_subscription (s := s) (a := u)
        (b := { u with status := some "active", expires_at := t }) (hid ▸ hu) ⟨rfl, rfl, rfl, rfl⟩
      simp only [Prog.run_lift_ok, Prog.continueWith_ok, Prog.run_bind, hf, run_recount,
        Prog.run_publish, Prog.run_pure]
      rfl

/-! ## The purchase -/

/-- The arguments of `purchase_toman_subscription`. -/
structure PurchaseCall where
  user : UserPreference
  plan : SubscriptionPlan
  idempotency_key : Option String
  payment_confirmed : Bool
  wallet_payment_toman : Option Int
  grant_gift_toman_balance : Bool
  commit : Bool

def PurchaseCall.prog (now : Datetime) (c : PurchaseCall) : Tx PurchaseTomanSubscriptionResult :=
  purchase_toman_subscription now c.user c.plan c.idempotency_key c.payment_confirmed
    c.wallet_payment_toman c.grant_gift_toman_balance c.commit

/-- The price, the gift and the wallet's part, as the session sees the config. -/
def PurchaseCall.price (c : PurchaseCall) (db : Db) : Int := plan_price_toman c.plan (configRow db)

def PurchaseCall.gift (c : PurchaseCall) (db : Db) : Int := plan_gift_toman c.plan (configRow db)

def PurchaseCall.wallet (c : PurchaseCall) (db : Db) : Int :=
  wallet_part (c.price db) c.payment_confirmed c.wallet_payment_toman

/-- The wallet cannot pay its part, or nobody confirms the rest. -/
def PurchaseCall.Unpaid (c : PurchaseCall) (db : Db) : Prop :=
  intOr0 (accountRow db c.user.id).paid_balance_toman < c.wallet db ∨
    c.payment_confirmed = false ∧ 0 < c.price db - c.wallet db

/-- The subscription row that a purchase adds, before it has an id. -/
def PurchaseCall.row (c : PurchaseCall) (now expires_at : Datetime) : UserSubscription :=
  { user_id := c.user.id, plan_id := c.plan.id, purchased_at := some now, expires_at }

/-- The account after the purchase. -/
def PurchaseCall.account (c : PurchaseCall) (db : Db) : UserBillingAccount :=
  bought (accountRow db c.user.id) (c.wallet db)
    (if c.grant_gift_toman_balance then c.gift db else 0) (c.gift db) (c.price db)

/-- The database after a purchase has looked for its account and its config. -/
def PurchaseCall.base (c : PurchaseCall) (db : Db) : Db := withConfig (withAccount db c.user.id)

@[simp] theorem base_ledger (c : PurchaseCall) (db : Db) : (c.base db).ledger = db.ledger := rfl

/-- The two entries of a purchase: the payment, and the gift under the key. -/
structure PurchaseEntries (c : PurchaseCall) (db : Db) (payment gift : TomanLedgerEntry) :
    Prop where
  payment_account : payment.billing_account_id = some (accountRow db c.user.id).id
  payment_gift : payment.gift_delta_toman = 0
  payment_paid : payment.paid_delta_toman = if 0 < c.wallet db then -c.wallet db else 0
  gift_account : gift.billing_account_id = some (accountRow db c.user.id).id
  gift_gift : gift.gift_delta_toman = if c.grant_gift_toman_balance then c.gift db else 0
  gift_paid : gift.paid_delta_toman = 0
  payment_keyed : payment.idempotency_key = payment_key c.idempotency_key
  gift_keyed : gift.idempotency_key = c.idempotency_key

/-- How a purchase ends. -/
inductive PurchaseRun (now : Datetime) (c : PurchaseCall) (s : Session Db) :
    Except PyError PurchaseTomanSubscriptionResult → Session Db → Prop where
  | replay (e : TomanLedgerEntry) (r : PurchaseTomanSubscriptionResult)
      (hk : ledgerRow s.view c.idempotency_key = some e) (hr : r.ok = true) :
      PurchaseRun now c s (.ok r) ⟨s.stored, withAccount s.view c.user.id⟩
  | active_exists (u : UserSubscription) (r : PurchaseTomanSubscriptionResult)
      (hk : ledgerRow s.view c.idempotency_key = none)
      (ha : activeRow now s.view c.user.id = some u) (hr : r.ok = false) :
      PurchaseRun now c s (.ok r) ⟨s.stored, withAccount s.view c.user.id⟩
  | unpaid (r : PurchaseTomanSubscriptionResult)
      (hk : ledgerRow s.view c.idempotency_key = none)
      (ha : activeRow now s.view c.user.id = none) (hu : c.Unpaid s.view) (hr : r.ok = false) :
      PurchaseRun now c s (.ok r) ⟨s.stored, c.base s.view⟩
  | end_raised (e : PyError) (hk : ledgerRow s.view c.idempotency_key = none)
      (ha : activeRow now s.view c.user.id = none) (hu : ¬c.Unpaid s.view)
      (he : addDelta now (days 30) = .error e) :
      PurchaseRun now c s (.error e) ⟨s.stored, c.base s.view⟩
  | no_pool (r : PurchaseTomanSubscriptionResult)
      (hk : ledgerRow s.view c.idempotency_key = none)
      (ha : activeRow now s.view c.user.id = none) (hu : ¬c.Unpaid s.view)
      (hp : s.view.pools.lowest has_room = none) (hr : r.ok = false) :
      PurchaseRun now c s (.ok r) ⟨s.stored, c.base s.view⟩
  | bought (t : Datetime) (pool : CapacityPool) (e₁ e₂ : TomanLedgerEntry)
      (r : PurchaseTomanSubscriptionResult)
      (hk : ledgerRow s.view c.idempotency_key = none)
      (ha : activeRow now s.view c.user.id = none) (hu : ¬c.Unpaid s.view)
      (ht : addDelta now (days 30) = .ok t)
      (hp : s.view.pools.lowest has_room = some pool) (he : PurchaseEntries c s.view e₁ e₂)
      (h1 : s.view.ledger.Accepts e₁) (h2 : (s.view.ledger.insert e₁).Accepts e₂)
      (hr : r.ok = true) :
      PurchaseRun now c s (.ok r) (Session.commitIf c.commit ⟨s.stored,
        post (subscribed (c.base s.view) (c.row now t) pool) (c.account s.view) [e₁, e₂]⟩)
  | conflict (hk : ledgerRow s.view c.idempotency_key = none)
      (ha : activeRow now s.view c.user.id = none) (hu : ¬c.Unpaid s.view)
      (e₁ e₂ : TomanLedgerEntry) (he : PurchaseEntries c s.view e₁ e₂)
      (hc : ¬(s.view.ledger.Accepts e₁ ∧ (s.view.ledger.insert e₁).Accepts e₂)) :
      PurchaseRun now c s (.error .integrity_error) s.rollback

/-- The two entries are written, or one of their keys is taken. -/
theorem purchaseRun_post {now t : Datetime} {c : PurchaseCall} {s : Session Db}
    {pool : CapacityPool} {e₁ e₂ : TomanLedgerEntry}
    (hk : ledgerRow s.view c.idempotency_key = none)
    (ha : activeRow now s.view c.user.id = none) (hu : ¬c.Unpaid s.view)
    (ht : addDelta now (days 30) = .ok t) (hp : s.view.pools.lowest has_room = some pool)
    (r : TomanLedgerEntry → TomanLedgerEntry → PurchaseTomanSubscriptionResult)
    (he : PurchaseEntries c s.view e₁ e₂) (hr : ∀ x y, (r x y).ok = true) :
    let x := (do
      let payment_entry ← add_ledger e₁
      let gift_entry ← add_ledger e₂
      Prog.publishIf c.commit
      return r payment_entry gift_entry : Tx PurchaseTomanSubscriptionResult).run
        ⟨s.stored, putAccount (subscribed (c.base s.view) (c.row now t) pool) (c.account s.view)⟩
    PurchaseRun now c s x.1 x.2 := by
  simp only [Prog.run_bind]
  rcases add_ledger_cases e₁ ⟨s.stored, putAccount (subscribed (c.base s.view) (c.row now t) pool)
    (c.account s.view)⟩ with ⟨h1, hrun⟩ | ⟨h1, hrun⟩
  · rw [hrun, Prog.continueWith_ok, Prog.run_bind]
    rcases add_ledger_cases e₂ ⟨s.stored, addLedger (putAccount (subscribed (c.base s.view)
      (c.row now t) pool) (c.account s.view)) e₁⟩ with ⟨h2, hrun'⟩ | ⟨h2, hrun'⟩
    · rw [hrun', Prog.continueWith_ok, Prog.run_bind, Prog.run_publishIf]
      exact .bought t pool e₁ e₂ _ hk ha hu ht hp he h1 h2 (hr _ _)
    · rw [hrun']
      exact .conflict hk ha hu e₁ e₂ he fun h => h2 h.2
  · rw [hrun]
    exact .conflict hk ha hu e₁ e₂ he fun h => h1 h.1

theorem purchaseRun (now : Datetime) (c : PurchaseCall) (s : Session Db) :
    PurchaseRun now c s ((c.prog now).run s).1 ((c.prog now).run s).2 := by
  unfold PurchaseCall.prog purchase_toman_subscription
  simp only [Prog.run_bind, run_get_or_create_billing_account, Prog.continueWith_ok,
    run_existing_ledger, ledgerRow_withAccount]
  cases hk : ledgerRow s.view c.idempotency_key with
  | some e => exact .replay e _ hk rfl
  | none =>
    simp only [Prog.run_bind, Prog.run_read, Prog.continueWith_ok, withAccount_subscriptions]
    cases ha : activeRow now s.view c.user.id with
    | some u =>
      have ha' := ha
      unfold activeRow at ha'
      simp only [ha']
      exact .active_exists u _ hk ha rfl
    | none =>
      have ha' := ha
      unfold activeRow at ha'
      simp only [ha', Prog.run_bind, run_get_or_create_subscription_config, Prog.continueWith_ok,
        configRow_withAccount]
      split
      · rename_i h1
        exact .unpaid _ hk ha (.inl h1) rfl
      · rename_i h1
        split
        · rename_i h2
          exact .unpaid _ hk ha (.inr h2) rfl
        · rename_i h2
          have hu : ¬c.Unpaid s.view := by
            rintro (h | h)
            · exact h1 h
            · exact h2 h
          simp only [Prog.run_bind, run_lift]
          cases ht : addDelta now (days 30) with
          | error e => exact .end_raised e hk ha hu ht
          | ok t =>
            simp only [Prog.continueWith_ok]
            rw [Prog.run_bind, Prog.run_read, Prog.continueWith_ok]
            erw [run_add_subscription (u := c.row now t) rfl _ ⟨s.stored, c.base s.view⟩]
            have hp' : (c.base s.view).pools = s.view.pools := rfl
            rw [hp']
            cases hp : s.view.pools.lowest has_room with
            | none =>
              have hdel : (unassigned (c.base s.view) (c.row now t)).apply
                  (.deleteSubscription (c.base s.view).subscriptions.nextKey) = c.base s.view :=
                congrArg (fun t => { c.base s.view with subscriptions := t })
                  (Table.delete_insert (Table.accepts_of_no_unique rfl))
              have hrun : (Prog.flush (.deleteSubscription
                  (c.base s.view).subscriptions.nextKey) : Tx Unit).run
                  ⟨s.stored, unassigned (c.base s.view) (c.row now t)⟩ =
                  (.ok (), ⟨s.stored, c.base s.view⟩) := by
                rw [Prog.run_flush, store_apply, hdel]
                rfl
              simp only [Prog.run_bind]
              erw [hrun]
              exact .no_pool _ hk ha hu hp rfl
            | some pool =>
              have hget : (subscribed (c.base s.view) (c.row now t) pool).accounts.get
                  (accountRow s.view c.user.id).id = some (accountRow s.view c.user.id) :=
                get_accountRow s.view c.user.id
              simp only [Prog.run_bind]
              erw [run_flush_account
                (s := ⟨s.stored, subscribed (c.base s.view) (c.row now t) pool⟩) hget
                (owner_bought _ _ _ _ _)]
              exact purchaseRun_post hk ha hu ht hp (fun _ _ => _)
                ⟨rfl, rfl, rfl, rfl, rfl, rfl, rfl, rfl⟩ fun _ _ => rfl

end dr_boz.purchase_runs
