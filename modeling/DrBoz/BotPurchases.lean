-- Law of a subscription that is bought in the bot: what the user pays. The
-- debit of the wallet's part takes nothing, so only the online part is paid.
import DrBoz.BotPayments
import DrBoz.Calls

open keyed_table unit_of_work dr_boz.py dr_boz.texts dr_boz.models dr_boz.codex_capacity
open dr_boz.toman_billing dr_boz.views dr_boz.billing_runs dr_boz.purchase_runs dr_boz.effects
open dr_boz.calls dr_boz.bot_users dr_boz.payment_payloads dr_boz.bot_payments

namespace dr_boz.bot_purchases

/-! ## A purchase that is paid outside of the wallet -/

/-- The purchase that the bot makes: confirmed, with nothing from the wallet
and no gift on the balance. -/
def bot_purchase (user : UserPreference) (plan : SubscriptionPlan) (key : String) :
    PurchaseCall where
  user
  plan
  idempotency_key := some key
  payment_confirmed := true
  wallet_payment_toman := some 0
  grant_gift_toman_balance := false
  commit := true

/-- What the purchase needs: a new key, no active subscription, an end that
is a date, a pool with room, and a paid balance that is not negative. -/
structure Sells (now : Datetime) (db : Db) (u : Nat) (key : String) : Prop where
  fresh : ∀ e ∈ db.ledger.rows, e.idempotency_key ≠ some key ∧
    e.idempotency_key ≠ some (key ++ ":payment")
  idle : activeRow now db u = none
  ends : (addDelta now (days 30)).toOption.isSome
  room : (db.pools.lowest has_room).isSome
  funds : 0 ≤ intOr0 (accountRow db u).paid_balance_toman

section
variable {now : Datetime} {user : UserPreference} {plan : SubscriptionPlan} {key : String}
variable {db db' : Db} {u : Nat}

theorem Sells.looked (h : Looked u db db') : Sells now db' u key ↔ Sells now db u key := by
  constructor
  · rintro ⟨h1, h2, h3, h4, h5⟩
    exact ⟨h.ledger ▸ h1, (h.activeRow now u) ▸ h2, h3, h.pools ▸ h4, h.account ▸ h5⟩
  · rintro ⟨h1, h2, h3, h4, h5⟩
    exact ⟨h.ledger.symm ▸ h1, (h.activeRow now u).symm ▸ h2, h3, h.pools.symm ▸ h4,
      h.account.symm ▸ h5⟩

/-- The purchase is confirmed, with nothing from the wallet, under the key. -/
structure PaidOutside (c : PurchaseCall) (key : String) : Prop where
  confirmed : c.payment_confirmed = true
  wallet : positive_int c.wallet_payment_toman 0 = 0
  keyed : c.idempotency_key = some key
  commits : c.commit = true

theorem bot_pays_outside (user : UserPreference) (plan : SubscriptionPlan) (key : String) :
    PaidOutside (bot_purchase user plan key) key := ⟨rfl, rfl, rfl, rfl⟩

section
variable {c : PurchaseCall}

theorem wallet_zero (hc : PaidOutside c key) (db : Db) : c.wallet db = 0 := by
  have h := plan_price_nonneg c.plan (configRow db)
  unfold PurchaseCall.wallet wallet_part PurchaseCall.price
  rw [if_neg (by simp [hc.confirmed]), hc.wallet]
  exact min_eq_right h

theorem unpaid_iff (hc : PaidOutside c key) (db : Db) :
    c.Unpaid db ↔ intOr0 (accountRow db c.user.id).paid_balance_toman < 0 := by
  unfold PurchaseCall.Unpaid
  rw [wallet_zero hc]
  simp [hc.confirmed]

/-- The two entries find their keys free exactly when no entry has them. -/
theorem entries_accepted {e₁ e₂ : TomanLedgerEntry} (hc : PaidOutside c key)
    (he : PurchaseEntries c db e₁ e₂) (hkey : key ≠ "") :
    (db.ledger.Accepts e₁ ∧ (db.ledger.insert e₁).Accepts e₂) ↔
      ∀ e ∈ db.ledger.rows, e.idempotency_key ≠ some key ∧
        e.idempotency_key ≠ some (key ++ ":payment") := by
  have h1 : e₁.idempotency_key = some (key ++ ":payment") := by
    rw [he.payment_keyed, hc.keyed]
    simp [payment_key, truthyKey, hkey]
  have h2 : e₂.idempotency_key = some key := he.gift_keyed.trans hc.keyed
  have hne : key ≠ key ++ ":payment" := by
    intro h
    have := congrArg String.length h
    simp at this
  constructor
  · rintro ⟨ha, hb⟩ e hm
    refine ⟨?_, ha _ h1 e hm⟩
    exact hb _ h2 e (Table.mem_insert_of_mem hm)
  · intro h
    have ha : db.ledger.Accepts e₁ := by
      intro v hv e hm
      rw [show Row.unique e₁ = e₁.idempotency_key from rfl, h1] at hv
      cases hv
      exact (h e hm).2
    refine ⟨ha, ?_⟩
    intro v hv e hm
    rw [show Row.unique e₂ = e₂.idempotency_key from rfl, h2] at hv
    cases hv
    rw [Table.rows_insert ha, List.mem_append, List.mem_singleton] at hm
    rcases hm with hm | rfl
    · exact (h e hm).1
    · intro hk
      change e₁.idempotency_key = some key at hk
      rw [h1] at hk
      exact hne (Option.some.inj hk).symm

/-- What the database holds after the purchase. -/
def Bought (now : Datetime) (c : PurchaseCall) (db db' : Db) : Prop :=
  ∃ t pool e₁ e₂, addDelta now (days 30) = .ok t ∧ activeRow now db c.user.id = none ∧
    PurchaseEntries c db e₁ e₂ ∧ (db.ledger.insert e₁).Accepts e₂ ∧
    db' = post (subscribed (c.base db) (c.row now t) pool) (c.account db) [e₁, e₂]

/-- A purchase that is paid outside of the wallet is made when it has what it
needs, and else it leaves the store alone. -/
theorem run_paid_outside (now : Datetime) (hc : PaidOutside c key) (hkey : key ≠ "")
    (s : Session Db) :
    (Sells now s.view c.user.id key ∧ ∃ r v, (c.prog now).run s = (.ok r, .opened v) ∧
      r.ok = true ∧ Bought now c s.view v) ∨
    (¬Sells now s.view c.user.id key ∧ ((c.prog now).run s).2.stored = s.stored) := by
  have h := purchaseRun now c s
  have htrue : truthyKey (some key) = true := by simp [truthyKey, hkey]
  have hkeyed : ∀ {e}, ledgerRow s.view c.idempotency_key = some e →
      ¬Sells now s.view c.user.id key := by
    intro e hk hs
    unfold ledgerRow at hk
    rw [hc.keyed, if_pos htrue] at hk
    obtain ⟨hm, hp⟩ := Table.first_mem hk
    exact (hs.fresh e hm).1 (by simpa using hp)
  generalize hx : (c.prog now).run s = x at h
  obtain ⟨r, s'⟩ := x
  simp only at h
  cases h with
  | replay e r hk hr => exact .inr ⟨hkeyed hk, rfl⟩
  | active_exists u r hk ha hr =>
    refine .inr ⟨fun hs => ?_, rfl⟩
    have := hs.idle
    rw [ha] at this
    cases this
  | unpaid r hk ha hu hr =>
    refine .inr ⟨fun hs => ?_, rfl⟩
    have := (unpaid_iff hc s.view).mp hu
    have := hs.funds
    omega
  | end_raised e hk ha hu he =>
    refine .inr ⟨fun hs => ?_, rfl⟩
    have := hs.ends
    simp [he, Except.toOption] at this
  | no_pool r hk ha hu hp hr =>
    refine .inr ⟨fun hs => ?_, rfl⟩
    have := hs.room
    simp [hp] at this
  | bought t pool e₁ e₂ r hk ha hu ht hp he h1 h2 hr =>
    refine .inl ⟨⟨(entries_accepted hc he hkey).mp ⟨h1, h2⟩, ha, by simp [ht, Except.toOption],
      by simp [hp], ?_⟩, r, _, ?_, hr, t, pool, e₁, e₂, ht, ha, he, h2, rfl⟩
    · exact not_lt.mp fun hlt => hu ((unpaid_iff hc s.view).mpr hlt)
    · rw [hc.commits]
      rfl
  | conflict hk ha hu e₁ e₂ he hno =>
    refine .inr ⟨fun hs => hno ((entries_accepted hc he hkey).mpr hs.fresh), rfl⟩

end

/-- What a sale leaves: the balances as they were, the keys taken, and an
active subscription of the plan. -/
structure Sold (now : Datetime) (db db' : Db) (u plan_id : Nat) (key : String) : Prop where
  gift : intOr0 (accountRow db' u).gift_balance_toman = intOr0 (accountRow db u).gift_balance_toman
  paid : intOr0 (accountRow db' u).paid_balance_toman = intOr0 (accountRow db u).paid_balance_toman
  active : ∃ r, activeRow now db' u = some r ∧ r.plan_id = plan_id
  recorded : ∃ e ∈ db'.ledger.rows, e.idempotency_key = some key

theorem accountRow_post {db : Db} {u : Nat} {a b : UserBillingAccount}
    (es : List TomanLedgerEntry) (h : (db.accounts.first fun a => a.user_id = u) = some a)
    (hb : SameOwner b a) :
    accountRow (post db b es) u = b := by
  refine accountRow_eq ?_
  rw [post_eq]
  have hu : a.user_id = u := by simpa using (Table.first_mem h).2
  exact Table.first_put h ⟨hb.1, congrArg some hb.2.1⟩ (by simp [hb.2.1, hu])

/-- The account of the buyer after the purchase. -/
theorem accountRow_bought (c : PurchaseCall) (db : Db) (r : UserSubscription) (pool : CapacityPool)
    (es : List TomanLedgerEntry) :
    accountRow (post (subscribed (c.base db) r pool) (c.account db) es) c.user.id =
      c.account db := by
  have hfirst : ((subscribed (c.base db) r pool).accounts.first fun a => a.user_id = c.user.id) =
      some (accountRow db c.user.id) := first_withAccount db c.user.id
  exact accountRow_post es hfirst (owner_bought _ _ _ _ _)

theorem last_after_now {now t : Datetime} (ht : addDelta now (days 30) = .ok t) : now < t := by
  unfold addDelta at ht
  split at ht
  · cases ht
    exact Int.lt_add_of_pos_right now (by decide)
  · cases ht

theorem sold_of_bought (h : Bought now (bot_purchase user plan key) db db') :
    Sold now db db' user.id plan.id key := by
  obtain ⟨t, pool, e₁, e₂, ht, ha, he, h2, rfl⟩ := h
  have hrow := accountRow_bought (bot_purchase user plan key) db
    ((bot_purchase user plan key).row now t) pool [e₁, e₂]
  constructor
  · erw [hrow]
    simp [PurchaseCall.account, bot_purchase, bought, intOr0]
  · erw [hrow]
    unfold PurchaseCall.account
    rw [wallet_zero (bot_pays_outside user plan key)]
    simp [bot_purchase, bought]
  · rw [post_eq]
    exact ⟨_, Table.first_insert_none (Table.accepts_of_no_unique rfl) ha
      (by simp [Row.setKey, PurchaseCall.row, bot_purchase, active_at, last_after_now ht]), rfl⟩
  · refine ⟨{ e₂ with id := (db.ledger.insert e₁).nextKey }, ?_, he.gift_keyed⟩
    rw [post_eq]
    change _ ∈ ((db.ledger.insert e₁).insert e₂).rows
    rw [Table.rows_insert h2]
    exact List.mem_append_right _ (List.mem_singleton.mpr rfl)

/-- A purchase in the bot sells what it needs everything for, and else it
leaves the store alone. -/
theorem run_bot_purchase (now : Datetime) (user : UserPreference) (plan : SubscriptionPlan)
    {key : String} (hkey : key ≠ "") (s : Session Db) :
    (Sells now s.view user.id key ∧ ∃ r v,
      ((bot_purchase user plan key).prog now).run s = (.ok r, .opened v) ∧ r.ok = true ∧
        Sold now s.view v user.id plan.id key) ∨
    (¬Sells now s.view user.id key ∧
      (((bot_purchase user plan key).prog now).run s).2.stored = s.stored) := by
  rcases run_paid_outside now (bot_pays_outside user plan key) hkey s with
    ⟨hsells, r, v, hx, hok, hb⟩ | hno
  · exact .inl ⟨hsells, r, v, hx, hok, sold_of_bought hb⟩
  · exact .inr hno

theorem Sold.looked {plan_id : Nat} {v : Db} (h : Looked u db db')
    (hs : Sold now db' v u plan_id key) : Sold now db v u plan_id key where
  gift := by rw [hs.gift, h.account]
  paid := by rw [hs.paid, h.account]
  active := hs.active
  recorded := hs.recorded

/-! ## The debit before the purchase -/

/-- The debit looks for the account and for the config. It takes nothing. -/
theorem run_debit (user : UserPreference) (amount : Int) (key : String) (metadata : Dict)
    (s : Session Db) :
    ∃ db', Looked user.id s.view db' ∧
      (debit_subscription_wallet_usd user amount key metadata).run s =
        (.ok true, ⟨s.stored, db'⟩) := by
  unfold debit_subscription_wallet_usd
  split
  · exact ⟨s.view, .refl _ _, rfl⟩
  · unfold charge_generic_usage_toman
    simp only [Prog.run_bind, run_get_or_create_billing_account, Prog.continueWith_ok,
      run_existing_ledger, ledgerRow_withAccount]
    cases ledgerRow s.view (some key) with
    | some e => exact ⟨_, looked_account _ _, rfl⟩
    | none =>
      simp only [Prog.run_bind, run_usd_to_toman, usd_cost_zero, Prog.continueWith_ok, le_refl,
        if_true, Prog.run_pure]
      exact ⟨_, (looked_account _ _).trans (looked_config _ _), rfl⟩

/-- The end of both paths of the bot: the debit, and then the purchase. -/
theorem run_debit_and_purchase {α : Type} (now : Datetime) (user : UserPreference)
    (plan : SubscriptionPlan) {key : String} (hkey : key ≠ "") (amount : Int) (debit_key : String)
    (metadata : Dict) (failed : α) (answer : PurchaseTomanSubscriptionResult → α)
    (s : Session Db) :
    let x := (do
      let wallet_ok ← debit_subscription_wallet_usd user amount debit_key metadata
      if wallet_ok = false then return failed
      else
      let result ← purchase_toman_subscription now user plan (some key) true (some 0) false true
      return answer result : Tx α).run s
    (Sells now s.view user.id key ∧ ∃ r v, x = (.ok (answer r), .opened v) ∧ r.ok = true ∧
      Sold now s.view v user.id plan.id key) ∨
    (¬Sells now s.view user.id key ∧ x.2.stored = s.stored ∧
      ∀ a, x.1 = .ok a → a = failed ∨ ∃ r, a = answer r) := by
  obtain ⟨db', hlooked, hdebit⟩ := run_debit user amount debit_key metadata s
  simp only [Prog.run_bind, hdebit, Prog.continueWith_ok, Bool.true_eq_false, if_false]
  have h := run_bot_purchase now user plan hkey ⟨s.stored, db'⟩
  change (_ ∧ ∃ r v, (purchase_toman_subscription now user plan (some key) true (some 0) false
    true).run _ = _ ∧ _) ∨ _ ∧ ((purchase_toman_subscription now user plan (some key) true (some 0)
    false true).run _).2.stored = _ at h
  rw [Sells.looked hlooked] at h
  rcases h with ⟨hsells, r, v, hrun, hok, hsold⟩ | ⟨hnot, hstored⟩
  · refine .inl ⟨hsells, r, v, ?_, hok, hsold.looked hlooked⟩
    rw [hrun]
    rfl
  · refine .inr ⟨hnot, ?_⟩
    generalize (purchase_toman_subscription now user plan (some key) true (some 0) false true).run
      ⟨s.stored, db'⟩ = x at hstored
    obtain ⟨e | r, s'⟩ := x
    · exact ⟨hstored, fun a ha => nomatch ha⟩
    · exact ⟨hstored, fun a ha => .inr ⟨r, (Except.ok.inj ha).symm⟩⟩

end

/-! ## One purchase in the bot -/

/-- A user presses the button of a plan. When the bot sends an invoice, the
platform confirms its payment later. -/
structure Flow where
  platform : Platform
  sender : Sender
  plan_id : Nat
  use_wallet : Bool
  started : Datetime
  confirmed : Datetime
  telegram_payment_charge_id : Option String
  provider_payment_charge_id : Option String

def Flow.payment (f : Flow) (payload : String) (total_rial : Int) : Payment where
  telegram_payment_charge_id := f.telegram_payment_charge_id
  provider_payment_charge_id := f.provider_payment_charge_id
  total_amount := some total_rial
  invoice_payload := some payload

/-- The store at the end, the time of it, and the Toman that were paid online. -/
structure Ending where
  store : Db
  time : Datetime
  online_toman : Int

def Flow.start (f : Flow) : Tx Started :=
  start_subscription_payment f.started f.platform f.sender f.plan_id f.use_wallet

def Flow.confirm (f : Flow) (payload : String) (total_rial : Int) : Tx Answer :=
  handle_successful_payment f.confirmed f.sender (f.payment payload total_rial)

def Flow.ending (f : Flow) (db : Db) : Ending :=
  match f.start.run (.opened db) with
  | (.ok (.invoice payload total_rial), s) =>
    ⟨((f.confirm payload total_rial).run (.opened s.stored)).2.stored, f.confirmed,
      total_rial / 10⟩
  | (_, s) => ⟨s.stored, f.started, 0⟩

section
variable {f : Flow} {db : Db} {u : UserPreference} {plan : SubscriptionPlan}

def Flow.price (db : Db) (plan : SubscriptionPlan) : Int := price_toman plan (configRow db)

def Flow.balance (db : Db) (u : UserPreference) : Int := available (accountRow db u.id)

/-- What is left to pay online. -/
def Flow.payable (f : Flow) (db : Db) (u : UserPreference) (plan : SubscriptionPlan) : Int :=
  payable_toman f.use_wallet (Flow.balance db u) (Flow.price db plan)

def Flow.enabled (db : Db) : Prop :=
  ((db.configs.first fun _ => true).all fun c => c.is_enabled = some true) = true

/-- The user's row as the start leaves it. -/
def Flow.met (f : Flow) (db : Db) (u : UserPreference) : Db :=
  putUser db (seen u f.sender.first_name f.sender.username)

def Flow.built (f : Flow) (db : Db) (u : UserPreference) (plan : SubscriptionPlan) :
    Except PyError String :=
  build_subscription_payload f.started f.sender.id plan.id
    (wallet_payment f.use_wallet (Flow.balance db u) (Flow.price db plan))
    (f.payable db u plan * 10)

theorem looked_met (w : Nat) : Looked w db (f.met db u) :=
  looked_putUser w db (seen u f.sender.first_name f.sender.username)

theorem wallet_key_ne (now : Datetime) (a b : Nat) : wallet_key now a b ≠ "" := by
  intro h
  unfold wallet_key at h
  simp only [String.append_eq_empty_iff] at h
  exact absurd h.1.1.1.1.1 (by decide)

theorem run_toman_balance (v : UserPreference) (s : Session Db) :
    (toman_balance v).run s =
      (.ok (available (accountRow s.view v.id)), ⟨s.stored, withAccount s.view v.id⟩) := by
  unfold toman_balance
  simp only [Prog.run_bind, run_get_or_create_billing_account, Prog.continueWith_ok,
    Prog.run_pure]

/-- The payment itself, for the user's row `v`. -/
theorem run_pay_subscription (now : Datetime) (platform : Platform) (sender : Sender)
    (v : UserPreference) (plan : SubscriptionPlan) (use_wallet : Bool) (s : Session Db) :
    let price := price_toman plan (configRow s.view)
    let balance := available (accountRow s.view v.id)
    let payable := payable_toman use_wallet balance price
    let key := wallet_key now v.id plan.id
    let x := (pay_subscription now platform sender v plan use_wallet).run s
    (payable ≤ 0 →
      (Sells now s.view v.id key ∧ ∃ db', x = (.ok .bought, .opened db') ∧
        Sold now s.view db' v.id plan.id key) ∨
      (¬Sells now s.view v.id key ∧ x.2.stored = s.stored ∧ ∀ p t, x.1 ≠ .ok (.invoice p t))) ∧
    (0 < payable → x.2.stored = s.stored ∧
      x.1 = if platform.takes_payments = false then .ok .refused
        else match build_subscription_payload now sender.id plan.id
            (wallet_payment use_wallet balance price) (payable * 10) with
          | .error _ => .ok .refused
          | .ok payload => .ok (.invoice payload (payable * 10))) := by
  have hlooked : Looked v.id s.view (withAccount (withConfig s.view) v.id) :=
    (looked_config _ _).trans (looked_account _ _)
  unfold pay_subscription
  simp only [Prog.run_bind, run_get_or_create_subscription_config, Prog.continueWith_ok,
    run_toman_balance, accountRow_withConfig]
  constructor
  · intro hle
    rw [if_pos hle]
    have h := run_debit_and_purchase now v plan (wallet_key_ne now v.id plan.id)
      (price_toman plan (configRow s.view)) (wallet_key now v.id plan.id ++ ":wallet-usd")
      [("plan_id", Scalar.int plan.id)] Started.refused
      (fun r => if r.ok then .bought else .refused)
      ⟨s.stored, withAccount (withConfig s.view) v.id⟩
    simp only [Sells.looked hlooked] at h
    rcases h with ⟨hsells, r, db', hx, hok, hsold⟩ | ⟨hnot, hstored, hanswer⟩
    · refine .inl ⟨hsells, db', ?_, hsold.looked hlooked⟩
      rw [hx, if_pos hok]
    · refine .inr ⟨hnot, hstored, fun p t hp => ?_⟩
      rcases hanswer _ hp with h | ⟨r, h⟩
      · cases h
      · split at h <;> cases h
  · intro hlt
    rw [if_neg (not_le.mpr hlt)]
    split
    · exact ⟨rfl, rfl⟩
    · cases build_subscription_payload now sender.id plan.id _ _ with
      | error e => exact ⟨rfl, rfl⟩
      | ok payload => exact ⟨rfl, rfl⟩

theorem run_start_off (hoff : ¬Flow.enabled db) :
    f.start.run (.opened db) = (.ok .refused, .opened db) := by
  have hoff' : ((db.configs.first fun _ => true).all fun c => c.is_enabled = some true) = false :=
    Bool.eq_false_iff.mpr hoff
  unfold Flow.start start_subscription_payment
  simp only [Prog.run_bind, is_sub_feature_enabled, Prog.run_read, Prog.continueWith_ok]
  rw [show (Session.opened db).view = db from rfl, hoff', if_pos rfl]
  rfl

/-- The query of a running subscription finds the running one of the views. -/
theorem first_activeRow (now : Datetime) (db : Db) (u : Nat) :
    (db.subscriptions.first fun r => r.user_id = u && active_at now r) = activeRow now db u :=
  rfl

/-- A start with the feature on, for a user and a plan that are there. -/
theorem run_start (hu : userOf db f.sender.id = some u) (hp : db.plans.get f.plan_id = some plan)
    (hon : Flow.enabled db) :
    f.start.run (.opened db) =
      match activeRow f.started db u.id with
      | some _ => (.ok .refused, .opened (f.met db u))
      | none => (pay_subscription f.started f.platform f.sender
          (seen u f.sender.first_name f.sender.username) plan f.use_wallet).run
            (.opened (f.met db u)) := by
  have hget := run_get_user hu f.sender.first_name f.sender.username
  unfold Flow.start start_subscription_payment
  simp only [Prog.run_bind, is_sub_feature_enabled, Prog.run_read, Prog.continueWith_ok]
  rw [if_neg (by rw [show (Session.opened db).view = db from rfl, hon]; simp), Prog.run_bind,
    Prog.run_read, Prog.continueWith_ok]
  rw [show (Session.opened db).view.plans.get f.plan_id = some plan from hp]
  simp only [Prog.run_bind, hget, Prog.continueWith_ok, Prog.run_read, seen_id]
  rw [first_activeRow,
    show activeRow f.started (Session.opened (putUser db (seen u _ _))).view u.id =
      activeRow f.started db u.id from rfl]
  cases activeRow f.started db u.id with
  | some r => rfl
  | none => rfl

/-! ## The confirmation -/

/-- The user has an active subscription, and the payment is not recorded. -/
def refusesActive (now : Datetime) (db : Db) (u : Nat) (key : String) : Bool :=
  match activeRow now db u with
  | none => false
  | some _ =>
    (db.ledger.first fun e => e.idempotency_key = some (key ++ ":payment")).isNone &&
      (db.ledger.first fun e => e.idempotency_key = some key).isNone

theorem run_blocked_by_active (now : Datetime) (v : UserPreference) (key : String)
    (s : Session Db) :
    (blocked_by_active now v key).run s = (.ok (refusesActive now s.view v.id key), s) := by
  unfold blocked_by_active refusesActive
  simp only [Prog.run_bind, Prog.run_read, Prog.continueWith_ok, first_activeRow]
  cases activeRow now s.view v.id with
  | none => rfl
  | some r => rfl

theorem subscription_key_ne (now : Datetime) (sender : Sender) (payload : SubscriptionPayload)
    (payment : Payment) : subscription_key now sender payload payment ≠ "" := by
  intro h
  unfold subscription_key at h
  simp only [String.append_eq_empty_iff] at h
  exact absurd h.1 (by decide)

/-- A confirmed payment activates the plan when the purchase can be made, and
else it leaves the store as the user was found in it. -/
theorem run_subscription_payment (now : Datetime) (sender : Sender) (p : SubscriptionPayload)
    (payment : Payment) {d : Db} {v : UserPreference}
    (hget : (get_user sender.id sender.first_name sender.username).run (.opened db) =
      (.ok v, .opened d)) (hp : d.plans.get p.plan_id.toNat = some plan) :
    let key := subscription_key now sender p payment
    let x := (handle_successful_subscription_payment now sender p payment).run (.opened db)
    (Sells now d v.id key ∧ ∃ db', x = (.ok .activated, .opened db') ∧
      Sold now d db' v.id plan.id key) ∨ (¬Sells now d v.id key ∧ x.2.stored = d) := by
  unfold handle_successful_subscription_payment
  simp only [Prog.run_bind, hget, Prog.continueWith_ok, Prog.run_read, Session.view_opened, hp,
    run_blocked_by_active]
  by_cases hb : refusesActive now d v.id (subscription_key now sender p payment) = true
  · refine .inr ⟨fun hs => ?_, ?_⟩
    · unfold refusesActive at hb
      rw [hs.idle] at hb
      cases hb
    · rw [if_pos hb]
      rfl
  · have h := run_debit_and_purchase now v plan
      (subscription_key_ne now sender p payment) p.wallet_payment_toman
      (subscription_key now sender p payment ++ ":wallet-usd")
      [("plan_id", Scalar.int plan.id), ("payment_platform", Scalar.str "bale"),
       ("total_amount_rial", Scalar.int (intOr0 payment.total_amount))] Answer.wallet_failed
      (fun r => if r.ok then .activated else .not_activated r.reason) (.opened d)
    rw [if_neg hb]
    rcases h with ⟨hsells, r, v, hx, hok, hsold⟩ | ⟨hnot, hstored, -⟩
    · refine .inl ⟨hsells, v, ?_, hsold⟩
      rw [hx, if_pos hok]
    · exact .inr ⟨hnot, hstored⟩

/-! ## The whole flow -/

/-- The payload of the invoice, as the bot reads it back. -/
def Flow.payload (f : Flow) (db : Db) (u : UserPreference) (plan : SubscriptionPlan) :
    SubscriptionPayload where
  user_id := f.sender.id
  plan_id := plan.id
  wallet_payment_toman :=
    max 0 (wallet_payment f.use_wallet (Flow.balance db u) (Flow.price db plan))
  total_rial := f.payable db u plan * 10
  created_at := unix_time f.started

/-- The key of the confirmed payment. -/
def Flow.charge_key (f : Flow) (db : Db) (u : UserPreference) (plan : SubscriptionPlan)
    (text : String) : String :=
  subscription_key f.confirmed f.sender (f.payload db u plan)
    (f.payment text (f.payable db u plan * 10))

/-- The flow buys the plan: the feature is on, the user has no active
subscription, and then either the wallet path makes its purchase, or an
invoice can be sent and its confirmed payment makes it. -/
def Flow.Buys (f : Flow) (db : Db) (u : UserPreference) (plan : SubscriptionPlan) : Prop :=
  Flow.enabled db ∧ activeRow f.started db u.id = none ∧
    if f.payable db u plan ≤ 0 then Sells f.started db u.id (wallet_key f.started u.id plan.id)
    else f.platform.takes_payments = true ∧ ∃ text, f.built db u plan = .ok text ∧
      (f.payload db u plan).Valid ∧ Sells f.confirmed db u.id (f.charge_key db u plan text)

/-- An active subscription is there at the end that was not there before. -/
def Flow.Activated (f : Flow) (db : Db) (u : UserPreference) : Prop :=
  activeRow (f.ending db).time db u.id = none ∧
    activeRow (f.ending db).time (f.ending db).store u.id ≠ none

/-- Both balances of the user are as they were. -/
def Kept (db db' : Db) (u : Nat) : Prop :=
  intOr0 (accountRow db' u).gift_balance_toman = intOr0 (accountRow db u).gift_balance_toman ∧
    intOr0 (accountRow db' u).paid_balance_toman = intOr0 (accountRow db u).paid_balance_toman

/-- What was bought is paid for, from the balances and online, and without a
purchase the balances stay. -/
structure PaidFor (f : Flow) (db : Db) (u : UserPreference) (plan : SubscriptionPlan) : Prop where
  paid : f.Activated db u →
    available (accountRow db u.id) - available (accountRow (f.ending db).store u.id) +
      (f.ending db).online_toman = Flow.price db plan
  kept : ¬f.Activated db u → Kept db (f.ending db).store u.id

theorem kept_of_looked {db' : Db} (h : Looked u.id db db') : Kept db db' u.id := by
  unfold Kept
  rw [h.account]
  exact ⟨rfl, rfl⟩

theorem not_activated_of_looked (h : Looked u.id db (f.ending db).store) : ¬f.Activated db u := by
  rintro ⟨hbefore, hafter⟩
  rw [h.activeRow] at hafter
  exact hafter hbefore

theorem ending_without_invoice
    (h : ∀ p t, (f.start.run (.opened db)).1 ≠ .ok (.invoice p t)) :
    f.ending db = ⟨(f.start.run (.opened db)).2.stored, f.started, 0⟩ := by
  unfold Flow.ending
  generalize f.start.run (.opened db) = x at h
  obtain ⟨e | st, s⟩ := x
  · rfl
  · cases st with
    | refused => rfl
    | bought => rfl
    | invoice p t => exact absurd rfl (h p t)

/-- The confirmation of the invoice reads the payload that the start wrote. -/
theorem run_confirm {text : String} (hb : f.built db u plan = .ok text) (d : Db) :
    (f.confirm text (f.payable db u plan * 10)).run (.opened d) =
      if (f.payload db u plan).Valid then
        (handle_successful_subscription_payment f.confirmed f.sender (f.payload db u plan)
          (f.payment text (f.payable db u plan * 10))).run (.opened d)
      else (.ok .bad_payload, .opened d) := by
  have hparse : parse_payment_payload (some text) =
      if (f.payload db u plan).Valid then some (.subscription (f.payload db u plan)) else none :=
    parse_built_subscription hb
  unfold Flow.confirm handle_successful_payment checked_payload
  rw [show (f.payment text (f.payable db u plan * 10)).invoice_payload = some text from rfl, hparse]
  by_cases hv : (f.payload db u plan).Valid
  · rw [if_pos hv, if_pos hv]
    simp only
    rw [if_neg (by simp [Flow.payment, intOr0, PaymentPayload.total_rial, Flow.payload]),
      if_neg (by simp [PaymentPayload.user_id, Flow.payload])]
  · rw [if_neg hv, if_neg hv]
    rfl

theorem sold_ends_kept {now : Datetime} {key : String} {d db' : Db} (hd : Looked u.id db d)
    (h : Sold now d db' u.id plan.id key) : Kept db db' u.id :=
  ⟨(h.looked hd).gift, (h.looked hd).paid⟩

/-- The wallet path: the plan is bought, or nothing is. -/
theorem ending_of_wallet (hon : Flow.enabled db) (hidle : activeRow f.started db u.id = none)
    (hle : f.payable db u plan ≤ 0)
    (hx : (Sells f.started db u.id (wallet_key f.started u.id plan.id) ∧ ∃ db',
        f.start.run (.opened db) = (.ok .bought, .opened db') ∧
          Sold f.started (f.met db u) db' u.id plan.id (wallet_key f.started u.id plan.id)) ∨
      (¬Sells f.started db u.id (wallet_key f.started u.id plan.id) ∧
        (f.start.run (.opened db)).2.stored = f.met db u ∧
        ∀ p t, (f.start.run (.opened db)).1 ≠ .ok (.invoice p t))) :
    (f.Buys db u plan ∧ f.Activated db u ∧ Kept db (f.ending db).store u.id ∧
      (f.ending db).online_toman = f.payable db u plan) ∨
    (¬f.Buys db u plan ∧ Looked u.id db (f.ending db).store) := by
  rcases hx with ⟨hsells, db', hx, hsold⟩ | ⟨hnot, hstored, hno⟩
  · have hend : f.ending db = ⟨db', f.started, 0⟩ := by
      unfold Flow.ending
      rw [hx]
      rfl
    refine .inl ⟨⟨hon, hidle, by rwa [if_pos hle]⟩, ⟨?_, ?_⟩, ?_, ?_⟩
    · rw [hend]
      exact hidle
    · rw [hend]
      obtain ⟨r, hr, -⟩ := hsold.active
      simp [hr]
    · rw [hend]
      exact sold_ends_kept (looked_met _) hsold
    · rw [hend]
      have : 0 ≤ f.payable db u plan := le_max_left _ _
      exact le_antisymm this hle
  · refine .inr ⟨fun hbuys => ?_, ?_⟩
    · have := hbuys.2.2
      rw [if_pos hle] at this
      exact hnot this
    · rw [ending_without_invoice hno, hstored]
      exact looked_met _

/-- The flow ends with the payment of the invoice that it was sent. -/
theorem ending_with_invoice {text : String} {n : Int}
    (hres : (f.start.run (.opened db)).1 = .ok (.invoice text n))
    (hstored : (f.start.run (.opened db)).2.stored = f.met db u) :
    f.ending db = ⟨((f.confirm text n).run (.opened (f.met db u))).2.stored, f.confirmed,
      n / 10⟩ := by
  unfold Flow.ending
  generalize f.start.run (.opened db) = x at hres hstored
  obtain ⟨r, s⟩ := x
  cases hres
  change s.stored = f.met db u at hstored
  rw [← hstored]

/-- With the payload built, the payment decides whether the flow buys. -/
theorem buys_built_iff {text : String} (hon : Flow.enabled db)
    (hidle : activeRow f.started db u.id = none) (hlt : 0 < f.payable db u plan)
    (hplat : ¬f.platform.takes_payments = false) (hb : f.built db u plan = .ok text) :
    f.Buys db u plan ↔ (f.payload db u plan).Valid ∧
      Sells f.confirmed db u.id (f.charge_key db u plan text) := by
  unfold Flow.Buys
  rw [if_neg (not_le.mpr hlt)]
  constructor
  · rintro ⟨-, -, -, t, ht, hv, hs⟩
    rw [hb] at ht
    cases ht
    exact ⟨hv, hs⟩
  · rintro ⟨hv, hs⟩
    exact ⟨hon, hidle, eq_true_of_ne_false hplat, text, hb, hv, hs⟩

/-- The online path: the confirmed payment buys the plan, or nothing is
bought. -/
theorem ending_of_online (hu : userOf db f.sender.id = some u)
    (hp : db.plans.get f.plan_id = some plan) (hon : Flow.enabled db)
    (hidle : activeRow f.started db u.id = none) (hlt : 0 < f.payable db u plan)
    (hstored : (f.start.run (.opened db)).2.stored = f.met db u)
    (hres : (f.start.run (.opened db)).1 =
      if f.platform.takes_payments = false then .ok .refused
      else match f.built db u plan with
        | .error _ => .ok .refused
        | .ok payload => .ok (.invoice payload (f.payable db u plan * 10))) :
    (f.Buys db u plan ∧ f.Activated db u ∧ Kept db (f.ending db).store u.id ∧
      (f.ending db).online_toman = f.payable db u plan) ∨
    (¬f.Buys db u plan ∧ Looked u.id db (f.ending db).store) := by
  have hle : ¬f.payable db u plan ≤ 0 := not_le.mpr hlt
  have hmet : Looked u.id db (f.met db u) := looked_met u.id
  by_cases hplat : f.platform.takes_payments = false
  · rw [if_pos hplat] at hres
    refine .inr ⟨fun hbuys => ?_, ?_⟩
    · have := hbuys.2.2
      rw [if_neg hle, hplat] at this
      exact absurd this.1 (by decide)
    · rw [ending_without_invoice (by simp [hres]), hstored]
      exact hmet
  rw [if_neg hplat] at hres
  cases hb : f.built db u plan with
  | error e =>
    rw [hb] at hres
    refine .inr ⟨fun hbuys => ?_, ?_⟩
    · have := hbuys.2.2
      rw [if_neg hle] at this
      obtain ⟨-, text, htext, -⟩ := this
      rw [hb] at htext
      cases htext
    · rw [ending_without_invoice (by simp [hres]), hstored]
      exact hmet
  | ok text =>
    rw [hb] at hres
    have hend := ending_with_invoice hres hstored
    rw [run_confirm hb] at hend
    have hbuys := buys_built_iff hon hidle hlt hplat hb
    by_cases hv : (f.payload db u plan).Valid
    · rw [if_pos hv] at hend
      have hrow : userOf (f.met db u) f.sender.id =
          some (seen u f.sender.first_name f.sender.username) :=
        userOf_putUser hu (seen_id ..) (seen_telegram ..)
      have hid : plan.id = f.plan_id := ((Table.get_eq_some _).mp hp).2
      have hget := run_get_user hrow f.sender.first_name f.sender.username
      have hmet := hmet.trans (looked_putUser u.id (f.met db u)
        (seen (seen u f.sender.first_name f.sender.username) f.sender.first_name
          f.sender.username))
      have hplan : (putUser (f.met db u) (seen (seen u f.sender.first_name f.sender.username)
          f.sender.first_name f.sender.username)).plans.get
          (f.payload db u plan).plan_id.toNat = some plan := by
        change db.plans.get (plan.id : Int).toNat = some plan
        rw [Int.toNat_natCast, hid]
        exact hp
      have hx := run_subscription_payment f.confirmed f.sender (f.payload db u plan)
        (f.payment text (f.payable db u plan * 10)) hget hplan
      simp only [seen_id, Sells.looked hmet] at hx
      rcases hx with ⟨hsells, db', hx, hsold⟩ | ⟨hnot, hx⟩
      · rw [hx] at hend
        refine .inl ⟨hbuys.mpr ⟨hv, hsells⟩, ⟨?_, ?_⟩, ?_, ?_⟩
        · rw [hend]
          exact hsells.idle
        · rw [hend]
          obtain ⟨r, hr, -⟩ := hsold.active
          simp [hr]
        · rw [hend]
          exact sold_ends_kept hmet hsold
        · rw [hend]
          simp
      · refine .inr ⟨fun h => hnot (hbuys.mp h).2, ?_⟩
        rw [hend, hx]
        exact hmet
    · rw [if_neg hv] at hend
      refine .inr ⟨fun h => hv (hbuys.mp h).1, ?_⟩
      rw [hend]
      exact hmet

/-- How the flow ends: it buys and keeps the balances, or it changes nothing
that the user's account or subscriptions hang on. -/
theorem ending_cases (hu : userOf db f.sender.id = some u)
    (hp : db.plans.get f.plan_id = some plan) :
    (f.Buys db u plan ∧ f.Activated db u ∧ Kept db (f.ending db).store u.id ∧
      (f.ending db).online_toman = f.payable db u plan) ∨
    (¬f.Buys db u plan ∧ Looked u.id db (f.ending db).store) := by
  have hmet : Looked u.id db (f.met db u) := looked_met u.id
  have hprice : price_toman plan (configRow (f.met db u)) = Flow.price db plan := rfl
  have hbalance : available (accountRow (f.met db u) u.id) = Flow.balance db u := rfl
  by_cases hon : Flow.enabled db
  swap
  · refine .inr ⟨fun h => hon h.1, ?_⟩
    unfold Flow.ending
    rw [run_start_off hon]
    exact .refl _ _
  have hstart := run_start hu hp hon
  cases ha : activeRow f.started db u.id with
  | some r =>
    rw [ha] at hstart
    refine .inr ⟨fun h => ?_, ?_⟩
    · rw [h.2.1] at ha
      cases ha
    · unfold Flow.ending
      rw [hstart]
      exact hmet
  | none =>
    rw [ha] at hstart
    simp only at hstart
    obtain ⟨hwallet, honline⟩ := run_pay_subscription f.started f.platform f.sender
      (seen u f.sender.first_name f.sender.username) plan f.use_wallet (.opened (f.met db u))
    simp only [seen_id, Session.view_opened, Session.stored_opened, hprice, hbalance,
      Sells.looked hmet] at hwallet honline
    rw [← hstart] at hwallet honline
    by_cases hle : f.payable db u plan ≤ 0
    · exact ending_of_wallet hon ha hle (hwallet hle)
    · have hlt := not_le.mp hle
      obtain ⟨hstored, hres⟩ := honline hlt
      exact ending_of_online hu hp hon ha hlt hstored hres

/-- LAW: A purchase in the bot is paid for exactly when nothing of the price
is left to the wallet, or when the flow does not buy. -/
theorem a_purchase_is_paid_for_iff_all_of_it_is_paid_online (f : Flow) (db : Db)
    (u : UserPreference) (plan : SubscriptionPlan) (hu : userOf db f.sender.id = some u)
    (hp : db.plans.get f.plan_id = some plan) :
    PaidFor f db u plan ↔ (f.Buys db u plan → f.payable db u plan = Flow.price db plan) := by
  rcases ending_cases hu hp with ⟨hbuys, hact, ⟨hgift, hpaid⟩, honline⟩ | ⟨hnot, hlooked⟩
  · have hsame : available (accountRow (f.ending db).store u.id) =
        available (accountRow db u.id) := by
      unfold available
      rw [hgift, hpaid]
    constructor
    · intro h _
      have := h.paid hact
      rw [hsame, sub_self, zero_add, honline] at this
      exact this
    · intro h
      refine ⟨fun _ => ?_, fun hno => absurd hact hno⟩
      rw [hsame, sub_self, zero_add, honline]
      exact h hbuys
  · constructor
    · exact fun _ h => absurd h hnot
    · exact fun _ => ⟨fun hact => absurd hact (not_activated_of_looked hlooked),
        fun _ => kept_of_looked hlooked⟩

end

/-- The customer of the shop buys the tiered plan for 80000 toman. -/
def plan_button (use_wallet : Bool) : Flow where
  platform := ⟨true, some "token"⟩
  sender := { id := 100 }
  plan_id := 1
  use_wallet
  started := noon
  confirmed := noon + hours 1
  telegram_payment_charge_id := some "charge-1"
  provider_payment_charge_id := none

/-- The wallet's 5000 toman are left out of the invoice and stay in the wallet. -/
theorem the_wallet_part_is_never_paid :
    ¬∀ (f : Flow) (db : Db) (u : UserPreference) (plan : SubscriptionPlan),
      userOf db f.sender.id = some u → db.plans.get f.plan_id = some plan →
      PaidFor f db u plan := by
  intro h
  have hpaid := (h (plan_button true) shop customer tiered_plan (by decide +kernel)
    (by decide +kernel)).paid ⟨by decide +kernel, by decide +kernel⟩
  revert hpaid
  decide +kernel

/-- Without the wallet the invoice asks for the whole price. -/
theorem an_online_purchase_is_paid_for :
    PaidFor (plan_button false) shop customer tiered_plan ↔
      ((plan_button false).Buys shop customer tiered_plan →
        (plan_button false).payable shop customer tiered_plan = Flow.price shop tiered_plan) :=
  a_purchase_is_paid_for_iff_all_of_it_is_paid_online (plan_button false) shop customer tiered_plan
    (by decide +kernel) (by decide +kernel)

end dr_boz.bot_purchases
