-- What a call can do to the books: the accounts, the ledger, the
-- subscriptions and the pools change by a few kinds of effects only. A law
-- that holds across calls is proved once for each kind. A reactivation is
-- not among the kinds: what it does depends on no test of its own.
import DrBoz.CheckRuns
import DrBoz.PurchaseRuns
import DrBoz.PaymentRequests

open keyed_table unit_of_work dr_boz.py dr_boz.models dr_boz.codex_capacity dr_boz.toman_billing
open dr_boz.payment_requests dr_boz.subscriptions
open dr_boz.views dr_boz.billing_runs dr_boz.chat_runs dr_boz.check_runs dr_boz.purchase_runs

namespace dr_boz.effects

/-- The ledger takes the entries one after the other. -/
def TakesAll (t : Table TomanLedgerEntry) : List TomanLedgerEntry → Prop
  | [] => True
  | e :: es => t.Accepts e ∧ TakesAll (t.insert e) es

/-- No request of the top-up branch asks for a negative amount, as the checks
of its creation see to it. -/
def RequestsFit (db : Db) : Prop :=
  ∀ r ∈ db.payment_requests.rows, plan_of_request r = none → 0 ≤ r.amount_toman

/-- One effect of a call at a time. -/
inductive Effect (now : Datetime) (db : Db) : Db → Prop where
  | account (u : Nat) : Effect now db (withAccount db u)
  | config : Effect now db (withConfig db)
  | posting (a b : UserBillingAccount) (es : List TomanLedgerEntry)
      (ha : db.accounts.get a.id = some a) (hb : SameOwner b a)
      (hes : ∀ e ∈ es, e.billing_account_id = some a.id)
      (hg : intOr0 b.gift_balance_toman =
        intOr0 a.gift_balance_toman + (es.map (·.gift_delta_toman)).sum)
      (hp : intOr0 b.paid_balance_toman =
        intOr0 a.paid_balance_toman + (es.map (·.paid_delta_toman)).sum)
      (hn : RequestsFit db → 0 ≤ intOr0 a.gift_balance_toman → 0 ≤ intOr0 a.paid_balance_toman →
        0 ≤ intOr0 b.gift_balance_toman ∧ 0 ≤ intOr0 b.paid_balance_toman)
      (ht : TakesAll db.ledger es) : Effect now db (post db b es)
  | window (u v : UserSubscription) (hu : db.subscriptions.get u.id = some u)
      (hv : SameTerms v u) : Effect now db (putSubscription db v)
  | subscribe (u : UserSubscription) (pool : CapacityPool)
      (hnone : ∀ r ∈ db.subscriptions.rows, r.user_id = u.user_id → active_at now r = false)
      (hu : u.status = some "active" ∧ u.pool_id = none)
      (hp : db.pools.lowest has_room = some pool) : Effect now db (subscribed db u pool)
  | unassigned (u : UserSubscription)
      (hnone : ∀ r ∈ db.subscriptions.rows, r.user_id = u.user_id → active_at now r = false)
      (hu : u.status = some "active" ∧ u.pool_id = none)
      (hp : db.pools.lowest has_room = none) :
      Effect now db (unassigned db u)
  | cancel (u : UserSubscription) (hu : db.subscriptions.get u.id = some u) :
      Effect now db (cancelledIn now db u)
  | aside (db' : Db) (ha : db'.accounts = db.accounts) (hl : db'.ledger = db.ledger)
      (hs : db'.subscriptions = db.subscriptions) (hp : db'.pools = db.pools)
      (hr : RequestsFit db → RequestsFit db') : Effect now db db'

abbrev EffectTrail (now : Datetime) := Trail (Effect now)

/-! ## Charges, top-ups and the discount flag -/

section
variable {now : Datetime} {s : Session Db}

theorem trail_account (u : Nat) : EffectTrail now s ⟨s.stored, withAccount s.view u⟩ :=
  (Trail.refl s).step (.account u)

theorem trail_prepared (u : Nat) : EffectTrail now s ⟨s.stored, prepared s.view u⟩ :=
  (trail_account u).step .config

/-- A cost that the balances can pay leaves both of them at zero or more. -/
theorem spent_nonneg {a : UserBillingAccount} {cost : Int} (hle : cost ≤ available a)
    (hp : 0 ≤ intOr0 a.paid_balance_toman) :
    0 ≤ intOr0 (spent_gift_first a cost).gift_balance_toman ∧
      0 ≤ intOr0 (spent_gift_first a cost).paid_balance_toman := by
  unfold available at hle
  simp only [spent_gift_first]
  constructor
  · have := min_le_left (intOr0 a.gift_balance_toman) cost
    exact sub_nonneg.mpr this
  · change 0 ≤ intOr0 a.paid_balance_toman - (cost - min (intOr0 a.gift_balance_toman) cost)
    omega

theorem effect_charge {db : Db} {a : UserBillingAccount} {cost : Int} {key : Option String}
    {e : TomanLedgerEntry} (ha : db.accounts.get a.id = some a)
    (hle : cost ≤ available a) (he : ChargeEntry a cost key e) (hacc : db.ledger.Accepts e) :
    Effect now db (post db (spent_gift_first a cost) [e]) := by
  refine .posting a _ [e] ha (owner_spent_gift_first a cost) ?_ ?_ ?_ ?_ ⟨hacc, trivial⟩
  · intro x hx
    rw [List.mem_singleton.mp hx]
    exact he.account
  · simp only [spent_gift_first, List.map_cons, List.map_nil, List.sum_cons, List.sum_nil, he.gift]
    simp only [intOr0, Option.getD_some]
    omega
  · simp only [spent_gift_first, List.map_cons, List.map_nil, List.sum_cons, List.sum_nil, he.paid]
    simp only [intOr0, Option.getD_some]
    omega
  · intro _ _ hp
    exact spent_nonneg hle hp

theorem trail_of_generic {c : GenericCall} {r : Except PyError GenericUsageChargeResult}
    {s' : Session Db} (h : GenericRun c s r s') : EffectTrail now s s' := by
  cases h with
  | replay e r hk hr => exact trail_account _
  | raised e hk hc => exact trail_prepared _
  | free cost r hk hc hle hr => exact trail_prepared _
  | refused cost r hk hc hpos hlt hr => exact trail_prepared _
  | paid cost e r hk hc hpos hle he ha hr =>
    exact ((trail_prepared c.user.id).step
      (effect_charge (get_prepared _ _) hle he ha)).commitIf _
  | conflict => exact (Trail.refl s).rollback

theorem trail_of_topup {c : TopupCall} {r : Except PyError TopupResult} {s' : Session Db}
    (h : TopupRun now c s r s') : EffectTrail now s s' := by
  cases h with
  | raised e hq => exact trail_prepared _
  | replay q e r hq hk hr => exact trail_prepared _
  | refused q r hq hk hle hr => exact trail_prepared _
  | credited q e r hq hk hpos hb hg hp hkey ha hr =>
    refine ((trail_prepared c.user.id).step (.posting (accountRow s.view c.user.id) _ [e]
      (get_prepared _ _) (owner_topped_up _ q) ?_ ?_ ?_ ?_ ⟨ha, trivial⟩)).commitIf _
    · intro x hx
      rw [List.mem_singleton.mp hx]
      exact hb
    · simp [topped_up, hg]
    · simp [topped_up, hp, intOr0]
    · intro _ hg0 hp0
      refine ⟨hg0, ?_⟩
      simp only [topped_up, intOr0, Option.getD_some] at hp0 ⊢
      omega
  | conflict q e hq hkey ha => exact (Trail.refl s).rollback

theorem trail_of_mark {c : MarkCall} {r : Except PyError (Option TomanLedgerEntry)}
    {s' : Session Db} (h : MarkRun c s r s') : EffectTrail now s s' := by
  cases h with
  | already h => exact trail_account _
  | replay e hk =>
    refine ((trail_account c.user.id).step (.posting (accountRow s.view c.user.id) _ []
      (get_accountRow _ _) (owner_marked _) ?_ ?_ ?_ ?_ trivial)).commitIf _
    · intro x hx
      cases hx
    · simp [marked]
    · simp [marked]
    · exact fun _ hg hp => ⟨hg, hp⟩
  | fresh e e' hk hb hg hp hkey ha =>
    refine ((trail_account c.user.id).step (.posting (accountRow s.view c.user.id) _ [e]
      (get_accountRow _ _) (owner_marked_once _) ?_ ?_ ?_ ?_ ⟨ha, trivial⟩)).commitIf _
    · intro x hx
      rw [List.mem_singleton.mp hx]
      exact hb
    · simp [marked_once, marked, hg]
    · simp [marked_once, marked, hp]
    · exact fun _ hg hp => ⟨hg, hp⟩
  | conflict e hkey ha => exact (Trail.refl s).rollback

/-- A step of the window on the row that the call has found. -/
theorem trail_window {u : Nat} {r v : UserSubscription} (hr : activeRow now s.view u = some r)
    (hv : SameTerms v r) :
    EffectTrail now s ⟨s.stored, putSubscription (prepared s.view u) v⟩ :=
  (trail_prepared u).step (.window r v (get_activeRow hr) hv)

theorem trail_left {u : Nat} {db : Db} (h : LeftToBalances now s.view u db) :
    EffectTrail now s ⟨s.stored, db⟩ := by
  cases h with
  | plain r h => exact trail_prepared u
  | limited r w plan hit cooling h hw hl hc hb =>
    exact trail_window (subscriptionOf_row h) (freshWeek_terms hw)

theorem trail_of_chat {c : ChatCall} {r : Except PyError ChatUsageChargeResult} {s' : Session Db}
    (h : ChatRun now c s r s') : EffectTrail now s s' := by
  cases h with
  | quote_raised e hq => exact trail_prepared _
  | replay q e r hq hk hr => exact trail_prepared _
  | free q r hq hk hle hr => exact trail_prepared _
  | no_plan q e hq hk hpos h => exact trail_prepared _
  | window_raised q r v e hq hk hpos ha hv hw => exact trail_window ha hv
  | start_raised q w plan e hq hk hpos hc he =>
    obtain ⟨r, hf, hw⟩ := hc.found
    exact trail_window (subscriptionOf_row hf)
      ((freshCooldown_terms now w).trans (freshWeek_terms hw))
  | covered q w v plan r hq hk hpos hc hv hr =>
    obtain ⟨r', hf, hw⟩ := hc.found
    have ht := (openWindow_terms hv).trans ((freshCooldown_terms now w).trans (freshWeek_terms hw))
    exact (trail_window (subscriptionOf_row hf) ((chargedWindow_terms v _).trans ht)).commitIf _
  | refused q db r hq hk hpos hb hlt hr => exact trail_left hb
  | paid q db e r hq hk hpos hb hle he ha hr =>
    obtain ⟨hacc, hled⟩ := hb.frame
    have hget : db.accounts.get (accountRow s.view c.user.id).id =
        some (accountRow s.view c.user.id) := by
      rw [hacc]; exact get_accountRow _ _
    exact ((trail_left hb).step (effect_charge hget hle he (hled ▸ ha))).commitIf _
  | conflict q db e hq hk hpos hb hle hkey ha => exact (Trail.refl s).rollback

theorem trail_of_check {c : ChatCall} {r : Except PyError ChatUsageChargeResult} {s' : Session Db}
    (h : CheckRun now c s r s') : EffectTrail now s s' := by
  have left : ∀ db, CheckLeaves now s.view c.user.id db → EffectTrail now s ⟨s.stored, db⟩ := by
    intro db hb
    cases hb with
    | plain r h => exact trail_prepared _
    | limited r w plan hit cooling h hw hl hc hb =>
      exact trail_window (subscriptionOf_row h)
        ((freshCooldown_terms now w).trans (freshWeek_terms hw))
  cases h with
  | quote_raised e hq => exact trail_prepared _
  | free q r hq hle hr hn => exact trail_prepared _
  | no_plan q e hq hpos h => exact trail_prepared _
  | window_raised q r v plan e e' hq hpos h hv hw => exact trail_window (subscriptionOf_row h) hv
  | covered q w plan r hq hpos hc hr hn =>
    obtain ⟨r', hf, hw⟩ := hc.found
    exact trail_window (subscriptionOf_row hf)
      ((freshCooldown_terms now w).trans (freshWeek_terms hw))
  | payg q db r hq hpos hb hle hr hn => exact left db hb
  | refused q db r hq hpos hb hlt hr => exact left db hb

/-! ## Purchases -/

theorem activeRow_none (db : Db) {u : Nat} (h : activeRow now db u = none) :
    ∀ r ∈ db.subscriptions.rows, r.user_id = u → active_at now r = false := by
  intro r hr hu
  have := Table.first_eq_none.mp h r hr
  simpa [hu] using this

theorem wallet_part_nonneg {payment : Int} (h : 0 ≤ payment) (confirmed : Bool)
    (wallet : Option Int) : 0 ≤ wallet_part payment confirmed wallet := by
  unfold wallet_part
  split
  · omega
  · exact le_min h (le_max_left _ _)

theorem plan_price_nonneg (plan : SubscriptionPlan) (config : SubscriptionConfig) :
    0 ≤ plan_price_toman plan config := by
  unfold plan_price_toman
  split
  · exact le_max_left _ _
  · exact le_max_left _ _

theorem plan_gift_nonneg (plan : SubscriptionPlan) (config : SubscriptionConfig) :
    0 ≤ plan_gift_toman plan config := by
  unfold plan_gift_toman
  split
  · exact le_max_left _ _
  · exact le_max_left _ _

theorem wallet_nonneg (c : PurchaseCall) (db : Db) : 0 ≤ c.wallet db :=
  wallet_part_nonneg (plan_price_nonneg _ _) _ _

/-- What a purchase takes from the paid balance. -/
theorem bought_paid (c : PurchaseCall) (db : Db) :
    intOr0 (c.account db).paid_balance_toman =
      intOr0 (accountRow db c.user.id).paid_balance_toman - c.wallet db := by
  have hw := wallet_nonneg c db
  simp only [PurchaseCall.account, bought]
  by_cases h : 0 < c.wallet db
  · rw [if_pos h]
    rfl
  · rw [if_neg h]
    omega

theorem bought_gift (c : PurchaseCall) (db : Db) :
    intOr0 (c.account db).gift_balance_toman =
      intOr0 (accountRow db c.user.id).gift_balance_toman +
        if c.grant_gift_toman_balance then c.gift db else 0 := rfl

theorem trail_of_purchase {c : PurchaseCall} {r : Except PyError PurchaseTomanSubscriptionResult}
    {s' : Session Db} (h : PurchaseRun now c s r s') : EffectTrail now s s' := by
  cases h with
  | replay e r hk hr => exact trail_account _
  | active_exists u r hk ha hr => exact trail_account _
  | unpaid r hk ha hu hr => exact trail_prepared _
  | end_raised e hk ha hu he => exact trail_prepared _
  | no_pool r hk ha hu hp hr => exact trail_prepared _
  | bought t pool e₁ e₂ r hk ha hu ht hp he h1 h2 hr =>
    have hw := wallet_nonneg c s.view
    have hsub : Effect now (c.base s.view) (subscribed (c.base s.view) (c.row now t) pool) :=
      .subscribe _ pool (activeRow_none (c.base s.view) ha) ⟨rfl, rfl⟩ hp
    refine (((trail_prepared c.user.id).step hsub).step (.posting (accountRow s.view c.user.id)
      (c.account s.view) [e₁, e₂] (get_accountRow _ _) (owner_bought _ _ _ _ _) ?_ ?_ ?_ ?_
      ⟨h1, h2, trivial⟩)).commitIf _
    · intro x hx
      simp only [List.mem_cons, List.not_mem_nil, or_false] at hx
      rcases hx with rfl | rfl
      · exact he.payment_account
      · exact he.gift_account
    · simp [bought_gift, he.payment_gift, he.gift_gift]
    · rw [bought_paid]
      simp only [List.map_cons, List.map_nil, List.sum_cons, List.sum_nil, he.payment_paid,
        he.gift_paid]
      split <;> omega
    · intro _ hg0 hp0
      have hlow : ¬intOr0 (accountRow s.view c.user.id).paid_balance_toman < c.wallet s.view :=
        fun hlt => hu (.inl hlt)
      have hg := plan_gift_nonneg c.plan (configRow s.view)
      rw [bought_paid, bought_gift]
      refine ⟨?_, by omega⟩
      unfold PurchaseCall.gift
      split <;> omega
  | conflict hk ha hu => exact (Trail.refl s).rollback

end

/-! ## Changes beside the books -/

/-- Changes of tables that the books do not depend on. -/
def isAside : Change → Bool
  | .addUser _ | .setTelegramId _ _ | .addReferralEvent _ | .addClick _ | .setClick _ _
  | .setUser _ _ | .addRedemption _ | .setRedemption _ _ | .setPaymentRequest _ _
  | .addAdminAction _ | .addWallet _ | .setWallet _ _ | .addCreditLedger _ => true
  | _ => false

/-- An update of a request keeps its amount and its plan. -/
theorem requestsFit_set {db : Db} (o n : PaymentRequest) (h : RequestsFit db) :
    RequestsFit (db.apply (.setPaymentRequest o n)) := by
  intro r hr hn
  obtain ⟨x, hx, rfl⟩ := List.mem_map.mp hr
  by_cases hk : Row.key x = n.id
  · rw [if_pos hk] at hn ⊢
    exact h x hx hn
  · rw [if_neg hk] at hn ⊢
    exact h x hx hn

theorem effect_aside (now : Datetime) (db : Db) {c : Change} (hc : isAside c = true) :
    Effect now db (db.apply c) := by
  cases c with
  | setPaymentRequest o n => exact .aside _ rfl rfl rfl rfl (requestsFit_set o n)
  | addUser | setTelegramId | setUser | addRedemption | setRedemption | addAdminAction | addWallet
  | setWallet | addCreditLedger | addReferralEvent | addClick | setClick =>
    exact .aside _ rfl rfl rfl rfl id
  | addAccount | setAccount | addLedger | addSubscription | setSubscription | deleteSubscription
  | setPool | addConfig | addPaymentRequest | addStarterConfig | setStarterConfig => cases hc

theorem moves_aside (now : Datetime) {c : Change} (hc : isAside c = true) :
    (Prog.flush c : Tx Unit).Moves (Effect now) :=
  Prog.moves_flush fun db => effect_aside now db hc

/-! ## Trials and cancellations -/

/-- The checks of a trial read only. Those that pass have found the row of the
user and no subscription with the status `active`. -/
theorem run_trial_checks (user_id : Nat) (s : Session Db) :
    (∃ user config plan_id, s.view.users.get user_id = some user ∧
      (∀ r ∈ s.view.subscriptions.rows, r.user_id = user_id → r.status ≠ some "active") ∧
      (trial_checks user_id).run s = (.ok (user, config, plan_id), s)) ∨
    ∃ msg, (trial_checks user_id).run s = (.error (.trial_service_error msg), s) := by
  unfold trial_checks
  simp only [Prog.run_bind, Prog.run_read, Prog.continueWith_ok]
  cases hu : s.view.users.get user_id with
  | none => exact .inr ⟨_, rfl⟩
  | some user =>
    have hid : user.id = user_id := ((Table.get_eq_some _).mp hu).2
    simp only
    split
    · exact .inr ⟨_, rfl⟩
    simp only [Prog.run_bind, Prog.run_read, Prog.continueWith_ok]
    cases hc : s.view.trial_configs.first fun _ => true with
    | none => exact .inr ⟨_, rfl⟩
    | some config =>
      simp only
      split
      · exact .inr ⟨_, rfl⟩
      simp only [Prog.run_bind, Prog.run_read, Prog.continueWith_ok]
      cases hs : s.view.subscriptions.first fun u =>
        u.user_id = user.id && u.status = some "active" with
      | some _ => exact .inr ⟨_, rfl⟩
      | none =>
        refine .inl ⟨user, config, _, rfl, ?_, rfl⟩
        intro r hr hru hst
        have := Table.first_eq_none.mp hs r hr
        simp [hru, hid, hst] at this

/-- The subscription row that a trial adds. -/
def trialRow (now expires_at : Datetime) (user_id plan_id : Nat) : UserSubscription :=
  { user_id, plan_id, purchased_at := some now, expires_at }

theorem trail_of_trial (now : Datetime) (user_id : Nat) (reason : String) (s : Session Db) :
    EffectTrail now s ((grant_trial_subscription now user_id reason).run s).2 := by
  unfold grant_trial_subscription
  simp only [Prog.run_bind]
  rcases run_trial_checks user_id s with ⟨user, config, plan_id, hu, hnone, hrun⟩ | ⟨msg, hrun⟩
  · have hid : user.id = user_id := ((Table.get_eq_some _).mp hu).2
    rw [hrun, Prog.continueWith_ok]
    simp only [Prog.run_bind, run_lift]
    cases trial_end now config with
    | error e => exact .refl s
    | ok t =>
      have hinactive : ∀ r ∈ s.view.subscriptions.rows, r.user_id = user.id →
          active_at now r = false := by
        intro r hr hru
        unfold active_at
        simp [hnone r hr (hru.trans hid)]
      rw [Prog.continueWith_ok, Prog.run_bind, Prog.run_read, Prog.continueWith_ok]
      erw [run_add_subscription (u := trialRow now t user.id plan_id) rfl _ s]
      cases hp : s.view.pools.lowest has_room with
      | none => exact (Trail.refl s).step (.unassigned _ hinactive ⟨rfl, rfl⟩ hp)
      | some pool =>
        have h1 : EffectTrail now s
            ⟨s.stored, subscribed s.view (trialRow now t user.id plan_id) pool⟩ :=
          (Trail.refl s).step (.subscribe _ pool hinactive ⟨rfl, rfl⟩ hp)
        refine h1.trans ?_
        exact Prog.moves_bind (moves_aside now rfl) (fun _ => Prog.moves_bind (moves_aside now rfl)
          fun _ => Prog.moves_bind Prog.moves_publish fun _ => Prog.moves_pure _) _
  · rw [hrun]
    exact .refl s

theorem trail_of_cancel (now : Datetime) (id : Nat) (s : Session Db) :
    EffectTrail now s ((cancel_user_subscription now id).run s).2 := by
  rw [run_cancel_user_subscription]
  cases hu : s.view.subscriptions.get id with
  | none => exact .refl s
  | some u =>
    have hid : u.id = id := ((Table.get_eq_some _).mp hu).2
    exact ((Trail.refl s).step (.cancel u (hid ▸ hu))).commit

end dr_boz.effects
