-- What a call of the billing service does in a session: one lemma per
-- function says how the call ends in each of its branches. The laws of the
-- later files split on these branches and never run a function again.
import DrBoz.Views

open keyed_table unit_of_work dr_boz.py dr_boz.models dr_boz.codex_capacity dr_boz.toman_billing
open dr_boz.views

namespace dr_boz.billing_runs

/-! ## Quotes -/

theorem markup_factor_nonneg {markup : PyFloat} (h : 0 ≤ markup) : 0 ≤ markup_factor markup := by
  have h1 := ctx_nonneg (div_nonneg (decimalStr_nonneg h) (by norm_num : (0 : ℚ) ≤ 100))
  exact ctx_nonneg (by linarith)

theorem chat_quote_costs {config : SubscriptionConfig} {model : Model} {i o : Int}
    {q : ChatUsageQuote} (h : chat_quote config model i o = .ok q) :
    0 ≤ q.base_cost_toman ∧ 0 ≤ q.billable_cost_toman ∧
      round_toman (ctx (q.base_cost_toman * markup_factor q.markup_percent)) =
        .ok q.billable_cost_toman ∧
      q.markup_percent = positive_float config.api_markup_percent DEFAULT_API_MARKUP_PERCENT := by
  unfold chat_quote at h
  simp only [bind, Except.bind] at h
  split at h
  · cases h
  · rename_i base hbase
    split at h
    · cases h
    · rename_i billable hbill
      cases h
      have hin := positive_float_nonneg model.pricing_input 0
      have hout := positive_float_nonneg model.pricing_output 0
      have hb : 0 ≤ base := by
        refine round_toman_nonneg (ctx_nonneg (mul_nonneg (ctx_nonneg (add_nonneg (ctx_nonneg
          (mul_nonneg (ctx_nonneg ?_) (decimalStr_nonneg hin))) (ctx_nonneg
          (mul_nonneg (ctx_nonneg ?_) (decimalStr_nonneg hout))))) ?_)) hbase
        · exact div_nonneg (by exact_mod_cast positive_int_nonneg _ _) (by norm_num)
        · exact div_nonneg (by exact_mod_cast positive_int_nonneg _ _) (by norm_num)
        · exact_mod_cast positive_int_nonneg _ _
      have hm := markup_factor_nonneg
        (positive_float_nonneg config.api_markup_percent DEFAULT_API_MARKUP_PERCENT)
      refine ⟨hb, round_toman_nonneg (ctx_nonneg (mul_nonneg ?_ hm)) hbill, hbill, rfl⟩
      exact_mod_cast hb

/-- A quote that is not zero has a base cost that is not zero. -/
theorem base_cost_pos {config : SubscriptionConfig} {model : Model} {i o : Int}
    {q : ChatUsageQuote} (h : chat_quote config model i o = .ok q)
    (hpos : 0 < q.billable_cost_toman) : 0 < q.base_cost_toman := by
  obtain ⟨hb, -, hr, -⟩ := chat_quote_costs h
  rcases hb.lt_or_eq with hlt | heq
  · exact hlt
  · rw [← heq, Int.cast_zero, zero_mul, ctx_zero, round_toman_zero] at hr
    have := Except.ok.inj hr
    omega

/-- Without a discount left, a top-up by the base cost of a quote costs what
the quote bills. -/
theorem topup_quote_marked {config : SubscriptionConfig} {model : Model} {i o : Int}
    {q : ChatUsageQuote} (h : chat_quote config model i o = .ok q)
    (hpos : 0 < q.billable_cost_toman) {account : UserBillingAccount}
    (hused : account.first_topup_discount_used = some true) (sub : Option UserSubscription) :
    ∃ t, topup_quote account config sub q.base_cost_toman = .ok t ∧
      t.credit_amount_toman = q.base_cost_toman ∧ t.discount_applied = false := by
  have hb := base_cost_pos h hpos
  obtain ⟨-, -, hr, hm⟩ := chat_quote_costs h
  have hc : positive_int (some q.base_cost_toman) 0 = q.base_cost_toman := by
    simp only [positive_int, orDefault, if_neg hb.ne']
    exact max_eq_right hb.le
  rw [hm] at hr
  unfold topup_quote
  simp only [bind, Except.bind, hc, hr, hused, decide_true, Bool.not_true, Bool.and_false,
    Bool.false_eq_true, ↓reduceIte, Int.cast_zero, zero_mul, ctx_zero, zero_div, round_toman_zero]
  exact ⟨_, rfl, rfl, rfl⟩

/-! ## The small calls -/

@[simp] theorem run_get_or_create_billing_account (user : UserPreference) (s : Session Db) :
    (get_or_create_billing_account user).run s =
      (.ok (accountRow s.view user.id), ⟨s.stored, withAccount s.view user.id⟩) := by
  unfold get_or_create_billing_account accountRow withAccount
  simp only [Prog.run_bind, Prog.run_read, Prog.continueWith_ok]
  cases h : s.view.accounts.first fun a => a.user_id = user.id with
  | some a => rfl
  | none =>
    have hok : s.view.admits (.addAccount { user_id := user.id }) = true :=
      decide_eq_true (accepts_account h)
    simp only [Prog.run_bind, Prog.run_read, Prog.continueWith_ok, Prog.run_flush, store_admits,
      hok, if_true, Prog.run_pure]
    rfl

@[simp] theorem run_get_or_create_subscription_config (s : Session Db) :
    get_or_create_subscription_config.run s =
      (.ok (configRow s.view), ⟨s.stored, withConfig s.view⟩) := by
  unfold get_or_create_subscription_config configRow withConfig
  simp only [Prog.run_bind, Prog.run_read, Prog.continueWith_ok]
  cases h : s.view.configs.first fun _ => true with
  | some a => rfl
  | none => rfl

@[simp] theorem run_existing_ledger (k : Option String) (s : Session Db) :
    (existing_ledger k).run s = (.ok (ledgerRow s.view k), s) := by
  unfold existing_ledger ledgerRow
  split <;> rfl

theorem run_lift {α : Type} (x : Except PyError α) (s : Session Db) :
    (Prog.lift x : Tx α).run s = (x, s) := by
  cases x <;> rfl

@[simp] theorem run_quote_chat_usage_toman (model : Model) (i o : Int) (s : Session Db) :
    (quote_chat_usage_toman model i o).run s =
      (chat_quote (configRow s.view) model i o, ⟨s.stored, withConfig s.view⟩) := by
  simp only [quote_chat_usage_toman, Prog.run_bind, run_get_or_create_subscription_config,
    Prog.continueWith_ok, run_lift]

@[simp] theorem run_usd_to_toman (x : PyFloat) (s : Session Db) :
    (usd_to_toman x).run s = (usd_cost (configRow s.view) x, ⟨s.stored, withConfig s.view⟩) := by
  simp only [usd_to_toman, Prog.run_bind, run_get_or_create_subscription_config,
    Prog.continueWith_ok, run_lift]

/-- The quote of a top-up, as the session sees the rows that it depends on. -/
def topupQuoteOf (now : Datetime) (db : Db) (u : Nat) (credit : Int) : Except PyError TopupQuote :=
  topup_quote (accountRow db u) (configRow db) (activeRow now db u) credit

@[simp] theorem run_quote_toman_topup_payment (now : Datetime) (user : UserPreference)
    (credit : Int) (s : Session Db) :
    (quote_toman_topup_payment now user credit).run s =
      (topupQuoteOf now s.view user.id credit,
        ⟨s.stored, withConfig (withAccount s.view user.id)⟩) := by
  simp only [quote_toman_topup_payment, Prog.run_bind, run_get_or_create_billing_account,
    run_get_or_create_subscription_config, Prog.continueWith_ok, Prog.run_read, run_lift]
  rfl

@[simp] theorem run_add_ledger (e : TomanLedgerEntry) (s : Session Db) :
    (add_ledger e).run s =
      if s.view.ledger.Accepts e then
        (.ok { e with id := s.view.ledger.nextKey }, ⟨s.stored, addLedger s.view e⟩)
      else (.error .integrity_error, s.rollback) := by
  simp only [add_ledger, Prog.run_bind, Prog.run_read, Prog.continueWith_ok, Prog.run_flush,
    store_admits, Db.admits, decide_eq_true_eq]
  split <;> rfl

theorem add_ledger_cases (e : TomanLedgerEntry) (s : Session Db) :
    (s.view.ledger.Accepts e ∧ (add_ledger e).run s =
      (.ok { e with id := s.view.ledger.nextKey }, ⟨s.stored, addLedger s.view e⟩)) ∨
    (¬s.view.ledger.Accepts e ∧ (add_ledger e).run s = (.error .integrity_error, s.rollback)) := by
  rw [run_add_ledger]
  by_cases h : s.view.ledger.Accepts e
  · exact .inl ⟨h, if_pos h⟩
  · exact .inr ⟨h, if_neg h⟩

/-- A flush of a new value of the account row that the session has read. -/
theorem run_flush_account {a b : UserBillingAccount} {s : Session Db}
    (h : s.view.accounts.get a.id = some a) (hb : SameOwner b a) :
    (Prog.flush (.setAccount a b) : Tx Unit).run s =
      (.ok (), ⟨s.stored, putAccount s.view b⟩) := by
  rw [Prog.run_flush, store_apply, apply_setAccount h hb]
  rfl

theorem run_flush_subscription {a b : UserSubscription} {s : Session Db}
    (h : s.view.subscriptions.get a.id = some a)
    (hb : b.id = a.id ∧ b.user_id = a.user_id ∧ b.plan_id = a.plan_id ∧
      b.purchased_at = a.purchased_at) :
    (Prog.flush (.setSubscription a b) : Tx Unit).run s =
      (.ok (), ⟨s.stored, putSubscription s.view b⟩) := by
  rw [Prog.run_flush, store_apply, apply_setSubscription h hb]
  rfl

theorem run_flush_pool {a b : CapacityPool} {s : Session Db} (h : s.view.pools.get a.id = some a)
    (hb : b.id = a.id ∧ b.max_users = a.max_users ∧ b.status = a.status) :
    (Prog.flush (.setPool a b) : Tx Unit).run s = (.ok (), ⟨s.stored, putPool s.view b⟩) := by
  rw [Prog.run_flush, store_apply, apply_setPool h hb]
  rfl

theorem owner_spent_gift_first (a : UserBillingAccount) (cost : Int) :
    SameOwner (spent_gift_first a cost) a := ⟨rfl, rfl, rfl⟩

theorem owner_topped_up (a : UserBillingAccount) (q : TopupQuote) : SameOwner (topped_up a q) a :=
  ⟨rfl, rfl, rfl⟩

theorem owner_marked (a : UserBillingAccount) : SameOwner (marked a) a := ⟨rfl, rfl, rfl⟩

theorem owner_marked_once (a : UserBillingAccount) : SameOwner (marked_once a) a := ⟨rfl, rfl, rfl⟩

theorem owner_bought (a : UserBillingAccount) (w d g p : Int) : SameOwner (bought a w d g p) a :=
  ⟨rfl, rfl, rfl⟩

/-! ## Charges at a fixed price -/

/-- The arguments of `charge_generic_usage_toman`. -/
structure GenericCall where
  user : UserPreference
  cost_usd : PyFloat
  entry_type : String
  reason : String
  usage_event_id : Option Nat
  idempotency_key : Option String
  metadata : Dict
  commit : Bool

def GenericCall.prog (c : GenericCall) : Tx GenericUsageChargeResult :=
  charge_generic_usage_toman c.user c.cost_usd c.entry_type c.reason c.usage_event_id
    c.idempotency_key c.metadata c.commit

/-- The entry of a charge: the cost leaves the gift balance first. -/
structure ChargeEntry (a : UserBillingAccount) (cost : Int) (key : Option String)
    (e : TomanLedgerEntry) : Prop where
  account : e.billing_account_id = some a.id
  gift : e.gift_delta_toman = -min (intOr0 a.gift_balance_toman) cost
  paid : e.paid_delta_toman = -(cost - min (intOr0 a.gift_balance_toman) cost)
  key : e.idempotency_key = key

/-- How a generic charge ends. -/
inductive GenericRun (c : GenericCall) (s : Session Db) :
    Except PyError GenericUsageChargeResult → Session Db → Prop where
  | replay (e : TomanLedgerEntry) (r : GenericUsageChargeResult)
      (hk : ledgerRow s.view c.idempotency_key = some e) (hr : r.ok = true) :
      GenericRun c s (.ok r) ⟨s.stored, withAccount s.view c.user.id⟩
  | raised (e : PyError) (hk : ledgerRow s.view c.idempotency_key = none)
      (hc : usd_cost (configRow s.view) c.cost_usd = .error e) :
      GenericRun c s (.error e) ⟨s.stored, withConfig (withAccount s.view c.user.id)⟩
  | free (cost : Int) (r : GenericUsageChargeResult)
      (hk : ledgerRow s.view c.idempotency_key = none)
      (hc : usd_cost (configRow s.view) c.cost_usd = .ok cost) (hle : cost ≤ 0)
      (hr : r.ok = true) :
      GenericRun c s (.ok r) ⟨s.stored, withConfig (withAccount s.view c.user.id)⟩
  | refused (cost : Int) (r : GenericUsageChargeResult)
      (hk : ledgerRow s.view c.idempotency_key = none)
      (hc : usd_cost (configRow s.view) c.cost_usd = .ok cost) (hpos : 0 < cost)
      (hlt : available (accountRow s.view c.user.id) < cost) (hr : r.ok = false) :
      GenericRun c s (.ok r) ⟨s.stored, withConfig (withAccount s.view c.user.id)⟩
  | paid (cost : Int) (e : TomanLedgerEntry) (r : GenericUsageChargeResult)
      (hk : ledgerRow s.view c.idempotency_key = none)
      (hc : usd_cost (configRow s.view) c.cost_usd = .ok cost) (hpos : 0 < cost)
      (hle : cost ≤ available (accountRow s.view c.user.id))
      (he : ChargeEntry (accountRow s.view c.user.id) cost c.idempotency_key e)
      (ha : s.view.ledger.Accepts e) (hr : r.ok = true) :
      GenericRun c s (.ok r) (Session.commitIf c.commit ⟨s.stored,
        post (withConfig (withAccount s.view c.user.id))
          (spent_gift_first (accountRow s.view c.user.id) cost) [e]⟩)
  | conflict : GenericRun c s (.error .integrity_error) s.rollback

theorem genericRun (c : GenericCall) (s : Session Db) :
    GenericRun c s (c.prog.run s).1 (c.prog.run s).2 := by
  unfold GenericCall.prog charge_generic_usage_toman
  simp only [Prog.run_bind, run_get_or_create_billing_account, Prog.continueWith_ok,
    run_existing_ledger, ledgerRow_withAccount]
  cases hk : ledgerRow s.view c.idempotency_key with
  | some e => exact .replay e _ hk rfl
  | none =>
    simp only [Prog.run_bind, run_usd_to_toman, configRow_withAccount]
    cases hc : usd_cost (configRow s.view) c.cost_usd with
    | error e => exact .raised e hk hc
    | ok cost =>
      simp only [Prog.continueWith_ok]
      split
      · rename_i h1
        exact .free cost _ hk hc h1 rfl
      · split
        · rename_i h1 h2
          exact .refused cost _ hk hc (by omega) h2 rfl
        · rw [Prog.run_bind, run_flush_account (get_accountRow _ _) (owner_spent_gift_first _ _),
            Prog.continueWith_ok, Prog.run_bind, run_add_ledger]
          split
          · rename_i h1 h2 h3
            rw [Prog.continueWith_ok, Prog.run_bind, Prog.run_publishIf]
            exact .paid cost _ _ hk hc (by omega) (by omega) ⟨rfl, rfl, rfl, rfl⟩ h3 rfl
          · exact .conflict

/-! ## Top-ups -/

/-- The arguments of `apply_toman_topup`. -/
structure TopupCall where
  user : UserPreference
  credit_amount_toman : Int
  idempotency_key : Option String
  metadata : Dict
  commit : Bool

def TopupCall.prog (now : Datetime) (c : TopupCall) : Tx TopupResult :=
  apply_toman_topup now c.user c.credit_amount_toman c.idempotency_key c.metadata c.commit

/-- How a top-up ends. -/
inductive TopupRun (now : Datetime) (c : TopupCall) (s : Session Db) :
    Except PyError TopupResult → Session Db → Prop where
  | raised (e : PyError)
      (hq : topupQuoteOf now s.view c.user.id c.credit_amount_toman = .error e) :
      TopupRun now c s (.error e) ⟨s.stored, withConfig (withAccount s.view c.user.id)⟩
  | replay (q : TopupQuote) (e : TomanLedgerEntry) (r : TopupResult)
      (hq : topupQuoteOf now s.view c.user.id c.credit_amount_toman = .ok q)
      (hk : ledgerRow s.view c.idempotency_key = some e) (hr : r.ok = true) :
      TopupRun now c s (.ok r) ⟨s.stored, withConfig (withAccount s.view c.user.id)⟩
  | refused (q : TopupQuote) (r : TopupResult)
      (hq : topupQuoteOf now s.view c.user.id c.credit_amount_toman = .ok q)
      (hk : ledgerRow s.view c.idempotency_key = none) (hle : q.credit_amount_toman ≤ 0)
      (hr : r.ok = false) :
      TopupRun now c s (.ok r) ⟨s.stored, withConfig (withAccount s.view c.user.id)⟩
  | credited (q : TopupQuote) (e : TomanLedgerEntry) (r : TopupResult)
      (hq : topupQuoteOf now s.view c.user.id c.credit_amount_toman = .ok q)
      (hk : ledgerRow s.view c.idempotency_key = none) (hpos : 0 < q.credit_amount_toman)
      (hb : e.billing_account_id = some (accountRow s.view c.user.id).id)
      (hg : e.gift_delta_toman = 0) (hp : e.paid_delta_toman = q.credit_amount_toman)
      (hkey : e.idempotency_key = c.idempotency_key) (ha : s.view.ledger.Accepts e)
      (hr : r.ok = true) :
      TopupRun now c s (.ok r) (Session.commitIf c.commit ⟨s.stored,
        post (withConfig (withAccount s.view c.user.id))
          (topped_up (accountRow s.view c.user.id) q) [e]⟩)
  | conflict (q : TopupQuote) (e : TomanLedgerEntry)
      (hq : topupQuoteOf now s.view c.user.id c.credit_amount_toman = .ok q)
      (hkey : e.idempotency_key = c.idempotency_key) (ha : ¬s.view.ledger.Accepts e) :
      TopupRun now c s (.error .integrity_error) s.rollback

/-- The quote looks for the account a second time, and finds the same row. -/
theorem topupQuoteOf_withAccount (now : Datetime) (db : Db) (u : Nat) (credit : Int) :
    topupQuoteOf now (withAccount db u) u credit = topupQuoteOf now db u credit := by
  unfold topupQuoteOf
  rw [accountRow_withAccount]
  rfl

theorem topupRun (now : Datetime) (c : TopupCall) (s : Session Db) :
    TopupRun now c s ((c.prog now).run s).1 ((c.prog now).run s).2 := by
  unfold TopupCall.prog apply_toman_topup
  simp only [Prog.run_bind, run_get_or_create_billing_account, Prog.continueWith_ok,
    run_existing_ledger, ledgerRow_withAccount, run_quote_toman_topup_payment,
    topupQuoteOf_withAccount, withAccount_withAccount]
  cases hq : topupQuoteOf now s.view c.user.id c.credit_amount_toman with
  | error e => exact .raised e hq
  | ok q =>
    simp only [Prog.continueWith_ok]
    cases hk : ledgerRow s.view c.idempotency_key with
    | some e => exact .replay q e _ hq hk rfl
    | none =>
      simp only
      split
      · rename_i h1
        exact .refused q _ hq hk h1 rfl
      · rename_i h1
        rw [Prog.run_bind, run_flush_account (get_accountRow _ _) (owner_topped_up _ _),
          Prog.continueWith_ok, Prog.run_bind, run_add_ledger]
        split
        · rename_i ha
          rw [Prog.continueWith_ok, Prog.run_bind, Prog.run_publishIf]
          exact .credited q _ _ hq hk (by omega) rfl rfl rfl rfl ha rfl
        · rename_i ha
          exact .conflict q _ hq rfl ha

/-- The arguments of `mark_first_topup_discount_used`. -/
structure MarkCall where
  user : UserPreference
  idempotency_key : Option String
  metadata : Dict
  commit : Bool

def MarkCall.prog (c : MarkCall) : Tx (Option TomanLedgerEntry) :=
  mark_first_topup_discount_used c.user c.idempotency_key c.metadata c.commit

/-- How the marking ends. -/
inductive MarkRun (c : MarkCall) (s : Session Db) :
    Except PyError (Option TomanLedgerEntry) → Session Db → Prop where
  | already (h : (accountRow s.view c.user.id).first_topup_discount_used = some true) :
      MarkRun c s (.ok none) ⟨s.stored, withAccount s.view c.user.id⟩
  | replay (e : TomanLedgerEntry) (hk : ledgerRow s.view c.idempotency_key = some e) :
      MarkRun c s (.ok (some e)) (Session.commitIf c.commit ⟨s.stored,
        post (withAccount s.view c.user.id) (marked (accountRow s.view c.user.id)) []⟩)
  | fresh (e e' : TomanLedgerEntry) (hk : ledgerRow s.view c.idempotency_key = none)
      (hb : e.billing_account_id = some (accountRow s.view c.user.id).id)
      (hg : e.gift_delta_toman = 0) (hp : e.paid_delta_toman = 0)
      (hkey : e.idempotency_key = c.idempotency_key) (ha : s.view.ledger.Accepts e) :
      MarkRun c s (.ok (some e')) (Session.commitIf c.commit ⟨s.stored,
        post (withAccount s.view c.user.id) (marked_once (accountRow s.view c.user.id)) [e]⟩)
  | conflict (e : TomanLedgerEntry) (hkey : e.idempotency_key = c.idempotency_key)
      (ha : ¬s.view.ledger.Accepts e) : MarkRun c s (.error .integrity_error) s.rollback

theorem markRun (c : MarkCall) (s : Session Db) :
    MarkRun c s (c.prog.run s).1 (c.prog.run s).2 := by
  unfold MarkCall.prog mark_first_topup_discount_used
  simp only [Prog.run_bind, run_get_or_create_billing_account, Prog.continueWith_ok]
  split
  · rename_i h
    exact .already h
  · simp only [Prog.run_bind, run_existing_ledger, Prog.continueWith_ok, ledgerRow_withAccount]
    cases hk : ledgerRow s.view c.idempotency_key with
    | some e =>
      simp only
      rw [Prog.run_bind, run_flush_account (get_accountRow _ _) (owner_marked _),
        Prog.continueWith_ok, Prog.run_bind, Prog.run_publishIf]
      exact .replay e hk
    | none =>
      simp only
      rw [Prog.run_bind, run_flush_account (get_accountRow _ _) (owner_marked_once _),
        Prog.continueWith_ok, Prog.run_bind, run_add_ledger]
      split
      · rename_i ha
        rw [Prog.continueWith_ok, Prog.run_bind, Prog.run_publishIf]
        exact .fresh _ _ hk rfl rfl rfl rfl ha
      · rename_i ha
        exact .conflict _ rfl ha

end dr_boz.billing_runs
