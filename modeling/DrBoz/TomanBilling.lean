-- The Toman wallet of `toman_billing_service.py`: the billing account with
-- its gift and paid balances, the ledger, the purchase of a subscription,
-- top-ups, and the charges for usage. Each function takes the time that
-- `utcnow()` reads as `now`: the clock stands still within one call.
import DrBoz.CodexCapacity

open keyed_table unit_of_work dr_boz.py dr_boz.models dr_boz.codex_capacity

namespace dr_boz.toman_billing

def DEFAULT_MONTHLY_PRICE_TOMAN : Int := 80000
def DEFAULT_GIFT_CREDIT_TOMAN : Int := 100000
def DEFAULT_API_MARKUP_PERCENT : PyFloat := 25
def DEFAULT_FIRST_TOPUP_DISCOUNT_PERCENT : PyFloat := 50
def DEFAULT_FIRST_TOPUP_DISCOUNT_CAP_TOMAN : Int := 300000
def DEFAULT_USD_TO_TOMAN_RATE : Int := 50000

structure PurchaseTomanSubscriptionResult where
  ok : Bool
  account : UserBillingAccount
  subscription : Option UserSubscription := none
  payment_toman : Int := 0
  gift_credit_toman : Int := 0
  wallet_payment_toman : Int := 0
  external_payment_toman : Int := 0
  ledger_entries : Option (List TomanLedgerEntry) := none
  reason : Option String := none
deriving DecidableEq

structure TopupQuote where
  credit_amount_toman : Int
  normal_payment_toman : Int
  payment_due_toman : Int
  discount_toman : Int
  discount_applied : Bool
  discounted_credit_toman : Int
  markup_percent : PyFloat
  discount_percent : PyFloat
deriving DecidableEq

structure TopupResult where
  ok : Bool
  account : UserBillingAccount
  quote : TopupQuote
  ledger_entry : Option TomanLedgerEntry := none
  reason : Option String := none
deriving DecidableEq

structure ChatUsageQuote where
  global_api_cost_usd : PyFloat
  base_cost_toman : Int
  billable_cost_toman : Int
  usd_to_toman_rate : Int
  markup_percent : PyFloat
  pricing_snapshot : List (String × Scalar)
deriving DecidableEq

structure ChatUsageChargeResult where
  ok : Bool
  account : UserBillingAccount
  global_api_cost_usd : PyFloat := 0
  base_cost_toman : Int := 0
  billable_cost_toman : Int := 0
  gift_spent_toman : Int := 0
  paid_spent_toman : Int := 0
  ledger_entry : Option TomanLedgerEntry := none
  metadata : Option Dict := none
  reason : Option String := none
  user_sub : Option UserSubscription := none
deriving DecidableEq

structure GenericUsageChargeResult where
  ok : Bool
  account : UserBillingAccount
  cost_toman : Int := 0
  gift_spent_toman : Int := 0
  paid_spent_toman : Int := 0
  ledger_entry : Option TomanLedgerEntry := none
  reason : Option String := none
deriving DecidableEq

/-! ## The rows that a call finds or creates -/

def defaultConfig : SubscriptionConfig where
  is_enabled := some true
  monthly_price_toman := some DEFAULT_MONTHLY_PRICE_TOMAN
  gift_credit_toman := some DEFAULT_GIFT_CREDIT_TOMAN
  api_markup_percent := some DEFAULT_API_MARKUP_PERCENT
  first_topup_discount_percent := some DEFAULT_FIRST_TOPUP_DISCOUNT_PERCENT
  first_topup_discount_cap_toman := some DEFAULT_FIRST_TOPUP_DISCOUNT_CAP_TOMAN
  usd_to_toman_rate := some DEFAULT_USD_TO_TOMAN_RATE

def get_or_create_subscription_config : Tx SubscriptionConfig := do
  let config ← Prog.read fun db => db.configs.first fun _ => true
  match config with
  | some config => return config
  | none =>
    let id ← Prog.read fun db => db.configs.nextKey
    Prog.flush (.addConfig defaultConfig)
    return { defaultConfig with id }

def get_or_create_billing_account (user : UserPreference) : Tx UserBillingAccount := do
  let account ← Prog.read fun db => db.accounts.first fun a => a.user_id = user.id
  match account with
  | some account => return account
  | none =>
    let id ← Prog.read fun db => db.accounts.nextKey
    Prog.flush (.addAccount { user_id := user.id })
    return { id, user_id := user.id }

/-- An empty key is looked up like no key at all. -/
def existing_ledger (idempotency_key : Option String) : Tx (Option TomanLedgerEntry) :=
  if truthyKey idempotency_key then
    Prog.read fun db => db.ledger.first fun e => e.idempotency_key = idempotency_key
  else return none

def new_ledger_entry (user : UserPreference) (account : UserBillingAccount)
    (amount_toman gift_delta_toman paid_delta_toman : Int) (entry_type : String)
    (reason : Option String) (usage_event_id : Option Nat) (idempotency_key : Option String)
    (metadata : Dict) : TomanLedgerEntry where
  user_id := user.id
  billing_account_id := some account.id
  amount_toman := amount_toman
  gift_delta_toman := gift_delta_toman
  paid_delta_toman := paid_delta_toman
  gift_balance_after_toman := some (intOr0 account.gift_balance_toman)
  paid_balance_after_toman := some (intOr0 account.paid_balance_toman)
  entry_type := entry_type
  status := some "posted"
  reason := reason
  usage_event_id := usage_event_id
  idempotency_key := idempotency_key
  metadata_json := metadata

/-- `db.add(entry)` and the flush after it: the entry with its id. -/
def add_ledger (entry : TomanLedgerEntry) : Tx TomanLedgerEntry := do
  let id ← Prog.read fun db => db.ledger.nextKey
  Prog.flush (.addLedger entry)
  return { entry with id }

/-! ## The purchase of a subscription -/

def plan_price_toman (plan : SubscriptionPlan) (config : SubscriptionConfig) : Int :=
  match plan.monthly_price_toman with
  | some price => max 0 price
  | none => positive_int config.monthly_price_toman DEFAULT_MONTHLY_PRICE_TOMAN

def plan_gift_toman (plan : SubscriptionPlan) (config : SubscriptionConfig) : Int :=
  match plan.gift_credit_toman with
  | some gift => max 0 gift
  | none => positive_int config.gift_credit_toman DEFAULT_GIFT_CREDIT_TOMAN

/-- A name inside of an f-string. -/
def formatted (name : Option String) : String := name.getD "None"

/-- `f"{idempotency_key}:payment" if idempotency_key else None`. -/
def payment_key (idempotency_key : Option String) : Option String :=
  if truthyKey idempotency_key then idempotency_key.map (· ++ ":payment") else none

/-- The part of the price that the wallet pays. -/
def wallet_part (payment_toman : Int) (payment_confirmed : Bool)
    (wallet_payment_toman : Option Int) : Int :=
  min payment_toman
    (if wallet_payment_toman = none ∧ payment_confirmed = false then payment_toman
    else positive_int wallet_payment_toman 0)

/-- The account after the purchase is paid and the gift is granted. -/
def bought (account : UserBillingAccount)
    (wallet_payment gift_delta gift_toman payment_toman : Int) : UserBillingAccount :=
  { account with
    paid_balance_toman :=
      if 0 < wallet_payment then some (intOr0 account.paid_balance_toman - wallet_payment)
      else account.paid_balance_toman
    total_paid_spent_toman :=
      if 0 < wallet_payment then some (intOr0 account.total_paid_spent_toman + wallet_payment)
      else account.total_paid_spent_toman
    gift_balance_toman := some (intOr0 account.gift_balance_toman + gift_delta)
    total_gift_granted_toman := some (intOr0 account.total_gift_granted_toman + gift_toman)
    total_subscription_paid_toman :=
      some (intOr0 account.total_subscription_paid_toman + payment_toman)
    version := some (intOr0 account.version + 1) }

def purchase_toman_subscription (now : Datetime) (user : UserPreference) (plan : SubscriptionPlan)
    (idempotency_key : Option String) (payment_confirmed : Bool)
    (wallet_payment_toman : Option Int) (grant_gift_toman_balance commit : Bool) :
    Tx PurchaseTomanSubscriptionResult := do
  let account ← get_or_create_billing_account user
  let existing ← existing_ledger idempotency_key
  match existing with
  | some existing =>
    return { ok := true, account, ledger_entries := some [existing], reason := some "idempotent" }
  | none =>
  let active_subscription ← Prog.read fun db =>
    db.subscriptions.first fun u => u.user_id = user.id && active_at now u
  match active_subscription with
  | some active_subscription =>
    return { ok := false, account, subscription := some active_subscription,
             reason := some "active_subscription_exists" }
  | none =>
  let config ← get_or_create_subscription_config
  let payment_toman := plan_price_toman plan config
  let gift_toman := plan_gift_toman plan config
  let wallet_payment := wallet_part payment_toman payment_confirmed wallet_payment_toman
  let external_payment := payment_toman - wallet_payment
  let refused : PurchaseTomanSubscriptionResult :=
    { ok := false, account, payment_toman, gift_credit_toman := gift_toman,
      wallet_payment_toman := wallet_payment, external_payment_toman := external_payment }
  if intOr0 account.paid_balance_toman < wallet_payment then
    return { refused with reason := some "insufficient_paid_toman_credit" }
  else if payment_confirmed = false ∧ 0 < external_payment then
    return { refused with reason := some "insufficient_paid_toman_credit" }
  else
  let expires_at ← Prog.lift (addDelta now (days 30))
  let id ← Prog.read fun db => db.subscriptions.nextKey
  let added : UserSubscription :=
    { user_id := user.id, plan_id := plan.id, purchased_at := some now, expires_at }
  Prog.flush (.addSubscription added)
  let assigned ← Prog.attempt (assign_subscription_pool { added with id })
  match assigned with
  | .error (.codex_capacity_error code _) =>
    Prog.flush (.deleteSubscription id)
    return { refused with subscription := some { added with id }, reason := some code }
  | .error e => Prog.throw e
  | .ok (subscription, _) =>
  let gift_delta := if grant_gift_toman_balance then gift_toman else 0
  let account' := bought account wallet_payment gift_delta gift_toman payment_toman
  let payment_entry := new_ledger_entry user account' payment_toman 0
    (if 0 < wallet_payment then -wallet_payment else 0) "subscription_payment"
    (some ("Purchased " ++ formatted plan.name)) none (payment_key idempotency_key)
    [("plan_id", Scalar.int plan.id), ("subscription_id", Scalar.int subscription.id),
     ("payment_confirmed", Scalar.bool payment_confirmed),
     ("wallet_payment_toman", Scalar.int wallet_payment),
     ("external_payment_toman", Scalar.int external_payment)]
  let gift_entry := new_ledger_entry user account' gift_toman gift_delta 0
    "subscription_gift_credit" (some ("Gift credit for " ++ formatted plan.name)) none
    idempotency_key
    [("plan_id", Scalar.int plan.id), ("subscription_id", Scalar.int subscription.id),
     ("payment_toman", Scalar.int payment_toman),
     ("grant_gift_toman_balance", Scalar.bool grant_gift_toman_balance)]
  Prog.flush (.setAccount account account')
  let payment_entry ← add_ledger payment_entry
  let gift_entry ← add_ledger gift_entry
  Prog.publishIf commit
  return { ok := true, account := account', subscription := some subscription, payment_toman,
           gift_credit_toman := gift_toman, wallet_payment_toman := wallet_payment,
           external_payment_toman := external_payment,
           ledger_entries := some [payment_entry, gift_entry] }

/-! ## Top-ups -/

/-- `Decimal("1") + Decimal(str(percent)) / Decimal("100")`. -/
def markup_factor (markup_percent : PyFloat) : Decimal :=
  ctx (1 + ctx (decimalStr markup_percent / 100))

/-- The quote, once the rows that it depends on are read. -/
def topup_quote (account : UserBillingAccount) (config : SubscriptionConfig)
    (active_subscription : Option UserSubscription) (credit_amount_toman : Int) :
    Except PyError TopupQuote := do
  let credit_amount := positive_int (some credit_amount_toman) 0
  let markup_percent := positive_float config.api_markup_percent DEFAULT_API_MARKUP_PERCENT
  let normal_payment ← round_toman (ctx (credit_amount * markup_factor markup_percent))
  let has_subscription_payment :=
    0 < intOr0 account.total_subscription_paid_toman || active_subscription.isSome
  let discount_percent :=
    positive_float config.first_topup_discount_percent DEFAULT_FIRST_TOPUP_DISCOUNT_PERCENT
  let cap :=
    positive_int config.first_topup_discount_cap_toman DEFAULT_FIRST_TOPUP_DISCOUNT_CAP_TOMAN
  let discounted_credit :=
    if has_subscription_payment && !(account.first_topup_discount_used = some true) then
      min credit_amount cap
    else 0
  let discount ← round_toman (ctx (ctx (ctx (discounted_credit *
    markup_factor markup_percent) * decimalStr discount_percent) / 100))
  return { credit_amount_toman := credit_amount
           normal_payment_toman := normal_payment
           payment_due_toman := max 0 (normal_payment - discount)
           discount_toman := discount
           discount_applied := decide (0 < discount)
           discounted_credit_toman := discounted_credit
           markup_percent, discount_percent }

def quote_toman_topup_payment (now : Datetime) (user : UserPreference)
    (credit_amount_toman : Int) : Tx TopupQuote := do
  let account ← get_or_create_billing_account user
  let config ← get_or_create_subscription_config
  let active_subscription ← Prog.read fun db =>
    db.subscriptions.first fun u => u.user_id = user.id && active_at now u
  Prog.lift (topup_quote account config active_subscription credit_amount_toman)

/-- The account after a top-up. -/
def topped_up (account : UserBillingAccount) (quote : TopupQuote) : UserBillingAccount :=
  { account with
    paid_balance_toman := some (intOr0 account.paid_balance_toman + quote.credit_amount_toman)
    total_paid_topup_toman :=
      some (intOr0 account.total_paid_topup_toman + quote.credit_amount_toman)
    first_topup_discount_used :=
      if quote.discount_applied then some true else account.first_topup_discount_used
    version := some (intOr0 account.version + 1) }

def apply_toman_topup (now : Datetime) (user : UserPreference) (credit_amount_toman : Int)
    (idempotency_key : Option String) (metadata : Dict) (commit : Bool) : Tx TopupResult := do
  let account ← get_or_create_billing_account user
  let existing ← existing_ledger idempotency_key
  let quote ← quote_toman_topup_payment now user credit_amount_toman
  match existing with
  | some existing =>
    return { ok := true, account, quote, ledger_entry := some existing,
             reason := some "idempotent" }
  | none =>
  if quote.credit_amount_toman ≤ 0 then
    return { ok := false, account, quote, reason := some "invalid_topup_amount" }
  else
  let account' := topped_up account quote
  let entry_metadata := Dict.merge
    [("payment_due_toman", Scalar.int quote.payment_due_toman),
     ("normal_payment_toman", Scalar.int quote.normal_payment_toman),
     ("discount_toman", Scalar.int quote.discount_toman),
     ("discounted_credit_toman", Scalar.int quote.discounted_credit_toman)] metadata
  Prog.flush (.setAccount account account')
  let entry ← add_ledger (new_ledger_entry user account' quote.credit_amount_toman 0
    quote.credit_amount_toman "paid_topup_credit" (some "wallet topup") none idempotency_key
    entry_metadata)
  Prog.publishIf commit
  return { ok := true, account := account', quote, ledger_entry := some entry }

/-- The account with the flag set, and with a new version when an entry is
written. -/
def marked (account : UserBillingAccount) : UserBillingAccount :=
  { account with first_topup_discount_used := some true }

def marked_once (account : UserBillingAccount) : UserBillingAccount :=
  { marked account with version := some (intOr0 account.version + 1) }

def mark_first_topup_discount_used (user : UserPreference) (idempotency_key : Option String)
    (metadata : Dict) (commit : Bool) : Tx (Option TomanLedgerEntry) := do
  let account ← get_or_create_billing_account user
  if account.first_topup_discount_used = some true then
    return none
  else
  let existing ← existing_ledger idempotency_key
  match existing with
  | some existing =>
    Prog.flush (.setAccount account (marked account))
    Prog.publishIf commit
    return some existing
  | none =>
  let account' := marked_once account
  Prog.flush (.setAccount account account')
  let entry ← add_ledger (new_ledger_entry user account' 0 0 0 "first_topup_discount_used"
    (some "first topup discount used on USD wallet topup") none idempotency_key metadata)
  Prog.publishIf commit
  return some entry

/-! ## Charges for usage -/

/-- The quote, once the config is read. -/
def chat_quote (config : SubscriptionConfig) (model : Model) (input_tokens output_tokens : Int) :
    Except PyError ChatUsageQuote := do
  let input_count := positive_int (some input_tokens) 0
  let output_count := positive_int (some output_tokens) 0
  let price_in := positive_float model.pricing_input 0
  let price_out := positive_float model.pricing_output 0
  let global_cost := ctx (ctx (ctx (input_count / 1000000) * decimalStr price_in) +
    ctx (ctx (output_count / 1000000) * decimalStr price_out))
  let rate := positive_int config.usd_to_toman_rate DEFAULT_USD_TO_TOMAN_RATE
  let markup_percent := positive_float config.api_markup_percent DEFAULT_API_MARKUP_PERCENT
  let base_toman ← round_toman (ctx (global_cost * rate))
  let billable ← round_toman (ctx (base_toman * markup_factor markup_percent))
  return { global_api_cost_usd := f64 global_cost
           base_cost_toman := base_toman
           billable_cost_toman := billable
           usd_to_toman_rate := rate
           markup_percent
           pricing_snapshot :=
             [("model_id", .int model.id),
              ("model_name", (model.name.map Scalar.str).getD .null),
              ("pricing_input_usd_per_1m", .float price_in),
              ("pricing_output_usd_per_1m", .float price_out)] }

def quote_chat_usage_toman (model : Model) (input_tokens output_tokens : Int) :
    Tx ChatUsageQuote := do
  let config ← get_or_create_subscription_config
  Prog.lift (chat_quote config model input_tokens output_tokens)

/-- `int(gift or 0) + int(paid or 0)`. -/
def available (account : UserBillingAccount) : Int :=
  intOr0 account.gift_balance_toman + intOr0 account.paid_balance_toman

/-- The account after a cost is taken from the gift balance first. -/
def spent_gift_first (account : UserBillingAccount) (cost : Int) : UserBillingAccount :=
  let gift_spent := min (intOr0 account.gift_balance_toman) cost
  let paid_spent := cost - gift_spent
  { account with
    gift_balance_toman := some (intOr0 account.gift_balance_toman - gift_spent)
    paid_balance_toman := some (intOr0 account.paid_balance_toman - paid_spent)
    total_gift_spent_toman := some (intOr0 account.total_gift_spent_toman + gift_spent)
    total_paid_spent_toman := some (intOr0 account.total_paid_spent_toman + paid_spent)
    version := some (intOr0 account.version + 1) }

theorem available_spent_gift_first (a : UserBillingAccount) (cost : Int) :
    available (spent_gift_first a cost) = available a - cost := by
  simp only [available, spent_gift_first, intOr0, Option.getD_some]
  omega

/-- The first active subscription of the user, and its plan when the plan is
a tiered one. A subscription without a plan row raises at `plan.plan_type`. -/
def tiered_subscription (now : Datetime) (user : UserPreference) :
    Tx (Option UserSubscription × Option SubscriptionPlan) := do
  let user_sub ← Prog.read fun db =>
    db.subscriptions.first fun u => u.user_id = user.id && active_at now u
  match user_sub with
  | none => return (none, none)
  | some user_sub =>
  let plan ← Prog.read fun db => db.plans.get user_sub.plan_id
  match plan with
  | none => Prog.throw .attribute_error
  | some plan =>
    return (some user_sub, if plan.plan_type = some "tiered_cooldown" then some plan else none)

/-- `user_sub.week_resets_at` is unset or over. -/
def week_over (now : Datetime) (u : UserSubscription) : Bool :=
  match u.week_resets_at with
  | none => true
  | some t => decide (t ≤ now)

def reset_week (now : Datetime) (u : UserSubscription) : Tx UserSubscription :=
  if week_over now u then do
    let zeroed := { u with weekly_spent_toman := some 0 }
    Prog.flush (.setSubscription u zeroed)
    let resets_at ← Prog.lift (addDelta now (days 7))
    Prog.flush (.setSubscription zeroed { zeroed with week_resets_at := some resets_at })
    return { zeroed with week_resets_at := some resets_at }
  else return u

/-- `user_sub.cooldown_ends_at and now >= user_sub.cooldown_ends_at`. -/
def cooldown_over (now : Datetime) (u : UserSubscription) : Bool :=
  match u.cooldown_ends_at with
  | none => false
  | some t => decide (t ≤ now)

def reset_cooldown (now : Datetime) (u : UserSubscription) : Tx UserSubscription :=
  if cooldown_over now u then do
    let reset := { u with cooldown_spent_toman := some 0, cooldown_ends_at := none }
    Prog.flush (.setSubscription u reset)
    return reset
  else return u

/-- An open window whose limit is used up. The comparison with a NULL limit
raises, and only an open window is compared. -/
def in_cooldown (now : Datetime) (u : UserSubscription) (plan : SubscriptionPlan) :
    Except PyError Bool :=
  match u.cooldown_ends_at with
  | none => .ok false
  | some t =>
    if now < t then
      match plan.cooldown_limit_toman with
      | none => .error .type_error
      | some limit => .ok (decide (limit ≤ intOr0 u.cooldown_spent_toman))
    else .ok false

def weekly_limit_hit (u : UserSubscription) (plan : SubscriptionPlan) : Except PyError Bool :=
  match plan.weekly_limit_toman with
  | none => .error .type_error
  | some limit => .ok (decide (0 < limit) && decide (limit ≤ intOr0 u.weekly_spent_toman))

def check_chat_usage_permission_toman (now : Datetime) (user : UserPreference) (model : Model)
    (input_tokens output_tokens : Int) : Tx ChatUsageChargeResult := do
  let account ← get_or_create_billing_account user
  let quote ← quote_chat_usage_toman model input_tokens output_tokens
  if quote.billable_cost_toman ≤ 0 then
    return { ok := true, account }
  else
  let refused (reason : String) (user_sub : Option UserSubscription) : ChatUsageChargeResult :=
    { ok := false, account, billable_cost_toman := quote.billable_cost_toman,
      reason := some reason, user_sub }
  let (user_sub, plan) ← tiered_subscription now user
  match user_sub, plan with
  | some user_sub, some plan =>
    let user_sub ← reset_week now user_sub
    let user_sub ← reset_cooldown now user_sub
    let cooling ← Prog.lift (in_cooldown now user_sub plan)
    let weekly_hit ← Prog.lift (weekly_limit_hit user_sub plan)
    if cooling then
      if quote.billable_cost_toman ≤ available account then
        return { refused "cooldown_payg_available" (some user_sub) with ok := true }
      else return refused "cooldown_limit_reached" (some user_sub)
    else if weekly_hit then
      if quote.billable_cost_toman ≤ available account then
        return { refused "weekly_limit_payg_available" (some user_sub) with ok := true }
      else return refused "weekly_limit_reached" (some user_sub)
    else
      return { ok := true, account, user_sub := some user_sub,
               reason := some "tiered_subscription" }
  | user_sub, _ =>
    if quote.billable_cost_toman ≤ available account then
      return { ok := true, account }
    else return refused "insufficient_toman_credit" user_sub

/-- The window starts with the charge when none is open and the plan has
cooldown hours. -/
def start_window (now : Datetime) (u : UserSubscription) (plan : SubscriptionPlan) :
    Tx UserSubscription :=
  match u.cooldown_ends_at, plan.cooldown_hours with
  | some _, _ => return u
  | none, none => Prog.throw .type_error
  | none, some hrs =>
    if 0 < hrs then do
      let ends_at ← Prog.lift (addDelta now (hours hrs))
      let started := { u with cooldown_ends_at := some ends_at, cooldown_spent_toman := some 0 }
      Prog.flush (.setSubscription u started)
      return started
    else return u

/-- The branch that the subscription covers: both counters take the cost, and
no ledger entry is written. -/
def charge_window (now : Datetime) (account : UserBillingAccount) (quote : ChatUsageQuote)
    (user_sub : UserSubscription) (plan : SubscriptionPlan) (commit : Bool) :
    Tx ChatUsageChargeResult := do
  let user_sub ← reset_cooldown now user_sub
  let user_sub ← start_window now user_sub plan
  let cost := quote.billable_cost_toman
  let charged := { user_sub with
    cooldown_spent_toman := some (intOr0 user_sub.cooldown_spent_toman + cost)
    weekly_spent_toman := some (intOr0 user_sub.weekly_spent_toman + cost) }
  Prog.flush (.setSubscription user_sub charged)
  Prog.publishIf commit
  return { ok := true, account, user_sub := some charged
           metadata := some (Dict.merge
             [("tiered_covered", Scalar.bool true), ("cost", Scalar.int cost),
              ("reason", Scalar.str "tiered_subscription")]
             (quote.pricing_snapshot.map fun p => (p.1, Json.scalar p.2))) }

/-- Why the balances cannot pay, as the refusal names it. -/
def refusal_reason (now : Datetime) (user_sub : Option UserSubscription)
    (plan : Option SubscriptionPlan) : Except PyError String :=
  match user_sub, plan with
  | some u, some plan =>
    if u.cooldown_ends_at.any (now < ·) then .ok "cooldown_limit_reached"
    else (weekly_limit_hit u plan).map fun hit =>
      if hit then "weekly_limit_reached" else "insufficient_toman_credit"
  | _, _ => .ok "insufficient_toman_credit"

/-- The branch that the balances pay, the gift balance first. -/
def charge_balances (now : Datetime) (user : UserPreference) (account : UserBillingAccount)
    (quote : ChatUsageQuote) (user_sub : Option UserSubscription) (plan : Option SubscriptionPlan)
    (usage_event_id : Option Nat) (idempotency_key : Option String) (metadata : Dict)
    (commit : Bool) : Tx ChatUsageChargeResult := do
  let cost := quote.billable_cost_toman
  if available account < cost then
    let reason ← Prog.lift (refusal_reason now user_sub plan)
    return { ok := false, account, global_api_cost_usd := quote.global_api_cost_usd,
             base_cost_toman := quote.base_cost_toman, billable_cost_toman := cost,
             reason := some reason, user_sub }
  else
  let gift_spent := min (intOr0 account.gift_balance_toman) cost
  let paid_spent := cost - gift_spent
  let account' := spent_gift_first account cost
  let entry_metadata := Dict.merge
    [("global_api_cost_usd", Scalar.float quote.global_api_cost_usd),
     ("base_cost_toman", Scalar.int quote.base_cost_toman),
     ("billable_cost_toman", Scalar.int cost),
     ("gift_spent_toman", Scalar.int gift_spent),
     ("paid_spent_toman", Scalar.int paid_spent),
     ("usd_to_toman_rate", Scalar.int quote.usd_to_toman_rate),
     ("api_markup_percent", Scalar.float quote.markup_percent),
     ("pricing_snapshot", Json.dict quote.pricing_snapshot)] metadata
  Prog.flush (.setAccount account account')
  let entry ← add_ledger (new_ledger_entry user account' (-cost) (-gift_spent) (-paid_spent)
    "chat_completion_usage" (some "chat completion usage") usage_event_id idempotency_key
    entry_metadata)
  Prog.publishIf commit
  return { ok := true, account := account', global_api_cost_usd := quote.global_api_cost_usd,
           base_cost_toman := quote.base_cost_toman, billable_cost_toman := cost,
           gift_spent_toman := gift_spent, paid_spent_toman := paid_spent,
           ledger_entry := some entry, metadata := some entry_metadata, user_sub }

def charge_chat_usage_toman (now : Datetime) (user : UserPreference) (model : Model)
    (input_tokens output_tokens : Int) (usage_event_id : Option Nat)
    (idempotency_key : Option String) (metadata : Dict) (commit : Bool) :
    Tx ChatUsageChargeResult := do
  let account ← get_or_create_billing_account user
  let existing ← existing_ledger idempotency_key
  let quote ← quote_chat_usage_toman model input_tokens output_tokens
  match existing with
  | some existing =>
    return { ok := true, account, ledger_entry := some existing, reason := some "idempotent" }
  | none =>
  if quote.billable_cost_toman ≤ 0 then
    return { ok := true, account,
             metadata := some (quote.pricing_snapshot.map fun p => (p.1, Json.scalar p.2)) }
  else
  let (user_sub, plan) ← tiered_subscription now user
  match user_sub, plan with
  | some user_sub, some plan =>
    let user_sub ← reset_week now user_sub
    let weekly_hit ← Prog.lift (weekly_limit_hit user_sub plan)
    let cooling ← Prog.lift (in_cooldown now user_sub plan)
    if !weekly_hit && !cooling then
      charge_window now account quote user_sub plan commit
    else
      charge_balances now user account quote (some user_sub) (some plan) usage_event_id
        idempotency_key metadata commit
  | user_sub, _ =>
    charge_balances now user account quote user_sub none usage_event_id idempotency_key metadata
      commit

/-- The cost, once the config is read. -/
def usd_cost (config : SubscriptionConfig) (amount_usd : PyFloat) : Except PyError Int :=
  round_toman (ctx (decimalStr amount_usd *
    positive_int config.usd_to_toman_rate DEFAULT_USD_TO_TOMAN_RATE))

theorem usd_cost_zero (config : SubscriptionConfig) : usd_cost config 0 = .ok 0 := by
  have hzero : decimalStr 0 = 0 := by decide +kernel
  unfold usd_cost
  rw [hzero, zero_mul, ctx_zero, round_toman_zero]

def usd_to_toman (amount_usd : PyFloat) : Tx Int := do
  let config ← get_or_create_subscription_config
  Prog.lift (usd_cost config amount_usd)

def charge_generic_usage_toman (user : UserPreference) (cost_usd : PyFloat)
    (entry_type reason : String) (usage_event_id : Option Nat) (idempotency_key : Option String)
    (metadata : Dict) (commit : Bool) : Tx GenericUsageChargeResult := do
  let account ← get_or_create_billing_account user
  let existing ← existing_ledger idempotency_key
  match existing with
  | some existing =>
    return { ok := true, account, ledger_entry := some existing, reason := some "idempotent" }
  | none =>
  let cost_toman ← usd_to_toman cost_usd
  if cost_toman ≤ 0 then
    return { ok := true, account, cost_toman := 0, reason := some "zero_cost" }
  else if available account < cost_toman then
    return { ok := false, account, cost_toman, reason := some "insufficient_toman_credit" }
  else
  let gift_spent := min (intOr0 account.gift_balance_toman) cost_toman
  let paid_spent := cost_toman - gift_spent
  let account' := spent_gift_first account cost_toman
  let entry_metadata := Dict.merge
    [("cost_usd", Scalar.float cost_usd), ("cost_toman", Scalar.int cost_toman),
     ("gift_spent_toman", Scalar.int gift_spent),
     ("paid_spent_toman", Scalar.int paid_spent)] metadata
  Prog.flush (.setAccount account account')
  let entry ← add_ledger (new_ledger_entry user account' (-cost_toman) (-gift_spent)
    (-paid_spent) entry_type (some reason) usage_event_id idempotency_key entry_metadata)
  Prog.publishIf commit
  return { ok := true, account := account', cost_toman, gift_spent_toman := gift_spent,
           paid_spent_toman := paid_spent, ledger_entry := some entry }

end dr_boz.toman_billing
