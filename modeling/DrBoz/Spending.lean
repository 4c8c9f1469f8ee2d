-- The second service on the account database: `spending.py` of Open WebUI
-- charges a chat message after it was answered. The cost and the id under
-- which the user is tracked are computed before and are parameters here. The
-- handler around the function only logs: after an exception the session is
-- closed and nothing is committed.
import DrBoz.CodexCapacity

open keyed_table unit_of_work dr_boz.py dr_boz.models dr_boz.codex_capacity

namespace dr_boz.spending

/-- `value or default` of a number. -/
def intOr (n : Option Int) (default : Int) : Int :=
  match n with
  | some n => if n = 0 then default else n
  | none => default

/-- `(free_plan.cooldown_hours or 5)`, and 5 without a plan. -/
def cooldown_hours_of (plan : Option SubscriptionPlan) : Int :=
  intOr (plan.bind (·.cooldown_hours)) 5

/-- A user who writes the first message gets an account, and a subscription
of the free plan when there is one. -/
def create_era_user (now : Datetime) (era_tracking_id : Int) : Tx Nat := do
  let free_plan ← Prog.read fun db => db.plans.first fun p => p.plan_type = some "free"
  let era_user_id ← Prog.read fun db => db.users.nextKey
  Prog.flush (.addUser
    { id := 0, telegram_user_id := some era_tracking_id, first_name := some "کاربر",
      preferred_name := some "کاربر", account_status := some "active" })
  Prog.flush (.addAccount { user_id := era_user_id, currency := some "IRR" })
  match free_plan with
  | none =>
    Prog.publish
    return era_user_id
  | some plan =>
    let expires_at ← Prog.lift (addDelta now (days 36500))
    let cooldown_ends_at ← Prog.lift (addDelta now (hours (cooldown_hours_of (some plan))))
    let week_resets_at ← Prog.lift (addDelta now (days 7))
    Prog.flush (.addSubscription
      { user_id := era_user_id, plan_id := plan.id, purchased_at := some now, expires_at,
        cooldown_ends_at := some cooldown_ends_at, week_resets_at := some week_resets_at })
    Prog.publish
    return era_user_id

def find_era_user_id (telegram_id : Int) : Tx (Option Nat) := do
  let era_user ← Prog.read fun db => db.users.first fun u => u.telegram_user_id = some telegram_id
  return era_user.map (·.id)

-- The order of the whole numbers that can be computed.
local instance : Preorder Datetime := Int.instLinearOrder.toPreorder

/-- The active subscription that ends last. -/
def latest_active (now : Datetime) (era_user_id : Nat) (db : Db) : Option UserSubscription :=
  (db.subscriptions.rows.filter fun u => u.user_id = era_user_id && active_at now u).argmax
    (·.expires_at)

def get_active_sub (now : Datetime) (era_user_id : Nat) :
    Tx (Option (UserSubscription × Option SubscriptionPlan)) := do
  let sub ← Prog.read (latest_active now era_user_id)
  match sub with
  | none => return none
  | some sub =>
    let plan ← Prog.read fun db => db.plans.get sub.plan_id
    return some (sub, plan)

def get_billing_account (era_user_id : Nat) : Tx UserBillingAccount := do
  let billing ← Prog.read fun db => db.accounts.first fun a => a.user_id = era_user_id
  match billing with
  | some billing => return billing
  | none =>
    let id ← Prog.read fun db => db.accounts.nextKey
    Prog.flush (.addAccount { user_id := era_user_id, currency := some "IRR" })
    return { id, user_id := era_user_id, currency := some "IRR" }

def message_key (message_id : String) : Option String := some ("msg:" ++ message_id)

def ledger_exists (message_id : String) : Tx Bool :=
  Prog.read fun db =>
    (db.ledger.first fun e => e.idempotency_key = message_key message_id).isSome

/-- The window closes when its end has come. -/
def expire_cooldown (now : Datetime) (sub : UserSubscription) : UserSubscription :=
  if sub.cooldown_ends_at.any (· ≤ now) then
    { sub with cooldown_spent_toman := some 0, cooldown_ends_at := none }
  else sub

def expire_week (now : Datetime) (sub : UserSubscription) : Except PyError UserSubscription :=
  if sub.week_resets_at.any (· ≤ now) then
    (addDelta now (days 7)).map fun t =>
      { sub with weekly_spent_toman := some 0, week_resets_at := some t }
  else .ok sub

/-- Timers that are not set start now. -/
def start_timers (now : Datetime) (cooldown_hours : Int) (sub : UserSubscription) :
    Except PyError UserSubscription := do
  let sub ← match sub.cooldown_ends_at with
    | some _ => .ok sub
    | none => (addDelta now (hours cooldown_hours)).map fun t =>
        { sub with cooldown_ends_at := some t, cooldown_spent_toman := some 0 }
  match sub.week_resets_at with
  | some _ => return sub
  | none => (addDelta now (days 7)).map fun t =>
      { sub with week_resets_at := some t, weekly_spent_toman := some 0 }

/-- The row with its timers set, before the cost is added. The limits of the
plan are read by the source and not used. -/
def timed (now : Datetime) (sub : UserSubscription) (plan : Option SubscriptionPlan) :
    Except PyError UserSubscription := do
  let sub ← expire_week now (expire_cooldown now sub)
  start_timers now (cooldown_hours_of plan) sub

def spent_on (sub : UserSubscription) (cost : Int) : UserSubscription :=
  { sub with
    cooldown_spent_toman := some (intOr0 sub.cooldown_spent_toman + cost)
    weekly_spent_toman := some (intOr0 sub.weekly_spent_toman + cost) }

def record_on_subscription (now : Datetime) (cost : Int)
    (found : Option (UserSubscription × Option SubscriptionPlan)) : Tx Unit :=
  match found with
  | none => return ()
  | some (sub, plan) => do
    let sub' ← Prog.lift (timed now sub plan)
    Prog.flush (.setSubscription sub (spent_on sub' cost))

/-- What the two balances pay: all of the cost that they have, the gift
balance first. -/
def gift_used (billing : UserBillingAccount) (cost : Int) : Int :=
  if 0 < intOr0 billing.gift_balance_toman then min (intOr0 billing.gift_balance_toman) cost else 0

def paid_used (billing : UserBillingAccount) (cost : Int) : Int :=
  let remaining := cost - gift_used billing cost
  if 0 < remaining then min (intOr0 billing.paid_balance_toman) remaining else 0

def deducted (billing : UserBillingAccount) (cost : Int) : UserBillingAccount :=
  let gift := intOr0 billing.gift_balance_toman
  let paid := intOr0 billing.paid_balance_toman
  let remaining := cost - gift_used billing cost
  { billing with
    gift_balance_toman :=
      if 0 < gift then some (gift - gift_used billing cost) else billing.gift_balance_toman
    total_gift_spent_toman :=
      if 0 < gift then some (intOr0 billing.total_gift_spent_toman + gift_used billing cost)
      else billing.total_gift_spent_toman
    paid_balance_toman :=
      if 0 < remaining then some (paid - paid_used billing cost) else billing.paid_balance_toman
    total_paid_spent_toman :=
      if 0 < remaining then some (intOr0 billing.total_paid_spent_toman + paid_used billing cost)
      else billing.total_paid_spent_toman }

/-- The ledger entry of a message. -/
def message_entry (era_user_id : Nat) (billing billing' : UserBillingAccount) (cost : Int)
    (model_id : Option String) (usage : Dict) (message_id : String) : TomanLedgerEntry where
  user_id := era_user_id
  billing_account_id := some billing.id
  amount_toman := -cost
  gift_delta_toman := -gift_used billing cost
  paid_delta_toman := -paid_used billing cost
  gift_balance_after_toman := billing'.gift_balance_toman
  paid_balance_after_toman := billing'.paid_balance_toman
  entry_type := "chat_completion_usage"
  status := none
  reason := some ("Chat completion: " ++ (strOr model_id (some "unknown")).getD "")
  idempotency_key := message_key message_id
  metadata_json :=
    [("model_id", (model_id.map Scalar.str).getD Scalar.null),
     ("message_id", Scalar.str message_id),
     ("input_tokens", (usage.get "input_tokens").getD (Scalar.int 0)),
     ("output_tokens", (usage.get "output_tokens").getD (Scalar.int 0)),
     ("cost_toman", Scalar.int cost)]

def record_spending_from_message (now : Datetime) (era_tracking_id cost : Int)
    (model_id : Option String) (usage : Dict) (message_id : String) : Tx Unit := do
  if cost ≤ 0 then return ()
  else
  let found ← find_era_user_id era_tracking_id
  let era_user_id ← match found with
    | some id => pure id
    | none => create_era_user now era_tracking_id
  let recorded ← ledger_exists message_id
  if recorded then return ()
  else
  let sub ← get_active_sub now era_user_id
  record_on_subscription now cost sub
  let billing ← get_billing_account era_user_id
  Prog.flush (.setAccount billing (deducted billing cost))
  Prog.flush (.addLedger (message_entry era_user_id billing (deducted billing cost) cost model_id
    usage message_id))
  Prog.publish

end dr_boz.spending
