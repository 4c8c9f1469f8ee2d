-- Subscriptions beside the purchase: the trial of `trial_service.py`, and the
-- admin endpoints that cancel and reactivate (`admin_subscription_routes.py`).
import DrBoz.CodexCapacity

open keyed_table unit_of_work dr_boz.py dr_boz.models dr_boz.codex_capacity

namespace dr_boz.subscriptions

/-- `str(e)` of the exceptions that a pool assignment raises. -/
def message : PyError → String
  | .codex_capacity_error _ msg => msg
  | _ => ""

/-- The checks before a trial: the user, the flag, the config with its plan,
and no subscription with status `active`, whether it has expired or not. -/
def trial_checks (user_id : Nat) : Tx (UserPreference × TrialConfig × Nat) := do
  let user ← Prog.read fun db => db.users.get user_id
  match user with
  | none => Prog.throw (.trial_service_error "User not found")
  | some user =>
  if user.trial_used = some true then
    Prog.throw (.trial_service_error "User has already used a trial")
  else
  let config ← Prog.read fun db => db.trial_configs.first fun _ => true
  match config with
  | none =>
    Prog.throw (.trial_service_error "Trial configuration is not enabled or missing plan_id")
  | some config =>
  if config.is_enabled ≠ some true ∨ config.plan_id.getD 0 = 0 then
    Prog.throw (.trial_service_error "Trial configuration is not enabled or missing plan_id")
  else
  let sub ← Prog.read fun db =>
    db.subscriptions.first fun u => u.user_id = user.id && u.status = some "active"
  match sub with
  | some _ => Prog.throw (.trial_service_error "User already has an active subscription")
  | none => return (user, config, config.plan_id.getD 0)

/-- `timedelta(hours=..)`, which raises for a NULL. -/
def trial_end (now : Datetime) (config : TrialConfig) : Except PyError Datetime :=
  match config.duration_hours with
  | none => .error .type_error
  | some n => addDelta now (hours n)

def grant_trial_subscription (now : Datetime) (user_id : Nat) (reason : String) :
    Tx UserSubscription := do
  let (user, config, plan_id) ← trial_checks user_id
  let expires_at ← Prog.lift (trial_end now config)
  let id ← Prog.read fun db => db.subscriptions.nextKey
  let added : UserSubscription :=
    { user_id := user.id, plan_id, purchased_at := some now, expires_at }
  Prog.flush (.addSubscription added)
  let assigned ← Prog.attempt (assign_subscription_pool { added with id })
  match assigned with
  | .error e =>
    Prog.throw (.trial_service_error ("Failed to assign capacity pool: " ++ message e))
  | .ok (subscription, _) =>
  Prog.flush (.setUser user { user with trial_used := some true })
  Prog.flush (.addAdminAction
    { action_type := "grant_trial", target_type := "user", target_id := some user.id,
      after_json := some [("subscription_plan_id", Scalar.int plan_id),
        ("expires_at", Scalar.time expires_at)],
      reason := some reason })
  Prog.publish
  return subscription

/-- The recount of the subscription's pool, when it has one. -/
def recount (now : Datetime) (subscription : UserSubscription) : Tx Unit :=
  match subscription.pool_id with
  | some pool_id => do
    let _ ← recalculate_pool_active_users now pool_id
    return ()
  | none => return ()

def find_subscription (subscription_id : Nat) : Tx UserSubscription := do
  let subscription ← Prog.read fun db => db.subscriptions.get subscription_id
  match subscription with
  | none => Prog.throw (.http_exception 404 "Subscription not found")
  | some subscription => return subscription

def cancel_user_subscription (now : Datetime) (subscription_id : Nat) : Tx UserSubscription := do
  let subscription ← find_subscription subscription_id
  let cancelled := { subscription with status := some "cancelled" }
  Prog.flush (.setSubscription subscription cancelled)
  recount now cancelled
  Prog.publish
  return cancelled

/-- The row after a reactivation: active, and with 30 new days when it had
expired. -/
def reactivated (now : Datetime) (subscription : UserSubscription) :
    Except PyError UserSubscription :=
  if subscription.expires_at ≤ now then
    (addDelta now (days 30)).map fun expires_at =>
      { subscription with status := some "active", expires_at }
  else .ok { subscription with status := some "active" }

def reactivate_user_subscription (now : Datetime) (subscription_id : Nat) :
    Tx UserSubscription := do
  let subscription ← find_subscription subscription_id
  let active ← Prog.lift (reactivated now subscription)
  Prog.flush (.setSubscription subscription active)
  recount now active
  Prog.publish
  return active

end dr_boz.subscriptions
