-- The capacity pools of `codex_capacity_service.py`: a subscription takes a
-- slot of the first active pool with room, and a recount sets the cached
-- counter of a pool.
import DrBoz.Models

open keyed_table unit_of_work dr_boz.py dr_boz.models

namespace dr_boz.codex_capacity

/-- A program on the account database. -/
abbrev Tx := Prog Db Change PyError

/-- `status == "active" and expires_at > now`, as the queries test it. -/
def active_at (now : Datetime) (u : UserSubscription) : Bool :=
  u.status = some "active" && now < u.expires_at

def recalculate_pool_active_users (now : Datetime) (pool_id : Nat) : Tx Int := do
  let active_users : Int ← Prog.read fun db =>
    db.subscriptions.count fun u => u.pool_id = some pool_id && active_at now u
  let pool ← Prog.read fun db => db.pools.get pool_id
  match pool with
  | some pool =>
    Prog.flush (.setPool pool { pool with active_users := some active_users })
    return active_users
  | none => return active_users

/-- The pool query: active, with room, and the lowest id. A NULL compares as
false. -/
def has_room (p : CapacityPool) : Bool :=
  p.status = some "active" &&
    match p.active_users, p.max_users with
    | some used, some limit => used < limit
    | _, _ => false

/-- The counter after one more user, which never passes the limit. -/
def one_more (p : CapacityPool) : Int :=
  min (max 0 (intOr0 p.active_users) + 1) (max 0 (intOr0 p.max_users))

/-- Gives the subscription with its pool back. -/
def assign_subscription_pool (subscription : UserSubscription) :
    Tx (UserSubscription × CapacityPool) :=
  match subscription.pool_id with
  | some pool_id => do
    let pool ← Prog.read fun db => db.pools.get pool_id
    match pool with
    | none =>
      Prog.throw (.codex_capacity_error "codex_capacity_unavailable"
        "Subscription capacity pool not found")
    | some pool => return (subscription, pool)
  | none => do
    let pool ← Prog.read fun db => db.pools.lowest has_room
    match pool with
    | none =>
      Prog.throw (.codex_capacity_error "codex_capacity_unavailable"
        "No Codex capacity pool has available user capacity")
    | some pool =>
      let assigned := { subscription with pool_id := some pool.id }
      let counted := { pool with active_users := some (one_more pool) }
      Prog.flush (.setSubscription subscription assigned)
      Prog.flush (.setPool pool counted)
      return (assigned, counted)

end dr_boz.codex_capacity
