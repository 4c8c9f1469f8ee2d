-- How the bot of `bot.py` finds the user of an update: the row for the
-- Telegram id, created with the credit of a sign-up when it is new, and with
-- its names and its status brought up to date when it is known.
import DrBoz.Accounts
import DrBoz.Effects

open keyed_table unit_of_work dr_boz.py dr_boz.models dr_boz.codex_capacity dr_boz.toman_billing
open dr_boz.accounts dr_boz.views dr_boz.billing_runs

namespace dr_boz.bot_users

def ADMIN_ID : Int := 567136570

def ONBOARDING_PENDING_STATUSES : List String :=
  ["pending_onboarding", "pending_profile", "pending_name", "incomplete"]

def BLOCKED_ACCOUNT_STATUSES : List String := ["suspended", "deactivated", "deleted"]

/-- The status is one that an admin has blocked the account with. -/
def blocked (user : UserPreference) : Bool :=
  lowered user.account_status ∈ BLOCKED_ACCOUNT_STATUSES

def user_onboarding_completed (user : UserPreference) : Bool :=
  user.is_admin = some true || !blocked user

def mark_onboarding_pending (user : UserPreference) : UserPreference :=
  if user.is_admin = some true ∨ blocked user then user
  else if lowered user.account_status ∈ ONBOARDING_PENDING_STATUSES then user
  else { user with account_status := some "pending_onboarding" }

def mark_onboarding_complete (user : UserPreference) : UserPreference :=
  if user.is_admin = some true ∨ blocked user then user
  else { user with account_status := some "active" }

/-- A known user's row after an update: the names of the sender, and a status
that does not stand in the way. -/
def seen (user : UserPreference) (first_name username : Option String) : UserPreference :=
  let user := { user with
    first_name := if truthy first_name then first_name else user.first_name
    username := if truthy username then username else user.username }
  if user.is_admin = some true then user
  else if user_onboarding_completed user then { user with account_status := some "active" }
  else mark_onboarding_pending user

def get_user (uid : Int) (first_name username : Option String) : Tx UserPreference := do
  let user ← Prog.read fun db => db.users.first fun u => u.telegram_user_id = some uid
  match user with
  | none =>
    let added : UserPreference :=
      { id := 0, telegram_user_id := some uid, is_admin := some (uid = ADMIN_ID), first_name,
        username, account_status := some "active" }
    let id ← Prog.read fun db => db.users.nextKey
    Prog.flush (.addUser added)
    let _ ← apply_starter_credit { added with id }
    Prog.publish
    refreshed { added with id }
  | some user =>
    if seen user first_name username = user then return user
    else
    Prog.flush (.setUser user (seen user first_name username))
    Prog.publish
    return seen user first_name username

/-- No config row means that the feature is on. -/
def is_sub_feature_enabled : Tx Bool :=
  Prog.read fun db => (db.configs.first fun _ => true).all fun c => c.is_enabled = some true

def toman_balance (user : UserPreference) : Tx Int := do
  let account ← get_or_create_billing_account user
  return available account

/-! ## A known user -/

/-- The row of a Telegram user. -/
def userOf (db : Db) (uid : Int) : Option UserPreference :=
  db.users.first fun u => u.telegram_user_id = some uid

def putUser (db : Db) (u : UserPreference) : Db := { db with users := db.users.put u }

theorem get_userOf {db : Db} {uid : Int} {u : UserPreference} (h : userOf db uid = some u) :
    db.users.get u.id = some u :=
  (Table.get_eq_some _).mpr ⟨(Table.first_mem h).1, rfl⟩

theorem apply_setUser {db : Db} {a b : UserPreference} (h : db.users.get a.id = some a)
    (hid : b.id = a.id) (htg : b.telegram_user_id = a.telegram_user_id) :
    db.apply (.setUser a b) = putUser db b := by
  have hm : UserPreference.merge a b a = b := by
    unfold UserPreference.merge
    simp only [col_self, ← hid, ← htg]
  exact congrArg (fun t => { db with users := t }) (Table.update_eq_put _ _ (hid ▸ h) hm)

/-- The users are no part of what a call looks for. -/
theorem looked_putUser (w : Nat) (db : Db) (u : UserPreference) : Looked w db (putUser db u) :=
  ⟨rfl, rfl, rfl, rfl, rfl, rfl⟩

theorem run_flush_user {a b : UserPreference} {s : Session Db} (h : s.view.users.get a.id = some a)
    (hid : b.id = a.id) (htg : b.telegram_user_id = a.telegram_user_id) :
    (Prog.flush (.setUser a b) : Tx Unit).run s = (.ok (), ⟨s.stored, putUser s.view b⟩) := by
  rw [Prog.run_flush, store_apply, apply_setUser h hid htg]
  rfl

@[simp] theorem seen_id (u : UserPreference) (f n : Option String) : (seen u f n).id = u.id := by
  unfold seen mark_onboarding_pending
  simp only
  split_ifs <;> rfl

@[simp] theorem seen_telegram (u : UserPreference) (f n : Option String) :
    (seen u f n).telegram_user_id = u.telegram_user_id := by
  unfold seen mark_onboarding_pending
  simp only
  split_ifs <;> rfl

theorem putUser_self {db : Db} {u : UserPreference} (h : db.users.get u.id = some u) :
    putUser db u = db :=
  congrArg (fun t => { db with users := t }) (Table.put_self h)

theorem userOf_putUser {db : Db} {uid : Int} {u v : UserPreference} (h : userOf db uid = some u)
    (hid : v.id = u.id) (htg : v.telegram_user_id = u.telegram_user_id) :
    userOf (putUser db v) uid = some v := by
  have hu : u.telegram_user_id = some uid := by simpa using (Table.first_mem h).2
  exact Table.first_put h ⟨hid, htg⟩ (by simp [htg, hu])

/-- The row of a known user is brought up to date, and nothing else. -/
theorem run_get_user {db : Db} {uid : Int} {u : UserPreference} (h : userOf db uid = some u)
    (f n : Option String) :
    (get_user uid f n).run (.opened db) =
      (.ok (seen u f n), .opened (putUser db (seen u f n))) := by
  unfold get_user
  rw [Prog.run_bind, Prog.run_read, Prog.continueWith_ok,
    show ((Session.opened db).view.users.first fun r => r.telegram_user_id = some uid) = some u
      from h]
  simp only
  have hget := get_userOf h
  by_cases hs : seen u f n = u
  · simp only [hs, if_true, Prog.run_pure, putUser_self hget]
  · simp only [if_neg hs, Prog.run_bind]
    rw [run_flush_user (s := .opened db) hget (seen_id u f n) (seen_telegram u f n)]
    rfl

/-! ## Any sender -/

/-- A user that the bot has found or made is committed. -/
theorem get_user_opened {db : Db} {uid : Int} {f n : Option String} {v : UserPreference}
    {s : Session Db} (h : (get_user uid f n).run (.opened db) = (.ok v, s)) :
    s = .opened s.stored := by
  cases hu : userOf db uid with
  | some u =>
    rw [run_get_user hu] at h
    cases h
    rfl
  | none =>
    unfold get_user at h
    rw [Prog.run_bind, Prog.run_read, Prog.continueWith_ok,
      show ((Session.opened db).view.users.first fun r => r.telegram_user_id = some uid) = none
        from hu] at h
    simp only [Prog.run_bind, Prog.run_read, Prog.continueWith_ok, Prog.run_flush] at h
    split at h
    · rw [Prog.continueWith_ok, Prog.run_bind] at h
      generalize (apply_starter_credit _).run _ = x at h
      obtain ⟨e | b, t⟩ := x
      · cases h
      · cases h
        rfl
    · cases h

/-- The user of an update, and the store with the user's row. -/
def visitor (db : Db) (uid : Int) (f n : Option String) : Option (UserPreference × Db) :=
  match (get_user uid f n).run (.opened db) with
  | (.ok v, s) => some (v, s.stored)
  | (.error _, _) => none

theorem run_visitor {db d : Db} {uid : Int} {f n : Option String} {v : UserPreference}
    (h : visitor db uid f n = some (v, d)) :
    (get_user uid f n).run (.opened db) = (.ok v, .opened d) := by
  unfold visitor at h
  cases hx : (get_user uid f n).run (.opened db) with
  | mk r s =>
    rw [hx] at h
    cases r with
    | error e => cases h
    | ok w =>
      cases h
      rw [get_user_opened hx]
      rfl

theorem run_no_visitor {db : Db} {uid : Int} {f n : Option String}
    (h : visitor db uid f n = none) :
    ∃ e s, (get_user uid f n).run (.opened db) = (.error e, s) := by
  unfold visitor at h
  cases hx : (get_user uid f n).run (.opened db) with
  | mk r s =>
    rw [hx] at h
    cases r with
    | error e => exact ⟨e, s, rfl⟩
    | ok w => cases h

end dr_boz.bot_users
