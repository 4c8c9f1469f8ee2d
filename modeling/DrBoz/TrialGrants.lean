-- Law of a trial grant that fails: what is left of it once the caller has
-- caught the error and commits. The grant adds the subscription before it
-- looks for a pool, and takes nothing back when there is none.
import DrBoz.BotUsers
import DrBoz.Calls

open keyed_table unit_of_work dr_boz.py dr_boz.models dr_boz.codex_capacity dr_boz.toman_billing
open dr_boz.subscriptions dr_boz.accounts dr_boz.billing_runs dr_boz.purchase_runs dr_boz.effects
open dr_boz.calls dr_boz.views dr_boz.bot_users

namespace dr_boz.trial_grants

/-! ## The bulk grant of an admin -/

inductive GrantOutcome where
  | skipped (reason : String)
  | success (subscription_id : Nat) (expires_at : Datetime)
  | error (reason : String)
deriving DecidableEq

structure GrantDetail where
  user_id : Nat
  telegram_user_id : Option Int
  outcome : GrantOutcome
deriving DecidableEq

/-- The reason of a failed grant. The texts of Python's own exceptions are
left out. -/
def error_reason : PyError → String
  | .trial_service_error msg => msg
  | e => "Internal error: " ++ message e

/-- One turn of the loop. The row is the one that the query has found. -/
def grant_to (now : Datetime) (skip_if_used : Bool) (user : UserPreference) : Tx GrantDetail := do
  let detail := GrantDetail.mk user.id user.telegram_user_id
  if user.trial_used = some true ∧ skip_if_used = true then
    return detail (.skipped "trial_already_used")
  else
  let sub ← Prog.read fun db =>
    db.subscriptions.first fun u => u.user_id = user.id && u.status = some "active"
  match sub with
  | some _ => return detail (.skipped "has_active_subscription")
  | none =>
  if user.trial_used = some true then
    Prog.flush (.setUser user { user with trial_used := some false })
  let granted ← Prog.attempt (grant_trial_subscription now user.id "Bulk grant by admin")
  match granted with
  | .ok subscription => return detail (.success subscription.id subscription.expires_at)
  | .error e => return detail (.error (error_reason e))

/-- The loop. The clock is read once in each turn. -/
def grant_each (clock : Nat → Datetime) (skip_if_used : Bool) :
    List UserPreference → Tx (List GrantDetail)
  | [] => return []
  | user :: users => do
    let detail ← grant_to (clock user.id) skip_if_used user
    let details ← grant_each clock skip_if_used users
    return detail :: details

/-- The users of the query. A NULL status is not unequal to anything. -/
def targeted (user_ids : List Nat) (db : Db) : List UserPreference :=
  db.users.rows.filter fun u => (user_ids.isEmpty || u.id ∈ user_ids) &&
    u.telegram_user_id.isSome && u.account_status.any (· ≠ "deleted")

/-- The counts of the answer are those of the details. -/
def bulk_grant_trial (clock : Nat → Datetime) (user_ids : List Nat) (skip_if_used : Bool) :
    Tx (List GrantDetail) := do
  let users ← Prog.read (targeted user_ids)
  let details ← grant_each clock skip_if_used users
  Prog.flush (.addAdminAction
    { action_type := "bulk_grant_trial", target_type := "multiple_users", target_id := none,
      reason := some "Admin bulk granted trial subscriptions" })
  Prog.publish
  return details

/-! ## What a grant leaves -/

def trial_flag (db : Db) (user_id : Nat) : Option Bool :=
  (db.users.get user_id).bind (·.trial_used)

/-- Nothing of a grant. -/
structure SameTraces (db db' : Db) : Prop where
  subscriptions : db'.subscriptions.rows = db.subscriptions.rows
  pools : db'.pools.rows = db.pools.rows
  flags : ∀ id, trial_flag db' id = trial_flag db id
  actions : db'.admin_actions.rows = db.admin_actions.rows

/-- All of a grant to the user: the subscription, a slot of a pool, the flag
and the admin action. -/
structure AllTraces (db db' : Db) (user_id : Nat) (sub : UserSubscription) : Prop where
  owner : sub.user_id = user_id ∧ sub.status = some "active"
  subscriptions : db'.subscriptions.rows = db.subscriptions.rows ++ [sub]
  pools : ∃ pool, db.pools.lowest has_room = some pool ∧ sub.pool_id = some pool.id ∧
    db'.pools.rows = (db.pools.put { pool with active_users := some (one_more pool) }).rows
  flags : ∀ id, trial_flag db' id = if id = user_id then some true else trial_flag db id
  actions : ∃ act, act.action_type = "grant_trial" ∧ act.target_id = some user_id ∧
    db'.admin_actions.rows = db.admin_actions.rows ++ [act]

/-- A grant that raises leaves nothing, and one that succeeds leaves all. -/
def Traces (db db' : Db) (user_id : Nat) : Except PyError UserSubscription → Prop
  | .error _ => SameTraces db db'
  | .ok sub => AllTraces db db' user_id sub

/-- The grant passes its checks and can compute its end. -/
def Cleared (now : Datetime) (user_id : Nat) (s : Session Db) : Prop :=
  ∃ user config plan_id t, ((trial_checks user_id).run s).1 = .ok (user, config, plan_id) ∧
    trial_end now config = .ok t

/-- A grant that is cleared and finds no pool with room. -/
def Stuck (now : Datetime) (user_id : Nat) (s : Session Db) : Prop :=
  Cleared now user_id s ∧ s.view.pools.lowest has_room = none

section
variable {now : Datetime} {user_id : Nat} {s : Session Db} {reason : String}

theorem end_error {config : TrialConfig} {e : PyError} (h : trial_end now config = .error e) :
    e ≠ .integrity_error := by
  unfold trial_end addDelta at h
  split at h
  · cases h
    simp
  · split at h
    · cases h
    · cases h
      simp

/-- A row that is put in its place gives the flag of its user only. -/
theorem flag_putUser {db : Db} {o n : UserPreference} (hid : n.id = o.id)
    (htg : n.telegram_user_id = o.telegram_user_id) (ho : db.users.get o.id = some o) (id : Nat) :
    trial_flag (putUser db n) id = if id = o.id then n.trial_used else trial_flag db id := by
  unfold trial_flag putUser
  by_cases hi : id = o.id
  · have hput := Table.get_put_self ho ⟨hid, htg⟩
    change (db.users.put n).get n.id = some n at hput
    rw [if_pos hi, hi, ← hid, hput]
    rfl
  · rw [if_neg hi, Table.get_put_ne ho ⟨hid, htg⟩ hi]

/-! ## How a grant ends -/

inductive TrialRun (now : Datetime) (user_id : Nat) (s : Session Db) :
    Except PyError UserSubscription → Session Db → Prop where
  | refused (e : PyError) (he : e ≠ .integrity_error) (hno : ¬Cleared now user_id s) :
      TrialRun now user_id s (.error e) s
  | stuck (e : PyError) (row : UserSubscription) (he : e ≠ .integrity_error)
      (hstuck : Stuck now user_id s) :
      TrialRun now user_id s (.error e) ⟨s.stored, unassigned s.view row⟩
  | granted (sub : UserSubscription) (db' : Db)
      (hroom : ∃ pool, s.view.pools.lowest has_room = some pool)
      (h : AllTraces s.view db' user_id sub) : TrialRun now user_id s (.ok sub) (.opened db')

theorem trialRun (now : Datetime) (user_id : Nat) (reason : String) (s : Session Db) :
    TrialRun now user_id s ((grant_trial_subscription now user_id reason).run s).1
      ((grant_trial_subscription now user_id reason).run s).2 := by
  unfold grant_trial_subscription
  simp only [Prog.run_bind]
  rcases run_trial_checks user_id s with ⟨user, config, plan_id, hu, -, hrun⟩ | ⟨msg, hrun⟩
  · rw [hrun, Prog.continueWith_ok]
    simp only [Prog.run_bind, run_lift]
    cases ht : trial_end now config with
    | error e =>
      refine .refused e (end_error ht) ?_
      rintro ⟨user', config', plan_id', t, hchecks, hend⟩
      rw [hrun] at hchecks
      cases hchecks
      rw [ht] at hend
      cases hend
    | ok t =>
      obtain rfl : user.id = user_id := ((Table.get_eq_some _).mp hu).2
      have hcleared : Cleared now user.id s := ⟨user, config, plan_id, t, by rw [hrun], ht⟩
      rw [Prog.continueWith_ok, Prog.run_bind, Prog.run_read, Prog.continueWith_ok]
      erw [run_add_subscription (u := trialRow now t user.id plan_id) rfl _ s]
      cases hp : s.view.pools.lowest has_room with
      | none => exact .stuck _ _ (by simp) ⟨hcleared, hp⟩
      | some pool =>
        have hget : (subscribed s.view (trialRow now t user.id plan_id) pool).users.get user.id =
            some user := hu
        have hflush := run_flush_user
          (s := ⟨s.stored, subscribed s.view (trialRow now t user.id plan_id) pool⟩)
          (a := user) (b := { user with trial_used := some true }) hget rfl rfl
        simp only [Prog.run_bind]
        rw [hflush, Prog.continueWith_ok, Prog.run_bind]
        refine .granted _ _ ⟨pool, hp⟩ ⟨⟨rfl, rfl⟩, ?_, ⟨pool, hp, rfl, rfl⟩, ?_, ?_⟩
        · exact Table.rows_insert (Table.accepts_of_no_unique rfl)
        · exact fun id => flag_putUser (o := user)
            (n := { user with trial_used := some true }) rfl rfl hget id
        · exact ⟨_, rfl, rfl, Table.rows_insert (Table.accepts_of_no_unique rfl)⟩
  · rw [hrun]
    refine .refused _ (by simp) ?_
    rintro ⟨user', config', plan_id', t, hchecks, -⟩
    rw [hrun] at hchecks
    cases hchecks

/-- An update that leaves the flag of its row leaves every flag. -/
theorem flag_setUser {o n : UserPreference} (h : n.trial_used = o.trial_used) (db : Db) (id : Nat) :
    trial_flag (db.apply (.setUser o n)) id = trial_flag db id := by
  unfold trial_flag
  have hget := Table.get_update db.users n.id (UserPreference.merge o n) (fun _ => rfl)
    (fun _ => rfl) id
  have hread : (db.apply (.setUser o n)).users.get id =
      if id = n.id then (db.users.get id).map (.merge o n) else db.users.get id := hget
  rw [hread]
  split
  · cases db.users.get id with
    | none => rfl
    | some r => simp [UserPreference.merge, col, h]
  · rfl

theorem SameTraces.refl (db : Db) : SameTraces db db := ⟨rfl, rfl, fun _ => rfl, rfl⟩

/-- Only the traces of the later store count. -/
theorem traces_congr {db d d' : Db} {r : Except PyError UserSubscription}
    (h : SameTraces d d') : Traces db d' user_id r ↔ Traces db d user_id r := by
  obtain ⟨h1, h2, h3, h4⟩ := h
  cases r with
  | error e =>
    constructor
    · rintro ⟨g1, g2, g3, g4⟩
      exact ⟨h1 ▸ g1, h2 ▸ g2, fun id => (h3 id).symm.trans (g3 id), h4 ▸ g4⟩
    · rintro ⟨g1, g2, g3, g4⟩
      exact ⟨h1.trans g1, h2.trans g2, fun id => (h3 id).trans (g3 id), h4.trans g4⟩
  | ok sub =>
    constructor
    · rintro ⟨g0, g1, ⟨pool, hp, hid, g2⟩, g3, act, ha, ht, g4⟩
      exact ⟨g0, h1 ▸ g1, ⟨pool, hp, hid, h2 ▸ g2⟩, fun id => (h3 id).symm.trans (g3 id),
        act, ha, ht, h4 ▸ g4⟩
    · rintro ⟨g0, g1, ⟨pool, hp, hid, g2⟩, g3, act, ha, ht, g4⟩
      exact ⟨g0, h1.trans g1, ⟨pool, hp, hid, h2.trans g2⟩, fun id => (h3 id).trans (g3 id),
        act, ha, ht, h4.trans g4⟩

/-- The row of a stuck grant is one too many. -/
theorem unassigned_rows (db : Db) (row : UserSubscription) :
    (unassigned db row).subscriptions.rows.length = db.subscriptions.rows.length + 1 := by
  unfold unassigned
  rw [Table.rows_insert (Table.accepts_of_no_unique rfl), List.length_append, List.length_singleton]

/-- A grant leaves nothing or all exactly when it is not stuck. -/
theorem traces_iff (now : Datetime) (user_id : Nat) (reason : String) (s : Session Db) :
    Traces s.view ((grant_trial_subscription now user_id reason).run s).2.view user_id
      ((grant_trial_subscription now user_id reason).run s).1 ↔ ¬Stuck now user_id s := by
  have h := trialRun now user_id reason s
  generalize ((grant_trial_subscription now user_id reason).run s).1 = r,
    ((grant_trial_subscription now user_id reason).run s).2 = t at h
  cases h with
  | refused e he hno => exact ⟨fun _ hstuck => hno hstuck.1, fun _ => .refl _⟩
  | stuck e row he hstuck =>
    refine ⟨fun hsame => ?_, fun hno => absurd hstuck hno⟩
    have hlen := unassigned_rows s.view row
    have hrows := congrArg List.length hsame.subscriptions
    simp only at hrows
    omega
  | granted sub db' hroom h =>
    refine ⟨fun _ hstuck => ?_, fun _ => h⟩
    obtain ⟨pool, hp⟩ := hroom
    rw [hstuck.2] at hp
    cases hp

/-- The error of a grant is handed over to a caller who catches it. -/
theorem run_attempt_grant (now : Datetime) (user_id : Nat) (reason : String) (s : Session Db) :
    (grant_trial_subscription now user_id reason).attempt.run s =
      (.ok ((grant_trial_subscription now user_id reason).run s).1,
        ((grant_trial_subscription now user_id reason).run s).2) := by
  refine Prog.run_attempt ?_
  have h := trialRun now user_id reason s
  generalize ((grant_trial_subscription now user_id reason).run s).1 = r,
    ((grant_trial_subscription now user_id reason).run s).2 = t at h
  cases h with
  | refused e he _ | stuck e row he _ => exact fun heq => he (Except.error.inj heq)
  | granted sub db' hroom h => simp

end

/-! ## The sign-up -/

/-- The arguments of `create_or_restore_user`. -/
structure SignUp where
  telegram_user_id : Int
  first_name : Option String
  username : Option String
  phone_number : Option String
  preferred_name : Option String
  admin_telegram_id : Option Int
  is_admin : Bool
  commit : Bool

/-- The call, and the commit that is left to its caller. -/
def SignUp.committed (now : Datetime) (c : SignUp) : Tx UserPreference := do
  let user ← create_or_restore_user now c.telegram_user_id c.first_name c.username c.phone_number
    c.preferred_name c.admin_telegram_id c.is_admin c.commit
  Prog.publishIf !c.commit
  return user

def SignUp.admin (c : SignUp) : Bool :=
  c.is_admin || c.admin_telegram_id = some c.telegram_user_id

/-- The row of a new user, before it has an id. -/
def SignUp.row (c : SignUp) : UserPreference :=
  { id := 0, telegram_user_id := some c.telegram_user_id, first_name := c.first_name
    username := c.username, preferred_name := c.preferred_name
    phone_number := normalize_phone_number c.phone_number, is_admin := some c.admin
    account_status := some (if c.admin then "active" else "pending_onboarding") }

/-- The user that the call finds. -/
def SignUp.found (c : SignUp) (db : Db) : Option UserPreference :=
  db.users.first fun u => u.telegram_user_id = some c.telegram_user_id ||
    ((normalize_phone_number c.phone_number).isSome &&
      u.phone_number = normalize_phone_number c.phone_number)

/-- What a new user gets before the trial: the row and the starter credit. -/
def SignUp.welcome (c : SignUp) : Tx UserPreference := do
  let id ← Prog.read fun db => db.users.nextKey
  Prog.flush (.addUser c.row)
  let _ ← apply_starter_credit { c.row with id }
  return { c.row with id }

/-- What follows the welcome. -/
def SignUp.rest (now : Datetime) (c : SignUp) (user : UserPreference) : Tx UserPreference := do
  let trial_config ← Prog.read fun db => db.trial_configs.first fun _ => true
  if trial_config.any fun c => c.apply_automatically = some true then
    let _ ← Prog.attempt (grant_trial_subscription now user.id "Automatically granted on signup")
  Prog.flush (.setUser user (mark_onboarding_state user))
  Prog.publishIf c.commit
  refreshed user

/-- A trial is granted to every new user. -/
def automatic (db : Db) : Prop :=
  ((db.trial_configs.first fun _ => true).any fun c => c.apply_automatically = some true) = true

section
variable {now : Datetime} {c : SignUp} {s t : Session Db} {user : UserPreference}

theorem mark_keeps_flag (u : UserPreference) :
    (mark_onboarding_state u).trial_used = u.trial_used := by
  unfold mark_onboarding_state
  split <;> rfl

/-- A call that creates its user grants the trial in the session of the
welcome, and commits what that leaves. -/
theorem run_sign_up (now : Datetime) (hnew : c.found s.view = none)
    (hwelcome : c.welcome.run s = (.ok user, t)) (hauto : automatic t.view) :
    ((c.committed now).run s).2.stored =
      ((grant_trial_subscription now user.id "Automatically granted on signup").run t).2.view.apply
        (.setUser user (mark_onboarding_state user)) := by
  have hcreate : (create_or_restore_user now c.telegram_user_id c.first_name c.username
      c.phone_number c.preferred_name c.admin_telegram_id c.is_admin c.commit).run s =
      (c.welcome >>= c.rest now).run s := by
    unfold SignUp.found at hnew
    unfold create_or_restore_user
    rw [Prog.run_bind, Prog.run_read, Prog.continueWith_ok, hnew]
    unfold SignUp.welcome SignUp.row SignUp.admin
    simp only [Prog.run_bind, Prog.run_read, Prog.continueWith_ok]
    generalize (Prog.flush _ : Tx Unit).run s = x
    obtain ⟨_ | _, u⟩ := x
    · rfl
    · simp only [Prog.continueWith_ok, Prog.run_bind]
      generalize (apply_starter_credit _).run u = y
      obtain ⟨_ | _, v⟩ := y
      · rfl
      · rfl
  have hgrant := run_attempt_grant now user.id "Automatically granted on signup" t
  unfold SignUp.committed
  rw [Prog.run_bind, hcreate, Prog.run_bind, hwelcome, Prog.continueWith_ok]
  unfold SignUp.rest
  unfold automatic at hauto
  rw [Prog.run_bind, Prog.run_read, Prog.continueWith_ok]
  simp only [hauto, if_true, Prog.run_bind, hgrant, Prog.continueWith_ok]
  generalize ((grant_trial_subscription now user.id "Automatically granted on signup").run t).2 = u
  have hset : (Prog.flush (.setUser user (mark_onboarding_state user)) : Tx Unit).run u =
      (.ok (), ⟨u.stored, u.view.apply (.setUser user (mark_onboarding_state user))⟩) := rfl
  rw [hset]
  unfold refreshed
  simp only [Prog.continueWith_ok, Prog.run_bind, Prog.run_publishIf, Prog.run_read, Prog.run_pure]
  exact Session.stored_commitIf_or_caller c.commit _

/-- What a sign-up stores has nothing or all of the grant exactly when the
grant is not stuck. -/
theorem sign_up_iff (now : Datetime) (hnew : c.found s.view = none)
    (hwelcome : c.welcome.run s = (.ok user, t)) (hauto : automatic t.view) :
    Traces t.view ((c.committed now).run s).2.stored user.id
        ((grant_trial_subscription now user.id "Automatically granted on signup").run t).1 ↔
      ¬Stuck now user.id t := by
  rw [run_sign_up now hnew hwelcome hauto,
    ← traces_iff now user.id "Automatically granted on signup" t]
  exact traces_congr ⟨rfl, rfl, flag_setUser (mark_keeps_flag user) _, rfl⟩

end

/-! ## The loop -/

/-- The row once the caller has taken an old flag back. -/
def reset (db : Db) (u : UserPreference) : Db :=
  if u.trial_used = some true then db.apply (.setUser u { u with trial_used := some false }) else db

/-- A turn that gets to its grant. -/
def Attempted (skip_if_used : Bool) (u : UserPreference) (db : Db) : Prop :=
  ¬(u.trial_used = some true ∧ skip_if_used = true) ∧
    (db.subscriptions.first fun x => x.user_id = u.id && x.status = some "active") = none

/-- The loop as it should be: a turn without a success leaves nothing of a
grant, and one with a success leaves all of it. -/
inductive EachTraced : Db → List UserPreference → List GrantDetail → Db → Prop where
  | nil (db : Db) : EachTraced db [] [] db
  | skipped {db db' : Db} {us : List UserPreference} {ds : List GrantDetail} (u : UserPreference)
      (reason : String) (h : EachTraced db us ds db') :
      EachTraced db (u :: us) (⟨u.id, u.telegram_user_id, .skipped reason⟩ :: ds) db'
  | failed {db d db' : Db} {us : List UserPreference} {ds : List GrantDetail} (u : UserPreference)
      (reason : String) (hd : SameTraces (reset db u) d) (h : EachTraced d us ds db') :
      EachTraced db (u :: us) (⟨u.id, u.telegram_user_id, .error reason⟩ :: ds) db'
  | granted {db d db' : Db} {us : List UserPreference} {ds : List GrantDetail} (u : UserPreference)
      (sub : UserSubscription) (hd : AllTraces (reset db u) d u.id sub)
      (h : EachTraced d us ds db') :
      EachTraced db (u :: us) (⟨u.id, u.telegram_user_id, .success sub.id sub.expires_at⟩ :: ds) db'

/-- No turn of the loop gets stuck. -/
def NoneStuck (clock : Nat → Datetime) (skip_if_used : Bool) :
    List UserPreference → Session Db → Prop
  | [], _ => True
  | u :: us, s =>
    (Attempted skip_if_used u s.view → ¬Stuck (clock u.id) u.id ⟨s.stored, reset s.view u⟩) ∧
      NoneStuck clock skip_if_used us ((grant_to (clock u.id) skip_if_used u).run s).2

def GrantDetail.succeeded (d : GrantDetail) : Bool :=
  match d.outcome with
  | .success _ _ => true
  | _ => false

section
variable {now : Datetime} {skip : Bool} {u : UserPreference} {s : Session Db} {db db' : Db}
variable {us : List UserPreference} {ds : List GrantDetail}

/-- How a turn ends. -/
inductive TurnRun (now : Datetime) (skip : Bool) (u : UserPreference) (s : Session Db) :
    GrantDetail → Session Db → Prop where
  | skipped (reason : String) (hno : ¬Attempted skip u s.view) :
      TurnRun now skip u s ⟨u.id, u.telegram_user_id, .skipped reason⟩ s
  | refused (reason : String) (hno : ¬Stuck now u.id ⟨s.stored, reset s.view u⟩) :
      TurnRun now skip u s ⟨u.id, u.telegram_user_id, .error reason⟩ ⟨s.stored, reset s.view u⟩
  | stuck (reason : String) (row : UserSubscription) (ha : Attempted skip u s.view)
      (hstuck : Stuck now u.id ⟨s.stored, reset s.view u⟩) :
      TurnRun now skip u s ⟨u.id, u.telegram_user_id, .error reason⟩
        ⟨s.stored, unassigned (reset s.view u) row⟩
  | granted (sub : UserSubscription) (db' : Db)
      (hno : ¬Stuck now u.id ⟨s.stored, reset s.view u⟩)
      (h : AllTraces (reset s.view u) db' u.id sub) :
      TurnRun now skip u s ⟨u.id, u.telegram_user_id, .success sub.id sub.expires_at⟩ (.opened db')

theorem turnRun (now : Datetime) (skip : Bool) (u : UserPreference) (s : Session Db) :
    ∃ d t, (grant_to now skip u).run s = (.ok d, t) ∧ TurnRun now skip u s d t := by
  unfold grant_to
  simp only
  split
  · next hskip => exact ⟨_, s, rfl, .skipped _ fun h => h.1 hskip⟩
  · next hskip =>
    rw [Prog.run_bind, Prog.run_read, Prog.continueWith_ok]
    cases hactive : s.view.subscriptions.first
        fun x => x.user_id = u.id && x.status = some "active" with
    | some sub =>
      refine ⟨_, s, rfl, .skipped _ fun h => ?_⟩
      rw [h.2] at hactive
      cases hactive
    | none =>
      have ha : Attempted skip u s.view := ⟨hskip, hactive⟩
      -- The flag is taken back first, when it is set.
      have hreset : ∀ k : Tx GrantDetail, (do
          if u.trial_used = some true then
            Prog.flush (.setUser u { u with trial_used := some false })
          k : Tx GrantDetail).run s = k.run ⟨s.stored, reset s.view u⟩ := by
        intro k
        unfold reset
        split
        · rfl
        · rfl
      have hrun := run_attempt_grant now u.id "Bulk grant by admin" ⟨s.stored, reset s.view u⟩
      have hend := trialRun now u.id "Bulk grant by admin" ⟨s.stored, reset s.view u⟩
      simp only
      rw [hreset, Prog.run_bind, hrun, Prog.continueWith_ok]
      generalize ((grant_trial_subscription now u.id "Bulk grant by admin").run
        ⟨s.stored, reset s.view u⟩).1 = r, ((grant_trial_subscription now u.id
        "Bulk grant by admin").run ⟨s.stored, reset s.view u⟩).2 = t at hend
      cases hend with
      | refused e he hno => exact ⟨_, _, rfl, .refused _ fun h => hno h.1⟩
      | stuck e row he hstuck => exact ⟨_, _, rfl, .stuck _ row ha hstuck⟩
      | granted sub db' hroom h =>
        refine ⟨_, _, rfl, .granted sub db' (fun hstuck => ?_) h⟩
        obtain ⟨pool, hp⟩ := hroom
        rw [hstuck.2] at hp
        cases hp

theorem reset_subscriptions (db : Db) (u : UserPreference) :
    (reset db u).subscriptions = db.subscriptions := by
  unfold reset
  split
  · rfl
  · rfl

section
variable {d : GrantDetail} {ds : List GrantDetail}

theorem countP_failed (h : d.succeeded = false) :
    (d :: ds).countP (·.succeeded) = ds.countP (·.succeeded) :=
  List.countP_cons_of_neg (by simp [h])

theorem countP_succeeded (h : d.succeeded = true) :
    (d :: ds).countP (·.succeeded) = ds.countP (·.succeeded) + 1 :=
  List.countP_cons_of_pos h

end

/-- The loop answers with a detail for each turn. When no turn is stuck it is
as it should be, and the new rows are then the successes and no more. -/
theorem run_grant_each (clock : Nat → Datetime) (skip : Bool) (us : List UserPreference)
    (s : Session Db) :
    ∃ ds t, (grant_each clock skip us).run s = (.ok ds, t) ∧
      (NoneStuck clock skip us s → EachTraced s.view us ds t.view) ∧
      s.view.subscriptions.rows.length + ds.countP (·.succeeded) ≤
        t.view.subscriptions.rows.length ∧
      (t.view.subscriptions.rows.length =
          s.view.subscriptions.rows.length + ds.countP (·.succeeded) →
        NoneStuck clock skip us s) := by
  induction us generalizing s with
  | nil => exact ⟨[], s, rfl, fun _ => .nil _, le_refl _, fun _ => trivial⟩
  | cons u us ih =>
    obtain ⟨d, t, hrun, hturn⟩ := turnRun (clock u.id) skip u s
    obtain ⟨ds, t', hrest, htraced, hle, heq⟩ := ih t
    have hall : (grant_each clock skip (u :: us)).run s = (.ok (d :: ds), t') := by
      unfold grant_each
      rw [Prog.run_bind, hrun, Prog.continueWith_ok, Prog.run_bind, hrest]
      rfl
    refine ⟨d :: ds, t', hall, ?_⟩
    unfold NoneStuck
    rw [hrun]
    have hsame := reset_subscriptions s.view u
    cases hturn with
    | skipped reason hno =>
      rw [countP_failed rfl]
      exact ⟨fun h => .skipped u reason (htraced h.2), hle,
        fun h => ⟨fun ha => absurd ha hno, heq h⟩⟩
    | refused reason hno =>
      rw [countP_failed rfl]
      simp only [hsame] at hle heq
      exact ⟨fun h => .failed u reason (.refl _) (htraced h.2), hle, fun h => ⟨fun _ => hno, heq h⟩⟩
    | stuck reason row ha hstuck =>
      have hrows := unassigned_rows (reset s.view u) row
      rw [hsame] at hrows
      rw [countP_failed rfl]
      simp only [hrows] at hle
      exact ⟨fun h => absurd hstuck (h.1 ha), by omega, fun h => by omega⟩
    | granted sub db' hno h =>
      have hrows := congrArg List.length h.subscriptions
      rw [List.length_append, List.length_singleton, hsame] at hrows
      rw [countP_succeeded rfl]
      simp only [Session.view_opened, hrows] at hle heq
      exact ⟨fun hn => .granted u sub h (htraced hn.2), by omega,
        fun hl => ⟨fun _ => hno, heq (by omega)⟩⟩

/-- The rows of a traced loop. -/
theorem eachTraced_rows (h : EachTraced db us ds db') :
    db'.subscriptions.rows.length =
      db.subscriptions.rows.length + ds.countP (·.succeeded) := by
  induction h with
  | nil db => rfl
  | skipped u reason h ih =>
    rw [countP_failed rfl]
    exact ih
  | failed u reason hd h ih =>
    rw [countP_failed rfl, ih, hd.subscriptions,
      reset_subscriptions]
  | granted u sub hd h ih =>
    rw [countP_succeeded rfl, ih, hd.subscriptions,
      reset_subscriptions, List.length_append, List.length_singleton]
    omega

end

/-- What the bulk grant stores: the loop as it should be, and its own
admin action. -/
structure BulkTraced (db : Db) (us : List UserPreference) (ds : List GrantDetail)
    (final d : Db) (act : AdminAction) : Prop where
  loop : EachTraced db us ds d
  subscriptions : final.subscriptions.rows = d.subscriptions.rows
  pools : final.pools.rows = d.pools.rows
  flags : ∀ id, trial_flag final id = trial_flag d id
  actions : final.admin_actions.rows = d.admin_actions.rows ++ [act]
  bulk : act.action_type = "bulk_grant_trial"

theorem bulk_iff (clock : Nat → Datetime) (user_ids : List Nat) (skip : Bool) (s : Session Db) :
    ∃ ds, ((bulk_grant_trial clock user_ids skip).run s).1 = .ok ds ∧
      ((∃ d act, BulkTraced s.view (targeted user_ids s.view) ds
          ((bulk_grant_trial clock user_ids skip).run s).2.stored d act) ↔
        NoneStuck clock skip (targeted user_ids s.view) s) := by
  obtain ⟨ds, t, hrun, htraced, -, heq⟩ := run_grant_each clock skip (targeted user_ids s.view) s
  have hbulk : ∃ act, act.action_type = "bulk_grant_trial" ∧
      (bulk_grant_trial clock user_ids skip).run s =
        (.ok ds, .opened (t.view.apply (.addAdminAction act))) := by
    unfold bulk_grant_trial
    rw [Prog.run_bind, Prog.run_read, Prog.continueWith_ok, Prog.run_bind, hrun]
    exact ⟨_, rfl, rfl⟩
  obtain ⟨act, htype, hbulk⟩ := hbulk
  rw [hbulk]
  refine ⟨ds, rfl, ?_, fun hnone => ⟨t.view, { act with id := t.view.admin_actions.nextKey },
    htraced hnone, rfl, rfl, fun _ => rfl, ?_, htype⟩⟩
  · rintro ⟨d, act', hloop, hsub, -⟩
    refine heq ?_
    rw [← eachTraced_rows hloop, ← hsub]
    rfl
  · exact Table.rows_insert (Table.accepts_of_no_unique rfl)

/-! ## Law -/

/-- LAW: A sign-up with an automatic trial stores nothing of the grant when it
raises and all of it when it succeeds, if and only if the grant is not stuck:
its checks fail, or its end cannot be computed, or a pool has room. The bulk
grant does so for each of its users if and only if none of its turns is stuck. -/
theorem no_trace_is_left_iff_no_grant_is_stuck (s : Session Db) :
    (∀ (now : Datetime) (c : SignUp) (user : UserPreference) (t : Session Db),
      c.found s.view = none → c.welcome.run s = (.ok user, t) → automatic t.view →
      (Traces t.view ((c.committed now).run s).2.stored user.id
          ((grant_trial_subscription now user.id "Automatically granted on signup").run t).1 ↔
        ¬Stuck now user.id t)) ∧
    ∀ (clock : Nat → Datetime) (user_ids : List Nat) (skip : Bool),
      ∃ ds, ((bulk_grant_trial clock user_ids skip).run s).1 = .ok ds ∧
        ((∃ d act, BulkTraced s.view (targeted user_ids s.view) ds
            ((bulk_grant_trial clock user_ids skip).run s).2.stored d act) ↔
          NoneStuck clock skip (targeted user_ids s.view) s) :=
  ⟨fun now _ _ _ hnew hwelcome hauto => sign_up_iff now hnew hwelcome hauto,
    fun clock user_ids skip => bulk_iff clock user_ids skip s⟩

def trial_config : TrialConfig :=
  { id := 1, plan_id := some 1, is_enabled := some true, apply_automatically := some true }

/-- The shop grants trials, and has these pools. -/
def trial_shop (pools : Table CapacityPool) : Db :=
  { shop with trial_configs := Table.empty.insert trial_config, pools }

def newcomer : SignUp := ⟨200, some "N", none, none, none, none, false, true⟩

/-- Without a pool the subscription of the failed trial is stored. -/
theorem a_trial_without_a_pool_leaves_its_subscription :
    (¬∀ (s : Session Db) (now : Datetime) (c : SignUp) (user : UserPreference) (t : Session Db),
      c.found s.view = none → c.welcome.run s = (.ok user, t) → automatic t.view →
      Traces t.view ((c.committed now).run s).2.stored user.id
        ((grant_trial_subscription now user.id "Automatically granted on signup").run t).1) ∧
    ¬∀ (s : Session Db) (clock : Nat → Datetime) (user_ids : List Nat) (skip : Bool)
        (ds : List GrantDetail), ((bulk_grant_trial clock user_ids skip).run s).1 = .ok ds →
      ∃ d act, BulkTraced s.view (targeted user_ids s.view) ds
        ((bulk_grant_trial clock user_ids skip).run s).2.stored d act := by
  constructor
  · intro h
    have hwelcome : newcomer.welcome.run (.opened (trial_shop Table.empty)) =
        (.ok { newcomer.row with id := 2 }, ⟨trial_shop Table.empty,
          (trial_shop Table.empty).apply (.addUser newcomer.row)⟩) := by decide +kernel
    have hauto : automatic ((trial_shop Table.empty).apply (.addUser newcomer.row)) := by
      unfold automatic
      decide +kernel
    refine (sign_up_iff noon (by decide +kernel) hwelcome hauto).mp
      (h _ noon newcomer _ _ (by decide +kernel) hwelcome hauto) ⟨?_, by decide +kernel⟩
    exact ⟨{ newcomer.row with id := 2 }, trial_config, 1, noon + hours 48, by decide +kernel,
      by decide +kernel⟩
  · intro h
    obtain ⟨ds, hrun, hiff⟩ :=
      bulk_iff (fun _ => noon) [] true (.opened (trial_shop Table.empty))
    have hnone := hiff.mp (h _ _ _ _ ds hrun)
    have htargets : targeted [] (trial_shop Table.empty) = [customer] := by decide +kernel
    rw [Session.view_opened, htargets] at hnone
    refine hnone.1 ⟨by decide, by decide +kernel⟩ ⟨?_, by decide +kernel⟩
    exact ⟨customer, trial_config, 1, noon + hours 48, by decide +kernel, by decide +kernel⟩

/-- With a pool that has room, a sign-up and a bulk grant store all. -/
theorem a_trial_with_a_pool_is_stored :
    Traces ((trial_shop shop.pools).apply (.addUser newcomer.row))
        ((newcomer.committed noon).run (.opened (trial_shop shop.pools))).2.stored 2
        ((grant_trial_subscription noon 2 "Automatically granted on signup").run
          ⟨trial_shop shop.pools, (trial_shop shop.pools).apply (.addUser newcomer.row)⟩).1 ∧
      ∃ ds d act, BulkTraced (trial_shop shop.pools) [customer] ds
        ((bulk_grant_trial (fun _ => noon) [] true).run (.opened (trial_shop shop.pools))).2.stored
        d act := by
  have hlaw := no_trace_is_left_iff_no_grant_is_stuck (.opened (trial_shop shop.pools))
  constructor
  · refine (hlaw.1 noon newcomer { newcomer.row with id := 2 } ⟨trial_shop shop.pools,
      (trial_shop shop.pools).apply (.addUser newcomer.row)⟩ (by decide +kernel)
      (by decide +kernel) (by unfold automatic; decide +kernel)).mpr ?_
    intro hstuck
    have hpool := hstuck.2
    revert hpool
    decide +kernel
  · obtain ⟨ds, -, hiff⟩ := hlaw.2 (fun _ => noon) [] true
    have htargets : targeted [] (trial_shop shop.pools) = [customer] := by decide +kernel
    rw [Session.view_opened, htargets] at hiff
    refine ⟨ds, hiff.mpr ⟨fun _ hstuck => ?_, trivial⟩⟩
    have hpool := hstuck.2
    revert hpool
    decide +kernel

end dr_boz.trial_grants
