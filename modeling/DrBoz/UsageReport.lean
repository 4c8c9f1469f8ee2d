-- The usage report of Open WebUI (`_get_account_usage_internal` of
-- `account.py`), which lets a chat request in or keeps it out, beside the
-- windows of the spender (`spending.py`). The spender reopens both windows
-- when their end has come. The report reopens the short one only.
import DrBoz.TwoChargers

open keyed_table unit_of_work dr_boz.py dr_boz.models dr_boz.codex_capacity dr_boz.toman_billing
open dr_boz.views dr_boz.chat_runs dr_boz.spending dr_boz.two_chargers dr_boz.calls

namespace dr_boz.usage_report

/-! ## The report -/

/-- A user of Open WebUI: the id under which the ERA database knows it, the
name for a new row, and the phone of a user who signed in with one. -/
structure UserModel where
  tracking_id : Int
  name : String
  phone : Option String

structure LimitInfo where
  used : Option Int
  total : Option Int
  remaining : Option Int
  reset_at : Option Datetime
  reached : Bool
deriving DecidableEq

structure UsageReport where
  plan : String
  status : Option String
  expires_at : Option Datetime
  five_hour : LimitInfo
  seven_day : LimitInfo
deriving DecidableEq

/-- The report without the ERA database, and after any exception. -/
def unavailable : UsageReport where
  plan := "free"
  status := some "active"
  expires_at := none
  five_hour := ⟨some 0, some 0, some 0, none, false⟩
  seven_day := ⟨some 0, some 0, some 0, none, false⟩

def limit_info (used total : Int) (reset_at : Option Datetime) : LimitInfo where
  used := some used
  total := some total
  remaining := some (max 0 (total - used))
  reset_at := reset_at
  reached := decide (0 < total) && decide (total ≤ used)

/-- The limits of a user who has written nothing yet. -/
def fresh_info (limit : Option Int) (reset_at : Datetime) : LimitInfo :=
  ⟨some 0, limit, limit, some reset_at, false⟩

def find_era_user (user : UserModel) : Tx (Option UserPreference) := do
  let era_user ← Prog.read fun db =>
    db.users.first fun u => u.telegram_user_id = some user.tracking_id
  match era_user with
  | some era_user => return some era_user
  | none =>
    if truthyKey user.phone then
      Prog.read fun db => db.users.first fun u => u.phone_number = user.phone
    else return none

/-- A user without a row gets one, with the free plan when there is one. -/
def create_era_user (now : Datetime) (user : UserModel) : Tx UsageReport := do
  let free_plan ← Prog.read fun db => db.plans.first fun p => p.plan_type = some "free"
  let era_user_id ← Prog.read fun db => db.users.nextKey
  Prog.flush (.addUser
    { id := 0, telegram_user_id := some user.tracking_id, first_name := some user.name,
      preferred_name := some user.name, phone_number := user.phone,
      account_status := some "active" })
  Prog.flush (.addAccount { user_id := era_user_id, currency := some "IRR" })
  match free_plan with
  | none => pure ()
  | some plan =>
    let expires_at ← Prog.lift (addDelta now (days 36500))
    let cooldown_ends_at ← Prog.lift (addDelta now (hours (cooldown_hours_of free_plan)))
    let week_resets_at ← Prog.lift (addDelta now (days 7))
    Prog.flush (.addSubscription
      { user_id := era_user_id, plan_id := plan.id, purchased_at := some now, expires_at,
        cooldown_ends_at := some cooldown_ends_at, week_resets_at := some week_resets_at })
  Prog.publish
  let cooldown_ends_at ← Prog.lift (addDelta now (hours (cooldown_hours_of free_plan)))
  let week_resets_at ← Prog.lift (addDelta now (days 7))
  return { plan := "free", status := some "active", expires_at := none
           five_hour := fresh_info ((free_plan.map (·.cooldown_limit_toman)).getD (some 0))
             cooldown_ends_at
           seven_day := fresh_info ((free_plan.map (·.weekly_limit_toman)).getD (some 0))
             week_resets_at }

/-- The report of a user with a row. A plan that is gone raises. -/
def report_of (now : Datetime) (found : Option (UserSubscription × Option SubscriptionPlan)) :
    Except PyError UsageReport :=
  match found with
  | none =>
    .ok { plan := "free", status := some "active", expires_at := none
          five_hour := limit_info 0 0 none, seven_day := limit_info 0 0 none }
  | some (_, none) => .error .attribute_error
  | some (sub, some plan) =>
    let cooled := sub.cooldown_ends_at.any (· ≤ now)
    .ok { plan := ((strOr plan.name (some "unknown")).getD "unknown").toLower
          status := sub.status
          expires_at := some sub.expires_at
          five_hour := limit_info (if cooled then 0 else intOr0 sub.cooldown_spent_toman)
            (intOr0 plan.cooldown_limit_toman) (if cooled then none else sub.cooldown_ends_at)
          seven_day := limit_info (intOr0 sub.weekly_spent_toman)
            (intOr0 plan.weekly_limit_toman) sub.week_resets_at }

def account_usage (now : Datetime) (user : UserModel) : Tx UsageReport := do
  let era_user ← find_era_user user
  match era_user with
  | none => create_era_user now user
  | some era_user =>
    let found ← get_active_sub now era_user.id
    Prog.lift (report_of now found)

/-- `_get_account_usage_internal`: any exception ends in the empty report. -/
def get_account_usage_internal (now : Datetime) (era_db_available : Bool) (user : UserModel) :
    Tx UsageReport := do
  if era_db_available = false then return unavailable
  else
  let report ← Prog.attempt (account_usage now user)
  match report with
  | .ok report => return report
  | .error _ => return unavailable

/-! ## What the report says of the week -/

/-- The row of the user in the ERA database: by the tracking id, or by the phone. -/
def eraUser (db : Db) (user : UserModel) : Option UserPreference :=
  match db.users.first fun u => u.telegram_user_id = some user.tracking_id with
  | some era_user => some era_user
  | none =>
    if truthyKey user.phone then db.users.first fun u => u.phone_number = user.phone else none

theorem run_find_era_user (user : UserModel) (s : Session Db) :
    (find_era_user user).run s = (.ok (eraUser s.view user), s) := by
  unfold find_era_user eraUser
  simp only [Prog.run_bind, Prog.run_read, Prog.continueWith_ok]
  cases s.view.users.first fun u => u.telegram_user_id = some user.tracking_id with
  | some u => rfl
  | none =>
    by_cases h : truthyKey user.phone = true
    · simp only [h, if_true]
      rfl
    · simp only [h]
      rfl

/-- The chat gate is told that the weekly limit is reached. -/
def week_reached (now : Datetime) (user : UserModel) (db : Db) : Bool :=
  match ((get_account_usage_internal now true user).run (.opened db)).1 with
  | .ok report => report.seven_day.reached
  | .error _ => false

section
variable {now : Datetime} {user : UserModel} {db : Db} {u : UserPreference}
  {p v : UserSubscription} {plan : SubscriptionPlan}

theorem week_reached_eq (hu : eraUser db user = some u) (hp : latest_active now u.id db = some p)
    (hplan : db.plans.get p.plan_id = some plan) :
    week_reached now user db = (decide (0 < intOr0 plan.weekly_limit_toman) &&
      decide (intOr0 plan.weekly_limit_toman ≤ intOr0 p.weekly_spent_toman)) := by
  have hrun : ∃ r, (account_usage now user).run (.opened db) = (.ok r, .opened db) ∧
      r.seven_day = limit_info (intOr0 p.weekly_spent_toman) (intOr0 plan.weekly_limit_toman)
        p.week_resets_at := by
    unfold account_usage get_active_sub
    simp only [Prog.run_bind, run_find_era_user, Prog.continueWith_ok, Session.opened, hu,
      Prog.run_read, hp, hplan, Prog.run_pure]
    exact ⟨_, rfl, rfl⟩
  obtain ⟨r, hr, hweek⟩ := hrun
  have hok : ((account_usage now user).run (.opened db)).1 ≠ .error (Store.conflict Db) := by
    rw [hr]
    simp
  unfold week_reached get_account_usage_internal
  simp only [Bool.true_eq_false, if_false, Prog.run_bind, Prog.run_attempt hok, hr,
    Prog.continueWith_ok, Prog.run_pure, hweek]
  rfl

/-! ## The report after the spender's reset -/

/-- A map that keeps the measure keeps the place of the maximum. -/
theorem argmax_map {α β : Type} [LinearOrder β] {f : α → β} {g : α → α} {l : List α}
    (h : ∀ a ∈ l, f (g a) = f a) : (l.map g).argmax f = (l.argmax f).map g := by
  induction l with
  | nil => rfl
  | cons a l ih =>
    rw [List.map_cons, List.argmax_cons, List.argmax_cons,
      ih fun b hb => h b (List.mem_cons_of_mem a hb)]
    cases hm : l.argmax f with
    | none => rfl
    | some c =>
      have hc : f (g c) = f c := h c (List.mem_cons_of_mem a (List.argmax_mem hm))
      simp only [Option.map_some, hc, h a List.mem_cons_self]
      split <;> rfl

/-- The row that ends last is still the one that ends last. -/
theorem latest_putSubscription (hp : latest_active now u.id db = some p) (hv : SameTerms v p) :
    latest_active now u.id (putSubscription db v) = some v := by
  have hmem := (List.mem_filter.mp (List.argmax_mem hp)).1
  have hrow : ∀ x ∈ db.subscriptions.rows, x.id = v.id → x = p := fun x hx he =>
    db.subscriptions.key_unique hx hmem (he.trans hv.id)
  have hkeep : ∀ x ∈ db.subscriptions.rows, SameTerms (if x.id = v.id then v else x) x := by
    intro x hx
    split
    · rename_i he
      rw [hrow x hx he]
      exact hv
    · exact .refl x
  have hrows : (putSubscription db v).subscriptions.rows =
      db.subscriptions.rows.map fun x => if x.id = v.id then v else x := by
    refine List.map_congr_left fun x _ => ?_
    change (if x.id = v.id ∧ (none : Option Empty) = none then v else x) = _
    simp
  unfold latest_active at hp ⊢
  rw [hrows, List.filter_map, argmax_map, List.filter_congr (q := fun x =>
    decide (x.user_id = u.id) && active_at now x), hp]
  · simp [hv.id]
  · intro x hx
    have := hkeep x hx
    simp only [Function.comp, this.user_id, this.active_at now]
  · intro x hx
    exact (hkeep x (List.mem_filter.mp hx).1).expires_at

end

/-- At a time when the week is over, the report does not hold the old week's
spending against the user, and it says the same after the reset that the
spender would make now. -/
structure WeekReopens (now : Datetime) (user : UserModel) (db : Db) (p : UserSubscription)
    (plan : SubscriptionPlan) : Prop where
  free : week_reached now user db = false
  agrees : ∀ v, timed now p (some plan) = .ok v →
    week_reached now user db = week_reached now user (putSubscription db v)

/-- LAW: The week of a subscription whose reset time has come is reopened by
the report exactly when it was not used up. -/
theorem the_week_reopens_iff_it_was_not_used_up (now : Datetime) (user : UserModel) (db : Db)
    (u : UserPreference) (p : UserSubscription) (plan : SubscriptionPlan) (t : Datetime)
    (hu : eraUser db user = some u) (hp : latest_active now u.id db = some p)
    (hplan : db.plans.get p.plan_id = some plan) (hend : p.week_resets_at = some t)
    (ht : t ≤ now) :
    WeekReopens now user db p plan ↔
      (intOr0 plan.weekly_limit_toman ≤ 0 ∨
        intOr0 p.weekly_spent_toman < intOr0 plan.weekly_limit_toman) := by
  have hnow := week_reached_eq hu hp hplan
  constructor
  · intro h
    have hopen := h.free
    rw [hnow] at hopen
    by_contra hno
    rw [not_or, not_le, not_lt] at hno
    simp [hno.1, hno.2] at hopen
  · intro h
    have hopen : week_reached now user db = false := by
      rw [hnow]
      rcases h with h | h
      · simp [not_lt.mpr h]
      · simp [not_le.mpr h]
    refine ⟨hopen, fun v hv => ?_⟩
    obtain ⟨hterms, hcount⟩ := (web_window now p (some plan)).2 v hv
    have hover : week_over now p = true := by
      unfold week_over
      simp [hend, ht]
    have hzero : intOr0 v.weekly_spent_toman = 0 := by
      have := congrArg Prod.snd hcount
      simpa [counters, hover] using this
    have hplan' : (putSubscription db v).plans.get v.plan_id = some plan := by
      rw [hterms.plan_id]
      exact hplan
    have hu' : eraUser (putSubscription db v) user = some u := hu
    rw [hopen, week_reached_eq hu' (latest_putSubscription hp hterms) hplan', hzero]
    by_cases hl : 0 < intOr0 plan.weekly_limit_toman
    · simp [not_le.mpr hl]
    · simp [hl]

/-! ## A week that is over -/

/-- The customer has signed in to Open WebUI as well. -/
def web_customer : UserModel := ⟨100, "ali", none⟩

/-- A subscription whose week ended an hour ago, with this much spent. -/
def last_week (spent : Int) : UserSubscription :=
  { subscription_row with id := 1, weekly_spent_toman := some spent
                          week_resets_at := some (noon - hours 1) }

def shop_after (spent : Int) : Db :=
  { shop with subscriptions := Table.empty.insert (last_week spent) }

/-- The week is over, and the user is still refused for what was spent in it. -/
theorem a_used_up_week_stays_closed :
    ¬∀ (now : Datetime) (user : UserModel) (db : Db) (u : UserPreference) (p : UserSubscription)
      (plan : SubscriptionPlan) (t : Datetime), eraUser db user = some u →
      latest_active now u.id db = some p → db.plans.get p.plan_id = some plan →
      p.week_resets_at = some t → t ≤ now → WeekReopens now user db p plan := by
  intro h
  have hfree := (h noon web_customer (shop_after 10000) customer (last_week 10000) tiered_plan
    (noon - hours 1) (by decide +kernel) (by decide +kernel) (by decide +kernel) rfl
    (by decide +kernel)).free
  revert hfree
  decide +kernel

theorem a_week_with_something_left_reopens :
    WeekReopens noon web_customer (shop_after 9999) (last_week 9999) tiered_plan ↔
      (intOr0 tiered_plan.weekly_limit_toman ≤ 0 ∨
        intOr0 (last_week 9999).weekly_spent_toman < intOr0 tiered_plan.weekly_limit_toman) :=
  the_week_reopens_iff_it_was_not_used_up noon web_customer (shop_after 9999) customer
    (last_week 9999) tiered_plan (noon - hours 1) (by decide +kernel) (by decide +kernel)
    (by decide +kernel) rfl (by decide +kernel)

end dr_boz.usage_report
