-- What a chat charge and a permission check do in a session. Both look at
-- the same subscription window, so the window comes first: its resets and
-- its start as pure functions of the subscription row.
import DrBoz.BillingRuns

open keyed_table unit_of_work dr_boz.py dr_boz.models dr_boz.codex_capacity dr_boz.toman_billing
open dr_boz.views dr_boz.billing_runs

namespace dr_boz.chat_runs

/-! ## The window of a subscription -/

/-- The row `v` is `u` with other counters and timers. -/
structure SameTerms (v u : UserSubscription) : Prop where
  id : v.id = u.id
  user_id : v.user_id = u.user_id
  plan_id : v.plan_id = u.plan_id
  pool_id : v.pool_id = u.pool_id
  status : v.status = u.status
  purchased_at : v.purchased_at = u.purchased_at
  expires_at : v.expires_at = u.expires_at

theorem SameTerms.refl (u : UserSubscription) : SameTerms u u := ⟨rfl, rfl, rfl, rfl, rfl, rfl, rfl⟩

theorem SameTerms.trans {u v w : UserSubscription} (h : SameTerms w v) (h' : SameTerms v u) :
    SameTerms w u :=
  ⟨h.1.trans h'.1, h.2.trans h'.2, h.3.trans h'.3, h.4.trans h'.4, h.5.trans h'.5,
    h.6.trans h'.6, h.7.trans h'.7⟩

theorem SameTerms.replaces {u v : UserSubscription} (h : SameTerms v u) : Table.Replaces v u :=
  ⟨h.id, rfl⟩

theorem SameTerms.active_at {u v : UserSubscription} (h : SameTerms v u) (now : Datetime) :
    active_at now v = active_at now u := by
  unfold codex_capacity.active_at
  rw [h.status, h.expires_at]

/-- The row once its week is a current one. -/
def freshWeek (now : Datetime) (u : UserSubscription) : Except PyError UserSubscription :=
  if week_over now u then
    (addDelta now (days 7)).map fun t =>
      { u with weekly_spent_toman := some 0, week_resets_at := some t }
  else .ok u

/-- The row once an expired window is closed. -/
def freshCooldown (now : Datetime) (u : UserSubscription) : UserSubscription :=
  if cooldown_over now u then { u with cooldown_spent_toman := some 0, cooldown_ends_at := none }
  else u

/-- The row once a window is open, when the plan has one. -/
def openWindow (now : Datetime) (u : UserSubscription) (plan : SubscriptionPlan) :
    Except PyError UserSubscription :=
  match u.cooldown_ends_at, plan.cooldown_hours with
  | some _, _ => .ok u
  | none, none => .error .type_error
  | none, some hrs =>
    if 0 < hrs then
      (addDelta now (hours hrs)).map fun t =>
        { u with cooldown_ends_at := some t, cooldown_spent_toman := some 0 }
    else .ok u

/-- The row with a cost on both counters. -/
def chargedWindow (u : UserSubscription) (cost : Int) : UserSubscription :=
  { u with
    cooldown_spent_toman := some (intOr0 u.cooldown_spent_toman + cost)
    weekly_spent_toman := some (intOr0 u.weekly_spent_toman + cost) }

theorem freshWeek_terms {now : Datetime} {u v : UserSubscription} (h : freshWeek now u = .ok v) :
    SameTerms v u := by
  unfold freshWeek at h
  split at h
  · cases ha : addDelta now (days 7) with
    | error e => rw [ha] at h; cases h
    | ok t => rw [ha] at h; cases h; exact ⟨rfl, rfl, rfl, rfl, rfl, rfl, rfl⟩
  · cases h; exact .refl u

theorem freshCooldown_terms (now : Datetime) (u : UserSubscription) :
    SameTerms (freshCooldown now u) u := by
  unfold freshCooldown
  split
  · exact ⟨rfl, rfl, rfl, rfl, rfl, rfl, rfl⟩
  · exact .refl u

theorem openWindow_terms {now : Datetime} {u v : UserSubscription} {plan : SubscriptionPlan}
    (h : openWindow now u plan = .ok v) : SameTerms v u := by
  unfold openWindow at h
  split at h
  · cases h; exact .refl u
  · cases h
  · rename_i hrs _ _
    split at h
    · cases ha : addDelta now (hours hrs) with
      | error e => rw [ha] at h; cases h
      | ok t => rw [ha] at h; cases h; exact ⟨rfl, rfl, rfl, rfl, rfl, rfl, rfl⟩
    · cases h; exact .refl u

theorem chargedWindow_terms (u : UserSubscription) (cost : Int) :
    SameTerms (chargedWindow u cost) u := ⟨rfl, rfl, rfl, rfl, rfl, rfl, rfl⟩

/-! ## The window in a session -/

section
variable {now : Datetime} {u v : UserSubscription} {s : Session Db}

theorem run_flush_terms (h : s.view.subscriptions.get u.id = some u) (ht : SameTerms v u) :
    (Prog.flush (.setSubscription u v) : Tx Unit).run s =
      (.ok (), ⟨s.stored, putSubscription s.view v⟩) :=
  run_flush_subscription h ⟨ht.id, ht.user_id, ht.plan_id, ht.purchased_at⟩

theorem get_putSubscription {db : Db} (h : db.subscriptions.get u.id = some u)
    (ht : SameTerms v u) : (putSubscription db v).subscriptions.get v.id = some v :=
  Table.get_put_self h ht.replaces

theorem putSubscription_self {db : Db} (h : db.subscriptions.get u.id = some u) :
    putSubscription db u = db := by
  unfold putSubscription
  rw [Table.put_self h]

theorem putSubscription_put (db : Db) (ht : SameTerms v u) :
    putSubscription (putSubscription db u) v = putSubscription db v := by
  unfold putSubscription
  rw [Table.put_put ht.replaces]

/-- The reset of the week either puts the fresh row, or raises at the end of
time with the counter zeroed. -/
theorem run_reset_week (now : Datetime) (h : s.view.subscriptions.get u.id = some u) :
    (∃ v, freshWeek now u = .ok v ∧
      (reset_week now u).run s = (.ok v, ⟨s.stored, putSubscription s.view v⟩)) ∨
    (∃ e v, freshWeek now u = .error e ∧ SameTerms v u ∧
      (reset_week now u).run s = (.error e, ⟨s.stored, putSubscription s.view v⟩)) := by
  unfold reset_week freshWeek
  split
  · have ht : SameTerms { u with weekly_spent_toman := some 0 } u :=
      ⟨rfl, rfl, rfl, rfl, rfl, rfl, rfl⟩
    simp only [Prog.run_bind, run_flush_terms h ht, Prog.continueWith_ok, run_lift]
    cases addDelta now (days 7) with
    | error e => exact .inr ⟨e, _, rfl, ht, rfl⟩
    | ok t =>
      have ht' : SameTerms { u with weekly_spent_toman := some 0, week_resets_at := some t }
          { u with weekly_spent_toman := some 0 } := ⟨rfl, rfl, rfl, rfl, rfl, rfl, rfl⟩
      refine .inl ⟨_, rfl, ?_⟩
      have hs := run_flush_terms
        (s := ⟨s.stored, putSubscription s.view { u with weekly_spent_toman := some 0 }⟩)
        (get_putSubscription h ht) ht'
      simp only [Prog.continueWith_ok, Prog.run_bind, hs, putSubscription_put _ ht', Prog.run_pure]
  · exact .inl ⟨u, rfl, by rw [Prog.run_pure, putSubscription_self h]⟩

theorem run_reset_cooldown (now : Datetime) (s : Session Db)
    (h : s.view.subscriptions.get u.id = some u) :
    (reset_cooldown now u).run s =
      (.ok (freshCooldown now u), ⟨s.stored, putSubscription s.view (freshCooldown now u)⟩) := by
  unfold reset_cooldown freshCooldown
  split
  · have ht : SameTerms { u with cooldown_spent_toman := some 0, cooldown_ends_at := none } u :=
      ⟨rfl, rfl, rfl, rfl, rfl, rfl, rfl⟩
    simp only [Prog.run_bind, run_flush_terms h ht, Prog.continueWith_ok, Prog.run_pure]
  · rw [Prog.run_pure, putSubscription_self h]

theorem run_start_window (now : Datetime) (plan : SubscriptionPlan)
    (h : s.view.subscriptions.get u.id = some u) :
    (∃ v, openWindow now u plan = .ok v ∧
      (start_window now u plan).run s = (.ok v, ⟨s.stored, putSubscription s.view v⟩)) ∨
    (∃ e, openWindow now u plan = .error e ∧ (start_window now u plan).run s = (.error e, s)) := by
  unfold start_window openWindow
  cases u.cooldown_ends_at with
  | some t => exact .inl ⟨u, rfl, by rw [Prog.run_pure, putSubscription_self h]⟩
  | none =>
    cases plan.cooldown_hours with
    | none => exact .inr ⟨_, rfl, rfl⟩
    | some hrs =>
      simp only
      split
      · simp only [Prog.run_bind, run_lift]
        cases addDelta now (hours hrs) with
        | error e => exact .inr ⟨e, rfl, rfl⟩
        | ok t =>
          have ht : SameTerms { u with cooldown_ends_at := some t, cooldown_spent_toman := some 0 }
              u := ⟨rfl, rfl, rfl, rfl, rfl, rfl, rfl⟩
          exact .inl ⟨_, rfl, by
            simp only [Prog.continueWith_ok, Prog.run_bind, run_flush_terms h ht, Prog.run_pure]⟩
      · exact .inl ⟨u, rfl, by rw [Prog.run_pure, putSubscription_self h]⟩

end

/-! ## The subscription of a call -/

/-- What `tiered_subscription` finds. -/
def subscriptionOf (now : Datetime) (db : Db) (u : Nat) :
    Except PyError (Option UserSubscription × Option SubscriptionPlan) :=
  match activeRow now db u with
  | none => .ok (none, none)
  | some r =>
    match db.plans.get r.plan_id with
    | none => .error .attribute_error
    | some plan =>
      .ok (some r, if plan.plan_type = some "tiered_cooldown" then some plan else none)

theorem run_tiered_subscription (now : Datetime) (user : UserPreference) (s : Session Db) :
    (tiered_subscription now user).run s = (subscriptionOf now s.view user.id, s) := by
  unfold tiered_subscription subscriptionOf activeRow
  simp only [Prog.run_bind, Prog.run_read, Prog.continueWith_ok]
  cases s.view.subscriptions.first fun u => u.user_id = user.id && active_at now u with
  | none => rfl
  | some r =>
    simp only [Prog.run_bind, Prog.run_read, Prog.continueWith_ok]
    cases s.view.plans.get r.plan_id <;> rfl

theorem get_activeRow {now : Datetime} {db : Db} {u : Nat} {r : UserSubscription}
    (h : activeRow now db u = some r) : db.subscriptions.get r.id = some r :=
  (Table.get_eq_some _).mpr ⟨(Table.first_mem h).1, rfl⟩

theorem subscriptionOf_row {now : Datetime} {db : Db} {u : Nat} {r : UserSubscription}
    {p : Option SubscriptionPlan} (h : subscriptionOf now db u = .ok (some r, p)) :
    activeRow now db u = some r := by
  unfold subscriptionOf at h
  cases ha : activeRow now db u with
  | none => rw [ha] at h; cases h
  | some r' =>
    rw [ha] at h
    simp only at h
    cases hp : db.plans.get r'.plan_id with
    | none => rw [hp] at h; cases h
    | some plan => rw [hp] at h; cases h; rfl

/-- A plan comes with its subscription. -/
theorem subscriptionOf_some {now : Datetime} {db : Db} {u : Nat} {r : Option UserSubscription}
    {p : SubscriptionPlan} (h : subscriptionOf now db u = .ok (r, some p)) : ∃ v, r = some v := by
  unfold subscriptionOf at h
  split at h
  · cases h
  · split at h
    · cases h
    · simp only [Except.ok.injEq, Prod.mk.injEq] at h
      exact ⟨_, h.1.symm⟩

@[simp] theorem subscriptionOf_withAccount (now : Datetime) (db : Db) (u w : Nat) :
    subscriptionOf now (withAccount db w) u = subscriptionOf now db u := rfl

@[simp] theorem subscriptionOf_withConfig (now : Datetime) (db : Db) (u : Nat) :
    subscriptionOf now (withConfig db) u = subscriptionOf now db u := rfl

/-! ## Chat charges -/

/-- The arguments of `charge_chat_usage_toman`. -/
structure ChatCall where
  user : UserPreference
  model : Model
  input_tokens : Int
  output_tokens : Int
  usage_event_id : Option Nat
  idempotency_key : Option String
  metadata : Dict
  commit : Bool

def ChatCall.prog (now : Datetime) (c : ChatCall) : Tx ChatUsageChargeResult :=
  charge_chat_usage_toman now c.user c.model c.input_tokens c.output_tokens c.usage_event_id
    c.idempotency_key c.metadata c.commit

def ChatCall.quote (c : ChatCall) (db : Db) : Except PyError ChatUsageQuote :=
  chat_quote (configRow db) c.model c.input_tokens c.output_tokens

/-- The database of a call that has looked for its account and its config. -/
def prepared (db : Db) (u : Nat) : Db := withConfig (withAccount db u)

@[simp] theorem prepared_subscriptions (db : Db) (u : Nat) :
    (prepared db u).subscriptions = db.subscriptions := rfl

@[simp] theorem prepared_ledger (db : Db) (u : Nat) : (prepared db u).ledger = db.ledger := rfl

theorem get_prepared (db : Db) (u : Nat) :
    (prepared db u).accounts.get (accountRow db u).id = some (accountRow db u) :=
  get_accountRow db u

/-- The subscription window covers a charge: it is a tiered one, and neither
its weekly limit nor its cooldown limit is used up. -/
structure Covers (now : Datetime) (db : Db) (u : Nat) (w : UserSubscription)
    (plan : SubscriptionPlan) : Prop where
  found : ∃ r, subscriptionOf now db u = .ok (some r, some plan) ∧ freshWeek now r = .ok w
  weekly : weekly_limit_hit w plan = .ok false
  cooldown : in_cooldown now w plan = .ok false

/-- The balances have to pay, and the subscription table is `t` when they do:
there is no tiered subscription, or one of its limits is used up. -/
inductive LeftToBalances (now : Datetime) (db : Db) (u : Nat) : Db → Prop where
  | plain (r : Option UserSubscription) (h : subscriptionOf now db u = .ok (r, none)) :
      LeftToBalances now db u (prepared db u)
  | limited (r w : UserSubscription) (plan : SubscriptionPlan) (hit cooling : Bool)
      (h : subscriptionOf now db u = .ok (some r, some plan)) (hw : freshWeek now r = .ok w)
      (hl : weekly_limit_hit w plan = .ok hit) (hc : in_cooldown now w plan = .ok cooling)
      (hb : (hit || cooling) = true) :
      LeftToBalances now db u (putSubscription (prepared db u) w)

theorem LeftToBalances.users {now : Datetime} {db db' : Db} {u : Nat}
    (h : LeftToBalances now db u db') : db'.users = db.users := by
  cases h with
  | plain r h => rfl
  | limited r w plan hit cooling h hw hl hc hb => rfl

/-- A tiered subscription on which the tests of the window raise. -/
inductive WindowRaises (now : Datetime) (db : Db) (u : Nat) : PyError → Prop where
  | week (r : UserSubscription) (plan : SubscriptionPlan) (e : PyError)
      (h : subscriptionOf now db u = .ok (some r, some plan)) (hw : freshWeek now r = .error e) :
      WindowRaises now db u e
  | weekly (r w : UserSubscription) (plan : SubscriptionPlan) (e : PyError)
      (h : subscriptionOf now db u = .ok (some r, some plan)) (hw : freshWeek now r = .ok w)
      (hl : weekly_limit_hit w plan = .error e) : WindowRaises now db u e
  | cooldown (r w : UserSubscription) (plan : SubscriptionPlan) (hit : Bool) (e : PyError)
      (h : subscriptionOf now db u = .ok (some r, some plan)) (hw : freshWeek now r = .ok w)
      (hl : weekly_limit_hit w plan = .ok hit) (hc : in_cooldown now w plan = .error e) :
      WindowRaises now db u e

/-- A charge is covered by one row and one plan. -/
theorem Covers.unique {now : Datetime} {db : Db} {u : Nat} {w w' : UserSubscription}
    {plan plan' : SubscriptionPlan} (h : Covers now db u w plan) (h' : Covers now db u w' plan') :
    w = w' ∧ plan = plan' := by
  obtain ⟨r, hf, hw⟩ := h.found
  obtain ⟨r', hf', hw'⟩ := h'.found
  rw [hf] at hf'
  cases hf'
  rw [hw] at hw'
  cases hw'
  exact ⟨rfl, rfl⟩

/-- The three ways to fund a charge exclude each other. -/
theorem Covers.not_left {now : Datetime} {db db' : Db} {u : Nat} {w : UserSubscription}
    {plan : SubscriptionPlan} (h : Covers now db u w plan) : ¬LeftToBalances now db u db' := by
  obtain ⟨r, hf, hw⟩ := h.found
  intro hb
  cases hb with
  | plain r' h' =>
    rw [hf] at h'
    cases h'
  | limited r' w' plan' hit cooling h' hw' hl hc hb =>
    rw [hf] at h'
    cases h'
    rw [hw] at hw'
    cases hw'
    rw [h.weekly] at hl
    rw [h.cooldown] at hc
    cases hl
    cases hc
    cases hb

theorem Covers.not_raises {now : Datetime} {db : Db} {u : Nat} {w : UserSubscription}
    {plan : SubscriptionPlan} {e : PyError} (h : Covers now db u w plan) :
    ¬WindowRaises now db u e := by
  obtain ⟨r, hf, hw⟩ := h.found
  intro hb
  cases hb with
  | week r' plan' e h' hw' =>
    rw [hf] at h'
    cases h'
    rw [hw] at hw'
    cases hw'
  | weekly r' w' plan' e h' hw' hl =>
    rw [hf] at h'
    cases h'
    rw [hw] at hw'
    cases hw'
    rw [h.weekly] at hl
    cases hl
  | cooldown r' w' plan' hit e h' hw' hl hc =>
    rw [hf] at h'
    cases h'
    rw [hw] at hw'
    cases hw'
    rw [h.cooldown] at hc
    cases hc

/-- How a chat charge ends. -/
inductive ChatRun (now : Datetime) (c : ChatCall) (s : Session Db) :
    Except PyError ChatUsageChargeResult → Session Db → Prop where
  | quote_raised (e : PyError) (hq : c.quote s.view = .error e) :
      ChatRun now c s (.error e) ⟨s.stored, prepared s.view c.user.id⟩
  | replay (q : ChatUsageQuote) (e : TomanLedgerEntry) (r : ChatUsageChargeResult)
      (hq : c.quote s.view = .ok q) (hk : ledgerRow s.view c.idempotency_key = some e)
      (hr : r.ok = true) :
      ChatRun now c s (.ok r) ⟨s.stored, prepared s.view c.user.id⟩
  | free (q : ChatUsageQuote) (r : ChatUsageChargeResult) (hq : c.quote s.view = .ok q)
      (hk : ledgerRow s.view c.idempotency_key = none) (hle : q.billable_cost_toman ≤ 0)
      (hr : r.ok = true) :
      ChatRun now c s (.ok r) ⟨s.stored, prepared s.view c.user.id⟩
  | no_plan (q : ChatUsageQuote) (e : PyError) (hq : c.quote s.view = .ok q)
      (hk : ledgerRow s.view c.idempotency_key = none) (hpos : 0 < q.billable_cost_toman)
      (h : subscriptionOf now s.view c.user.id = .error e) :
      ChatRun now c s (.error e) ⟨s.stored, prepared s.view c.user.id⟩
  | window_raised (q : ChatUsageQuote) (r v : UserSubscription) (e : PyError)
      (hq : c.quote s.view = .ok q) (hk : ledgerRow s.view c.idempotency_key = none)
      (hpos : 0 < q.billable_cost_toman) (ha : activeRow now s.view c.user.id = some r)
      (hv : SameTerms v r) (hw : WindowRaises now s.view c.user.id e) :
      ChatRun now c s (.error e) ⟨s.stored, putSubscription (prepared s.view c.user.id) v⟩
  | start_raised (q : ChatUsageQuote) (w : UserSubscription) (plan : SubscriptionPlan)
      (e : PyError) (hq : c.quote s.view = .ok q)
      (hk : ledgerRow s.view c.idempotency_key = none) (hpos : 0 < q.billable_cost_toman)
      (hc : Covers now s.view c.user.id w plan)
      (he : openWindow now (freshCooldown now w) plan = .error e) :
      ChatRun now c s (.error e) ⟨s.stored,
        putSubscription (prepared s.view c.user.id) (freshCooldown now w)⟩
  | covered (q : ChatUsageQuote) (w v : UserSubscription) (plan : SubscriptionPlan)
      (r : ChatUsageChargeResult) (hq : c.quote s.view = .ok q)
      (hk : ledgerRow s.view c.idempotency_key = none) (hpos : 0 < q.billable_cost_toman)
      (hc : Covers now s.view c.user.id w plan)
      (hv : openWindow now (freshCooldown now w) plan = .ok v) (hr : r.ok = true) :
      ChatRun now c s (.ok r) (Session.commitIf c.commit ⟨s.stored,
        putSubscription (prepared s.view c.user.id) (chargedWindow v q.billable_cost_toman)⟩)
  | refused (q : ChatUsageQuote) (db : Db) (r : ChatUsageChargeResult)
      (hq : c.quote s.view = .ok q) (hk : ledgerRow s.view c.idempotency_key = none)
      (hpos : 0 < q.billable_cost_toman) (hb : LeftToBalances now s.view c.user.id db)
      (hlt : available (accountRow s.view c.user.id) < q.billable_cost_toman)
      (hr : r.ok = false) : ChatRun now c s (.ok r) ⟨s.stored, db⟩
  | paid (q : ChatUsageQuote) (db : Db) (e : TomanLedgerEntry) (r : ChatUsageChargeResult)
      (hq : c.quote s.view = .ok q) (hk : ledgerRow s.view c.idempotency_key = none)
      (hpos : 0 < q.billable_cost_toman) (hb : LeftToBalances now s.view c.user.id db)
      (hle : q.billable_cost_toman ≤ available (accountRow s.view c.user.id))
      (he : ChargeEntry (accountRow s.view c.user.id) q.billable_cost_toman c.idempotency_key e)
      (ha : s.view.ledger.Accepts e) (hr : r.ok = true) :
      ChatRun now c s (.ok r) (Session.commitIf c.commit ⟨s.stored,
        post db (spent_gift_first (accountRow s.view c.user.id) q.billable_cost_toman) [e]⟩)
  | conflict (q : ChatUsageQuote) (db : Db) (e : TomanLedgerEntry) (hq : c.quote s.view = .ok q)
      (hk : ledgerRow s.view c.idempotency_key = none)
      (hpos : 0 < q.billable_cost_toman) (hb : LeftToBalances now s.view c.user.id db)
      (hle : q.billable_cost_toman ≤ available (accountRow s.view c.user.id))
      (hkey : e.idempotency_key = c.idempotency_key) (ha : ¬s.view.ledger.Accepts e) :
      ChatRun now c s (.error .integrity_error) s.rollback

/-- The two facts about the database that the balances branch needs. -/
theorem LeftToBalances.frame {now : Datetime} {db db' : Db} {u : Nat}
    (h : LeftToBalances now db u db') :
    db'.accounts = (withAccount db u).accounts ∧ db'.ledger = db.ledger := by
  cases h <;> exact ⟨rfl, rfl⟩

theorem chatRun_balances {now : Datetime} {c : ChatCall} {s : Session Db} {q : ChatUsageQuote}
    {db : Db} {sub : Option UserSubscription} {plan : Option SubscriptionPlan}
    (hq : c.quote s.view = .ok q) (hk : ledgerRow s.view c.idempotency_key = none)
    (hpos : 0 < q.billable_cost_toman) (hb : LeftToBalances now s.view c.user.id db)
    (hr : ∃ t, refusal_reason now sub plan = .ok t) :
    let x := (charge_balances now c.user (accountRow s.view c.user.id) q sub plan
      c.usage_event_id c.idempotency_key c.metadata c.commit).run ⟨s.stored, db⟩
    ChatRun now c s x.1 x.2 := by
  obtain ⟨t, ht⟩ := hr
  obtain ⟨hacc, hled⟩ := hb.frame
  simp only [charge_balances]
  split
  · rename_i hlt
    simp only [Prog.run_bind, ht, Prog.run_lift_ok, Prog.continueWith_ok, Prog.run_pure]
    exact .refused q db _ hq hk hpos hb hlt rfl
  · rename_i hlt
    have hget : db.accounts.get (accountRow s.view c.user.id).id =
        some (accountRow s.view c.user.id) := by
      rw [hacc]; exact get_accountRow _ _
    have hf := run_flush_account (s := ⟨s.stored, db⟩) hget
      (owner_spent_gift_first _ q.billable_cost_toman)
    have hl : (putAccount db (spent_gift_first (accountRow s.view c.user.id)
        q.billable_cost_toman)).ledger = s.view.ledger := hled
    rw [Prog.run_bind, hf, Prog.continueWith_ok, Prog.run_bind, run_add_ledger]
    simp only [hl]
    split
    · rename_i ha
      rw [Prog.continueWith_ok, Prog.run_bind, Prog.run_publishIf]
      exact .paid q db _ _ hq hk hpos hb (by omega) ⟨rfl, rfl, rfl, rfl⟩ ha rfl
    · rename_i ha
      exact .conflict q db _ hq hk hpos hb (by omega) rfl ha

theorem refusal_reason_ok (now : Datetime) (sub : Option UserSubscription)
    (plan : Option SubscriptionPlan)
    (h : ∀ u p, sub = some u → plan = some p → ∃ hit, weekly_limit_hit u p = .ok hit) :
    ∃ t, refusal_reason now sub plan = .ok t := by
  unfold refusal_reason
  split
  · rename_i u p
    split
    · exact ⟨_, rfl⟩
    · obtain ⟨hit, hh⟩ := h u p rfl rfl
      rw [hh]
      exact ⟨_, rfl⟩
  · exact ⟨_, rfl⟩

/-! ### The ways through a charge -/

/-- The answer of a charge that the window `v` covers. -/
def covered_answer (account : UserBillingAccount) (q : ChatUsageQuote) (v : UserSubscription) :
    ChatUsageChargeResult :=
  { ok := true, account, user_sub := some (chargedWindow v q.billable_cost_toman)
    metadata := some (Dict.merge
      [("tiered_covered", Scalar.bool true), ("cost", Scalar.int q.billable_cost_toman),
       ("reason", Scalar.str "tiered_subscription")]
      (q.pricing_snapshot.map fun p => (p.1, Json.scalar p.2))) }

section
variable {now : Datetime} {c : ChatCall} {s : Session Db} {q : ChatUsageQuote}
variable {r w v : UserSubscription} {plan : SubscriptionPlan}

theorem run_charge_window (account : UserBillingAccount) (commit : Bool)
    (hget : s.view.subscriptions.get w.id = some w)
    (hv : openWindow now (freshCooldown now w) plan = .ok v) :
    (charge_window now account q w plan commit).run s = (.ok (covered_answer account q v),
      Session.commitIf commit
        ⟨s.stored, putSubscription s.view (chargedWindow v q.billable_cost_toman)⟩) := by
  have htc := freshCooldown_terms now w
  have hgc := get_putSubscription hget htc
  simp only [charge_window, Prog.run_bind]
  rw [run_reset_cooldown now s hget, Prog.continueWith_ok, Prog.run_bind]
  rcases run_start_window now plan
      (s := ⟨s.stored, putSubscription s.view (freshCooldown now w)⟩) hgc with
    ⟨v', hv', hrun⟩ | ⟨e, he, hrun⟩
  · rw [hv] at hv'
    cases hv'
    have hgv := get_putSubscription hgc (openWindow_terms hv)
    rw [putSubscription_put _ (openWindow_terms hv)] at hgv
    rw [hrun, putSubscription_put _ (openWindow_terms hv), Prog.continueWith_ok, Prog.run_bind]
    have hput := run_flush_terms (s := ⟨s.stored, putSubscription s.view v⟩) hgv
      (chargedWindow_terms v q.billable_cost_toman)
    rw [putSubscription_put _ (chargedWindow_terms v _)] at hput
    simp only [chargedWindow] at hput
    rw [hput, Prog.continueWith_ok, Prog.run_bind, Prog.run_publishIf]
    rfl
  · rw [hv] at he
    cases he

theorem run_charge_window_error (account : UserBillingAccount) (commit : Bool) {e : PyError}
    (hget : s.view.subscriptions.get w.id = some w)
    (he : openWindow now (freshCooldown now w) plan = .error e) :
    (charge_window now account q w plan commit).run s =
      (.error e, ⟨s.stored, putSubscription s.view (freshCooldown now w)⟩) := by
  simp only [charge_window, Prog.run_bind]
  rw [run_reset_cooldown now s hget, Prog.continueWith_ok, Prog.run_bind]
  rcases run_start_window now plan
      (s := ⟨s.stored, putSubscription s.view (freshCooldown now w)⟩)
      (get_putSubscription hget (freshCooldown_terms now w)) with
    ⟨v, hv, hrun⟩ | ⟨e', he', hrun⟩
  · rw [he] at hv
    cases hv
  · rw [he] at he'
    cases he'
    rw [hrun, Prog.continueWith_error]

theorem run_charge_replay {e : TomanLedgerEntry} (hq : c.quote s.view = .ok q)
    (hk : ledgerRow s.view c.idempotency_key = some e) :
    (c.prog now).run s =
      (.ok { ok := true, account := accountRow s.view c.user.id, ledger_entry := some e
             reason := some "idempotent" }, ⟨s.stored, prepared s.view c.user.id⟩) := by
  unfold ChatCall.prog charge_chat_usage_toman
  simp only [ChatCall.quote] at hq
  simp only [Prog.run_bind, run_get_or_create_billing_account, Prog.continueWith_ok,
    run_existing_ledger, ledgerRow_withAccount, run_quote_chat_usage_toman, configRow_withAccount,
    hq, hk]
  rfl

theorem run_charge_free (hq : c.quote s.view = .ok q)
    (hk : ledgerRow s.view c.idempotency_key = none) (hle : q.billable_cost_toman ≤ 0) :
    (c.prog now).run s =
      (.ok { ok := true, account := accountRow s.view c.user.id
             metadata := some (q.pricing_snapshot.map fun p => (p.1, Json.scalar p.2)) },
        ⟨s.stored, prepared s.view c.user.id⟩) := by
  unfold ChatCall.prog charge_chat_usage_toman
  simp only [ChatCall.quote] at hq
  simp only [Prog.run_bind, run_get_or_create_billing_account, Prog.continueWith_ok,
    run_existing_ledger, ledgerRow_withAccount, run_quote_chat_usage_toman, configRow_withAccount,
    hq, hk, if_pos hle]
  rfl

/-- Without a tiered plan the balances pay. -/
theorem run_charge_plain {r : Option UserSubscription} (hq : c.quote s.view = .ok q)
    (hk : ledgerRow s.view c.idempotency_key = none) (hpos : 0 < q.billable_cost_toman)
    (hsub : subscriptionOf now s.view c.user.id = .ok (r, none)) :
    (c.prog now).run s =
      (charge_balances now c.user (accountRow s.view c.user.id) q r none c.usage_event_id
        c.idempotency_key c.metadata c.commit).run ⟨s.stored, prepared s.view c.user.id⟩ := by
  unfold ChatCall.prog charge_chat_usage_toman
  simp only [ChatCall.quote] at hq
  simp only [Prog.run_bind, run_get_or_create_billing_account, Prog.continueWith_ok,
    run_existing_ledger, ledgerRow_withAccount, run_quote_chat_usage_toman, configRow_withAccount,
    hq, hk, if_neg (not_le.mpr hpos), run_tiered_subscription, subscriptionOf_withConfig,
    subscriptionOf_withAccount, hsub]
  cases r <;> rfl

/-- The week of the row of the user is reset behind the first reads. -/
theorem run_reset_week_prepared {user_id : Nat}
    (hsub : subscriptionOf now s.view user_id = .ok (some r, some plan))
    (hw : freshWeek now r = .ok w) :
    (reset_week now r).run ⟨s.stored, prepared s.view user_id⟩ =
      (.ok w, ⟨s.stored, putSubscription (prepared s.view user_id) w⟩) := by
  have hr : (prepared s.view user_id).subscriptions.get r.id = some r :=
    get_activeRow (subscriptionOf_row hsub)
  rcases run_reset_week now (s := ⟨s.stored, prepared s.view user_id⟩) hr with
    ⟨w', hw', hrun⟩ | ⟨e, v, he, hv, hrun⟩
  · rw [hw] at hw'
    cases hw'
    exact hrun
  · rw [hw] at he
    cases he

/-- On a tiered plan the limits choose between the window and the balances. -/
theorem run_charge_tiered {hit cooling : Bool} (hq : c.quote s.view = .ok q)
    (hk : ledgerRow s.view c.idempotency_key = none) (hpos : 0 < q.billable_cost_toman)
    (hsub : subscriptionOf now s.view c.user.id = .ok (some r, some plan))
    (hw : freshWeek now r = .ok w) (hl : weekly_limit_hit w plan = .ok hit)
    (hc : in_cooldown now w plan = .ok cooling) :
    (c.prog now).run s =
      (if !hit && !cooling then
        charge_window now (accountRow s.view c.user.id) q w plan c.commit
      else
        charge_balances now c.user (accountRow s.view c.user.id) q (some w) (some plan)
          c.usage_event_id c.idempotency_key c.metadata c.commit).run
        ⟨s.stored, putSubscription (prepared s.view c.user.id) w⟩ := by
  have hweek := run_reset_week_prepared (s := s) hsub hw
  unfold ChatCall.prog charge_chat_usage_toman
  simp only [ChatCall.quote] at hq
  simp only [prepared] at hweek
  simp only [Prog.run_bind, run_get_or_create_billing_account, Prog.continueWith_ok,
    run_existing_ledger, ledgerRow_withAccount, run_quote_chat_usage_toman, configRow_withAccount,
    hq, hk, if_neg (not_le.mpr hpos), run_tiered_subscription, subscriptionOf_withConfig,
    subscriptionOf_withAccount, hsub, hweek, hl, hc, run_lift]
  rfl

theorem run_charge_covered (hq : c.quote s.view = .ok q)
    (hk : ledgerRow s.view c.idempotency_key = none) (hpos : 0 < q.billable_cost_toman)
    (hc : Covers now s.view c.user.id w plan)
    (hv : openWindow now (freshCooldown now w) plan = .ok v) :
    (c.prog now).run s = (.ok (covered_answer (accountRow s.view c.user.id) q v),
      Session.commitIf c.commit ⟨s.stored,
        putSubscription (prepared s.view c.user.id) (chargedWindow v q.billable_cost_toman)⟩) := by
  obtain ⟨r, hsub, hw⟩ := hc.found
  have hgw : (putSubscription (prepared s.view c.user.id) w).subscriptions.get w.id = some w :=
    get_putSubscription (get_activeRow (subscriptionOf_row hsub)) (freshWeek_terms hw)
  have hrun := run_charge_tiered hq hk hpos hsub hw hc.weekly hc.cooldown
  simp only [Bool.not_false, Bool.and_self, if_true] at hrun
  rw [hrun, run_charge_window _ _ hgw hv,
    putSubscription_put _ ((chargedWindow_terms v q.billable_cost_toman).trans
      ((openWindow_terms hv).trans (freshCooldown_terms now w)))]

end

theorem chatRun_window {now : Datetime} {c : ChatCall} {s : Session Db} {q : ChatUsageQuote}
    {w : UserSubscription} {plan : SubscriptionPlan}
    (hq : c.quote s.view = .ok q) (hk : ledgerRow s.view c.idempotency_key = none)
    (hpos : 0 < q.billable_cost_toman) (hc : Covers now s.view c.user.id w plan) :
    let x := (charge_window now (accountRow s.view c.user.id) q w plan c.commit).run
      ⟨s.stored, putSubscription (prepared s.view c.user.id) w⟩
    ChatRun now c s x.1 x.2 := by
  obtain ⟨r, hf, hw⟩ := hc.found
  have hr : (prepared s.view c.user.id).subscriptions.get r.id = some r :=
    get_activeRow (subscriptionOf_row hf)
  have hgw := get_putSubscription hr (freshWeek_terms hw)
  cases hopen : openWindow now (freshCooldown now w) plan with
  | ok v =>
    rw [run_charge_window _ _ hgw hopen,
      putSubscription_put _ ((chargedWindow_terms v q.billable_cost_toman).trans
        ((openWindow_terms hopen).trans (freshCooldown_terms now w)))]
    exact .covered q w v plan _ hq hk hpos hc hopen rfl
  | error e =>
    rw [run_charge_window_error _ _ hgw hopen, putSubscription_put _ (freshCooldown_terms now w)]
    exact .start_raised q w plan e hq hk hpos hc hopen

theorem chatRun (now : Datetime) (c : ChatCall) (s : Session Db) :
    ChatRun now c s ((c.prog now).run s).1 ((c.prog now).run s).2 := by
  unfold ChatCall.prog charge_chat_usage_toman
  simp only [Prog.run_bind, run_get_or_create_billing_account, Prog.continueWith_ok,
    run_existing_ledger, ledgerRow_withAccount, run_quote_chat_usage_toman, configRow_withAccount]
  cases hq : c.quote s.view with
  | error e =>
    simp only [ChatCall.quote] at hq
    rw [hq]
    exact .quote_raised e hq
  | ok q =>
    have hq' := hq
    simp only [ChatCall.quote] at hq'
    rw [hq', Prog.continueWith_ok]
    cases hk : ledgerRow s.view c.idempotency_key with
    | some e => exact .replay q e _ hq hk rfl
    | none =>
      simp only
      split
      · rename_i hle
        exact .free q _ hq hk hle rfl
      · rename_i hle
        have hpos : 0 < q.billable_cost_toman := by omega
        simp only [Prog.run_bind, run_tiered_subscription, subscriptionOf_withConfig,
          subscriptionOf_withAccount]
        cases hsub : subscriptionOf now s.view c.user.id with
        | error e => exact .no_plan q e hq hk hpos hsub
        | ok found =>
          obtain ⟨sub, plan⟩ := found
          simp only [Prog.continueWith_ok]
          cases plan with
          | none =>
            have hx := chatRun_balances hq hk hpos (.plain sub hsub)
              (refusal_reason_ok now sub none fun u p _ h => by cases h)
            cases sub <;> exact hx
          | some plan =>
            obtain ⟨r, rfl⟩ := subscriptionOf_some hsub
            have hrow := subscriptionOf_row hsub
            have hr : (prepared s.view c.user.id).subscriptions.get r.id = some r :=
              get_activeRow hrow
            simp only [Prog.run_bind]
            rcases run_reset_week now
                (s := ⟨s.stored, prepared s.view c.user.id⟩) hr with
              ⟨w, hw, hrun⟩ | ⟨e, v, he, hv, hrun⟩
            · simp only [prepared] at hrun
              rw [hrun]
              simp only [Prog.continueWith_ok, Prog.run_bind, run_lift]
              cases hl : weekly_limit_hit w plan with
              | error e =>
                exact .window_raised q r w e hq hk hpos hrow (freshWeek_terms hw)
                  (.weekly r w plan e hsub hw hl)
              | ok hit =>
                simp only [Prog.continueWith_ok, Prog.run_bind, run_lift]
                cases hc : in_cooldown now w plan with
                | error e =>
                  exact .window_raised q r w e hq hk hpos hrow (freshWeek_terms hw)
                    (.cooldown r w plan hit e hsub hw hl hc)
                | ok cooling =>
                  simp only [Prog.continueWith_ok]
                  split
                  · rename_i hno
                    simp only [Bool.and_eq_true, Bool.not_eq_true'] at hno
                    obtain ⟨rfl, rfl⟩ := hno
                    exact chatRun_window hq hk hpos ⟨⟨r, hsub, hw⟩, hl, hc⟩
                  · rename_i hno
                    have hb : (hit || cooling) = true := by
                      cases hit <;> cases cooling <;> simp_all
                    exact chatRun_balances hq hk hpos
                      (.limited r w plan hit cooling hsub hw hl hc hb)
                      (refusal_reason_ok now _ _ fun u p hu hp => by
                        cases hu; cases hp; exact ⟨hit, hl⟩)
            · simp only [prepared] at hrun
              rw [hrun]
              exact .window_raised q r v e hq hk hpos hrow hv (.week r plan e hsub he)

end dr_boz.chat_runs
