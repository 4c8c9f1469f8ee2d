-- Law of the two windows of a tiered subscription. Both are reset late, by
-- the first charge or check that looks at them after their end. At times that
-- never go back each counter is still the sum of what the subscription has
-- covered since its window opened. A plan without cooldown hours opens no
-- cooldown window, and its cooldown limit is never looked at.
import DrBoz.CheckRuns
import DrBoz.Calls
import DrBoz.Lib.Windows
import DrBoz.Lib.Runs
import DrBoz.Lib.FirstCommits

open keyed_table unit_of_work runs lazy_windows dr_boz.py dr_boz.models dr_boz.codex_capacity
open dr_boz.toman_billing dr_boz.views dr_boz.billing_runs dr_boz.chat_runs dr_boz.check_runs
open dr_boz.calls

namespace dr_boz.tiered_windows

/-- The costs that a subscription has covered, the oldest first. -/
abbrev History := List (Cost Datetime Int)

def total (h : History) : Int := (h.map (·.cost)).sum

def last_cost (h : History) : Int := (h.getLast?.map (·.cost)).getD 0

/-- What an answer says that the row has covered. An answer that the balances
have paid comes with its ledger entry. -/
def covered_cost (k : Nat) (r : ChatUsageChargeResult) : Option Int :=
  if r.ok = true ∧ r.ledger_entry = none ∧ r.user_sub.any (fun v => v.id = k) = true ∧
      (r.metadata.getD []).get "tiered_covered" = some (Scalar.bool true) then
    match (r.metadata.getD []).get "cost" with
    | some (.scalar (.int cost)) => some cost
    | _ => none
  else none

/-! ## The row -/

/-- The windows of the row and its limits, under its plan. A plan with cooldown
hours has two windows, any other plan has the weekly one only. -/
structure Matches (plan : SubscriptionPlan) (u : UserSubscription) (h : History) (now : Datetime) :
    Prop where
  costs : 0 ≤ last_cost h
  week : Window u.week_resets_at (days 7) (intOr0 u.weekly_spent_toman) h now
  week_limit : ∀ limit, plan.weekly_limit_toman = some limit → 0 < limit →
    intOr0 u.weekly_spent_toman < limit + last_cost h
  cooldown : ∀ hrs, plan.cooldown_hours = some hrs → 0 < hrs →
    Window u.cooldown_ends_at (hours hrs) (intOr0 u.cooldown_spent_toman) h now
  cooldown_limit : ∀ hrs, plan.cooldown_hours = some hrs → 0 < hrs →
    ∀ limit, plan.cooldown_limit_toman = some limit → 0 < limit →
      intOr0 u.cooldown_spent_toman < limit + last_cost h
  no_hours : (∀ hrs, plan.cooldown_hours = some hrs → hrs ≤ 0) →
    u.cooldown_ends_at = none ∧ intOr0 u.cooldown_spent_toman = total h

/-- What a call does to a row, and the cost that the row covers. -/
inductive RowMove (now : Datetime) (plan : SubscriptionPlan) (u : UserSubscription) :
    UserSubscription → Option Int → Prop where
  | kept : RowMove now plan u u none
  | week (w : UserSubscription) (hw : freshWeek now u = .ok w) : RowMove now plan u w none
  | both (w : UserSubscription) (hw : freshWeek now u = .ok w) :
      RowMove now plan u (freshCooldown now w) none
  | covered (w v : UserSubscription) (cost : Int) (hw : freshWeek now u = .ok w)
      (hl : weekly_limit_hit w plan = .ok false) (hc : in_cooldown now w plan = .ok false)
      (hv : openWindow now (freshCooldown now w) plan = .ok v) (hpos : 0 < cost) :
      RowMove now plan u (chargedWindow v cost) (some cost)

section
variable {now now' : Datetime} {plan : SubscriptionPlan} {u w v : UserSubscription} {h : History}

theorem addDelta_ok {t x : Datetime} {d : Int} (h : addDelta t d = .ok x) : x = t + d := by
  unfold addDelta at h
  split at h
  · cases h
    rfl
  · cases h

theorem last_cost_append (h : History) (x : Cost Datetime Int) : last_cost (h ++ [x]) = x.cost := by
  simp [last_cost]

theorem total_append (h : History) (x : Cost Datetime Int) :
    total (h ++ [x]) = total h + x.cost := by
  simp [total]

/-- A row that nobody has used yet. -/
theorem matches_unused (hweek : u.week_resets_at = none) (hcool : u.cooldown_ends_at = none)
    (hweekly : intOr0 u.weekly_spent_toman = 0) (hspent : intOr0 u.cooldown_spent_toman = 0) :
    Matches plan u [] now where
  costs := le_rfl
  week := by
    rw [hweek, hweekly]
    exact Window.unused _ _
  week_limit limit _ hpos := by
    rw [hweekly]
    simpa [last_cost] using hpos
  cooldown hrs _ _ := by
    rw [hcool, hspent]
    exact Window.unused _ _
  cooldown_limit hrs _ _ limit _ hpos := by
    rw [hspent]
    simpa [last_cost] using hpos
  no_hours _ := ⟨hcool, hspent⟩

theorem Matches.later (hm : Matches plan u h now) (hle : now ≤ now') : Matches plan u h now' where
  costs := hm.costs
  week := hm.week.later hle
  week_limit := hm.week_limit
  cooldown hrs hhrs hpos := (hm.cooldown hrs hhrs hpos).later hle
  cooldown_limit := hm.cooldown_limit
  no_hours := hm.no_hours

/-! ### The resets -/

theorem freshWeek_current (hw : freshWeek now u = .ok w) :
    ∃ t, w.week_resets_at = some t ∧ now < t := by
  unfold freshWeek at hw
  split at hw
  · cases ha : addDelta now (days 7) with
    | error e =>
      rw [ha] at hw
      cases hw
    | ok t =>
      rw [ha] at hw
      cases hw
      refine ⟨t, rfl, ?_⟩
      rw [addDelta_ok ha]
      exact lt_add_of_pos_right now (by decide)
  · rename_i hover
    cases hw
    unfold week_over at hover
    cases ht : u.week_resets_at with
    | none =>
      rw [ht] at hover
      exact absurd rfl hover
    | some t =>
      rw [ht] at hover
      exact ⟨t, rfl, by simpa using hover⟩

theorem freshCooldown_current (now : Datetime) (u : UserSubscription) {t : Datetime}
    (ht : (freshCooldown now u).cooldown_ends_at = some t) : now < t := by
  unfold freshCooldown at ht
  split at ht
  · cases ht
  · rename_i hover
    unfold cooldown_over at hover
    rw [ht] at hover
    simpa using hover

theorem Matches.freshWeek (hm : Matches plan u h now) (hle : now ≤ now')
    (hw : freshWeek now' u = .ok w) : Matches plan w h now' := by
  unfold chat_runs.freshWeek at hw
  split at hw
  · rename_i hover
    cases ha : addDelta now' (days 7) with
    | error e =>
      rw [ha] at hw
      cases hw
    | ok t =>
      rw [ha] at hw
      cases hw
      have hend : ∀ t, u.week_resets_at = some t → t ≤ now' := by
        intro t ht
        unfold week_over at hover
        rw [ht] at hover
        exact of_decide_eq_true hover
      have hlast := hm.costs
      refine { hm.later hle with week := ?_, week_limit := fun limit _ hpos => ?_ }
      · rw [addDelta_ok ha]
        exact hm.week.restart hle hend (by decide)
      · change (0 : Int) < limit + last_cost h
        omega
  · cases hw
    exact hm.later hle

theorem Matches.freshCooldown (hm : Matches plan u h now) :
    Matches plan (freshCooldown now u) h now := by
  unfold chat_runs.freshCooldown
  split
  · rename_i hover
    unfold cooldown_over at hover
    cases ht : u.cooldown_ends_at with
    | none =>
      rw [ht] at hover
      cases hover
    | some t =>
      rw [ht] at hover
      have hend : t ≤ now := of_decide_eq_true hover
      have hlast := hm.costs
      refine ⟨hm.costs, hm.week, hm.week_limit, fun hrs hhrs hpos => ?_,
        fun hrs _ _ limit _ hpos => ?_, fun hno => ?_⟩
      · have hwindow := hm.cooldown hrs hhrs hpos
        rw [ht] at hwindow
        exact hwindow.close hend
      · change (0 : Int) < limit + last_cost h
        omega
      · have hnone := (hm.no_hours hno).1
        rw [ht] at hnone
        cases hnone
  · exact hm

/-! ### A covered charge -/

/-- The cooldown window of a charge under a plan with cooldown hours: one is
open now, and its counter is below the limit. -/
theorem open_window {hrs : Int} (hm : Matches plan (freshCooldown now w) h now)
    (hc : in_cooldown now w plan = .ok false)
    (hv : openWindow now (freshCooldown now w) plan = .ok v)
    (hhrs : plan.cooldown_hours = some hrs) (hpos : 0 < hrs) :
    ∃ t, v.cooldown_ends_at = some t ∧ now < t ∧
      Window (some t) (hours hrs) (intOr0 v.cooldown_spent_toman) h now ∧
      ∀ limit, plan.cooldown_limit_toman = some limit → 0 < limit →
        intOr0 v.cooldown_spent_toman < limit := by
  have hwindow := hm.cooldown hrs hhrs hpos
  rw [← in_cooldown_freshCooldown] at hc
  have hcurrent : ∀ t, (freshCooldown now w).cooldown_ends_at = some t → now < t :=
    fun _ => freshCooldown_current now w
  generalize freshCooldown now w = u at *
  unfold openWindow at hv
  rw [hhrs] at hv
  cases ht : u.cooldown_ends_at with
  | some t =>
    rw [ht] at hv hwindow
    cases hv
    refine ⟨t, ht, hcurrent t ht, hwindow, fun limit hlimit _ => ?_⟩
    unfold in_cooldown at hc
    rw [ht, hlimit] at hc
    simpa [hcurrent t ht] using hc
  | none =>
    rw [ht] at hv hwindow
    simp only [if_pos hpos] at hv
    cases ha : addDelta now (hours hrs) with
    | error e =>
      rw [ha] at hv
      cases hv
    | ok t =>
      rw [ha] at hv
      cases hv
      have hlength : 0 < hours hrs := by
        unfold hours
        omega
      obtain rfl := addDelta_ok ha
      refine ⟨_, rfl, lt_add_of_pos_right now hlength, ?_, fun limit _ hlimit => hlimit⟩
      exact hwindow.restart le_rfl (fun _ ht => by cases ht) hlength

/-- Opening a window leaves the week alone. -/
theorem openWindow_week (hv : openWindow now u plan = .ok v) :
    v.week_resets_at = u.week_resets_at ∧ v.weekly_spent_toman = u.weekly_spent_toman := by
  unfold openWindow at hv
  split at hv
  · cases hv
    exact ⟨rfl, rfl⟩
  · cases hv
  · rename_i hrs _ _
    split at hv
    · cases ha : addDelta now (hours hrs) with
      | error e =>
        rw [ha] at hv
        cases hv
      | ok t =>
        rw [ha] at hv
        cases hv
        exact ⟨rfl, rfl⟩
    · cases hv
      exact ⟨rfl, rfl⟩

theorem freshCooldown_week (now : Datetime) (u : UserSubscription) :
    (freshCooldown now u).week_resets_at = u.week_resets_at ∧
      (freshCooldown now u).weekly_spent_toman = u.weekly_spent_toman := by
  unfold freshCooldown
  split
  · exact ⟨rfl, rfl⟩
  · exact ⟨rfl, rfl⟩

/-- Without cooldown hours no window opens. -/
theorem openWindow_no_hours (hno : ∀ hrs, plan.cooldown_hours = some hrs → hrs ≤ 0)
    (hnone : u.cooldown_ends_at = none) (hv : openWindow now u plan = .ok v) : v = u := by
  unfold openWindow at hv
  rw [hnone] at hv
  cases hhrs : plan.cooldown_hours with
  | none =>
    rw [hhrs] at hv
    cases hv
  | some hrs =>
    rw [hhrs] at hv
    simp only [if_neg (not_lt.mpr (hno hrs hhrs))] at hv
    cases hv
    rfl

theorem Matches.charged {cost : Int} (hm : Matches plan u h now) (hle : now ≤ now')
    (hw : chat_runs.freshWeek now' u = .ok w) (hl : weekly_limit_hit w plan = .ok false)
    (hc : in_cooldown now' w plan = .ok false)
    (hv : openWindow now' (chat_runs.freshCooldown now' w) plan = .ok v) (hpos : 0 < cost) :
    Matches plan (chargedWindow v cost) (h ++ [⟨now', cost⟩]) now' := by
  have hmw := hm.freshWeek hle hw
  have hmc := hmw.freshCooldown
  obtain ⟨hends, hspent⟩ := openWindow_week hv
  obtain ⟨hends', hspent'⟩ := freshCooldown_week now' w
  refine ⟨?_, ?_, fun limit hlimit hpos' => ?_, fun hrs hhrs hpos' => ?_,
    fun hrs hhrs hpos' limit hlimit hpos'' => ?_, fun hno => ?_⟩
  · rw [last_cost_append]
    exact hpos.le
  · -- The week is a current one, so the cost belongs to it.
    obtain ⟨t, ht, hcurrent⟩ := freshWeek_current hw
    have hweek := hmw.week
    rw [ht] at hweek
    have hspend := hweek.spend le_rfl hcurrent cost
    rw [← ht, ← hends', ← hends, ← hspent', ← hspent] at hspend
    exact hspend
  · have hbelow : intOr0 w.weekly_spent_toman < limit := by
      unfold weekly_limit_hit at hl
      rw [hlimit] at hl
      simpa [hpos'] using hl
    rw [last_cost_append]
    change intOr0 v.weekly_spent_toman + cost < limit + cost
    rw [hspent, hspent']
    exact Int.add_lt_add_right hbelow cost
  · obtain ⟨t, ht, hcurrent, hwindow, -⟩ := open_window hmc hc hv hhrs hpos'
    have hspend := hwindow.spend le_rfl hcurrent cost
    rw [← ht] at hspend
    exact hspend
  · obtain ⟨t, -, -, -, hbelow⟩ := open_window hmc hc hv hhrs hpos'
    rw [last_cost_append]
    exact Int.add_lt_add_right (hbelow limit hlimit hpos'') cost
  · obtain ⟨hnone, htotal⟩ := hmc.no_hours hno
    obtain rfl := openWindow_no_hours hno hnone hv
    rw [total_append]
    exact ⟨hnone, congrArg (· + cost) htotal⟩

/-- Every call keeps the row and its history in step. -/
theorem RowMove.matches {plan : SubscriptionPlan} {u u' : UserSubscription} {cost : Option Int}
    (hmove : RowMove now' plan u u' cost) (hm : Matches plan u h now) (hle : now ≤ now') :
    Matches plan u' (h ++ (cost.map fun cost => ⟨now', cost⟩).toList) now' := by
  cases hmove with
  | kept =>
    rw [Option.map_none, Option.toList_none, List.append_nil]
    exact hm.later hle
  | week w hw =>
    rw [Option.map_none, Option.toList_none, List.append_nil]
    exact hm.freshWeek hle hw
  | both w hw =>
    rw [Option.map_none, Option.toList_none, List.append_nil]
    exact (hm.freshWeek hle hw).freshCooldown
  | covered w v cost hw hl hc hv hpos => exact hm.charged hle hw hl hc hv hpos

end
/-! ## The calls -/

/-- What a call leaves for a row and its plan. `published` says that it has
committed its changes itself. -/
structure Moved (now : Datetime) (k : Nat) (plan : SubscriptionPlan) (u : UserSubscription)
    (commit : Bool) (s t : Session Db) (cost : Option Int) : Prop where
  row : ∃ u', t.view.subscriptions.get k = some u' ∧ u'.plan_id = u.plan_id ∧
    RowMove now plan u u' cost
  plans : t.view.plans = s.view.plans
  stored : (t.stored = s.stored ∧ (cost = none ∨ commit = false)) ∨
    (t.stored = t.view ∧ commit = true)

section
variable {now : Datetime} {k : Nat} {plan : SubscriptionPlan} {u w x : UserSubscription}
variable {s t : Session Db} {c : ChatCall} {r : ChatUsageChargeResult} {q : ChatUsageQuote}
variable {db : Db}

theorem covered_cost_none
    (h : r.ledger_entry ≠ none ∨ r.user_sub = none ∨ r.ok = false ∨ r.metadata = none) (k : Nat) :
    covered_cost k r = none := by
  unfold covered_cost
  rw [if_neg]
  rintro ⟨h1, h2, h3, h4⟩
  rcases h with h | h | h | h
  · exact h h2
  · rw [h] at h3
    cases h3
  · rw [h] at h1
    cases h1
  · rw [h] at h4
    cases h4

/-- The four entries of a snapshot name no cost. -/
theorem covered_cost_answer (hq : c.quote db = .ok q) (account : UserBillingAccount)
    (v : UserSubscription) (k : Nat) :
    covered_cost k (covered_answer account q v) =
      if v.id = k then some q.billable_cost_toman else none := by
  have hsnapshot : ∃ a b d e, q.pricing_snapshot = [("model_id", a), ("model_name", b),
      ("pricing_input_usd_per_1m", d), ("pricing_output_usd_per_1m", e)] := by
    unfold ChatCall.quote chat_quote at hq
    simp only [bind, Except.bind] at hq
    split at hq
    · cases hq
    split at hq
    · cases hq
    cases hq
    exact ⟨_, _, _, _, rfl⟩
  obtain ⟨a, b, d, e, hsnapshot⟩ := hsnapshot
  have hcost : ((covered_answer account q v).metadata.getD []).get "cost" =
      some (Scalar.int q.billable_cost_toman) := by
    unfold covered_answer
    rw [hsnapshot]
    rfl
  have hcovered : ((covered_answer account q v).metadata.getD []).get "tiered_covered" =
      some (Scalar.bool true) := by
    unfold covered_answer
    rw [hsnapshot]
    rfl
  unfold covered_cost
  rw [hcost, hcovered]
  by_cases hk : v.id = k
  · simp [covered_answer, chargedWindow, hk]
  · simp [covered_answer, chargedWindow, hk]

/-- A row that a call puts in place of its own. -/
theorem get_put_row (hx : db.subscriptions.get x.id = some x) (ht : SameTerms w x)
    (hrow : db.subscriptions.get k = some u) :
    (x = u ∧ (db.subscriptions.put w).get k = some w) ∨
      (w.id ≠ k ∧ (db.subscriptions.put w).get k = some u) := by
  by_cases hk : x.id = k
  · subst hk
    rw [hx] at hrow
    cases hrow
    refine .inl ⟨rfl, ?_⟩
    rw [← ht.id]
    exact Table.get_put_self hx ht.replaces
  · refine .inr ⟨ht.id ▸ hk, ?_⟩
    rw [Table.get_put_ne hx ht.replaces (Ne.symm hk)]
    exact hrow

/-- A subscription that a call has found is under its plan. -/
theorem plan_of_found {p : SubscriptionPlan}
    (h : subscriptionOf now db (c.user.id) = .ok (some u, some p)) :
    db.plans.get u.plan_id = some p := by
  unfold subscriptionOf at h
  split at h
  · cases h
  · split at h
    · cases h
    · rename_i hp
      simp only [Except.ok.injEq, Prod.mk.injEq, Option.some.injEq] at h
      obtain ⟨rfl, h⟩ := h
      split at h
      · cases h
        exact hp
      · cases h

/-- The row once a call has reset the one that it has found. -/
theorem reset_row (hx : db.subscriptions.get x.id = some x) (ht : SameTerms w x)
    (hrow : db.subscriptions.get k = some u) (hmove : RowMove now plan x w none) :
    ∃ u', (db.subscriptions.put w).get k = some u' ∧ u'.plan_id = u.plan_id ∧
      RowMove now plan u u' none := by
  rcases get_put_row hx ht hrow with ⟨rfl, hget⟩ | ⟨-, hget⟩
  · exact ⟨w, hget, ht.plan_id, hmove⟩
  · exact ⟨u, hget, rfl, .kept⟩

theorem left_row (plan : SubscriptionPlan) {v : Nat} {db' : Db} (h : LeftToBalances now db v db')
    (hrow : db.subscriptions.get k = some u) :
    (∃ u', db'.subscriptions.get k = some u' ∧ u'.plan_id = u.plan_id ∧
      RowMove now plan u u' none) ∧ db'.plans = db.plans := by
  cases h with
  | plain r h => exact ⟨⟨u, hrow, rfl, .kept⟩, rfl⟩
  | limited r w p hit cooling h hw hl hc hb =>
    exact ⟨reset_row (get_activeRow (subscriptionOf_row h)) (freshWeek_terms hw) hrow
      (.week w hw), rfl⟩

theorem checked_row (plan : SubscriptionPlan) {v : Nat} {db' : Db} (h : CheckLeaves now db v db')
    (hrow : db.subscriptions.get k = some u) :
    (∃ u', db'.subscriptions.get k = some u' ∧ u'.plan_id = u.plan_id ∧
      RowMove now plan u u' none) ∧ db'.plans = db.plans := by
  cases h with
  | plain r h => exact ⟨⟨u, hrow, rfl, .kept⟩, rfl⟩
  | limited r w p hit cooling h hw hl hc hb =>
    exact ⟨reset_row (get_activeRow (subscriptionOf_row h))
      ((freshCooldown_terms now w).trans (freshWeek_terms hw)) hrow (.both w hw), rfl⟩

/-- The answer of a payment comes with its entry, and a refusal is not ok. -/
theorem balances_cover_nothing {sub : Option UserSubscription} {p : Option SubscriptionPlan}
    {account : UserBillingAccount} {s' : Session Db}
    (hrun : (charge_balances now c.user account q sub p c.usage_event_id c.idempotency_key
      c.metadata c.commit).run s' = (.ok r, t)) (k : Nat) : covered_cost k r = none := by
  refine Prog.Returns.of_run (Q := fun r => covered_cost k r = none) ?_ hrun
  unfold charge_balances
  refine Prog.returns_ite (Prog.returns_bind fun reason => ?_) (Prog.returns_bind fun _ =>
    Prog.returns_bind fun entry => Prog.returns_bind fun _ => ?_)
  · exact covered_cost_none (.inr (.inr (.inl rfl))) k
  · exact covered_cost_none (.inl (by simp)) k

/-- A charge that the balances have paid has covered nothing. -/
theorem paid_covers_nothing (hq : c.quote s.view = .ok q)
    (hk : ledgerRow s.view c.idempotency_key = none) (hpos : 0 < q.billable_cost_toman)
    (hb : LeftToBalances now s.view c.user.id db) (hrun : (c.prog now).run s = (.ok r, t))
    (k : Nat) : covered_cost k r = none := by
  cases hb with
  | plain sub h =>
    rw [run_charge_plain hq hk hpos h] at hrun
    exact balances_cover_nothing hrun k
  | limited x w p hit cooling h hw hl hc hb =>
    have hno : ¬(!hit && !cooling) = true := by
      cases hit
      · cases cooling
        · cases hb
        · simp
      · simp
    rw [run_charge_tiered hq hk hpos h hw hl hc, if_neg hno] at hrun
    exact balances_cover_nothing hrun k

theorem charge_moves (hrow : s.view.subscriptions.get k = some u)
    (hplan : s.view.plans.get u.plan_id = some plan) (hrun : (c.prog now).run s = (.ok r, t)) :
    Moved now k plan u c.commit s t (covered_cost k r) := by
  have h := chatRun now c s
  rw [hrun] at h
  generalize hres : (.ok r : Except PyError ChatUsageChargeResult) = res at h
  cases h with
  | quote_raised | no_plan | window_raised | start_raised | conflict => cases hres
  | replay q e r' hq hk hr =>
    cases hres
    rw [run_charge_replay hq hk] at hrun
    cases hrun
    rw [covered_cost_none (.inl (by simp))]
    exact ⟨⟨u, hrow, rfl, .kept⟩, rfl, .inl ⟨rfl, .inl rfl⟩⟩
  | free q r' hq hk hle hr =>
    cases hres
    rw [run_charge_free hq hk hle] at hrun
    cases hrun
    rw [covered_cost_none (.inr (.inl rfl))]
    exact ⟨⟨u, hrow, rfl, .kept⟩, rfl, .inl ⟨rfl, .inl rfl⟩⟩
  | refused q db r' hq hk hpos hb hlt hr =>
    cases hres
    rw [covered_cost_none (.inr (.inr (.inl hr)))]
    obtain ⟨hmoved, hplans⟩ := left_row plan hb hrow
    exact ⟨hmoved, hplans, .inl ⟨rfl, .inl rfl⟩⟩
  | paid q db e r' hq hk hpos hb hle he ha hr =>
    cases hres
    rw [paid_covers_nothing hq hk hpos hb hrun k]
    change Moved now k plan u c.commit s (Session.commitIf c.commit ⟨s.stored, post db _ [e]⟩) none
    obtain ⟨hmoved, hplans⟩ := left_row plan hb hrow
    refine ⟨?_, ?_, ?_⟩
    · rw [Session.view_commitIf, post_eq]
      exact hmoved
    · rw [Session.view_commitIf, post_eq]
      exact hplans
    · cases c.commit with
      | true => exact .inr ⟨rfl, rfl⟩
      | false => exact .inl ⟨rfl, .inl rfl⟩
  | covered q w v p r' hq hk hpos hc hv hr =>
    cases hres
    obtain ⟨x, hsub, hw⟩ := hc.found
    have hx := get_activeRow (subscriptionOf_row hsub)
    have hterms := (openWindow_terms hv).trans ((freshCooldown_terms now w).trans
      (freshWeek_terms hw))
    obtain rfl : covered_answer (accountRow s.view c.user.id) q v = r := by
      rw [run_charge_covered hq hk hpos hc hv] at hrun
      exact Except.ok.inj (congrArg Prod.fst hrun)
    rw [covered_cost_answer hq]
    change Moved now k plan u c.commit s (Session.commitIf c.commit
      ⟨s.stored, putSubscription (prepared s.view c.user.id) (chargedWindow v _)⟩) _
    refine ⟨?_, ?_, ?_⟩
    · rw [Session.view_commitIf]
      rcases get_put_row hx ((chargedWindow_terms v q.billable_cost_toman).trans hterms) hrow with
        ⟨rfl, hget⟩ | ⟨hne, hget⟩
      · obtain ⟨-, hid⟩ := (Table.get_eq_some _).mp hrow
        rw [if_pos (hterms.id.trans hid)]
        rw [plan_of_found hsub] at hplan
        cases hplan
        exact ⟨_, hget, hterms.plan_id, .covered w v _ hw hc.weekly hc.cooldown hv hpos⟩
      · rw [if_neg (show ¬v.id = k from hne)]
        exact ⟨u, hget, rfl, .kept⟩
    · rw [Session.view_commitIf]
      rfl
    · cases c.commit with
      | true => exact .inr ⟨rfl, rfl⟩
      | false => exact .inl ⟨rfl, .inr rfl⟩

/-- A check covers nothing and commits nothing. -/
theorem check_moves (hrow : s.view.subscriptions.get k = some u)
    (hrun : (permission now c).run s = (.ok r, t)) :
    Moved now k plan u c.commit s t (covered_cost k r) := by
  have hnone : covered_cost k r = none := by
    refine Prog.Returns.of_run (Q := fun r => covered_cost k r = none) ?_ hrun
    have hno : ∀ r : ChatUsageChargeResult, r.metadata = none → covered_cost k r = none :=
      fun _ h => covered_cost_none (.inr (.inr (.inr h))) k
    unfold permission check_chat_usage_permission_toman
    refine Prog.returns_bind fun account => Prog.returns_bind fun quote =>
      Prog.returns_ite (hno _ rfl) (Prog.returns_bind fun ⟨sub, p⟩ => ?_)
    cases p with
    | none => cases sub <;> exact Prog.returns_ite (hno _ rfl) (hno _ rfl)
    | some p =>
      cases sub with
      | none => exact Prog.returns_ite (hno _ rfl) (hno _ rfl)
      | some sub =>
        refine Prog.returns_bind fun sub => Prog.returns_bind fun sub =>
          Prog.returns_bind fun cooling => Prog.returns_bind fun weekly_hit => ?_
        refine Prog.returns_ite (Prog.returns_ite (hno _ rfl) (hno _ rfl)) ?_
        exact Prog.returns_ite (Prog.returns_ite (hno _ rfl) (hno _ rfl)) (hno _ rfl)
  rw [hnone]
  have h := checkRun now c s
  rw [hrun] at h
  cases h with
  | free q r hq hle hr hn => exact ⟨⟨u, hrow, rfl, .kept⟩, rfl, .inl ⟨rfl, .inl rfl⟩⟩
  | covered q w p r hq hpos hc hr hn =>
    obtain ⟨x, hsub, hw⟩ := hc.found
    exact ⟨reset_row (get_activeRow (subscriptionOf_row hsub))
      ((freshCooldown_terms now w).trans (freshWeek_terms hw)) hrow (.both w hw), rfl,
      .inl ⟨rfl, .inl rfl⟩⟩
  | payg q db r hq hpos hb hle hr hn | refused q db r hq hpos hb hlt hr =>
    obtain ⟨hmoved, hplans⟩ := checked_row plan hb hrow
    exact ⟨hmoved, hplans, .inl ⟨rfl, .inl rfl⟩⟩

/-- A charge or a check that raises has committed nothing. -/
theorem charge_error {e : PyError} (hrun : (c.prog now).run s = (.error e, t)) :
    t.stored = s.stored := by
  have h := chatRun now c s
  rw [hrun] at h
  generalize hres : (.error e : Except PyError ChatUsageChargeResult) = res at h
  cases h with
  | replay | free | refused | paid | covered => cases hres
  | quote_raised | no_plan | window_raised | start_raised | conflict => rfl

theorem check_error {e : PyError} (hrun : (permission now c).run s = (.error e, t)) :
    t.stored = s.stored := by
  have h := checkRun now c s
  rw [hrun] at h
  cases h with
  | quote_raised | no_plan | window_raised => rfl

end

/-! ## Runs -/

/-- A charge or a check at a time. What it leaves uncommitted is kept or rolled
back by its caller, and rolled back when it raises. -/
structure ChatEvent where
  now : Datetime
  c : ChatCall
  charges : Bool
  kept : Bool

def ChatEvent.prog (e : ChatEvent) : Tx ChatUsageChargeResult :=
  if e.charges then e.c.prog e.now else permission e.now e.c

/-- The database, what the row `k` has covered so far, and the last time. -/
structure Watch where
  db : Db
  covered : History
  time : Datetime

def Watch.step (k : Nat) (w : Watch) (e : ChatEvent) : Watch :=
  match (e.prog.run (.opened w.db)).1 with
  | .error _ => { w with db := (e.prog.run (.opened w.db)).2.stored, time := e.now }
  | .ok r =>
    if e.kept then
      { db := (e.prog.run (.opened w.db)).2.view
        covered := w.covered ++ ((covered_cost k r).map fun cost => ⟨e.now, cost⟩).toList
        time := e.now }
    else
      { db := (e.prog.run (.opened w.db)).2.stored
        covered := if e.c.commit then
            w.covered ++ ((covered_cost k r).map fun cost => ⟨e.now, cost⟩).toList
          else w.covered
        time := e.now }

/-- The row is there, and its windows are in step with what it has covered. -/
def Watched (k : Nat) (plan : SubscriptionPlan) (w : Watch) : Prop :=
  ∃ u, w.db.subscriptions.get k = some u ∧ w.db.plans.get u.plan_id = some plan ∧
    Matches plan u w.covered w.time

/-- Time does not go back. -/
abbrev InOrder (w : Watch) (es : List ChatEvent) : Prop :=
  (w.time :: es.map ChatEvent.now).IsChain (· ≤ ·)

section
variable {k : Nat} {plan : SubscriptionPlan} {u : UserSubscription} {w : Watch} {e : ChatEvent}

theorem event_moves {r : ChatUsageChargeResult} {s t : Session Db}
    (hrow : s.view.subscriptions.get k = some u) (hplan : s.view.plans.get u.plan_id = some plan)
    (hrun : e.prog.run s = (.ok r, t)) :
    Moved e.now k plan u e.c.commit s t (covered_cost k r) := by
  unfold ChatEvent.prog at hrun
  split at hrun
  · exact charge_moves hrow hplan hrun
  · exact check_moves hrow hrun

theorem event_error {x : PyError} {s t : Session Db} (hrun : e.prog.run s = (.error x, t)) :
    t.stored = s.stored := by
  unfold ChatEvent.prog at hrun
  split at hrun
  · exact charge_error hrun
  · exact check_error hrun

theorem step_watched (hw : Watched k plan w) (hle : w.time ≤ e.now) :
    Watched k plan (w.step k e) := by
  obtain ⟨u, hrow, hplan, hm⟩ := hw
  unfold Watch.step
  generalize hrun : e.prog.run (.opened w.db) = x
  obtain ⟨res, t⟩ := x
  cases res with
  | error x =>
    have hstored := event_error hrun
    simp only [hstored]
    exact ⟨u, hrow, hplan, hm.later hle⟩
  | ok r =>
    obtain ⟨⟨u', hrow', hid, hmove⟩, hplans, hstored⟩ := event_moves hrow hplan hrun
    have hview : Watched k plan ⟨t.view,
        w.covered ++ ((covered_cost k r).map fun cost => ⟨e.now, cost⟩).toList, e.now⟩ := by
      refine ⟨u', hrow', ?_, hmove.matches hm hle⟩
      rw [hplans, hid]
      exact hplan
    simp only
    cases e.kept with
    | true => exact hview
    | false =>
      simp only [Bool.false_eq_true, if_false]
      rcases hstored with ⟨hst, hcost⟩ | ⟨hst, hcommit⟩
      · -- Nothing is committed, so nothing is covered.
        have hsame : (if e.c.commit then
            w.covered ++ ((covered_cost k r).map fun cost => ⟨e.now, cost⟩).toList
            else w.covered) = w.covered := by
          rcases hcost with hcost | hcommit
          · rw [hcost, Option.map_none, Option.toList_none, List.append_nil, ite_self]
          · rw [hcommit]
            rfl
        rw [hst, hsame]
        exact ⟨u, hrow, hplan, hm.later hle⟩
      · rw [hst, hcommit]
        exact hview

theorem step_time (k : Nat) (w : Watch) (e : ChatEvent) : (w.step k e).time = e.now := by
  unfold Watch.step
  split
  · rfl
  · split
    · rfl
    · rfl

theorem run_watched {es : List ChatEvent} (hw : Watched k plan w) (hes : InOrder w es) :
    Watched k plan (after (Watch.step k) w es) := by
  induction es generalizing w with
  | nil => exact hw
  | cons e es ih =>
    rw [InOrder, List.map_cons, List.isChain_cons_cons] at hes
    refine ih (step_watched hw hes.1) ?_
    rw [InOrder, step_time]
    exact hes.2

end

/-! ## Law -/

/-- Each counter is the sum of what the row has covered since its window opened,
and goes over its limit by less than the last covered cost. Without cooldown
hours there is no cooldown window, and its counter is the sum of everything. -/
structure WindowsHold (plan : SubscriptionPlan) (u : UserSubscription) (h : History) : Prop where
  week_sum : intOr0 u.weekly_spent_toman = sum_since (u.week_resets_at.map (· - days 7)) h
  week_limit : ∀ limit, plan.weekly_limit_toman = some limit → 0 < limit →
    intOr0 u.weekly_spent_toman - limit < last_cost h
  cooldown_sum : ∀ hrs, plan.cooldown_hours = some hrs → 0 < hrs →
    intOr0 u.cooldown_spent_toman = sum_since (u.cooldown_ends_at.map (· - hours hrs)) h
  cooldown_limit : ∀ hrs, plan.cooldown_hours = some hrs → 0 < hrs →
    ∀ limit, plan.cooldown_limit_toman = some limit → 0 < limit →
      intOr0 u.cooldown_spent_toman - limit < last_cost h
  no_hours : (∀ hrs, plan.cooldown_hours = some hrs → hrs ≤ 0) →
    u.cooldown_ends_at = none ∧ intOr0 u.cooldown_spent_toman = total h

/-- LAW: In every run of charges and checks at times that do not go back, the
windows of a tiered subscription hold what it has covered, after each call. -/
theorem the_windows_hold_what_is_covered (k : Nat) (plan : SubscriptionPlan) (w : Watch)
    (es : List ChatEvent) (hw : Watched k plan w) (hes : InOrder w es) :
    ∃ u, (after (Watch.step k) w es).db.subscriptions.get k = some u ∧
      WindowsHold plan u (after (Watch.step k) w es).covered := by
  obtain ⟨u, hrow, -, hm⟩ := run_watched hw hes
  refine ⟨u, hrow, hm.week.sum, fun limit hlimit hpos => ?_,
    fun hrs hhrs hpos => (hm.cooldown hrs hhrs hpos).sum,
    fun hrs hhrs hpos limit hlimit hpos' => ?_, hm.no_hours⟩
  · have hbelow := hm.week_limit limit hlimit hpos
    omega
  · have hbelow := hm.cooldown_limit hrs hhrs hpos limit hlimit hpos'
    omega

/-- The plan of the shop without cooldown hours. -/
def plan_without_hours : SubscriptionPlan := { tiered_plan with cooldown_hours := some 0 }

/-- The subscription of the shop under a plan, with nothing covered so far. -/
def watched_shop (plan : SubscriptionPlan) : Watch where
  db := { subscribed_shop with plans := Table.empty.insert plan }
  covered := []
  time := noon

/-- A charge of 625 toman. -/
def charge_at (now : Datetime) (key : String) : ChatEvent := ⟨now, small_chat key, true, true⟩

theorem shop_is_watched {plan : SubscriptionPlan}
    (hplan : (Table.empty.insert plan : Table SubscriptionPlan).get 1 = some plan) :
    Watched 1 plan (watched_shop plan) := by
  have hrow : subscribed_shop.subscriptions.get 1 = some { subscription_row with id := 1 } := by
    decide
  exact ⟨_, hrow, hplan, matches_unused rfl rfl rfl rfl⟩

/-- Without cooldown hours the limit of the cooldown is never looked at: the
third charge is covered as well. -/
theorem without_hours_the_limit_is_passed :
    ¬∀ (k : Nat) (plan : SubscriptionPlan) (w : Watch) (es : List ChatEvent), Watched k plan w →
      InOrder w es → ∃ u, (after (Watch.step k) w es).db.subscriptions.get k = some u ∧
        ∀ limit, plan.cooldown_limit_toman = some limit → 0 < limit →
          intOr0 u.cooldown_spent_toman - limit <
            last_cost (after (Watch.step k) w es).covered := by
  intro h
  obtain ⟨u, hrow, hlimit⟩ := h 1 plan_without_hours (watched_shop plan_without_hours)
    [charge_at noon "a", charge_at noon "b", charge_at noon "c"]
    (shop_is_watched (by decide)) (by decide +kernel)
  have hspent : ((after (Watch.step 1) (watched_shop plan_without_hours)
      [charge_at noon "a", charge_at noon "b", charge_at noon "c"]).db.subscriptions.get 1).map
        (fun u => intOr0 u.cooldown_spent_toman) = some 1875 := by
    decide +kernel
  have hlast : last_cost (after (Watch.step 1) (watched_shop plan_without_hours)
      [charge_at noon "a", charge_at noon "b", charge_at noon "c"]).covered = 625 := by
    decide +kernel
  rw [hrow, Option.map_some, Option.some.injEq] at hspent
  have hless := hlimit 1000 rfl (by decide)
  rw [hspent, hlast] at hless
  exact absurd hless (by decide)

/-- Three charges under the tiered plan, the last one in the next window. -/
theorem the_windows_of_three_charges :
    ∃ u, (after (Watch.step 1) (watched_shop tiered_plan)
        [charge_at noon "a", charge_at (noon + hours 1) "b", charge_at (noon + hours 6) "c"]
      ).db.subscriptions.get 1 = some u ∧ WindowsHold tiered_plan u
        (after (Watch.step 1) (watched_shop tiered_plan)
          [charge_at noon "a", charge_at (noon + hours 1) "b", charge_at (noon + hours 6) "c"]
        ).covered :=
  the_windows_hold_what_is_covered 1 tiered_plan (watched_shop tiered_plan)
    [charge_at noon "a", charge_at (noon + hours 1) "b", charge_at (noon + hours 6) "c"]
    (shop_is_watched (by decide)) (by decide +kernel)

end dr_boz.tiered_windows
