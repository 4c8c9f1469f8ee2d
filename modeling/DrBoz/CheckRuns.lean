-- What a permission check does in a session. It walks the same tests as the
-- charge, with the cooldown reset in front of them, and commits nothing.
import DrBoz.ChatRuns

open keyed_table unit_of_work dr_boz.py dr_boz.models dr_boz.codex_capacity dr_boz.toman_billing
open dr_boz.views dr_boz.billing_runs dr_boz.chat_runs

namespace dr_boz.check_runs

/-! ## The cooldown reset changes no test -/

theorem weekly_limit_hit_freshCooldown (now : Datetime) (u : UserSubscription)
    (plan : SubscriptionPlan) :
    weekly_limit_hit (freshCooldown now u) plan = weekly_limit_hit u plan := by
  have h : (freshCooldown now u).weekly_spent_toman = u.weekly_spent_toman := by
    unfold freshCooldown
    split <;> rfl
  unfold weekly_limit_hit
  rw [h]

/-- The check tests the window after the reset, and the charge before it. -/
theorem in_cooldown_freshCooldown (now : Datetime) (u : UserSubscription)
    (plan : SubscriptionPlan) :
    in_cooldown now (freshCooldown now u) plan = in_cooldown now u plan := by
  unfold freshCooldown
  split
  · rename_i h
    unfold cooldown_over at h
    unfold in_cooldown
    cases ht : u.cooldown_ends_at with
    | none => rfl
    | some t =>
      rw [ht] at h
      have hle : t ≤ now := of_decide_eq_true h
      exact (if_neg (not_lt.mpr hle)).symm
  · rfl

/-! ## The check -/

/-- What the check leaves when the balances have to pay. -/
inductive CheckLeaves (now : Datetime) (db : Db) (u : Nat) : Db → Prop where
  | plain (r : Option UserSubscription) (h : subscriptionOf now db u = .ok (r, none)) :
      CheckLeaves now db u (prepared db u)
  | limited (r w : UserSubscription) (plan : SubscriptionPlan) (hit cooling : Bool)
      (h : subscriptionOf now db u = .ok (some r, some plan)) (hw : freshWeek now r = .ok w)
      (hl : weekly_limit_hit w plan = .ok hit) (hc : in_cooldown now w plan = .ok cooling)
      (hb : (hit || cooling) = true) :
      CheckLeaves now db u (putSubscription (prepared db u) (freshCooldown now w))

/-- How a permission check ends. -/
inductive CheckRun (now : Datetime) (c : ChatCall) (s : Session Db) :
    Except PyError ChatUsageChargeResult → Session Db → Prop where
  | quote_raised (e : PyError) (hq : c.quote s.view = .error e) :
      CheckRun now c s (.error e) ⟨s.stored, prepared s.view c.user.id⟩
  | free (q : ChatUsageQuote) (r : ChatUsageChargeResult) (hq : c.quote s.view = .ok q)
      (hle : q.billable_cost_toman ≤ 0) (hr : r.ok = true)
      (hn : r.reason ≠ some "tiered_subscription") :
      CheckRun now c s (.ok r) ⟨s.stored, prepared s.view c.user.id⟩
  | no_plan (q : ChatUsageQuote) (e : PyError) (hq : c.quote s.view = .ok q)
      (hpos : 0 < q.billable_cost_toman)
      (h : subscriptionOf now s.view c.user.id = .error e) :
      CheckRun now c s (.error e) ⟨s.stored, prepared s.view c.user.id⟩
  | window_raised (q : ChatUsageQuote) (r v : UserSubscription) (plan : SubscriptionPlan)
      (e e' : PyError) (hq : c.quote s.view = .ok q) (hpos : 0 < q.billable_cost_toman)
      (h : subscriptionOf now s.view c.user.id = .ok (some r, some plan))
      (hv : SameTerms v r) (hw : WindowRaises now s.view c.user.id e') :
      CheckRun now c s (.error e) ⟨s.stored, putSubscription (prepared s.view c.user.id) v⟩
  | covered (q : ChatUsageQuote) (w : UserSubscription) (plan : SubscriptionPlan)
      (r : ChatUsageChargeResult) (hq : c.quote s.view = .ok q)
      (hpos : 0 < q.billable_cost_toman) (hc : Covers now s.view c.user.id w plan)
      (hr : r.ok = true) (hn : r.reason = some "tiered_subscription") :
      CheckRun now c s (.ok r)
        ⟨s.stored, putSubscription (prepared s.view c.user.id) (freshCooldown now w)⟩
  | payg (q : ChatUsageQuote) (db : Db) (r : ChatUsageChargeResult) (hq : c.quote s.view = .ok q)
      (hpos : 0 < q.billable_cost_toman) (hb : CheckLeaves now s.view c.user.id db)
      (hle : q.billable_cost_toman ≤ available (accountRow s.view c.user.id))
      (hr : r.ok = true) (hn : r.reason ≠ some "tiered_subscription") :
      CheckRun now c s (.ok r) ⟨s.stored, db⟩
  | refused (q : ChatUsageQuote) (db : Db) (r : ChatUsageChargeResult)
      (hq : c.quote s.view = .ok q) (hpos : 0 < q.billable_cost_toman)
      (hb : CheckLeaves now s.view c.user.id db)
      (hlt : available (accountRow s.view c.user.id) < q.billable_cost_toman)
      (hr : r.ok = false) : CheckRun now c s (.ok r) ⟨s.stored, db⟩

/-- The check that belongs to a charge: the same user, model and tokens. -/
def permission (now : Datetime) (c : ChatCall) : Tx ChatUsageChargeResult :=
  check_chat_usage_permission_toman now c.user c.model c.input_tokens c.output_tokens

/-- The balances can pay, or the check refuses. -/
theorem checkRun_balances {now : Datetime} {c : ChatCall} {s : Session Db} {q : ChatUsageQuote}
    {db : Db} (hq : c.quote s.view = .ok q) (hpos : 0 < q.billable_cost_toman)
    (hb : CheckLeaves now s.view c.user.id db) (yes no : ChatUsageChargeResult)
    (hy : yes.ok = true) (hn : yes.reason ≠ some "tiered_subscription") (hno : no.ok = false) :
    let x := (if q.billable_cost_toman ≤ available (accountRow s.view c.user.id) then return yes
      else return no : Tx ChatUsageChargeResult).run ⟨s.stored, db⟩
    CheckRun now c s x.1 x.2 := by
  intro x
  by_cases h : q.billable_cost_toman ≤ available (accountRow s.view c.user.id)
  · simp only [x, if_pos h]
    exact .payg q db yes hq hpos hb h hy hn
  · simp only [x, if_neg h]
    exact .refused q db no hq hpos hb (not_le.mp h) hno

theorem checkRun (now : Datetime) (c : ChatCall) (s : Session Db) :
    CheckRun now c s ((permission now c).run s).1 ((permission now c).run s).2 := by
  unfold permission check_chat_usage_permission_toman
  simp only [Prog.run_bind, run_get_or_create_billing_account, Prog.continueWith_ok,
    run_quote_chat_usage_toman, configRow_withAccount]
  cases hq : c.quote s.view with
  | error e =>
    simp only [ChatCall.quote] at hq
    rw [hq]
    exact .quote_raised e hq
  | ok q =>
    have hq' := hq
    simp only [ChatCall.quote] at hq'
    rw [hq', Prog.continueWith_ok]
    by_cases hle : q.billable_cost_toman ≤ 0
    · rw [if_pos hle]
      exact .free q _ hq hle rfl (by simp)
    · rw [if_neg hle]
      have hpos : 0 < q.billable_cost_toman := by omega
      simp only [Prog.run_bind, run_tiered_subscription, subscriptionOf_withConfig,
        subscriptionOf_withAccount]
      cases hsub : subscriptionOf now s.view c.user.id with
      | error e => exact .no_plan q e hq hpos hsub
      | ok found =>
        obtain ⟨sub, plan⟩ := found
        simp only [Prog.continueWith_ok]
        cases plan with
        | none =>
          have hb := CheckLeaves.plain sub hsub
          cases sub <;> exact checkRun_balances hq hpos hb _ _ rfl (by simp) rfl
        | some plan =>
          obtain ⟨r, rfl⟩ := subscriptionOf_some hsub
          have hr : (prepared s.view c.user.id).subscriptions.get r.id = some r :=
            get_activeRow (subscriptionOf_row hsub)
          simp only [Prog.run_bind]
          rcases run_reset_week now (s := ⟨s.stored, prepared s.view c.user.id⟩) hr with
            ⟨w, hw, hrun⟩ | ⟨e, v, he, hv, hrun⟩
          · have hgw := get_putSubscription hr (freshWeek_terms hw)
            have htc := freshCooldown_terms now w
            simp only [prepared] at hrun
            rw [hrun, Prog.continueWith_ok]
            simp only [Prog.run_bind]
            erw [run_reset_cooldown now
              ⟨s.stored, putSubscription (prepared s.view c.user.id) w⟩ hgw]
            rw [putSubscription_put _ htc]
            simp only [Prog.continueWith_ok, Prog.run_bind, run_lift, in_cooldown_freshCooldown,
              weekly_limit_hit_freshCooldown]
            have ht := htc.trans (freshWeek_terms hw)
            cases hc : in_cooldown now w plan with
            | error e =>
              cases hl : weekly_limit_hit w plan with
              | error e' =>
                exact .window_raised q r _ plan e e' hq hpos hsub ht
                  (.weekly r w plan e' hsub hw hl)
              | ok hit =>
                exact .window_raised q r _ plan e e hq hpos hsub ht
                  (.cooldown r w plan hit e hsub hw hl hc)
            | ok cooling =>
              simp only [Prog.continueWith_ok, Prog.run_bind, run_lift]
              cases hl : weekly_limit_hit w plan with
              | error e =>
                exact .window_raised q r _ plan e e hq hpos hsub ht (.weekly r w plan e hsub hw hl)
              | ok hit =>
                simp only [Prog.continueWith_ok]
                cases cooling with
                | true =>
                  exact checkRun_balances hq hpos
                    (.limited r w plan hit true hsub hw hl hc (by simp)) _ _ rfl (by simp) rfl
                | false =>
                  cases hit with
                  | true =>
                    exact checkRun_balances hq hpos
                      (.limited r w plan true false hsub hw hl hc rfl) _ _ rfl (by simp) rfl
                  | false => exact .covered q w plan _ hq hpos ⟨⟨r, hsub, hw⟩, hl, hc⟩ rfl rfl
          · simp only [prepared] at hrun
            rw [hrun]
            exact .window_raised q r v plan e e hq hpos hsub hv (.week r plan e hsub he)

end dr_boz.check_runs
