-- Law of the reasons of a refused chat charge (`charge_chat_usage_toman`). The
-- charge looks for the reason again once the balances have failed, and calls an
-- open cooldown window a reached one without a look at what was spent in it.
import DrBoz.Permission

open keyed_table unit_of_work dr_boz.py dr_boz.models dr_boz.codex_capacity dr_boz.toman_billing
open dr_boz.views dr_boz.billing_runs dr_boz.chat_runs dr_boz.check_runs dr_boz.calls

namespace dr_boz.denial_reasons

/-! ## What the reasons say -/

/-- The cooldown window is open, and its limit is spent. -/
def CooldownReached (now : Datetime) (u : UserSubscription) (plan : SubscriptionPlan) : Prop :=
  ∃ t limit, u.cooldown_ends_at = some t ∧ now < t ∧ plan.cooldown_limit_toman = some limit ∧
    limit ≤ intOr0 u.cooldown_spent_toman

/-- The plan has a weekly limit, and it is spent. -/
def WeekReached (u : UserSubscription) (plan : SubscriptionPlan) : Prop :=
  ∃ limit, plan.weekly_limit_toman = some limit ∧ 0 < limit ∧
    limit ≤ intOr0 u.weekly_spent_toman

/-- The reason of a refusal is so, and the check names the same one. -/
structure Truthful (now : Datetime) (c : ChatCall) (s : Session Db) (u : UserSubscription)
    (plan : SubscriptionPlan) (r : ChatUsageChargeResult) : Prop where
  cooldown : r.reason = some "cooldown_limit_reached" → CooldownReached now u plan
  week : r.reason = some "weekly_limit_reached" → WeekReached u plan
  checked : ∃ r', ((permission now c).run s).1 = .ok r' ∧ r'.reason = r.reason

/-- The cooldown window is open, and its limit is not spent. -/
def OpenBelowLimit (now : Datetime) (u : UserSubscription) (plan : SubscriptionPlan) : Prop :=
  ∃ t limit, u.cooldown_ends_at = some t ∧ now < t ∧ plan.cooldown_limit_toman = some limit ∧
    intOr0 u.cooldown_spent_toman < limit

/-! ## The tests on the row -/

section
variable {now : Datetime} {u w : UserSubscription} {plan : SubscriptionPlan}

/-- The reset of the week leaves the cooldown window alone. -/
theorem freshWeek_cooldown (h : freshWeek now u = .ok w) :
    w.cooldown_ends_at = u.cooldown_ends_at ∧
      w.cooldown_spent_toman = u.cooldown_spent_toman := by
  unfold freshWeek at h
  split at h
  · cases ha : addDelta now (days 7) with
    | error e =>
      rw [ha] at h
      cases h
    | ok t =>
      rw [ha] at h
      cases h
      exact ⟨rfl, rfl⟩
  · cases h
    exact ⟨rfl, rfl⟩

/-- A week that is spent after the reset was spent before. -/
theorem weekReached_of_fresh (h : freshWeek now u = .ok w) (hw : WeekReached w plan) :
    WeekReached u plan := by
  unfold freshWeek at h
  split at h
  · cases ha : addDelta now (days 7) with
    | error e =>
      rw [ha] at h
      cases h
    | ok t =>
      rw [ha] at h
      cases h
      obtain ⟨limit, -, hpos, hle⟩ := hw
      have hzero : limit ≤ 0 := hle
      omega
  · cases h
    exact hw

theorem weekReached_of_hit (h : weekly_limit_hit w plan = .ok true) : WeekReached w plan := by
  unfold weekly_limit_hit at h
  cases hlimit : plan.weekly_limit_toman with
  | none =>
    rw [hlimit] at h
    cases h
  | some limit =>
    rw [hlimit] at h
    simp only [Except.ok.injEq, Bool.and_eq_true, decide_eq_true_eq] at h
    exact ⟨limit, hlimit, h.1, h.2⟩

/-- A test that does not raise compares with the limit, or finds no open cooldown. -/
theorem in_cooldown_cases {b : Bool} (h : in_cooldown now u plan = .ok b) :
    (∃ t limit, u.cooldown_ends_at = some t ∧ now < t ∧ plan.cooldown_limit_toman = some limit ∧
      decide (limit ≤ intOr0 u.cooldown_spent_toman) = b) ∨
    (u.cooldown_ends_at.any (now < ·) = false ∧ b = false) := by
  unfold in_cooldown at h
  cases hends : u.cooldown_ends_at with
  | none =>
    rw [hends] at h
    cases h
    exact .inr ⟨rfl, rfl⟩
  | some t =>
    simp only [hends] at h
    split at h
    · rename_i hlt
      cases hlimit : plan.cooldown_limit_toman with
      | none =>
        rw [hlimit] at h
        cases h
      | some limit =>
        rw [hlimit] at h
        exact .inl ⟨t, limit, rfl, hlt, rfl, Except.ok.inj h⟩
    · rename_i hnlt
      cases h
      exact .inr ⟨by simp [hnlt], rfl⟩

theorem cooldownReached_of_test (h : in_cooldown now u plan = .ok true) :
    CooldownReached now u plan := by
  rcases in_cooldown_cases h with ⟨t, limit, hends, hlt, hlimit, hspent⟩ | ⟨-, hfalse⟩
  · exact ⟨t, limit, hends, hlt, hlimit, of_decide_eq_true hspent⟩
  · cases hfalse

/-- A window that is not spent is below its limit, or it is not open. -/
theorem below_or_closed_of_test (h : in_cooldown now u plan = .ok false) :
    OpenBelowLimit now u plan ∨ u.cooldown_ends_at.any (now < ·) = false := by
  rcases in_cooldown_cases h with ⟨t, limit, hends, hlt, hlimit, hspent⟩ | ⟨hclosed, -⟩
  · exact .inl ⟨t, limit, hends, hlt, hlimit, not_le.mp (of_decide_eq_false hspent)⟩
  · exact .inr hclosed

theorem CooldownReached.is_open (h : CooldownReached now u plan) :
    u.cooldown_ends_at.any (now < ·) = true := by
  obtain ⟨t, limit, hends, hlt, -, -⟩ := h
  simp [hends, hlt]

theorem OpenBelowLimit.is_open (h : OpenBelowLimit now u plan) :
    u.cooldown_ends_at.any (now < ·) = true := by
  obtain ⟨t, limit, hends, hlt, -, -⟩ := h
  simp [hends, hlt]

theorem not_reached_of_below (h : OpenBelowLimit now u plan) : ¬CooldownReached now u plan := by
  obtain ⟨t, limit, hends, -, hlimit, hlt⟩ := h
  rintro ⟨t', limit', -, -, hlimit', hle⟩
  rw [hlimit] at hlimit'
  cases hlimit'
  omega

theorem in_cooldown_fresh (h : freshWeek now u = .ok w) :
    in_cooldown now w plan = in_cooldown now u plan := by
  obtain ⟨hends, hspent⟩ := freshWeek_cooldown h
  unfold in_cooldown
  rw [hends, hspent]

end

/-! ## The two functions on a tiered plan -/

section
variable {now : Datetime} {c : ChatCall} {s : Session Db} {q : ChatUsageQuote}
variable {u w : UserSubscription} {plan : SubscriptionPlan} {hit cooling : Bool}

/-- What the balances of a call that they cannot pay name as the reason. -/
theorem run_refused_balances {db : Db} {reason : String}
    (hlt : available (accountRow s.view c.user.id) < q.billable_cost_toman)
    (hreason : refusal_reason now (some w) (some plan) = .ok reason) :
    ∃ r, ((charge_balances now c.user (accountRow s.view c.user.id) q (some w) (some plan)
      c.usage_event_id c.idempotency_key c.metadata c.commit).run ⟨s.stored, db⟩).1 = .ok r ∧
      r.reason = some reason := by
  simp only [charge_balances, if_pos hlt, Prog.run_bind, hreason, Prog.run_lift_ok,
    Prog.continueWith_ok, Prog.run_pure]
  exact ⟨_, rfl, rfl⟩

/-- A charge that is refused on a tiered plan. -/
structure Refused (now : Datetime) (c : ChatCall) (s : Session Db) (u : UserSubscription)
    (plan : SubscriptionPlan) (r : ChatUsageChargeResult) : Prop where
  tiered : subscriptionOf now s.view c.user.id = .ok (some u, some plan)
  answer : ((c.prog now).run s).1 = .ok r
  no : r.ok = false

/-- What a refused charge has found. -/
theorem refused_tests {r : ChatUsageChargeResult} (h : Refused now c s u plan r) :
    ∃ q w hit cooling, c.quote s.view = .ok q ∧ 0 < q.billable_cost_toman ∧
      available (accountRow s.view c.user.id) < q.billable_cost_toman ∧
      freshWeek now u = .ok w ∧ weekly_limit_hit w plan = .ok hit ∧
      in_cooldown now w plan = .ok cooling ∧ (hit || cooling) = true ∧
      ∃ reason, refusal_reason now (some w) (some plan) = .ok reason ∧
        r.reason = some reason := by
  have hx := chatRun now c s
  have hanswer := h.answer
  generalize hrun : (c.prog now).run s = y at hx hanswer
  obtain ⟨x, t⟩ := y
  have hno := h.no
  cases hx with
  | quote_raised e hq | no_plan q e hq | window_raised q r v e hq | start_raised q w plan e hq
  | conflict q db e hq => cases hanswer
  | replay q e r' hq hk hr | free q r' hq hk hle hr | covered q w v plan r' hq hk hpos hc hv hr
  | paid q db e r' hq hk hpos hb hle he ha hr =>
    cases hanswer
    rw [hr] at hno
    cases hno
  | refused q db r' hq hk hpos hb hlt hr =>
    cases hanswer
    cases hb with
    | plain r' hsub =>
      rw [h.tiered] at hsub
      cases hsub
    | limited u' w plan' hit cooling hsub hw hl hc hb =>
      rw [h.tiered] at hsub
      cases hsub
      refine ⟨q, w, hit, cooling, hq, hpos, hlt, hw, hl, hc, hb, ?_⟩
      obtain ⟨reason, hreason⟩ := refusal_reason_ok now (some w) (some plan) fun u p hu hp => by
        cases hu
        cases hp
        exact ⟨hit, hl⟩
      have hboth : ¬(!hit && !cooling) = true := by
        cases hit <;> cases cooling <;> simp_all
      have htiered := run_charge_tiered hq hk hpos h.tiered hw hl hc
      rw [if_neg hboth] at htiered
      obtain ⟨r', hr', hname⟩ := run_refused_balances (c := c) (s := s) hlt hreason
      rw [← htiered, hrun] at hr'
      cases hr'
      exact ⟨reason, hreason, hname⟩

/-- The check in a state in which the charge is refused: it names the window
that its tests have found. -/
theorem run_check_refused (hq : c.quote s.view = .ok q) (hpos : 0 < q.billable_cost_toman)
    (hlt : available (accountRow s.view c.user.id) < q.billable_cost_toman)
    (hsub : subscriptionOf now s.view c.user.id = .ok (some u, some plan))
    (hw : freshWeek now u = .ok w) (hl : weekly_limit_hit w plan = .ok hit)
    (hc : in_cooldown now w plan = .ok cooling) (hb : (hit || cooling) = true) :
    ∃ r, ((permission now c).run s).1 = .ok r ∧
      r.reason = some (if cooling then "cooldown_limit_reached" else "weekly_limit_reached") := by
  have hr : (prepared s.view c.user.id).subscriptions.get u.id = some u :=
    get_activeRow (subscriptionOf_row hsub)
  have hweek := run_reset_week_prepared (s := s) hsub hw
  have hcool := run_reset_cooldown now
    ⟨s.stored, putSubscription (prepared s.view c.user.id) w⟩
    (get_putSubscription hr (freshWeek_terms hw))
  have hno : ¬q.billable_cost_toman ≤ available (accountRow s.view c.user.id) := not_le.mpr hlt
  unfold permission check_chat_usage_permission_toman
  simp only [ChatCall.quote] at hq
  simp only [prepared] at hweek hcool
  simp only [Prog.run_bind, run_get_or_create_billing_account, Prog.continueWith_ok,
    run_quote_chat_usage_toman, configRow_withAccount, hq, if_neg (not_le.mpr hpos),
    run_tiered_subscription, subscriptionOf_withConfig, subscriptionOf_withAccount, hsub, hweek,
    hcool, run_lift, in_cooldown_freshCooldown, weekly_limit_hit_freshCooldown, hl, hc, if_neg hno]
  cases cooling with
  | true => exact ⟨_, rfl, rfl⟩
  | false =>
    cases hit with
    | true => exact ⟨_, rfl, rfl⟩
    | false => cases hb

end

/-! ## The law -/

/-- LAW: a refused charge names its reason truthfully, and as the check does,
exactly when its cooldown window is not open below the limit. -/
theorem a_denial_is_truthful_iff_no_window_is_below_its_limit (now : Datetime) (c : ChatCall)
    (s : Session Db) (u : UserSubscription) (plan : SubscriptionPlan) (r : ChatUsageChargeResult)
    (h : Refused now c s u plan r) :
    Truthful now c s u plan r ↔ ¬OpenBelowLimit now u plan := by
  obtain ⟨q, w, hit, cooling, hq, hpos, hlt, hw, hl, hc, hb, reason, hreason, hname⟩ :=
    refused_tests h
  obtain ⟨r', hcheck, htext⟩ := run_check_refused hq hpos hlt h.tiered hw hl hc hb
  have hends := (freshWeek_cooldown hw).1
  have htest := hc
  rw [in_cooldown_fresh hw] at htest
  unfold refusal_reason at hreason
  simp only [hends, hl] at hreason
  cases cooling with
  | true =>
    have hreached := cooldownReached_of_test htest
    simp only [hreached.is_open, if_true] at hreason
    cases hreason
    refine iff_of_true ⟨fun _ => hreached, fun hweek => ?_, r', hcheck, ?_⟩
      fun hbelow => not_reached_of_below hbelow hreached
    · rw [hname] at hweek
      exact absurd hweek (by decide)
    · rw [htext, hname]
      rfl
  | false =>
    have hit_true : hit = true := by simpa using hb
    subst hit_true
    rcases below_or_closed_of_test htest with hbelow | hclosed
    · -- the week is used up, and the charge names the window that is open
      simp only [hbelow.is_open, if_true] at hreason
      cases hreason
      exact iff_of_false (fun htrue => not_reached_of_below hbelow (htrue.cooldown hname))
        fun hnot => hnot hbelow
    · simp only [hclosed, Bool.false_eq_true, if_false] at hreason
      cases hreason
      have hweek : WeekReached u plan := weekReached_of_fresh hw (weekReached_of_hit hl)
      refine iff_of_true ⟨fun hcool => ?_, fun _ => hweek, r', hcheck, ?_⟩ fun hbelow => ?_
      · rw [hname] at hcool
        exact absurd hcool (by decide)
      · rw [htext, hname]
        rfl
      · rw [hbelow.is_open] at hclosed
        cases hclosed

/-- The customer has 100 toman, and a week that is used up. -/
def tired_shop (spent : Int) : Db :=
  { subscribed_shop with
    accounts := Table.empty.insert { user_id := 1, paid_balance_toman := some 100 }
    subscriptions := Table.empty.insert
      { subscription_row with
        cooldown_ends_at := some (noon + hours 1)
        cooldown_spent_toman := some spent
        week_resets_at := some (noon + days 1)
        weekly_spent_toman := some 10000 } }

theorem tired_refused (spent : Int) (r : ChatUsageChargeResult)
    (h : (((small_chat "chat").prog noon).run (.opened (tired_shop spent))).1 = .ok r)
    (hno : r.ok = false) :
    Refused noon (small_chat "chat") (.opened (tired_shop spent))
      { subscription_row with
        id := 1
        cooldown_ends_at := some (noon + hours 1)
        cooldown_spent_toman := some spent
        week_resets_at := some (noon + days 1)
        weekly_spent_toman := some 10000 } { tiered_plan with id := 1 } r :=
  ⟨by rfl, h, hno⟩

/-- The window of one hour has 10 of 1000 toman spent in it, and the week is
used up. The charge calls the window a reached one, and the check the week. -/
theorem a_window_below_its_limit_is_called_reached :
    ¬∀ (now : Datetime) (c : ChatCall) (s : Session Db) (u : UserSubscription)
      (plan : SubscriptionPlan) (r : ChatUsageChargeResult),
      Refused now c s u plan r → Truthful now c s u plan r := by
  intro hall
  obtain ⟨r, hr, hok⟩ := ok_with
    (x := (((small_chat "chat").prog noon).run (.opened (tired_shop 10))).1)
    (p := fun r => !r.ok && r.reason == some "cooldown_limit_reached") (by decide +kernel)
  simp only [Bool.and_eq_true, Bool.not_eq_true', beq_iff_eq] at hok
  obtain ⟨t, limit, -, -, hlimit, hle⟩ :=
    (hall noon _ _ _ _ r (tired_refused 10 r hr hok.1)).cooldown hok.2
  cases hlimit
  revert hle
  decide +kernel

/-- With the window used up as well, the two agree on it. -/
theorem a_spent_window_is_called_reached :
    ∃ r u plan, Refused noon (small_chat "chat") (.opened (tired_shop 1000)) u plan r ∧
      (Truthful noon (small_chat "chat") (.opened (tired_shop 1000)) u plan r ↔
        ¬OpenBelowLimit noon u plan) := by
  obtain ⟨r, hr, hok⟩ := ok_with
    (x := (((small_chat "chat").prog noon).run (.opened (tired_shop 1000))).1)
    (p := fun r => !r.ok) (by decide +kernel)
  simp only [Bool.not_eq_true'] at hok
  exact ⟨r, _, _, tired_refused 1000 r hr hok,
    a_denial_is_truthful_iff_no_window_is_below_its_limit noon (small_chat "chat") _ _ _ r
      (tired_refused 1000 r hr hok)⟩

end dr_boz.denial_reasons
