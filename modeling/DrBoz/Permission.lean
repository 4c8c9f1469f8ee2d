-- The permission check and the charge. Both decide from the same verdict on
-- the user's subscription, and they disagree only where the charge has to
-- start a window and cannot.
import DrBoz.Calls

open keyed_table unit_of_work dr_boz.py dr_boz.models dr_boz.codex_capacity dr_boz.toman_billing
open dr_boz.views dr_boz.billing_runs dr_boz.chat_runs dr_boz.check_runs dr_boz.effects
open dr_boz.calls

namespace dr_boz.permission

/-! ## The verdict -/

/-- The subscription row and the plan that cover a charge, if they do. -/
def verdict (now : Datetime) (db : Db) (u : Nat) :
    Except PyError (Option (UserSubscription × SubscriptionPlan)) := do
  match ← subscriptionOf now db u with
  | (some r, some plan) =>
    let w ← freshWeek now r
    let hit ← weekly_limit_hit w plan
    let cooling ← in_cooldown now w plan
    return if hit || cooling then none else some (w, plan)
  | _ => return none

section
variable {now : Datetime} {db d : Db} {u : Nat}

theorem verdict_tiered {r w : UserSubscription} {plan : SubscriptionPlan} {hit cooling : Bool}
    (h : subscriptionOf now db u = .ok (some r, some plan)) (hw : freshWeek now r = .ok w)
    (hl : weekly_limit_hit w plan = .ok hit) (hc : in_cooldown now w plan = .ok cooling) :
    verdict now db u = .ok (if hit || cooling then none else some (w, plan)) := by
  unfold verdict
  rw [h]
  simp only [bind, Except.bind, hw, hl, hc]
  rfl

theorem Covers.verdict {w : UserSubscription} {plan : SubscriptionPlan}
    (h : Covers now db u w plan) : verdict now db u = .ok (some (w, plan)) := by
  obtain ⟨r, hf, hw⟩ := h.found
  rw [verdict_tiered hf hw h.weekly h.cooldown]
  rfl

theorem verdict_of_left (h : LeftToBalances now db u d) : verdict now db u = .ok none := by
  cases h with
  | plain r h =>
    unfold verdict
    rw [h]
    cases r <;> rfl
  | limited r w plan hit cooling h hw hl hc hb => rw [verdict_tiered h hw hl hc, if_pos hb]

theorem verdict_of_leaves (h : CheckLeaves now db u d) : verdict now db u = .ok none := by
  cases h with
  | plain r h => exact verdict_of_left (.plain r h)
  | limited r w plan hit cooling h hw hl hc hb =>
    exact verdict_of_left (.limited r w plan _ _ h hw hl hc hb)

theorem verdict_of_raises {e : PyError} (h : WindowRaises now db u e) :
    verdict now db u = .error e := by
  unfold verdict
  cases h with
  | week r plan e h hw =>
    rw [h]
    simp only [bind, Except.bind, hw]
  | weekly r w plan e h hw hl =>
    rw [h]
    simp only [bind, Except.bind, hw, hl]
  | cooldown r w plan hit e h hw hl hc =>
    rw [h]
    simp only [bind, Except.bind, hw, hl, hc]

theorem verdict_of_no_plan {e : PyError} (h : subscriptionOf now db u = .error e) :
    verdict now db u = .error e := by
  unfold verdict
  rw [h]
  rfl

end

/-! ## What the check leaves behind -/

/-- A fresh week is not over. -/
theorem freshWeek_freshWeek {now : Datetime} {r w : UserSubscription}
    (h : freshWeek now r = .ok w) :
    freshWeek now (freshCooldown now w) = .ok (freshCooldown now w) := by
  have hw : week_over now w = false := by
    unfold freshWeek at h
    split at h
    · unfold addDelta at h
      split at h
      · cases h
        exact decide_eq_false (not_le.mpr (Int.lt_add_of_pos_right now (by decide)))
      · cases h
    · rename_i hno
      cases h
      simpa using hno
  have hsame : week_over now (freshCooldown now w) = week_over now w := by
    have : (freshCooldown now w).week_resets_at = w.week_resets_at := by
      unfold freshCooldown
      split <;> rfl
    unfold week_over
    rw [this]
  unfold freshWeek
  rw [hsame, hw]
  rfl

theorem cooldown_over_freshCooldown (now : Datetime) (w : UserSubscription) :
    cooldown_over now (freshCooldown now w) = false := by
  unfold freshCooldown
  split
  · rfl
  · rename_i h
    simpa using h

theorem freshCooldown_freshCooldown (now : Datetime) (w : UserSubscription) :
    freshCooldown now (freshCooldown now w) = freshCooldown now w := by
  have h := cooldown_over_freshCooldown now w
  generalize freshCooldown now w = v at h ⊢
  unfold freshCooldown
  rw [h]
  rfl

/-- The row that a call has rewritten is the row that the next call finds. -/
theorem subscriptionOf_put {now : Datetime} {db : Db} {u : Nat} {r v : UserSubscription}
    {p : Option SubscriptionPlan} (h : subscriptionOf now db u = .ok (some r, p))
    (hv : SameTerms v r) :
    subscriptionOf now (putSubscription (prepared db u) v) u = .ok (some v, p) := by
  have hrow := subscriptionOf_row h
  have hact := Table.first_mem hrow
  have hput : activeRow now (putSubscription (prepared db u) v) u = some v := by
    refine Table.first_put hrow hv.replaces ?_
    have h2 := hact.2
    rw [← hv.user_id, ← hv.active_at now] at h2
    exact h2
  unfold subscriptionOf at h ⊢
  rw [hrow] at h
  rw [hput]
  have hplans : (putSubscription (prepared db u) v).plans = db.plans := rfl
  simp only [hv.plan_id, hplans] at h ⊢
  cases hp : db.plans.get r.plan_id with
  | none => rw [hp] at h; cases h
  | some plan =>
    rw [hp] at h
    simp only [Except.ok.injEq, Prod.mk.injEq, true_and] at h
    simp only [h]

/-- The charge sees in `db'` what the check has seen in `db`. -/
structure Mirrors (now : Datetime) (u : Nat) (db db' : Db) : Prop where
  config : configRow db' = configRow db
  ledger : db'.ledger = db.ledger
  account : accountRow db' u = accountRow db u
  verdict_ok : ∀ x, verdict now db u = .ok x →
    verdict now db' u = .ok x ∨
      ∃ w plan, x = some (w, plan) ∧ verdict now db' u = .ok (some (freshCooldown now w, plan))
  verdict_error : ∀ e, verdict now db u = .error e → verdict now db' u = .error e

theorem Mirrors.refl (now : Datetime) (u : Nat) (db : Db) : Mirrors now u db db :=
  ⟨rfl, rfl, rfl, fun _ h => .inl h, fun _ h => h⟩

theorem Mirrors.left {now : Datetime} {u : Nat} {db db' : Db} (h : Mirrors now u db db')
    (hv : verdict now db u = .ok none) : verdict now db' u = .ok none := by
  rcases h.verdict_ok _ hv with hv' | ⟨w, plan, hx, -⟩
  · exact hv'
  · cases hx

theorem Mirrors.window {now : Datetime} {u : Nat} {db db' : Db} {w : UserSubscription}
    {plan : SubscriptionPlan} (h : Mirrors now u db db') (hc : Covers now db u w plan) :
    ∃ w', verdict now db' u = .ok (some (w', plan)) ∧
      freshCooldown now w' = freshCooldown now w := by
  rcases h.verdict_ok _ (Covers.verdict hc) with hv | ⟨w₁, plan₁, hx, hv⟩
  · exact ⟨w, hv, rfl⟩
  · cases hx
    exact ⟨_, hv, freshCooldown_freshCooldown now w⟩

/-- Prepared rows change nothing that either function reads. -/
theorem mirrors_prepared (now : Datetime) (u : Nat) (db : Db) :
    Mirrors now u db (prepared db u) where
  config := configRow_withConfig (withAccount db u)
  ledger := rfl
  account := accountRow_withAccount db u
  verdict_ok _ h := .inl h
  verdict_error _ h := h

theorem mirrors_reset {now : Datetime} {u : Nat} {db : Db} {r w : UserSubscription}
    {plan : SubscriptionPlan} {hit cooling : Bool}
    (h : subscriptionOf now db u = .ok (some r, some plan)) (hw : freshWeek now r = .ok w)
    (hl : weekly_limit_hit w plan = .ok hit) (hc : in_cooldown now w plan = .ok cooling) :
    Mirrors now u db (putSubscription (prepared db u) (freshCooldown now w)) := by
  have ht := (freshCooldown_terms now w).trans (freshWeek_terms hw)
  have h1 := verdict_tiered h hw hl hc
  have h2 := verdict_tiered (subscriptionOf_put h ht) (freshWeek_freshWeek hw)
    ((weekly_limit_hit_freshCooldown now w plan).trans hl)
    ((in_cooldown_freshCooldown now w plan).trans hc)
  refine ⟨(mirrors_prepared now u db).config, rfl, (mirrors_prepared now u db).account, ?_, ?_⟩
  · intro x hx
    rw [h1] at hx
    rw [h2]
    cases hit <;> cases cooling <;> cases hx
    · exact .inr ⟨w, plan, rfl, rfl⟩
    · exact .inl rfl
    · exact .inl rfl
    · exact .inl rfl
  · intro e he
    rw [h1] at he
    cases he

theorem mirrors_check {now : Datetime} {c : ChatCall} {s s' : Session Db}
    {r : ChatUsageChargeResult} (h : CheckRun now c s (.ok r) s') :
    Mirrors now c.user.id s.view s'.view := by
  have left : ∀ d, CheckLeaves now s.view c.user.id d → Mirrors now c.user.id s.view d := by
    intro d hd
    cases hd with
    | plain r h => exact mirrors_prepared _ _ _
    | limited r w plan hit cooling h hw hl hc hb => exact mirrors_reset h hw hl hc
  cases h with
  | free q r hq hle hr hn => exact mirrors_prepared _ _ _
  | covered q w plan r hq hpos hc hr hn =>
    obtain ⟨r', hf, hw⟩ := hc.found
    exact mirrors_reset hf hw hc.weekly hc.cooldown
  | payg q db r hq hpos hb hle hr hn => exact left db hb
  | refused q db r hq hpos hb hlt hr => exact left db hb

/-! ## The charge, by the verdict -/

/-- The call returns ok. -/
def Allowed (x : Except PyError ChatUsageChargeResult) : Prop := ∃ r, x = .ok r ∧ r.ok = true

theorem allowed_ok {r : ChatUsageChargeResult} (h : r.ok = true) : Allowed (.ok r) := ⟨r, rfl, h⟩

theorem not_allowed_error (e : PyError) : ¬Allowed (.error e) := fun ⟨_, h, _⟩ => by cases h

theorem not_allowed_refused {r : ChatUsageChargeResult} (h : r.ok = false) : ¬Allowed (.ok r) := by
  rintro ⟨r', h', hok⟩
  cases h'
  rw [h] at hok
  cases hok

/-- Both counters of the window take the cost, after the resets that are due,
and no balance is touched. -/
def AddedToWindow (now : Datetime) (db : Db) (u : Nat) (cost : Int) (db' : Db) : Prop :=
  ∃ w plan v, Covers now db u w plan ∧ openWindow now (freshCooldown now w) plan = .ok v ∧
    db'.subscriptions = db.subscriptions.put (chargedWindow v cost) ∧
    db'.accounts = (withAccount db u).accounts

/-- The two balances of the account drop by the cost together. -/
def TakenFromBalances (db : Db) (u : Nat) (cost : Int) (db' : Db) : Prop :=
  ∃ b, SameOwner b (accountRow db u) ∧ available b = available (accountRow db u) - cost ∧
    db'.accounts = (withAccount db u).accounts.put b

/-- No ledger entry has the key of the call. -/
def FreshKey (c : ChatCall) (db : Db) : Prop :=
  ∀ e ∈ db.ledger.rows, ∀ k, c.idempotency_key = some k → e.idempotency_key ≠ some k

theorem ledgerRow_fresh {c : ChatCall} {db : Db} (h : FreshKey c db) :
    ledgerRow db c.idempotency_key = none := by
  unfold ledgerRow
  split
  · rename_i ht
    cases hk : c.idempotency_key with
    | none => rw [hk] at ht; cases ht
    | some k => exact Table.first_eq_none.mpr fun e he => by simpa using h e he k hk
  · rfl

theorem accepts_fresh {c : ChatCall} {db : Db} {e : TomanLedgerEntry} (h : FreshKey c db)
    (hk : e.idempotency_key = c.idempotency_key) : db.ledger.Accepts e := by
  intro k hu x hx hxk
  exact h x hx k (hk ▸ hu) hxk

section
variable {now : Datetime} {c : ChatCall} {s s' : Session Db} {q : ChatUsageQuote}
  {x : Except PyError ChatUsageChargeResult}

theorem charge_of_quote_error {e : PyError} (hq : c.quote s.view = .error e)
    (h : ChatRun now c s x s') : ¬Allowed x := by
  cases h with
  | quote_raised e hq' => exact not_allowed_error e
  | replay q e r hq' | free q r hq' | no_plan q e hq' | window_raised q r v e hq'
  | start_raised q w plan e hq' | covered q w v plan r hq' | refused q db r hq'
  | paid q db e r hq' | conflict q db e hq' =>
    rw [hq] at hq'
    cases hq'

theorem charge_of_free (hq : c.quote s.view = .ok q) (hle : q.billable_cost_toman ≤ 0)
    (hf : FreshKey c s.view) (h : ChatRun now c s x s') :
    Allowed x ∧ TakenFromBalances s.view c.user.id q.billable_cost_toman s'.view := by
  have hzero : q.billable_cost_toman = 0 := le_antisymm hle (chat_quote_costs hq).2.1
  cases h with
  | quote_raised e hq' => rw [hq] at hq'; cases hq'
  | replay q' e r hq' hk hr => rw [ledgerRow_fresh hf] at hk; cases hk
  | free q' r hq' hk hle' hr =>
    refine ⟨allowed_ok hr, accountRow s.view c.user.id, ⟨rfl, rfl, rfl⟩, by omega, ?_⟩
    exact (Table.put_self (get_accountRow s.view c.user.id)).symm
  | no_plan q' e hq' hk hpos | window_raised q' r v e hq' hk hpos
  | start_raised q' w plan e hq' hk hpos | covered q' w v plan r hq' hk hpos
  | refused q' db r hq' hk hpos | paid q' db e r hq' hk hpos | conflict q' db e hq' hk hpos =>
    rw [hq] at hq'
    cases hq'
    omega

theorem charge_of_error {e : PyError} (hq : c.quote s.view = .ok q)
    (hpos : 0 < q.billable_cost_toman) (hf : FreshKey c s.view)
    (hv : verdict now s.view c.user.id = .error e) (h : ChatRun now c s x s') : ¬Allowed x := by
  cases h with
  | quote_raised e hq' | no_plan q' e hq' | window_raised q' r v e hq'
  | start_raised q' w plan e hq' | conflict q' db e hq' => exact not_allowed_error _
  | replay q' e r hq' hk hr => rw [ledgerRow_fresh hf] at hk; cases hk
  | free q' r hq' hk hle hr =>
    rw [hq] at hq'
    cases hq'
    omega
  | covered q' w v plan r hq' hk hp hc => rw [Covers.verdict hc] at hv; cases hv
  | refused q' db r hq' hk hp hb => rw [verdict_of_left hb] at hv; cases hv
  | paid q' db e r hq' hk hp hb => rw [verdict_of_left hb] at hv; cases hv

theorem charge_of_window {w : UserSubscription} {plan : SubscriptionPlan}
    (hq : c.quote s.view = .ok q) (hpos : 0 < q.billable_cost_toman) (hf : FreshKey c s.view)
    (hv : verdict now s.view c.user.id = .ok (some (w, plan))) (h : ChatRun now c s x s') :
    (∃ v, openWindow now (freshCooldown now w) plan = .ok v ∧ Allowed x ∧
      AddedToWindow now s.view c.user.id q.billable_cost_toman s'.view) ∨
    (∃ e, openWindow now (freshCooldown now w) plan = .error e ∧ ¬Allowed x) := by
  cases h with
  | quote_raised e hq' => rw [hq] at hq'; cases hq'
  | replay q' e r hq' hk hr => rw [ledgerRow_fresh hf] at hk; cases hk
  | free q' r hq' hk hle hr =>
    rw [hq] at hq'
    cases hq'
    omega
  | no_plan q' e hq' hk hp he => rw [verdict_of_no_plan he] at hv; cases hv
  | window_raised q' r v e hq' hk hp ha ht hw => rw [verdict_of_raises hw] at hv; cases hv
  | start_raised q' w' plan' e hq' hk hp hc he =>
    rw [Covers.verdict hc] at hv
    cases hv
    exact .inr ⟨e, he, not_allowed_error e⟩
  | covered q' w' v plan' r hq' hk hp hc ho hr =>
    rw [hq] at hq'
    cases hq'
    have hv' := Covers.verdict hc
    rw [hv'] at hv
    cases hv
    refine .inl ⟨v, ho, allowed_ok hr, _, _, v, hc, ho, ?_, ?_⟩
    · rw [Session.view_commitIf]; rfl
    · rw [Session.view_commitIf]; rfl
  | refused q' db r hq' hk hp hb => rw [verdict_of_left hb] at hv; cases hv
  | paid q' db e r hq' hk hp hb => rw [verdict_of_left hb] at hv; cases hv
  | conflict q' db e hq' hk hp hb => rw [verdict_of_left hb] at hv; cases hv

theorem charge_of_balances (hq : c.quote s.view = .ok q) (hpos : 0 < q.billable_cost_toman)
    (hf : FreshKey c s.view) (hv : verdict now s.view c.user.id = .ok none)
    (h : ChatRun now c s x s') :
    (q.billable_cost_toman ≤ available (accountRow s.view c.user.id) ∧ Allowed x ∧
      TakenFromBalances s.view c.user.id q.billable_cost_toman s'.view) ∨
    (available (accountRow s.view c.user.id) < q.billable_cost_toman ∧ ¬Allowed x) := by
  cases h with
  | quote_raised e hq' => rw [hq] at hq'; cases hq'
  | replay q' e r hq' hk hr => rw [ledgerRow_fresh hf] at hk; cases hk
  | free q' r hq' hk hle hr =>
    rw [hq] at hq'
    cases hq'
    omega
  | no_plan q' e hq' hk hp he => rw [verdict_of_no_plan he] at hv; cases hv
  | window_raised q' r v e hq' hk hp ha ht hw => rw [verdict_of_raises hw] at hv; cases hv
  | start_raised q' w' plan' e hq' hk hp hc => rw [Covers.verdict hc] at hv; cases hv
  | covered q' w' v plan' r hq' hk hp hc => rw [Covers.verdict hc] at hv; cases hv
  | refused q' db r hq' hk hp hb hlt hr =>
    rw [hq] at hq'
    cases hq'
    exact .inr ⟨hlt, not_allowed_refused hr⟩
  | paid q' db e r hq' hk hp hb hle he ha hr =>
    rw [hq] at hq'
    cases hq'
    refine .inl ⟨hle, allowed_ok hr, _, owner_spent_gift_first _ q.billable_cost_toman,
      available_spent_gift_first _ _, ?_⟩
    rw [Session.view_commitIf, post_eq, hb.frame.1]
  | conflict q' db e hq' hk hp hb hle hkey ha => exact absurd (accepts_fresh hf hkey) ha

end

/-! ## The agreement -/

/-- The funding that the check names is the funding of the charge. -/
structure SameFunding (now : Datetime) (db : Db) (u : Nat) (cost : Int) (reason : Option String)
    (db' : Db) : Prop where
  window : 0 < cost → (reason = some "tiered_subscription" ↔ AddedToWindow now db u cost db')
  balances : reason ≠ some "tiered_subscription" → TakenFromBalances db u cost db'

/-- The check in the session `s` and the charge in the session `s'` agree. -/
structure Agrees (now : Datetime) (c : ChatCall) (s s' : Session Db) : Prop where
  ok : Allowed ((permission now c).run s).1 ↔ Allowed ((c.prog now).run s').1
  funding : ∀ q r, c.quote s.view = .ok q → ((permission now c).run s).1 = .ok r →
    Allowed ((c.prog now).run s').1 →
    SameFunding now s'.view c.user.id q.billable_cost_toman r.reason ((c.prog now).run s').2.view

/-- When the window covers the charge, it is open or can be started: its
cooldown hours are set, and its end is a time that exists. -/
def WindowCanStart (now : Datetime) (c : ChatCall) (db : Db) : Prop :=
  ∀ q w plan, c.quote db = .ok q → 0 < q.billable_cost_toman → Covers now db c.user.id w plan →
    ∃ v, openWindow now (freshCooldown now w) plan = .ok v

/-- A balance that dropped by something is touched. -/
theorem taken_not_added {now : Datetime} {db db' : Db} {u : Nat} {cost : Int} (hpos : 0 < cost)
    (h : TakenFromBalances db u cost db') : ¬AddedToWindow now db u cost db' := by
  rintro ⟨w, plan, v, -, -, -, hacc⟩
  obtain ⟨b, hb, hav, hput⟩ := h
  have hget := Table.get_put_self (get_accountRow db u)
    (r := b) ⟨hb.1, congrArg some hb.2.1⟩
  rw [← hput, hacc] at hget
  change (withAccount db u).accounts.get b.id = some b at hget
  rw [hb.1, get_accountRow] at hget
  cases hget
  omega

theorem Mirrors.quote {now : Datetime} {c : ChatCall} {db db' : Db}
    (h : Mirrors now c.user.id db db') : c.quote db' = c.quote db := by
  unfold ChatCall.quote
  rw [h.config]

theorem Mirrors.fresh {now : Datetime} {c : ChatCall} {db db' : Db}
    (h : Mirrors now c.user.id db db') (hf : FreshKey c db) : FreshKey c db' := by
  unfold FreshKey
  rw [h.ledger]
  exact hf

/-- The check lets a covered charge pass. -/
theorem check_of_window {now : Datetime} {c : ChatCall} {s s' : Session Db} {q : ChatUsageQuote}
    {w : UserSubscription} {plan : SubscriptionPlan} {x : Except PyError ChatUsageChargeResult}
    (hq : c.quote s.view = .ok q) (hc : Covers now s.view c.user.id w plan)
    (h : CheckRun now c s x s') : Allowed x := by
  have hv := Covers.verdict hc
  cases h with
  | quote_raised e hq' => rw [hq] at hq'; cases hq'
  | free q' r hq' hle hr hn => exact allowed_ok hr
  | no_plan q' e hq' hpos h => rw [verdict_of_no_plan h] at hv; cases hv
  | window_raised q' r v plan e e' hq' hpos h ht hw => rw [verdict_of_raises hw] at hv; cases hv
  | covered q' w plan r hq' hpos hc hr hn => exact allowed_ok hr
  | payg q' db r hq' hpos hb hle hr hn => exact allowed_ok hr
  | refused q' db r hq' hpos hb hlt hr => rw [verdict_of_leaves hb] at hv; cases hv

section
variable {now : Datetime} {c : ChatCall} {s s' : Session Db}

/-- The charge answers as the check does. -/
theorem ok_of_mirrors (hm : Mirrors now c.user.id s.view s'.view) (hf : FreshKey c s.view)
    (hw : WindowCanStart now c s.view) :
    Allowed ((permission now c).run s).1 ↔ Allowed ((c.prog now).run s').1 := by
  have hf' : FreshKey c s'.view := hm.fresh hf
  have hcheck := checkRun now c s
  have hcharge := chatRun now c s'
  generalize (permission now c).run s = y at hcheck ⊢
  obtain ⟨y, t⟩ := y
  cases hcheck with
  | quote_raised e hq =>
    exact iff_of_false (not_allowed_error e) (charge_of_quote_error (hm.quote.trans hq) hcharge)
  | free q r hq hle hr hn =>
    exact iff_of_true (allowed_ok hr) (charge_of_free (hm.quote.trans hq) hle hf' hcharge).1
  | no_plan q e hq hpos h =>
    exact iff_of_false (not_allowed_error e) (charge_of_error (hm.quote.trans hq) hpos hf'
      (hm.verdict_error e (verdict_of_no_plan h)) hcharge)
  | window_raised q r v plan e e' hq hpos h hv hr =>
    exact iff_of_false (not_allowed_error e) (charge_of_error (hm.quote.trans hq) hpos hf'
      (hm.verdict_error e' (verdict_of_raises hr)) hcharge)
  | covered q w plan r hq hpos hc hr hn =>
    refine iff_of_true (allowed_ok hr) ?_
    obtain ⟨v, hv⟩ := hw q w plan hq hpos hc
    obtain ⟨w', h, hfresh⟩ := hm.window hc
    rcases charge_of_window (hm.quote.trans hq) hpos hf' h hcharge with ⟨_, _, ha, _⟩ | ⟨e, he, _⟩
    · exact ha
    · rw [hfresh, hv] at he
      cases he
  | payg q db r hq hpos hb hle hr hn =>
    refine iff_of_true (allowed_ok hr) ?_
    have h := hm.left (verdict_of_leaves hb)
    rcases charge_of_balances (hm.quote.trans hq) hpos hf' h hcharge with ⟨_, ha, _⟩ | ⟨hlt, _⟩
    · exact ha
    · rw [hm.account] at hlt
      omega
  | refused q db r hq hpos hb hlt hr =>
    refine iff_of_false (not_allowed_refused hr) ?_
    have h := hm.left (verdict_of_leaves hb)
    rcases charge_of_balances (hm.quote.trans hq) hpos hf' h hcharge with ⟨hle, _⟩ | ⟨_, hna⟩
    · rw [hm.account] at hle
      omega
    · exact hna

/-- The charge takes the cost from where the check has found it. -/
theorem funding_of_mirrors (hm : Mirrors now c.user.id s.view s'.view) (hf : FreshKey c s.view)
    {q : ChatUsageQuote} {r : ChatUsageChargeResult} (hq : c.quote s.view = .ok q)
    (hr : ((permission now c).run s).1 = .ok r) (hallowed : Allowed ((c.prog now).run s').1) :
    SameFunding now s'.view c.user.id q.billable_cost_toman r.reason
      ((c.prog now).run s').2.view := by
  have hf' : FreshKey c s'.view := hm.fresh hf
  have hcheck := checkRun now c s
  have hcharge := chatRun now c s'
  rw [hr] at hcheck
  generalize ((permission now c).run s).2 = t at hcheck
  cases hcheck with
  | free q' r hq' hle hr hn =>
    rw [hq] at hq'
    cases hq'
    exact ⟨fun hpos => absurd hpos (not_lt.mpr hle),
      fun _ => (charge_of_free (hm.quote.trans hq) hle hf' hcharge).2⟩
  | covered q' w plan r hq' hpos hc hr hn =>
    rw [hq] at hq'
    cases hq'
    refine ⟨fun _ => iff_of_true hn ?_, fun h => absurd hn h⟩
    obtain ⟨w', h, -⟩ := hm.window hc
    rcases charge_of_window (hm.quote.trans hq) hpos hf' h hcharge with ⟨_, _, _, ha⟩ | ⟨_, _, hna⟩
    · exact ha
    · exact absurd hallowed hna
  | payg q' db r hq' hpos hb hle hr hn =>
    rw [hq] at hq'
    cases hq'
    have h := hm.left (verdict_of_leaves hb)
    rcases charge_of_balances (hm.quote.trans hq) hpos hf' h hcharge with ⟨_, _, ht⟩ | ⟨_, hna⟩
    · exact ⟨fun _ => iff_of_false hn (taken_not_added hpos ht), fun _ => ht⟩
    · exact absurd hallowed hna
  | refused q' db r hq' hpos hb hlt hr =>
    rw [hq] at hq'
    cases hq'
    have h := hm.left (verdict_of_leaves hb)
    rcases charge_of_balances (hm.quote.trans hq) hpos hf' h hcharge with ⟨hle, _⟩ | ⟨_, hna⟩
    · rw [hm.account] at hle
      omega
    · exact absurd hallowed hna

theorem agrees_of_mirrors (hm : Mirrors now c.user.id s.view s'.view) (hf : FreshKey c s.view)
    (hw : WindowCanStart now c s.view) : Agrees now c s s' where
  ok := ok_of_mirrors hm hf hw
  funding _ _ hq hr hallowed := funding_of_mirrors hm hf hq hr hallowed

end

/-- LAW: in one state, and after a check that did not raise, the check and the
charge agree exactly when a window that covers the charge can start. -/
theorem check_and_charge_agree_iff_the_window_can_start (now : Datetime) (c : ChatCall)
    (s s' : Session Db) (hf : FreshKey c s.view)
    (hs : s' = s ∨ s' = ((permission now c).run s).2 ∧
      ∃ r, ((permission now c).run s).1 = .ok r) :
    Agrees now c s s' ↔ WindowCanStart now c s.view := by
  have hm : Mirrors now c.user.id s.view s'.view := by
    rcases hs with rfl | ⟨rfl, r, hr⟩
    · exact Mirrors.refl _ _ _
    · have hcheck := checkRun now c s
      rw [hr] at hcheck
      exact mirrors_check hcheck
  constructor
  · intro h q w plan hq hpos hc
    have hcheck := checkRun now c s
    have hcharge := chatRun now c s'
    obtain ⟨w', hv, hfresh⟩ := hm.window hc
    have hallowed := h.ok.mp (check_of_window hq hc hcheck)
    rcases charge_of_window (hm.quote.trans hq) hpos (hm.fresh hf) hv hcharge with
      ⟨v, ho, _⟩ | ⟨e, _, hna⟩
    · exact ⟨v, hfresh ▸ ho⟩
    · exact absurd hallowed hna
  · exact agrees_of_mirrors hm hf

/-- A shop whose plan has no cooldown hours, and whose window is closed. -/
def shop_without_hours : Db :=
  { subscribed_shop with
    plans := Table.empty.insert { tiered_plan with cooldown_hours := none } }

/-- The check promises the window, and the charge raises when it starts it. -/
theorem check_promises_a_window_that_cannot_start :
    ¬Agrees noon (small_chat "chat") (.opened shop_without_hours)
      (.opened shop_without_hours) := by
  intro h
  obtain ⟨r, hr, hok⟩ := ok_with
    (x := (permission noon (small_chat "chat")).run (.opened shop_without_hours) |>.1)
    (p := fun r => r.ok) (by decide +kernel)
  obtain ⟨r', hr', -⟩ := h.ok.mp ⟨r, hr, hok⟩
  have hraise : ((((small_chat "chat").prog noon).run (.opened shop_without_hours)).1.toOption
      ).isSome = true := by rw [hr']; rfl
  revert hraise
  decide +kernel

/-- With five hours the two agree. -/
theorem check_and_charge_agree_in_the_shop :
    Agrees noon (small_chat "chat") (.opened subscribed_shop) (.opened subscribed_shop) ↔
      WindowCanStart noon (small_chat "chat") subscribed_shop :=
  check_and_charge_agree_iff_the_window_can_start noon (small_chat "chat")
    (.opened subscribed_shop) (.opened subscribed_shop) (fun _ he => absurd he List.not_mem_nil)
    (.inl rfl)

end dr_boz.permission
