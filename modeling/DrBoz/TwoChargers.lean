-- Two services charge the same account for a chat. The bot takes a covered
-- charge on the window only. Open WebUI takes it on the window and on the
-- balances as well, and it opens windows by rules of its own.
import DrBoz.Calls
import DrBoz.Spending

open keyed_table unit_of_work dr_boz.py dr_boz.models dr_boz.codex_capacity dr_boz.toman_billing
open dr_boz.views dr_boz.billing_runs dr_boz.chat_runs dr_boz.calls dr_boz.spending

namespace dr_boz.two_chargers

/-! ## The timers of a row -/

/-- The time exists. -/
def InTime (now : Datetime) (d : Int) : Prop := ∃ t, addDelta now d = .ok t

/-- No window is open: none was set, or it has ended. -/
def closed (now : Datetime) (r : UserSubscription) : Bool := r.cooldown_ends_at.all (· ≤ now)

/-- The bot starts the counter of the window again: it has ended, or none was
set and the plan has hours for a new one. -/
def restarts (now : Datetime) (r : UserSubscription) (plan : SubscriptionPlan) : Bool :=
  cooldown_over now r || (r.cooldown_ends_at.isNone && plan.cooldown_hours.any (0 < ·))

/-- The bot finds or opens a window, or sees that the plan has none. -/
def BotStarts (now : Datetime) (r : UserSubscription) (plan : SubscriptionPlan) : Prop :=
  closed now r = true → ∃ h, plan.cooldown_hours = some h ∧ (0 < h → InTime now (hours h))

/-- Open WebUI sets the timers that it has to set. -/
def WebStarts (now : Datetime) (p : UserSubscription) (plan : Option SubscriptionPlan) : Prop :=
  (week_over now p = true → InTime now (days 7)) ∧
    (closed now p = true → InTime now (hours (cooldown_hours_of plan)))

def counters (r : UserSubscription) : Int × Int :=
  (intOr0 r.cooldown_spent_toman, intOr0 r.weekly_spent_toman)

/-! ## The window of the bot -/

section
variable {now : Datetime} {r p w v : UserSubscription} {plan : SubscriptionPlan}

theorem closed_cases (now : Datetime) (r : UserSubscription) :
    (r.cooldown_ends_at = none ∧ closed now r = true ∧ cooldown_over now r = false) ∨
    (∃ t, r.cooldown_ends_at = some t ∧ t ≤ now ∧ closed now r = true ∧
      cooldown_over now r = true) ∨
    (∃ t, r.cooldown_ends_at = some t ∧ ¬t ≤ now ∧ closed now r = false ∧
      cooldown_over now r = false) := by
  unfold closed cooldown_over
  cases r.cooldown_ends_at with
  | none => exact .inl ⟨rfl, rfl, rfl⟩
  | some t =>
    by_cases h : t ≤ now
    · exact .inr (.inl ⟨t, rfl, h, by simp [h], by simp [h]⟩)
    · exact .inr (.inr ⟨t, rfl, h, by simp [h], by simp [h]⟩)

/-- A fresh week leaves the window alone. -/
theorem freshWeek_counters (h : freshWeek now r = .ok w) :
    w.cooldown_ends_at = r.cooldown_ends_at ∧
      counters w = (intOr0 r.cooldown_spent_toman,
        if week_over now r then 0 else intOr0 r.weekly_spent_toman) := by
  unfold freshWeek at h
  split at h
  · rename_i hover
    cases ha : addDelta now (days 7) with
    | error e => rw [ha] at h; cases h
    | ok t =>
      rw [ha] at h
      cases h
      exact ⟨rfl, by rw [if_pos hover]; rfl⟩
  · rename_i hover
    cases h
    exact ⟨rfl, by rw [if_neg hover]; rfl⟩

theorem bot_window (plan : SubscriptionPlan) (hw : freshWeek now r = .ok w) :
    ((∃ v, openWindow now (freshCooldown now w) plan = .ok v) ↔ BotStarts now r plan) ∧
    ∀ v, openWindow now (freshCooldown now w) plan = .ok v →
      counters v = (if restarts now r plan then 0 else intOr0 r.cooldown_spent_toman,
        if week_over now r then 0 else intOr0 r.weekly_spent_toman) := by
  obtain ⟨hends, hcount⟩ := freshWeek_counters hw
  have hover : cooldown_over now w = cooldown_over now r := by
    unfold cooldown_over
    rw [hends]
  have hweek : intOr0 w.weekly_spent_toman =
      if week_over now r then 0 else intOr0 r.weekly_spent_toman := congrArg Prod.snd hcount
  have hspent : intOr0 w.cooldown_spent_toman = intOr0 r.cooldown_spent_toman :=
    congrArg Prod.fst hcount
  -- a window is started when none is left after the reset
  have hstart : ∀ x : UserSubscription, x.cooldown_ends_at = none → closed now r = true →
      ((∃ v, openWindow now x plan = .ok v) ↔ BotStarts now r plan) ∧
      ∀ v, openWindow now x plan = .ok v →
        counters v = (if plan.cooldown_hours.any (0 < ·) then 0 else intOr0 x.cooldown_spent_toman,
          intOr0 x.weekly_spent_toman) := by
    intro x hx hclosed
    unfold openWindow BotStarts InTime
    rw [hx]
    cases plan.cooldown_hours with
    | none => simp [hclosed]
    | some h =>
      by_cases hpos : 0 < h
      · cases ha : addDelta now (hours h) with
        | error e => simp [hclosed, hpos, ha, Except.map]
        | ok t =>
          simp only [hpos, if_true, ha, Except.map, Option.any_some, decide_true]
          refine ⟨iff_of_true ⟨_, rfl⟩ fun _ => ⟨h, rfl, fun _ => ⟨t, ha⟩⟩, fun v hv => ?_⟩
          cases hv
          rfl
      · simp only [hpos, if_false, Option.any_some, decide_false]
        refine ⟨iff_of_true ⟨_, rfl⟩ fun _ => ⟨h, rfl, fun hp => absurd hp hpos⟩, fun v hv => ?_⟩
        cases hv
        rfl
  unfold freshCooldown restarts
  rw [hover]
  rcases closed_cases now r with ⟨h1, h2, h3⟩ | ⟨t, h1, -, h2, h3⟩ | ⟨t, h1, -, h2, h3⟩
  · obtain ⟨hiff, hcounters⟩ := hstart w (hends.trans h1) h2
    rw [h3, h1]
    refine ⟨hiff, fun v hv => ?_⟩
    rw [hcounters v hv, hspent, hweek]
    rfl
  · obtain ⟨hiff, hcounters⟩ := hstart
      { w with cooldown_spent_toman := some 0, cooldown_ends_at := none } rfl h2
    rw [h3]
    refine ⟨hiff, fun v hv => ?_⟩
    rw [hcounters v hv]
    simp only [Bool.true_or, if_true, hweek]
    simp [intOr0]
  · have hopen : openWindow now w plan = .ok w := by
      unfold openWindow
      rw [hends, h1]
    simp only [h3, Bool.false_eq_true, if_false, hopen]
    refine ⟨iff_of_true ⟨_, rfl⟩ fun hc => ?_, fun v hv => ?_⟩
    · rw [h2] at hc
      cases hc
    · cases hv
      rw [h1]
      simp only [Option.isNone_some, Bool.false_and, Bool.or_self, Bool.false_eq_true, if_false]
      rw [← hspent, ← hweek]
      rfl

/-! ## The window of Open WebUI -/

theorem expire_cooldown_eq (now : Datetime) (p : UserSubscription) :
    SameTerms (expire_cooldown now p) p ∧
      (expire_cooldown now p).week_resets_at = p.week_resets_at ∧
      (expire_cooldown now p).weekly_spent_toman = p.weekly_spent_toman ∧
      ((expire_cooldown now p).cooldown_ends_at = none ↔ closed now p = true) ∧
      (closed now p = false →
        (expire_cooldown now p).cooldown_spent_toman = p.cooldown_spent_toman) := by
  unfold expire_cooldown closed
  cases h : p.cooldown_ends_at with
  | none => simp [h, SameTerms.refl]
  | some t =>
    by_cases ht : t ≤ now
    · simp only [Option.any_some, ht, decide_true, if_true, Option.all_some]
      exact ⟨⟨rfl, rfl, rfl, rfl, rfl, rfl, rfl⟩, trivial, trivial, by simp, by simp⟩
    · simp [h, ht, SameTerms.refl]

theorem expire_week_eq (now : Datetime) {x : UserSubscription}
    (hx : x.week_resets_at = p.week_resets_at)
    (hs : x.weekly_spent_toman = p.weekly_spent_toman) :
    ((∃ y, expire_week now x = .ok y) ↔
      (p.week_resets_at ≠ none → week_over now p = true → InTime now (days 7))) ∧
    ∀ y, expire_week now x = .ok y → SameTerms y x ∧
      y.cooldown_ends_at = x.cooldown_ends_at ∧ y.cooldown_spent_toman = x.cooldown_spent_toman ∧
      (y.week_resets_at = none ↔ p.week_resets_at = none) ∧
      intOr0 y.weekly_spent_toman =
        if p.week_resets_at ≠ none ∧ week_over now p = true then 0
        else intOr0 p.weekly_spent_toman := by
  unfold expire_week week_over InTime
  rw [hx]
  cases h : p.week_resets_at with
  | none =>
    simp only [Option.any_none, Bool.false_eq_true, if_false]
    refine ⟨by simp, fun y hy => ?_⟩
    cases hy
    exact ⟨.refl x, rfl, rfl, by simp [hx, h], by simp [hs]⟩
  | some t =>
    by_cases ht : t ≤ now
    · cases ha : addDelta now (days 7) with
      | error e => simp [ht, Except.map]
      | ok e =>
        simp only [Option.any_some, ht, decide_true, if_true, Except.map]
        refine ⟨by simp, fun y hy => ?_⟩
        cases hy
        exact ⟨⟨rfl, rfl, rfl, rfl, rfl, rfl, rfl⟩, rfl, rfl, by simp, by simp [intOr0]⟩
    · simp only [Option.any_some, ht, decide_false, Bool.false_eq_true, if_false]
      refine ⟨by simp, fun y hy => ?_⟩
      cases hy
      exact ⟨.refl x, rfl, rfl, by simp [hx, h], by simp [hs]⟩

/-- The second timer of `start_timers`. -/
def start_week (now : Datetime) (x : UserSubscription) : Except PyError UserSubscription :=
  match x.week_resets_at with
  | some _ => .ok x
  | none => (addDelta now (days 7)).map fun t =>
    { x with week_resets_at := some t, weekly_spent_toman := some 0 }

/-- A timer that is not set is started, and its counter with it. -/
theorem start_timers_eq (now : Datetime) (y : UserSubscription) (hrs : Int) :
    ((∃ v, start_timers now hrs y = .ok v) ↔
      (y.cooldown_ends_at = none → InTime now (hours hrs)) ∧
        (y.week_resets_at = none → InTime now (days 7))) ∧
    ∀ v, start_timers now hrs y = .ok v → SameTerms v y ∧
      counters v =
        (if y.cooldown_ends_at = none then 0 else intOr0 y.cooldown_spent_toman,
          if y.week_resets_at = none then 0 else intOr0 y.weekly_spent_toman) := by
  -- the second timer, once the first one is set
  have hweek : ∀ x : UserSubscription, x.week_resets_at = y.week_resets_at →
      x.weekly_spent_toman = y.weekly_spent_toman → SameTerms x y →
      ((∃ v, start_week now x = .ok v) ↔ (y.week_resets_at = none → InTime now (days 7))) ∧
      ∀ v, start_week now x = .ok v → SameTerms v y ∧
        counters v = (intOr0 x.cooldown_spent_toman,
          if y.week_resets_at = none then 0 else intOr0 y.weekly_spent_toman) := by
    intro x hx hs hterms
    simp only [start_week, hx, InTime]
    cases hw : y.week_resets_at with
    | some t =>
      refine ⟨by simp, fun v hv => ?_⟩
      cases hv
      exact ⟨hterms, by simp [counters, hs]⟩
    | none =>
      cases ha : addDelta now (days 7) with
      | error e => simp [Except.map]
      | ok t =>
        simp only [Except.map]
        refine ⟨by simp, fun v hv => ?_⟩
        cases hv
        refine ⟨SameTerms.trans (v := x) ⟨rfl, rfl, rfl, rfl, rfl, rfl, rfl⟩ hterms, ?_⟩
        simp [counters, intOr0]
  unfold start_timers
  cases hc : y.cooldown_ends_at with
  | some t =>
    obtain ⟨h1, h2⟩ := hweek y rfl rfl (.refl y)
    simp only [reduceCtorEq, false_implies, true_and, if_false]
    exact ⟨h1, h2⟩
  | none =>
    cases ha : addDelta now (hours hrs) with
    | error e =>
      simp only [InTime, ha, Except.map]
      constructor
      · constructor
        · rintro ⟨v, hv⟩
          cases hv
        · intro h
          obtain ⟨t, ht⟩ := h.1 trivial
          cases ht
      · intro v hv
        cases hv
    | ok t =>
      obtain ⟨h1, h2⟩ := hweek { y with cooldown_ends_at := some t, cooldown_spent_toman := some 0 }
        rfl rfl ⟨rfl, rfl, rfl, rfl, rfl, rfl, rfl⟩
      have hin : InTime now (hours hrs) := ⟨t, ha⟩
      simp only [hin, implies_true, true_and, if_true, Except.map]
      exact ⟨h1, h2⟩

/-- The row with its timers set. -/
theorem web_window (now : Datetime) (p : UserSubscription) (plan : Option SubscriptionPlan) :
    ((∃ v, timed now p plan = .ok v) ↔ WebStarts now p plan) ∧
    ∀ v, timed now p plan = .ok v → SameTerms v p ∧
      counters v = (if closed now p then 0 else intOr0 p.cooldown_spent_toman,
        if week_over now p then 0 else intOr0 p.weekly_spent_toman) := by
  obtain ⟨hterms, hw, hs, hends, hspent⟩ := expire_cooldown_eq now p
  obtain ⟨hiff, hy⟩ := expire_week_eq now hw hs
  have hnone : p.week_resets_at = none → week_over now p = true := by
    intro h
    unfold week_over
    rw [h]
  unfold timed WebStarts
  cases hx : expire_week now (expire_cooldown now p) with
  | error e =>
    have hno : ¬(p.week_resets_at ≠ none → week_over now p = true → InTime now (days 7)) := by
      rw [← hiff, hx]
      rintro ⟨y, h⟩
      cases h
    refine ⟨iff_of_false ?_ fun h => hno fun _ => h.1, ?_⟩
    · rintro ⟨v, h⟩
      cases h
    · intro v h
      cases h
  | ok y =>
    obtain ⟨ht, hc, hcs, hwn, hws⟩ := hy y hx
    obtain ⟨hstart, hv⟩ := start_timers_eq now y (cooldown_hours_of plan)
    have hwk : p.week_resets_at ≠ none → week_over now p = true → InTime now (days 7) :=
      hiff.mp ⟨y, hx⟩
    change ((∃ v, start_timers now (cooldown_hours_of plan) y = .ok v) ↔ _) ∧
      ∀ v, start_timers now (cooldown_hours_of plan) y = .ok v → _
    refine ⟨?_, fun v h => ?_⟩
    · rw [hstart, hc, hends, hwn]
      constructor
      · rintro ⟨h1, h2⟩
        refine ⟨fun hover => ?_, h1⟩
        by_cases hn : p.week_resets_at = none
        · exact h2 hn
        · exact hwk hn hover
      · rintro ⟨h1, h2⟩
        exact ⟨h2, fun hn => h1 (hnone hn)⟩
    · obtain ⟨hvt, hcount⟩ := hv v h
      refine ⟨hvt.trans (ht.trans hterms), ?_⟩
      rw [hcount, hc, hcs, hws]
      refine Prod.ext ?_ ?_
      · simp only [hends]
        by_cases hcl : closed now p = true
        · simp [hcl]
        · rw [hspent (by simpa using hcl)]
      · simp only [hwn]
        by_cases hn : p.week_resets_at = none
        · simp [hn, hnone hn]
        · simp [hn]

/-! ## What the two services leave -/

/-- The charge of the bot in a session of its own. -/
def by_bot (now : Datetime) (c : ChatCall) (db : Db) : Db :=
  (((Call.chat c).committed now).run (.opened db)).2.stored

theorem bot_leaves {db : Db} {c : ChatCall} {q : ChatUsageQuote} (hq : c.quote db = .ok q)
    (hpos : 0 < q.billable_cost_toman) (hk : ledgerRow db c.idempotency_key = none)
    (hc : Covers now db c.user.id w plan) :
    by_bot now c db =
      match openWindow now (freshCooldown now w) plan with
      | .error _ => db
      | .ok v =>
        putSubscription (prepared db c.user.id) (chargedWindow v q.billable_cost_toman) := by
  have hrun := chatRun now c (.opened db)
  unfold by_bot Call.committed Call.prog calls.discard
  simp only [Prog.run_bind]
  generalize (c.prog now).run (.opened db) = y at hrun ⊢
  obtain ⟨res, s'⟩ := y
  cases hrun with
  | quote_raised e hq' =>
    rw [show c.quote db = .error e from hq'] at hq
    cases hq
  | replay q' e res hq' hk' hr =>
    rw [show ledgerRow db c.idempotency_key = some e from hk'] at hk
    cases hk
  | free q' res hq' hk' hle hr =>
    rw [show c.quote db = .ok q' from hq'] at hq
    cases hq
    omega
  | no_plan q' e hq' hk' hp h =>
    obtain ⟨r', hf, -⟩ := hc.found
    rw [show subscriptionOf now db c.user.id = .error e from h] at hf
    cases hf
  | window_raised q' r' v e hq' hk' hp ha hv hw => exact absurd hw hc.not_raises
  | refused q' db' res hq' hk' hp hb hlt hr => exact absurd hb hc.not_left
  | paid q' db' e res hq' hk' hp hb hle he ha hr => exact absurd hb hc.not_left
  | conflict q' db' e hq' hk' hp hb hle hkey ha => exact absurd hb hc.not_left
  | start_raised q' w' plan' e hq' hk' hp hc' he =>
    obtain ⟨rfl, rfl⟩ := hc.unique hc'
    rw [he]
    rfl
  | covered q' w' v plan' res hq' hk' hp hc' hv hr =>
    obtain ⟨rfl, rfl⟩ := hc.unique hc'
    rw [show c.quote db = .ok q' from hq'] at hq
    cases hq
    rw [hv]
    simp only [Prog.continueWith_ok, Prog.run_pure, Prog.run_publishIf]
    exact Session.stored_commitIf_or_caller c.commit _

/-- The account of a user, or the one that a message adds. -/
def billingRow (db : Db) (u : Nat) : UserBillingAccount :=
  (db.accounts.first fun a => a.user_id = u).getD
    { id := db.accounts.nextKey, user_id := u, currency := some "IRR" }

def withBilling (db : Db) (u : Nat) : Db :=
  { db with accounts :=
      match db.accounts.first fun a => a.user_id = u with
      | some _ => db.accounts
      | none => db.accounts.insert { user_id := u, currency := some "IRR" } }

theorem first_withBilling (db : Db) (u : Nat) :
    ((withBilling db u).accounts.first fun a => a.user_id = u) = some (billingRow db u) := by
  unfold withBilling billingRow
  cases h : db.accounts.first fun a => a.user_id = u with
  | some a => simpa using h
  | none =>
    have hacc := accepts_account h
    exact Table.first_insert_none (a := { user_id := u, currency := some "IRR" }) hacc h
      (by simp [Row.setKey])

theorem run_get_billing_account (u : Nat) (s : Session Db) :
    (get_billing_account u).run s =
      (.ok (billingRow s.view u), ⟨s.stored, withBilling s.view u⟩) := by
  unfold get_billing_account billingRow withBilling
  simp only [Prog.run_bind, Prog.run_read, Prog.continueWith_ok]
  cases h : s.view.accounts.first fun a => a.user_id = u with
  | some a => rfl
  | none =>
    have hok : s.view.admits (.addAccount { user_id := u, currency := some "IRR" }) = true :=
      decide_eq_true (accepts_account h)
    simp only [Prog.run_bind, Prog.run_read, Prog.continueWith_ok, Prog.run_flush, store_admits,
      hok, if_true, Prog.run_pure]
    rfl

/-- The message is charged by Open WebUI in a session of its own. -/
structure WebCall where
  era_tracking_id : Int
  model_id : Option String
  usage : Dict
  message_id : String

def by_web (now : Datetime) (m : WebCall) (cost : Int) (db : Db) : Db :=
  ((record_spending_from_message now m.era_tracking_id cost m.model_id m.usage m.message_id).run
    (.opened db)).2.stored

/-- The books after a message was charged to the row `p`, whose timers make it `v`. -/
def recordedIn (db : Db) (m : WebCall) (u : Nat) (v : UserSubscription) (cost : Int) : Db :=
  post (withBilling (putSubscription db (spent_on v cost)) u) (deducted (billingRow db u) cost)
    [message_entry u (billingRow db u) (deducted (billingRow db u) cost) cost m.model_id m.usage
      m.message_id]

theorem get_latest {db : Db} {u : Nat} (hp : latest_active now u db = some p) :
    db.subscriptions.get p.id = some p :=
  (Table.get_eq_some _).mpr ⟨(List.mem_filter.mp (List.argmax_mem hp)).1, rfl⟩

theorem web_leaves {db : Db} {m : WebCall} {u : Nat} {cost : Int}
    (hu : (db.users.first fun x => x.telegram_user_id = some m.era_tracking_id).map (·.id) = some u)
    (hpos : 0 < cost) (hm : ∀ e ∈ db.ledger.rows, e.idempotency_key ≠ message_key m.message_id)
    (hp : latest_active now u db = some p) :
    by_web now m cost db =
      match timed now p (db.plans.get p.plan_id) with
      | .error _ => db
      | .ok v => recordedIn db m u v cost := by
  have hfree : (db.ledger.first fun e => e.idempotency_key = message_key m.message_id) = none :=
    Table.first_eq_none.mpr fun e he => by simpa using hm e he
  have hle : ¬cost ≤ 0 := by omega
  unfold by_web record_spending_from_message find_era_user_id ledger_exists get_active_sub
  simp only [hle, if_false, Prog.run_bind, Prog.run_read, Prog.continueWith_ok, Prog.run_pure,
    Session.opened, hu, hfree, Option.isSome_none, Bool.false_eq_true, hp]
  unfold record_on_subscription
  simp only [Prog.run_bind, run_lift]
  cases hv : timed now p (db.plans.get p.plan_id) with
  | error e => rfl
  | ok v =>
    obtain ⟨hterms, -⟩ := (web_window now p (db.plans.get p.plan_id)).2 v hv
    have ht : SameTerms (spent_on v cost) p :=
      SameTerms.trans (v := v) ⟨rfl, rfl, rfl, rfl, rfl, rfl, rfl⟩ hterms
    have hget : (withBilling (putSubscription db (spent_on v cost)) u).accounts.get
        (billingRow db u).id = some (billingRow db u) :=
      (Table.get_eq_some _).mpr ⟨(Table.first_mem (first_withBilling db u)).1, rfl⟩
    have hflush := run_flush_terms (s := ⟨db, db⟩) (get_latest hp) ht
    have hacc := run_flush_account
      (s := ⟨db, withBilling (putSubscription db (spent_on v cost)) u⟩)
      (b := deducted (billingRow db u) cost) hget ⟨rfl, rfl, rfl⟩
    have hledger : db.admits (.addLedger (message_entry u (billingRow db u)
        (deducted (billingRow db u) cost) cost m.model_id m.usage m.message_id)) = true := by
      refine decide_eq_true fun k hk e he => ?_
      change message_key m.message_id = some k at hk
      rw [← hk]
      exact hm e he
    simp only [Prog.continueWith_ok, hflush, run_get_billing_account, Prog.run_bind]
    erw [hacc]
    simp only [Prog.continueWith_ok, Prog.run_flush, Prog.run_bind]
    erw [if_pos hledger]
    rfl

/-! ## One bill -/

/-- Two databases have the same counters on every subscription, and the same
balances for the user. -/
structure SameBill (u : Nat) (a b : Db) : Prop where
  counters : ∀ id, (a.subscriptions.get id).map counters = (b.subscriptions.get id).map counters
  gift : intOr0 (accountRow a u).gift_balance_toman = intOr0 (accountRow b u).gift_balance_toman
  paid : intOr0 (accountRow a u).paid_balance_toman = intOr0 (accountRow b u).paid_balance_toman

/-- The balances have nothing that could be taken. -/
def Empty (db : Db) (u : Nat) : Prop :=
  intOr0 (accountRow db u).gift_balance_toman ≤ 0 ∧
    intOr0 (accountRow db u).paid_balance_toman = 0

/-- Both counters of a row start again and stood at the cost, so that adding
the cost brings them back to where they were. -/
def ComesBack (now : Datetime) (r : UserSubscription) (again : Bool) (cost : Int) : Prop :=
  again = true ∧ week_over now r = true ∧ counters r = (cost, cost)

/-- The bot charges the row `r` under `plan`, and Open WebUI the row `p`. -/
inductive OneBill (now : Datetime) (db : Db) (u : Nat) (cost : Int) (r p : UserSubscription)
    (plan : SubscriptionPlan) : Prop where
  | nobody (hb : ¬BotStarts now r plan) (hw : ¬WebStarts now p (db.plans.get p.plan_id))
  | bot (hb : BotStarts now r plan) (hw : ¬WebStarts now p (db.plans.get p.plan_id))
      (hr : ComesBack now r (restarts now r plan) cost)
  | web (hb : ¬BotStarts now r plan) (hw : WebStarts now p (db.plans.get p.plan_id))
      (he : Empty db u) (hp : ComesBack now p (closed now p) cost)
  | same_row (hb : BotStarts now r plan) (hw : WebStarts now p (db.plans.get p.plan_id))
      (he : Empty db u) (hid : p.id = r.id)
      (hc : closed now r = true → restarts now r plan = true ∨ intOr0 r.cooldown_spent_toman = 0)
  | two_rows (hb : BotStarts now r plan) (hw : WebStarts now p (db.plans.get p.plan_id))
      (he : Empty db u) (hid : p.id ≠ r.id) (hr : ComesBack now r (restarts now r plan) cost)
      (hp : ComesBack now p (closed now p) cost)

theorem counters_put (db : Db) (hr : db.subscriptions.get r.id = some r) (hv : SameTerms v r)
    (id : Nat) : ((putSubscription db v).subscriptions.get id).map counters =
      if id = r.id then some (counters v) else (db.subscriptions.get id).map counters := by
  by_cases h : id = r.id
  · subst h
    rw [if_pos rfl, ← hv.id, get_putSubscription hr hv]
    rfl
  · rw [if_neg h]
    exact congrArg (Option.map counters) (Table.get_put_ne hr hv.replaces h)

/-- Adding the cost leaves the counters as they were. -/
theorem comes_back_iff {again : Bool} {cost : Int} (hpos : 0 < cost)
    (hv : counters v = (if again then 0 else intOr0 r.cooldown_spent_toman,
      if week_over now r then 0 else intOr0 r.weekly_spent_toman)) :
    counters (chargedWindow v cost) = counters r ↔ ComesBack now r again cost := by
  have h1 : intOr0 v.cooldown_spent_toman = if again then 0 else intOr0 r.cooldown_spent_toman :=
    congrArg Prod.fst hv
  have h2 : intOr0 v.weekly_spent_toman =
      if week_over now r then 0 else intOr0 r.weekly_spent_toman := congrArg Prod.snd hv
  unfold ComesBack counters chargedWindow
  simp only [Prod.mk.injEq]
  change intOr0 v.cooldown_spent_toman + cost = _ ∧ intOr0 v.weekly_spent_toman + cost = _ ↔ _
  rw [h1, h2]
  cases again <;> cases week_over now r <;> simp <;> omega

/-- What Open WebUI takes from the balances. -/
theorem deducted_same_iff {a : UserBillingAccount} {cost : Int} (hpos : 0 < cost) :
    (intOr0 (deducted a cost).gift_balance_toman = intOr0 a.gift_balance_toman ∧
      intOr0 (deducted a cost).paid_balance_toman = intOr0 a.paid_balance_toman) ↔
    intOr0 a.gift_balance_toman ≤ 0 ∧ intOr0 a.paid_balance_toman = 0 := by
  unfold deducted paid_used gift_used
  by_cases hg : 0 < intOr0 a.gift_balance_toman
  · simp only [hg, if_true]
    have hmin : 0 < min (intOr0 a.gift_balance_toman) cost := lt_min hg hpos
    refine iff_of_false ?_ (by omega)
    rintro ⟨h, -⟩
    change intOr0 a.gift_balance_toman - min (intOr0 a.gift_balance_toman) cost =
      intOr0 a.gift_balance_toman at h
    omega
  · simp only [hg, if_false, sub_zero, hpos, if_true, true_and]
    change intOr0 a.paid_balance_toman - min (intOr0 a.paid_balance_toman) cost =
      intOr0 a.paid_balance_toman ↔ _
    constructor
    · intro h
      have hmin : min (intOr0 a.paid_balance_toman) cost = 0 := by omega
      rcases min_choice (intOr0 a.paid_balance_toman) cost with hc | hc <;> rw [hc] at hmin <;>
        omega
    · rintro ⟨-, h⟩
      rw [h, min_eq_left (le_of_lt hpos)]
      rfl

/-- One row of two databases differs. -/
theorem one_row_iff {f : Nat → Option (Int × Int)} {k : Nat} {x y : Int × Int} (hf : f k = some y) :
    (∀ id, f id = if id = k then some x else f id) ↔ x = y := by
  constructor
  · intro h
    have hk := h k
    rw [if_pos rfl, hf] at hk
    exact (Option.some.inj hk).symm
  · rintro rfl id
    by_cases h : id = k
    · rw [if_pos h, h, hf]
    · rw [if_neg h]

/-- One row of each differs from what both were. -/
theorem two_rows_iff {f : Nat → Option (Int × Int)} {j k : Nat} {x y a b : Int × Int}
    (hj : f j = some a) (hk : f k = some b) :
    (∀ id, (if id = j then some x else f id) = if id = k then some y else f id) ↔
      j = k ∧ x = y ∨ j ≠ k ∧ x = a ∧ y = b := by
  constructor
  · intro h
    by_cases hjk : j = k
    · subst hjk
      have hj' := h j
      rw [if_pos rfl, if_pos rfl] at hj'
      exact .inl ⟨rfl, Option.some.inj hj'⟩
    · have h1 := h j
      have h2 := h k
      rw [if_pos rfl, if_neg hjk, hj] at h1
      rw [if_neg (Ne.symm hjk), if_pos rfl, hk] at h2
      exact .inr ⟨hjk, Option.some.inj h1, (Option.some.inj h2).symm⟩
  · rintro (⟨rfl, rfl⟩ | ⟨hjk, rfl, rfl⟩) id
    · rfl
    · by_cases h1 : id = j
      · subst h1
        rw [if_pos rfl, if_neg hjk, hj]
      · rw [if_neg h1]
        by_cases h2 : id = k
        · rw [if_pos h2, h2, hk]
        · rw [if_neg h2]

/-- The counters that both put on one row agree. -/
theorem same_row_iff {x y : UserSubscription} {cost : Int}
    (hx : counters x = (if closed now r then 0 else intOr0 r.cooldown_spent_toman,
      if week_over now r then 0 else intOr0 r.weekly_spent_toman))
    (hy : counters y = (if restarts now r plan then 0 else intOr0 r.cooldown_spent_toman,
      if week_over now r then 0 else intOr0 r.weekly_spent_toman)) :
    counters (chargedWindow x cost) = counters (chargedWindow y cost) ↔
      (closed now r = true → restarts now r plan = true ∨ intOr0 r.cooldown_spent_toman = 0) := by
  have hcl : restarts now r plan = true → closed now r = true := by
    unfold restarts
    rcases closed_cases now r with ⟨h1, h2, h3⟩ | ⟨t, h1, -, h2, h3⟩ | ⟨t, h1, -, h2, h3⟩
    · exact fun _ => h2
    · exact fun _ => h2
    · simp [h1, h3]
  have hx1 := congrArg Prod.fst hx
  have hx2 := congrArg Prod.snd hx
  have hy1 := congrArg Prod.fst hy
  have hy2 := congrArg Prod.snd hy
  change intOr0 x.cooldown_spent_toman = _ at hx1
  change intOr0 x.weekly_spent_toman = _ at hx2
  change intOr0 y.cooldown_spent_toman = _ at hy1
  change intOr0 y.weekly_spent_toman = _ at hy2
  unfold counters chargedWindow
  simp only [Prod.mk.injEq]
  change intOr0 x.cooldown_spent_toman + cost = intOr0 y.cooldown_spent_toman + cost ∧
    intOr0 x.weekly_spent_toman + cost = intOr0 y.weekly_spent_toman + cost ↔ _
  rw [hx1, hx2, hy1, hy2]
  cases hc : closed now r
  · have hr : restarts now r plan = false := by
      by_contra h
      rw [hcl (by simpa using h)] at hc
      cases hc
    simp [hr]
  · cases restarts now r plan <;> simp

/-- The balances of a user that has no account are empty in both services. -/
theorem web_balances (db : Db) (m : WebCall) (u : Nat) (v : UserSubscription) {cost : Int}
    (hpos : 0 < cost) :
    (intOr0 (accountRow (recordedIn db m u v cost) u).gift_balance_toman =
        intOr0 (accountRow db u).gift_balance_toman ∧
      intOr0 (accountRow (recordedIn db m u v cost) u).paid_balance_toman =
        intOr0 (accountRow db u).paid_balance_toman) ↔ Empty db u := by
  have huser : (billingRow db u).user_id = u := by
    simpa using (Table.first_mem (first_withBilling db u)).2
  have hfirst : (recordedIn db m u v cost).accounts.first (fun a => a.user_id = u) =
      some (deducted (billingRow db u) cost) := by
    unfold recordedIn
    rw [post_eq]
    exact Table.first_put (first_withBilling db u) ⟨rfl, rfl⟩ (by simp [deducted, huser])
  have hsame : intOr0 (billingRow db u).gift_balance_toman =
        intOr0 (accountRow db u).gift_balance_toman ∧
      intOr0 (billingRow db u).paid_balance_toman =
        intOr0 (accountRow db u).paid_balance_toman := by
    unfold billingRow accountRow
    cases db.accounts.first fun a => a.user_id = u <;> exact ⟨rfl, rfl⟩
  unfold Empty
  rw [accountRow_eq hfirst, ← hsame.1, ← hsame.2]
  exact deducted_same_iff hpos

/-- Only Open WebUI charges, and its row becomes `v`. -/
theorem web_only_iff {db : Db} {u : Nat} {cost : Int} (m : WebCall) (hpos : 0 < cost)
    (hget : db.subscriptions.get p.id = some p) (ht : SameTerms v p)
    (hcount : counters v = (if closed now p then 0 else intOr0 p.cooldown_spent_toman,
      if week_over now p then 0 else intOr0 p.weekly_spent_toman))
    (hbot : ¬BotStarts now r plan) (hweb : WebStarts now p (db.plans.get p.plan_id)) :
    SameBill u (recordedIn db m u v cost) db ↔ OneBill now db u cost r p plan := by
  have hcb := comes_back_iff hpos hcount
  have hput := counters_put db hget (v := chargedWindow v cost) ((chargedWindow_terms v _).trans ht)
  have hrow := one_row_iff (f := fun id => (db.subscriptions.get id).map counters)
    (x := counters (chargedWindow v cost)) (congrArg (Option.map counters) hget)
  have hbal := web_balances db m u v hpos
  constructor
  · intro h
    exact .web hbot hweb (hbal.mp ⟨h.gift, h.paid⟩)
      (hcb.mp (hrow.mp fun id => (h.counters id).symm.trans (hput id)))
  · intro h
    cases h with
    | nobody hb hw => exact absurd hweb hw
    | bot hb hw hr => exact absurd hb hbot
    | same_row hb hw he hid hc => exact absurd hb hbot
    | two_rows hb hw he hid hr hp => exact absurd hb hbot
    | web hb hw he hp =>
      obtain ⟨hg, hpd⟩ := hbal.mpr he
      exact ⟨fun id => (hput id).trans (hrow.mpr (hcb.mpr hp) id).symm, hg, hpd⟩

/-- Only the bot charges, and its row becomes `w`. -/
theorem bot_only_iff {db : Db} {u : Nat} {cost : Int} (hpos : 0 < cost)
    (hget : db.subscriptions.get r.id = some r) (ht : SameTerms w r)
    (hcount : counters w = (if restarts now r plan then 0 else intOr0 r.cooldown_spent_toman,
      if week_over now r then 0 else intOr0 r.weekly_spent_toman))
    (hbot : BotStarts now r plan) (hweb : ¬WebStarts now p (db.plans.get p.plan_id)) :
    SameBill u db (putSubscription (prepared db u) (chargedWindow w cost)) ↔
      OneBill now db u cost r p plan := by
  have hcb := comes_back_iff hpos hcount
  have hput := counters_put (prepared db u) hget (v := chargedWindow w cost)
    ((chargedWindow_terms w _).trans ht)
  have hrow := one_row_iff (f := fun id => (db.subscriptions.get id).map counters)
    (x := counters (chargedWindow w cost)) (congrArg (Option.map counters) hget)
  have hown := accountRow_withAccount db u
  constructor
  · intro h
    exact .bot hbot hweb (hcb.mp (hrow.mp fun id => (h.counters id).trans (hput id)))
  · intro h
    cases h with
    | nobody hb hw => exact absurd hbot hb
    | web hb hw he hp => exact absurd hbot hb
    | same_row hb hw he hid hc => exact absurd hw hweb
    | two_rows hb hw he hid hr hp => exact absurd hw hweb
    | bot hb hw hr =>
      refine ⟨fun id => (hrow.mpr (hcb.mpr hr) id).trans (hput id).symm, ?_, ?_⟩
      · exact congrArg (fun a => intOr0 a.gift_balance_toman) hown.symm
      · exact congrArg (fun a => intOr0 a.paid_balance_toman) hown.symm

/-- Both charge. The bills agree where the balances are empty and the rows agree. -/
theorem both_counters_iff {db : Db} {u : Nat} {cost : Int} (m : WebCall) (hpos : 0 < cost)
    (hgp : db.subscriptions.get p.id = some p) (htp : SameTerms v p)
    (hgr : db.subscriptions.get r.id = some r) (htr : SameTerms w r) :
    SameBill u (recordedIn db m u v cost)
        (putSubscription (prepared db u) (chargedWindow w cost)) ↔
      Empty db u ∧ (p.id = r.id ∧
          counters (chargedWindow v cost) = counters (chargedWindow w cost) ∨
        p.id ≠ r.id ∧ counters (chargedWindow v cost) = counters p ∧
          counters (chargedWindow w cost) = counters r) := by
  have hputv := counters_put db hgp (v := chargedWindow v cost)
    ((chargedWindow_terms v _).trans htp)
  have hputw := counters_put (prepared db u) hgr (v := chargedWindow w cost)
    ((chargedWindow_terms w _).trans htr)
  have hrows := two_rows_iff (f := fun id => (db.subscriptions.get id).map counters)
    (x := counters (chargedWindow v cost)) (y := counters (chargedWindow w cost))
    (congrArg (Option.map counters) hgp) (congrArg (Option.map counters) hgr)
  have hbal := web_balances db m u v hpos
  have hown := accountRow_withAccount db u
  constructor
  · intro h
    refine ⟨hbal.mp ⟨h.gift.trans ?_, h.paid.trans ?_⟩, ?_⟩
    · exact congrArg (fun a => intOr0 a.gift_balance_toman) hown
    · exact congrArg (fun a => intOr0 a.paid_balance_toman) hown
    · exact hrows.mp fun id => (hputv id).symm.trans ((h.counters id).trans (hputw id))
  · rintro ⟨he, hcase⟩
    obtain ⟨hg, hpd⟩ := hbal.mpr he
    refine ⟨fun id => (hputv id).trans ((hrows.mpr hcase id).trans (hputw id).symm),
      hg.trans ?_, hpd.trans ?_⟩
    · exact congrArg (fun a => intOr0 a.gift_balance_toman) hown.symm
    · exact congrArg (fun a => intOr0 a.paid_balance_toman) hown.symm

theorem both_iff {db : Db} {u : Nat} {cost : Int} (m : WebCall) (hpos : 0 < cost)
    (hgp : db.subscriptions.get p.id = some p) (htp : SameTerms v p)
    (hv : counters v = (if closed now p then 0 else intOr0 p.cooldown_spent_toman,
      if week_over now p then 0 else intOr0 p.weekly_spent_toman))
    (hgr : db.subscriptions.get r.id = some r) (htr : SameTerms w r)
    (hw : counters w = (if restarts now r plan then 0 else intOr0 r.cooldown_spent_toman,
      if week_over now r then 0 else intOr0 r.weekly_spent_toman))
    (hbot : BotStarts now r plan) (hweb : WebStarts now p (db.plans.get p.plan_id)) :
    SameBill u (recordedIn db m u v cost)
        (putSubscription (prepared db u) (chargedWindow w cost)) ↔
      OneBill now db u cost r p plan := by
  have hsame : p.id = r.id → p = r := by
    intro hid
    rw [hid, hgr] at hgp
    exact (Option.some.inj hgp).symm
  refine (both_counters_iff m hpos hgp htp hgr htr).trans ?_
  constructor
  · rintro ⟨he, ⟨hid, heq⟩ | ⟨hid, hp, hr⟩⟩
    · obtain rfl := hsame hid
      exact .same_row hbot hweb he hid ((same_row_iff hv hw).mp heq)
    · exact .two_rows hbot hweb he hid ((comes_back_iff hpos hw).mp hr)
        ((comes_back_iff hpos hv).mp hp)
  · intro h
    cases h with
    | nobody hb hw => exact absurd hbot hb
    | web hb hw he hp => exact absurd hbot hb
    | bot hb hw hr => exact absurd hweb hw
    | same_row hb hw' he hid hc =>
      obtain rfl := hsame hid
      exact ⟨he, .inl ⟨rfl, (same_row_iff hv hw).mpr hc⟩⟩
    | two_rows hb hw' he hid hr hp =>
      exact ⟨he, .inr ⟨hid, (comes_back_iff hpos hv).mpr hp, (comes_back_iff hpos hw).mpr hr⟩⟩

/-- LAW: when the window of the bot covers a charge that is new to both
services, they leave the same bill exactly when the balances are empty and
both find the same row with the same counters; or neither can start, or a row
that they do not share comes back to its old counters. -/
theorem the_chargers_leave_one_bill_iff (now : Datetime) (db : Db) (c : ChatCall) (m : WebCall)
    (q : ChatUsageQuote) (r p w : UserSubscription) (plan : SubscriptionPlan)
    (hq : c.quote db = .ok q) (hpos : 0 < q.billable_cost_toman)
    (hk : ledgerRow db c.idempotency_key = none) (hc : Covers now db c.user.id w plan)
    (hr : activeRow now db c.user.id = some r) (hp : latest_active now c.user.id db = some p)
    (hu : (db.users.first fun x => x.telegram_user_id = some m.era_tracking_id).map (·.id) =
      some c.user.id)
    (hm : ∀ e ∈ db.ledger.rows, e.idempotency_key ≠ message_key m.message_id) :
    SameBill c.user.id (by_web now m q.billable_cost_toman db) (by_bot now c db) ↔
      OneBill now db c.user.id q.billable_cost_toman r p plan := by
  obtain ⟨r', hf, hw⟩ := hc.found
  have hrr : r' = r := by
    have := subscriptionOf_row hf
    rw [hr] at this
    exact (Option.some.inj this).symm
  subst hrr
  have hgr : db.subscriptions.get r'.id = some r' := get_activeRow hr
  have hgp := get_latest hp
  obtain ⟨hbot, hbv⟩ := bot_window plan hw
  obtain ⟨hweb, hwv⟩ := web_window now p (db.plans.get p.plan_id)
  rw [bot_leaves hq hpos hk hc, web_leaves hu hpos hm hp]
  cases hb : openWindow now (freshCooldown now w) plan with
  | error e =>
    have hnb : ¬BotStarts now r' plan := by
      rw [← hbot, hb]
      rintro ⟨v, h⟩
      cases h
    cases hv : timed now p (db.plans.get p.plan_id) with
    | error e =>
      refine iff_of_true ⟨fun _ => rfl, rfl, rfl⟩ (.nobody hnb ?_)
      rw [← hweb, hv]
      rintro ⟨v, h⟩
      cases h
    | ok v => exact web_only_iff m hpos hgp (hwv v hv).1 (hwv v hv).2 hnb (hweb.mp ⟨v, hv⟩)
  | ok x =>
    have hbs := hbot.mp ⟨x, hb⟩
    have htx : SameTerms x r' :=
      (openWindow_terms hb).trans ((freshCooldown_terms now w).trans (freshWeek_terms hw))
    cases hv : timed now p (db.plans.get p.plan_id) with
    | error e =>
      refine bot_only_iff hpos hgr htx (hbv x hb) hbs ?_
      rw [← hweb, hv]
      rintro ⟨v, h⟩
      cases h
    | ok v =>
      exact both_iff m hpos hgp (hwv v hv).1 (hwv v hv).2 hgr htx (hbv x hb) hbs (hweb.mp ⟨v, hv⟩)

end

/-! ## A message of the customer -/

def small_message : WebCall where
  era_tracking_id := 100
  model_id := some "small"
  usage := []
  message_id := "m1"

/-- Open WebUI takes the cost from the paid balance as well. -/
theorem message_is_paid_twice :
    ¬SameBill 1 (by_web noon small_message 625 subscribed_shop)
      (by_bot noon (small_chat "chat") subscribed_shop) := by
  intro h
  have hpaid := h.paid
  revert hpaid
  decide +kernel

/-- The customer has a subscription and nothing on the balances. -/
def empty_shop : Db :=
  { subscribed_shop with accounts := Table.empty.insert { user_id := 1 } }

def subscription_one : UserSubscription := { subscription_row with id := 1 }

theorem message_with_empty_balances :
    SameBill 1 (by_web noon small_message 625 empty_shop)
        (by_bot noon (small_chat "chat") empty_shop) ↔
      OneBill noon empty_shop 1 625 subscription_one subscription_one tiered_plan := by
  obtain ⟨q, hq, hcost⟩ := ok_with (x := (small_chat "chat").quote empty_shop)
    (p := fun q => decide (q.billable_cost_toman = 625)) (by decide +kernel)
  have hcost : q.billable_cost_toman = 625 := of_decide_eq_true hcost
  have hc : Covers noon empty_shop 1 { subscription_one with
      weekly_spent_toman := some 0, week_resets_at := some (noon + days 7) } tiered_plan :=
    ⟨⟨subscription_one, by decide +kernel, by decide +kernel⟩, by decide +kernel,
      by decide +kernel⟩
  have h := the_chargers_leave_one_bill_iff noon empty_shop (small_chat "chat") small_message q
    subscription_one subscription_one _ tiered_plan hq (by omega) (by decide +kernel) hc
    (by decide +kernel) (by decide +kernel) (by decide +kernel)
    (fun e he => absurd he List.not_mem_nil)
  rw [hcost] at h
  exact h

end dr_boz.two_chargers
