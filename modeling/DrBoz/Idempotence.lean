-- Idempotent charging. A key protects a charge through its ledger entry, and
-- the window of a tiered subscription pays without one: a repeated charge is
-- free exactly when the first one has left, or found, an entry.
import DrBoz.Calls

open keyed_table unit_of_work dr_boz.py dr_boz.models dr_boz.codex_capacity dr_boz.toman_billing
open dr_boz.views dr_boz.billing_runs dr_boz.chat_runs dr_boz.purchase_runs dr_boz.effects
open dr_boz.calls

namespace dr_boz.idempotence

/-- Nothing that a charge writes differs. -/
structure SameBooks (a b : Db) : Prop where
  accounts : a.accounts = b.accounts
  ledger : a.ledger = b.ledger
  subscriptions : a.subscriptions = b.subscriptions

/-- The session after the first charge, with its changes published. -/
def charged (now : Datetime) (c : ChatCall) (s : Session Db) : Session Db :=
  ((c.prog now).run s).2.commit

/-- Calls for other keys, at times between the two charges. -/
def Between (now now' : Datetime) (c : ChatCall) (es : List Event) : Prop :=
  now ≤ now' ∧ ∀ t d, Event.call t d ∈ es → d.key ≠ c.idempotency_key ∧ now ≤ t ∧ t ≤ now'

/-- Whatever happens in between, the same charge changes nothing later on. -/
def Idempotent (now : Datetime) (c : ChatCall) (s : Session Db) : Prop :=
  ∀ now' es, Between now now' c es →
    let before := history es (charged now c s)
    let after := ((c.prog now').run before).2
    SameBooks before.view after.view ∧ SameBooks before.stored after.stored

/-! ## A key in the ledger stays there -/

/-- The ledger has an entry under the key, and the user has an account. -/
structure Recorded (k : String) (u : Nat) (db : Db) : Prop where
  entry : ∃ e ∈ db.ledger.rows, e.idempotency_key = some k
  account : ∃ a ∈ db.accounts.rows, a.user_id = u

theorem recorded_frame {k : String} {u : Nat} {db db' : Db} (h : Recorded k u db)
    (ha : db'.accounts = db.accounts) (hl : db'.ledger = db.ledger) : Recorded k u db' :=
  ⟨by rw [hl]; exact h.entry, by rw [ha]; exact h.account⟩

theorem mem_foldl_insert {e : TomanLedgerEntry} (es : List TomanLedgerEntry)
    {t : Table TomanLedgerEntry} (h : e ∈ t.rows) :
    e ∈ (es.foldl (fun t x => t.insert x) t).rows := by
  induction es generalizing t with
  | nil => exact h
  | cons x es ih => exact ih (Table.mem_insert_of_mem h)

/-- Accounts keep their users when a new value is put in its place. -/
theorem user_put {t : Table UserBillingAccount} {a b x : UserBillingAccount}
    (ha : t.get a.id = some a) (hb : SameOwner b a) (hx : x ∈ t.rows) :
    ∃ y ∈ (t.put b).rows, y.user_id = x.user_id := by
  have hrep : Table.Replaces b a := ⟨hb.1, congrArg some hb.2.1⟩
  by_cases hk : x.id = a.id
  · have hxa : x = a := t.key_unique hx ((Table.get_eq_some _).mp ha).1 hk
    exact ⟨b, (Table.mem_put ha hrep).mpr (.inl rfl), by rw [hxa]; exact hb.2.1⟩
  · exact ⟨x, (Table.mem_put ha hrep).mpr (.inr ⟨hx, hk⟩), rfl⟩

theorem recorded_withAccount {k : String} {u : Nat} {db : Db} (w : Nat) (h : Recorded k u db) :
    Recorded k u (withAccount db w) := by
  refine ⟨h.entry, ?_⟩
  obtain ⟨a, ha, hu⟩ := h.account
  refine ⟨a, ?_, hu⟩
  unfold withAccount
  split
  · exact ha
  · exact Table.mem_insert_of_mem ha

theorem recorded_post {k : String} {u : Nat} {db : Db} {a b : UserBillingAccount}
    {es : List TomanLedgerEntry} (ha : db.accounts.get a.id = some a) (hb : SameOwner b a)
    (h : Recorded k u db) : Recorded k u (post db b es) := by
  obtain ⟨e, he, hk⟩ := h.entry
  obtain ⟨x, hx, hu⟩ := h.account
  obtain ⟨y, hy, hyu⟩ := user_put ha hb hx
  rw [post_eq]
  exact ⟨⟨e, mem_foldl_insert es he, hk⟩, ⟨y, hy, hyu.trans hu⟩⟩

theorem recorded_kept (k : String) (u : Nat) : KeptByAll (Recorded k u) where
  effect now db db' he h := by
    cases he with
    | account w => exact recorded_withAccount w h
    | config => exact recorded_frame h rfl rfl
    | posting a b es ha hb hes hg hp hn ht => exact recorded_post ha hb h
    | window v w hv hw => exact recorded_frame h rfl rfl
    | subscribe v pool hnone hv hp => exact recorded_frame h rfl rfl
    | unassigned v hnone hv hp => exact recorded_frame h rfl rfl
    | cancel v hv =>
      obtain ⟨h1, h2, -⟩ := cancelledIn_books now db v
      exact recorded_frame h h1 h2
    | aside db' ha hl hs hp hr => exact recorded_frame h ha hl
  reactivation now db v w _ _ h := by
    obtain ⟨h1, h2, -⟩ := reactivatedIn_books now db v w
    exact recorded_frame h h1 h2

/-- A key that is recorded is found again. -/
theorem recorded_ledgerRow {k : String} {u : Nat} {db : Db} (hk : k ≠ "") (h : Recorded k u db) :
    ∃ e, ledgerRow db (some k) = some e := by
  unfold ledgerRow
  rw [if_pos (by simp [truthyKey, hk])]
  cases hf : db.ledger.first fun e => e.idempotency_key = some k with
  | some e => exact ⟨e, rfl⟩
  | none =>
    obtain ⟨e, he, hek⟩ := h.entry
    simpa [hek] using Table.first_eq_none.mp hf e he

theorem recorded_prepared {k : String} {u : Nat} {db : Db} (h : Recorded k u db) :
    SameBooks db (prepared db u) := by
  obtain ⟨a, ha, hu⟩ := h.account
  cases hf : db.accounts.first fun a => a.user_id = u with
  | some b =>
    refine ⟨?_, rfl, rfl⟩
    change db.accounts = (withAccount db u).accounts
    rw [withAccount_eq hf]
  | none => simpa [hu] using Table.first_eq_none.mp hf a ha

theorem SameBooks.refl (db : Db) : SameBooks db db := ⟨rfl, rfl, rfl⟩

/-- A charge under a recorded key is a replay. -/
theorem replay_same {now : Datetime} {c : ChatCall} {s s' : Session Db} {k : String}
    {r : Except PyError ChatUsageChargeResult} (hkey : c.idempotency_key = some k) (hk : k ≠ "")
    (h : Recorded k c.user.id s.view) (hr : ChatRun now c s r s') :
    SameBooks s.view s'.view ∧ SameBooks s.stored s'.stored := by
  obtain ⟨e, he⟩ := recorded_ledgerRow hk h
  rw [← hkey] at he
  cases hr with
  | quote_raised e hq => exact ⟨recorded_prepared h, .refl _⟩
  | replay q e r hq hk' hr => exact ⟨recorded_prepared h, .refl _⟩
  | free q r hq hk' | no_plan q e hq hk' | window_raised q r v e hq hk'
  | start_raised q w plan e hq hk' | covered q w v plan r hq hk' | refused q db r hq hk'
  | paid q db e r hq hk' | conflict q db e hq hk' =>
    rw [he] at hk'
    cases hk'

/-! ## The first charge -/

theorem key_free {db : Db} {k : String} (hk : k ≠ "") (h : ledgerRow db (some k) = none) :
    ∀ e ∈ db.ledger.rows, e.idempotency_key ≠ some k := by
  unfold ledgerRow at h
  rw [if_pos (by simp [truthyKey, hk])] at h
  intro e he
  simpa using Table.first_eq_none.mp h e he

/-- A charge that the window does not cover records its key. -/
theorem recorded_charge {now : Datetime} {c : ChatCall} {s s' : Session Db} {k : String}
    {q : ChatUsageQuote} {r : ChatUsageChargeResult} (hkey : c.idempotency_key = some k)
    (hk : k ≠ "") (hq : c.quote s.view = .ok q) (hpos : 0 < q.billable_cost_toman)
    (hok : r.ok = true)
    (hcond : ledgerRow s.view (some k) ≠ none ∨ ¬∃ w plan, Covers now s.view c.user.id w plan)
    (hr : ChatRun now c s (.ok r) s') : Recorded k c.user.id s'.view := by
  have hacc : ∃ a ∈ (withAccount s.view c.user.id).accounts.rows, a.user_id = c.user.id :=
    ⟨_, (Table.first_mem (first_withAccount s.view c.user.id)).1, accountRow_user _ _⟩
  cases hr with
  | replay q e r hq hk' hr =>
    rw [hkey] at hk'
    unfold ledgerRow at hk'
    rw [if_pos (by simp [truthyKey, hk])] at hk'
    have hm := Table.first_mem hk'
    exact ⟨⟨e, hm.1, by simpa using hm.2⟩, hacc⟩
  | free q' r hq' hk' hle hr =>
    rw [hq] at hq'
    cases hq'
    omega
  | covered q' w v plan r hq' hk' hpos' hc hv hr =>
    rcases hcond with h | h
    · rw [hkey] at hk'
      exact absurd hk' h
    · exact absurd ⟨w, plan, hc⟩ h
  | refused q' db r hq' hk' hpos' hb hlt hr =>
    rw [hok] at hr
    cases hr
  | paid q' db e r hq' hk' hpos' hb hle he ha hr =>
    obtain ⟨hdba, hdbl⟩ := hb.frame
    have hget : db.accounts.get (accountRow s.view c.user.id).id =
        some (accountRow s.view c.user.id) := by
      rw [hdba]; exact get_accountRow _ _
    rw [Session.view_commitIf]
    refine ⟨?_, ?_⟩
    · refine ⟨{ e with id := db.ledger.nextKey }, ?_, he.key.trans hkey⟩
      have hrows := Table.rows_insert (t := db.ledger) (hdbl ▸ ha)
      rw [post_eq, List.foldl_cons, List.foldl_nil, hrows]
      exact List.mem_append_right _ (List.mem_singleton.mpr rfl)
    · obtain ⟨a, ha, hu⟩ := hacc
      obtain ⟨y, hy, hyu⟩ := user_put hget
        (owner_spent_gift_first _ q'.billable_cost_toman) (hdba ▸ ha)
      rw [post_eq]
      exact ⟨y, hy, hyu.trans hu⟩

/-- What a charge in the window leaves: the counters, and no entry. -/
theorem covered_view {now : Datetime} {c : ChatCall} {s s' : Session Db} {w : UserSubscription}
    {plan : SubscriptionPlan} {q : ChatUsageQuote} {r : ChatUsageChargeResult}
    (hq : c.quote s.view = .ok q) (hpos : 0 < q.billable_cost_toman)
    (hk : ledgerRow s.view c.idempotency_key = none)
    (hc : Covers now s.view c.user.id w plan) (hr : ChatRun now c s (.ok r) s') :
    ∃ v, s'.view = putSubscription (prepared s.view c.user.id) v := by
  cases hr with
  | replay q e r hq hk' hr =>
    rw [hk] at hk'
    cases hk'
  | free q' r hq' hk' hle hr =>
    rw [hq] at hq'
    cases hq'
    omega
  | covered q' w v plan r hq' hk' hpos' hc hv hr => exact ⟨_, Session.view_commitIf _ _⟩
  | refused q' db r hq' hk' hpos' hb hlt hr => exact absurd hb hc.not_left
  | paid q' db e r hq' hk' hpos' hb hle he ha hr => exact absurd hb hc.not_left

/-! ## Credit for a second charge -/

/-- The key is unused, the config and the subscriptions are those of `base`,
and the user's account holds this much and has no discount left. -/
structure Ready (c : ChatCall) (base db : Db) (m : Int) : Prop where
  config : db.configs = base.configs
  subscriptions : db.subscriptions = base.subscriptions
  plans : db.plans = base.plans
  account : ∃ a, db.accounts.first (fun a => a.user_id = c.user.id) = some a ∧
    a.first_topup_discount_used = some true ∧ available a = m
  key : ∀ e ∈ db.ledger.rows, e.idempotency_key ≠ c.idempotency_key

theorem configRow_congr {db db' : Db} (h : db.configs = db'.configs) :
    configRow db = configRow db' := by
  unfold configRow
  rw [h]

theorem accepts_no_key {t : Table TomanLedgerEntry} {e : TomanLedgerEntry}
    (h : e.idempotency_key = none) : t.Accepts e := Table.accepts_of_no_unique h

/-- A posting of one entry without a key keeps the rest ready. -/
theorem ready_post {c : ChatCall} {base db : Db} {a b : UserBillingAccount} {e : TomanLedgerEntry}
    {k : String} (hkey : c.idempotency_key = some k)
    (hconf : db.configs = base.configs) (hsub : db.subscriptions = base.subscriptions)
    (hplans : db.plans = base.plans)
    (ha : db.accounts.first (fun a => a.user_id = c.user.id) = some a) (hb : SameOwner b a)
    (hused : b.first_topup_discount_used = some true) (he : e.idempotency_key = none)
    (hfree : ∀ e ∈ db.ledger.rows, e.idempotency_key ≠ c.idempotency_key) :
    Ready c base (post db b [e]) (available b) := by
  have hu : a.user_id = c.user.id := by simpa using (Table.first_mem ha).2
  have hrep : Table.Replaces b a := ⟨hb.1, congrArg some hb.2.1⟩
  refine ⟨hconf, hsub, hplans, ⟨b, ?_, hused, rfl⟩, ?_⟩
  · exact Table.first_put ha hrep (by simp [hb.2.1, hu])
  · intro x hx
    rw [post_eq, List.foldl_cons, List.foldl_nil] at hx
    have hrows := Table.rows_insert (t := db.ledger) (accepts_no_key he)
    simp only [hrows] at hx
    rcases List.mem_append.mp hx with hx | hx
    · exact hfree x hx
    · rw [List.mem_singleton.mp hx, hkey]
      change e.idempotency_key ≠ some k
      rw [he]
      simp

/-- A marking of the discount flag, and a top-up: neither has a key. -/
def markOf (c : ChatCall) : Call := .mark ⟨c.user, none, [], false⟩

def topupOf (c : ChatCall) (n : Int) : Call := .topup ⟨c.user, n, none, [], false⟩

theorem ready_mark (now : Datetime) (s : Session Db) {c : ChatCall} {base : Db} {k : String}
    {a : UserBillingAccount} (hkey : c.idempotency_key = some k)
    (hconf : s.view.configs = base.configs) (hsub : s.view.subscriptions = base.subscriptions)
    (hplans : s.view.plans = base.plans)
    (ha : s.view.accounts.first (fun a => a.user_id = c.user.id) = some a)
    (hfree : ∀ e ∈ s.view.ledger.rows, e.idempotency_key ≠ c.idempotency_key) :
    ∃ m, Ready c base ((markOf c).run now s).view m := by
  have hrun : (markOf c).run now s = ((⟨c.user, none, [], false⟩ : MarkCall).prog.run s).2 :=
    run_discard _ s
  rw [hrun]
  have hw := withAccount_eq ha
  have hrow := accountRow_eq ha
  have hm := markRun ⟨c.user, none, [], false⟩ s
  generalize (⟨c.user, none, [], false⟩ : MarkCall).prog.run s = x at hm ⊢
  obtain ⟨r, s'⟩ := x
  cases hm with
  | already h =>
    simp only [hw]
    exact ⟨available a, hconf, hsub, hplans, ⟨a, ha, hrow ▸ h, rfl⟩, hfree⟩
  | replay e hk => cases hk
  | fresh e e' hk hb hg hp hnone hacc =>
    simp only [hw, hrow]
    exact ⟨_, ready_post hkey hconf hsub hplans ha (owner_marked_once a) rfl hnone hfree⟩
  | conflict e hnone hacc => exact absurd (accepts_no_key hnone) hacc

theorem ready_topup (now : Datetime) {c : ChatCall} {base : Db} {s : Session Db} {k : String}
    {q : ChatUsageQuote} {m : Int} {cfg : SubscriptionConfig} (hkey : c.idempotency_key = some k)
    (hcfg : base.configs.first (fun _ => true) = some cfg) (hq : c.quote base = .ok q)
    (hpos : 0 < q.billable_cost_toman) (h : Ready c base s.view m) :
    Ready c base ((topupOf c q.base_cost_toman).run now s).view (m + q.base_cost_toman) := by
  have hrun : (topupOf c q.base_cost_toman).run now s =
      (((⟨c.user, q.base_cost_toman, none, [], false⟩ : TopupCall).prog now).run s).2 :=
    run_discard _ s
  rw [hrun]
  obtain ⟨a, ha, hused, hm⟩ := h.account
  have hw := withAccount_eq ha
  have hrow := accountRow_eq ha
  have hwc : withConfig s.view = s.view := withConfig_eq (h.config ▸ hcfg)
  have hquote : chat_quote (configRow s.view) c.model c.input_tokens c.output_tokens = .ok q := by
    rw [configRow_congr h.config]
    exact hq
  obtain ⟨t, ht, hcredit, hdisc⟩ := topup_quote_marked hquote hpos hused
    (activeRow now s.view c.user.id)
  have htq : topupQuoteOf now s.view c.user.id q.base_cost_toman = .ok t := by
    unfold topupQuoteOf
    rw [hrow]
    exact ht
  have hbase := base_cost_pos hquote hpos
  have hx := topupRun now ⟨c.user, q.base_cost_toman, none, [], false⟩ s
  generalize ((⟨c.user, q.base_cost_toman, none, [], false⟩ : TopupCall).prog now).run s = x
    at hx ⊢
  obtain ⟨r, s'⟩ := x
  cases hx with
  | raised e hq' =>
    rw [htq] at hq'
    cases hq'
  | replay q' e r hq' hk hr => cases hk
  | refused q' r hq' hk hle hr =>
    rw [htq] at hq'
    cases hq'
    omega
  | credited q' e r hq' hk hpos' hb hg hp hnone hacc hr =>
    rw [htq] at hq'
    cases hq'
    simp only [hw, hwc, hrow]
    have hmore : available (topped_up a t) = m + q.base_cost_toman := by
      rw [← hm, ← hcredit]
      simp only [available, topped_up, intOr0, Option.getD_some]
      omega
    have hflag : (topped_up a t).first_topup_discount_used = some true := by
      simp [topped_up, hused]
    rw [← hmore]
    exact ready_post hkey h.config h.subscriptions h.plans ha (owner_topped_up a t) hflag hnone
      h.key
  | conflict q' e hq' hnone hacc => exact absurd (accepts_no_key hnone) hacc

/-- As many top-ups as it takes. -/
theorem ready_topups (now : Datetime) {c : ChatCall} {base : Db} {k : String}
    {q : ChatUsageQuote} {cfg : SubscriptionConfig} (hkey : c.idempotency_key = some k)
    (hcfg : base.configs.first (fun _ => true) = some cfg) (hq : c.quote base = .ok q)
    (hpos : 0 < q.billable_cost_toman) (n : Nat) {s : Session Db} {m : Int}
    (h : Ready c base s.view m) :
    Ready c base (history (List.replicate n (.call now (topupOf c q.base_cost_toman))) s).view
      (m + n * q.base_cost_toman) := by
  unfold history
  induction n generalizing s m with
  | zero => simpa using h
  | succ n ih =>
    rw [List.replicate_succ, List.foldl_cons]
    have hnext := ih (ready_topup now hkey hcfg hq hpos h)
    have hsum : m + q.base_cost_toman + n * q.base_cost_toman =
        m + (n + 1 : Nat) * q.base_cost_toman := by
      push_cast
      ring
    rw [hsum] at hnext
    exact hnext

/-! ## A second charge after the subscription -/

/-- A time at which no row is active any more. -/
def lastEnd (now : Datetime) (rows : List UserSubscription) : Datetime :=
  rows.foldr (fun r t => max r.expires_at t) now

theorem le_lastEnd (now : Datetime) (rows : List UserSubscription) : now ≤ lastEnd now rows := by
  unfold lastEnd
  induction rows with
  | nil => exact le_refl now
  | cons r rows ih => exact ih.trans (le_max_right _ _)

theorem inactive_at_lastEnd (now : Datetime) {rows : List UserSubscription} {r : UserSubscription}
    (hr : r ∈ rows) : active_at (lastEnd now rows) r = false := by
  have hle : r.expires_at ≤ lastEnd now rows := by
    unfold lastEnd
    induction rows with
    | nil => cases hr
    | cons x rows ih =>
      rcases List.mem_cons.mp hr with rfl | hr
      · exact le_max_left _ _
      · exact (ih hr).trans (le_max_right _ _)
  unfold active_at
  simp [hle]

/-- Without an active subscription the balances pay, and the ledger grows. -/
theorem late_charge_pays (now : Datetime) {c : ChatCall} {base : Db} {s s' : Session Db}
    {q : ChatUsageQuote} {m : Int} {r : Except PyError ChatUsageChargeResult}
    (hq : c.quote base = .ok q) (hpos : 0 < q.billable_cost_toman) (h : Ready c base s.view m)
    (hend : ∀ r ∈ s.view.subscriptions.rows, active_at now r = false)
    (hm : q.billable_cost_toman ≤ m) (hr : ChatRun now c s r s') :
    s'.view.ledger ≠ s.view.ledger := by
  obtain ⟨a, ha, hused, hav⟩ := h.account
  have hrow := accountRow_eq ha
  have hquote : c.quote s.view = .ok q := by
    unfold ChatCall.quote
    rw [configRow_congr h.config]
    exact hq
  have hnone : activeRow now s.view c.user.id = none :=
    Table.first_eq_none.mpr fun r hr => by simp [hend r hr]
  have hsub : subscriptionOf now s.view c.user.id = .ok (none, none) := by
    unfold subscriptionOf
    rw [hnone]
  have hkn : ledgerRow s.view c.idempotency_key = none := by
    unfold ledgerRow
    split
    · exact Table.first_eq_none.mpr fun e he => by simp [h.key e he]
    · rfl
  have nocover : ∀ w plan, ¬Covers now s.view c.user.id w plan := by
    intro w plan hc
    obtain ⟨r, hf, -⟩ := hc.found
    rw [hsub] at hf
    cases hf
  cases hr with
  | quote_raised e hq' =>
    rw [hquote] at hq'
    cases hq'
  | replay q' e r hq' hk hr =>
    rw [hkn] at hk
    cases hk
  | free q' r hq' hk hle hr =>
    rw [hquote] at hq'
    cases hq'
    omega
  | no_plan q' e hq' hk hp he =>
    rw [hsub] at he
    cases he
  | window_raised q' r v e hq' hk hp hact hv hw =>
    rw [hnone] at hact
    cases hact
  | start_raised q' w plan e hq' hk hp hc he => exact absurd hc (nocover w plan)
  | covered q' w v plan r hq' hk hp hc hv hr => exact absurd hc (nocover w plan)
  | refused q' db r hq' hk hp hb hlt hr =>
    rw [hquote] at hq'
    cases hq'
    rw [hrow, hav] at hlt
    omega
  | paid q' db e r hq' hk hp hb hle he hacc hr =>
    intro heq
    have hlen := congrArg (fun t => t.rows.length) heq
    have hdbl := hb.frame.2
    simp only [Session.view_commitIf, post_eq, List.foldl_cons, List.foldl_nil, hdbl,
      Table.rows_insert hacc, List.length_append, List.length_singleton] at hlen
    omega
  | conflict q' db e hq' hk hp hb hle hek hacc =>
    refine absurd (fun v hv x hx hxe => ?_) hacc
    change e.idempotency_key = some v at hv
    change x.idempotency_key = some v at hxe
    rw [hek] at hv
    exact h.key x hx (hxe.trans hv.symm)

/-- A charge that the window covered can be charged again. -/
theorem covered_not_idempotent {now : Datetime} {c : ChatCall} {s : Session Db} {k : String}
    {q : ChatUsageQuote} {r : ChatUsageChargeResult} {w : UserSubscription}
    {plan : SubscriptionPlan} (hkey : c.idempotency_key = some k) (hk : k ≠ "")
    (hq : c.quote s.view = .ok q) (hpos : 0 < q.billable_cost_toman)
    (hr : ((c.prog now).run s).1 = .ok r) (hkn : ledgerRow s.view c.idempotency_key = none)
    (hc : Covers now s.view c.user.id w plan) : ¬Idempotent now c s := by
  intro hidem
  have hfirst := chatRun now c s
  rw [hr] at hfirst
  obtain ⟨v, hview⟩ := covered_view hq hpos hkn hc hfirst
  have hbase : (charged now c s).view = putSubscription (prepared s.view c.user.id) v := hview
  have hcfg : (charged now c s).view.configs.first (fun _ => true) = some (configRow s.view) := by
    rw [hbase]
    exact first_withConfig (withAccount s.view c.user.id)
  have hacc : (charged now c s).view.accounts.first (fun a => a.user_id = c.user.id) =
      some (accountRow s.view c.user.id) := by
    rw [hbase]
    exact first_withAccount s.view c.user.id
  have hfree : ∀ e ∈ (charged now c s).view.ledger.rows,
      e.idempotency_key ≠ c.idempotency_key := by
    rw [hbase, hkey]
    rw [hkey] at hkn
    exact key_free hk hkn
  have hqb : c.quote (charged now c s).view = .ok q := by
    unfold ChatCall.quote at hq ⊢
    rw [configRow_eq hcfg]
    exact hq
  -- the discount flag goes first, and then enough credit for a second charge
  obtain ⟨m, hready⟩ := ready_mark now (charged now c s) hkey rfl rfl rfl hacc hfree
  have hbpos := base_cost_pos hq hpos
  let n : Nat := (q.billable_cost_toman - m).toNat
  let es : List Event := .call now (markOf c) ::
    List.replicate n (.call now (topupOf c q.base_cost_toman))
  have hlast := ready_topups now hkey hcfg hqb hpos n hready
  have hm : q.billable_cost_toman ≤ m + n * q.base_cost_toman := by
    have h1 : q.billable_cost_toman - m ≤ n := Int.self_le_toNat _
    have h2 : (n : Int) ≤ n * q.base_cost_toman := by
      have := mul_le_mul_of_nonneg_left (show 1 ≤ q.base_cost_toman by omega)
        (Int.natCast_nonneg n)
      simpa using this
    omega
  have hview : (history es (charged now c s)).view =
      (history (List.replicate n (.call now (topupOf c q.base_cost_toman)))
        ((markOf c).run now (charged now c s))).view := rfl
  let later := lastEnd now (charged now c s).view.subscriptions.rows
  have hbetween : Between now later c es := by
    refine ⟨le_lastEnd _ _, fun t d hd => ?_⟩
    have hkeyless : d.key = none ∧ t = now := by
      rcases List.mem_cons.mp hd with h | h
      · cases h
        exact ⟨rfl, rfl⟩
      · cases List.eq_of_mem_replicate h
        exact ⟨rfl, rfl⟩
    rw [hkeyless.1, hkeyless.2, hkey]
    exact ⟨by simp, le_refl _, le_lastEnd _ _⟩
  have hsame := (hidem later es hbetween).1.ledger
  rw [← hview] at hlast
  refine late_charge_pays later hqb hpos hlast ?_ hm (chatRun later c _) hsame.symm
  rw [hlast.subscriptions]
  exact fun r hr => inactive_at_lastEnd now hr

/-- LAW: a charge that costs something and succeeds is idempotent exactly when
its key was in the ledger before, or no subscription window covers it. -/
theorem charge_is_idempotent_iff_the_window_does_not_cover_it (now : Datetime) (c : ChatCall)
    (s : Session Db) (k : String) (q : ChatUsageQuote) (r : ChatUsageChargeResult)
    (hkey : c.idempotency_key = some k) (hk : k ≠ "") (hq : c.quote s.view = .ok q)
    (hpos : 0 < q.billable_cost_toman) (hr : ((c.prog now).run s).1 = .ok r)
    (hok : r.ok = true) :
    Idempotent now c s ↔
      ledgerRow s.view c.idempotency_key ≠ none ∨
        ¬∃ w plan, Covers now s.view c.user.id w plan := by
  constructor
  · intro hidem
    by_cases hkn : ledgerRow s.view c.idempotency_key = none
    · refine .inr ?_
      rintro ⟨w, plan, hc⟩
      exact covered_not_idempotent hkey hk hq hpos hr hkn hc hidem
    · exact .inl hkn
  · intro hcond now' es _
    have hfirst := chatRun now c s
    rw [hr] at hfirst
    have hrec := recorded_charge hkey hk hq hpos hok (hkey ▸ hcond) hfirst
    have hall := history_keeps (recorded_kept k c.user.id) es (s := charged now c s) ⟨hrec, hrec⟩
    exact replay_same hkey hk hall.2 (chatRun now' c _)

/-- The window of the subscription takes the same charge twice. -/
theorem covered_chat_is_charged_twice :
    ¬Idempotent noon (small_chat "again") (.opened subscribed_shop) := by
  intro h
  have hsame := (h noon [] ⟨le_refl _, fun t d hd => by cases hd⟩).1.subscriptions
  revert hsame
  decide +kernel

/-- Without a subscription the balances pay, and the second charge changes
nothing. -/
theorem paid_chat_is_charged_once :
    Idempotent noon (small_chat "again") (.opened shop) ↔
      ledgerRow shop (some "again") ≠ none ∨
        ¬∃ w plan, Covers noon shop customer.id w plan := by
  obtain ⟨q, hq, hpos⟩ := ok_with (x := (small_chat "again").quote shop)
    (p := fun q => decide (0 < q.billable_cost_toman)) (by decide +kernel)
  obtain ⟨r, hr, hok⟩ := ok_with
    (x := (((small_chat "again").prog noon).run (.opened shop)).1) (p := fun r => r.ok)
    (by decide +kernel)
  exact charge_is_idempotent_iff_the_window_does_not_cover_it noon (small_chat "again")
    (.opened shop) "again" q r rfl (by decide) hq (of_decide_eq_true hpos) hr hok

end dr_boz.idempotence
