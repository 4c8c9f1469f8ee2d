-- Capacity slots: a pool holds no more active subscriptions than it has
-- slots, and hands out a slot while one is free. The cached counter of a pool
-- stands between the subscriptions that are active now and those that still
-- have the status.
import DrBoz.Calls

open keyed_table unit_of_work dr_boz.py dr_boz.models dr_boz.codex_capacity dr_boz.toman_billing
open dr_boz.subscriptions dr_boz.views dr_boz.billing_runs dr_boz.chat_runs dr_boz.purchase_runs
open dr_boz.effects dr_boz.calls

namespace dr_boz.capacity

/-- A row holds a slot of the pool now. -/
def holds (now : Datetime) (k : Nat) (r : UserSubscription) : Bool :=
  r.pool_id = some k && active_at now r

/-- A row of the pool with the status `active`, expired or not. -/
def labelled (k : Nat) (r : UserSubscription) : Bool :=
  r.pool_id = some k && r.status = some "active"

/-- The active unexpired subscriptions of a pool. -/
def occupied (now : Datetime) (db : Db) (k : Nat) : Nat := db.subscriptions.count (holds now k)

/-- The counter of the pool is set, at least what is occupied, at most what is
labelled, and within the limit. -/
def Counted (now : Datetime) (db : Db) (p : CapacityPool) : Prop :=
  ∃ n : Int, p.active_users = some n ∧ (occupied now db p.id : Int) ≤ n ∧
    n ≤ db.subscriptions.count (labelled p.id) ∧ ∀ m, p.max_users = some m → n ≤ m

def Consistent (now : Datetime) (db : Db) : Prop := ∀ p ∈ db.pools.rows, Counted now db p

/-- No pool is oversold. -/
def Within (now : Datetime) (db : Db) : Prop :=
  ∀ p ∈ db.pools.rows, ∀ m, p.max_users = some m → (occupied now db p.id : Int) ≤ m

/-- No subscription of a pool keeps the status `active` past its end. -/
def NoStale (now : Datetime) (db : Db) : Prop :=
  ∀ r ∈ db.subscriptions.rows, r.pool_id ≠ none → r.status = some "active" → now < r.expires_at

/-- An assignment succeeds while an active pool has a free slot. -/
def SlotsAreFound (now : Datetime) (db : Db) : Prop :=
  ∀ p ∈ db.pools.rows, ∀ m, p.status = some "active" → p.max_users = some m →
    (occupied now db p.id : Int) < m → ∀ (s : Session Db) (u : UserSubscription), s.view = db →
      u.pool_id = none → ∃ r, ((assign_subscription_pool u).run s).1 = .ok r

/-! ## Counts of rows -/

section
variable {now : Datetime} {db : Db} {k : Nat}

theorem active_labelled {r : UserSubscription} (h : active_at now r = true) :
    r.status = some "active" := by
  unfold active_at at h
  simpa using (Bool.and_eq_true_iff.mp h).1

theorem holds_labelled {r : UserSubscription} (h : holds now k r = true) :
    labelled k r = true := by
  unfold holds at h
  unfold labelled
  obtain ⟨h1, h2⟩ := Bool.and_eq_true_iff.mp h
  rw [h1, active_labelled h2]
  rfl

theorem occupied_le_labelled : occupied now db k ≤ db.subscriptions.count (labelled k) :=
  Table.count_le_count fun _ _ h => holds_labelled h

/-- Slots are only freed by time. -/
theorem occupied_later {now' : Datetime} (h : now ≤ now') :
    occupied now' db k ≤ occupied now db k := by
  refine Table.count_le_count fun r _ hr => ?_
  unfold holds active_at at hr ⊢
  simp only [Bool.and_eq_true, decide_eq_true_eq] at hr ⊢
  exact ⟨hr.1, hr.2.1, h.trans_lt hr.2.2⟩

theorem consistent_later {now' : Datetime} (h : now ≤ now') (hc : Consistent now db) :
    Consistent now' db := by
  intro p hp
  obtain ⟨n, hn, h1, h2, h3⟩ := hc p hp
  have : occupied now' db p.id ≤ occupied now db p.id := occupied_later h
  exact ⟨n, hn, by omega, h2, h3⟩

theorem consistent_frame {db' : Db} (h : Consistent now db)
    (hs : db'.subscriptions = db.subscriptions) (hp : db'.pools = db.pools) :
    Consistent now db' := by
  unfold Consistent Counted occupied at *
  rw [hs, hp]
  exact h

theorem count_put_same {u v : UserSubscription} (hu : db.subscriptions.get u.id = some u)
    (hid : v.id = u.id) (p : UserSubscription → Bool) (hp : p v = p u) :
    (db.subscriptions.put v).count p = db.subscriptions.count p := by
  have := Table.count_put hu (r := v) ⟨hid, rfl⟩ p
  rw [hp] at this
  omega

/-! ## Every effect keeps the counters consistent -/

theorem holds_terms (now : Datetime) {u v : UserSubscription} (h : SameTerms v u) :
    holds now k v = holds now k u ∧ labelled k v = labelled k u := by
  unfold holds labelled
  rw [h.pool_id, h.active_at, h.status]
  exact ⟨rfl, rfl⟩

theorem consistent_window {u v : UserSubscription} (hu : db.subscriptions.get u.id = some u)
    (hv : SameTerms v u) (hc : Consistent now db) : Consistent now (putSubscription db v) := by
  intro p hp
  obtain ⟨n, hn, h1, h2, h3⟩ := hc p hp
  have ho := count_put_same hu hv.id (holds now p.id) (holds_terms now hv).1
  have hl := count_put_same hu hv.id (labelled p.id) (holds_terms now hv).2
  unfold occupied at h1
  refine ⟨n, hn, ?_, ?_, h3⟩
  · rw [← ho] at h1
    exact h1
  · rw [← hl] at h2
    exact h2

/-- A pool that has room has a counter below its limit. -/
theorem has_room_iff {p : CapacityPool} : has_room p = true ↔
    p.status = some "active" ∧ ∃ n m, p.active_users = some n ∧ p.max_users = some m ∧ n < m := by
  unfold has_room
  cases p.active_users with
  | none => simp
  | some n => cases p.max_users <;> simp

theorem mem_lowest {pool : CapacityPool} (h : db.pools.lowest has_room = some pool) :
    pool ∈ db.pools.rows ∧ has_room pool = true := by
  have := List.mem_filter.mp (List.argmin_mem h)
  exact ⟨this.1, this.2⟩

theorem consistent_subscribe {u : UserSubscription} {pool : CapacityPool}
    (hu : u.status = some "active") (hp : db.pools.lowest has_room = some pool)
    (hc : Consistent now db) : Consistent now (subscribed db u pool) := by
  obtain ⟨hmem, hroom⟩ := mem_lowest hp
  obtain ⟨-, n, m, hn, hm, hlt⟩ := has_room_iff.mp hroom
  have hget : db.pools.get pool.id = some pool := (Table.get_eq_some _).mpr ⟨hmem, rfl⟩
  have hacc : db.subscriptions.Accepts { u with pool_id := some pool.id } :=
    Table.accepts_of_no_unique rfl
  have hcount := fun q => Table.count_insert hacc q
  intro p hpm
  rcases (Table.mem_put (r := { pool with active_users := some (one_more pool) }) hget
    ⟨rfl, rfl⟩).mp hpm with rfl | ⟨hpo, hne⟩
  · obtain ⟨n', hn', h1, h2, h3⟩ := hc pool hmem
    rw [hn] at hn'
    cases hn'
    have hone : one_more pool = n + 1 := by
      unfold one_more
      rw [hn, hm]
      simp only [intOr0, Option.getD_some]
      omega
    refine ⟨n + 1, by rw [hone], ?_, ?_, ?_⟩
    · unfold occupied subscribed
      rw [hcount]
      split
      · unfold occupied at h1
        push_cast
        omega
      · unfold occupied at h1
        push_cast
        omega
    · unfold subscribed
      rw [hcount, if_pos (by simp [labelled, Row.setKey, hu])]
      push_cast
      omega
    · intro m' hm'
      change pool.max_users = some m' at hm'
      rw [hm] at hm'
      cases hm'
      omega
  · obtain ⟨n', hn', h1, h2, h3⟩ := hc p hpo
    have hk : ¬pool.id = p.id := fun h => hne h.symm
    refine ⟨n', hn', ?_, ?_, h3⟩
    · unfold occupied subscribed at *
      rw [hcount, if_neg (by simp [holds, Row.setKey, hk])]
      exact h1
    · unfold subscribed
      rw [hcount, if_neg (by simp [labelled, Row.setKey, hk])]
      exact h2

/-- A row without a pool is in no count. -/
theorem consistent_unassigned {u : UserSubscription} (hu : u.pool_id = none)
    (hc : Consistent now db) : Consistent now (unassigned db u) := by
  have hacc : db.subscriptions.Accepts u := Table.accepts_of_no_unique rfl
  intro p hp
  obtain ⟨n, hn, h1, h2, h3⟩ := hc p hp
  refine ⟨n, hn, ?_, ?_, h3⟩
  · unfold occupied unassigned at *
    rw [Table.count_insert hacc, if_neg (by simp [holds, Row.setKey, hu])]
    exact h1
  · unfold unassigned
    rw [Table.count_insert hacc, if_neg (by simp [labelled, Row.setKey, hu])]
    exact h2

/-- A new status of a row, and the recount of its pool, keep the counters
consistent when the pool is not oversold by it. -/
theorem consistent_recounted {u v : UserSubscription} (hu : db.subscriptions.get u.id = some u)
    (hid : v.id = u.id) (hpool : v.pool_id = u.pool_id)
    (hfit : ∀ k p m, u.pool_id = some k → db.pools.get k = some p → p.max_users = some m →
      (occupied now (putSubscription db v) k : Int) ≤ m)
    (hc : Consistent now db) :
    Consistent now (recounted now (putSubscription db v) u.pool_id) := by
  -- the counts of the other pools do not see the row
  have away : ∀ j, u.pool_id ≠ some j →
      (db.subscriptions.put v).count (holds now j) = db.subscriptions.count (holds now j) ∧
      (db.subscriptions.put v).count (labelled j) = db.subscriptions.count (labelled j) := by
    intro j hj
    exact ⟨count_put_same hu hid _ (by simp [holds, hpool, hj]),
      count_put_same hu hid _ (by simp [labelled, hpool, hj])⟩
  have other : ∀ p ∈ db.pools.rows, u.pool_id ≠ some p.id →
      Counted now (putSubscription db v) p := by
    intro p hp hne
    obtain ⟨n, hn, h1, h2, h3⟩ := hc p hp
    obtain ⟨ho, hl⟩ := away p.id hne
    refine ⟨n, hn, ?_, ?_, h3⟩
    · rw [occupied, ← ho] at h1
      exact h1
    · rw [← hl] at h2
      exact h2
  cases hk : u.pool_id with
  | none =>
    intro p hp
    exact other p hp (by rw [hk]; simp)
  | some k =>
    unfold recounted
    simp only
    cases hg : (putSubscription db v).pools.get k with
    | none =>
      intro p hp
      refine other p hp ?_
      rw [hk]
      intro h
      cases h
      have hsome : db.pools.get p.id = some p := (Table.get_eq_some _).mpr ⟨hp, rfl⟩
      rw [putSubscription_pools, hsome] at hg
      cases hg
    | some p₀ =>
      have hp₀ : p₀.id = k := ((Table.get_eq_some _).mp hg).2
      have hg₀ : (putSubscription db v).pools.get p₀.id = some p₀ := by rw [hp₀]; exact hg
      intro p hp
      let counted : CapacityPool :=
        { p₀ with active_users := some (occupied now (putSubscription db v) k : Int) }
      rcases (Table.mem_put (o := p₀) (r := counted) hg₀ ⟨rfl, rfl⟩).mp hp with
        rfl | ⟨hpo, hne⟩
      · refine ⟨_, rfl, ?_, ?_, ?_⟩
        · exact le_of_eq (by rw [← hp₀]; rfl)
        · have : occupied now (putSubscription db v) k ≤ _ := occupied_le_labelled
          rw [← hp₀] at this ⊢
          exact_mod_cast this
        · intro m hm
          exact hfit k p₀ m hk hg hm
      · have hother := other p hpo (by
          rw [hk]
          intro h
          cases h
          exact hne hp₀.symm)
        obtain ⟨n, hn, h1, h2, h3⟩ := hother
        exact ⟨n, hn, h1, h2, h3⟩

theorem consistent_cancel {u : UserSubscription} (hu : db.subscriptions.get u.id = some u)
    (hc : Consistent now db) : Consistent now (cancelledIn now db u) := by
  refine consistent_recounted (v := { u with status := some "cancelled" }) hu rfl rfl ?_ hc
  intro k p m hk hg hm
  obtain ⟨hmem, hid⟩ := (Table.get_eq_some _).mp hg
  obtain ⟨n, -, h1, -, h3⟩ := hc p hmem
  have hcount := Table.count_put hu (r := { u with status := some "cancelled" }) ⟨rfl, rfl⟩
    (holds now k)
  have hno : holds now k { u with status := some "cancelled" } = false := by
    simp [holds, active_at]
  rw [hno] at hcount
  have hle := h3 m hm
  change p.id = k at hid
  rw [hid] at h1
  unfold occupied at h1 ⊢
  unfold putSubscription
  simp only [Bool.false_eq_true, if_false, add_zero] at hcount ⊢
  omega

/-- The pool of the subscription has a slot for it beside the other ones. -/
def FreeSlot (now : Datetime) (db : Db) (u : UserSubscription) : Prop :=
  ∀ k p m, u.pool_id = some k → db.pools.get k = some p → p.max_users = some m →
    (occupied now db k : Int) < m + if holds now k u then 1 else 0

theorem consistent_reactivation {u v : UserSubscription}
    (hu : db.subscriptions.get u.id = some u) (hv : reactivated now u = .ok v)
    (hfree : FreeSlot now db u) (hc : Consistent now db) :
    Consistent now (reactivatedIn now db u v) := by
  obtain ⟨t, rfl, hlt⟩ := reactivated_row hv
  refine consistent_recounted hu rfl rfl ?_ hc
  intro k p m hk hg hm
  have hslot := hfree k p m hk hg hm
  have hcount := Table.count_put hu (r := { u with status := some "active", expires_at := t })
    ⟨rfl, rfl⟩ (holds now k)
  have hyes : holds now k { u with status := some "active", expires_at := t } = true := by
    simp [holds, active_at, hk, hlt]
  rw [hyes, if_pos rfl] at hcount
  unfold occupied at hslot ⊢
  unfold putSubscription
  split at hslot
  · rename_i h
    rw [if_pos h] at hcount
    simp only at hcount ⊢
    omega
  · rename_i h
    rw [if_neg h] at hcount
    simp only at hcount ⊢
    omega

theorem effect_consistent {db' : Db} (he : Effect now db db') (hc : Consistent now db) :
    Consistent now db' := by
  cases he with
  | account u => exact consistent_frame hc rfl rfl
  | config => exact consistent_frame hc rfl rfl
  | posting a b es ha hb hes hg hp hn ht =>
    rw [post_eq]
    exact consistent_frame hc rfl rfl
  | window u v hu hv => exact consistent_window hu hv hc
  | subscribe u pool hnone hu hp => exact consistent_subscribe hu.1 hp hc
  | unassigned u hnone hu hp => exact consistent_unassigned hu.2 hc
  | cancel u hu => exact consistent_cancel hu hc
  | aside db' ha hl hs hp hr => exact consistent_frame hc hs hp

theorem consistent_within (hc : Consistent now db) : Within now db := by
  intro p hp m hm
  obtain ⟨n, -, h1, -, h3⟩ := hc p hp
  exact h1.trans (h3 m hm)

/-- An assignment to a row without a pool succeeds when some pool has room. -/
theorem assign_succeeds {s : Session Db} {u : UserSubscription} {pool : CapacityPool}
    (hu : u.pool_id = none) (hp : s.view.pools.lowest has_room = some pool) :
    ∃ r, ((assign_subscription_pool u).run s).1 = .ok r := by
  unfold assign_subscription_pool
  rw [hu]
  simp only [Prog.run_bind, Prog.run_read, Prog.continueWith_ok, hp]
  exact ⟨_, rfl⟩

theorem consistent_found (hc : Consistent now db) (hstale : NoStale now db) :
    SlotsAreFound now db := by
  intro p hp m hst hm hlt s u hs hu
  obtain ⟨n, hn, -, h2, -⟩ := hc p hp
  have hle : db.subscriptions.count (labelled p.id) ≤ occupied now db p.id := by
    refine Table.count_le_count fun r hr hl => ?_
    unfold labelled at hl
    simp only [Bool.and_eq_true, decide_eq_true_eq] at hl
    have := hstale r hr (by rw [hl.1]; simp) hl.2
    simp [holds, active_at, hl.1, hl.2, this]
  have hroom : has_room p = true := has_room_iff.mpr ⟨hst, n, m, hn, hm, by omega⟩
  have hne : db.pools.lowest has_room ≠ none := by
    unfold Table.lowest
    intro h
    rw [List.argmin_eq_none] at h
    have : p ∈ db.pools.rows.filter has_room := List.mem_filter.mpr ⟨hp, hroom⟩
    rw [h] at this
    cases this
  obtain ⟨pool, hpool⟩ := Option.ne_none_iff_exists'.mp hne
  exact assign_succeeds hu (hs ▸ hpool)

end

/-! ## Runs -/

/-- A reactivation finds a free slot in the pool of its subscription. -/
def SlotForReactivation (s : Session Db) (e : Event) : Prop :=
  ∀ t id u, e = .call t (.reactivate id) → s.view.subscriptions.get id = some u →
    FreeSlot t s.view u

theorem event_consistent {now : Datetime} {s : Session Db} {e : Event} (ht : now ≤ e.time now)
    (hfit : SlotForReactivation s e) (hs : Consistent now s.stored ∧ Consistent now s.view) :
    Consistent (e.time now) (e.run s).stored ∧ Consistent (e.time now) (e.run s).view := by
  cases e with
  | commit => exact ⟨hs.2, hs.2⟩
  | rollback => exact ⟨hs.1, hs.1⟩
  | call t c =>
    have hlater : Consistent t s.stored ∧ Consistent t s.view :=
      ⟨consistent_later ht hs.1, consistent_later ht hs.2⟩
    exact call_keeps (fun a b hab ha => effect_consistent hab ha) (fun u v hc hu hv hview =>
      consistent_reactivation hu hv (hfit t u.id u (congrArg _ hc) hu) hview) hlater

/-- LAW: in a history that starts with right counters, and where every
reactivation finds a free slot, no pool is ever oversold, however much time
passes; and while no expired subscription of a pool keeps its status, a free
slot is found. -/
theorem slots_are_not_oversold_and_are_found (start : Datetime) (db : Db) (es : List Event)
    (hstart : Consistent start db) (ht : Timely start es)
    (hfit : EachStep SlotForReactivation es (.opened db)) (now : Datetime)
    (hnow : clock start es ≤ now) :
    let s := history es (.opened db)
    (Within now s.stored ∧ Within now s.view) ∧
      (NoStale now s.stored → SlotsAreFound now s.stored) ∧
      (NoStale now s.view → SlotsAreFound now s.view) := by
  have h := timely_history (J := fun t s => Consistent t s.stored ∧ Consistent t s.view)
    (fun t s e ht hp hs => event_consistent ht hp hs) es ht hfit ⟨hstart, hstart⟩
  have h1 := consistent_later hnow h.1
  have h2 := consistent_later hnow h.2
  exact ⟨⟨consistent_within h1, consistent_within h2⟩, consistent_found h1, consistent_found h2⟩

/-- A pool with one slot: one subscription has it, and another one had it. -/
def full_shop : Db :=
  { subscribed_shop with
    subscriptions := (Table.empty.insert subscription_row).insert
      { subscription_row with user_id := 2, status := some "cancelled" }
    pools := Table.empty.insert { id := 1, max_users := some 1, active_users := some 1 } }

theorem full_shop_consistent : Consistent noon full_shop := by
  intro p hp
  rw [List.mem_singleton.mp hp]
  refine ⟨1, rfl, ?_, ?_, ?_⟩
  · decide +kernel
  · decide +kernel
  · intro m hm
    cases hm
    decide

/-- Slots are neither oversold nor lost, as time passes. -/
def SlotsKept (start : Datetime) (db : Db) : Prop :=
  Consistent start db → ∀ es now, Timely start es → clock start es ≤ now →
    Within now (history es (.opened db)).stored ∧
      SlotsAreFound now (history es (.opened db)).stored

/-- An admin reactivates the second subscription, and the pool is oversold. -/
theorem reactivation_oversells : ¬SlotsKept noon full_shop := by
  intro h
  have hwithin := (h full_shop_consistent [.call noon (.reactivate 2)] noon
    ⟨le_refl _, trivial⟩ (le_refl _)).1
  have := hwithin { id := 1, max_users := some 1, active_users := some 2 } (by decide +kernel) 1 rfl
  revert this
  decide +kernel

/-- A chat oversells nothing. -/
theorem chat_does_not_oversell :
    let s := history [.call noon (.chat (small_chat "chat"))] (.opened full_shop)
    (Within noon s.stored ∧ Within noon s.view) ∧
      (NoStale noon s.stored → SlotsAreFound noon s.stored) ∧
      (NoStale noon s.view → SlotsAreFound noon s.view) :=
  slots_are_not_oversold_and_are_found noon full_shop [.call noon (.chat (small_chat "chat"))]
    full_shop_consistent ⟨le_refl _, trivial⟩ ⟨fun _ _ _ he => (by cases he), trivial⟩ noon
    (le_refl _)

end dr_boz.capacity
