-- The subscriptions that run at the same time for one user. A purchase tests
-- for a running one, a trial for any row with the status, and a reactivation
-- tests nothing. No constraint of the table stands behind the tests.
import DrBoz.Calls
import DrBoz.Commits

open keyed_table unit_of_work dr_boz.py dr_boz.models dr_boz.codex_capacity dr_boz.toman_billing
open dr_boz.subscriptions dr_boz.views dr_boz.billing_runs dr_boz.chat_runs dr_boz.purchase_runs
open dr_boz.effects dr_boz.calls dr_boz.commits

namespace dr_boz.active_subscriptions

/-- How many subscriptions of the user run at a time. -/
def running (t : Datetime) (db : Db) (user_id : Nat) : Nat :=
  db.subscriptions.count fun r => r.user_id = user_id && active_at t r

/-- No other subscription of its user runs beside the row. -/
def Alone (now : Datetime) (db : Db) (u : UserSubscription) : Prop :=
  ∀ r ∈ db.subscriptions.rows, r.user_id = u.user_id → active_at now r = true → r.id = u.id

/-! ## Every effect keeps one subscription at most -/

section
variable {now t : Datetime} {db db' : Db} {w : Nat}

theorem active_later (h : now ≤ t) {r : UserSubscription} (hr : active_at t r = true) :
    active_at now r = true := by
  unfold active_at at hr ⊢
  simp only [Bool.and_eq_true, decide_eq_true_eq] at hr ⊢
  exact ⟨hr.1, h.trans_lt hr.2⟩

/-- Subscriptions only end by time. -/
theorem running_later (h : now ≤ t) : running t db w ≤ running now db w := by
  refine Table.count_le_count fun r _ hr => ?_
  simp only [Bool.and_eq_true] at hr ⊢
  exact ⟨hr.1, active_later h hr.2⟩

theorem running_congr (h : db'.subscriptions = db.subscriptions) :
    running t db' w = running t db w := by
  unfold running
  rw [h]

/-- A new row of a user without a running subscription. -/
theorem running_insert {u : UserSubscription} (ht : now ≤ t)
    (hnone : ∀ r ∈ db.subscriptions.rows, r.user_id = u.user_id → active_at now r = false)
    (hs : db'.subscriptions = db.subscriptions.insert u) (h : running t db w ≤ 1) :
    running t db' w ≤ 1 := by
  have hcount : running t db' w = running t db w +
      if (decide (u.user_id = w) && active_at t u) = true then 1 else 0 := by
    unfold running
    rw [hs, Table.count_insert (Table.accepts_of_no_unique rfl)]
    rfl
  by_cases hw : u.user_id = w
  · have hzero : running t db w = 0 := by
      refine List.countP_eq_zero.mpr fun r hr hp => ?_
      simp only [Bool.and_eq_true, decide_eq_true_eq] at hp
      have := hnone r hr (hp.1.trans hw.symm)
      rw [active_later ht hp.2] at this
      cases this
    rw [hcount, hzero]
    split <;> omega
  · rw [hcount]
    simp only [hw, decide_false, Bool.false_and, Bool.false_eq_true, if_false]
    exact h

/-- A row in another one's place that does not run when the old one does not. -/
theorem running_put {u v : UserSubscription} (hu : db.subscriptions.get u.id = some u)
    (hid : v.id = u.id) (huser : v.user_id = u.user_id)
    (hv : active_at t v = true → active_at t u = true) (h : running t db w ≤ 1) :
    running t (putSubscription db v) w ≤ 1 := by
  have hcount := Table.count_put hu (r := v) ⟨hid, rfl⟩
    fun r => r.user_id = w && active_at t r
  change running t (putSubscription db v) w + _ = running t db w + _ at hcount
  rw [huser] at hcount
  cases hav : active_at t v with
  | true =>
    rw [hav, hv hav] at hcount
    omega
  | false =>
    rw [hav] at hcount
    simp only [Bool.and_false, Bool.false_eq_true, if_false] at hcount
    omega

theorem recounted_subscriptions (now : Datetime) (db : Db) (k : Option Nat) :
    (recounted now db k).subscriptions = db.subscriptions := by
  unfold recounted
  split
  · rfl
  · split <;> rfl

theorem effect_one (ht : now ≤ t) (he : Effect now db db') (h : running t db w ≤ 1) :
    running t db' w ≤ 1 := by
  cases he with
  | account u => exact h
  | config => exact h
  | posting a b es ha hb hes hg hp hn hta =>
    rw [running_congr (show (post db b es).subscriptions = db.subscriptions by rw [post_eq])]
    exact h
  | window u v hu hv =>
    exact running_put hu hv.id hv.user_id (fun hav => by rw [← hv.active_at]; exact hav) h
  | subscribe u pool hnone hu hp =>
    exact running_insert (u := { u with pool_id := some pool.id }) ht hnone rfl h
  | unassigned u hnone hu hp => exact running_insert ht hnone rfl h
  | cancel u hu =>
    unfold cancelledIn
    rw [running_congr (recounted_subscriptions now _ u.pool_id)]
    exact running_put hu rfl rfl (fun hav => by simp [active_at] at hav) h
  | aside db' ha hl hs hp hr =>
    rw [running_congr hs]
    exact h

/-- A reactivation of a row that is alone. -/
theorem reactivation_one {u v : UserSubscription} (ht : now ≤ t)
    (hu : db.subscriptions.get u.id = some u) (hv : reactivated now u = .ok v)
    (ha : Alone now db u) (h : running t db w ≤ 1) :
    running t (reactivatedIn now db u v) w ≤ 1 := by
  obtain ⟨e, rfl, -⟩ := reactivated_row hv
  unfold reactivatedIn
  rw [running_congr (recounted_subscriptions now _ u.pool_id)]
  by_cases hw : u.user_id = w
  · refine Table.count_le_one (k := u.id) fun r hr hp => ?_
    simp only [Bool.and_eq_true, decide_eq_true_eq] at hp
    rcases (Table.mem_put (r := { u with status := some "active", expires_at := e }) hu
      ⟨rfl, rfl⟩).mp hr with rfl | ⟨hmem, -⟩
    · rfl
    · exact ha r hmem (hp.1.trans hw.symm) (active_later ht hp.2)
  · have hcount := Table.count_put hu
      (r := { u with status := some "active", expires_at := e }) ⟨rfl, rfl⟩
      fun r => r.user_id = w && active_at t r
    simp only [hw, decide_false, Bool.false_and, Bool.false_eq_true, if_false] at hcount
    change running t (putSubscription db _) w + 0 = running t db w + 0 at hcount
    omega

end

/-! ## The writers -/

/-- A call that gives somebody a subscription. -/
inductive Writer where
  | purchase (c : PurchaseCall)
  | trial (user_id : Nat) (reason : String)
  | reactivate (subscription_id : Nat)

def Writer.call : Writer → Call
  | .purchase c => .purchase c
  | .trial u reason => .trial u reason
  | .reactivate id => .reactivate id

/-- A reactivated row is alone. The other writers test for themselves. -/
def Writer.Fits (now : Datetime) (db : Db) : Writer → Prop
  | .reactivate id => ∀ u, db.subscriptions.get id = some u → Alone now db u
  | _ => True

/-- One writer in a session of its own. -/
theorem writer_one {now t : Datetime} {db : Db} {w : Nat} (ht : now ≤ t) (c : Writer)
    (hfit : c.Fits now db) (h : running t db w ≤ 1) :
    running t ((c.call.committed now).run (.opened db)).2.stored w ≤ 1 := by
  have key : running t (c.call.run now (.opened db)).stored w ≤ 1 ∧
      running t (c.call.run now (.opened db)).view w ≤ 1 := by
    cases c with
    | purchase c =>
      exact (trail_of_call now (.purchase c) (.opened db) fun _ hc => by cases hc).keeps
        (fun a b he ha => effect_one ht he ha) ⟨h, h⟩
    | trial u reason =>
      exact (trail_of_call now (.trial u reason) (.opened db) fun _ hc => by cases hc).keeps
        (fun a b he ha => effect_one ht he ha) ⟨h, h⟩
    | reactivate id =>
      rcases run_reactivate now id (.opened db) with hrun | ⟨u, v, hu, hv, hrun⟩
      · rw [Writer.call, hrun]
        exact ⟨h, h⟩
      · have hid : u.id = id := ((Table.get_eq_some _).mp hu).2
        have := reactivation_one ht (hid ▸ hu) hv (hfit u hu) h
        rw [Writer.call, hrun]
        exact ⟨this, this⟩
  rcases run_committed now c.call (.opened db) with hrun | hrun
  · rw [hrun]
    exact key.1
  · rw [hrun, Session.stored_commitIf]
    split
    · exact key.2
    · exact key.1

/-! ## One commit each -/

theorem once_publishIf (b : Bool) : (Prog.publishIf b : Tx Unit).Once := by
  cases b
  · trivial
  · rfl

theorem once_publish_or_caller {α : Type} (b : Bool) (a : α) :
    ((Prog.publishIf b >>= fun _ => pure a : Tx α) >>= fun _ => Prog.publishIf !b).Once := by
  cases b <;> rfl

theorem once_purchase (now : Datetime) (c : PurchaseCall) :
    (c.prog now >>= fun _ => Prog.publishIf !c.commit).Once := by
  have hend : ∀ r : PurchaseTomanSubscriptionResult,
      ((pure r : Tx PurchaseTomanSubscriptionResult) >>=
        fun _ => Prog.publishIf !c.commit).Once := fun _ => once_publishIf _
  unfold PurchaseCall.prog purchase_toman_subscription
  refine (silent_account _).once_bind_bind fun account => ?_
  refine (silent_existing _).once_bind_bind fun existing => ?_
  cases existing with
  | some e => exact hend _
  | none =>
    refine (Prog.silent_read _).once_bind_bind fun active => ?_
    cases active with
    | some u => exact hend _
    | none =>
      refine silent_config.once_bind_bind fun config => ?_
      simp only
      split
      · exact hend _
      · split
        · exact hend _
        · refine (Prog.silent_lift _).once_bind_bind fun expires_at => ?_
          refine (Prog.silent_read _).once_bind_bind fun id => ?_
          refine (Prog.silent_flush _).once_bind_bind fun _ => ?_
          refine (silent_assign _).attempt.once_bind_bind fun assigned => ?_
          split
          · exact (Prog.silent_flush _).once_bind_bind fun _ => hend _
          · trivial
          · refine (Prog.silent_flush _).once_bind_bind fun _ => ?_
            refine (silent_add_ledger _).once_bind_bind fun _ => ?_
            refine (silent_add_ledger _).once_bind_bind fun _ => ?_
            exact once_publish_or_caller c.commit _

theorem silent_trial_checks (user_id : Nat) : (trial_checks user_id).Silent := by
  unfold trial_checks
  refine (Prog.silent_read _).bind fun user => ?_
  cases user with
  | none => exact Prog.silent_throw _
  | some user =>
    simp only
    split
    · exact Prog.silent_throw _
    · refine (Prog.silent_read _).bind fun config => ?_
      cases config with
      | none => exact Prog.silent_throw _
      | some config =>
        simp only
        split
        · exact Prog.silent_throw _
        · refine (Prog.silent_read _).bind fun sub => ?_
          cases sub
          · exact Prog.silent_pure _
          · exact Prog.silent_throw _

theorem once_trial (now : Datetime) (user_id : Nat) (reason : String) :
    (grant_trial_subscription now user_id reason).Once := by
  refine (silent_trial_checks user_id).once_bind fun checked => ?_
  refine (Prog.silent_lift _).once_bind fun expires_at => ?_
  refine (Prog.silent_read _).once_bind fun id => ?_
  refine (Prog.silent_flush _).once_bind fun _ => ?_
  refine (silent_assign _).attempt.once_bind fun assigned => ?_
  split
  · trivial
  · exact (Prog.silent_flush _).once_bind fun _ => (Prog.silent_flush _).once_bind fun _ => rfl

theorem silent_recount (now : Datetime) (u : UserSubscription) : (recount now u).Silent := by
  unfold recount recalculate_pool_active_users
  split
  · refine Prog.Silent.bind ((Prog.silent_read _).bind fun _ => (Prog.silent_read _).bind
      fun pool => ?_) fun _ => Prog.silent_pure _
    cases pool
    · exact Prog.silent_pure _
    · exact (Prog.silent_flush _).bind fun _ => Prog.silent_pure _
  · exact Prog.silent_pure _

theorem once_reactivate (now : Datetime) (id : Nat) :
    (reactivate_user_subscription now id).Once := by
  unfold reactivate_user_subscription find_subscription
  refine Prog.Silent.once_bind ((Prog.silent_read _).bind fun u => ?_) fun u => ?_
  · cases u
    · exact Prog.silent_throw _
    · exact Prog.silent_pure _
  · exact (Prog.silent_lift _).once_bind fun _ => (Prog.silent_flush _).once_bind fun _ =>
      (silent_recount _ _).once_bind fun _ => rfl

theorem once_writer (now : Datetime) (w : Writer) : (w.call.committed now).Once := by
  cases w with
  | purchase c =>
    change ((c.prog now >>= fun _ => pure ()) >>= fun _ => Prog.publishIf !c.commit).Once
    rw [Prog.bind_assoc]
    exact once_purchase now c
  | trial u reason => exact ((once_trial now u reason).bind_pure (g := fun _ => ())).bind_pure
  | reactivate id => exact ((once_reactivate now id).bind_pure (g := fun _ => ())).bind_pure

/-! ## Writers side by side -/

section
variable {ι : Type} [DecidableEq ι]

/-- The writers, each with a session and a time of its own. -/
def side_by_side (db : Db) (now : ι → Datetime) (w : ι → Writer) :
    System ι Db Change PyError Unit :=
  .init db fun i => (w i).call.committed (now i)

/-- Whatever the schedule, the user has one running subscription at most from
the times of the writers on that have committed. -/
def OneActive (start : Datetime) (db : Db) (user_id : Nat) (now : ι → Datetime)
    (w : ι → Writer) : Prop :=
  running start db user_id ≤ 1 → ∀ ms t, start ≤ t →
    (∀ i, (((side_by_side db now w).run ms).worker i).published = true → now i ≤ t) →
    running t ((side_by_side db now w).run ms).store user_id ≤ 1

/-- LAW: when every writer commits on a store that still answers what it has
read, and reactivates only a row whose user has no other running subscription
then, nobody has two running subscriptions at any moment. -/
theorem sound_writers_keep_one_active (start : Datetime) (db : Db) (user_id : Nat)
    (now : ι → Datetime) (w : ι → Writer) (ms : List (Move ι)) (t : Datetime)
    (hstart : running start db user_id ≤ 1)
    (hsound : (side_by_side db now w).SoundRun false (fun i db => (w i).Fits (now i) db) ms)
    (ht : start ≤ t)
    (hnow : ∀ i, (((side_by_side db now w).run ms).worker i).published = true → now i ≤ t) :
    running t ((side_by_side db now w).run ms).store user_id ≤ 1 := by
  obtain ⟨is, hserial, -, hmem⟩ := sound_runs_are_serial hsound
    (never_busy (fun i => once_writer (now i) (w i)) ms)
  refine hserial.keeps (I := fun db => running t db user_id ≤ 1) (fun i hi db' hfit h => ?_)
    ((running_later ht).trans hstart)
  rcases (hmem i).mp hi with hp | ⟨hf, -⟩
  · exact writer_one (hnow i hp) (w i) hfit h
  · cases hf

end

/-! ## An old subscription comes back -/

/-- The customer's first subscription was cancelled. -/
def cancelled_shop : Db :=
  { shop with
    subscriptions := Table.empty.insert { subscription_row with status := some "cancelled" } }

def small_purchase : PurchaseCall where
  user := customer
  plan := tiered_plan
  idempotency_key := some "new"
  payment_confirmed := true
  wallet_payment_toman := none
  grant_gift_toman_balance := true
  commit := true

def purchase_and_reactivate (late : Bool) : Writer :=
  if late then .reactivate 1 else .purchase small_purchase

/-- After the purchase, an admin reactivates the old row. -/
theorem reactivation_beside_a_purchase :
    ¬OneActive noon cancelled_shop 1 (fun _ => noon) purchase_and_reactivate := by
  intro h
  have hone := h (by decide +kernel)
    (.replicate 20 (.step false) ++ .replicate 20 (.step true)) noon (le_refl _)
    (fun _ _ => le_refl _)
  revert hone
  decide +kernel

def two_purchases (late : Bool) : Writer :=
  .purchase { small_purchase with idempotency_key := some (if late then "late" else "new") }

/-- The second purchase in turn finds the first one's subscription. -/
theorem purchases_in_turn_keep_one_active :
    running noon ((side_by_side cancelled_shop (fun _ => noon) two_purchases).run
      (.replicate 20 (.step false) ++ .replicate 20 (.step true))).store 1 ≤ 1 := by
  refine sound_writers_keep_one_active noon cancelled_shop 1 (fun _ => noon) two_purchases _ noon
    (by decide +kernel) (soundRun_append ?_ ?_) (le_refl _) fun _ _ => le_refl _
  · exact sound_alone (fun _ => trivial) (fun _ => trivial) (by decide +kernel) 20
  · refine sound_alone (fun _ => trivial) (fun _ => ?_) (by decide +kernel) 20
    rw [run_alone_ne (by decide)]
    trivial

end dr_boz.active_subscriptions
