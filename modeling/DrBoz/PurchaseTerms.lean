-- Law of the purchase of a subscription: a refusal leaves the books, the
-- subscriptions and the pools as they were, and a purchase takes its terms as a
-- whole: the wallet's part, the rest from outside, one subscription, two
-- entries and one place in a pool.
import DrBoz.Capacity
import DrBoz.Postings
import DrBoz.BotPurchases

open keyed_table unit_of_work dr_boz.py dr_boz.models dr_boz.codex_capacity dr_boz.toman_billing
open dr_boz.views dr_boz.billing_runs dr_boz.purchase_runs dr_boz.effects dr_boz.capacity
open dr_boz.calls dr_boz.commits

namespace dr_boz.purchase_terms

/-- The books, the subscriptions and the pools are the same. An account that
has been opened counts like none. -/
structure AsBefore (db db' : Db) : Prop where
  accounts : ∀ u, { accountRow db' u with id := 0 } = { accountRow db u with id := 0 }
  ledger : db'.ledger = db.ledger
  subscriptions : db'.subscriptions = db.subscriptions
  pools : db'.pools = db.pools

/-- One pool gains one active user, and its counter one more. -/
structure OneJoins (now : Datetime) (db db' : Db) (pool : CapacityPool) : Prop where
  row : ∃ before after p, db.pools.rows = before ++ pool :: after ∧
    db'.pools.rows = before ++ p :: after ∧
    ∀ n, pool.active_users = some n → 0 ≤ n → p.active_users = some (n + 1)
  joined : occupied now db' pool.id = occupied now db pool.id + 1
  others : ∀ k, k ≠ pool.id → occupied now db' k = occupied now db k

/-- What a purchase leaves. -/
structure Terms (now : Datetime) (c : PurchaseCall) (db db' : Db)
    (r : PurchaseTomanSubscriptionResult) : Prop where
  parts : r.wallet_payment_toman + r.external_payment_toman = r.payment_toman
  nonneg : 0 ≤ r.wallet_payment_toman
  covered : r.wallet_payment_toman ≤ intOr0 (accountRow db c.user.id).paid_balance_toman
  paid : intOr0 (accountRow db' c.user.id).paid_balance_toman =
    intOr0 (accountRow db c.user.id).paid_balance_toman - r.wallet_payment_toman
  external : c.payment_confirmed = false → r.external_payment_toman = 0
  subscription : ∃ u, db'.subscriptions.rows = db.subscriptions.rows ++ [u] ∧
    u.user_id = c.user.id ∧ u.plan_id = c.plan.id ∧ active_at now u = true
  entries : ∃ payment gift, db'.ledger.rows = db.ledger.rows ++ [payment, gift]
  pool : ∃ pool, OneJoins now db db' pool

/-! ## The refusals -/

section
variable {now : Datetime} {c : PurchaseCall} {s t : Session Db} {db : Db}
variable {r : PurchaseTomanSubscriptionResult}

theorem account_opened (db : Db) (u v : Nat) :
    { accountRow (withAccount db u) v with id := 0 } = { accountRow db v with id := 0 } := by
  by_cases huv : v = u
  · rw [huv, accountRow_withAccount]
  · unfold withAccount
    cases h : db.accounts.first fun a => a.user_id = u with
    | some a => rfl
    | none =>
      unfold accountRow
      dsimp only
      rcases Table.first_insert_cases db.accounts { user_id := u } fun a => a.user_id = v with
        hsame | ⟨-, hnew, -⟩
      · rw [hsame]
        cases db.accounts.first fun a => a.user_id = v with
        | some a => rfl
        | none => rfl
      · have hsame : u = v := of_decide_eq_true hnew
        exact absurd hsame.symm huv

theorem as_before_account (db : Db) (u : Nat) : AsBefore db (withAccount db u) :=
  ⟨account_opened db u, rfl, rfl, rfl⟩

theorem as_before_base (c : PurchaseCall) (db : Db) : AsBefore db (c.base db) :=
  ⟨account_opened db c.user.id, rfl, rfl, rfl⟩

theorem purchase_refused (h : PurchaseRun now c s (.ok r) t) (hno : r.ok = false) :
    AsBefore s.view t.view ∧ t.stored = s.stored := by
  cases h with
  | replay e r hk hr => exact absurd hr (by rw [hno]; exact Bool.false_ne_true)
  | active_exists u r hk ha hr => exact ⟨as_before_account _ _, rfl⟩
  | unpaid r hk ha hu hr => exact ⟨as_before_base c _, rfl⟩
  | no_pool r hk ha hu hp hr => exact ⟨as_before_base c _, rfl⟩
  | bought ends pool e₁ e₂ r hk ha hu ht hp he h1 h2 hr =>
    exact absurd hr (by rw [hno]; exact Bool.false_ne_true)

/-! ## The terms in the answer -/

/-- The three amounts of the answer. -/
structure Billed (c : PurchaseCall) (db : Db) (r : PurchaseTomanSubscriptionResult) : Prop where
  payment : r.payment_toman = c.price db
  wallet : r.wallet_payment_toman = c.wallet db
  external : r.external_payment_toman = c.price db - c.wallet db

/-- Whatever a purchase gives back that is made under a fresh key. -/
def Answers (c : PurchaseCall) (db : Db) (r : PurchaseTomanSubscriptionResult) : Prop :=
  r.ok = true → ledgerRow db c.idempotency_key = none → Billed c db r

theorem wp_end {b : Bool} {Q : PurchaseTomanSubscriptionResult → Prop} (h : Q r) :
    (Prog.publishIf b >>= fun _ => (return r : Tx PurchaseTomanSubscriptionResult)).wp
      (fun _ _ => True) (fun r _ => Q r) (fun _ _ => True) s := by
  cases b with
  | false => exact h
  | true => exact ⟨trivial, fun _ _ => h⟩

/-- The answer of a purchase that is made, with the two entries under their ids. -/
def made (c : PurchaseCall) (db : Db) (subscription : UserSubscription) (i j : Nat) :
    PurchaseTomanSubscriptionResult where
  ok := true
  account := c.account db
  subscription := some subscription
  payment_toman := c.price db
  gift_credit_toman := c.gift db
  wallet_payment_toman := c.wallet db
  external_payment_toman := c.price db - c.wallet db
  ledger_entries := some (List.zipWith (fun e id => { e with id := id })
    (postings.bought_entries c db subscription.id) [i, j])

/-- A purchase under a fresh key that goes well gives back its own terms. -/
theorem purchase_makes (now : Datetime) (c : PurchaseCall) (s : Session Db) :
    (c.prog now).wp (fun _ _ => True) (fun r _ => r.ok = true →
      ledgerRow s.view c.idempotency_key = none → ∃ u i j, r = made c s.view u i j)
      (fun _ _ => True) s := by
  unfold PurchaseCall.prog purchase_toman_subscription
  refine Prog.wp_bind (Prog.Silent.wp_run (silent_account _)
    (run_get_or_create_billing_account _ _) ?_)
  refine Prog.wp_bind (Prog.Silent.wp_run (silent_existing _) (run_existing_ledger _ _) ?_)
  simp only [ledgerRow_withAccount]
  cases hkey : ledgerRow s.view c.idempotency_key with
  | some existing => exact fun _ hnone => nomatch hnone
  | none =>
  refine Prog.wp_bind (Prog.wp_read ?_)
  dsimp only
  split
  · exact fun hok => nomatch hok
  refine Prog.wp_bind (Prog.Silent.wp_run silent_config
    (run_get_or_create_subscription_config _) ?_)
  have hconfig : configRow (Session.view ⟨s.stored, withAccount s.view c.user.id⟩) =
      configRow s.view := configRow_withAccount _ _
  rw [hconfig]
  refine Prog.wp_ite (fun _ hok => nomatch hok) fun _ => ?_
  refine Prog.wp_ite (fun _ hok => nomatch hok) fun _ => ?_
  refine Prog.wp_bind (Prog.wp_lift (fun ends _ => ?_) fun _ _ => trivial)
  refine Prog.wp_bind (Prog.wp_read (Prog.wp_bind (Prog.wp_flush fun _ => ?_)))
  have hnone : (c.row now ends).pool_id = none := rfl
  have hview : Session.view ⟨s.stored, unassigned (c.base s.view) (c.row now ends)⟩ =
      { c.base s.view with
        subscriptions := (c.base s.view).subscriptions.insert (c.row now ends) } := rfl
  have hassign := run_attempt_assign hnone hview
  cases hpool : (c.base s.view).pools.lowest has_room with
  | none =>
    rw [hpool] at hassign
    refine Prog.wp_bind (Prog.Silent.wp_run (silent_assign _).attempt hassign ?_)
    exact Prog.wp_bind (Prog.wp_flush fun _ hok => nomatch hok)
  | some pool =>
    rw [hpool] at hassign
    refine Prog.wp_bind (Prog.Silent.wp_run (silent_assign _).attempt hassign ?_)
    refine Prog.wp_bind (Prog.wp_flush fun _ => ?_)
    refine Prog.wp_bind (Prog.wp_bind (Prog.wp_read (Prog.wp_bind (Prog.wp_flush fun _ => ?_))))
    refine Prog.wp_bind (Prog.wp_bind (Prog.wp_read (Prog.wp_bind (Prog.wp_flush fun _ => ?_))))
    exact wp_end fun _ _ => ⟨_, _, _, rfl⟩

theorem purchase_answers (now : Datetime) (c : PurchaseCall) (s : Session Db) :
    (c.prog now).wp (fun _ _ => True) (fun r _ => Answers c s.view r) (fun _ _ => True) s := by
  refine Prog.wp.mono (fun r _ h hok hfresh => ?_) (fun _ _ h => h) (purchase_makes now c s)
  obtain ⟨u, i, j, rfl⟩ := h hok hfresh
  exact ⟨rfl, rfl, rfl⟩

/-! ## The purchase -/

theorem price_parts (hu : ¬c.Unpaid db) :
    c.wallet db ≤ intOr0 (accountRow db c.user.id).paid_balance_toman ∧
      (c.payment_confirmed = false → c.price db - c.wallet db = 0) := by
  have hle : c.wallet db ≤ c.price db := min_le_left _ _
  refine ⟨not_lt.mp fun hlt => hu (.inl hlt), fun hconfirmed => ?_⟩
  by_contra hne
  exact hu (.inr ⟨hconfirmed, by omega⟩)

/-- The counter of a pool with room, one user later. -/
theorem one_more_eq {pool : CapacityPool} (h : has_room pool = true) {n : Int}
    (hn : pool.active_users = some n) (hpos : 0 ≤ n) : one_more pool = n + 1 := by
  obtain ⟨-, used, limit, hused, hlimit, hlt⟩ := has_room_iff.mp h
  rw [hn] at hused
  cases hused
  unfold one_more
  rw [hn, hlimit]
  simp only [intOr0, Option.getD_some]
  omega

theorem one_joins {u : UserSubscription} {pool : CapacityPool}
    (hp : db.pools.lowest has_room = some pool) (hactive : active_at now u = true) :
    OneJoins now db (subscribed db u pool) pool := by
  have hmem := List.argmin_mem hp
  obtain ⟨hrow, hroom⟩ := List.mem_filter.mp hmem
  have hget : db.pools.get pool.id = some pool := (Table.get_eq_some _).mpr ⟨hrow, rfl⟩
  have hcount : ∀ k, occupied now (subscribed db u pool) k =
      occupied now db k + if pool.id = k then 1 else 0 := fun k => by
    have hinsert := Table.count_insert (t := db.subscriptions)
      (a := { u with pool_id := some pool.id }) (Table.accepts_of_no_unique rfl) (holds now k)
    have hholds : holds now k (Row.setKey { u with pool_id := some pool.id }
        db.subscriptions.nextKey) = decide (pool.id = k) := by
      change (decide (some pool.id = some k) && active_at now u) = _
      rw [hactive, Bool.and_true]
      simp only [Option.some.injEq]
    rw [hholds] at hinsert
    simp only [decide_eq_true_eq] at hinsert
    exact hinsert
  refine ⟨?_, ?_, fun k hk => ?_⟩
  · obtain ⟨before, after, hrows, hput, -⟩ := Table.rows_put
      (r := { pool with active_users := some (one_more pool) }) hget ⟨rfl, rfl⟩
    refine ⟨before, after, _, hrows, hput, fun n hn hpos => ?_⟩
    exact congrArg some (one_more_eq hroom hn hpos)
  · rw [hcount, if_pos rfl]
  · rw [hcount, if_neg hk.symm, Nat.add_zero]

theorem OneJoins.frame {db₁ db₂ : Db} {pool : CapacityPool} (h : OneJoins now db db₁ pool)
    (hsubscriptions : db₂.subscriptions = db₁.subscriptions) (hpools : db₂.pools = db₁.pools) :
    OneJoins now db db₂ pool := by
  obtain ⟨hrow, hjoined, hothers⟩ := h
  unfold occupied at hjoined hothers
  refine ⟨?_, ?_, ?_⟩
  · rw [hpools]
    exact hrow
  · unfold occupied
    rw [hsubscriptions]
    exact hjoined
  · unfold occupied
    rw [hsubscriptions]
    exact hothers

theorem terms_of_purchase (h : PurchaseRun now c s (.ok r) t) (hbilled : Billed c s.view r)
    (hfresh : ledgerRow s.view c.idempotency_key = none) (hok : r.ok = true) :
    Terms now c s.view t.view r := by
  cases h with
  | replay e r hk hr => exact nomatch hfresh.symm.trans hk
  | active_exists u r hk ha hr => exact nomatch hr.symm.trans hok
  | unpaid r hk ha hu hr => exact nomatch hr.symm.trans hok
  | no_pool r hk ha hu hp hr => exact nomatch hr.symm.trans hok
  | bought ends pool e₁ e₂ r hk ha hu ht hp he h1 h2 hr =>
    obtain ⟨hcovered, hexternal⟩ := price_parts hu
    have hactive : active_at now (c.row now ends) = true := by
      have hlater : now < ends := bot_purchases.last_after_now ht
      change (decide (some "active" = some "active") && decide (now < ends)) = true
      rw [decide_eq_true hlater]
      rfl
    have hsubscription := Table.rows_insert (t := s.view.subscriptions)
      (a := { c.row now ends with pool_id := some pool.id }) (Table.accepts_of_no_unique rfl)
    have hpost := post_eq (subscribed (c.base s.view) (c.row now ends) pool) (c.account s.view)
      [e₁, e₂]
    rw [Session.view_commitIf]
    change Terms now c s.view
      (post (subscribed (c.base s.view) (c.row now ends) pool) (c.account s.view) [e₁, e₂]) r
    refine ⟨?_, ?_, ?_, ?_, ?_, ?_, ?_, pool, ?_⟩
    · rw [hbilled.wallet, hbilled.external, hbilled.payment]
      omega
    · rw [hbilled.wallet]
      exact wallet_nonneg c s.view
    · rw [hbilled.wallet]
      exact hcovered
    · rw [hbilled.wallet, bot_purchases.accountRow_bought]
      exact bought_paid c s.view
    · rw [hbilled.external]
      exact hexternal
    · rw [hpost]
      exact ⟨_, hsubscription, rfl, rfl, hactive⟩
    · rw [hpost]
      refine ⟨Row.setKey e₁ s.view.ledger.nextKey,
        Row.setKey e₂ (s.view.ledger.insert e₁).nextKey, ?_⟩
      change ((s.view.ledger.insert e₁).insert e₂).rows = _
      rw [Table.rows_insert h2, Table.rows_insert h1, List.append_assoc]
      rfl
    · refine (one_joins hp hactive).frame ?_ ?_
      · rw [hpost]
        rfl
      · rw [hpost]
        rfl

end

/-! ## The law -/

/-- LAW: A purchase that is refused leaves the books, the subscriptions and the
pools as they were. One that is made under a fresh key is made on its terms as
a whole. -/
theorem a_purchase_is_all_or_nothing (now : Datetime) (c : PurchaseCall) (s t : Session Db)
    (r : PurchaseTomanSubscriptionResult) (h : (c.prog now).run s = (.ok r, t)) :
    (r.ok = false → AsBefore s.view t.view ∧ t.stored = s.stored) ∧
      (r.ok = true → ledgerRow s.view c.idempotency_key = none →
        Terms now c s.view t.view r) := by
  have hrun := purchaseRun now c s
  rw [h] at hrun
  refine ⟨purchase_refused hrun, fun hok hfresh => ?_⟩
  exact terms_of_purchase hrun ((purchase_answers now c s).value (fun _ => trivial) h hok hfresh)
    hfresh hok

/-- The customer, who has 5000 toman, pays them and the rest outside. -/
def mixed_purchase : PurchaseCall where
  user := customer
  plan := tiered_plan
  idempotency_key := some "new"
  payment_confirmed := true
  wallet_payment_toman := some 5000
  grant_gift_toman_balance := false
  commit := true

theorem a_mixed_purchase_is_made_on_its_terms :
    ∃ r t, (mixed_purchase.prog noon).run (.opened shop) = (.ok r, t) ∧ r.ok = true ∧
      Terms noon mixed_purchase shop t.view r := by
  obtain ⟨r, hr, hok⟩ := ok_with (x := ((mixed_purchase.prog noon).run (.opened shop)).1)
    (p := fun r => r.ok) (by decide +kernel)
  have hrun : (mixed_purchase.prog noon).run (.opened shop) =
      (.ok r, ((mixed_purchase.prog noon).run (.opened shop)).2) := Prod.ext hr rfl
  have hlaw := a_purchase_is_all_or_nothing noon mixed_purchase _ _ r hrun
  exact ⟨r, _, hrun, hok, hlaw.2 hok (by decide +kernel)⟩

end dr_boz.purchase_terms
