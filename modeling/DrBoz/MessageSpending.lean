-- Law of the spending records of Open WebUI: calls for messages side by side,
-- for users that the account database knows and for new ones. A call commits
-- the new user first, and the charge of the message in a second commit. What a
-- commit should do is said here for a call that has the books to itself.
import DrBoz.TwoChargers
import DrBoz.Reconciliation
import DrBoz.Lib.FreshCommits
import Mathlib.Logic.Relation

open keyed_table unit_of_work dr_boz.py dr_boz.models dr_boz.codex_capacity
open dr_boz.toman_billing dr_boz.views dr_boz.billing_runs dr_boz.effects dr_boz.chat_runs
open dr_boz.reconciliation dr_boz.spending dr_boz.two_chargers dr_boz.calls

namespace dr_boz.message_spending

/-! ## The calls -/

/-- A call for a message, with the cost that was computed for it. -/
structure Spend where
  call : WebCall
  cost : Int
  now : Datetime

def Spend.prog (m : Spend) : Tx Unit :=
  record_spending_from_message m.now m.call.era_tracking_id m.cost m.call.model_id m.call.usage
    m.call.message_id

/-! ## What a commit should do -/

/-- The user behind a tracking id. -/
def found (db : Db) (x : Int) : Option Nat :=
  (db.users.first fun u => u.telegram_user_id = some x).map (·.id)

def new_user (x : Int) : UserPreference :=
  { id := 0, telegram_user_id := some x, first_name := some "کاربر",
    preferred_name := some "کاربر", account_status := some "active" }

def new_account (u : Nat) : UserBillingAccount := { user_id := u, currency := some "IRR" }

def free_plan (db : Db) : Option SubscriptionPlan :=
  db.plans.first fun p => p.plan_type = some "free"

/-- The subscription of a new user, when there is a free plan. -/
def free_subscription (now : Datetime) (u : Nat) :
    Option SubscriptionPlan → Except PyError (Option UserSubscription)
  | none => .ok none
  | some plan => do
    let expires_at ← addDelta now (days 36500)
    let cooldown_ends_at ← addDelta now (hours (cooldown_hours_of (some plan)))
    let week_resets_at ← addDelta now (days 7)
    return some
      { user_id := u, plan_id := plan.id, purchased_at := some now, expires_at,
        cooldown_ends_at := some cooldown_ends_at, week_resets_at := some week_resets_at }

/-- The books with a new user, the account and the subscription. -/
def created (x : Int) (sub : Option UserSubscription) (db : Db) : Db :=
  { db with
    users := db.users.insert (new_user x)
    accounts := db.accounts.insert (new_account db.users.nextKey)
    subscriptions := sub.elim db.subscriptions db.subscriptions.insert }

/-- The subscription that ends last, with the cost on both counters. -/
def on_subscription (m : Spend) (u : Nat) (db : Db) : Except PyError Db :=
  match latest_active m.now u db with
  | none => .ok db
  | some p =>
    (timed m.now p (db.plans.get p.plan_id)).map fun v => putSubscription db (spent_on v m.cost)

/-- The account with its two balances lowered, and the entry that notes by how
much. -/
def charged (m : Spend) (u : Nat) (db : Db) : Db :=
  post (withBilling db u) (deducted (billingRow db u) m.cost)
    [message_entry u (billingRow db u) (deducted (billingRow db u) m.cost) m.cost m.call.model_id
      m.call.usage m.call.message_id]

/-- A commit of a call: it creates the user, whole, or it charges the message,
whole, and for the first time. -/
inductive Commit (m : Spend) (s : Db) : Db → Prop
  | creates {sub : Option UserSubscription} (hnew : found s m.call.era_tracking_id = none)
      (hacc : s.accounts.Accepts (new_account s.users.nextKey))
      (hsub : free_subscription m.now s.users.nextKey (free_plan s) = .ok sub) :
      Commit m s (created m.call.era_tracking_id sub s)
  | charges {u : Nat} {w : Db} (hpos : 0 < m.cost)
      (huser : found s m.call.era_tracking_id = some u)
      (hkey : ∀ e ∈ s.ledger.rows, e.idempotency_key ≠ message_key m.call.message_id)
      (hwindow : on_subscription m u s = .ok w) : Commit m s (charged m u w)

variable {ι : Type}

/-- Commits of the calls, one after the other. -/
def Commits (calls : ι → Spend) : Db → Db → Prop :=
  Relation.ReflTransGen fun s t => ∃ i, Commit (calls i) s t

/-! ## What the calls should leave -/

/-- One of the two balances of an account, 0 without the account. -/
def balance_of (balance : UserBillingAccount → Int) (db : Db) (a : Nat) : Int :=
  (db.accounts.get a).elim 0 balance

/-- The subscriptions of a user. -/
def subscriptions_of (db : Db) (u : Nat) : Nat :=
  db.subscriptions.count fun s => decide (s.user_id = u)

/-- One record for each message, between two states of the books. The balances
move by the entries. A counter moves with the commits, each of which raises the
counters that it finds. -/
structure OncePerMessage (calls : ι → Spend) (db₀ db : Db) : Prop where
  entries : ∀ message_id : String,
    (db.ledger.count fun e => decide (e.idempotency_key = message_key message_id)) ≤ 1
  commits : Commits calls db₀ db
  gift : ∀ a, balance_of (intOr0 ·.gift_balance_toman) db a - posted db a (·.gift_delta_toman) =
    balance_of (intOr0 ·.gift_balance_toman) db₀ a - posted db₀ a (·.gift_delta_toman)
  paid : ∀ a, balance_of (intOr0 ·.paid_balance_toman) db a - posted db a (·.paid_delta_toman) =
    balance_of (intOr0 ·.paid_balance_toman) db₀ a - posted db₀ a (·.paid_delta_toman)
  users : ∀ x : Int, (db.users.count fun u => decide (u.telegram_user_id = some x)) ≤ 1
  accounts : ∀ u : Nat, (db.accounts.count fun a => decide (a.user_id = u)) ≤ 1
  newcomers : ∀ user ∈ db.users.rows, user ∉ db₀.users.rows →
    (∃ a ∈ db.accounts.rows, a.user_id = user.id) ∧
      subscriptions_of db user.id =
        subscriptions_of db₀ user.id + if (free_plan db₀).isSome then 1 else 0

/-! ## What a commit leaves -/

variable {m : Spend} {s t w db : Db} {u : Nat}

theorem window_cases (h : on_subscription m u s = .ok w) :
    w = s ∨ ∃ p v, latest_active m.now u s = some p ∧
      timed m.now p (s.plans.get p.plan_id) = .ok v ∧
      w = putSubscription s (spent_on v m.cost) := by
  unfold on_subscription at h
  cases hp : latest_active m.now u s with
  | none =>
    rw [hp] at h
    cases h
    exact .inl rfl
  | some p =>
    simp only [hp] at h
    cases hv : timed m.now p (s.plans.get p.plan_id) with
    | error e =>
      rw [hv] at h
      cases h
    | ok v =>
      rw [hv] at h
      cases h
      exact .inr ⟨p, v, rfl, hv, rfl⟩

/-- The window of the subscription leaves everything else alone. -/
theorem window_frame (h : on_subscription m u s = .ok w) :
    w = { s with subscriptions := w.subscriptions } := by
  rcases window_cases h with rfl | ⟨p, v, -, -, rfl⟩ <;> rfl

theorem spent_terms {p v : UserSubscription} {plan : Option SubscriptionPlan} {now : Datetime}
    (h : timed now p plan = .ok v) (cost : Int) : SameTerms (spent_on v cost) p :=
  SameTerms.trans (v := v) ⟨rfl, rfl, rfl, rfl, rfl, rfl, rfl⟩ ((web_window now p plan).2 v h).1

theorem charged_eq (m : Spend) (u : Nat) (db : Db) :
    charged m u db =
      { withBilling db u with
        accounts := (withBilling db u).accounts.put (deducted (billingRow db u) m.cost)
        ledger := db.ledger.insert (message_entry u (billingRow db u)
          (deducted (billingRow db u) m.cost) m.cost m.call.model_id m.call.usage
          m.call.message_id) } := post_eq _ _ _

theorem accepts_new_user {x : Int} (hnew : found s x = none) : s.users.Accepts (new_user x) := by
  intro v hv r hr hu
  cases hv
  have hnone := Table.first_eq_none.mp (Option.map_eq_none_iff.mp hnew) r hr
  have hother : ¬r.telegram_user_id = some x := by simpa using hnone
  exact hother hu

theorem users_created {x : Int} (hnew : found s x = none) (sub : Option UserSubscription) :
    (created x sub s).users.rows = s.users.rows ++ [{ new_user x with id := s.users.nextKey }] :=
  Table.rows_insert (accepts_new_user hnew)

theorem found_created {x : Int} (hnew : found s x = none) (sub : Option UserSubscription) :
    found (created x sub s) x = some s.users.nextKey := by
  have hacc := accepts_new_user hnew
  unfold found at hnew ⊢
  rw [Option.map_eq_none_iff] at hnew
  have hfirst := Table.first_insert_none hacc hnew (by simp [Row.setKey, new_user])
  change (((s.users.insert (new_user x)).first fun u => u.telegram_user_id = some x).map
    (·.id)) = _
  rw [hfirst]
  rfl

/-- A user stays the user of the tracking id. -/
theorem found_kept (h : Commit m s t) {x : Int} (hx : found s x = some u) :
    found t x = some u := by
  cases h with
  | creates =>
    unfold found at hx ⊢
    obtain ⟨user, huser, hid⟩ := Option.map_eq_some_iff.mp hx
    have hkept := Table.first_insert_some (a := new_user m.call.era_tracking_id) huser
    change (((s.users.insert (new_user m.call.era_tracking_id)).first
      fun u => u.telegram_user_id = some x).map (·.id)) = _
    rw [hkept, Option.map_some, hid]
  | charges _ _ _ hwindow =>
    rw [charged_eq, window_frame hwindow]
    exact hx

theorem found_commits {calls : ι → Spend} (h : Commits calls s t) {x : Int}
    (hx : found s x = some u) : found t x = some u := by
  induction h with
  | refl => exact hx
  | tail _ hstep ih =>
    obtain ⟨i, hi⟩ := hstep
    exact found_kept hi ih

/-! ## A call commits what it should -/

variable {calls : ι → Spend}

/-- What a call does once it knows the user. -/
def rest (m : Spend) (u : Nat) : Tx Unit := do
  let recorded ← ledger_exists m.call.message_id
  if recorded then return ()
  else
  let sub ← get_active_sub m.now u
  record_on_subscription m.now m.cost sub
  let billing ← get_billing_account u
  Prog.flush (.setAccount billing (deducted billing m.cost))
  Prog.flush (.addLedger (message_entry u billing (deducted billing m.cost) m.cost m.call.model_id
    m.call.usage m.call.message_id))
  Prog.publish

/-- What a call needs in front of one of its parts. -/
abbrev Allowed (calls : ι → Spend) {α : Type} (x : Tx α) (s : Session Db) : Prop :=
  x.wp (Commits calls) (fun _ _ => True) (fun _ _ => True) s

theorem window_allowed {k : Unit → Tx Unit}
    (hk : ∀ w, on_subscription m u s = .ok w → Allowed calls (k ()) ⟨s, w⟩) :
    Allowed calls (get_active_sub m.now u >>= fun sub =>
      record_on_subscription m.now m.cost sub >>= k) (.opened s) := by
  unfold get_active_sub
  refine Prog.wp_bind (Prog.wp_bind (Prog.wp_read ?_))
  have hview : (Session.opened s).view = s := rfl
  rw [hview]
  cases hp : latest_active m.now u s with
  | none =>
    refine Prog.wp_pure (Prog.wp_bind (Prog.wp_pure (hk s ?_)))
    unfold on_subscription
    rw [hp]
  | some p =>
    refine Prog.wp_bind (Prog.wp_read (Prog.wp_pure (Prog.wp_bind ?_)))
    unfold record_on_subscription
    refine Prog.wp_bind (Prog.wp_lift (fun v hv => ?_) fun _ _ => trivial)
    refine Prog.wp_flush fun _ => ?_
    have hv' : timed m.now p (s.plans.get p.plan_id) = .ok v := hv
    have hterms := spent_terms hv' m.cost
    have hflush : s.apply (.setSubscription p (spent_on v m.cost)) =
        putSubscription s (spent_on v m.cost) :=
      apply_setSubscription (get_latest hp)
        ⟨hterms.id, hterms.user_id, hterms.plan_id, hterms.purchased_at⟩
    change Allowed calls (k ()) ⟨s, s.apply (.setSubscription p (spent_on v m.cost))⟩
    rw [hflush]
    refine hk _ ?_
    unfold on_subscription
    simp only [hp, hv']
    rfl

theorem silent_billing (u : Nat) : (get_billing_account u).Silent := by
  refine Prog.Silent.bind (Prog.silent_read _) fun billing => ?_
  cases billing with
  | some billing => exact Prog.silent_pure _
  | none =>
    exact Prog.Silent.bind (Prog.silent_read _) fun _ =>
      Prog.Silent.bind (Prog.silent_flush _) fun _ => Prog.silent_pure _

theorem billing_get (db : Db) (u : Nat) :
    (withBilling db u).accounts.get (billingRow db u).id = some (billingRow db u) :=
  (Table.get_eq_some _).mpr ⟨(Table.first_mem (first_withBilling db u)).1, rfl⟩

/-- The charge of a message, for a user who is there. -/
theorem rest_allowed {i : ι} (hpos : 0 < (calls i).cost)
    (huser : found s (calls i).call.era_tracking_id = some u) :
    Allowed calls (rest (calls i) u) (.opened s) := by
  unfold rest ledger_exists
  refine Prog.wp_bind (Prog.wp_read ?_)
  refine Prog.wp_ite (fun _ => Prog.wp_pure trivial) fun hfree => ?_
  have hkey : ∀ e ∈ s.ledger.rows,
      e.idempotency_key ≠ message_key (calls i).call.message_id := by
    have hnone : (s.ledger.first fun e =>
        e.idempotency_key = message_key (calls i).call.message_id) = none := by
      simpa [Session.opened] using hfree
    exact fun e he => by simpa using Table.first_eq_none.mp hnone e he
  refine window_allowed fun w hwindow => ?_
  refine Prog.wp_bind (Prog.Silent.wp_run (silent_billing u)
    (run_get_billing_account u ⟨s, w⟩) ?_)
  refine Prog.wp_bind (Prog.wp_flush fun _ => ?_)
  have hset : (withBilling w u).apply (.setAccount (billingRow w u)
      (deducted (billingRow w u) (calls i).cost)) =
      putAccount (withBilling w u) (deducted (billingRow w u) (calls i).cost) :=
    apply_setAccount (billing_get w u) ⟨rfl, rfl, rfl⟩
  simp only [store_apply, hset]
  refine Prog.wp_bind (Prog.wp_flush fun _ => ?_)
  refine Prog.wp_publish ?_ fun _ _ => trivial
  exact Relation.ReflTransGen.single ⟨i, .charges hpos huser hkey hwindow⟩

/-- The user of a first message, and what comes after. -/
theorem create_allowed {i : ι} (hnew : found s (calls i).call.era_tracking_id = none)
    {k : Nat → Tx Unit} (hk : ∀ t u, found t (calls i).call.era_tracking_id = some u →
      Allowed calls (k u) (.opened t)) :
    Allowed calls (create_era_user (calls i).now (calls i).call.era_tracking_id >>= k)
      (.opened s) := by
  unfold create_era_user
  refine Prog.wp_bind (Prog.wp_bind (Prog.wp_read (Prog.wp_bind (Prog.wp_read ?_))))
  refine Prog.wp_bind (Prog.wp_flush fun _ => Prog.wp_bind (Prog.wp_flush fun hacc => ?_))
  have hacc' : s.accounts.Accepts (new_account s.users.nextKey) := of_decide_eq_true hacc
  have hafter : ∀ sub, free_subscription (calls i).now s.users.nextKey (free_plan s) = .ok sub →
      Commits calls s (created (calls i).call.era_tracking_id sub s) ∧
        ∀ t, Commits calls (created (calls i).call.era_tracking_id sub s) t →
          Allowed calls (k s.users.nextKey) (.opened t) := fun sub hsub =>
    ⟨Relation.ReflTransGen.single ⟨i, .creates hnew hacc' hsub⟩,
      fun t ht => hk t _ (found_commits ht (found_created hnew sub))⟩
  have hplan : (s.plans.first fun p => p.plan_type = some "free") = free_plan s := rfl
  simp only [Session.opened] at *
  cases hfree : free_plan s with
  | none =>
    rw [hplan, hfree]
    rw [hfree] at hafter
    obtain ⟨hcommit, hnext⟩ := hafter none rfl
    exact Prog.wp_bind (Prog.wp_publish hcommit fun t ht => hnext t ht)
  | some plan =>
    rw [hplan, hfree]
    rw [hfree] at hafter
    refine Prog.wp_bind (Prog.wp_lift (fun expires_at h₁ => ?_) fun _ _ => trivial)
    refine Prog.wp_bind (Prog.wp_lift (fun cooldown_ends_at h₂ => ?_) fun _ _ => trivial)
    refine Prog.wp_bind (Prog.wp_lift (fun week_resets_at h₃ => ?_) fun _ _ => trivial)
    refine Prog.wp_bind (Prog.wp_flush fun _ => Prog.wp_bind ?_)
    have hsub : free_subscription (calls i).now s.users.nextKey (some plan) =
        .ok (some
          { user_id := s.users.nextKey, plan_id := plan.id, purchased_at := some (calls i).now,
            expires_at, cooldown_ends_at := some cooldown_ends_at,
            week_resets_at := some week_resets_at }) := by
      simp only [free_subscription, h₁, h₂, h₃]
      rfl
    obtain ⟨hcommit, hnext⟩ := hafter _ hsub
    exact Prog.wp_publish hcommit fun t ht => hnext t ht

theorem prog_allowed (i : ι) (s : Db) : Allowed calls (calls i).prog (.opened s) := by
  unfold Spend.prog record_spending_from_message
  refine Prog.wp_ite (fun _ => Prog.wp_pure trivial) fun hpos => ?_
  have hpos' : 0 < (calls i).cost := by omega
  unfold find_era_user_id
  refine Prog.wp_bind (Prog.wp_bind (Prog.wp_read ?_))
  cases hfound : found s (calls i).call.era_tracking_id with
  | none =>
    have hnone : ((Session.opened s).view.users.first fun u =>
        u.telegram_user_id = some (calls i).call.era_tracking_id) = none :=
      Option.map_eq_none_iff.mp hfound
    rw [hnone]
    exact create_allowed hfound fun t u hu => rest_allowed hpos' hu
  | some u =>
    obtain ⟨user, huser, hid⟩ := Option.map_eq_some_iff.mp hfound
    have hsome : ((Session.opened s).view.users.first fun u =>
        u.telegram_user_id = some (calls i).call.era_tracking_id) = some user := huser
    rw [hsome]
    subst hid
    exact Prog.wp_bind (Prog.wp_pure (rest_allowed hpos' hfound))

/-! ## The balances -/

section
variable {balance : UserBillingAccount → Int} {delta : TomanLedgerEntry → Int}

/-- A new account that is empty. -/
theorem balance_insert {row : UserBillingAccount} (hrow : ∀ n, balance { row with id := n } = 0)
    (hacc : db.accounts.Accepts row) (a : Nat) :
    ((db.accounts.insert row).get a).elim 0 balance = (db.accounts.get a).elim 0 balance := by
  cases h : db.accounts.get a with
  | some r => rw [Table.get_insert_some h]
  | none =>
    unfold Table.get at h ⊢
    rw [Table.rows_insert hacc, List.find?_append, h, Option.none_or, List.find?_singleton]
    split
    · exact hrow _
    · rfl

theorem balance_withBilling (hnew : ∀ n u, balance { new_account u with id := n } = 0)
    (a : Nat) : balance_of balance (withBilling db u) a = balance_of balance db a := by
  unfold balance_of withBilling
  cases h : db.accounts.first fun a => a.user_id = u with
  | some r => rfl
  | none => exact balance_insert (fun n => hnew n u) (accepts_account h) a

/-- A charge moves one balance of one account, by what its entry says. -/
theorem balance_charged (hnew : ∀ n u, balance { new_account u with id := n } = 0)
    (hid : ∀ e n, delta { e with id := n } = delta e)
    (hcharge : ∀ b : UserBillingAccount, balance (deducted b m.cost) = balance b +
      delta (message_entry u b (deducted b m.cost) m.cost m.call.model_id m.call.usage
        m.call.message_id))
    (hkey : ∀ e ∈ db.ledger.rows, e.idempotency_key ≠ message_key m.call.message_id) (a : Nat) :
    balance_of balance (charged m u db) a - posted (charged m u db) a delta =
      balance_of balance db a - posted db a delta := by
  set row := billingRow db u with hrow
  set entry := message_entry u row (deducted row m.cost) m.cost m.call.model_id m.call.usage
    m.call.message_id with hentry
  have htakes : TakesAll (withBilling db u).ledger [entry] := by
    refine ⟨fun k hk e he => ?_, trivial⟩
    change message_key m.call.message_id = some k at hk
    rw [← hk]
    exact hkey e he
  have hposted : posted (charged m u db) a delta =
      posted db a delta + if a = row.id then delta entry else 0 := by
    have h := posted_post (b := deducted row m.cost) (i := row.id)
      (fun e he => by rw [List.mem_singleton.mp he]; rfl) htakes delta hid a
    rw [posted_congr (show (withBilling db u).ledger = db.ledger from rfl), List.map_singleton,
      List.sum_singleton] at h
    exact h
  have hbalance : balance_of balance (charged m u db) a =
      if a = row.id then balance (deducted row m.cost) else balance_of balance db a := by
    have hrep : Table.Replaces (deducted row m.cost) row := ⟨rfl, rfl⟩
    have haccounts : (charged m u db).accounts =
        (withBilling db u).accounts.put (deducted row m.cost) := by
      rw [charged_eq]
    unfold balance_of
    rw [haccounts]
    split
    · next ha =>
      have hself : ((withBilling db u).accounts.put (deducted row m.cost)).get row.id =
          some (deducted row m.cost) := Table.get_put_self (billing_get db u) hrep
      rw [ha, hself, Option.elim_some]
    · next ha =>
      rw [Table.get_put_ne (billing_get db u) hrep ha]
      exact balance_withBilling hnew a
  rw [hposted, hbalance]
  split
  · next ha =>
    have hthere : balance_of balance db a = balance row := by
      rw [← balance_withBilling (u := u) hnew a, ha]
      unfold balance_of
      rw [billing_get db u]
      rfl
    have hmoved : balance (deducted row m.cost) = balance row + delta entry := hcharge row
    rw [hmoved, hthere]
    omega
  · omega

theorem balance_commit (hnew : ∀ n u, balance { new_account u with id := n } = 0)
    (hid : ∀ e n, delta { e with id := n } = delta e)
    (hcharge : ∀ (b : UserBillingAccount) (u : Nat), balance (deducted b m.cost) = balance b +
      delta (message_entry u b (deducted b m.cost) m.cost m.call.model_id m.call.usage
        m.call.message_id)) (h : Commit m s t) (a : Nat) :
    balance_of balance t a - posted t a delta = balance_of balance s a - posted s a delta := by
  cases h with
  | @creates sub _ hacc _ =>
    have hsame := balance_insert (fun n => hnew n s.users.nextKey) hacc a
    have hledger : (created m.call.era_tracking_id sub s).ledger = s.ledger := rfl
    rw [posted_congr hledger]
    exact congrArg (· - posted s a delta) hsame
  | @charges u w _ _ hkey hwindow =>
    have hframe := window_frame hwindow
    have hw : balance_of balance w a = balance_of balance s a := by
      rw [hframe]
      rfl
    have hl : w.ledger = s.ledger := by rw [hframe]
    rw [balance_charged hnew hid (fun b => hcharge b u) (by rw [hl]; exact hkey) a, hw,
      posted_congr hl]

theorem balance_commits {calls : ι → Spend}
    (hnew : ∀ n u, balance { new_account u with id := n } = 0)
    (hid : ∀ e n, delta { e with id := n } = delta e)
    (hcharge : ∀ (m : Spend) (b : UserBillingAccount) (u : Nat),
      balance (deducted b m.cost) = balance b + delta (message_entry u b (deducted b m.cost)
        m.cost m.call.model_id m.call.usage m.call.message_id)) (h : Commits calls s t) (a : Nat) :
    balance_of balance t a - posted t a delta = balance_of balance s a - posted s a delta := by
  induction h with
  | refl => rfl
  | tail _ hstep ih =>
    obtain ⟨i, hi⟩ := hstep
    rw [balance_commit hnew hid (hcharge (calls i)) hi a, ih]

end

theorem gift_deducted (b : UserBillingAccount) (cost : Int) :
    intOr0 (deducted b cost).gift_balance_toman =
      intOr0 b.gift_balance_toman + -gift_used b cost := by
  by_cases h : 0 < intOr0 b.gift_balance_toman
  · have hset : (deducted b cost).gift_balance_toman =
        some (intOr0 b.gift_balance_toman - gift_used b cost) := if_pos h
    rw [hset]
    exact Int.sub_eq_add_neg
  · have hkept : (deducted b cost).gift_balance_toman = b.gift_balance_toman := if_neg h
    have hzero : gift_used b cost = 0 := if_neg h
    rw [hkept, hzero, Int.neg_zero, Int.add_zero]

theorem paid_deducted (b : UserBillingAccount) (cost : Int) :
    intOr0 (deducted b cost).paid_balance_toman =
      intOr0 b.paid_balance_toman + -paid_used b cost := by
  by_cases h : 0 < cost - gift_used b cost
  · have hset : (deducted b cost).paid_balance_toman =
        some (intOr0 b.paid_balance_toman - paid_used b cost) := if_pos h
    rw [hset]
    exact Int.sub_eq_add_neg
  · have hkept : (deducted b cost).paid_balance_toman = b.paid_balance_toman := if_neg h
    have hzero : paid_used b cost = 0 := if_neg h
    rw [hkept, hzero, Int.neg_zero, Int.add_zero]

/-! ## The users -/

/-- A user that came during the run. -/
def Newcomer (db₀ db : Db) (u : Nat) : Prop :=
  ∃ user ∈ db.users.rows, user.id = u ∧ user ∉ db₀.users.rows

/-- What the commits keep about users, accounts and subscriptions. -/
structure Grown (db₀ db : Db) : Prop where
  users : ∀ user ∈ db₀.users.rows, user ∈ db.users.rows
  plans : db.plans = db₀.plans
  account : ∀ u, Newcomer db₀ db u → ∃ a ∈ db.accounts.rows, a.user_id = u
  subscription : ∀ u, Newcomer db₀ db u →
    subscriptions_of db u = subscriptions_of db₀ u + if (free_plan db₀).isSome then 1 else 0
  others : ∀ u, ¬Newcomer db₀ db u → subscriptions_of db u = subscriptions_of db₀ u

theorem grown_refl (db : Db) : Grown db db where
  users _ h := h
  plans := rfl
  account := by
    rintro u ⟨user, hmem, -, hnew⟩
    exact absurd hmem hnew
  subscription := by
    rintro u ⟨user, hmem, -, hnew⟩
    exact absurd hmem hnew
  others _ _ := rfl

/-- A subscription row that is replaced counts for the same user. -/
theorem subscriptions_window (h : on_subscription m u s = .ok w) (v : Nat) :
    subscriptions_of w v = subscriptions_of s v := by
  rcases window_cases h with rfl | ⟨p, x, hp, hx, rfl⟩
  · rfl
  · have hterms := spent_terms hx m.cost
    have hcount := Table.count_put (get_latest hp) hterms.replaces
      fun r : UserSubscription => decide (r.user_id = v)
    rw [hterms.user_id] at hcount
    unfold subscriptions_of putSubscription
    simp only at hcount ⊢
    omega

theorem mem_withBilling {a : UserBillingAccount} (h : a ∈ db.accounts.rows) :
    a ∈ (withBilling db u).accounts.rows := by
  unfold withBilling
  cases db.accounts.first fun a => a.user_id = u with
  | some b => exact h
  | none => exact Table.mem_insert_of_mem h

/-- The user of an account keeps one. -/
theorem account_charged {v : Nat} (h : ∃ a ∈ db.accounts.rows, a.user_id = v) :
    ∃ a ∈ (charged m u db).accounts.rows, a.user_id = v := by
  obtain ⟨a, ha, hv⟩ := h
  have hrep : Table.Replaces (deducted (billingRow db u) m.cost) (billingRow db u) := ⟨rfl, rfl⟩
  rw [charged_eq]
  by_cases hrow : a.id = (billingRow db u).id
  · have hsame : a = billingRow db u :=
      Table.key_unique _ (mem_withBilling ha) ((Table.get_eq_some _).mp (billing_get db u)).1 hrow
    refine ⟨deducted (billingRow db u) m.cost, ?_, by rw [← hv, hsame]; rfl⟩
    exact (Table.mem_put (billing_get db u) hrep).mpr (.inl rfl)
  · exact ⟨a, (Table.mem_put (billing_get db u) hrep).mpr (.inr ⟨mem_withBilling ha, hrow⟩), hv⟩

theorem grown_charges (h : Grown db s) (hwindow : on_subscription m u s = .ok w) :
    Grown db (charged m u w) := by
  have hframe := window_frame hwindow
  have husers : (charged m u w).users = s.users := by
    rw [charged_eq, hframe]
    rfl
  have hnewcomer : ∀ v, Newcomer db (charged m u w) v ↔ Newcomer db s v := by
    intro v
    unfold Newcomer
    rw [husers]
  have hsubs : ∀ v, subscriptions_of (charged m u w) v = subscriptions_of s v := by
    intro v
    rw [← subscriptions_window hwindow v, charged_eq]
    rfl
  refine ⟨?_, ?_, fun v hv => ?_, fun v hv => ?_, fun v hv => ?_⟩
  · rw [husers]
    exact h.users
  · rw [← h.plans, charged_eq, hframe]
    rfl
  · refine account_charged ?_
    rw [hframe]
    exact h.account v ((hnewcomer v).mp hv)
  · rw [hsubs v]
    exact h.subscription v ((hnewcomer v).mp hv)
  · rw [hsubs v]
    exact h.others v fun hs => hv ((hnewcomer v).mpr hs)

/-- A newcomer is one of before, or the user who has just been created. -/
theorem newcomer_created {x : Int} {sub : Option UserSubscription}
    (hkept : ∀ user ∈ db.users.rows, user ∈ s.users.rows) (hnew : found s x = none) (v : Nat) :
    Newcomer db (created x sub s) v ↔ Newcomer db s v ∨ v = s.users.nextKey := by
  unfold Newcomer
  rw [users_created hnew]
  constructor
  · rintro ⟨user, hmem, hv, hold⟩
    rcases List.mem_append.mp hmem with hmem | hmem
    · exact .inl ⟨user, hmem, hv, hold⟩
    · rw [List.mem_singleton.mp hmem] at hv
      exact .inr hv.symm
  · rintro (⟨user, hmem, hv, hold⟩ | rfl)
    · exact ⟨user, List.mem_append_left _ hmem, hv, hold⟩
    · refine ⟨_, List.mem_append_right _ (List.mem_singleton_self _), rfl, fun hold => ?_⟩
      exact absurd (Table.key_lt_nextKey _ (hkept _ hold)) (Nat.lt_irrefl _)

/-- The created user gets one subscription where there is a free plan. -/
theorem subscriptions_created {x : Int} {sub : Option UserSubscription}
    (hsub : free_subscription m.now s.users.nextKey (free_plan s) = .ok sub) (v : Nat) :
    subscriptions_of (created x sub s) v = subscriptions_of s v +
      if v = s.users.nextKey ∧ (free_plan s).isSome then 1 else 0 := by
  cases hfree : free_plan s with
  | none =>
    rw [hfree] at hsub
    cases hsub
    simp [subscriptions_of, created]
  | some plan =>
    rw [hfree] at hsub
    obtain ⟨t₁, -, hsub⟩ := of_bind_ok hsub
    obtain ⟨t₂, -, hsub⟩ := of_bind_ok hsub
    obtain ⟨t₃, -, hsub⟩ := of_bind_ok hsub
    cases hsub
    unfold subscriptions_of created
    simp only [Option.elim_some]
    rw [Table.count_insert (Table.accepts_of_no_unique rfl)]
    simp [Row.setKey, eq_comm]

/-- The user that comes has an id that no user has had. -/
theorem grown_creates {x : Int} {sub : Option UserSubscription} (h : Grown db s)
    (hnew : found s x = none) (hacc : s.accounts.Accepts (new_account s.users.nextKey))
    (hsub : free_subscription m.now s.users.nextKey (free_plan s) = .ok sub) :
    Grown db (created x sub s) := by
  have hnewcomer : ∀ v, Newcomer db (created x sub s) v ↔
      Newcomer db s v ∨ v = s.users.nextKey := newcomer_created h.users hnew
  have hfresh : ¬Newcomer db s s.users.nextKey := by
    rintro ⟨user, hmem, hid, -⟩
    have hlt : user.id < s.users.nextKey := Table.key_lt_nextKey _ hmem
    omega
  have hplan : free_plan s = free_plan db := by
    unfold free_plan
    rw [h.plans]
  have hsubs := subscriptions_created (x := x) hsub
  rw [hplan] at hsubs
  refine ⟨fun user hu => ?_, h.plans, fun v hv => ?_, fun v hv => ?_, fun v hv => ?_⟩
  · rw [users_created hnew]
    exact List.mem_append_left _ (h.users user hu)
  · have haccounts : (created x sub s).accounts.rows = s.accounts.rows ++
        [{ new_account s.users.nextKey with id := s.accounts.nextKey }] := Table.rows_insert hacc
    rw [haccounts]
    rcases (hnewcomer v).mp hv with hv | rfl
    · obtain ⟨a, ha, hav⟩ := h.account v hv
      exact ⟨a, List.mem_append_left _ ha, hav⟩
    · exact ⟨_, List.mem_append_right _ (List.mem_singleton_self _), rfl⟩
  · rw [hsubs v]
    rcases (hnewcomer v).mp hv with hv | rfl
    · have hne : ¬v = s.users.nextKey := fun he => hfresh (he ▸ hv)
      simp only [hne, false_and, if_false, Nat.add_zero]
      exact h.subscription v hv
    · rw [h.others _ hfresh]
      simp only [true_and]
  · have hne : ¬v = s.users.nextKey := fun he => hv ((hnewcomer v).mpr (.inr he))
    rw [hsubs v]
    simp only [hne, false_and, if_false, Nat.add_zero]
    exact h.others v fun hs => hv ((hnewcomer v).mpr (.inl hs))

theorem grown_commits {calls : ι → Spend} (h : Commits calls s t) : Grown s t := by
  induction h with
  | refl => exact grown_refl s
  | tail _ hstep ih =>
    obtain ⟨i, hi⟩ := hstep
    cases hi with
    | creates hnew hacc hsub => exact grown_creates ih hnew hacc hsub
    | charges _ _ _ hwindow => exact grown_charges ih hwindow

/-! ## The law -/

/-- A value of the unique column stands in one row at most. -/
theorem unique_once {α υ : Type} [Row α υ] (t : Table α) {p : α → Bool} {v : υ}
    (hp : ∀ r ∈ t.rows, p r = true → Row.unique r = some v) : t.count p ≤ 1 := by
  cases h : t.first p with
  | none =>
    have hzero : t.count p = 0 := List.countP_eq_zero.mpr fun r hr => by
      simp [Table.first_eq_none.mp h r hr]
    omega
  | some o =>
    obtain ⟨ho, hpo⟩ := Table.first_mem h
    refine Table.count_le_one (k := Row.key o) fun r hr hpr => ?_
    rw [Table.row_of_unique t hr ho (hp r hr hpr) (hp o ho hpo)]

/-- LAW: calls for messages, any number of them and of any users, step by step
in any order, with crashes at any moment, keep one record for each message, when
each commit that goes through finds what its call has read since its last one. -/
theorem messages_are_recorded_once [DecidableEq ι] (calls : ι → Spend) (db : Db)
    (ms : List (Move ι))
    (hms : (System.init db fun i => (calls i).prog).FreshPublishes ms) :
    OncePerMessage calls db ((System.init db fun i => (calls i).prog).run ms).store := by
  generalize hend : ((System.init db fun i => (calls i).prog).run ms).store = t
  have hcommits : Commits calls db t := by
    rw [← hend]
    exact fresh_publishes_allowed (fun _ => .refl) (fun _ _ _ => Relation.ReflTransGen.trans)
      (fun i s _ => prog_allowed i s) hms
  have hgrown := grown_commits hcommits
  refine ⟨fun message_id => ?_, hcommits, ?_, ?_, fun x => ?_, fun u => ?_, ?_⟩
  · exact unique_once t.ledger (v := "msg:" ++ message_id) fun e _ he => of_decide_eq_true he
  · exact balance_commits (fun _ _ => rfl) (fun _ _ => rfl)
      (fun m b _ => gift_deducted b m.cost) hcommits
  · exact balance_commits (fun _ _ => rfl) (fun _ _ => rfl)
      (fun m b _ => paid_deducted b m.cost) hcommits
  · exact unique_once t.users (v := x) fun u _ hu => of_decide_eq_true hu
  · exact unique_once t.accounts (v := u) fun a _ ha => congrArg some (of_decide_eq_true ha)
  · intro user hmem hold
    have hnew : Newcomer db t user.id := ⟨user, hmem, rfl, hold⟩
    exact ⟨hgrown.account _ hnew, hgrown.subscription _ hnew⟩

/-- A message of 10 Toman. -/
def small_message (x : Int) (message_id : String) : Spend where
  call := ⟨x, some "small", [], message_id⟩
  cost := 10
  now := noon

/-- A known user and one who comes. -/
def two_messages : Bool → Spend
  | true => small_message 100 "one"
  | false => small_message 7 "two"

/-- In turn, both messages are recorded, and the second user is created. -/
theorem messages_in_turn_are_recorded :
    OncePerMessage two_messages shop
      ((System.init shop fun i => (two_messages i).prog).run
        (.replicate 30 (.step true) ++ .replicate 30 (.step false))).store := by
  refine messages_are_recorded_once two_messages shop _
    (System.FreshCommits.publishes (freshCommits_append ?_ ?_))
  · exact freshCommits_alone trivial 30
  · refine freshCommits_alone ?_ 30
    rw [run_alone_ne (by decide)]
    trivial

/-- Two messages of one user. -/
def same_user : Bool → Spend
  | true => small_message 100 "one"
  | false => small_message 100 "two"

/-- Both calls have read the balance of 5000, and both write 4990: there are two
entries of 10, and the balance is lowered once. -/
theorem overlapping_messages_lower_the_balance_once :
    ¬∀ (calls : Bool → Spend) (db : Db) (ms : List (Move Bool)),
      OncePerMessage calls db ((System.init db fun i => (calls i).prog).run ms).store := by
  intro h
  have hpaid := (h same_user shop
    (.replicate 6 (.step true) ++ .replicate 30 (.step false) ++ .replicate 30 (.step true))).paid 1
  revert hpaid
  decide +kernel

end dr_boz.message_spending
