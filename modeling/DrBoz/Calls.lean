-- Histories: calls of the services one after the other, with commits and
-- rollbacks of the session between them. What every effect keeps, every
-- history keeps.
import DrBoz.PaymentRuns
import DrBoz.PromoRuns

open keyed_table unit_of_work dr_boz.py dr_boz.models dr_boz.codex_capacity dr_boz.toman_billing
open dr_boz.payment_requests dr_boz.subscriptions dr_boz.views dr_boz.billing_runs
open dr_boz.chat_runs dr_boz.check_runs dr_boz.purchase_runs dr_boz.effects
open dr_boz.payment_runs dr_boz.promo_runs

namespace dr_boz.calls

/-- A call of one of the services. -/
inductive Call where
  | purchase (c : PurchaseCall)
  | topup (c : TopupCall)
  | mark (c : MarkCall)
  | check (c : ChatCall)
  | chat (c : ChatCall)
  | generic (c : GenericCall)
  | promo (c : PromoCall)
  | request (telegram_user_id amount_toman : Int) (description : Option String)
      (receipt_path : String)
  | approve (request_id : Nat) (admin_note : Option String)
  | reject (request_id : Nat) (admin_note : String)
  | trial (user_id : Nat) (reason : String)
  | cancel (subscription_id : Nat)
  | reactivate (subscription_id : Nat)

/-- The program without its result. -/
def discard {α : Type} (x : Tx α) : Tx Unit := x >>= fun _ => pure ()

def Call.prog (now : Datetime) : Call → Tx Unit
  | .purchase c => discard (c.prog now)
  | .topup c => discard (c.prog now)
  | .mark c => discard c.prog
  | .check c => discard (permission now c)
  | .chat c => discard (c.prog now)
  | .generic c => discard c.prog
  | .promo c => discard c.prog
  | .request t n d p => discard (create_payment_request t n d p)
  | .approve id note => discard (approve_payment_request now id note)
  | .reject id note => discard (reject_payment_request now id note)
  | .trial u reason => discard (grant_trial_subscription now u reason)
  | .cancel id => discard (cancel_user_subscription now id)
  | .reactivate id => discard (reactivate_user_subscription now id)

/-- The idempotency key that the caller hands over. -/
def Call.key : Call → Option String
  | .purchase c => c.idempotency_key
  | .topup c => c.idempotency_key
  | .mark c => c.idempotency_key
  | .chat c => c.idempotency_key
  | .generic c => c.idempotency_key
  | _ => none

/-- The flag `commit` of the call. -/
def Call.commit : Call → Bool
  | .purchase c => c.commit
  | .topup c => c.commit
  | .mark c => c.commit
  | .chat c => c.commit
  | .generic c => c.commit
  | _ => true

/-- The call in a session of its own: the caller commits what the service has
left to it. -/
def Call.committed (now : Datetime) (c : Call) : Tx Unit :=
  c.prog now >>= fun _ => Prog.publishIf !c.commit

/-- The session after a call. -/
def Call.run (now : Datetime) (c : Call) (s : Session Db) : Session Db := ((c.prog now).run s).2

theorem run_discard {α : Type} (x : Tx α) (s : Session Db) :
    ((discard x).run s).2 = (x.run s).2 := by
  unfold discard
  rw [Prog.run_bind]
  generalize x.run s = y
  obtain ⟨r, t⟩ := y
  cases r <;> rfl

/-- Every call but a reactivation moves by effects. -/
theorem trail_of_call (now : Datetime) (c : Call) (s : Session Db)
    (hc : ∀ id, c ≠ .reactivate id) : EffectTrail now s (c.run now s) := by
  unfold Call.run
  cases c with
  | purchase c => rw [Call.prog, run_discard]; exact trail_of_purchase (purchaseRun now c s)
  | topup c => rw [Call.prog, run_discard]; exact trail_of_topup (topupRun now c s)
  | mark c => rw [Call.prog, run_discard]; exact trail_of_mark (markRun c s)
  | check c => rw [Call.prog, run_discard]; exact trail_of_check (checkRun now c s)
  | chat c => rw [Call.prog, run_discard]; exact trail_of_chat (chatRun now c s)
  | generic c => rw [Call.prog, run_discard]; exact trail_of_generic (genericRun c s)
  | promo c => rw [Call.prog, run_discard]; exact trail_of_promo (promoRun c s)
  | request t n d p =>
    rw [Call.prog, run_discard]
    exact moves_create_payment_request t n d p s
  | approve id note =>
    rw [Call.prog, run_discard]
    exact trail_of_approve (approveRun now id note s)
  | reject id note =>
    rw [Call.prog, run_discard]
    exact trail_of_reject (rejectRun now id note s)
  | trial u reason => rw [Call.prog, run_discard]; exact trail_of_trial now u reason s
  | cancel id => rw [Call.prog, run_discard]; exact trail_of_cancel now id s
  | reactivate id => exact absurd rfl (hc id)

theorem run_committed (now : Datetime) (c : Call) (s : Session Db) :
    ((c.committed now).run s).2 = c.run now s ∨
      ((c.committed now).run s).2 = Session.commitIf (!c.commit) (c.run now s) := by
  unfold Call.committed Call.run
  rw [Prog.run_bind]
  generalize (c.prog now).run s = y
  obtain ⟨r, t⟩ := y
  cases r with
  | error e => exact .inl rfl
  | ok a =>
    rw [Prog.continueWith_ok, Prog.run_publishIf]
    exact .inr rfl

/-- A reactivation puts the row in its place, or changes nothing. -/
theorem run_reactivate (now : Datetime) (id : Nat) (s : Session Db) :
    (Call.run now (.reactivate id) s = s) ∨
    ∃ u v, s.view.subscriptions.get id = some u ∧ reactivated now u = .ok v ∧
      Call.run now (.reactivate id) s =
        Session.commit ⟨s.stored, reactivatedIn now s.view u v⟩ := by
  have h := run_discard (reactivate_user_subscription now id) s
  rw [run_reactivate_user_subscription] at h
  change Call.run now (.reactivate id) s = _ at h
  cases hu : s.view.subscriptions.get id with
  | none =>
    rw [hu] at h
    exact .inl h
  | some u =>
    cases hv : reactivated now u with
    | error e =>
      simp only [hu, hv] at h
      exact .inl h
    | ok v =>
      simp only [hu, hv] at h
      exact .inr ⟨u, v, rfl, hv, h⟩

/-! ## Histories -/

/-- A call at a time, or what the caller does with the session. -/
inductive Event where
  | call (now : Datetime) (c : Call)
  | commit
  | rollback

def Event.run : Event → Session Db → Session Db
  | .call now c, s => c.run now s
  | .commit, s => s.commit
  | .rollback, s => s.rollback

/-- The session after a list of events. -/
def history (es : List Event) (s : Session Db) : Session Db := es.foldl (fun s e => e.run s) s

/-- What every effect and every reactivation keeps. -/
structure KeptByAll (I : Db → Prop) : Prop where
  effect : ∀ now db db', Effect now db db' → I db → I db'
  reactivation : ∀ now db u v, db.subscriptions.get u.id = some u → reactivated now u = .ok v →
    I db → I (reactivatedIn now db u v)

/-- What the effects of a call keep is kept by the call. A reactivation is the
one call that is no trail of effects. -/
theorem call_keeps {I : Db → Prop} {now : Datetime} {c : Call} {s : Session Db}
    (heffect : ∀ db db', Effect now db db' → I db → I db')
    (hreactivation : ∀ u v, c = .reactivate u.id → s.view.subscriptions.get u.id = some u →
      reactivated now u = .ok v → I s.view → I (reactivatedIn now s.view u v))
    (hs : I s.stored ∧ I s.view) : I (c.run now s).stored ∧ I (c.run now s).view := by
  by_cases hc : ∃ id, c = .reactivate id
  · obtain ⟨id, rfl⟩ := hc
    rcases run_reactivate now id s with h | ⟨u, v, hu, hv, h⟩
    · rw [h]
      exact hs
    · obtain rfl : u.id = id := ((Table.get_eq_some _).mp hu).2
      have hrow := hreactivation u v rfl hu hv hs.2
      rw [h]
      exact ⟨hrow, hrow⟩
  · exact (trail_of_call now c s fun id h => hc ⟨id, h⟩).keeps heffect hs

theorem event_keeps {I : Db → Prop} (hI : KeptByAll I) (e : Event) {s : Session Db}
    (hs : I s.stored ∧ I s.view) : I (e.run s).stored ∧ I (e.run s).view := by
  cases e with
  | commit => exact ⟨hs.2, hs.2⟩
  | rollback => exact ⟨hs.1, hs.1⟩
  | call now c =>
    exact call_keeps (hI.effect now) (fun u v _ => hI.reactivation now s.view u v) hs

theorem history_keeps {I : Db → Prop} (hI : KeptByAll I) (es : List Event) {s : Session Db}
    (hs : I s.stored ∧ I s.view) : I (history es s).stored ∧ I (history es s).view := by
  unfold history
  induction es generalizing s with
  | nil => exact hs
  | cons e es ih => exact ih (event_keeps hI e hs)

/-! ## Histories under a condition on each step -/

/-- Every step of the history meets the condition in the session it starts in. -/
def EachStep (P : Session Db → Event → Prop) : List Event → Session Db → Prop
  | [], _ => True
  | e :: es, s => P s e ∧ EachStep P es (e.run s)

/-- The clock after an event. -/
def Event.time (now : Datetime) : Event → Datetime
  | .call t _ => t
  | _ => now

def clock (now : Datetime) (es : List Event) : Datetime := es.foldl (fun t e => e.time t) now

/-- The clock never runs backwards. -/
def Timely (now : Datetime) : List Event → Prop
  | [] => True
  | e :: es => now ≤ e.time now ∧ Timely (e.time now) es

theorem timely_history {P : Session Db → Event → Prop} {J : Datetime → Session Db → Prop}
    (hstep : ∀ now s e, now ≤ e.time now → P s e → J now s → J (e.time now) (e.run s))
    (es : List Event) {now : Datetime} {s : Session Db} (ht : Timely now es)
    (hp : EachStep P es s) (hs : J now s) : J (clock now es) (history es s) := by
  unfold clock history
  induction es generalizing now s with
  | nil => exact hs
  | cons e es ih => exact ih ht.2 hp.2 (hstep now s e ht.1 hp.1 hs)

/-- A recount touches the pools only. -/
theorem reactivatedIn_books (now : Datetime) (db : Db) (u v : UserSubscription) :
    (reactivatedIn now db u v).accounts = db.accounts ∧
      (reactivatedIn now db u v).ledger = db.ledger ∧
      (reactivatedIn now db u v).payment_requests = db.payment_requests := by
  unfold reactivatedIn recounted
  split
  · exact ⟨rfl, rfl, rfl⟩
  · split <;> exact ⟨rfl, rfl, rfl⟩

theorem cancelledIn_books (now : Datetime) (db : Db) (u : UserSubscription) :
    (cancelledIn now db u).accounts = db.accounts ∧ (cancelledIn now db u).ledger = db.ledger ∧
      (cancelledIn now db u).payment_requests = db.payment_requests :=
  reactivatedIn_books now db u { u with status := some "cancelled" }

/-- A result that can be computed and passes a test. -/
theorem ok_with {ε α : Type} {x : Except ε α} {p : α → Bool} (h : x.toOption.any p = true) :
    ∃ a, x = .ok a ∧ p a = true := by
  cases x with
  | error e => cases h
  | ok a => exact ⟨a, rfl, h⟩

/-! ## A small shop

One customer, one model at one dollar for a million tokens, and a tiered plan
with one pool. The laws look at their edges here. -/

def noon : Datetime := days 739000 + hours 12

def customer : UserPreference := { id := 1, telegram_user_id := some 100 }

def small_model : Model where
  id := 1
  name := some "small"
  pricing_input := some 1
  pricing_output := some 1

def tiered_plan : SubscriptionPlan where
  id := 1
  name := some "tiered"
  plan_type := some "tiered_cooldown"
  monthly_price_toman := some 80000
  gift_credit_toman := some 100000
  cooldown_limit_toman := some 1000
  cooldown_hours := some 5
  weekly_limit_toman := some 10000

/-- The customer has 5000 toman and no subscription. -/
def shop : Db :=
  { Db.empty with
    users := Table.empty.insert customer
    plans := Table.empty.insert tiered_plan
    accounts := Table.empty.insert { user_id := 1, paid_balance_toman := some 5000 }
    pools := Table.empty.insert { id := 1, max_users := some 2 } }

def subscription_row : UserSubscription where
  user_id := 1
  plan_id := 1
  pool_id := some 1
  purchased_at := some (noon - days 1)
  expires_at := noon + days 29

/-- The customer has a subscription as well. -/
def subscribed_shop : Db :=
  { shop with
    subscriptions := Table.empty.insert subscription_row
    pools := Table.empty.insert { id := 1, max_users := some 2, active_users := some 1 } }

/-- A chat that costs 625 toman. -/
def small_chat (key : String) : ChatCall where
  user := customer
  model := small_model
  input_tokens := 10000
  output_tokens := 0
  usage_event_id := none
  idempotency_key := some key
  metadata := []
  commit := true

end dr_boz.calls
