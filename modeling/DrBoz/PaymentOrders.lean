-- Payment orders of the Bale bot (`billing.py` and `payment_orders.py` of
-- Open WebUI). Five endpoints write the status through one updater, which
-- never looks at the status that it overwrites. An order that is marked as
-- paid activates a subscription after the commit of its status.
import DrBoz.Lib.Table
import DrBoz.Lib.UnitOfWork
import Mathlib.Tactic.Common

open keyed_table unit_of_work

namespace dr_boz.payment_orders

/-! ## Rows -/

/-- The ids are random strings in the source. Here they are numbers. -/
structure PaymentOrder where
  id : Nat := 0
  user_id : Option String := none
  plan_type : Option String := none
  status : Option String := some "pending"
  admin_notes : Option String := none
  subscription_id : Option Nat := none
deriving DecidableEq

structure Subscription where
  id : Nat := 0
  user_id : String
  plan : String := "free"
  status : String := "active"
  payment_provider : Option String := none
  payment_id : Option Nat := none
deriving DecidableEq

instance : Row PaymentOrder Empty :=
  ⟨(·.id), fun a n => { a with id := n }, fun _ => none, fun _ _ => rfl, fun _ _ => rfl⟩

instance : Row Subscription Empty :=
  ⟨(·.id), fun a n => { a with id := n }, fun _ => none, fun _ _ => rfl, fun _ _ => rfl⟩

structure OrderDb where
  orders : Table PaymentOrder
  subscriptions : Table Subscription
deriving DecidableEq

/-- What a flush sends. `set_order` carries the columns that the updater
writes, and a new subscription row can come without a user. -/
inductive OrderChange where
  | set_order (id : Nat) (status : String) (admin_notes : Option String)
      (subscription_id : Option Nat)
  | add_subscription (user_id : Option String) (plan provider : String) (payment_id : Nat)
  | set_subscription (id : Nat) (plan provider : String) (payment_id : Nat)
deriving DecidableEq

/-- `if admin_notes:`, and the same for the subscription id. -/
def updated (status : String) (admin_notes : Option String) (subscription_id : Option Nat)
    (order : PaymentOrder) : PaymentOrder :=
  { order with
    status := some status
    admin_notes := if admin_notes.getD "" = "" then order.admin_notes else admin_notes
    subscription_id := if subscription_id = none then order.subscription_id else subscription_id }

def renewed (plan provider : String) (payment_id : Nat) (sub : Subscription) : Subscription :=
  { sub with
    plan, status := "active", payment_provider := some provider, payment_id := some payment_id }

def OrderDb.apply (db : OrderDb) : OrderChange → OrderDb
  | .set_order id st notes sub =>
    { db with orders := db.orders.update id (updated st notes sub) (fun _ => rfl) fun _ => rfl }
  | .add_subscription user plan provider payment_id =>
    { db with
      subscriptions := db.subscriptions.insert
        { user_id := user.getD "", plan, payment_provider := some provider
          payment_id := some payment_id } }
  | .set_subscription id plan provider payment_id =>
    { db with
      subscriptions :=
        db.subscriptions.update id (renewed plan provider payment_id) (fun _ => rfl)
          fun _ => rfl }

/-- The column `user_id` of a subscription is not nullable. -/
def OrderDb.admits (_ : OrderDb) : OrderChange → Bool
  | .add_subscription user _ _ _ => user.isSome
  | _ => true

inductive OrderError where
  | http_exception (status_code : Nat) (detail : String)
  | validation_error
  | integrity_error
deriving DecidableEq

instance : Store OrderDb OrderChange OrderError :=
  ⟨OrderDb.apply, OrderDb.admits, .integrity_error⟩

abbrev OrderTx := Prog OrderDb OrderChange OrderError

/-! ## The updater and the endpoints -/

/-- The row as a `PaymentOrderModel`, whose status is a string. -/
def validated (order : PaymentOrder) : OrderTx PaymentOrder :=
  if order.status = none then Prog.throw .validation_error else return order

def get_order_by_id (order_id : Nat) : OrderTx (Option PaymentOrder) := do
  let order ← Prog.read fun db => db.orders.get order_id
  match order with
  | none => return none
  | some order =>
    let order ← validated order
    return some order

def update_status (order_id : Nat) (status : String) (admin_notes : Option String)
    (subscription_id : Option Nat) : OrderTx (Option PaymentOrder) := do
  let order ← Prog.read fun db => db.orders.get order_id
  match order with
  | none => return none
  | some order =>
    Prog.flush (.set_order order_id status admin_notes subscription_id)
    Prog.publish
    return some (updated status admin_notes subscription_id order)

/-- A user without a name has no row: the column is not nullable. -/
def create_or_update_subscription (user_id : Option String) (plan provider : String)
    (payment_id : Nat) : OrderTx Nat := do
  let existing ← Prog.read fun db =>
    db.subscriptions.first fun s => some s.user_id = user_id && s.status = "active"
  match existing with
  | some existing =>
    Prog.flush (.set_subscription existing.id plan provider payment_id)
    Prog.publish
    return existing.id
  | none =>
    let id ← Prog.read fun db => db.subscriptions.nextKey
    Prog.flush (.add_subscription user_id plan provider payment_id)
    Prog.publish
    return id

def found (order : Option PaymentOrder) : OrderTx PaymentOrder :=
  match order with
  | none => Prog.throw (.http_exception 404 "Order not found")
  | some order => return order

/-- `if order.plan_type:`, the subscription of a paid order. -/
def activate (order : PaymentOrder) (provider : String) : OrderTx Unit :=
  match order.plan_type with
  | none => return ()
  | some plan =>
    if plan = "" then return ()
    else do
      let subscription_id ←
        create_or_update_subscription order.user_id plan provider order.id
      let _ ← update_status order.id "paid" none (some subscription_id)
      let _ ← get_order_by_id order.id
      return ()

def mark_paid (order_id : Nat) : OrderTx Unit := do
  let order ← update_status order_id "paid" none none
  let order ← found order
  activate order "bale"

def reject_order (order_id : Nat) : OrderTx Unit := do
  let order ← update_status order_id "rejected" none none
  let _ ← found order
  return ()

def cancel_order (order_id : Nat) : OrderTx Unit := do
  let order ← update_status order_id "cancelled" none none
  let _ ← found order
  return ()

def admin_approve (order_id : Nat) (admin_id : String) : OrderTx Unit := do
  let order ← get_order_by_id order_id
  let _ ← found order
  let order ← update_status order_id "paid" (some ("Approved by admin " ++ admin_id)) none
  match order with
  | none => return ()
  | some order => activate order "card"

def admin_reject (order_id : Nat) (admin_id : String) : OrderTx Unit := do
  let order ← update_status order_id "rejected" (some ("Rejected by admin " ++ admin_id)) none
  let _ ← found order
  return ()

inductive OrderCall where
  | mark_paid (order_id : Nat)
  | admin_approve (order_id : Nat) (admin_id : String)
  | reject_order (order_id : Nat)
  | admin_reject (order_id : Nat) (admin_id : String)
  | cancel_order (order_id : Nat)

def OrderCall.prog : OrderCall → OrderTx Unit
  | .mark_paid id => payment_orders.mark_paid id
  | .admin_approve id admin => payment_orders.admin_approve id admin
  | .reject_order id => payment_orders.reject_order id
  | .admin_reject id admin => payment_orders.admin_reject id admin
  | .cancel_order id => payment_orders.cancel_order id

/-! ## What one call does -/

def status (db : OrderDb) (id : Nat) : Option String := (db.orders.get id).bind (·.status)

/-- The change activates a subscription for the order. -/
def activates (id : Nat) : OrderChange → Bool
  | .add_subscription _ _ _ payment_id => payment_id = id
  | .set_subscription _ _ _ payment_id => payment_id = id
  | .set_order .. => false

def OrderCall.order : OrderCall → Nat
  | .mark_paid id => id
  | .admin_approve id _ => id
  | .reject_order id => id
  | .admin_reject id _ => id
  | .cancel_order id => id

/-- The status that the call writes. -/
def OrderCall.target : OrderCall → String
  | .mark_paid _ => "paid"
  | .admin_approve _ _ => "paid"
  | .reject_order _ => "rejected"
  | .admin_reject _ _ => "rejected"
  | .cancel_order _ => "cancelled"

/-- The database after a call in a session of its own. -/
def OrderCall.run (c : OrderCall) (db : OrderDb) : OrderDb := (c.prog.run (.opened db)).2.stored

/-- How often a call activates a subscription for an order. -/
def OrderCall.activations (c : OrderCall) (db : OrderDb) (id : Nat) : Nat :=
  (c.prog.sent (.opened db)).countP (activates id)

/-- The order after the updater. -/
def settled (db : OrderDb) (id : Nat) (st : String) (notes : Option String)
    (sub : Option Nat) : OrderDb :=
  db.apply (.set_order id st notes sub)

/-- The order can activate something: it names a plan and a user. -/
def activatable (order : PaymentOrder) : Bool :=
  order.plan_type.getD "" ≠ "" && order.user_id.isSome

/-- How many subscriptions a payment of the order activates. -/
def worth (db : OrderDb) (id : Nat) : Nat :=
  if (db.orders.get id).any activatable then 1 else 0

theorem orders_settled (db : OrderDb) (id : Nat) (st : String) (notes : Option String)
    (sub : Option Nat) (j : Nat) :
    (settled db id st notes sub).orders.get j =
      if j = id then (db.orders.get j).map (updated st notes sub) else db.orders.get j :=
  Table.get_update _ _ (updated st notes sub) (fun _ => rfl) (fun _ => rfl) _

theorem status_settled {db : OrderDb} {id : Nat} {order : PaymentOrder}
    (h : db.orders.get id = some order) (st : String) (notes : Option String)
    (sub : Option Nat) (j : Nat) :
    status (settled db id st notes sub) j = if j = id then some st else status db j := by
  unfold status
  rw [orders_settled]
  by_cases hj : j = id
  · subst hj
    simp [h, updated]
  · simp [hj]

theorem worth_settled (db : OrderDb) (id : Nat) (st : String) (notes : Option String)
    (sub : Option Nat) (j : Nat) : worth (settled db id st notes sub) j = worth db j := by
  unfold worth
  rw [orders_settled]
  by_cases hj : j = id
  · subst hj
    rw [if_pos rfl]
    cases db.orders.get j <;> rfl
  · simp [hj]

/-- What a call does to one order, seen from any order `j`: nothing, or it
writes its target status, and a payment may activate a subscription. -/
structure Effect (id : Nat) (st : String) (db db' : OrderDb) (acts : Nat → Nat) : Prop where
  worth : ∀ j, payment_orders.worth db' j = payment_orders.worth db j
  status : ∀ j, (payment_orders.status db' j = payment_orders.status db j ∧ acts j = 0) ∨
    (j = id ∧ payment_orders.status db' j = some st ∧
      acts j ≤ if st = "paid" then payment_orders.worth db j else 0)

theorem Effect.nothing (id : Nat) (st : String) (db : OrderDb) :
    Effect id st db db (fun _ => 0) :=
  ⟨fun _ => rfl, fun _ => .inl ⟨rfl, rfl⟩⟩

theorem run_update_status (db : OrderDb) (id : Nat) (st : String) (notes : Option String)
    (sub : Option Nat) :
    (update_status id st notes sub).run (.opened db) =
        (match db.orders.get id with
          | none => (.ok none, .opened db)
          | some order => (.ok (some (updated st notes sub order)),
              .opened (settled db id st notes sub))) ∧
      (update_status id st notes sub).sent (.opened db) =
        match db.orders.get id with
          | none => []
          | some _ => [.set_order id st notes sub] := by
  unfold update_status
  simp only [Prog.run_bind, Prog.run_read, Prog.continueWith_ok, Prog.sent_bind, Session.opened]
  cases db.orders.get id <;> exact ⟨rfl, rfl⟩

/-- The activation writes no order, and none comes from an order without a user. -/
theorem run_create_or_update (db : OrderDb) (user : Option String) (plan provider : String)
    (payment_id : Nat) :
    let x := create_or_update_subscription user plan provider payment_id
    ∃ db' r, x.run (.opened db) = (r, .opened db') ∧ db'.orders = db.orders ∧
      ∀ id, (x.sent (.opened db)).countP (activates id) ≤
        if id = payment_id ∧ user.isSome then 1 else 0 := by
  unfold create_or_update_subscription
  simp only [Prog.run_bind, Prog.run_read, Prog.continueWith_ok, Prog.sent_bind, Session.opened]
  cases h : db.subscriptions.first fun s => some s.user_id = user && s.status = "active" with
  | some s =>
    have hu : user.isSome := by
      have := (Table.first_mem h).2
      cases user with
      | none => simp at this
      | some u => rfl
    refine ⟨_, _, rfl, rfl, fun id => ?_⟩
    change List.countP (activates id) [.set_subscription s.id plan provider payment_id] ≤ _
    by_cases h : payment_id = id <;> simp [activates, h, hu, eq_comm]
  | none =>
    cases user with
    | none =>
      refine ⟨db, _, rfl, rfl, fun id => ?_⟩
      exact Nat.zero_le _
    | some user =>
      refine ⟨_, _, rfl, rfl, fun id => ?_⟩
      change List.countP (activates id) [.add_subscription (some user) plan provider payment_id] ≤ _
      by_cases h : payment_id = id <;> simp [activates, h, eq_comm]

theorem run_get_order_by_id (db : OrderDb) (id : Nat) :
    ∃ r, (get_order_by_id id).run (.opened db) = (r, .opened db) ∧
      (get_order_by_id id).sent (.opened db) = [] := by
  unfold get_order_by_id validated
  simp only [Prog.run_bind, Prog.run_read, Prog.continueWith_ok, Prog.sent_bind, Prog.sent_read,
    Session.opened, List.nil_append]
  cases db.orders.get id with
  | none => exact ⟨_, rfl, rfl⟩
  | some order =>
    by_cases ho : order.status = none
    · simp only [if_pos ho]
      exact ⟨_, rfl, rfl⟩
    · simp only [if_neg ho]
      exact ⟨_, rfl, rfl⟩

/-- What the rest of a payment does, once the status of the order is paid. -/
theorem run_activate (provider : String) {db : OrderDb} {order : PaymentOrder}
    (h : db.orders.get order.id = some order) (hst : order.status = some "paid") :
    ∃ db' r, (activate order provider).run (.opened db) = (r, .opened db') ∧
      (∀ j, status db' j = status db j ∧ worth db' j = worth db j) ∧
      ∀ j, ((activate order provider).sent (.opened db)).countP (activates j) ≤
        if j = order.id then worth db j else 0 := by
  unfold activate
  cases hplan : order.plan_type with
  | none => exact ⟨db, _, rfl, fun _ => ⟨rfl, rfl⟩, fun _ => Nat.zero_le _⟩
  | some plan =>
    by_cases he : plan = ""
    · simp only [if_pos he]
      exact ⟨db, _, rfl, fun _ => ⟨rfl, rfl⟩, fun _ => Nat.zero_le _⟩
    · simp only [if_neg he]
      obtain ⟨t, r, hrun, horders, hacts⟩ :=
        run_create_or_update db order.user_id plan provider order.id
      have hworth : ∀ j, (if j = order.id ∧ order.user_id.isSome then 1 else 0) ≤
          if j = order.id then worth db j else 0 := by
        intro j
        by_cases hj : j = order.id
        · subst hj
          by_cases hu : order.user_id.isSome
          · simp [worth, h, activatable, hplan, he, hu]
          · simp [hu]
        · simp [hj]
      have hget : t.orders.get order.id = some order := by rw [horders, h]
      have hsame : ∀ j, status t j = status db j ∧ worth t j = worth db j := by
        intro j
        unfold status worth
        rw [horders]
        exact ⟨rfl, rfl⟩
      rw [Prog.run_bind, Prog.sent_bind, hrun]
      cases r with
      | error e =>
        refine ⟨t, _, rfl, hsame, fun j => ?_⟩
        simp only [List.append_nil]
        exact (hacts j).trans (hworth j)
      | ok sub =>
        have hup := run_update_status t order.id "paid" none (some sub)
        rw [hget] at hup
        obtain ⟨o, hread, hsent⟩ :=
          run_get_order_by_id (settled t order.id "paid" none (some sub)) order.id
        refine ⟨settled t order.id "paid" none (some sub), ?_⟩
        simp only [Prog.continueWith_ok, Prog.run_bind, Prog.sent_bind, hup.1, hup.2, hread, hsent,
          List.nil_append]
        refine ⟨o.map fun _ => (), ?_, fun j => ⟨?_, ?_⟩, fun j => ?_⟩
        · cases o <;> rfl
        · rw [status_settled hget]
          by_cases hj : j = order.id
          · subst hj
            simp [status, h, hst]
          · simp [hj, (hsame j).1]
        · rw [worth_settled, (hsame j).2]
        · refine le_trans (Nat.le_of_eq ?_) ((hacts j).trans (hworth j))
          cases o <;> simp [activates]

/-- A payment, from the updater on. -/
theorem effect_of_payment {db : OrderDb} {id : Nat} {order : PaymentOrder} (provider : String)
    (notes : Option String) (h : db.orders.get id = some order) :
    let paid := settled db id "paid" notes none
    let x := activate (updated "paid" notes none order) provider
    Effect id "paid" db (x.run (.opened paid)).2.stored
      (fun j => (x.sent (.opened paid)).countP (activates j)) := by
  have hid : order.id = id := (Table.get_eq_some db.orders |>.mp h).2
  have hget : (settled db id "paid" notes none).orders.get (updated "paid" notes none order).id =
      some (updated "paid" notes none order) := by
    rw [orders_settled]
    change (if order.id = id then (db.orders.get order.id).map _ else _) = _
    rw [if_pos hid, hid, h]
    rfl
  obtain ⟨t, r, hrun, hsame, hacts⟩ := run_activate provider hget rfl
  intro paid x
  have hstored : (x.run (.opened paid)).2.stored = t := by rw [hrun]; rfl
  rw [hstored]
  refine ⟨fun j => (hsame j).2.trans (worth_settled ..), fun j => ?_⟩
  have hj := hacts j
  change _ ≤ if j = order.id then _ else 0 at hj
  rw [hid, worth_settled] at hj
  rw [(hsame j).1, status_settled h]
  by_cases he : j = id
  · rw [if_pos he] at hj ⊢
    exact .inr ⟨he, rfl, hj⟩
  · rw [if_neg he] at hj ⊢
    exact .inl ⟨rfl, Nat.le_zero.mp hj⟩

/-- A refusal: the updater, and nothing after it. -/
theorem effect_of_refusal (db : OrderDb) (id : Nat) (st : String) (notes : Option String) :
    let x : OrderTx Unit := do
      let order ← update_status id st notes none
      let _ ← found order
      return ()
    Effect id st db (x.run (.opened db)).2.stored
      (fun j => (x.sent (.opened db)).countP (activates j)) := by
  have hup := run_update_status db id st notes none
  cases h : db.orders.get id with
  | none =>
    rw [h] at hup
    simp only [Prog.run_bind, Prog.sent_bind, hup.1, hup.2]
    exact .nothing id st db
  | some order =>
    rw [h] at hup
    simp only [Prog.run_bind, Prog.sent_bind, hup.1, hup.2]
    refine ⟨fun j => worth_settled .., fun j => ?_⟩
    change (status (settled db id st notes none) j = _ ∧ _) ∨
      (_ ∧ status (settled db id st notes none) j = _ ∧ _)
    rw [status_settled h]
    by_cases he : j = id
    · exact .inr ⟨he, if_pos he, Nat.zero_le _⟩
    · exact .inl ⟨if_neg he, rfl⟩

theorem effect_of_mark_paid (db : OrderDb) (id : Nat) :
    Effect id "paid" db ((mark_paid id).run (.opened db)).2.stored
      (fun j => ((mark_paid id).sent (.opened db)).countP (activates j)) := by
  unfold mark_paid
  have hup := run_update_status db id "paid" none none
  cases h : db.orders.get id with
  | none =>
    rw [h] at hup
    simp only [Prog.run_bind, Prog.sent_bind, hup.1, hup.2]
    exact .nothing id "paid" db
  | some order =>
    rw [h] at hup
    have hpaid := effect_of_payment "bale" none h
    simp only [Prog.run_bind, Prog.sent_bind, hup.1, hup.2, Prog.continueWith_ok]
    exact hpaid

/-- The approval reads the order first, and has no 404 after the updater. -/
theorem effect_of_admin_approve (db : OrderDb) (id : Nat) (admin_id : String) :
    Effect id "paid" db ((admin_approve id admin_id).run (.opened db)).2.stored
      (fun j => ((admin_approve id admin_id).sent (.opened db)).countP (activates j)) := by
  unfold admin_approve
  obtain ⟨o, hread, hsent⟩ := run_get_order_by_id db id
  have hup := run_update_status db id "paid" (some ("Approved by admin " ++ admin_id)) none
  rw [Prog.run_bind, Prog.sent_bind, hread, hsent]
  cases o with
  | error e => exact .nothing id "paid" db
  | ok order =>
    cases order with
    | none => exact .nothing id "paid" db
    | some r =>
      simp only [Prog.continueWith_ok, found, Prog.run_bind, Prog.sent_bind, Prog.run_pure,
        Prog.sent_pure, List.nil_append]
      cases h : db.orders.get id with
      | none =>
        rw [h] at hup
        simp only [hup.1, hup.2]
        exact .nothing id "paid" db
      | some order =>
        rw [h] at hup
        have hpaid := effect_of_payment "card" (some ("Approved by admin " ++ admin_id)) h
        simp only [hup.1, hup.2, Prog.continueWith_ok]
        exact hpaid

/-- Each call has the effect of its target on its own order. -/
theorem effect_of_call (c : OrderCall) (db : OrderDb) :
    Effect c.order c.target db (c.run db) (c.activations db) := by
  cases c with
  | mark_paid id => exact effect_of_mark_paid db id
  | admin_approve id admin => exact effect_of_admin_approve db id admin
  | reject_order id => exact effect_of_refusal db id "rejected" none
  | admin_reject id admin =>
    exact effect_of_refusal db id "rejected" (some ("Rejected by admin " ++ admin))
  | cancel_order id => exact effect_of_refusal db id "cancelled" none

/-! ## Runs of calls -/

/-- The database after a list of calls. -/
def after (db : OrderDb) (cs : List OrderCall) : OrderDb := cs.foldl (fun db c => c.run db) db

/-- How often a list of calls activates a subscription for an order. -/
def activations (db : OrderDb) (id : Nat) : List OrderCall → Nat
  | [] => 0
  | c :: cs => c.activations db id + activations (c.run db) id cs

def closed (db : OrderDb) (id : Nat) : Prop :=
  status db id = some "rejected" ∨ status db id = some "cancelled"

/-- A payment comes to an order that is not closed, and not to a paid order
that it would activate again. A refusal comes to an order that is not paid. -/
def OrderCall.Fits (db : OrderDb) (c : OrderCall) : Prop :=
  if c.target = "paid" then
    ¬closed db c.order ∧ (status db c.order = some "paid" → worth db c.order = 0)
  else status db c.order ≠ some "paid"

def FittingRun (db : OrderDb) : List OrderCall → Prop
  | [] => True
  | c :: cs => c.Fits db ∧ FittingRun (c.run db) cs

theorem target_cases (c : OrderCall) :
    c.target = "paid" ∨ c.target = "rejected" ∨ c.target = "cancelled" := by
  cases c <;> simp [OrderCall.target]

theorem worth_le_one (db : OrderDb) (id : Nat) : worth db id ≤ 1 := by
  unfold worth
  split <;> omega

section
variable {db : OrderDb} {id : Nat} {c : OrderCall} {cs : List OrderCall}

/-- A closed order stays closed through a fitting call, and is not activated. -/
theorem closed_step (hc : c.Fits db) (h : closed db id) :
    closed (c.run db) id ∧ c.activations db id = 0 := by
  rcases (effect_of_call c db).status id with ⟨hsame, hacts⟩ | ⟨rfl, hst, hacts⟩
  · unfold closed
    rw [hsame]
    exact ⟨h, hacts⟩
  · by_cases hp : c.target = "paid"
    · unfold OrderCall.Fits at hc
      rw [if_pos hp] at hc
      exact absurd h hc.1
    · rw [if_neg hp] at hacts
      refine ⟨?_, Nat.le_zero.mp hacts⟩
      unfold closed
      rw [hst]
      rcases target_cases c with h' | h' | h'
      · exact absurd h' hp
      · exact .inl (by rw [h'])
      · exact .inr (by rw [h'])

/-- A paid order stays paid through a fitting call, and is not activated again. -/
theorem paid_step (hc : c.Fits db) (h : status db id = some "paid") :
    status (c.run db) id = some "paid" ∧ c.activations db id = 0 := by
  rcases (effect_of_call c db).status id with ⟨hsame, hacts⟩ | ⟨rfl, hst, hacts⟩
  · exact ⟨hsame.trans h, hacts⟩
  · unfold OrderCall.Fits at hc
    by_cases hp : c.target = "paid"
    · rw [if_pos hp] at hc hacts
      rw [hc.2 h] at hacts
      exact ⟨by rw [hst, hp], Nat.le_zero.mp hacts⟩
    · rw [if_neg hp] at hc
      exact absurd h hc

theorem closed_run (hr : FittingRun db cs) (h : closed db id) :
    closed (after db cs) id ∧ activations db id cs = 0 := by
  induction cs generalizing db with
  | nil => exact ⟨h, rfl⟩
  | cons c cs ih =>
    obtain ⟨hclosed, hacts⟩ := closed_step hr.1 h
    obtain ⟨hend, hrest⟩ := ih hr.2 hclosed
    refine ⟨hend, ?_⟩
    unfold activations
    rw [hacts, hrest]

theorem paid_run (hr : FittingRun db cs) (h : status db id = some "paid") :
    status (after db cs) id = some "paid" ∧ activations db id cs = 0 := by
  induction cs generalizing db with
  | nil => exact ⟨h, rfl⟩
  | cons c cs ih =>
    obtain ⟨hpaid, hacts⟩ := paid_step hr.1 h
    obtain ⟨hend, hrest⟩ := ih hr.2 hpaid
    refine ⟨hend, ?_⟩
    unfold activations
    rw [hacts, hrest]

/-- An order that is activated is paid from then on. -/
theorem activated_once (hr : FittingRun db cs) : activations db id cs ≤ 1 := by
  induction cs generalizing db with
  | nil => exact Nat.zero_le 1
  | cons c cs ih =>
    have hrest := ih hr.2
    unfold activations
    rcases (effect_of_call c db).status id with ⟨_, hacts⟩ | ⟨rfl, hst, hacts⟩
    · omega
    · by_cases hp : c.target = "paid"
      · rw [if_pos hp] at hacts
        rw [hp] at hst
        have := worth_le_one db c.order
        have := (paid_run hr.2 hst).2
        omega
      · rw [if_neg hp] at hacts
        omega

theorem fitting_append {cs ds : List OrderCall} (h : FittingRun db (cs ++ ds)) :
    FittingRun db cs ∧ FittingRun (after db cs) ds := by
  induction cs generalizing db with
  | nil => exact ⟨trivial, h⟩
  | cons c cs ih =>
    obtain ⟨hcs, hds⟩ := ih h.2
    exact ⟨⟨h.1, hcs⟩, hds⟩

end

/-- What the lifecycle promises of a run, for each order: what holds at a
moment of the run, and what the calls after it do. -/
structure Lifecycle (db : OrderDb) (cs : List OrderCall) (id : Nat) : Prop where
  closed : ∀ before later, cs = before ++ later → closed (after db before) id →
    activations (after db before) id later = 0 ∧
      ∀ next rest, later = next ++ rest →
        status (after (after db before) next) id ≠ some "paid"
  paid : ∀ before later, cs = before ++ later → status (after db before) id = some "paid" →
    ∀ next rest, later = next ++ rest → ¬payment_orders.closed (after (after db before) next) id
  once : activations db id cs ≤ 1

/-- One order for a plan that nobody has paid yet. -/
def one_order : OrderDb where
  orders := Table.empty.insert { user_id := some "ali", plan_type := some "pro" }
  subscriptions := Table.empty

/-- LAW: In a run of fitting calls no order leaves a final status, and each is
activated at most once. -/
theorem fitting_calls_keep_the_lifecycle (db : OrderDb) (cs : List OrderCall)
    (h : FittingRun db cs) (id : Nat) : Lifecycle db cs id where
  closed := by
    rintro before later rfl hclosed
    have hlater := (fitting_append h).2
    refine ⟨(closed_run hlater hclosed).2, ?_⟩
    rintro next rest rfl hpaid
    rcases (closed_run (fitting_append hlater).1 hclosed).1 with he | he
    · rw [he] at hpaid
      simp at hpaid
    · rw [he] at hpaid
      simp at hpaid
  paid := by
    rintro before later rfl hpaid next rest rfl hclosed
    have hend := (paid_run (fitting_append (fitting_append h).2).1 hpaid).1
    rcases hclosed with he | he
    · rw [hend] at he
      simp at he
    · rw [hend] at he
      simp at he
  once := activated_once h

theorem an_order_that_is_paid_keeps_the_lifecycle :
    Lifecycle one_order [.mark_paid 1, .cancel_order 2] 1 :=
  fitting_calls_keep_the_lifecycle one_order [.mark_paid 1, .cancel_order 2]
    ⟨by simp only [OrderCall.Fits, closed]; decide +kernel,
      by simp only [OrderCall.Fits, closed]; decide +kernel, trivial⟩ 1

/-- The admin rejects the order, and then the bot marks it as paid. -/
theorem a_rejected_order_is_paid_later :
    ¬∀ (db : OrderDb) (cs : List OrderCall) (id : Nat), Lifecycle db cs id := by
  intro h
  have hclosed := (h one_order [.admin_reject 1 "9", .mark_paid 1] 1).closed
    [.admin_reject 1 "9"] [.mark_paid 1] rfl (.inl (by decide +kernel))
  have hpaid : status (after (after one_order [.admin_reject 1 "9"]) [.mark_paid 1]) 1 =
      some "paid" := by decide +kernel
  exact hclosed.2 [.mark_paid 1] [] rfl hpaid

end dr_boz.payment_orders
