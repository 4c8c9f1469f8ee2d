-- Law of the usage entries of the ledger: what an entry says was taken against
-- what its call took. `charge_chat_usage_toman` refuses a cost that the
-- balances do not hold. `record_spending_from_message` takes what they hold,
-- and writes the whole cost.
import DrBoz.MessageSpending
import DrBoz.Lib.Runs

open keyed_table unit_of_work runs dr_boz.py dr_boz.models dr_boz.codex_capacity
open dr_boz.toman_billing dr_boz.views dr_boz.billing_runs dr_boz.chat_runs dr_boz.effects
open dr_boz.spending dr_boz.two_chargers dr_boz.message_spending dr_boz.calls

namespace dr_boz.usage_entries

/-! ## The calls -/

/-- A message that Open WebUI records, or a chat that the bot charges, each in
a session of its own. The caller of a chat charge commits it, unless it raises. -/
inductive Call where
  | message (m : Spend)
  | chat (now : Datetime) (c : ChatCall)

def Call.run (db : Db) : Call → Db
  | .message m => (m.prog.run (.opened db)).2.stored
  | .chat now c =>
    let x := (c.prog now).run (.opened db)
    match x.1 with
    | .ok _ => x.2.view
    | .error _ => x.2.stored

/-! ## What the entries should say -/

/-- What a user has on the two balances. -/
def held (db : Db) (u : Nat) : Int :=
  (db.accounts.first fun a => a.user_id = u).elim 0 available

/-- The sum of the amounts of the usage entries of a user. -/
def amounts (db : Db) (u : Nat) : Int :=
  ((db.ledger.rows.filter fun e =>
    e.user_id = u && e.entry_type = "chat_completion_usage").map (·.amount_toman)).sum

/-- The user of a message and the books that know the user, when the user can
be created. -/
def books (m : Spend) (db : Db) : Option (Nat × Db) :=
  match found db m.call.era_tracking_id with
  | some u => some (u, db)
  | none =>
    if db.accounts.Accepts (new_account db.users.nextKey) then
      match free_subscription m.now db.users.nextKey (free_plan db) with
      | .ok sub => some (db.users.nextKey, created m.call.era_tracking_id sub db)
      | .error _ => none
    else none

/-- What an active subscription can cover of a call. -/
def coverable (db : Db) : Call → Int
  | .message m =>
    match books m db with
    | some (u, s) => if (latest_active m.now u s).isSome then max 0 m.cost else 0
    | none => 0
  | .chat _ _ => 0

/-- An entry accounts for its amount, up to what a subscription has covered. -/
def Accounted (covered_max : Int) (e : TomanLedgerEntry) : Prop :=
  ∃ covered, 0 ≤ covered ∧ covered ≤ covered_max ∧
    e.amount_toman = e.gift_delta_toman + e.paid_delta_toman - covered

/-- Each entry that the call writes accounts for its amount. -/
def Balanced (db : Db) (call : Call) : Prop :=
  ∀ e ∈ (call.run db).ledger.rows, e ∉ db.ledger.rows → Accounted (coverable db call) e

/-- The user whom the call charges. -/
def payer (db : Db) : Call → Option Nat
  | .message m => (books m db).map (·.1)
  | .chat _ c => some c.user.id

/-- What active subscriptions can cover of a run, for a user. -/
def covers (u : Nat) : Db → List Call → Int
  | _, [] => 0
  | db, call :: calls =>
    (if payer db call = some u then coverable db call else 0) + covers u (call.run db) calls

/-- The amounts of a user's entries are what was taken from the user: from the
balances, and from the subscriptions. -/
def Sums (db : Db) (calls : List Call) (u : Nat) : Prop :=
  ∃ covered, 0 ≤ covered ∧ covered ≤ covers u db calls ∧
    amounts (after Call.run db calls) u - amounts db u =
      held (after Call.run db calls) u - held db u - covered

/-- The balances hold the cost. With an active subscription it is enough that
they do not owe more than a gift. -/
def Reaches (m : Spend) (u : Nat) (s : Db) : Prop :=
  let gift := max 0 (intOr0 (billingRow s u).gift_balance_toman)
  let paid := intOr0 (billingRow s u).paid_balance_toman
  m.cost ≤ gift ∨ m.cost ≤ gift + paid ∨ (latest_active m.now u s).isSome ∧ 0 ≤ gift + paid

/-- The message is charged: it costs something, it is a new one, and the window
of the subscription can be set. -/
def Charges (m : Spend) (u : Nat) (s : Db) : Prop :=
  0 < m.cost ∧ (∀ e ∈ s.ledger.rows, e.idempotency_key ≠ message_key m.call.message_id) ∧
    ∃ w, on_subscription m u s = .ok w

/-- A message that is charged finds balances that reach. -/
def Fits (db : Db) : Call → Prop
  | .message m => ∀ u s, books m db = some (u, s) → Charges m u s → Reaches m u s
  | .chat _ _ => True

/-! ## The purses -/

section
variable {t : Table UserBillingAccount} {a b : UserBillingAccount} {db d s w : Db} {u v : Nat}

/-- What a user has in a table of accounts. -/
def purse (t : Table UserBillingAccount) (u : Nat) : Int :=
  (t.first fun a => a.user_id = u).elim 0 available

/-- A new account that is empty. -/
theorem purse_insert (hempty : available a = 0) (v : Nat) :
    purse (t.insert a) v = purse t v := by
  unfold purse
  cases h : t.first fun x => x.user_id = v with
  | some o => rw [Table.first_insert_some h]
  | none =>
    rcases Table.first_insert_cases t a fun x => decide (x.user_id = v) with hsame | ⟨-, -, hnew⟩
    · rw [hsame, h]
    · rw [hnew]
      exact hempty

/-- The row of a user, put with other balances, is in nobody else's purse. -/
theorem purse_put (h : t.first (fun x => x.user_id = u) = some a) (hb : SameOwner b a) (v : Nat) :
    purse (t.put b) v = purse t v + if v = u then available b - available a else 0 := by
  have ha : a.user_id = u := of_decide_eq_true (Table.first_mem h).2
  have hget : t.get a.id = some a := (Table.get_eq_some _).mpr ⟨(Table.first_mem h).1, rfl⟩
  have hrep : Table.Replaces b a := ⟨hb.1, congrArg some hb.2.1⟩
  unfold purse
  split
  · next hv =>
    have hput : (t.put b).first (fun x => x.user_id = v) = some b :=
      Table.first_put (by rw [hv, h]) hrep (by rw [hb.2.1, ha, hv, decide_eq_true_eq])
    rw [hput, hv, h, Option.elim_some, Option.elim_some]
    omega
  · next hv =>
    have hother : ¬a.user_id = v := fun he => hv (by rw [← he, ha])
    have hafter : ¬b.user_id = v := by rwa [hb.2.1]
    rw [Table.first_put_of_not hget hrep (by simpa using hother) (by simpa using hafter), add_zero]

theorem held_billing (db : Db) (u v : Nat) : held (withBilling db u) v = held db v := by
  unfold withBilling
  cases h : db.accounts.first fun a => a.user_id = u with
  | some a => rfl
  | none => exact purse_insert (t := db.accounts) rfl v

theorem held_account (db : Db) (u v : Nat) : held (withAccount db u) v = held db v := by
  unfold withAccount
  cases h : db.accounts.first fun a => a.user_id = u with
  | some a => rfl
  | none => exact purse_insert (t := db.accounts) rfl v

/-! ## What a call writes -/

/-- A call moves nothing, or it moves the balances of one user by its entry. -/
inductive Moves (db t : Db) : Option TomanLedgerEntry → Prop
  | nothing (ledger : t.ledger = db.ledger) (purses : ∀ v, held t v = held db v) : Moves db t none
  | entry {e : TomanLedgerEntry} (free : db.ledger.Accepts e)
      (ledger : t.ledger = db.ledger.insert e) (usage : e.entry_type = "chat_completion_usage")
      (purses : ∀ v, held t v = held db v +
        if v = e.user_id then e.gift_delta_toman + e.paid_delta_toman else 0) : Moves db t (some e)

theorem Moves.refl (db : Db) : Moves db db none := .nothing rfl fun _ => rfl

/-- A posting to the account of the user of the entry. -/
theorem moves_post {e : TomanLedgerEntry} (hledger : d.ledger = db.ledger)
    (hheld : ∀ v, held d v = held db v)
    (hrow : d.accounts.first (fun x => x.user_id = e.user_id) = some a) (hb : SameOwner b a)
    (hfree : db.ledger.Accepts e) (husage : e.entry_type = "chat_completion_usage")
    (hdelta : available b = available a + (e.gift_delta_toman + e.paid_delta_toman)) :
    Moves db (post d b [e]) (some e) := by
  refine .entry hfree ?_ husage fun v => ?_
  · rw [post_eq, ← hledger]
    rfl
  · have haccounts : (post d b [e]).accounts = d.accounts.put b := by rw [post_eq]
    have hput := purse_put hrow hb v
    rw [← haccounts] at hput
    refine hput.trans ?_
    have hd : purse d.accounts v = held db v := hheld v
    rw [hd, hdelta, add_sub_cancel_left]

/-- The books may start from others with the same ledger and the same purses. -/
theorem Moves.of_frame {o : Option TomanLedgerEntry} (h : Moves d s o)
    (hledger : d.ledger = db.ledger) (hheld : ∀ v, held d v = held db v) : Moves db s o := by
  cases h with
  | nothing hl hh => exact .nothing (hl.trans hledger) fun v => (hh v).trans (hheld v)
  | entry hfree hl husage hh =>
    rw [hledger] at hfree hl
    refine .entry hfree hl husage fun v => ?_
    rw [hh v, hheld v]

/-- What a call has written in the books is read off its entry. -/
theorem Moves.written {o : Option TomanLedgerEntry} (h : Moves db d o) (e : TomanLedgerEntry) :
    (e ∈ d.ledger.rows ∧ e ∉ db.ledger.rows) ↔
      ∃ x, o = some x ∧ e = { x with id := db.ledger.nextKey } := by
  cases h with
  | nothing hl =>
    rw [hl]
    simp
  | @entry x hfree hl =>
    have hrows : d.ledger.rows = db.ledger.rows ++ [{ x with id := db.ledger.nextKey }] := by
      rw [hl]
      exact Table.rows_insert hfree
    have hnew : ({ x with id := db.ledger.nextKey } : TomanLedgerEntry) ∉ db.ledger.rows := by
      intro hmem
      exact absurd (Table.key_lt_nextKey _ hmem) (Nat.lt_irrefl _)
    rw [hrows, List.mem_append, List.mem_singleton]
    constructor
    · rintro ⟨hold | rfl, hout⟩
      · exact absurd hold hout
      · exact ⟨x, rfl, rfl⟩
    · rintro ⟨y, hy, rfl⟩
      cases hy
      exact ⟨.inr rfl, hnew⟩

/-- The sum of the amounts moves by the amount of the entry. -/
theorem Moves.amounts {o : Option TomanLedgerEntry} (h : Moves db d o) (v : Nat) :
    amounts d v = amounts db v +
      o.elim 0 fun e => if e.user_id = v then e.amount_toman else 0 := by
  cases h with
  | nothing hl =>
    unfold usage_entries.amounts
    rw [hl, Option.elim_none, add_zero]
  | @entry x hfree hl husage =>
    have hrows : d.ledger.rows = db.ledger.rows ++ [{ x with id := db.ledger.nextKey }] := by
      rw [hl]
      exact Table.rows_insert hfree
    unfold usage_entries.amounts
    rw [hrows, List.filter_append, List.map_append, List.sum_append, Option.elim_some]
    congr 1
    by_cases hv : x.user_id = v <;> simp [hv, husage]

end

/-! ## A message -/

section
variable {m : Spend} {db s w : Db} {u v : Nat}

/-- The end of a message whose user is known. -/
def recorded (m : Spend) (u : Nat) (s : Db) : Db :=
  if (s.ledger.first fun e => e.idempotency_key = message_key m.call.message_id).isSome then s
  else (on_subscription m u s).toOption.elim s (charged m u)

theorem run_window {α : Type} {k : Unit → Tx α} (h : on_subscription m u s = .ok w) :
    (get_active_sub m.now u >>= fun sub => record_on_subscription m.now m.cost sub >>= k).run
      (.opened s) = (k ()).run ⟨s, w⟩ := by
  unfold get_active_sub record_on_subscription
  simp only [Prog.run_bind, Prog.run_read, Prog.continueWith_ok, Session.opened]
  rcases window_cases h with rfl | ⟨p, x, hp, hx, rfl⟩
  · unfold on_subscription at h
    cases hp : latest_active m.now u w with
    | none => rfl
    | some p =>
      simp only [hp] at h
      cases hx : timed m.now p (w.plans.get p.plan_id) with
      | error e =>
        rw [hx] at h
        cases h
      | ok x =>
        rw [hx] at h
        have hflush := run_flush_terms (s := ⟨w, w⟩) (get_latest hp) (spent_terms hx m.cost)
        have hsame : putSubscription w (spent_on x m.cost) = w := Except.ok.inj h
        simp only [Prog.run_bind, Prog.run_read, Prog.continueWith_ok, Prog.run_pure, hx,
          Prog.run_lift_ok, hflush, hsame]
  · have hflush := run_flush_terms (s := ⟨s, s⟩) (get_latest hp) (spent_terms hx m.cost)
    simp only [hp, Prog.run_bind, Prog.run_read, Prog.continueWith_ok, Prog.run_pure, hx,
      Prog.run_lift_ok, hflush]

theorem run_window_error {α : Type} {k : Unit → Tx α} {e : PyError}
    (h : on_subscription m u s = .error e) :
    ((get_active_sub m.now u >>= fun sub => record_on_subscription m.now m.cost sub >>= k).run
      (.opened s)).2.stored = s := by
  unfold get_active_sub record_on_subscription
  simp only [Prog.run_bind, Prog.run_read, Prog.continueWith_ok, Session.opened]
  unfold on_subscription at h
  cases hp : latest_active m.now u s with
  | none =>
    simp only [hp] at h
    cases h
  | some p =>
    simp only [hp] at h
    cases hx : timed m.now p (s.plans.get p.plan_id) with
    | ok x =>
      rw [hx] at h
      cases h
    | error e' =>
      simp only [Prog.run_bind, Prog.run_read, Prog.continueWith_ok, Prog.run_pure, hx,
        Prog.run_lift_error, Prog.continueWith_error]

theorem stored_rest (m : Spend) (u : Nat) (s : Db) :
    ((rest m u).run (.opened s)).2.stored = recorded m u s := by
  unfold rest ledger_exists recorded
  simp only [Prog.run_bind, Prog.run_read, Prog.continueWith_ok]
  change (Prog.run (if (s.ledger.first fun e =>
    e.idempotency_key = message_key m.call.message_id).isSome = true then _ else _) _).2.stored = _
  split
  · rfl
  · next hfree =>
    cases hw : on_subscription m u s with
    | error e =>
      rw [run_window_error hw]
      rfl
    | ok w =>
      rw [run_window hw]
      have hframe := window_frame hw
      have hflush := run_flush_account (s := ⟨s, withBilling w u⟩)
        (b := deducted (billingRow w u) m.cost) (billing_get w u) ⟨rfl, rfl, rfl⟩
      have hledger : w.admits (.addLedger (message_entry u (billingRow w u)
          (deducted (billingRow w u) m.cost) m.cost m.call.model_id m.call.usage
          m.call.message_id)) = true := by
        refine decide_eq_true fun k hk e he => ?_
        change message_key m.call.message_id = some k at hk
        rw [hframe] at he
        have hnone := Table.first_eq_none.mp (Option.not_isSome_iff_eq_none.mp hfree) e he
        have hother : ¬e.idempotency_key = message_key m.call.message_id := by simpa using hnone
        rw [← hk]
        exact hother
      simp only [Prog.run_bind, run_get_billing_account, Prog.continueWith_ok]
      erw [hflush]
      simp only [Prog.continueWith_ok, Prog.run_flush, Prog.run_bind]
      erw [if_pos hledger]
      rfl

theorem run_create {x : Int} {now : Datetime} {sub : Option UserSubscription}
    (hnew : found s x = none) (hacc : s.accounts.Accepts (new_account s.users.nextKey))
    (hsub : free_subscription now s.users.nextKey (free_plan s) = .ok sub) :
    (create_era_user now x).run (.opened s) =
      (.ok s.users.nextKey, .opened (created x sub s)) := by
  have huser : s.admits (.addUser (new_user x)) = true := decide_eq_true (accepts_new_user hnew)
  have haccount : (s.apply (.addUser (new_user x))).admits
      (.addAccount (new_account s.users.nextKey)) = true := decide_eq_true hacc
  simp only [new_user, new_account] at huser haccount
  have hplan : (s.plans.first fun p => p.plan_type = some "free") = free_plan s := rfl
  unfold create_era_user
  simp only [Prog.run_bind, Prog.run_read, Prog.continueWith_ok, Session.opened, Prog.run_flush,
    store_admits, store_apply, huser, haccount, if_true, hplan]
  cases hfree : free_plan s with
  | none =>
    rw [hfree] at hsub
    cases hsub
    rfl
  | some plan =>
    rw [hfree] at hsub
    obtain ⟨t₁, h₁, hsub⟩ := of_bind_ok hsub
    obtain ⟨t₂, h₂, hsub⟩ := of_bind_ok hsub
    obtain ⟨t₃, h₃, hsub⟩ := of_bind_ok hsub
    cases hsub
    simp only [Prog.run_bind, h₁, h₂, h₃, Prog.run_lift_ok, Prog.continueWith_ok]
    rfl

/-- A user who cannot be created ends the call. -/
theorem create_fails {α : Type} {x : Int} {now : Datetime} {k : Nat → Tx α}
    (hnew : found s x = none) (h : s.accounts.Accepts (new_account s.users.nextKey) →
      ∃ e, free_subscription now s.users.nextKey (free_plan s) = .error e) :
    ((create_era_user now x >>= k).run (.opened s)).2.stored = s := by
  have huser : s.admits (.addUser (new_user x)) = true := decide_eq_true (accepts_new_user hnew)
  have hplan : (s.plans.first fun p => p.plan_type = some "free") = free_plan s := rfl
  simp only [new_user] at huser
  unfold create_era_user
  simp only [Prog.run_bind, Prog.run_read, Prog.continueWith_ok, Session.opened, Prog.run_flush,
    store_admits, store_apply, huser, if_true, hplan]
  by_cases hacc : s.accounts.Accepts (new_account s.users.nextKey)
  · have haccount : (s.apply (.addUser (new_user x))).admits
        (.addAccount (new_account s.users.nextKey)) = true := decide_eq_true hacc
    simp only [new_user, new_account] at haccount
    obtain ⟨e, he⟩ := h hacc
    simp only [haccount, if_true, Prog.continueWith_ok]
    cases hfree : free_plan s with
    | none =>
      rw [hfree] at he
      cases he
    | some plan =>
      rw [hfree] at he
      simp only [free_subscription] at he
      simp only [Prog.run_bind, run_lift]
      cases h₁ : addDelta now (days 36500) with
      | error e₁ => rfl
      | ok t₁ =>
        simp only [Prog.continueWith_ok, Prog.run_bind, run_lift]
        cases h₂ : addDelta now (hours (cooldown_hours_of (some plan))) with
        | error e₂ => rfl
        | ok t₂ =>
          simp only [Prog.continueWith_ok, Prog.run_bind, run_lift]
          cases h₃ : addDelta now (days 7) with
          | error e₃ => rfl
          | ok t₃ =>
            rw [h₁, h₂, h₃] at he
            cases he
  · have haccount : (s.apply (.addUser (new_user x))).admits
        (.addAccount (new_account s.users.nextKey)) = false := decide_eq_false hacc
    simp only [new_user, new_account] at haccount
    simp only [haccount, Bool.false_eq_true, if_false, Prog.continueWith_error]
    rfl

/-- A message is recorded in the books that know its user. -/
theorem run_message (m : Spend) (db : Db) :
    Call.run db (.message m) =
      if m.cost ≤ 0 then db else (books m db).elim db fun b => recorded m b.1 b.2 := by
  unfold Call.run Spend.prog record_spending_from_message
  simp only
  split
  · rfl
  unfold find_era_user_id books
  simp only [Prog.run_bind, Prog.run_read, Prog.continueWith_ok, Prog.run_pure]
  cases hfound : found db m.call.era_tracking_id with
  | some u =>
    have husers : ((Session.opened db).view.users.first fun x =>
        x.telegram_user_id = some m.call.era_tracking_id).map (·.id) = some u := hfound
    rw [husers]
    exact stored_rest m u db
  | none =>
    have husers : ((Session.opened db).view.users.first fun x =>
        x.telegram_user_id = some m.call.era_tracking_id).map (·.id) = none := hfound
    rw [husers]
    simp only
    split
    · next hacc =>
      cases hsub : free_subscription m.now db.users.nextKey (free_plan db) with
      | ok sub =>
        rw [Prog.run_bind, run_create hfound hacc hsub]
        exact stored_rest m _ _
      | error e =>
        exact create_fails hfound fun _ => ⟨e, hsub⟩
    · next hacc =>
      exact create_fails hfound fun h => absurd h hacc

/-- A new user has nothing and owes nothing. -/
theorem books_frame (h : books m db = some (u, s)) :
    s.ledger = db.ledger ∧ ∀ v, held s v = held db v := by
  unfold books at h
  cases hfound : found db m.call.era_tracking_id with
  | some u' =>
    simp only [hfound] at h
    cases h
    exact ⟨rfl, fun _ => rfl⟩
  | none =>
    simp only [hfound] at h
    split at h
    · cases hsub : free_subscription m.now db.users.nextKey (free_plan db) with
      | error e =>
        simp only [hsub] at h
        cases h
      | ok sub =>
        simp only [hsub] at h
        cases h
        exact ⟨rfl, fun v => purse_insert (t := db.accounts) rfl v⟩
    · cases h

/-- The entry of a message that is charged. -/
def charge_entry (m : Spend) (u : Nat) (s : Db) : TomanLedgerEntry :=
  message_entry u (billingRow s u) (deducted (billingRow s u) m.cost) m.cost m.call.model_id
    m.call.usage m.call.message_id

theorem available_deducted (b : UserBillingAccount) (cost : Int) :
    available (deducted b cost) = available b + (-gift_used b cost + -paid_used b cost) := by
  unfold available
  rw [gift_deducted, paid_deducted]
  omega

theorem moves_recorded (hpos : 0 < m.cost) :
    (Charges m u s ∧ Moves s (recorded m u s) (some (charge_entry m u s))) ∨
      (¬Charges m u s ∧ recorded m u s = s) := by
  by_cases hkey : ∀ e ∈ s.ledger.rows, e.idempotency_key ≠ message_key m.call.message_id
  · have hfree : (s.ledger.first fun e =>
        e.idempotency_key = message_key m.call.message_id).isSome = false := by
      rw [Table.first_eq_none.mpr fun e he => by simpa using hkey e he]
      rfl
    unfold recorded
    rw [hfree, if_neg Bool.false_ne_true]
    cases hw : on_subscription m u s with
    | error e =>
      refine .inr ⟨?_, rfl⟩
      rintro ⟨-, -, w, hw'⟩
      rw [hw] at hw'
      cases hw'
    | ok w =>
      refine .inl ⟨⟨hpos, hkey, w, hw⟩, ?_⟩
      have hframe := window_frame hw
      have hrow : billingRow w u = billingRow s u := by
        rw [hframe]
        rfl
      have hheld : ∀ v, held (withBilling w u) v = held s v := by
        intro v
        rw [held_billing, hframe]
        rfl
      have hledger : (withBilling w u).ledger = s.ledger := by
        rw [hframe]
        rfl
      change Moves s (charged m u w) _
      unfold charged charge_entry
      rw [hrow]
      refine moves_post (a := billingRow s u) hledger hheld ?_ ⟨rfl, rfl, rfl⟩ ?_ rfl
        (available_deducted _ _)
      · rw [← hrow]
        exact first_withBilling w u
      · intro k hk e he
        change message_key m.call.message_id = some k at hk
        rw [← hk]
        exact hkey e he
  · refine .inr ⟨fun h => hkey h.2.1, ?_⟩
    have hused : (s.ledger.first fun e =>
        e.idempotency_key = message_key m.call.message_id).isSome = true := by
      rw [Option.isSome_iff_ne_none]
      refine fun hnone => hkey fun e he => ?_
      simpa using Table.first_eq_none.mp hnone e he
    unfold recorded
    rw [if_pos hused]

/-- A message moves the balances when it is charged. -/
theorem moves_message (m : Spend) (db : Db) :
    (∃ u s, books m db = some (u, s) ∧ Charges m u s ∧
      Moves db (Call.run db (.message m)) (some (charge_entry m u s))) ∨
    ((∀ u s, books m db = some (u, s) → ¬Charges m u s) ∧
      Moves db (Call.run db (.message m)) none) := by
  rw [run_message]
  split
  · next hle =>
    refine .inr ⟨fun u s _ h => ?_, .refl db⟩
    have hpos := h.1
    omega
  · next hle =>
    have hpos : 0 < m.cost := by omega
    cases hbooks : books m db with
    | none =>
      refine .inr ⟨fun u s h => ?_, .refl db⟩
      cases h
    | some b =>
      obtain ⟨u, s⟩ := b
      obtain ⟨hledger, hheld⟩ := books_frame hbooks
      rcases moves_recorded (u := u) (s := s) hpos with ⟨hcharges, hmoves⟩ | ⟨hnot, hsame⟩
      · refine .inl ⟨u, s, rfl, hcharges, ?_⟩
        exact hmoves.of_frame hledger hheld
      · refine .inr ⟨fun u' s' h => ?_, ?_⟩
        · cases h
          exact hnot
        · rw [Option.elim_some, hsame]
          exact .nothing hledger hheld

theorem gift_part (gift : Int) {cost : Int} (hpos : 0 < cost) :
    (if 0 < gift then min gift cost else 0) = min (max 0 gift) cost := by
  split <;> omega

/-- What the two balances leave of a cost is within a limit. -/
theorem left_over_iff (gift paid limit : Int) {cost : Int} (hpos : 0 < cost) :
    (∃ covered, 0 ≤ covered ∧ covered ≤ limit ∧
      -cost = -(if 0 < gift then min gift cost else 0) +
        -(if 0 < cost - (if 0 < gift then min gift cost else 0) then
            min paid (cost - (if 0 < gift then min gift cost else 0)) else 0) - covered) ↔
      0 ≤ limit ∧ (cost ≤ max 0 gift ∨ cost ≤ max 0 gift + paid + limit) := by
  rw [gift_part gift hpos]
  constructor
  · rintro ⟨covered, h₀, h₁, h⟩
    split at h <;> omega
  · rintro ⟨h₀, h⟩
    refine ⟨max 0 (if 0 < cost - min (max 0 gift) cost then
      cost - min (max 0 gift) cost - paid else 0), by omega, ?_, ?_⟩
    · split <;> omega
    · split <;> omega

/-- The entry of a message accounts for its amount when the balances reach. -/
theorem accounted_iff (hpos : 0 < m.cost) (n : Nat) :
    Accounted (if (latest_active m.now u s).isSome then max 0 m.cost else 0)
      { charge_entry m u s with id := n } ↔ Reaches m u s := by
  refine (left_over_iff (intOr0 (billingRow s u).gift_balance_toman)
    (intOr0 (billingRow s u).paid_balance_toman) _ hpos).trans ?_
  unfold Reaches
  by_cases hactive : (latest_active m.now u s).isSome = true
  · simp only [hactive, if_true, true_and]
    omega
  · simp only [hactive, Bool.false_eq_true, if_false, false_and, or_false]
    omega

end

/-! ## A chat charge -/

section
variable {now : Datetime} {c : ChatCall} {q : ChatUsageQuote} {db d : Db}

/-- The entry of a chat that the balances pay. -/
def paid_entry (c : ChatCall) (q : ChatUsageQuote) (db : Db) (metadata : Dict) :
    TomanLedgerEntry :=
  let account := accountRow db c.user.id
  let gift := min (intOr0 account.gift_balance_toman) q.billable_cost_toman
  new_ledger_entry c.user (spent_gift_first account q.billable_cost_toman)
    (-q.billable_cost_toman) (-gift) (-(q.billable_cost_toman - gift)) "chat_completion_usage"
    (some "chat completion usage") c.usage_event_id c.idempotency_key metadata

theorem run_balances {sub : Option UserSubscription} {plan : Option SubscriptionPlan}
    (hrow : d.accounts.get (accountRow db c.user.id).id = some (accountRow db c.user.id))
    (hle : q.billable_cost_toman ≤ available (accountRow db c.user.id))
    (hfree : ∀ metadata, d.ledger.Accepts (paid_entry c q db metadata)) :
    ∃ metadata r, (charge_balances now c.user (accountRow db c.user.id) q sub plan
      c.usage_event_id c.idempotency_key c.metadata c.commit).run ⟨db, d⟩ =
      (.ok r, Session.commitIf c.commit ⟨db, post d
        (spent_gift_first (accountRow db c.user.id) q.billable_cost_toman)
        [paid_entry c q db metadata]⟩) := by
  have hf := run_flush_account (s := ⟨db, d⟩) hrow
    (owner_spent_gift_first _ q.billable_cost_toman)
  simp only [charge_balances]
  rw [if_neg (not_lt.mpr hle), Prog.run_bind, hf, Prog.continueWith_ok, Prog.run_bind,
    run_add_ledger]
  split
  · rw [Prog.continueWith_ok, Prog.run_bind, Prog.run_publishIf]
    exact ⟨_, _, rfl⟩
  · next hno => exact absurd (hfree _) hno

/-- The balances pay when no window covers the charge and they hold it. -/
theorem run_left (hq : c.quote db = .ok q) (hk : ledgerRow db c.idempotency_key = none)
    (hpos : 0 < q.billable_cost_toman) (hb : LeftToBalances now db c.user.id d)
    (hle : q.billable_cost_toman ≤ available (accountRow db c.user.id))
    (hfree : ∀ metadata, db.ledger.Accepts (paid_entry c q db metadata)) :
    ∃ metadata r, (c.prog now).run (.opened db) =
      (.ok r, Session.commitIf c.commit ⟨db, post d
        (spent_gift_first (accountRow db c.user.id) q.billable_cost_toman)
        [paid_entry c q db metadata]⟩) := by
  obtain ⟨haccounts, hledger⟩ := hb.frame
  have hrow : d.accounts.get (accountRow db c.user.id).id = some (accountRow db c.user.id) := by
    rw [haccounts]
    exact get_accountRow db c.user.id
  rw [← hledger] at hfree
  cases hb with
  | plain r h =>
    rw [run_charge_plain (s := .opened db) hq hk hpos h]
    exact run_balances hrow hle hfree
  | limited r w plan hit cooling h hw hl hc hb =>
    have hleft : (!hit && !cooling) = false := by
      cases hit <;> cases cooling <;> first | rfl | cases hb
    rw [run_charge_tiered (s := .opened db) hq hk hpos h hw hl hc, hleft,
      if_neg Bool.false_ne_true]
    exact run_balances hrow hle hfree

theorem available_spent (a : UserBillingAccount) (cost : Int) :
    available (spent_gift_first a cost) = available a +
      (-min (intOr0 a.gift_balance_toman) cost +
        -(cost - min (intOr0 a.gift_balance_toman) cost)) := by
  rw [available_spent_gift_first]
  omega

/-- What a chat charge writes says what it takes. -/
theorem moves_chat (now : Datetime) (c : ChatCall) (db : Db) :
    ∃ o, Moves db (Call.run db (.chat now c)) o ∧ ∀ e, o = some e →
      e.user_id = c.user.id ∧ e.amount_toman = e.gift_delta_toman + e.paid_delta_toman := by
  have hnone : ∀ e : TomanLedgerEntry, none = some e → e.user_id = c.user.id ∧
      e.amount_toman = e.gift_delta_toman + e.paid_delta_toman := fun e h => by cases h
  have hquiet : ∀ t : Db, t.accounts = (withAccount db c.user.id).accounts →
      t.ledger = db.ledger → Moves db t none := by
    refine fun t ha hl => .nothing hl fun v => ?_
    rw [← held_account db c.user.id v]
    unfold held
    rw [ha]
  have hrun := chatRun now c (.opened db)
  simp only [Call.run]
  generalize hx : (c.prog now).run (.opened db) = x at hrun
  obtain ⟨r, t⟩ := x
  cases hrun with
  | quote_raised | no_plan | window_raised | start_raised | conflict =>
    exact ⟨none, .refl db, hnone⟩
  | replay | free => exact ⟨none, hquiet _ rfl rfl, hnone⟩
  | covered =>
    refine ⟨none, ?_, hnone⟩
    cases c.commit <;> exact hquiet _ rfl rfl
  | refused q d r hq hk hpos hb =>
    exact ⟨none, hquiet _ hb.frame.1 hb.frame.2, hnone⟩
  | paid q d e r hq hk hpos hb hle he hfree =>
    have hfree' : ∀ metadata, db.ledger.Accepts (paid_entry c q db metadata) := by
      intro metadata k hkey
      exact hfree k (he.key.trans hkey)
    have hquote : c.quote db = .ok q := hq
    obtain ⟨metadata, r', hrun⟩ := run_left hquote hk hpos hb hle hfree'
    have hview : ∀ p, (Session.commitIf c.commit ⟨db, p⟩ : Session Db).view = p := by
      intro p
      cases c.commit <;> rfl
    have hleft := congrArg (fun x => x.2.view) (hx.symm.trans hrun)
    simp only [hview] at hleft
    refine ⟨some (paid_entry c q db metadata),
      (congrArg (fun t => Moves db t (some (paid_entry c q db metadata))) hleft).mpr ?_,
      fun e he => ?_⟩
    · obtain ⟨haccounts, hledger⟩ : d.accounts = (withAccount db c.user.id).accounts ∧
          d.ledger = db.ledger := hb.frame
      refine moves_post hledger (fun v => ?_) ?_ (owner_spent_gift_first _ _) (hfree' metadata) rfl
        (available_spent _ _)
      · rw [← held_account db c.user.id v]
        unfold held
        rw [haccounts]
      · rw [haccounts]
        exact first_withAccount db c.user.id
    · cases he
      refine ⟨rfl, ?_⟩
      unfold paid_entry
      simp only [new_ledger_entry]
      omega

end

/-! ## The law -/

section
variable {db : Db} {call : Call}

theorem coverable_nonneg (db : Db) (call : Call) : 0 ≤ coverable db call := by
  cases call with
  | chat => exact le_refl 0
  | message m =>
    simp only [coverable]
    cases books m db with
    | none => exact le_refl (0 : Int)
    | some b =>
      simp only
      split <;> omega

theorem coverable_books {m : Spend} {u : Nat} {s : Db} (h : books m db = some (u, s)) :
    coverable db (.message m) = if (latest_active m.now u s).isSome then max 0 m.cost else 0 := by
  simp only [coverable, h]

/-- The entry of a call that fits accounts for its amount. -/
theorem moves_accounted (h : Fits db call) :
    ∃ o, Moves db (call.run db) o ∧ ∀ e, o = some e →
      payer db call = some e.user_id ∧ Accounted (coverable db call) e := by
  cases call with
  | chat now c =>
    obtain ⟨o, hmoves, hentry⟩ := moves_chat now c db
    refine ⟨o, hmoves, fun e he => ?_⟩
    obtain ⟨howner, hamount⟩ := hentry e he
    exact ⟨congrArg some howner.symm, 0, le_refl 0, le_refl 0, by rw [hamount, sub_zero]⟩
  | message m =>
    rcases moves_message m db with ⟨u, s, hbooks, hcharges, hmoves⟩ | ⟨-, hmoves⟩
    · refine ⟨_, hmoves, fun e he => ?_⟩
      cases he
      refine ⟨?_, ?_⟩
      · simp only [payer, hbooks]
        rfl
      · rw [coverable_books hbooks]
        exact (accounted_iff hcharges.1 0).mpr (h u s hbooks hcharges)
    · exact ⟨none, hmoves, fun e he => by cases he⟩

theorem balanced_iff (db : Db) (call : Call) : Balanced db call ↔ Fits db call := by
  constructor
  · intro h
    cases call with
    | chat => trivial
    | message m =>
      rintro u s hbooks hcharges
      rcases moves_message m db with ⟨u', s', hbooks', -, hmoves⟩ | ⟨hnot, -⟩
      · rw [hbooks] at hbooks'
        cases hbooks'
        obtain ⟨hmem, hnew⟩ := (hmoves.written _).mpr ⟨_, rfl, rfl⟩
        have hentry := h _ hmem hnew
        rw [coverable_books hbooks] at hentry
        exact (accounted_iff hcharges.1 _).mp hentry
      · exact absurd hcharges (hnot u s hbooks)
  · intro h e hmem hnew
    obtain ⟨o, hmoves, hentry⟩ := moves_accounted h
    obtain ⟨x, hx, rfl⟩ := (hmoves.written e).mp ⟨hmem, hnew⟩
    exact (hentry x hx).2

/-- A call that fits adds to the amounts of a user what it takes from the user. -/
theorem step_sums (h : Fits db call) (u : Nat) :
    ∃ covered, 0 ≤ covered ∧
      covered ≤ (if payer db call = some u then coverable db call else 0) ∧
      amounts (call.run db) u - amounts db u = held (call.run db) u - held db u - covered := by
  obtain ⟨o, hmoves, hentry⟩ := moves_accounted h
  have hamounts := hmoves.amounts u
  cases hmoves with
  | nothing _ hheld =>
    refine ⟨0, le_refl 0, ?_, ?_⟩
    · split
      · exact coverable_nonneg db call
      · exact le_refl 0
    · rw [hamounts, hheld u, Option.elim_none]
      omega
  | @entry e _ _ _ hheld =>
    obtain ⟨hpayer, covered, h₀, h₁, hamount⟩ := hentry e rfl
    have hmoved := hheld u
    rw [Option.elim_some] at hamounts
    by_cases hu : e.user_id = u
    · rw [if_pos hu] at hamounts
      rw [if_pos hu.symm] at hmoved
      refine ⟨covered, h₀, ?_, by omega⟩
      rw [hpayer, hu, if_pos rfl]
      exact h₁
    · rw [if_neg hu] at hamounts
      rw [if_neg (Ne.symm hu)] at hmoved
      refine ⟨0, le_refl 0, ?_, by omega⟩
      rw [hpayer, if_neg (by simpa using hu)]

theorem sums_of_fits {calls : List Call} (h : Each Call.run Fits db calls) (u : Nat) :
    Sums db calls u := by
  induction calls generalizing db with
  | nil => exact ⟨0, le_refl 0, le_refl 0, by simp⟩
  | cons call calls ih =>
    obtain ⟨c₁, h₀, h₁, hfirst⟩ := step_sums h.1 u
    obtain ⟨c₂, h₂, h₃, hrest⟩ := ih h.2
    refine ⟨c₁ + c₂, by omega, ?_, ?_⟩
    · unfold covers
      omega
    · rw [after_cons]
      omega

end

/-- LAW: In a run of messages and chat charges, each usage entry accounts for
its amount, and the amounts of every user sum up to what was taken from the
user, if and only if each message that is charged finds balances that reach. -/
theorem usage_entries_balance_iff_the_balances_reach (db : Db) (calls : List Call) :
    (Each Call.run Balanced db calls ∧ ∀ u, Sums db calls u) ↔ Each Call.run Fits db calls := by
  constructor
  · intro h
    exact h.1.mono fun db call => (balanced_iff db call).mp
  · intro h
    exact ⟨h.mono fun db call => (balanced_iff db call).mpr, sums_of_fits h⟩

/-- The customer has 5000 Toman and no subscription, and sends a message of
6000. The entry says that 6000 were paid. -/
theorem a_message_beyond_the_balances_is_noted_in_full :
    ¬∀ (db : Db) (calls : List Call),
      Each Call.run Balanced db calls ∧ ∀ u, Sums db calls u := by
  intro h
  have hentry := (h shop [.message { small_message 100 "one" with cost := 6000 }]).1.1
  obtain ⟨e, hmem, hnew, hamount, hdeltas⟩ :
      ∃ e ∈ (Call.run shop (.message { small_message 100 "one" with cost := 6000 })).ledger.rows,
        e ∉ shop.ledger.rows ∧ e.amount_toman = -6000 ∧
          e.gift_delta_toman + e.paid_delta_toman = -5000 := by
    decide +kernel
  obtain ⟨covered, -, hle, hsum⟩ := hentry e hmem hnew
  have hnone : coverable shop (.message { small_message 100 "one" with cost := 6000 }) = 0 := by
    decide +kernel
  omega

end dr_boz.usage_entries
