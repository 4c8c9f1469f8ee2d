-- Law of the payments that the platform confirms to the bot: each of them is
-- applied as a whole or not at all, and at most once. One whose terms have
-- changed since the invoice is not applied: the user is sent to the support.
import DrBoz.BotPurchases

open keyed_table unit_of_work dr_boz.py dr_boz.texts dr_boz.models dr_boz.codex_capacity
open dr_boz.toman_billing dr_boz.views dr_boz.billing_runs dr_boz.purchase_runs dr_boz.effects
open dr_boz.calls dr_boz.bot_users dr_boz.payment_payloads dr_boz.bot_payments
open dr_boz.bot_purchases

namespace dr_boz.confirmed_payments

/-! ## A confirmed top-up -/

/-- What the credit needs: a charge that is not recorded, and a quote that
still asks for what the invoice asked for. -/
structure Credits (now : Datetime) (db : Db) (u : Nat) (p : TomanTopupPayload) (key : String) :
    Prop where
  fresh : ∀ e ∈ db.ledger.rows, e.idempotency_key ≠ some key
  terms : ∃ q, topupQuoteOf now db u p.credit_amount_toman = .ok q ∧
    q.payment_due_toman = p.payment_due_toman

/-- What a credit leaves. -/
structure Credited (db db' : Db) (u : Nat) (credit : Int) (key : String) : Prop where
  paid : intOr0 (accountRow db' u).paid_balance_toman =
    intOr0 (accountRow db u).paid_balance_toman + credit
  gift : intOr0 (accountRow db' u).gift_balance_toman = intOr0 (accountRow db u).gift_balance_toman
  subscriptions : db'.subscriptions = db.subscriptions
  recorded : ∃ e ∈ db'.ledger.rows, e.idempotency_key = some key

section
variable {now : Datetime} {db d db' : Db} {v : UserPreference} {u : Nat} {key : String}

theorem quote_looked (h : Looked u db db') (now : Datetime) (credit : Int) :
    topupQuoteOf now db' u credit = topupQuoteOf now db u credit := by
  unfold topupQuoteOf
  rw [h.account, h.config, h.activeRow]

theorem quoted_credit {a : UserBillingAccount} {c : SubscriptionConfig}
    {r : Option UserSubscription} {n : Int} {q : TopupQuote} (h : topup_quote a c r n = .ok q)
    (hn : 0 < n) : q.credit_amount_toman = n := by
  have hpos : positive_int (some n) 0 = n := by
    simp only [positive_int, orDefault, if_neg hn.ne']
    exact max_eq_right hn.le
  unfold topup_quote at h
  simp only [bind, Except.bind, hpos] at h
  split at h
  · cases h
  · split at h
    · cases h
    · cases h
      rfl

theorem topup_key_ne (now : Datetime) (sender : Sender) (p : TomanTopupPayload)
    (payment : Payment) : topup_key now sender p payment ≠ "" := by
  intro h
  unfold topup_key at h
  simp only [String.append_eq_empty_iff] at h
  exact absurd h.1 (by decide)

/-- The top-up itself credits a fresh key, and else it leaves the store. -/
theorem run_apply {credit : Int} {metadata : Dict} {q : TopupQuote} (hkey : key ≠ "")
    (hpos : 0 < credit) {s : Session Db}
    (hq : topupQuoteOf now s.view v.id credit = .ok q) :
    let x := (apply_toman_topup now v credit (some key) metadata true).run s
    ((∀ e ∈ s.view.ledger.rows, e.idempotency_key ≠ some key) ∧ ∃ r db',
      x = (.ok r, .opened db') ∧ r.ok = true ∧ Credited s.view db' v.id credit key) ∨
    ((∃ e ∈ s.view.ledger.rows, e.idempotency_key = some key) ∧ x.2.stored = s.stored) := by
  have h := topupRun now ⟨v, credit, some key, metadata, true⟩ s
  have htrue : truthyKey (some key) = true := by simp [truthyKey, hkey]
  have hcredit : q.credit_amount_toman = credit := quoted_credit hq hpos
  intro x
  change TopupRun now _ s x.1 x.2 at h
  have hnone : ledgerRow s.view (some key) = none →
      ∀ e ∈ s.view.ledger.rows, e.idempotency_key ≠ some key := by
    intro hk e he
    unfold ledgerRow at hk
    rw [if_pos htrue] at hk
    simpa using Table.first_eq_none.mp hk e he
  obtain ⟨r, s'⟩ := x
  simp only at h
  cases h with
  | raised e hq' =>
    rw [hq] at hq'
    cases hq'
  | replay q' e r hq' hk hr =>
    change ledgerRow s.view (some key) = some e at hk
    unfold ledgerRow at hk
    rw [if_pos htrue] at hk
    obtain ⟨hm, hp⟩ := Table.first_mem hk
    exact .inr ⟨⟨e, hm, by simpa using hp⟩, rfl⟩
  | refused q' r hq' hk hle hr =>
    rw [hq] at hq'
    cases hq'
    omega
  | credited q' e r hq' hk hpos' hb hg hp hkeyed ha hr =>
    rw [hq] at hq'
    cases hq'
    refine .inl ⟨hnone hk, r, _, rfl, hr, ?_⟩
    have hrow := accountRow_post [e] (first_withAccount s.view v.id)
      (owner_topped_up (accountRow s.view v.id) q)
    constructor
    · erw [hrow]
      simp [topped_up, hcredit, intOr0]
    · erw [hrow]
      rfl
    · rw [post_eq]
      rfl
    · refine ⟨{ e with id := s.view.ledger.nextKey }, ?_, hkeyed⟩
      rw [post_eq]
      change _ ∈ (s.view.ledger.insert e).rows
      rw [Table.rows_insert ha]
      exact List.mem_append_right _ (List.mem_singleton.mpr rfl)
  | conflict q' e hq' hkeyed ha =>
    refine .inr ⟨?_, rfl⟩
    by_contra hno
    refine ha fun k hk x hx hxk => hno ⟨x, hx, ?_⟩
    change e.idempotency_key = some k at hk
    rw [hkeyed] at hk
    cases hk
    exact hxk

/-- A confirmed top-up is credited when its terms hold, and else it leaves the
store as the user was found in it. -/
theorem run_topup_payment (now : Datetime) (sender : Sender) (p : TomanTopupPayload)
    (payment : Payment) (hpos : 0 < p.credit_amount_toman)
    (hget : (get_user sender.id sender.first_name sender.username).run (.opened db) =
      (.ok v, .opened d)) :
    let key := topup_key now sender p payment
    let x := (handle_successful_toman_topup_payment now sender p payment).run (.opened db)
    (Credits now d v.id p key ∧ ∃ db', x = (.ok .credited, .opened db') ∧
      Credited d db' v.id p.credit_amount_toman key) ∨
    (¬Credits now d v.id p key ∧ x.2.stored = d) := by
  unfold handle_successful_toman_topup_payment
  simp only [Prog.run_bind, hget, Prog.continueWith_ok, run_quote_toman_topup_payment,
    Session.view_opened, Session.stored_opened]
  have hlooked : Looked v.id d (withConfig (withAccount d v.id)) :=
    (looked_account _ _).trans (looked_config _ _)
  cases hq : topupQuoteOf now d v.id p.credit_amount_toman with
  | error e =>
    refine .inr ⟨fun hc => ?_, rfl⟩
    obtain ⟨q, hq', -⟩ := hc.terms
    rw [hq] at hq'
    cases hq'
  | ok q =>
    simp only [Prog.continueWith_ok]
    split
    · rename_i hdue
      refine .inr ⟨fun hc => ?_, rfl⟩
      obtain ⟨q', hq', hdue'⟩ := hc.terms
      rw [hq] at hq'
      cases hq'
      exact hdue hdue'
    · rename_i hdue
      have hq' := (quote_looked hlooked now p.credit_amount_toman).trans hq
      rw [Prog.run_bind]
      rcases run_apply (topup_key_ne now sender p payment) hpos
        (s := ⟨d, withConfig (withAccount d v.id)⟩) hq' with
        ⟨hfresh, r, db', hx, hok, hc⟩ | ⟨⟨e, he, hek⟩, hstored⟩
      · refine .inl ⟨⟨hlooked.ledger ▸ hfresh, q, hq, not_ne_iff.mp hdue⟩, db', ?_, ?_⟩
        · rw [hx, Prog.continueWith_ok, if_pos hok]
          rfl
        · exact ⟨by rw [hc.paid, hlooked.account], by rw [hc.gift, hlooked.account],
            hc.subscriptions, hc.recorded⟩
      · refine .inr ⟨fun hc => hc.fresh e he hek, ?_⟩
        generalize (apply_toman_topup now v p.credit_amount_toman _ _ true).run _ = x at hstored
        obtain ⟨e | r, s'⟩ := x
        · exact hstored
        · exact hstored

end

/-! ## Any confirmed payment -/

/-- The key that the payment is recorded under. -/
def recordKey (now : Datetime) (sender : Sender) (payment : Payment) : PaymentPayload → String
  | .subscription p => subscription_key now sender p payment
  | .toman_topup p => topup_key now sender p payment

/-- What the payment needs at its confirmation. -/
def Meets (now : Datetime) (d : Db) (u : Nat) (key : String) : PaymentPayload → Prop
  | .subscription p => (d.plans.get p.plan_id.toNat).isSome ∧ Sells now d u key
  | .toman_topup p => Credits now d u p key

/-- All of the payment: the plan of the invoice becomes active and the
balances stay, or the credit of the invoice is on the paid balance. -/
def Applied (now : Datetime) (d d' : Db) (u : Nat) : PaymentPayload → Prop
  | .subscription p => Kept d d' u ∧ activeRow now d u = none ∧
      ∃ r, activeRow now d' u = some r ∧ (r.plan_id : Int) = p.plan_id
  | .toman_topup p => d'.subscriptions = d.subscriptions ∧
      intOr0 (accountRow d' u).gift_balance_toman = intOr0 (accountRow d u).gift_balance_toman ∧
      intOr0 (accountRow d' u).paid_balance_toman =
        intOr0 (accountRow d u).paid_balance_toman + p.credit_amount_toman

/-- The store after a confirmation. -/
def confirmed (now : Datetime) (sender : Sender) (payment : Payment) (db : Db) : Db :=
  ((handle_successful_payment now sender payment).run (.opened db)).2.stored

section
variable {now : Datetime} {sender : Sender} {payment : Payment} {db d : Db} {v : UserPreference}
variable {payload : PaymentPayload}

theorem checked_cases (h : checked_payload sender payment = .ok payload) :
    (∃ p : SubscriptionPayload, payload = .subscription p ∧ p.Valid) ∨
      ∃ p : TomanTopupPayload, payload = .toman_topup p ∧ p.Valid := by
  unfold checked_payload at h
  split at h
  · cases h
  · rename_i q hq
    have hpayload : q = payload := by
      split_ifs at h
      exact Except.ok.inj h
    subst hpayload
    unfold parse_payment_payload at hq
    split at hq
    · rename_i p hp
      cases hq
      exact .inl ⟨p, rfl, valid_subscription hp⟩
    · obtain ⟨p, hp, rfl⟩ := Option.map_eq_some_iff.mp hq
      exact .inr ⟨p, rfl, valid_topup hp⟩

/-- A confirmation applies the payment and records it, or it leaves the store
as the user was found in it. -/
theorem confirmation_cases (now : Datetime) (h : checked_payload sender payment = .ok payload)
    (hv : visitor db sender.id sender.first_name sender.username = some (v, d)) :
    (Meets now d v.id (recordKey now sender payment payload) payload ∧
      Applied now d (confirmed now sender payment db) v.id payload ∧
      ∃ e ∈ (confirmed now sender payment db).ledger.rows,
        e.idempotency_key = some (recordKey now sender payment payload)) ∨
    (¬Meets now d v.id (recordKey now sender payment payload) payload ∧
      confirmed now sender payment db = d) := by
  have hget := run_visitor hv
  unfold confirmed handle_successful_payment
  rw [h]
  rcases checked_cases h with ⟨p, rfl, hvalid⟩ | ⟨p, rfl, hvalid⟩
  · simp only
    cases hp : d.plans.get p.plan_id.toNat with
    | none =>
      refine .inr ⟨fun hm => ?_, ?_⟩
      · simp [Meets, hp] at hm
      · unfold handle_successful_subscription_payment
        simp only [Prog.run_bind, hget, Prog.continueWith_ok, Prog.run_read, Session.view_opened,
          hp]
        rfl
    | some plan =>
      have hid : (plan.id : Int) = p.plan_id := by
        have := ((Table.get_eq_some _).mp hp).2
        change plan.id = _ at this
        have := hvalid.2.1
        omega
      rcases run_subscription_payment now sender p payment hget hp with
        ⟨hsells, db', hx, hsold⟩ | ⟨hnot, hx⟩
      · rw [hx]
        obtain ⟨r, hr, hplan⟩ := hsold.active
        exact .inl ⟨⟨by simp [hp], hsells⟩,
          ⟨⟨hsold.gift, hsold.paid⟩, hsells.idle, r, hr, by rw [hplan, hid]⟩, hsold.recorded⟩
      · exact .inr ⟨fun hm => hnot hm.2, hx⟩
  · simp only
    rcases run_topup_payment now sender p payment hvalid.2.1 hget with
      ⟨hcredits, db', hx, hc⟩ | ⟨hnot, hx⟩
    · rw [hx]
      exact .inl ⟨hcredits, ⟨hc.subscriptions, hc.gift, hc.paid⟩, hc.recorded⟩
    · exact .inr ⟨hnot, hx⟩

end

/-! ## Runs of the bot -/

structure Invoice where
  user_id : Int
  payload : String
  total_rial : Int
deriving DecidableEq

/-- The store, and the invoices that the bot has sent so far. -/
structure World where
  store : Db
  invoices : List Invoice

/-- An invoice is sent, an admin changes the configuration, the platform
confirms a payment, or any other program of the services runs. -/
inductive Event : Type 1 where
  | topup_invoice (asked pressed : Datetime) (platform : Platform) (sender : Sender)
      (amount_toman : Int)
  | subscription_invoice (now : Datetime) (platform : Platform) (sender : Sender) (plan_id : Nat)
      (use_wallet : Bool)
  | configure (configs : Table SubscriptionConfig) (plans : Table SubscriptionPlan)
      (pools : Table CapacityPool)
  | confirm (now : Datetime) (sender : Sender) (payment : Payment)
  | other (x : Tx Unit)

def Event.run (w : World) : Event → World
  | .topup_invoice asked pressed platform sender amount_toman =>
    let x := (ask_toman_topup asked sender amount_toman).run (.opened w.store)
    let sent := x.1.toOption.join.bind fun quote =>
      handle_topup_method_bale pressed platform sender (some quote)
    ⟨x.2.stored, w.invoices ++ (sent.map fun i => ⟨sender.id, i.1, i.2⟩).toList⟩
  | .subscription_invoice now platform sender plan_id use_wallet =>
    let x := (start_subscription_payment now platform sender plan_id use_wallet).run
      (.opened w.store)
    let sent := match x.1 with
      | .ok (.invoice payload total_rial) => [⟨sender.id, payload, total_rial⟩]
      | _ => []
    ⟨x.2.stored, w.invoices ++ sent⟩
  | .configure configs plans pools => { w with store := { w.store with configs, plans, pools } }
  | .confirm now sender payment => { w with store := confirmed now sender payment w.store }
  | .other x => { w with store := (x.run (.opened w.store)).2.stored }

def after (w : World) (es : List Event) : World := es.foldl (fun w e => e.run w) w

/-- The ledger has an entry under the key. -/
def Recorded (key : String) (db : Db) : Prop :=
  ∃ e ∈ db.ledger.rows, e.idempotency_key = some key

/-- No change takes an entry from the ledger. -/
theorem recorded_change {key : String} (db : Db) (c : Change) (h : Recorded key db) :
    Recorded key (db.apply c) := by
  obtain ⟨e, he, hk⟩ := h
  cases c with
  | addLedger x => exact ⟨e, Table.mem_insert_of_mem he, hk⟩
  | addUser | setTelegramId | setUser | addAccount | setAccount | addSubscription | setSubscription
  | deleteSubscription | setPool | addConfig | addRedemption | setRedemption | addPaymentRequest
  | setPaymentRequest | addAdminAction | addWallet | setWallet | addCreditLedger | addReferralEvent
  | addClick | setClick | addStarterConfig | setStarterConfig => exact ⟨e, he, hk⟩

theorem recorded_program {α : Type} {key : String} (x : Tx α) {db : Db} (h : Recorded key db) :
    Recorded key (x.run (.opened db)).2.stored :=
  (Prog.run_keeps recorded_change x ⟨h, h⟩).1

theorem store_confirm (w : World) (now : Datetime) (sender : Sender) (payment : Payment) :
    (Event.run w (.confirm now sender payment)).store = confirmed now sender payment w.store := by
  simp only [Event.run]

theorem recorded_event {key : String} {w : World} (e : Event) (h : Recorded key w.store) :
    Recorded key (e.run w).store := by
  cases e with
  | topup_invoice asked pressed platform sender amount_toman =>
    exact recorded_program (ask_toman_topup asked sender amount_toman) h
  | subscription_invoice now platform sender plan_id use_wallet =>
    exact recorded_program (start_subscription_payment now platform sender plan_id use_wallet) h
  | configure configs plans pools => exact h
  | confirm now sender payment =>
    rw [store_confirm, confirmed]
    exact recorded_program (handle_successful_payment now sender payment) h
  | other x => exact recorded_program x h

theorem recorded_after {key : String} {w : World} (es : List Event) (h : Recorded key w.store) :
    Recorded key (after w es).store := by
  induction es generalizing w with
  | nil => exact h
  | cons e es ih => exact ih (recorded_event e h)

/-! ## Law -/

/-- The confirmation finds the payment's terms as they have to be. -/
def Applies (now : Datetime) (sender : Sender) (payment : Payment) (db : Db) : Prop :=
  ∃ payload v d, checked_payload sender payment = .ok payload ∧
    visitor db sender.id sender.first_name sender.username = some (v, d) ∧
    Meets now d v.id (recordKey now sender payment payload) payload

/-- The platform has named the charge. -/
def HasCharge (payment : Payment) : Prop :=
  strip (payment.telegram_payment_charge_id.getD "") ≠ "" ∨
    strip (payment.provider_payment_charge_id.getD "") ≠ ""

/-- Each confirmed payment is applied as a whole or leaves the store as its
user was found in it, and one with a charge id is applied at most once. -/
structure Honoured (w : World) (es : List Event) : Prop where
  whole : ∀ pre now sender payment post payload v d,
    es = pre ++ .confirm now sender payment :: post →
    handle_pre_checkout_query sender payment = true →
    checked_payload sender payment = .ok payload →
    visitor (after w pre).store sender.id sender.first_name sender.username = some (v, d) →
    (Meets now d v.id (recordKey now sender payment payload) payload →
      Applied now d (after w (pre ++ [.confirm now sender payment])).store v.id payload) ∧
    (¬Meets now d v.id (recordKey now sender payment payload) payload →
      (after w (pre ++ [.confirm now sender payment])).store = d)
  once : ∀ pre now sender payment mid later post,
    es = pre ++ .confirm now sender payment :: (mid ++ .confirm later sender payment :: post) →
    HasCharge payment → Applies now sender payment (after w pre).store →
    ¬Applies later sender payment
      (after w (pre ++ .confirm now sender payment :: mid)).store

theorem charge_id_const {payment : Payment} (h : HasCharge payment) (a b : String) :
    charge_id payment a = charge_id payment b := by
  unfold charge_id
  simp only
  split_ifs with h1 h2
  · rfl
  · rfl
  · exact absurd h (not_or.mpr ⟨h1, h2⟩)

theorem recordKey_const {payment : Payment} (h : HasCharge payment) (now later : Datetime)
    (sender : Sender) (payload : PaymentPayload) :
    recordKey now sender payment payload = recordKey later sender payment payload := by
  cases payload with
  | subscription p => exact congrArg ("subscription:bale:" ++ ·) (charge_id_const h _ _)
  | toman_topup p => exact congrArg ("toman_topup:bale:" ++ ·) (charge_id_const h _ _)

/-- A recorded payment no longer finds what it needs. -/
theorem not_meets_recorded {now : Datetime} {d : Db} {u : Nat} {key : String}
    (h : Recorded key d) (payload : PaymentPayload) : ¬Meets now d u key payload := by
  obtain ⟨e, he, hk⟩ := h
  intro hm
  cases payload with
  | subscription p => exact (hm.2.fresh e he).1 hk
  | toman_topup p => exact hm.fresh e he hk

theorem after_append (w : World) (es fs : List Event) :
    after w (es ++ fs) = after (after w es) fs := List.foldl_append

theorem after_nil (w : World) : after w [] = w := rfl

theorem after_cons (w : World) (e : Event) (es : List Event) :
    after w (e :: es) = after (e.run w) es := rfl

/-- LAW: Every confirmed payment is applied as a whole or not at all, and
however often its confirmation is delivered, at most once. -/
theorem confirmed_payments_are_whole_and_once (w : World) (es : List Event) : Honoured w es := by
  constructor
  · intro pre now sender payment post payload v d _ _ hpayload hv
    have hstore : (after w (pre ++ [.confirm now sender payment])).store =
        confirmed now sender payment (after w pre).store := by
      rw [after_append, after_cons, after_nil, store_confirm]
    rw [hstore]
    rcases confirmation_cases now hpayload hv with ⟨hm, happlied, -⟩ | ⟨hm, hd⟩
    · exact ⟨fun _ => happlied, fun hno => absurd hm hno⟩
    · exact ⟨fun hyes => absurd hyes hm, fun _ => hd⟩
  · rintro pre now sender payment mid later post - hcharge ⟨payload, v, d, hp, hv, hm⟩
      ⟨payload', v', d', hp', hv', hm'⟩
    rw [hp] at hp'
    cases hp'
    have hkey := recordKey_const hcharge now later sender payload
    have hrecorded : Recorded (recordKey now sender payment payload)
        (confirmed now sender payment (after w pre).store) := by
      rcases confirmation_cases now hp hv with ⟨-, -, hr⟩ | ⟨hno, -⟩
      · exact hr
      · exact absurd hm hno
    have hstep : Recorded (recordKey now sender payment payload)
        (Event.run (after w pre) (.confirm now sender payment)).store := by
      rw [store_confirm]
      exact hrecorded
    have hlater : Recorded (recordKey now sender payment payload)
        (after w (pre ++ .confirm now sender payment :: mid)).store := by
      rw [after_append, after_cons]
      exact recorded_after mid hstep
    have hfound := recorded_program (get_user sender.id sender.first_name sender.username) hlater
    rw [run_visitor hv', hkey] at hfound
    exact not_meets_recorded hfound payload hm'

/-! ## Two open invoices -/

/-- Some delivery of every payment of a sent invoice that the bot has accepted
finds what it needs. -/
def NothingLost (w : World) (es : List Event) : Prop :=
  ∀ pre now sender payment post, es = pre ++ .confirm now sender payment :: post →
    (∃ i ∈ (after w pre).invoices, i.user_id = sender.id ∧
      payment.invoice_payload = some i.payload ∧ payment.total_amount = some i.total_rial) →
    handle_pre_checkout_query sender payment = true →
    ∃ pre' now' post', es = pre' ++ .confirm now' sender payment :: post' ∧
      Applies now' sender payment (after w pre').store

/-- The customer has paid for a subscription before, so the first top-up has
a discount. -/
def former_subscriber : Db :=
  { shop with
    accounts := Table.empty.insert { user_id := 1, total_subscription_paid_toman := some 80000 } }

def bale : Platform := ⟨true, some "token"⟩

def buyer : Sender := { id := 100 }

/-- Two invoices at half the price. -/
def two_invoices : List Event :=
  [.topup_invoice noon noon bale buyer 100000, .topup_invoice noon noon bale buyer 200000]

def paid_invoice (charge payload : String) (total_rial : Int) : Payment where
  telegram_payment_charge_id := some charge
  provider_payment_charge_id := none
  total_amount := some total_rial
  invoice_payload := some payload

def first_payment : Payment := paid_invoice "a" "ttop|100|100000|62500|625000|1714046400" 625000

def second_payment : Payment := paid_invoice "b" "ttop|100|200000|125000|1250000|1714046400" 1250000

def both_paid : List Event :=
  two_invoices ++ [.confirm noon buyer first_payment, .confirm noon buyer second_payment]

/-- The store when the second payment is confirmed. -/
def after_first_payment : World :=
  after ⟨former_subscriber, []⟩ (two_invoices ++ [.confirm noon buyer first_payment])

theorem second_terms_changed :
    ¬Applies noon buyer second_payment after_first_payment.store := by
  rintro ⟨payload, v, d, hp, hv, hm⟩
  have hp' : checked_payload buyer second_payment =
      .ok (.toman_topup ⟨100, 200000, 125000, 1250000, 1714046400⟩) := by decide +kernel
  rw [hp'] at hp
  cases hp
  obtain ⟨q, hq, hdue⟩ := hm.terms
  have hchanged : (visitor after_first_payment.store buyer.id buyer.first_name
      buyer.username).all (fun x => match topupQuoteOf noon x.2 x.1.id 200000 with
        | .ok q => q.payment_due_toman != 125000
        | .error _ => true) = true := by decide +kernel
  rw [hv, Option.all_some, hq] at hchanged
  simp [hdue] at hchanged

/-- The first payment uses the discount up, and the second one is lost. -/
theorem the_second_open_invoice_is_lost : ¬∀ (w : World) (es : List Event), NothingLost w es := by
  intro h
  obtain ⟨pre, now, post, hsplit, happlies⟩ := h ⟨former_subscriber, []⟩ both_paid
    (two_invoices ++ [.confirm noon buyer first_payment]) noon buyer second_payment [] rfl
    ⟨⟨100, "ttop|100|200000|125000|1250000|1714046400", 1250000⟩, by decide +kernel, rfl, rfl, rfl⟩
    (by decide +kernel)
  have hne : first_payment ≠ second_payment := fun he => by
    have := congrArg Payment.total_amount he
    revert this
    decide
  unfold both_paid two_invoices at hsplit
  -- the only place of the second payment is the last one
  rcases pre with _ | ⟨a, _ | ⟨b, _ | ⟨c, _ | ⟨d, pre⟩⟩⟩⟩
  · simp at hsplit
  · simp at hsplit
  · simp [hne] at hsplit
  · simp only [List.cons_append, List.nil_append, List.cons.injEq, Event.confirm.injEq] at hsplit
    obtain ⟨rfl, rfl, rfl, ⟨rfl, -⟩, -⟩ := hsplit
    exact second_terms_changed happlies
  · simp at hsplit

end dr_boz.confirmed_payments
