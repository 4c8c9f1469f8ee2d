-- Law of the credit that a user can get from the web routes: a purchase, a
-- top-up and a promo code. The purchase calls itself confirmed and the top-up
-- asks for no payment, so both give without one.
import DrBoz.BotPurchases
import DrBoz.ConfirmedPayments
import DrBoz.Lib.Runs
import DrBoz.PhoneAccounts
import DrBoz.Writers

open keyed_table unit_of_work dr_boz.py dr_boz.texts dr_boz.models dr_boz.codex_capacity
open dr_boz.toman_billing dr_boz.promo_codes dr_boz.accounts dr_boz.subscriptions
open dr_boz.views dr_boz.billing_runs dr_boz.purchase_runs dr_boz.effects dr_boz.promo_runs
open dr_boz.calls
open dr_boz.bot_users dr_boz.bot_purchases dr_boz.confirmed_payments dr_boz.writers
open dr_boz.phone_accounts

namespace dr_boz.user_routes

/-! ## The routes -/

/-- The user of a telegram id, who is created on the first call. -/
def resolve_user (now : Datetime) (telegram_user_id : Int) : Tx UserPreference := do
  let user ← Prog.read fun db => db.users.first fun u => u.telegram_user_id = some telegram_user_id
  match user with
  | some user => return user
  | none => create_or_restore_user now telegram_user_id none none none none none false true

/-- The key of a purchase on the web: one for each user, plan and day. -/
def web_key (now : Datetime) (user_id : Nat) (plan_id : Int) : String :=
  "web-sub:" ++ toString user_id ++ ":" ++ toString plan_id ++ ":" ++ iso_date now

/-- What the user reads when a purchase is refused. -/
def refusal (reason : Option String) : String :=
  if reason = some "active_subscription_exists" then "شما قبلاً یک اشتراک فعال دارید"
  else if reason = some "insufficient_paid_toman_credit" then "موجودی کیف پول کافی نیست"
  else if reason = some "pool_capacity_full" then "ظرفیت این پلن تکمیل شده"
  else (strOr reason (some "purchase_failed")).getD "purchase_failed"

/-- The plan of a number that the caller chose. -/
def planOf (db : Db) (plan_id : Int) : Option SubscriptionPlan :=
  db.plans.first fun p => (p.id : Int) = plan_id

structure PurchaseOut where
  subscription_id : Nat
  plan_name : Option String
  expires_at : Datetime
  gift_credit_toman : Int

def purchase_answer (plan : SubscriptionPlan) (result : PurchaseTomanSubscriptionResult) :
    Except PyError PurchaseOut :=
  if result.ok = false then .error (.http_exception 400 (refusal result.reason))
  else match result.subscription with
    | none => .error .attribute_error
    | some subscription =>
      .ok ⟨subscription.id, plan.name, subscription.expires_at, result.gift_credit_toman⟩

def purchase_subscription (now : Datetime) (plan_id telegram_user_id : Int) : Tx PurchaseOut := do
  let user ← resolve_user now telegram_user_id
  let plan ← Prog.read fun db => planOf db plan_id
  match plan.filter fun p => p.is_active = some true with
  | none => Prog.throw (.http_exception 400 "Plan not found or inactive")
  | some plan =>
    let result ← purchase_toman_subscription now user plan (some (web_key now user.id plan_id))
      true none true true
    Prog.lift (purchase_answer plan result)

/-- The answer of a top-up: what was credited, and both balances together. -/
def topup_answer (result : TopupResult) : Except PyError (Int × Int) :=
  if result.ok = false then
    .error (.http_exception 400 ((strOr result.reason (some "topup_failed")).getD "topup_failed"))
  else .ok (result.quote.credit_amount_toman, available result.account)

def apply_topup (now : Datetime) (credit_amount_toman telegram_user_id : Int) : Tx (Int × Int) := do
  let user ← resolve_user now telegram_user_id
  if credit_amount_toman ≤ 0 then Prog.throw (.http_exception 400 "Invalid topup amount")
  else
  let result ← apply_toman_topup now user credit_amount_toman none [("source", Scalar.str "web")]
    true
  Prog.lift (topup_answer result)

/-- A refused redemption is a bad request. Every other error is passed on. -/
def as_bad_request (e : PyError) : PyError :=
  match e with
  | .promo_code_redemption_error message => .http_exception 400 message
  | e => e

def redeem_promo_code_by_telegram (now : Datetime) (telegram_user_id : Int) (code : String)
    (charge_amount : PyFloat) : Tx PromoCodeRedemption := do
  let user ← resolve_user now telegram_user_id
  let redeemed ← Prog.attempt
    (redeem_promo_code_for_user user (some code) charge_amount 0 "account_by_telegram" true)
  Prog.lift (redeemed.mapError as_bad_request)

/-- A call of a user. -/
inductive Request where
  | purchase (plan_id : Int)
  | topup (credit_amount_toman : Int)
  | redeem (code : String) (charge_amount : PyFloat)

def Request.prog (now : Datetime) (telegram_user_id : Int) : Request → Tx Unit
  | .purchase plan_id => calls.discard (purchase_subscription now plan_id telegram_user_id)
  | .topup amount => calls.discard (apply_topup now amount telegram_user_id)
  | .redeem code charge =>
    calls.discard (redeem_promo_code_by_telegram now telegram_user_id code charge)

/-- A call at a time, in a session of its own. -/
structure Called where
  now : Datetime
  request : Request

def Called.run (t : Int) (db : Db) (c : Called) : Db :=
  ((c.request.prog c.now t).run (.opened db)).2.stored

/-! ## What each call does to a known user -/

/-- The purchase that the route makes: it calls itself confirmed. -/
def web_purchase (now : Datetime) (user : UserPreference) (plan : SubscriptionPlan)
    (plan_id : Int) : PurchaseCall where
  user
  plan
  idempotency_key := some (web_key now user.id plan_id)
  payment_confirmed := true
  wallet_payment_toman := none
  grant_gift_toman_balance := true
  commit := true

theorem web_pays_outside (now : Datetime) (user : UserPreference) (plan : SubscriptionPlan)
    (plan_id : Int) :
    PaidOutside (web_purchase now user plan plan_id) (web_key now user.id plan_id) :=
  ⟨rfl, rfl, rfl, rfl⟩

theorem web_key_ne (now : Datetime) (a : Nat) (b : Int) : web_key now a b ≠ "" := by
  intro h
  unfold web_key at h
  simp only [String.append_eq_empty_iff] at h
  exact absurd h.1.1.1.1.1 (by decide)

/-- The top-up that the route makes: under no key, and for no payment. -/
def web_topup (user : UserPreference) (amount : Int) : TopupCall where
  user
  credit_amount_toman := amount
  idempotency_key := none
  metadata := [("source", Scalar.str "web")]
  commit := true

def web_promo (user : UserPreference) (code : String) (charge : PyFloat) : PromoCall where
  user
  code := some code
  charge_amount_usd := charge
  charge_amount_toman := 0
  source := "account_by_telegram"
  credit_charge_amount := true

section
variable {now : Datetime} {t : Int} {db : Db} {u : UserPreference}

/-- The telegram id is unique, so the lookup finds the row that has it. -/
theorem user_of_telegram {a : Nat} (h : HasTelegram a t db) :
    ∃ u, userOf db t = some u ∧ u.id = a := by
  obtain ⟨r, hr, ht⟩ := h
  obtain ⟨hm, hid⟩ := (Table.get_eq_some _).mp hr
  cases hu : userOf db t with
  | none =>
    have := Table.first_eq_none.mp hu r hm
    simp [ht] at this
  | some u =>
    obtain ⟨hmu, htu⟩ := Table.first_mem hu
    have htu' : u.telegram_user_id = some t := by simpa using htu
    have hsame : u = r := Table.row_of_unique db.users hmu hm htu' ht
    exact ⟨u, rfl, hsame ▸ hid⟩

theorem run_resolve_user (h : userOf db t = some u) :
    (resolve_user now t).run (.opened db) = (.ok u, .opened db) := by
  unfold resolve_user
  rw [Prog.run_bind, Prog.run_read, Prog.continueWith_ok,
    show ((Session.opened db).view.users.first fun r => r.telegram_user_id = some t) = some u
      from h]
  rfl

theorem run_purchase (h : userOf db t = some u) (plan_id : Int) :
    Called.run t db ⟨now, .purchase plan_id⟩ =
      match (planOf db plan_id).filter fun p => p.is_active = some true with
      | none => db
      | some plan => (((web_purchase now u plan plan_id).prog now).run (.opened db)).2.stored := by
  unfold Called.run Request.prog
  simp only
  rw [run_discard]
  unfold purchase_subscription
  rw [Prog.run_bind, run_resolve_user h, Prog.continueWith_ok, Prog.run_bind, Prog.run_read,
    Prog.continueWith_ok, Session.view_opened]
  cases (planOf db plan_id).filter fun p => p.is_active = some true with
  | none => rfl
  | some plan =>
    simp only [Prog.run_bind]
    rw [Prog.session_lift]
    rfl

theorem run_topup (h : userOf db t = some u) (amount : Int) :
    Called.run t db ⟨now, .topup amount⟩ =
      if amount ≤ 0 then db
      else (((web_topup u amount).prog now).run (.opened db)).2.stored := by
  unfold Called.run Request.prog
  simp only
  rw [run_discard]
  unfold apply_topup
  rw [Prog.run_bind, run_resolve_user h, Prog.continueWith_ok]
  split
  · rfl
  · rw [Prog.run_bind, Prog.session_lift]
    rfl

theorem run_redeem (h : userOf db t = some u) (code : String) (charge : PyFloat) :
    Called.run t db ⟨now, .redeem code charge⟩ =
      ((web_promo u code charge).prog.run (.opened db)).2.stored := by
  unfold Called.run Request.prog
  simp only
  rw [run_discard]
  unfold redeem_promo_code_by_telegram
  rw [Prog.run_bind, run_resolve_user h, Prog.continueWith_ok, Prog.run_bind, Prog.session_lift,
    Prog.session_attempt]
  rfl

end

/-! ## The row of the user stays -/

section
variable {a : Nat}

theorem redeems_spare : Redeems (spares a) where
  toLooks := (sales_spare a).toLooks
  add _ := trivial
  set _ _ := trivial
  entry _ := trivial
  user _ _ := trivial
  charged _ _ _ := trivial
  credited _ _ := trivial
  ledger _ := trivial
  redemption _ := trivial
  link _ _ := trivial

/-- Every call leaves the telegram id with the account. -/
theorem telegram_call {t : Int} (db : Db) (c : Called) (h : HasTelegram a t db) :
    HasTelegram a t (c.run t db) := by
  obtain ⟨u, hu, -⟩ := user_of_telegram h
  obtain ⟨now, request⟩ := c
  cases request with
  | purchase plan_id =>
    rw [run_purchase hu]
    split
    · exact h
    · exact telegram_program (writes_purchase (sales_spare a).toLooks (sales_spare a).toSubscribes
        (fun _ _ _ _ _ => trivial) (fun _ => trivial) _ _ _ _ _ _ _ _) h
  | topup amount =>
    rw [run_topup hu]
    split
    · exact h
    · exact telegram_program (writes_topup (sales_spare a).toLooks (fun _ _ => trivial)
        (fun _ => trivial) _ _ _ _ _ _) h
  | redeem code charge =>
    rw [run_redeem hu]
    exact telegram_program (writes_promo redeems_spare _ _ _ _ _ _) h

end

/-! ## Fair calls -/

def paidOf (db : Db) (a : Nat) : Int := intOr0 (accountRow db a).paid_balance_toman

def giftOf (db : Db) (a : Nat) : Int := intOr0 (accountRow db a).gift_balance_toman

/-- A subscription of the account that is active now, and was not before. -/
def NewlyActive (now : Datetime) (db db' : Db) (a : Nat) (r : UserSubscription) : Prop :=
  r ∈ db'.subscriptions.rows ∧ r.user_id = a ∧ active_at now r = true ∧
    ∀ o ∈ db.subscriptions.rows, o.id = r.id → active_at now o = false

/-- The call gives no credit that is not paid for. -/
structure Fair (a : Nat) (db db' : Db) (c : Called) : Prop where
  paid : paidOf db' a ≤ paidOf db a
  active : ∀ r plan, NewlyActive c.now db db' a r → db.plans.get r.plan_id = some plan →
    0 < plan_price_toman plan (configRow db) →
    paidOf db' a = paidOf db a - plan_price_toman plan (configRow db)
  gift : giftOf db' a ≤ giftOf db a ∨ ∃ code charge p, c.request = .redeem code charge ∧
    db.promo_codes.first (fun p => p.code = normalize_promo_code (some code)) = some p ∧
    giftOf db' a = giftOf db a + bonus_toman p 0

/-- The call sells a plan that has a price or a gift, or credits a top-up. -/
def GivesUnpaid (a : Nat) (db : Db) (c : Called) : Prop :=
  match c.request with
  | .purchase plan_id => ∃ plan, planOf db plan_id = some plan ∧ plan.is_active = some true ∧
      Sells c.now db a (web_key c.now a plan_id) ∧
      (0 < plan_price_toman plan (configRow db) ∨ 0 < plan_gift_toman plan (configRow db))
  | .topup amount => 0 < amount ∧ ∃ q, topupQuoteOf c.now db a amount = .ok q
  | .redeem _ _ => False

section
variable {t : Int} {a : Nat} {db db' : Db} {c : Called}

theorem fair_of_same (hrow : accountRow db' a = accountRow db a)
    (hsubs : db'.subscriptions = db.subscriptions) : Fair a db db' c where
  paid := by
    unfold paidOf
    rw [hrow]
  active r plan hr _ _ := by
    obtain ⟨hm, -, hact, hold⟩ := hr
    rw [hsubs] at hm
    rw [hold r hm rfl] at hact
    cases hact
  gift := .inl (by
    unfold giftOf
    rw [hrow])

/-- A sale gives the plan and its gift, and takes nothing. -/
theorem fair_bought_iff {now : Datetime} {u : UserPreference} {plan : SubscriptionPlan}
    {plan_id : Int} (hplan : db.plans.get plan.id = some plan)
    (hb : Bought now (web_purchase now u plan plan_id) db db') :
    Fair u.id db db' ⟨now, .purchase plan_id⟩ ↔
      ¬(0 < plan_price_toman plan (configRow db) ∨ 0 < plan_gift_toman plan (configRow db)) := by
  obtain ⟨last, pool, e₁, e₂, ht, ha, he, h2, rfl⟩ := hb
  have hrow := accountRow_bought (web_purchase now u plan plan_id) db
    ((web_purchase now u plan plan_id).row now last) pool [e₁, e₂]
  have hwallet := wallet_zero (web_pays_outside now u plan plan_id) db
  have hgift0 := plan_gift_nonneg plan (configRow db)
  have hprice0 := plan_price_nonneg plan (configRow db)
  set db' := post (subscribed ((web_purchase now u plan plan_id).base db)
    ((web_purchase now u plan plan_id).row now last) pool)
    ((web_purchase now u plan plan_id).account db) [e₁, e₂] with hdb'
  have hpaid : paidOf db' u.id = paidOf db u.id := by
    unfold paidOf
    erw [hrow]
    unfold PurchaseCall.account
    rw [hwallet]
    rfl
  have hgift : giftOf db' u.id = giftOf db u.id + plan_gift_toman plan (configRow db) := by
    unfold giftOf
    erw [hrow]
    rfl
  let row : UserSubscription := { (web_purchase now u plan plan_id).row now last with
    pool_id := some pool.id, id := db.subscriptions.nextKey }
  have hrows : db'.subscriptions.rows = db.subscriptions.rows ++ [row] := by
    rw [hdb', post_eq]
    exact Table.rows_insert (Table.accepts_of_no_unique rfl)
  have hnew : NewlyActive now db db' u.id row := by
    refine ⟨by simp [hrows], rfl, ?_, fun o ho hid => ?_⟩
    · simp [row, PurchaseCall.row, active_at, last_after_now ht]
    · exact absurd hid (db.subscriptions.key_lt_nextKey ho).ne
  constructor
  · rintro hfair (hprice | hpos)
    · have := hfair.active row plan hnew hplan hprice
      omega
    · rcases hfair.gift with hle | ⟨code, charge, p, hreq, -, -⟩
      · omega
      · cases hreq
  · intro hno
    refine ⟨hpaid.le, fun r plan' hr hplan' hpos => ?_, .inl (by omega)⟩
    obtain ⟨hm, -, hact, hold⟩ := hr
    rw [hrows, List.mem_append, List.mem_singleton] at hm
    rcases hm with hm | rfl
    · rw [hold r hm rfl] at hact
      cases hact
    · change db.plans.get plan.id = some plan' at hplan'
      rw [hplan] at hplan'
      cases hplan'
      exact absurd (.inl hpos) hno

theorem fair_purchase_iff {now : Datetime} {u : UserPreference} (hu : userOf db t = some u)
    (plan_id : Int) :
    Fair u.id db (Called.run t db ⟨now, .purchase plan_id⟩) ⟨now, .purchase plan_id⟩ ↔
      ¬GivesUnpaid u.id db ⟨now, .purchase plan_id⟩ := by
  rw [run_purchase hu]
  unfold GivesUnpaid
  simp only
  cases hp : planOf db plan_id with
  | none => exact iff_of_true (fair_of_same rfl rfl) (by simp)
  | some plan =>
    by_cases hact : plan.is_active = some true
    · have hplan : db.plans.get plan.id = some plan :=
        (Table.get_eq_some _).mpr ⟨(Table.first_mem hp).1, rfl⟩
      rw [Option.filter_some, if_pos (by simpa using hact)]
      rcases run_paid_outside now (web_pays_outside now u plan plan_id)
        (web_key_ne now u.id plan_id) (.opened db) with ⟨hsells, r, v, hx, -, hb⟩ | ⟨hno, hx⟩
      · simp only [hx, Session.stored_opened]
        rw [fair_bought_iff hplan hb, not_iff_not]
        constructor
        · exact fun h => ⟨plan, rfl, hact, hsells, h⟩
        · rintro ⟨plan', hp', -, -, h⟩
          cases hp'
          exact h
      · simp only [hx, Session.stored_opened]
        refine iff_of_true (fair_of_same rfl rfl) ?_
        rintro ⟨plan', hp', -, hsells, -⟩
        cases hp'
        exact hno hsells
    · rw [Option.filter_some, if_neg (by simpa using hact)]
      refine iff_of_true (fair_of_same rfl rfl) ?_
      rintro ⟨plan', hp', hact', -, -⟩
      cases hp'
      exact hact hact'

/-- A top-up that has a quote is credited, and nobody pays for it. -/
theorem fair_topup_iff {now : Datetime} {u : UserPreference} (hu : userOf db t = some u)
    (amount : Int) : Fair u.id db (Called.run t db ⟨now, .topup amount⟩) ⟨now, .topup amount⟩ ↔
      ¬GivesUnpaid u.id db ⟨now, .topup amount⟩ := by
  rw [run_topup hu]
  unfold GivesUnpaid
  simp only
  by_cases hle : amount ≤ 0
  · rw [if_pos hle]
    exact iff_of_true (fair_of_same rfl rfl) fun h => absurd h.1 (not_lt.mpr hle)
  rw [if_neg hle]
  have hpos := not_le.mp hle
  have h := topupRun now (web_topup u amount) (.opened db)
  generalize ((web_topup u amount).prog now).run (.opened db) = x at h ⊢
  obtain ⟨r, s⟩ := x
  simp only at h ⊢
  cases h with
  | raised e hq =>
    refine iff_of_true (fair_of_same rfl rfl) ?_
    rintro ⟨-, q, hq'⟩
    have hq : topupQuoteOf now db u.id amount = .error e := hq
    rw [hq] at hq'
    cases hq'
  | replay q e r hq hk hr => cases hk
  | refused q r hq hk hzero hr =>
    have := quoted_credit hq hpos
    change q.credit_amount_toman = amount at this
    omega
  | credited q e r hq hk hqpos hb hg hp hkey ha hr =>
    have hcredit : q.credit_amount_toman = amount := quoted_credit hq hpos
    have hrow := accountRow_post [e]
      (show (withConfig (withAccount db u.id)).accounts.first _ = _ from first_withAccount db u.id)
      (owner_topped_up (accountRow db u.id) q)
    refine iff_of_false (fun hfair => ?_) (not_not.mpr ⟨hpos, q, hq⟩)
    have hpaid := hfair.paid
    unfold paidOf at hpaid
    erw [hrow] at hpaid
    simp only [topped_up, intOr0, Option.getD_some, hcredit] at hpaid
    omega
  | conflict q e hq hkey ha =>
    exact absurd (Table.accepts_of_no_unique hkey) ha

/-- A redemption gives the bonus of its code, or nothing. -/
theorem fair_redeem {now : Datetime} {u : UserPreference} (hu : userOf db t = some u)
    (code : String) (charge : PyFloat) :
    Fair u.id db (Called.run t db ⟨now, .redeem code charge⟩) ⟨now, .redeem code charge⟩ := by
  rw [run_redeem hu]
  have h := promoRun (web_promo u code charge) (.opened db)
  generalize (web_promo u code charge).prog.run (.opened db) = x at h ⊢
  obtain ⟨r, s⟩ := x
  simp only at h ⊢
  cases h with
  | beside r s' htrail =>
    have hkeep : s.stored.accounts = db.accounts ∧ s.stored.subscriptions = db.subscriptions :=
      (htrail.keeps (I := fun d => d.accounts = db.accounts ∧ d.subscriptions = db.subscriptions)
        (fun d d' hb hd => ⟨hb.books.1.trans hd.1, hb.books.2.2.1.trans hd.2⟩)
        ⟨⟨rfl, rfl⟩, rfl, rfl⟩).1
    refine fair_of_same ?_ hkeep.2
    unfold accountRow
    rw [hkeep.1]
  | credited p e t' r hp hpos hb hg hd hk hr =>
    have hrow := accountRow_post [e] (first_withAccount db u.id)
      (owner_promo_credited (accountRow db u.id) ((web_promo u code charge).credit p))
    have hbonus : (web_promo u code charge).credit p = bonus_toman p 0 := zero_add _
    refine ⟨?_, fun r plan hr' _ _ => ?_, .inr ⟨code, charge, p, rfl, hp, ?_⟩⟩
    · unfold paidOf
      erw [hrow]
      exact le_refl _
    · obtain ⟨hm, -, hact, hold⟩ := hr'
      simp only [Session.commit, withRedemptions, post_eq] at hm
      rw [hold r hm rfl] at hact
      cases hact
    · unfold giftOf
      erw [hrow]
      rw [hbonus]
      rfl

theorem fair_call_iff (h : HasTelegram a t db) (c : Called) :
    Fair a db (c.run t db) c ↔ ¬GivesUnpaid a db c := by
  obtain ⟨u, hu, rfl⟩ := user_of_telegram h
  obtain ⟨now, request⟩ := c
  cases request with
  | purchase plan_id => exact fair_purchase_iff hu plan_id
  | topup amount => exact fair_topup_iff hu amount
  | redeem code charge => exact iff_of_true (fair_redeem hu code charge) id

/-- LAW: A user's calls give no unpaid credit exactly when none of them sells
a plan with a price or a gift, and none of them is a top-up with a quote. -/
theorem calls_give_no_unpaid_credit_iff (t : Int) (a : Nat) (db : Db) (cs : List Called)
    (h : HasTelegram a t db) :
    runs.Each (Called.run t) (fun db c => Fair a db (c.run t db) c) db cs ↔
      runs.Each (Called.run t) (fun db c => ¬GivesUnpaid a db c) db cs :=
  runs.each_congr (fun db c hdb => telegram_call db c hdb) (fun _ c hdb => fair_call_iff hdb c) h cs

end

/-- The shop before the customer has paid anything. -/
def unpaid_shop : Db := { shop with accounts := Table.empty }

/-- The customer tops up 100000 toman and pays nothing. -/
theorem a_topup_is_not_paid_for :
    ¬∀ (t : Int) (a : Nat) (db : Db) (cs : List Called), HasTelegram a t db →
      runs.Each (Called.run t) (fun db c => Fair a db (c.run t db) c) db cs := by
  intro h
  have hfair := (h 100 1 unpaid_shop [⟨noon, .topup 100000⟩]
    ⟨customer, by decide +kernel, rfl⟩).1
  have hpaid := hfair.paid
  revert hpaid
  decide +kernel

/-- The law for a run of the customer. -/
theorem a_customer_gets_no_unpaid_credit_iff :
    runs.Each (Called.run 100) (fun db c => Fair 1 db (c.run 100 db) c) unpaid_shop
        [⟨noon, .redeem "WELCOME" 0⟩, ⟨noon + 1, .purchase 1⟩] ↔
      runs.Each (Called.run 100) (fun db c => ¬GivesUnpaid 1 db c) unpaid_shop
        [⟨noon, .redeem "WELCOME" 0⟩, ⟨noon + 1, .purchase 1⟩] :=
  calls_give_no_unpaid_credit_iff 100 1 unpaid_shop _ ⟨customer, by decide +kernel, rfl⟩

end dr_boz.user_routes
