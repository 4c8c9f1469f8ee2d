-- Law of the quote of a top-up (`quote_toman_topup_payment`): what is due lies
-- between nothing and the payment without the discount, and more credit costs
-- more, up to what the two roundings can take away.
import DrBoz.BillingRuns
import DrBoz.Roundings

open keyed_table unit_of_work
open dr_boz.py dr_boz.models dr_boz.views dr_boz.toman_billing dr_boz.billing_runs
open dr_boz.roundings

namespace dr_boz.topup_quotes

/-! ## The parts of a quote -/

/-- The percentages that a quote is computed with. -/
def markup_of (config : SubscriptionConfig) : PyFloat :=
  positive_float config.api_markup_percent DEFAULT_API_MARKUP_PERCENT

def discount_percent_of (config : SubscriptionConfig) : PyFloat :=
  positive_float config.first_topup_discount_percent DEFAULT_FIRST_TOPUP_DISCOUNT_PERCENT

def cap_of (config : SubscriptionConfig) : Int :=
  positive_int config.first_topup_discount_cap_toman DEFAULT_FIRST_TOPUP_DISCOUNT_CAP_TOMAN

/-- The user paid for a subscription and did not use the discount yet. -/
def eligible (account : UserBillingAccount) (active_subscription : Option UserSubscription) :
    Bool :=
  (0 < intOr0 account.total_subscription_paid_toman || active_subscription.isSome) &&
    !(account.first_topup_discount_used = some true)

/-- The payment for a credit, before it is rounded. -/
def marked_up (config : SubscriptionConfig) (credit : Int) : Decimal :=
  ctx (credit * markup_factor (markup_of config))

/-- The part of a payment that is taken off, before it is rounded. -/
def taken_off (config : SubscriptionConfig) (payment : Decimal) : Decimal :=
  ctx (ctx (payment * decimalStr (discount_percent_of config)) / 100)

def discounted (account : UserBillingAccount) (config : SubscriptionConfig)
    (active_subscription : Option UserSubscription) (credit : Int) : Int :=
  if eligible account active_subscription then min credit (cap_of config) else 0

variable {account : UserBillingAccount} {config : SubscriptionConfig}
  {sub : Option UserSubscription} {credit : Int} {q : TopupQuote}

/-- All that a quote says. -/
structure Quoted (account : UserBillingAccount) (config : SubscriptionConfig)
    (sub : Option UserSubscription) (credit : Int) (q : TopupQuote) : Prop where
  credit : q.credit_amount_toman = max 0 credit
  normal : q.normal_payment_toman = roundHalfUp (marked_up config q.credit_amount_toman)
  discounted : q.discounted_credit_toman = discounted account config sub q.credit_amount_toman
  discount : q.discount_toman =
    roundHalfUp (taken_off config (marked_up config q.discounted_credit_toman))
  due : q.payment_due_toman = max 0 (q.normal_payment_toman - q.discount_toman)
  applied : q.discount_applied = decide (0 < q.discount_toman)

theorem positive_int_self (n : Int) : positive_int (some n) 0 = max 0 n := by
  simp only [positive_int, orDefault]
  split <;> omega

theorem round_toman_eq {x : Decimal} {n : Int} (h : round_toman x = .ok n) :
    n = roundHalfUp x := by
  unfold round_toman quantizeHalfUp at h
  split at h
  · exact (Except.ok.inj h).symm
  · cases h

theorem quoted (h : topup_quote account config sub credit = .ok q) :
    Quoted account config sub credit q := by
  unfold topup_quote at h
  obtain ⟨normal, hnormal, h⟩ := of_bind_ok h
  obtain ⟨discount, hdiscount, h⟩ := of_bind_ok h
  cases h
  exact ⟨positive_int_self credit, round_toman_eq hnormal, rfl, round_toman_eq hdiscount, rfl,
    rfl⟩

/-! ## Nothing is negative -/

theorem markup_factor_ge_one {x : PyFloat} (h : 0 ≤ x) : 1 ≤ markup_factor x := by
  have hone : ctx 1 = 1 := by decide +kernel
  have hpart : 0 ≤ ctx (decimalStr x / 100) :=
    ctx_nonneg (div_nonneg (decimalStr_nonneg h) (by norm_num))
  rw [← hone]
  exact ctx_mono zero_le_one (by linarith)

theorem factor_ge_one (config : SubscriptionConfig) : 1 ≤ markup_factor (markup_of config) :=
  markup_factor_ge_one (positive_float_nonneg _ _)

theorem marked_up_mono (config : SubscriptionConfig) {c d : Int} (hc : 0 ≤ c) (h : c ≤ d) :
    marked_up config c ≤ marked_up config d := by
  have hfactor := factor_ge_one config
  have hcast : (0 : ℚ) ≤ c := by exact_mod_cast hc
  refine ctx_mono (by positivity) (mul_le_mul_of_nonneg_right ?_ (by linarith))
  exact_mod_cast h

theorem marked_up_nonneg (config : SubscriptionConfig) {c : Int} (hc : 0 ≤ c) :
    0 ≤ marked_up config c := by
  have hfactor := factor_ge_one config
  have hcast : (0 : ℚ) ≤ c := by exact_mod_cast hc
  exact ctx_nonneg (by positivity)

theorem marked_up_zero (config : SubscriptionConfig) : marked_up config 0 = 0 := by
  rw [marked_up, Int.cast_zero, zero_mul, ctx_zero]

theorem percent_nonneg (config : SubscriptionConfig) :
    0 ≤ decimalStr (discount_percent_of config) := decimalStr_nonneg (positive_float_nonneg _ _)

theorem taken_off_nonneg (config : SubscriptionConfig) {x : Decimal} (hx : 0 ≤ x) :
    0 ≤ taken_off config x :=
  ctx_nonneg (div_nonneg (ctx_nonneg (mul_nonneg hx (percent_nonneg config))) (by norm_num))

theorem discounted_bounds (account : UserBillingAccount) (config : SubscriptionConfig)
    (sub : Option UserSubscription) {c : Int} (hc : 0 ≤ c) :
    0 ≤ discounted account config sub c ∧ discounted account config sub c ≤ c ∧
      discounted account config sub c ≤ cap_of config := by
  have hcap : 0 ≤ cap_of config := positive_int_nonneg _ _
  unfold discounted
  split <;> omega

theorem discounted_mono (account : UserBillingAccount) (config : SubscriptionConfig)
    (sub : Option UserSubscription) {c d : Int} (h : c ≤ d) :
    discounted account config sub c ≤ discounted account config sub d := by
  unfold discounted
  split <;> omega

theorem Quoted.credit_nonneg (h : Quoted account config sub credit q) :
    0 ≤ q.credit_amount_toman := by
  rw [h.credit]
  exact le_max_left 0 credit

theorem Quoted.discounted_nonneg (h : Quoted account config sub credit q) :
    0 ≤ q.discounted_credit_toman := by
  rw [h.discounted]
  exact (discounted_bounds account config sub h.credit_nonneg).1

theorem Quoted.discount_nonneg (h : Quoted account config sub credit q) :
    0 ≤ q.discount_toman := by
  rw [h.discount]
  exact roundHalfUp_nonneg (taken_off_nonneg config (marked_up_nonneg config h.discounted_nonneg))

theorem Quoted.normal_nonneg (h : Quoted account config sub credit q) :
    0 ≤ q.normal_payment_toman := by
  rw [h.normal]
  exact roundHalfUp_nonneg (marked_up_nonneg config h.credit_nonneg)

/-! ## The discount -/

/-- A credit that is not zero costs something. -/
theorem normal_pos (config : SubscriptionConfig) {c : Int} (hc : 0 < c) :
    0 < roundHalfUp (marked_up config c) := by
  have hone : ctx 1 = 1 := by decide +kernel
  have hcast : (1 : ℚ) ≤ c := by exact_mod_cast hc
  have hfactor := factor_ge_one config
  have hle : (1 : ℚ) ≤ marked_up config c := by
    rw [← hone]
    exact ctx_mono zero_le_one (by nlinarith)
  have hround := roundHalfUp_mono zero_le_one hle
  have hvalue : roundHalfUp 1 = 1 := by decide +kernel
  omega

/-- A discount is applied if and only if less is due. -/
theorem Quoted.applied_iff (h : Quoted account config sub credit q) :
    q.discount_applied = true ↔ q.payment_due_toman < q.normal_payment_toman := by
  rw [h.applied, h.due, decide_eq_true_eq]
  have hdiscount := h.discount_nonneg
  have hnormal := h.normal_nonneg
  constructor
  · intro hpos
    have hcredit : 0 < q.credit_amount_toman := by
      by_contra hzero
      have hle := (discounted_bounds account config sub h.credit_nonneg).2.1
      rw [← h.discounted] at hle
      have hnone : q.discounted_credit_toman = 0 := by
        have hge := h.discounted_nonneg
        omega
      have hzero' : taken_off config 0 = 0 := by
        rw [taken_off, zero_mul, ctx_zero, zero_div, ctx_zero]
      have hround : roundHalfUp 0 = 0 := by decide +kernel
      rw [h.discount, hnone, marked_up_zero, hzero', hround] at hpos
      exact lt_irrefl _ hpos
    have hpay := normal_pos config hcredit
    rw [← h.normal] at hpay
    omega
  · intro hless
    omega

/-! ## More credit -/

/-- What is left of a payment after the part that is taken off, up to the roundings of the
decimals, does not fall. -/
theorem left_over_mono (hpercent : decimalStr (discount_percent_of config) ≤ 100) {x y : Decimal}
    (hx : 0 ≤ x) (h : x ≤ y) :
    x - taken_off config x ≤ y - taken_off config y + 3 * y / 10 ^ 27 := by
  set p := decimalStr (discount_percent_of config) with hp
  have hp0 : 0 ≤ p := percent_nonneg config
  -- Each of the two roundings is off by at most a part of its number.
  have hnear : ∀ z : Decimal, 0 ≤ z → |taken_off config z - z * p / 100| ≤ 5 / 4 * z / 10 ^ 27 := by
    intro z hz
    have hzp : 0 ≤ z * p := mul_nonneg hz hp0
    have hfirst := abs_le.mp (ctx_near hzp)
    have hsecond := abs_le.mp (ctx_near (div_nonneg (ctx_nonneg hzp) (by norm_num : (0 : ℚ) ≤ 100)))
    have hle : z * p ≤ 100 * z := by nlinarith
    rw [taken_off, ← hp, abs_le]
    constructor <;> norm_num at * <;> linarith [hfirst.1, hfirst.2, hsecond.1, hsecond.2]
  have hy := abs_le.mp (hnear y (hx.trans h))
  have hxn := abs_le.mp (hnear x hx)
  have hparts : x - x * p / 100 ≤ y - y * p / 100 := by nlinarith
  norm_num at *
  linarith [hy.1, hy.2, hxn.1, hxn.2]

section
variable {more : Int} {q' : TopupQuote}

theorem Quoted.credit_mono (h : Quoted account config sub credit q)
    (h' : Quoted account config sub more q') (hle : credit ≤ more) :
    q.credit_amount_toman ≤ q'.credit_amount_toman := by
  rw [h.credit, h'.credit]
  omega

theorem Quoted.normal_mono (h : Quoted account config sub credit q)
    (h' : Quoted account config sub more q') (hle : credit ≤ more) :
    q.normal_payment_toman ≤ q'.normal_payment_toman := by
  rw [h.normal, h'.normal]
  exact roundHalfUp_mono (marked_up_nonneg config h.credit_nonneg)
    (marked_up_mono config h.credit_nonneg (h.credit_mono h' hle))

/-- For the same discounted credit what is due does not fall. -/
theorem Quoted.due_mono (h : Quoted account config sub credit q)
    (h' : Quoted account config sub more q') (hle : credit ≤ more)
    (hsame : q.discounted_credit_toman = q'.discounted_credit_toman) :
    q.payment_due_toman ≤ q'.payment_due_toman := by
  have hnormal := h.normal_mono h' hle
  have hdiscount : q.discount_toman = q'.discount_toman := by
    rw [h.discount, h'.discount, hsame]
  rw [h.due, h'.due, hdiscount]
  omega

/-- Each of the two roundings can take one Toman away, and the decimals less than one. -/
theorem Quoted.due_falls_little (h : Quoted account config sub credit q)
    (h' : Quoted account config sub more q') (hle : credit ≤ more)
    (hpercent : decimalStr (discount_percent_of config) ≤ 100)
    (hsmall : q'.normal_payment_toman < 10 ^ 26) :
    q.payment_due_toman ≤ q'.payment_due_toman + 2 := by
  by_cases hsame : q.discounted_credit_toman = q'.discounted_credit_toman
  · have hdue := h.due_mono h' hle hsame
    omega
  · have hcredit := h.credit_mono h' hle
    have hself : q.discounted_credit_toman = q.credit_amount_toman := by
      rw [h.discounted, h'.discounted] at hsame
      rw [h.discounted]
      unfold topup_quotes.discounted at hsame ⊢
      split at hsame
      · rename_i heligible
        rw [if_pos heligible]
        omega
      · exact absurd rfl hsame
    have hgrows : q.credit_amount_toman ≤ q'.discounted_credit_toman := by
      rw [← hself, h.discounted, h'.discounted]
      exact discounted_mono account config sub hcredit
    have hwithin : q'.discounted_credit_toman ≤ q'.credit_amount_toman := by
      rw [h'.discounted]
      exact (discounted_bounds account config sub h'.credit_nonneg).2.1
    have hx := marked_up_nonneg config h.credit_nonneg
    have hy := marked_up_nonneg config h'.discounted_nonneg
    have hxy := marked_up_mono config h.credit_nonneg hgrows
    have hyz := marked_up_mono config h'.discounted_nonneg hwithin
    have hleft := left_over_mono hpercent hx hxy
    obtain ⟨-, hnormal⟩ := roundHalfUp_near hx
    obtain ⟨hdiscount, -⟩ := roundHalfUp_near (taken_off_nonneg config hx)
    obtain ⟨hnormal', -⟩ := roundHalfUp_near (marked_up_nonneg config h'.credit_nonneg)
    obtain ⟨-, hdiscount'⟩ := roundHalfUp_near (taken_off_nonneg config hy)
    have hsize : marked_up config q'.discounted_credit_toman < 10 ^ 26 + 1 := by
      have hcast : (q'.normal_payment_toman : ℚ) < 10 ^ 26 := by exact_mod_cast hsmall
      rw [h'.normal] at hcast
      linarith
    have hparts : q.normal_payment_toman - q.discount_toman <
        q'.normal_payment_toman - q'.discount_toman + 3 := by
      rw [h.normal, h.discount, h'.normal, h'.discount, hself]
      have herror : 3 * marked_up config q'.discounted_credit_toman / 10 ^ 27 < 1 := by
        rw [div_lt_one (by norm_num)]
        linarith
      have hrational : (roundHalfUp (marked_up config q.credit_amount_toman) : ℚ) -
          roundHalfUp (taken_off config (marked_up config q.credit_amount_toman)) <
          roundHalfUp (marked_up config q'.credit_amount_toman) -
            roundHalfUp (taken_off config (marked_up config q'.discounted_credit_toman)) + 3 := by
        linarith
      exact_mod_cast hrational
    rw [h.due, h'.due]
    omega

end

/-! ## The laws -/

theorem decimalStr_le_hundred {x : PyFloat} (hx : 0 ≤ x) (h : x ≤ 100) : decimalStr x ≤ 100 := by
  unfold decimalStr
  cases hfound : ((List.range 17).map fun n => roundSig 10 (n + 1) x).find? fun q => f64 q = x with
  | none => exact h
  | some y =>
    obtain ⟨n, hn, rfl⟩ := List.mem_map.mp (List.mem_of_find?_eq_some hfound)
    have hundred : ∀ n ∈ List.range 17, roundSig 10 (n + 1) 100 = 100 := by decide +kernel
    have hle := roundSig_mono (b := 10) (n := n + 1) (by norm_num) (by omega) hx h
    rwa [hundred n hn] at hle

/-- What holds of every quote, with the configuration that it was made with. -/
structure Lawful (config : SubscriptionConfig) (credit : Int) (q : TopupQuote) : Prop where
  due_nonneg : 0 ≤ q.payment_due_toman
  due_le : q.payment_due_toman ≤ q.normal_payment_toman
  normal : q.normal_payment_toman =
    roundHalfUp (ctx (max 0 credit * markup_factor (markup_of config)))
  capped : config.first_topup_discount_cap_toman ≠ some 0 → q.discounted_credit_toman ≤
    max 0 (config.first_topup_discount_cap_toman.getD DEFAULT_FIRST_TOPUP_DISCOUNT_CAP_TOMAN)
  applied : q.discount_applied = true ↔ q.payment_due_toman < q.normal_payment_toman

/-- What holds of two quotes, the second of which is for no less credit. -/
structure Grows (config : SubscriptionConfig) (q q' : TopupQuote) : Prop where
  normal : q.normal_payment_toman ≤ q'.normal_payment_toman
  same : q.discounted_credit_toman = q'.discounted_credit_toman →
    q.payment_due_toman ≤ q'.payment_due_toman
  due : discount_percent_of config ≤ 100 → q'.normal_payment_toman < 10 ^ 26 →
    q.payment_due_toman ≤ q'.payment_due_toman + 2

theorem Quoted.lawful (h : Quoted account config sub credit q) : Lawful config credit q where
  due_nonneg := by
    rw [h.due]
    exact le_max_left 0 _
  due_le := by
    have hdiscount := h.discount_nonneg
    have hnormal := h.normal_nonneg
    rw [h.due]
    omega
  normal := by
    rw [h.normal, h.credit]
    unfold marked_up
    push_cast
    rfl
  capped := by
    intro hcap
    have hle := (discounted_bounds account config sub h.credit_nonneg).2.2
    rw [← h.discounted] at hle
    refine hle.trans ?_
    unfold cap_of positive_int orDefault
    cases hvalue : config.first_topup_discount_cap_toman with
    | none => exact le_refl _
    | some cap =>
      have hne : cap ≠ 0 := fun hzero => hcap (by rw [hvalue, hzero])
      simp only [if_neg hne, Option.getD_some]
      exact le_refl _
  applied := h.applied_iff

/-- The laws of the quotes that one state gives. -/
theorem quote_laws {now : Datetime} {user : UserPreference} {s : Session Db}
    {credit : Int} {q : TopupQuote}
    (h : ((quote_toman_topup_payment now user credit).run s).1 = .ok q) :
    Lawful (configRow s.view) credit q ∧
      ∀ more q', ((quote_toman_topup_payment now user more).run s).1 = .ok q' → credit ≤ more →
        Grows (configRow s.view) q q' := by
  rw [run_quote_toman_topup_payment] at h
  have hquoted := quoted h
  refine ⟨hquoted.lawful, fun more q' h' hle => ?_⟩
  rw [run_quote_toman_topup_payment] at h'
  have hquoted' := quoted h'
  refine ⟨hquoted.normal_mono hquoted' hle, hquoted.due_mono hquoted' hle,
    fun hpercent hsmall => ?_⟩
  have hnonneg : 0 ≤ discount_percent_of (configRow s.view) := positive_float_nonneg _ _
  exact hquoted.due_falls_little hquoted' hle (decimalStr_le_hundred hnonneg hpercent) hsmall

/-! ## Some shops -/

def config_with (markup discount : PyFloat) (cap : Int) : SubscriptionConfig :=
  { defaultConfig with
    api_markup_percent := some markup
    first_topup_discount_percent := some discount
    first_topup_discount_cap_toman := some cap }

/-- A shop with a user who paid for a subscription. -/
def shop_with (config : SubscriptionConfig) : Db :=
  { Db.empty with
    configs := Table.empty.insert config
    accounts := Table.empty.insert { user_id := 7, total_subscription_paid_toman := some 80000 } }

def customer : UserPreference where
  id := 7

/-- What is due and what is discounted, if there is a quote. -/
def due_and_discounted (config : SubscriptionConfig) (credit : Int) : Option (Int × Int) :=
  ((quote_toman_topup_payment 0 customer credit).run (.opened (shop_with config))).1.toOption.map
    fun q => (q.payment_due_toman, q.discounted_credit_toman)

theorem quote_of_due {config : SubscriptionConfig} {credit : Int} {p : Int × Int}
    (h : due_and_discounted config credit = some p) :
    ∃ q, ((quote_toman_topup_payment 0 customer credit).run
      (.opened (shop_with config))).1 = .ok q := by
  obtain ⟨q, hq, -⟩ := Option.map_eq_some_iff.mp h
  unfold Except.toOption at hq
  split at hq
  · exact ⟨_, ‹_›⟩
  · cases hq

theorem two_quotes_are_lawful :
    ∃ q q', ((quote_toman_topup_payment 0 customer 1000).run
        (.opened (shop_with (config_with 25 50 300000)))).1 = .ok q ∧
      Lawful (configRow (shop_with (config_with 25 50 300000))) 1000 q ∧
      Grows (configRow (shop_with (config_with 25 50 300000))) q q' := by
  have hless : due_and_discounted (config_with 25 50 300000) 1000 = some (625, 1000) := by
    decide +kernel
  have hmore : due_and_discounted (config_with 25 50 300000) 2000 = some (1250, 2000) := by
    decide +kernel
  obtain ⟨q, hq⟩ := quote_of_due hless
  obtain ⟨q', hq'⟩ := quote_of_due hmore
  obtain ⟨hlawful, hgrows⟩ := quote_laws hq
  exact ⟨q, q', hq, hlawful, hgrows 2000 q' hq' (by decide)⟩

/-- Two Toman of credit cost less than one, and a cap of 0 caps nothing. -/
theorem more_credit_can_cost_less :
    due_and_discounted (config_with 50 90 300000) 1 = some (1, 1) ∧
      due_and_discounted (config_with 50 90 300000) 2 = some (0, 2) ∧
      due_and_discounted (config_with 25 50 0) 100000 = some (62500, 100000) := by
  decide +kernel

end dr_boz.topup_quotes
