-- Law of the prices that the bot asks for before a document is indexed or a
-- voice is transcribed: whether they are what the charge takes afterwards.
-- The quote rounds twice with floats and adds the markup. The charge rounds
-- once with decimals and adds no markup.
import DrBoz.TopupChannels

open keyed_table unit_of_work dr_boz.py dr_boz.models dr_boz.codex_capacity dr_boz.toman_billing
open dr_boz.views dr_boz.billing_runs dr_boz.calls dr_boz.bot_purchases dr_boz.topup_channels

namespace dr_boz.usage_quotes

/-! ## What the usage costs in USD -/

/-- The columns of `EmbeddingConfig` that the price is read from. -/
structure EmbeddingConfig where
  pricing_input : Option PyFloat
deriving DecidableEq

/-- The columns of `TranscriptionConfig` that the price is read from. -/
structure TranscriptionConfig where
  pricing_input : Option PyFloat
  pricing_output : Option PyFloat
deriving DecidableEq

/-- The other names that the source tries are no columns of the row. -/
def embedding_price_per_million (emb_config : Option EmbeddingConfig) : PyFloat :=
  match emb_config with
  | none => 0
  | some emb_config =>
    match emb_config.pricing_input with
    | none => 0
    | some raw_value => max 0 raw_value

/-- `tokens / 1_000_000.0 * price`. -/
def per_million (tokens : Int) (price : PyFloat) : PyFloat :=
  f64 (f64 (f64 tokens / 1000000) * price)

def embedding_cost_usd (emb_config : Option EmbeddingConfig) (estimated_tokens : Int) : PyFloat :=
  let unit_price := embedding_price_per_million emb_config
  if unit_price ≤ 0 ∨ estimated_tokens ≤ 0 then 0
  else per_million estimated_tokens unit_price

def transcription_cost_usd (config : Option TranscriptionConfig)
    (input_tokens output_tokens : Int) : PyFloat :=
  match config with
  | none => 0
  | some config =>
    let price_in := max 0 (config.pricing_input.getD 0)
    let price_out := max 0 (config.pricing_output.getD 0)
    f64 (per_million (max 0 input_tokens) price_in + per_million (max 0 output_tokens) price_out)

/-! ## What the bot quotes in Toman -/

/-- The rate and the markup. A NULL in one of them raises in `int` or
`float`, and then both have their defaults. -/
def quote_terms (config : SubscriptionConfig) : Int × PyFloat :=
  match config.usd_to_toman_rate, config.api_markup_percent with
  | some rate, some markup => (rate, markup)
  | _, _ => (DEFAULT_USD_TO_TOMAN_RATE, DEFAULT_API_MARKUP_PERCENT)

/-- `usd_cost * rate`. -/
def base_price (config : SubscriptionConfig) (usd_cost : PyFloat) : PyFloat :=
  f64 (usd_cost * f64 (quote_terms config).1)

/-- `base_toman * (1 + markup / 100.0)`. -/
def marked_up (config : SubscriptionConfig) (base_toman : Int) : PyFloat :=
  f64 (f64 base_toman * f64 (1 + f64 ((quote_terms config).2 / 100)))

/-- The last lines of both quotes are the same. -/
def quoted_toman (usd_cost : PyFloat) : Tx Int := do
  if usd_cost ≤ 0 then
    return 0
  else
  let config ← get_or_create_subscription_config
  let base_toman := roundHalfEven (base_price config usd_cost)
  return roundHalfEven (marked_up config base_toman)

def embedding_cost_toman (emb_config : Option EmbeddingConfig) (estimated_tokens : Int) : Tx Int :=
  quoted_toman (embedding_cost_usd emb_config estimated_tokens)

def transcription_cost_toman (config : Option TranscriptionConfig)
    (input_tokens output_tokens : Int) : Tx Int :=
  quoted_toman (transcription_cost_usd config input_tokens output_tokens)

/-- A document to index or a voice to transcribe. -/
inductive Usage where
  | document (emb_config : Option EmbeddingConfig) (estimated_tokens : Int)
  | voice (config : Option TranscriptionConfig) (input_tokens output_tokens : Int)

def Usage.cost_usd : Usage → PyFloat
  | .document emb_config tokens => embedding_cost_usd emb_config tokens
  | .voice config i o => transcription_cost_usd config i o

def Usage.cost_toman : Usage → Tx Int
  | .document emb_config tokens => embedding_cost_toman emb_config tokens
  | .voice config i o => transcription_cost_toman config i o

/-! ## What the charge takes -/

/-- The charge goes through, says the quoted amount, and takes it. -/
structure ChargedAsQuoted (c : GenericCall) (s : Session Db) (quote : Int) : Prop where
  result : ∃ r, (c.prog.run s).1 = .ok r ∧ r.ok = true ∧ r.cost_toman = quote
  taken : available (accountRow (c.prog.run s).2.view c.user.id) =
    available (accountRow s.view c.user.id) - quote

/-- The price of the charge, before it is rounded. -/
def charge_price (config : SubscriptionConfig) (usd_cost : PyFloat) : Decimal :=
  ctx (decimalStr usd_cost *
    positive_int config.usd_to_toman_rate DEFAULT_USD_TO_TOMAN_RATE)

/-- The usage is free, or one whole number is nearest to both prices. The
quote breaks a tie to the even number, the charge upwards. -/
def OneAmount (config : SubscriptionConfig) (usd_cost : PyFloat) : Prop :=
  usd_cost ≤ 0 ∨ ∃ base amount : Int,
    NearestEven (base_price config usd_cost) base ∧
    NearestEven (marked_up config base) amount ∧
    (amount : ℚ) - 1 / 2 ≤ charge_price config usd_cost ∧
    charge_price config usd_cost < amount + 1 / 2 ∧ amount.natAbs < 10 ^ 28

section
variable {tokens : Int} {price : PyFloat}

theorem f64_nonneg {q : ℚ} (h : 0 ≤ q) : 0 ≤ f64 q := roundSig_nonneg 2 53 h

theorem per_million_nonneg (ht : 0 ≤ tokens) (hp : 0 ≤ price) : 0 ≤ per_million tokens price := by
  have htokens : (0 : ℚ) ≤ tokens := by exact_mod_cast ht
  have hmillions := f64_nonneg (div_nonneg (f64_nonneg htokens) (by norm_num : (0 : ℚ) ≤ 1000000))
  exact f64_nonneg (mul_nonneg hmillions hp)

theorem embedding_price_nonneg (e : Option EmbeddingConfig) :
    0 ≤ embedding_price_per_million e := by
  unfold embedding_price_per_million
  split
  · exact le_refl 0
  · split
    · exact le_refl 0
    · exact le_max_left _ _

/-- No usage has a price below zero. -/
theorem cost_usd_nonneg (u : Usage) : 0 ≤ u.cost_usd := by
  cases u with
  | document e n =>
    unfold Usage.cost_usd embedding_cost_usd
    simp only
    split
    · exact le_refl 0
    · exact per_million_nonneg (by omega) (embedding_price_nonneg e)
  | voice config i o =>
    unfold Usage.cost_usd transcription_cost_usd
    cases config with
    | none => exact le_refl 0
    | some config =>
      have hin := per_million_nonneg (le_max_left 0 i) (le_max_left 0 (config.pricing_input.getD 0))
      have hout :=
        per_million_nonneg (le_max_left 0 o) (le_max_left 0 (config.pricing_output.getD 0))
      exact f64_nonneg (add_nonneg hin hout)

end

section
variable {u : Usage} {s t : Session Db} {c : GenericCall} {quote : Int}

/-- The quote of a usage, from the configuration that the session sees. -/
theorem run_cost_toman (u : Usage) (s : Session Db) :
    (u.cost_toman.run s).1 = .ok (if u.cost_usd ≤ 0 then 0
      else roundHalfEven (marked_up (configRow s.view)
        (roundHalfEven (base_price (configRow s.view) u.cost_usd)))) := by
  have h : u.cost_toman = quoted_toman u.cost_usd := by
    cases u with
    | document e n => rfl
    | voice config i o => rfl
  rw [h]
  unfold quoted_toman
  split
  · rfl
  · simp only [Prog.run_bind, run_get_or_create_subscription_config, Prog.continueWith_ok,
      Prog.run_pure]

/-- A charge under a fresh key: the price cannot be rounded, or it is zero,
or the balances do not reach, or they pay it. -/
theorem fresh_charge (h : Fresh c.idempotency_key s.view) :
    (∃ e, usd_cost (configRow s.view) c.cost_usd = .error e ∧ (c.prog.run s).1 = .error e) ∨
    ∃ cost r, usd_cost (configRow s.view) c.cost_usd = .ok cost ∧ (c.prog.run s).1 = .ok r ∧
      (cost ≤ 0 ∧ r.ok = true ∧ r.cost_toman = 0 ∧
        accountRow (c.prog.run s).2.view c.user.id = accountRow s.view c.user.id ∨
      0 < cost ∧ available (accountRow s.view c.user.id) < cost ∧ r.ok = false ∨
      0 < cost ∧ cost ≤ available (accountRow s.view c.user.id) ∧ r.ok = true ∧
        r.cost_toman = cost ∧ accountRow (c.prog.run s).2.view c.user.id =
          spent_gift_first (accountRow s.view c.user.id) cost) := by
  have hkeyless := ledgerRow_of_fresh h
  unfold GenericCall.prog charge_generic_usage_toman
  simp only [Prog.run_bind, run_get_or_create_billing_account, Prog.continueWith_ok,
    run_existing_ledger, ledgerRow_withAccount, hkeyless, run_usd_to_toman, configRow_withAccount]
  cases hc : usd_cost (configRow s.view) c.cost_usd with
  | error e => exact .inl ⟨e, rfl, rfl⟩
  | ok cost =>
    right
    simp only [Prog.continueWith_ok]
    split
    · rename_i hle
      refine ⟨cost, _, rfl, rfl, .inl ⟨hle, rfl, rfl, ?_⟩⟩
      exact accountRow_withAccount _ _
    · split
      · rename_i hle hlt
        exact ⟨cost, _, rfl, rfl, .inr (.inl ⟨by omega, hlt, rfl⟩)⟩
      · rename_i hle hlt
        rw [Prog.run_bind, run_flush_account (get_accountRow _ _) (owner_spent_gift_first _ _),
          Prog.continueWith_ok, Prog.run_bind, run_add_ledger, if_pos ?_]
        · rw [Prog.continueWith_ok, Prog.run_bind, Prog.run_publishIf, Prog.continueWith_ok,
            Prog.run_pure]
          refine ⟨cost, _, rfl, rfl, .inr (.inr ⟨by omega, by omega, rfl, rfl, ?_⟩)⟩
          have hview : ∀ t : Session Db, (Session.commitIf c.commit t).view = t.view := by
            intro t
            cases c.commit <;> rfl
          rw [hview]
          exact accountRow_post [_] (first_withAccount s.view c.user.id)
            (owner_spent_gift_first _ cost)
        · intro k hk x hx hxk
          exact h k hk x hx hxk

theorem charge_price_nonneg (config : SubscriptionConfig) {x : PyFloat} (h : 0 ≤ x) :
    0 ≤ charge_price config x := by
  have hrate := positive_int_nonneg config.usd_to_toman_rate DEFAULT_USD_TO_TOMAN_RATE
  exact ctx_nonneg (mul_nonneg (decimalStr_nonneg h) (by exact_mod_cast hrate))

/-- The cost of a charge is the whole number nearest to its price. -/
theorem usd_cost_eq_iff (config : SubscriptionConfig) {x : PyFloat} (h : 0 ≤ x) {n : Int} :
    usd_cost config x = .ok n ↔ (n : ℚ) - 1 / 2 ≤ charge_price config x ∧
      charge_price config x < n + 1 / 2 ∧ n.natAbs < 10 ^ 28 := by
  rw [← and_assoc, ← roundHalfUp_eq_iff (charge_price_nonneg config h)]
  change round_toman (charge_price config x) = _ ↔ _
  unfold round_toman quantizeHalfUp
  constructor
  · intro hround
    split at hround
    · next hsmall =>
      cases hround
      exact ⟨rfl, hsmall⟩
    · cases hround
  · rintro ⟨rfl, hsmall⟩
    exact if_pos hsmall

/-- On an account that has the quoted amount, the charge takes that amount
exactly when the amount is its cost. -/
theorem charged_iff_cost (h : Fresh c.idempotency_key s.view)
    (hquote : quote ≤ available (accountRow s.view c.user.id)) (hx : 0 ≤ c.cost_usd) :
    ChargedAsQuoted c s quote ↔ usd_cost (configRow s.view) c.cost_usd = .ok quote := by
  rcases fresh_charge h with ⟨e, hc, hrun⟩ | ⟨cost, r, hc, hrun, hcases⟩
  · rw [hc]
    constructor
    · rintro ⟨⟨r, hr, -⟩, -⟩
      rw [hrun] at hr
      cases hr
    · intro heq
      cases heq
  · have hcost : 0 ≤ cost := round_toman_nonneg (charge_price_nonneg _ hx) hc
    rw [hc]
    constructor
    · rintro ⟨⟨r', hr, hok, htext⟩, -⟩
      rw [hrun] at hr
      cases hr
      rcases hcases with ⟨hle, -, hzero, -⟩ | ⟨-, -, hno⟩ | ⟨-, -, -, hpaid, -⟩
      · congr 1
        omega
      · rw [hok] at hno
        cases hno
      · rw [← hpaid, htext]
    · intro heq
      cases heq
      rcases hcases with ⟨hle, hok, hzero, hrow⟩ | ⟨-, hlt, -⟩ | ⟨-, -, hok, hpaid, hrow⟩
      · have hnone : quote = 0 := by omega
        exact ⟨⟨r, hrun, hok, by omega⟩, by rw [hrow, hnone, sub_zero]⟩
      · omega
      · exact ⟨⟨r, hrun, hok, hpaid⟩, by rw [hrow, available_spent_gift_first]⟩

end

/-! ## Law -/

/-- LAW: A user whose balances reach the quote of a usage is charged exactly
the quote if and only if the usage is free, or one whole number is nearest to
the marked-up price of the quote and to the price of the charge. -/
theorem the_quote_is_charged_iff_one_amount (u : Usage) (t s : Session Db) (c : GenericCall)
    (quote : Int) (hquoted : (u.cost_toman.run t).1 = .ok quote)
    (hconfig : configRow s.view = configRow t.view) (hcost : c.cost_usd = u.cost_usd)
    (hkey : Fresh c.idempotency_key s.view)
    (hbalance : quote ≤ available (accountRow s.view c.user.id)) :
    ChargedAsQuoted c s quote ↔ OneAmount (configRow s.view) u.cost_usd := by
  have hnonneg := cost_usd_nonneg u
  rw [charged_iff_cost hkey hbalance (hcost ▸ hnonneg), hcost]
  rw [run_cost_toman, ← hconfig, Except.ok.injEq] at hquoted
  unfold OneAmount
  by_cases hfree : u.cost_usd ≤ 0
  · rw [if_pos hfree] at hquoted
    have hzero : u.cost_usd = 0 := le_antisymm hfree hnonneg
    rw [hzero, usd_cost_zero, ← hquoted]
    exact ⟨fun _ => .inl (le_refl 0), fun _ => rfl⟩
  · rw [if_neg hfree] at hquoted
    rw [usd_cost_eq_iff _ hnonneg]
    constructor
    · intro hprice
      exact .inr ⟨_, quote, roundHalfEven_eq_iff.mp rfl, roundHalfEven_eq_iff.mp hquoted, hprice⟩
    · rintro (hle | ⟨base, amount, hbase, hamount, hprice⟩)
      · exact absurd hle hfree
      · rw [roundHalfEven_eq_iff.mpr hbase, roundHalfEven_eq_iff.mpr hamount] at hquoted
        exact hquoted ▸ hprice

/-- A million tokens of a document, at one USD. -/
def long_document : Usage := .document (some ⟨some 1⟩) 1000000

/-- The customer has this much. -/
def shop_with (paid : Int) (markup : PyFloat) : Db :=
  { shop with
    configs := Table.empty.insert { defaultConfig with api_markup_percent := some markup }
    accounts := Table.empty.insert { user_id := 1, paid_balance_toman := some paid } }

/-- The charge for the document. -/
def document_charge : GenericCall :=
  ⟨customer, 1, "rag_embedding", "telegram rag embedding", none, some "usage:1:charge", [], true⟩

/-- With the default markup the quote is 62500 and the charge takes 50000. -/
theorem the_markup_is_quoted_and_not_charged :
    ¬∀ (u : Usage) (t s : Session Db) (c : GenericCall) (quote : Int),
      (u.cost_toman.run t).1 = .ok quote → configRow s.view = configRow t.view →
      c.cost_usd = u.cost_usd → Fresh c.idempotency_key s.view →
      quote ≤ available (accountRow s.view c.user.id) → ChargedAsQuoted c s quote := by
  intro h
  have htaken := (h long_document (.opened (shop_with 62500 25)) (.opened (shop_with 62500 25))
    document_charge 62500 (by decide +kernel) rfl (by decide +kernel)
    (by simp [Fresh, shop_with, shop, Db.empty, Table.empty]) (by decide +kernel)).taken
  revert htaken
  decide +kernel

/-- Without a markup the quote is what is charged. -/
theorem the_plain_quote_is_charged :
    ChargedAsQuoted document_charge (.opened (shop_with 50000 0)) 50000 := by
  refine (the_quote_is_charged_iff_one_amount long_document (.opened (shop_with 50000 0))
    (.opened (shop_with 50000 0)) document_charge 50000 (by decide +kernel) rfl
    (by decide +kernel) (by simp [Fresh, shop_with, shop, Db.empty, Table.empty])
    (by decide +kernel)).mpr ?_
  refine .inr ⟨50000, 50000, roundHalfEven_eq_iff.mp ?_, roundHalfEven_eq_iff.mp ?_, ?_⟩
  · decide +kernel
  · decide +kernel
  · decide +kernel

end dr_boz.usage_quotes
