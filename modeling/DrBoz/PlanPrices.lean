-- Law of the price of a subscription and of its gift: the list of the plans,
-- the invoice, the two pages of the payment and the purchase each have a copy
-- of the fallback from the plan's column to the config's.
import DrBoz.PurchaseTerms

open keyed_table unit_of_work dr_boz.py dr_boz.models dr_boz.toman_billing dr_boz.views
open dr_boz.purchase_runs dr_boz.bot_payments dr_boz.bot_purchases dr_boz.purchase_terms

namespace dr_boz.plan_prices

/-! ## The pages of the bot -/

def format_toman (amount : Int) : String := thousands amount ++ " تومان"

/-- The gift as the list of the plans and the invoice read it. -/
def gift_toman (plan : SubscriptionPlan) (config : SubscriptionConfig) : Int :=
  match plan.gift_credit_toman with
  | some gift => gift
  | none => intOr0 config.gift_credit_toman

/-- `int(plan price or config price or 0)`: a zero is passed over like a
missing price. -/
def price_or (plan : SubscriptionPlan) (config : SubscriptionConfig) : Int :=
  orDefault plan.monthly_price_toman (orDefault config.monthly_price_toman 0)

structure Button where
  text : String
  callback_data : String
deriving DecidableEq

/-- A plan in the list, with its two numbers. -/
structure PlanLine where
  price_toman : Int
  gift_toman : Int
  text : String
  button : Button
deriving DecidableEq

def plan_line (config : SubscriptionConfig) (p : SubscriptionPlan) : PlanLine :=
  let price_toman := price_toman p config
  let gift_toman := gift_toman p config
  { price_toman, gift_toman
    text := "▪️ " ++ formatted p.name ++ " - " ++ format_toman price_toman ++
      " / ماه، اعتبار هدیه " ++ format_toman gift_toman ++ "\n"
    button :=
      ⟨"خرید " ++ formatted p.name ++ " (" ++ format_toman price_toman ++ ")",
        "buy_plan_" ++ toString p.id⟩ }

/-- The page with the active plans, for a user without a subscription. -/
def cmd_plans (config : SubscriptionConfig) (plans : List SubscriptionPlan) :
    String × List Button :=
  if plans.isEmpty then ("در حال حاضر هیچ اشتراکی فعال نیست.", [])
  else
    let lines := plans.map (plan_line config)
    (lines.foldl (fun text line => text ++ line.text) "💎 اشتراک‌های ویژه:\n\n",
      lines.map (·.button))

/-- The page on which the method of the payment is chosen. -/
structure MethodsPage where
  price_toman : Int
  text : String
  buttons : List Button
deriving DecidableEq

/-- What the button of the wallet offers, if the wallet has something to use. -/
def wallet_button (plan : SubscriptionPlan) (usable_wallet price_toman : Int) : List Button :=
  if 0 < usable_wallet then
    [⟨if price_toman ≤ usable_wallet then "💰 پرداخت از کیف پول"
      else " کیف پول + پرداخت " ++ format_toman (price_toman - usable_wallet),
      "sub_pay_wallet_" ++ toString plan.id⟩]
  else []

def show_subscription_payment_methods (plan : SubscriptionPlan) (config : SubscriptionConfig)
    (wallet_balance_toman : Int) : MethodsPage :=
  let price_toman := price_or plan config
  let wallet_line := if 0 < wallet_balance_toman then
    "\n موجودی کیف پول: " ++ format_toman wallet_balance_toman ++ " تومان" else ""
  { price_toman
    text := "💵 روش پرداخت برای خرید اشتراک *" ++ formatted plan.name ++
      "* را انتخاب کنید:\nمبلغ: " ++ format_toman price_toman ++ " تومان" ++ wallet_line ++
      "\n\n *درگاه پرداخت بله*\nپرداخت آنلاین از طریق درگاه بله\n\n💰 *کارت به کارت*\n" ++
      "واریز به شماره کارت ادمین و ارسال رسید\n" ++
      "تأیید معمولاً ۵ تا ۱۰ دقیقه (به جز نیمه‌شب)"
    buttons := wallet_button plan (min wallet_balance_toman price_toman) price_toman ++
      [⟨"💳 درگاه پرداخت بله", "sub_pay_bale_" ++ toString plan.id⟩,
       ⟨"💰 کارت به کارت", "sub_pay_card_" ++ toString plan.id⟩,
       ⟨"❌ انصراف", "cancel_buy_plan"⟩] }

/-- A card that is listed. -/
structure PaymentMethod where
  bank_name : String
  card_number : String
  cardholder_name : String
  description : Option String
deriving DecidableEq

/-- The page of a card transfer, and what is kept for the receipt. -/
structure CardPage where
  text : String
  pending_subscription_plan_id : Nat
  pending_subscription_amount_toman : Int
deriving DecidableEq

def card_lines (m : PaymentMethod) : String :=
  "🏦 *" ++ m.bank_name ++ "*\nشماره کارت: \x60" ++ m.card_number ++ "\x60\nصاحب کارت: " ++
    m.cardholder_name ++ "\n" ++
    (if truthyKey m.description then "📝 " ++ formatted m.description ++ "\n" else "") ++ "\n"

/-- There is no page when no card is listed. -/
def start_subscription_card_payment (plan : SubscriptionPlan) (config : SubscriptionConfig)
    (methods : List PaymentMethod) : Option CardPage :=
  if methods.isEmpty then none
  else
    let price_toman := price_or plan config
    some
      { text := methods.foldl (fun text m => text ++ card_lines m) "💳 *شماره کارت‌های مقصد:*\n\n" ++
          "💰 مبلغ قابل پرداخت: *" ++ format_toman price_toman ++ " تومان*\n\n" ++
          "⏱ *زمان تأیید:* معمولاً ۵ تا ۱۰ دقیقه بعد از ارسال رسید\n" ++
          "(به جز ساعات نیمه‌شب که ممکن است بیشتر طول بکشد)\n\n" ++
          "لطفاً تصویر رسید پرداخت را ارسال کنید:"
        pending_subscription_plan_id := plan.id
        pending_subscription_amount_toman := price_toman }

/-- What the start of a payment asks for: the wallet's part, the part that is
left to pay online, and the gift that the reply names. -/
structure Invoiced where
  wallet_payment : Int
  payable_toman : Int
  gift_toman : Int
  reply : String
deriving DecidableEq

/-- Nothing left to pay is taken from the wallet at once. -/
def start_subscription_payment_terms (plan : SubscriptionPlan) (config : SubscriptionConfig)
    (use_wallet : Bool) (balance : Int) : Invoiced :=
  let price := price_toman plan config
  let gift_toman := gift_toman plan config
  let wallet_payment := wallet_payment use_wallet balance price
  let payable_toman := payable_toman use_wallet balance price
  { wallet_payment, payable_toman, gift_toman
    reply :=
      if payable_toman ≤ 0 then
        "✅ اشتراک از موجودی کیف پول فعال شد.\nپلن: " ++ formatted plan.name ++
          "\nپرداخت از کیف پول: " ++ format_toman price ++ "\nاعتبار هدیه: " ++
          format_toman gift_toman ++ "\nموجودی هدیه جدید: " ++ format_toman gift_toman
      else
        "✅ فاکتور پرداخت اشتراک ارسال شد.\nپلن: " ++ formatted plan.name ++
          "\nاعتبار هدیه بعد از فعال‌سازی: " ++ format_toman gift_toman ++
          "\nپرداخت از کیف پول: " ++ format_toman wallet_payment ++
          "\nمبلغ پرداخت آنلاین: " ++ format_toman payable_toman ++
          "\nبعد از پرداخت موفق، اشتراک خودکار فعال می‌شود." }

/-- The total of an invoice that is sent is the online part, in Rial. -/
theorem an_invoice_is_for_its_terms {now : Datetime} {platform : Platform} {sender : Sender}
    {user : UserPreference} {plan : SubscriptionPlan} {use_wallet : Bool} {s t : Session Db}
    {payload : String} {total_rial : Int}
    (h : (pay_subscription now platform sender user plan use_wallet).run s =
      (.ok (.invoice payload total_rial), t)) :
    total_rial = (start_subscription_payment_terms plan (configRow s.view) use_wallet
      (available (accountRow s.view user.id))).payable_toman * 10 := by
  obtain ⟨hfree, hpay⟩ := run_pay_subscription now platform sender user plan use_wallet s
  rw [h] at hfree hpay
  rcases le_or_gt (payable_toman use_wallet (available (accountRow s.view user.id))
    (price_toman plan (configRow s.view))) 0 with hle | hlt
  · rcases hfree hle with ⟨-, db', hx, -⟩ | ⟨-, -, hno⟩
    · exact nomatch congrArg Prod.fst hx
    · exact absurd rfl (hno payload total_rial)
  · obtain ⟨-, hx⟩ := hpay hlt
    split at hx
    · cases hx
    · split at hx
      · cases hx
      · exact (Started.invoice.inj (Except.ok.inj hx)).2

/-! ## The terms that a purchase records -/

/-- The amounts of the answer, of its two entries, and of the counters of the
account. -/
structure Records (c : PurchaseCall) (db : Db) (r : PurchaseTomanSubscriptionResult)
    (price gift : Int) : Prop where
  payment : r.payment_toman = price
  gifted : r.gift_credit_toman = gift
  entries : r.ledger_entries.map (·.map (·.amount_toman)) = some [price, gift]
  paid : intOr0 r.account.total_subscription_paid_toman =
    intOr0 (accountRow db c.user.id).total_subscription_paid_toman + price
  granted : intOr0 r.account.total_gift_granted_toman =
    intOr0 (accountRow db c.user.id).total_gift_granted_toman + gift

theorem records_made (c : PurchaseCall) (db : Db) (u : UserSubscription) (i j : Nat)
    (price gift : Int) :
    Records c db (made c db u i j) price gift ↔ c.price db = price ∧ c.gift db = gift := by
  constructor
  · intro h
    exact ⟨h.payment, h.gifted⟩
  · rintro ⟨rfl, rfl⟩
    exact ⟨rfl, rfl, rfl, rfl, rfl⟩

/-- The answer of a purchase that is made records the terms of the purchase. -/
theorem purchase_records {now : Datetime} {c : PurchaseCall} {s t : Session Db}
    {r : PurchaseTomanSubscriptionResult} (h : (c.prog now).run s = (.ok r, t))
    (hok : r.ok = true) (hfresh : ledgerRow s.view c.idempotency_key = none) (price gift : Int) :
    Records c s.view r price gift ↔ c.price s.view = price ∧ c.gift s.view = gift := by
  obtain ⟨u, i, j, rfl⟩ := (purchase_makes now c s).value (fun _ => trivial) h hok hfresh
  exact records_made c s.view u i j price gift

def one_pool : Table CapacityPool := Table.empty.insert { id := 0 }

theorem one_pool_has_room : (one_pool.lowest codex_capacity.has_room).isSome = true := by
  decide +kernel

/-- A shop with this config, one pool, and nothing sold yet. -/
def new_shop (config : SubscriptionConfig) : Db :=
  { Db.empty with
    configs := ⟨[config], List.nodup_singleton _, List.nodup_nil⟩
    pools := one_pool }

/-- Whatever the plan and the config, some purchase of the plan is made. -/
theorem a_plan_is_bought (plan : SubscriptionPlan) (config : SubscriptionConfig) :
    ∃ (c : PurchaseCall) (r : PurchaseTomanSubscriptionResult) (t : Session Db),
      c.plan = plan ∧ (c.prog 0).run (.opened (new_shop config)) = (.ok r, t) ∧
      r.ok = true ∧ ledgerRow (new_shop config) c.idempotency_key = none := by
  have hsells : Sells 0 (new_shop config) 1 "first" :=
    ⟨fun _ he => absurd he List.not_mem_nil, rfl, by decide +kernel, one_pool_has_room,
      le_refl (0 : Int)⟩
  have hmade := run_bot_purchase 0 { id := 1, telegram_user_id := some 1 } plan
    (show "first" ≠ "" by decide) (.opened (new_shop config))
  rcases hmade with ⟨-, r, v, hrun, hok, -⟩ | ⟨hno, -⟩
  · exact ⟨_, r, _, rfl, hrun, hok, rfl⟩
  · exact absurd hsells hno

/-! ## The law -/

/-- The list of the plans shows what the other places ask for and record, and
a column that is zero is shown as zero. -/
structure PricesAgree (plan : SubscriptionPlan) (config : SubscriptionConfig) : Prop where
  invoiced : ∀ use_wallet balance,
    (start_subscription_payment_terms plan config use_wallet balance).wallet_payment +
      (start_subscription_payment_terms plan config use_wallet balance).payable_toman =
      (plan_line config plan).price_toman
  sent : ∀ now platform sender user use_wallet (s : Session Db) payload total_rial t,
    configRow s.view = config →
    (pay_subscription now platform sender user plan use_wallet).run s =
      (.ok (.invoice payload total_rial), t) →
    total_rial = ((plan_line config plan).price_toman -
      (start_subscription_payment_terms plan config use_wallet
        (available (accountRow s.view user.id))).wallet_payment) * 10
  gift_invoiced : ∀ use_wallet balance,
    (start_subscription_payment_terms plan config use_wallet balance).gift_toman =
      (plan_line config plan).gift_toman
  asked : ∀ balance, (show_subscription_payment_methods plan config balance).price_toman =
    (plan_line config plan).price_toman
  transferred : ∀ methods page, start_subscription_card_payment plan config methods = some page →
    page.pending_subscription_amount_toman = (plan_line config plan).price_toman
  recorded : ∀ now (c : PurchaseCall) (s : Session Db) r t,
    c.plan = plan → configRow s.view = config → (c.prog now).run s = (.ok r, t) →
      r.ok = true → ledgerRow s.view c.idempotency_key = none →
      Records c s.view r (plan_line config plan).price_toman (plan_line config plan).gift_toman
  free : plan.monthly_price_toman = some 0 → (plan_line config plan).price_toman = 0
  no_gift : plan.gift_credit_toman = some 0 → (plan_line config plan).gift_toman = 0

/-- A price, with the price to fall back to. -/
def PlainPrice : Option Int → Option Int → Prop
  | some price, fallback => 0 < price ∨ price = 0 ∧ intOr0 fallback = 0
  | none, fallback => 0 < intOr0 fallback

def PlainGift : Option Int → Option Int → Prop
  | some gift, _ => 0 ≤ gift
  | none, fallback => 0 < intOr0 fallback

theorem orDefault_zero (v : Option Int) : orDefault v 0 = intOr0 v := by
  cases v with
  | none => rfl
  | some v =>
    unfold orDefault intOr0
    split <;> simp_all

theorem price_agrees_iff (plan : SubscriptionPlan) (config : SubscriptionConfig) :
    price_or plan config = price_toman plan config ∧
      plan_price_toman plan config = price_toman plan config ↔
      PlainPrice plan.monthly_price_toman config.monthly_price_toman := by
  unfold price_or price_toman plan_price_toman positive_int PlainPrice
  rw [orDefault_zero]
  cases plan.monthly_price_toman with
  | some price =>
    simp only [orDefault]
    split <;> omega
  | none =>
    simp only [orDefault]
    cases config.monthly_price_toman with
    | none => simp [intOr0, DEFAULT_MONTHLY_PRICE_TOMAN]
    | some price =>
      simp only [intOr0, Option.getD_some, true_and]
      split <;> simp [DEFAULT_MONTHLY_PRICE_TOMAN] <;> omega

theorem gift_agrees_iff (plan : SubscriptionPlan) (config : SubscriptionConfig) :
    plan_gift_toman plan config = gift_toman plan config ↔
      PlainGift plan.gift_credit_toman config.gift_credit_toman := by
  unfold gift_toman plan_gift_toman positive_int PlainGift
  cases plan.gift_credit_toman with
  | some gift => simp
  | none =>
    cases config.gift_credit_toman with
    | none => simp [intOr0, orDefault, DEFAULT_GIFT_CREDIT_TOMAN]
    | some gift =>
      simp only [intOr0, Option.getD_some, orDefault]
      split <;> simp [DEFAULT_GIFT_CREDIT_TOMAN] <;> omega

theorem PlainPrice.nonneg {plan : SubscriptionPlan} {config : SubscriptionConfig}
    (h : PlainPrice plan.monthly_price_toman config.monthly_price_toman) :
    0 ≤ price_toman plan config := by
  unfold price_toman
  cases hp : plan.monthly_price_toman with
  | some price =>
    rw [hp] at h
    rcases h with h | ⟨h, -⟩
    · exact h.le
    · exact h.ge
  | none =>
    rw [hp] at h
    exact le_of_lt h

/-- The two parts of an invoice are the price, if the price is not negative. -/
theorem parts_of_the_price (use_wallet : Bool) (balance : Int) {price : Int} (h : 0 ≤ price) :
    wallet_payment use_wallet balance price + payable_toman use_wallet balance price = price := by
  have hle : wallet_payment use_wallet balance price ≤ price := by
    unfold wallet_payment
    split
    · exact min_le_right _ _
    · exact h
  unfold payable_toman
  omega

/-- LAW: the list of the plans, the invoice, the two pages of the payment and
the purchase agree on the price and on the gift exactly when the plan has a
positive price, or a zero with no price in the config, or no price with a
positive one in the config, and when the gift is not negative, or missing with
a positive one in the config. -/
theorem prices_agree_iff_the_columns_are_plain (plan : SubscriptionPlan)
    (config : SubscriptionConfig) :
    PricesAgree plan config ↔
      PlainPrice plan.monthly_price_toman config.monthly_price_toman ∧
        PlainGift plan.gift_credit_toman config.gift_credit_toman := by
  constructor
  · intro h
    obtain ⟨c, r, t, rfl, hrun, hok, hfresh⟩ := a_plan_is_bought plan config
    have hrecords := h.recorded 0 c _ r t rfl rfl hrun hok hfresh
    obtain ⟨hprice, hgift⟩ := (purchase_records hrun hok hfresh _ _).mp hrecords
    exact ⟨(price_agrees_iff c.plan config).mp ⟨h.asked 0, hprice⟩,
      (gift_agrees_iff c.plan config).mp hgift⟩
  · rintro ⟨hprice, hgift⟩
    obtain ⟨hor, hplan⟩ := (price_agrees_iff plan config).mpr hprice
    have hparts := fun use_wallet balance =>
      parts_of_the_price use_wallet balance hprice.nonneg
    constructor
    · exact hparts
    · rintro now platform sender user use_wallet s payload total_rial t rfl hrun
      rw [an_invoice_is_for_its_terms hrun]
      exact congrArg (· * 10) (eq_sub_of_add_eq' (hparts use_wallet _))
    · exact fun _ _ => rfl
    · exact fun _ => hor
    · intro methods page hpage
      unfold start_subscription_card_payment at hpage
      split at hpage
      · cases hpage
      · cases hpage
        exact hor
    · rintro now c s r t rfl rfl hrun hok hfresh
      exact (purchase_records hrun hok hfresh _ _).mpr
        ⟨hplan, (gift_agrees_iff c.plan (configRow s.view)).mpr hgift⟩
    · intro hzero
      simp [plan_line, price_toman, hzero]
    · intro hzero
      simp [plan_line, gift_toman, hzero]

/-- A plan with a price of zero and a config with the usual one: the list says
zero, and the page of the payment asks for 80000 toman. -/
theorem a_free_plan_is_asked_for :
    ¬PricesAgree { id := 1, name := some "free" } defaultConfig :=
  fun h => absurd (h.asked 0) (by decide +kernel)

end dr_boz.plan_prices
