-- The payments of the bot (`bot.py`): a subscription from the wallet or by an
-- online invoice, the top-up by an online invoice or by a card transfer, and
-- the platform's confirmations. The texts of the answers are left out: an
-- answer names the branch that gave it.
import DrBoz.BotUsers
import DrBoz.PaymentPayloads

open keyed_table unit_of_work dr_boz.py dr_boz.texts dr_boz.models dr_boz.codex_capacity
open dr_boz.toman_billing dr_boz.bot_users dr_boz.payment_payloads

namespace dr_boz.bot_payments

/-- The sender of an update. -/
structure Sender where
  id : Int
  first_name : Option String := none
  username : Option String := none

/-- What is set for the platform: the Bale platform with its payment token,
or another one. -/
structure Platform where
  is_bale : Bool
  provider_token : Option String

def Platform.takes_payments (p : Platform) : Bool := p.is_bale && truthyKey p.provider_token

/-- The payment that the platform reports. -/
structure Payment where
  telegram_payment_charge_id : Option String
  provider_payment_charge_id : Option String
  total_amount : Option Int
  currency : String := "IRR"
  invoice_payload : Option String

/-! ## A subscription -/

/-- `int(plan price)`, or the price of the config. -/
def price_toman (plan : SubscriptionPlan) (config : SubscriptionConfig) : Int :=
  match plan.monthly_price_toman with
  | some price => price
  | none => intOr0 config.monthly_price_toman

/-- The part of the price that is left to the wallet. -/
def wallet_payment (use_wallet : Bool) (balance price : Int) : Int :=
  if use_wallet then min balance price else 0

def payable_toman (use_wallet : Bool) (balance price : Int) : Int :=
  max 0 (price - wallet_payment use_wallet balance price)

/-- The key of a purchase from the wallet: one for each user, plan and day. -/
def wallet_key (now : Datetime) (user_id plan_id : Nat) : String :=
  "subscription:wallet:" ++ toString user_id ++ ":" ++ toString plan_id ++ ":" ++ iso_date now

/-- The debit takes a cost in USD, and the cost is zero. -/
def debit_subscription_wallet_usd (user : UserPreference) (wallet_payment_toman : Int)
    (idempotency_key : String) (metadata : Dict) : Tx Bool := do
  if wallet_payment_toman ≤ 0 then return true
  else
  let result ← charge_generic_usage_toman user 0 "subscription_wallet_payment"
    "subscription payment from toman wallet" none (some idempotency_key)
    (Dict.merge [("wallet_payment_toman", Scalar.int wallet_payment_toman)] metadata) true
  return result.ok

/-- How the start of a payment ends. -/
inductive Started where
  | refused
  | bought
  | invoice (payload : String) (total_rial : Int)
deriving DecidableEq

/-- The payment of a user who has no active subscription: from the wallet
when nothing is left to pay, and else by an invoice. -/
def pay_subscription (now : Datetime) (platform : Platform) (sender : Sender)
    (user : UserPreference) (plan : SubscriptionPlan) (use_wallet : Bool) : Tx Started := do
  let config ← get_or_create_subscription_config
  let price := price_toman plan config
  let balance ← toman_balance user
  let payable := payable_toman use_wallet balance price
  if payable ≤ 0 then
    let key := wallet_key now user.id plan.id
    let wallet_ok ← debit_subscription_wallet_usd user price (key ++ ":wallet-usd")
      [("plan_id", Scalar.int plan.id)]
    if wallet_ok = false then return .refused
    else
    let result ← purchase_toman_subscription now user plan (some key) true (some 0) false true
    return if result.ok then .bought else .refused
  else if platform.takes_payments = false then return .refused
  else
  match build_subscription_payload now sender.id plan.id
      (wallet_payment use_wallet balance price) (payable * 10) with
  | .error _ => return .refused
  | .ok payload => return .invoice payload (payable * 10)

def start_subscription_payment (now : Datetime) (platform : Platform) (sender : Sender)
    (plan_id : Nat) (use_wallet : Bool) : Tx Started := do
  let enabled ← is_sub_feature_enabled
  if enabled = false then return .refused
  else
  let plan ← Prog.read fun db => db.plans.get plan_id
  match plan with
  | none => return .refused
  | some plan =>
  let user ← get_user sender.id sender.first_name sender.username
  let active_sub ← Prog.read fun db =>
    db.subscriptions.first fun u => u.user_id = user.id && active_at now u
  match active_sub with
  | some _ => return .refused
  | none => pay_subscription now platform sender user plan use_wallet

/-! ## A top-up -/

/-- A blocked user gets no further than the status message. -/
def ensure_onboarding_or_prompt (user : UserPreference) : Bool :=
  !blocked user && user_onboarding_completed user

/-- The user has typed an amount. The quote is kept for the payment. -/
def ask_toman_topup (now : Datetime) (sender : Sender) (amount_toman : Int) :
    Tx (Option TopupQuote) := do
  let user ← get_user sender.id sender.first_name sender.username
  if ensure_onboarding_or_prompt user = false then return none
  else
  let quote ← quote_toman_topup_payment now user amount_toman
  return some quote

/-- The invoice for a quote: its payload, and the total in Rial. -/
def send_bale_toman_topup_invoice (now : Datetime) (user_id credit_amount_toman : Int)
    (payment_due_toman : Int) : Except PyError (String × Int) :=
  let credit_amount := max 0 credit_amount_toman
  let payment_due := max 0 payment_due_toman
  if credit_amount ≤ 0 ∨ payment_due ≤ 0 then
    .error (.value_error "toman topup amount must be positive")
  else
    (build_toman_topup_payload now user_id credit_amount payment_due (payment_due * 10)).map
      fun payload => (payload, payment_due * 10)

/-- The button of the online payment. -/
def handle_topup_method_bale (now : Datetime) (platform : Platform) (sender : Sender)
    (quote_data : Option TopupQuote) : Option (String × Int) :=
  match quote_data with
  | none => none
  | some quote =>
    if platform.takes_payments then
      (send_bale_toman_topup_invoice now sender.id quote.credit_amount_toman
        quote.payment_due_toman).toOption
    else none

/-- The button of the card transfer: the amount that the receipt will be for.
An active card has to be listed. -/
def handle_topup_method_card (card_listed : Bool) (quote_data : Option TopupQuote) :
    Option Int :=
  match quote_data with
  | none => none
  | some quote => if card_listed then some quote.payment_due_toman else none

/-- The receipt becomes a request for the amount that is kept. There is no
path when no picture was sent or its download has failed. -/
def handle_card_receipt_photo (sender : Sender) (pending_card_amount_toman : Option Int)
    (receipt_path caption : Option String) : Tx (Option PaymentRequest) := do
  if orDefault pending_card_amount_toman 0 = 0 then return none
  else
  match receipt_path with
  | none => return none
  | some receipt_path =>
    let user ← get_user sender.id sender.first_name sender.username
    let added : PaymentRequest :=
      { user_id := user.id, amount_toman := orDefault pending_card_amount_toman 0,
        receipt_image_path := receipt_path, description := strOr caption none,
        status := some "pending", payment_type := some "topup" }
    let id ← Prog.read fun db => db.payment_requests.nextKey
    Prog.flush (.addPaymentRequest added)
    Prog.publish
    return some { added with id }

/-! ## Confirmations -/

/-- `(telegram id).strip() or (provider id).strip() or` a made-up id. -/
def charge_id (payment : Payment) (made_up : String) : String :=
  let telegram := strip (payment.telegram_payment_charge_id.getD "")
  let provider := strip (payment.provider_payment_charge_id.getD "")
  if telegram ≠ "" then telegram else if provider ≠ "" then provider else made_up

/-- What the bot answers to a confirmed payment. -/
inductive Answer where
  | bad_payload
  | wrong_total
  | wrong_user
  | no_plan
  | already_active
  | wallet_failed
  | not_activated (reason : Option String)
  | activated
  | terms_changed
  | not_credited
  | credited
deriving DecidableEq

def subscription_key (now : Datetime) (sender : Sender) (payload : SubscriptionPayload)
    (payment : Payment) : String :=
  "subscription:bale:" ++ charge_id payment
    ("sub:" ++ toString sender.id ++ ":" ++ toString payload.plan_id ++ ":" ++
      toString (intOr0 payment.total_amount) ++ ":" ++ toString (unix_time now))

/-- An active subscription stops a payment that is not recorded yet. -/
def blocked_by_active (now : Datetime) (user : UserPreference) (key : String) : Tx Bool := do
  let active_sub ← Prog.read fun db =>
    db.subscriptions.first fun u => u.user_id = user.id && active_at now u
  match active_sub with
  | none => return false
  | some _ =>
    let existing_payment ← Prog.read fun db =>
      db.ledger.first fun e => e.idempotency_key = some (key ++ ":payment")
    let existing_gift ← Prog.read fun db =>
      db.ledger.first fun e => e.idempotency_key = some key
    return existing_payment.isNone && existing_gift.isNone

def handle_successful_subscription_payment (now : Datetime) (sender : Sender)
    (payload : SubscriptionPayload) (payment : Payment) : Tx Answer := do
  let key := subscription_key now sender payload payment
  let user ← get_user sender.id sender.first_name sender.username
  let plan ← Prog.read fun db => db.plans.get payload.plan_id.toNat
  match plan with
  | none => return .no_plan
  | some plan =>
  let blocked ← blocked_by_active now user key
  if blocked then return .already_active
  else
  let wallet_ok ← debit_subscription_wallet_usd user payload.wallet_payment_toman
    (key ++ ":wallet-usd")
    [("plan_id", Scalar.int plan.id), ("payment_platform", Scalar.str "bale"),
     ("total_amount_rial", Scalar.int (intOr0 payment.total_amount))]
  if wallet_ok = false then return .wallet_failed
  else
  let result ← purchase_toman_subscription now user plan (some key) true (some 0) false true
  return if result.ok then .activated else .not_activated result.reason

def topup_key (now : Datetime) (sender : Sender) (payload : TomanTopupPayload)
    (payment : Payment) : String :=
  "toman_topup:bale:" ++ charge_id payment
    ("ttop:" ++ toString sender.id ++ ":" ++ toString payload.credit_amount_toman ++ ":" ++
      toString (intOr0 payment.total_amount) ++ ":" ++ toString (unix_time now))

def optionText (s : Option String) : Scalar := (s.map Scalar.str).getD Scalar.null

/-- A quote that no longer asks for what the invoice asked for is not
credited: the user is sent to the support. -/
def handle_successful_toman_topup_payment (now : Datetime) (sender : Sender)
    (payload : TomanTopupPayload) (payment : Payment) : Tx Answer := do
  let key := topup_key now sender payload payment
  let user ← get_user sender.id sender.first_name sender.username
  let quote ← quote_toman_topup_payment now user payload.credit_amount_toman
  if quote.payment_due_toman ≠ payload.payment_due_toman then return .terms_changed
  else
  let result ← apply_toman_topup now user payload.credit_amount_toman (some key)
    [("payment_platform", Scalar.str "bale"), ("payment_currency", Scalar.str payment.currency),
     ("invoice_payload", optionText payment.invoice_payload),
     ("telegram_payment_charge_id", optionText payment.telegram_payment_charge_id),
     ("provider_payment_charge_id", optionText payment.provider_payment_charge_id),
     ("total_amount_rial", Scalar.int (intOr0 payment.total_amount)),
     ("payment_due_toman", Scalar.int payload.payment_due_toman)] true
  return if result.ok then .credited else .not_credited

/-- The payload of a payment that the handlers take: its total and its user
are those of the payment. -/
def checked_payload (sender : Sender) (payment : Payment) : Except Answer PaymentPayload :=
  match parse_payment_payload payment.invoice_payload with
  | none => .error .bad_payload
  | some payload =>
    if intOr0 payment.total_amount ≠ payload.total_rial then .error .wrong_total
    else if sender.id ≠ payload.user_id then .error .wrong_user
    else .ok payload

/-- The platform asks before it takes the money. -/
def handle_pre_checkout_query (sender : Sender) (payment : Payment) : Bool :=
  match checked_payload sender payment with
  | .ok _ => true
  | .error _ => false

def handle_successful_payment (now : Datetime) (sender : Sender) (payment : Payment) :
    Tx Answer :=
  match checked_payload sender payment with
  | .error answer => return answer
  | .ok (.subscription payload) =>
    handle_successful_subscription_payment now sender payload payment
  | .ok (.toman_topup payload) =>
    handle_successful_toman_topup_payment now sender payload payment

end dr_boz.bot_payments
