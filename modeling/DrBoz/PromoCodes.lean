-- Promo codes: `redeem_promo_code_for_user` of `promo_code_service.py`, and
-- the part of the USD wallet (`wallet_service.py`) that a USD code credits.
import DrBoz.TomanBilling

open keyed_table unit_of_work dr_boz.py dr_boz.models dr_boz.codex_capacity dr_boz.toman_billing

namespace dr_boz.promo_codes

/-! ## The USD wallet -/

def MICRO_USD_PER_USD : Int := 1000000

structure WalletResult where
  ok : Bool
  balance_minor : Int
  balance_usd : PyFloat
  ledger_entry : Option CreditLedgerEntry := none
  reason : Option String := none
deriving DecidableEq

def usd_to_minor (amount_usd : PyFloat) : Except PyError Int :=
  quantizeHalfUp (ctx (decimalStr amount_usd * MICRO_USD_PER_USD))

def minor_to_usd (amount_minor : Int) : PyFloat := f64 (ctx (amount_minor / MICRO_USD_PER_USD))

def get_or_create_wallet (user : UserPreference) : Tx Wallet := do
  let wallet ← Prog.read fun db => db.wallets.first fun w => w.user_id = user.id
  match wallet with
  | some wallet => return wallet
  | none =>
    let minor ← Prog.lift (usd_to_minor (user.credit_balance_usd.getD 0))
    let id ← Prog.read fun db => db.wallets.nextKey
    let added : Wallet :=
      { user_id := user.id, balance_minor := some minor, available_minor := some minor }
    Prog.flush (.addWallet added)
    return { added with id }

def get_balance_minor (user : UserPreference) : Tx Int := do
  let wallet ← get_or_create_wallet user
  return max 0 (intOr0 wallet.available_minor)

/-- Gives the user row with its new USD balance back, next to the result. -/
def apply_credit_delta (user : UserPreference) (amount_minor : Int) (entry_type : String)
    (reason : Option String) (metadata : Dict) (allow_negative commit : Bool) :
    Tx (WalletResult × UserPreference) := do
  let current ← get_balance_minor user
  if amount_minor < 0 ∧ allow_negative = false ∧ current + amount_minor < 0 ∧
      user.is_admin ≠ some true then
    return ({ ok := false, balance_minor := current, balance_usd := minor_to_usd current,
              reason := some "insufficient_credit" }, user)
  else
  let wallet ← get_or_create_wallet user
  let new_balance := current + amount_minor
  let entry : CreditLedgerEntry :=
    { user_id := user.id
      wallet_id := some wallet.id
      amount_delta_usd := minor_to_usd amount_minor
      amount_minor := some amount_minor
      balance_after_minor := some new_balance
      available_after_minor := some new_balance
      held_after_minor := wallet.held_minor
      currency := wallet.currency
      direction := some (if 0 ≤ amount_minor then "credit" else "debit")
      entry_type
      status := some "posted"
      reason
      metadata_json := metadata }
  let id ← Prog.read fun db => db.credit_ledger.nextKey
  Prog.flush (.addCreditLedger entry)
  Prog.flush (.setWallet wallet { wallet with
    balance_minor := some new_balance
    available_minor := some new_balance
    version := some (intOr0 wallet.version + 1) })
  let user' := { user with credit_balance_usd := some (minor_to_usd new_balance) }
  Prog.flush (.setUser user user')
  Prog.publishIf commit
  return ({ ok := true, balance_minor := max 0 new_balance,
            balance_usd := minor_to_usd (max 0 new_balance),
            ledger_entry := some { entry with id } }, user')

/-! ## Redemption -/

/-- The code without blanks, in upper case. Only ASCII letters have a case
here. -/
def normalize_promo_code (code : Option String) : String :=
  String.ofList (((strip (code.getD "")).toUpper.toList).filter (· ≠ ' '))

example : normalize_promo_code (some " wel come ") = "WELCOME" := by decide +kernel

def bonus_minor (promo_code : PromoCode) (charge_minor : Int) : Except PyError Int :=
  if promo_code.bonus_type = some "percent" then
    .ok (max 0 (roundHalfEven
      (f64 (f64 (f64 charge_minor * promo_code.bonus_value_usd.getD 0) / 100))))
  else (usd_to_minor (promo_code.bonus_value_usd.getD 0)).map (max 0)

def bonus_toman (promo_code : PromoCode) (charge_toman : Int) : Int :=
  if promo_code.bonus_type = some "percent" then
    max 0 (roundHalfEven
      (f64 (f64 (f64 charge_toman * f64 (intOr0 promo_code.bonus_value_toman)) / 100)))
  else max 0 (intOr0 promo_code.bonus_value_toman)

/-- The checks before any credit: the code is there and active, and its
limits are not reached. A stored expiry time is made aware and then compared
with a naive one, which raises for every time. -/
def usable_promo_code (user : UserPreference) (code : Option String) : Tx PromoCode := do
  if normalize_promo_code code = "" then
    Prog.throw (.promo_code_redemption_error "code is required")
  else
  let promo_code ← Prog.read fun db =>
    db.promo_codes.first fun p => p.code = normalize_promo_code code
  match promo_code with
  | none => Prog.throw (.promo_code_redemption_error "promo code is invalid or inactive")
  | some promo_code =>
  if promo_code.is_active ≠ some true then
    Prog.throw (.promo_code_redemption_error "promo code is invalid or inactive")
  else if promo_code.expires_at ≠ none then Prog.throw .type_error
  else
  let total_redemptions : Int ← Prog.read fun db =>
    db.promo_redemptions.count fun r => r.promo_code_id = promo_code.id
  if promo_code.max_redemptions_total.any (· ≤ total_redemptions) then
    Prog.throw (.promo_code_redemption_error "promo code redemption limit reached")
  else
  let user_redemptions : Int ← Prog.read fun db =>
    db.promo_redemptions.count fun r => r.promo_code_id = promo_code.id && r.user_id = user.id
  if 0 < intOr0 promo_code.max_redemptions_per_user ∧
      intOr0 promo_code.max_redemptions_per_user ≤ user_redemptions then
    Prog.throw (.promo_code_redemption_error "you have already used this promo code")
  else return promo_code

/-- The account after a promo credit. -/
def promo_credited (account : UserBillingAccount) (total_credit_toman : Int) :
    UserBillingAccount :=
  { account with
    gift_balance_toman := some (intOr0 account.gift_balance_toman + total_credit_toman)
    total_gift_granted_toman := some (intOr0 account.total_gift_granted_toman + total_credit_toman)
    version := some (intOr0 account.version + 1) }

def redeem_toman (user : UserPreference) (promo_code : PromoCode) (charge_amount_toman : Int)
    (source : String) (credit_charge_amount : Bool) : Tx PromoCodeRedemption := do
  let minimum_charge_toman := intOr0 promo_code.minimum_charge_toman
  if charge_amount_toman < minimum_charge_toman then
    Prog.throw (.promo_code_redemption_error
      ("minimum charge for this code is " ++ thousands minimum_charge_toman ++ " تومان"))
  else
  let bonus := bonus_toman promo_code charge_amount_toman
  if bonus ≤ 0 then
    Prog.throw (.promo_code_redemption_error "promo code bonus is zero for this charge amount")
  else
  let credited_charge_toman := if credit_charge_amount then charge_amount_toman else 0
  let total_credit_toman := credited_charge_toman + bonus
  if total_credit_toman ≤ 0 then
    Prog.throw (.promo_code_redemption_error "total credit amount is invalid")
  else
  let account ← get_or_create_billing_account user
  let account' := promo_credited account total_credit_toman
  Prog.flush (.setAccount account account')
  let entry ← add_ledger
    { user_id := user.id
      billing_account_id := some account.id
      amount_toman := total_credit_toman
      gift_delta_toman := total_credit_toman
      paid_delta_toman := 0
      gift_balance_after_toman := account'.gift_balance_toman
      paid_balance_after_toman := account'.paid_balance_toman
      entry_type := "promo_code_credit"
      reason := some ("promo code " ++ promo_code.code)
      metadata_json :=
        [("promo_code_id", Scalar.int promo_code.id), ("promo_code", Scalar.str promo_code.code),
         ("charge_amount_toman", Scalar.int charge_amount_toman),
         ("credited_charge_amount_toman", Scalar.int credited_charge_toman),
         ("bonus_amount_toman", Scalar.int bonus),
         ("credit_charge_amount", Scalar.bool credit_charge_amount),
         ("source", Scalar.str source)] }
  let added : PromoCodeRedemption :=
    { promo_code_id := promo_code.id, user_id := user.id, charge_amount_usd := 0,
      charge_amount_toman, bonus_amount_usd := 0, bonus_amount_toman := bonus,
      total_credit_usd := 0, total_credit_toman, credit_ledger_entry_id := none,
      toman_ledger_entry_id := none }
  let id ← Prog.read fun db => db.promo_redemptions.nextKey
  Prog.flush (.addRedemption added)
  Prog.publish
  let redemption := { added with id }
  let linked := { redemption with toman_ledger_entry_id := some entry.id }
  Prog.flush (.setRedemption redemption linked)
  Prog.publish
  return linked

def redeem_usd (user : UserPreference) (promo_code : PromoCode) (charge_amount_usd : PyFloat)
    (source : String) (credit_charge_amount : Bool) : Tx PromoCodeRedemption := do
  let charge_minor ← Prog.lift (usd_to_minor charge_amount_usd)
  if charge_minor < 0 then
    Prog.throw (.promo_code_redemption_error "charge_amount must be zero or greater")
  else
  let minimum_charge_minor ← Prog.lift (usd_to_minor (promo_code.minimum_charge_usd.getD 0))
  if charge_minor < minimum_charge_minor then
    Prog.throw (.promo_code_redemption_error
      ("minimum charge for this code is $" ++ fixed2 (promo_code.minimum_charge_usd.getD 0)))
  else
  let bonus ← Prog.lift (bonus_minor promo_code charge_minor)
  if bonus ≤ 0 then
    Prog.throw (.promo_code_redemption_error "promo code bonus is zero for this charge amount")
  else
  let credited_charge_minor := if credit_charge_amount then charge_minor else 0
  let total_credit_minor := credited_charge_minor + bonus
  if total_credit_minor ≤ 0 then
    Prog.throw (.promo_code_redemption_error "total credit amount is invalid")
  else
  let (wallet_result, user) ← apply_credit_delta user total_credit_minor "promo_code_credit"
    (some ("promo code " ++ promo_code.code))
    [("promo_code_id", Scalar.int promo_code.id), ("promo_code", Scalar.str promo_code.code),
     ("charge_amount_minor", Scalar.int charge_minor),
     ("credited_charge_amount_minor", Scalar.int credited_charge_minor),
     ("bonus_amount_minor", Scalar.int bonus),
     ("credit_charge_amount", Scalar.bool credit_charge_amount), ("source", Scalar.str source)]
    false false
  if wallet_result.ok = false then
    Prog.throw (.promo_code_redemption_error
      ((strOr wallet_result.reason (some "failed to apply promo credit")).getD ""))
  else
  if 0 < charge_amount_usd then
    let total := f64 (user.total_charged_usd.getD 0 + charge_amount_usd)
    Prog.flush (.setUser user { user with
      total_charged_usd := some total
      is_pro := if 1 ≤ total then some true else user.is_pro })
  let added : PromoCodeRedemption :=
    { promo_code_id := promo_code.id, user_id := user.id
      charge_amount_usd := minor_to_usd charge_minor, charge_amount_toman := 0
      bonus_amount_usd := minor_to_usd bonus, bonus_amount_toman := 0
      total_credit_usd := minor_to_usd total_credit_minor, total_credit_toman := 0
      credit_ledger_entry_id := wallet_result.ledger_entry.map (·.id)
      toman_ledger_entry_id := none }
  let id ← Prog.read fun db => db.promo_redemptions.nextKey
  Prog.flush (.addRedemption added)
  Prog.publish
  return { added with id }

def redeem_promo_code_for_user (user : UserPreference) (code : Option String)
    (charge_amount_usd : PyFloat) (charge_amount_toman : Int) (source : String)
    (credit_charge_amount : Bool) : Tx PromoCodeRedemption := do
  let promo_code ← usable_promo_code user code
  if (strOr promo_code.currency (some "USD")) = some "TOMAN" then
    redeem_toman user promo_code charge_amount_toman source credit_charge_amount
  else redeem_usd user promo_code charge_amount_usd source credit_charge_amount

end dr_boz.promo_codes
