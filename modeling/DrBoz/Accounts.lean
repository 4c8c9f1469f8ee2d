-- The user rows that the services share: `account_service.py` with the phone
-- numbers, the onboarding state, the credit of a sign-up, and the function
-- that finds, restores or creates a user.
import DrBoz.PromoCodes
import DrBoz.Subscriptions
import DrBoz.Texts

open keyed_table unit_of_work dr_boz.py dr_boz.texts dr_boz.models dr_boz.codex_capacity
open dr_boz.toman_billing
open dr_boz.promo_codes dr_boz.subscriptions

namespace dr_boz.accounts

/-- `if value` of a nullable text. -/
def truthy (value : Option String) : Bool := truthyKey value

/-- `(value or "").strip().lower()`. Only ASCII letters have a case here. -/
def lowered (value : Option String) : String := (strip (value.getD "")).toLower

/-! ## Phone numbers -/

/-- `_PHONE_DIGITS_RE.sub("", raw)`. -/
def digits_of (raw : String) : String :=
  String.ofList (raw.toList.filter fun c => (decimal c).isSome)

/-- The compact form of a number, for the country code 98. -/
def normalize_phone_number (phone : Option String) : Option String :=
  let raw := strip (phone.getD "")
  let digits := (digits_of raw).toList
  if raw = "" ∨ digits = [] then none
  else if raw.toList.head? = some '+' then some (String.ofList ('+' :: digits))
  else if digits.take 2 = ['0', '0'] ∧ 2 < digits.length then
    some (String.ofList ('+' :: digits.drop 2))
  else if digits.head? = some '0' then some ("+98" ++ String.ofList digits.tail)
  else if digits.length ≤ 10 then some ("+98" ++ String.ofList digits)
  else some (String.ofList ('+' :: digits))

example : normalize_phone_number (some " 0912 345-6789") = some "+989123456789" := by
  decide +kernel

/-- The forms under which a number may be stored. -/
def phone_candidates (normalized : String) : List String :=
  let bare := normalized.toList.dropWhile (· = '+')
  [normalized, String.ofList bare] ++
    (if normalized.toList.take 3 = ['+', '9', '8'] then
      [String.ofList ('0' :: normalized.toList.drop 3)]
    else [])

/-- `scalar_one_or_none` raises when two rows match. -/
def get_user_by_phone (phone : Option String) : Tx (Option UserPreference) := do
  match normalize_phone_number phone with
  | none => return none
  | some normalized =>
    let found ← Prog.read fun db => db.users.rows.filter fun u =>
      u.phone_number.any fun p => p ∈ phone_candidates normalized
    match found with
    | [] => return none
    | [user] => return some user
    | _ => Prog.throw .multiple_results_found

/-! ## Onboarding -/

def PENDING_STATUSES : List String := ["pending", "pending_onboarding", "onboarding",
  "needs_onboarding"]

structure AccountOnboardingState where
  missing_phone : Bool
  missing_preferred_name : Bool
  completed : Bool

def onboarding_state (user : UserPreference) : AccountOnboardingState :=
  if user.is_admin = some true then ⟨false, false, true⟩
  else
    let missing_phone := strip (user.phone_number.getD "") = ""
    let missing_name := strip (user.preferred_name.getD "") = ""
    let status := lowered user.account_status
    ⟨missing_phone, missing_name, !missing_phone && !missing_name && status ∉ PENDING_STATUSES⟩

/-- The row with the status that its profile fields give. -/
def mark_onboarding_state (user : UserPreference) : UserPreference :=
  if user.is_admin = some true then user
  else
    { user with
      account_status :=
        some (if (onboarding_state user).completed then "active" else "pending_onboarding") }

/-! ## The credit of a sign-up -/

/-- The account after the gift of a sign-up. -/
def welcomed (account : UserBillingAccount) (amount_toman : Int) : UserBillingAccount :=
  { account with
    gift_balance_toman := some (intOr0 account.gift_balance_toman + amount_toman)
    total_gift_granted_toman :=
      some (intOr0 account.total_gift_granted_toman + amount_toman) }

def starter_entry (user : UserPreference) (account : UserBillingAccount) (amount_toman : Int)
    (config_id : Nat) : TomanLedgerEntry where
  user_id := user.id
  billing_account_id := some account.id
  amount_toman := amount_toman
  gift_delta_toman := amount_toman
  paid_delta_toman := 0
  gift_balance_after_toman := account.gift_balance_toman
  paid_balance_after_toman := some (intOr0 account.paid_balance_toman)
  entry_type := "starter_gift_credit"
  status := some "posted"
  reason := some "Account signup bonus"
  metadata_json := [("config_id", Scalar.int config_id)]

/-- The Toman part of the credit. -/
def apply_starter_gift (user : UserPreference) (amount_toman : Int) (config_id : Nat) :
    Tx Unit := do
  let account ← get_or_create_billing_account user
  let account' := welcomed account amount_toman
  Prog.flush (.setAccount account account')
  let _ ← add_ledger (starter_entry user account' amount_toman config_id)
  return ()

/-- A value that the code compares: a NULL raises. -/
def compared {α : Type} (value : Option α) : Except PyError α :=
  match value with
  | some v => .ok v
  | none => .error .type_error

/-- The USD part of the credit. -/
def apply_starter_usd (user : UserPreference) (amount_usd : PyFloat) (config_id : Nat) :
    Tx Unit := do
  let amount_minor ← Prog.lift (usd_to_minor amount_usd)
  let _ ← apply_credit_delta user amount_minor.natAbs "starter_credit"
    (some "Account signup bonus") [("config_id", Scalar.int config_id)] false false
  return ()

/-- The credit of a sign-up, once for each of the two currencies. -/
def apply_starter_credit (user : UserPreference) : Tx Bool := do
  let existing_usd ← Prog.read fun db =>
    db.credit_ledger.count fun e => e.user_id = user.id && e.entry_type = "starter_credit"
  let existing_toman ← Prog.read fun db =>
    db.ledger.count fun e => e.user_id = user.id && e.entry_type = "starter_gift_credit"
  if 0 < existing_usd ∧ 0 < existing_toman then return false
  else
  let config ← Prog.read fun db =>
    db.starter_credit_configs.lowest fun c => c.is_active = some true
  match config with
  | none => return false
  | some config =>
  -- When both amounts are zero neither part is paid.
  let amount_usd ← Prog.lift (compared config.amount_usd)
  let pays_usd := decide (0 < amount_usd) && existing_usd == 0
  if pays_usd then apply_starter_usd user amount_usd config.id
  let amount_toman ← Prog.lift (compared config.amount_toman)
  let pays_toman := decide (0 < amount_toman) && existing_toman == 0
  if pays_toman then apply_starter_gift user amount_toman config.id
  return pays_usd || pays_toman

/-! ## Finding or creating a user -/

/-- The row of a user with what the caller knows now. The telegram id is
written on its own. -/
def restored (user : UserPreference) (first_name username preferred_name phone : Option String)
    (admin : Bool) : UserPreference :=
  { user with
    first_name := if truthy first_name then first_name else user.first_name
    username := if truthy username then username else user.username
    preferred_name := if truthy preferred_name then preferred_name else user.preferred_name
    phone_number := if truthy phone then phone else user.phone_number
    is_admin := if admin then some true else user.is_admin }

/-- The row as the database holds it now. -/
def refreshed (user : UserPreference) : Tx UserPreference :=
  Prog.read fun db => (db.users.get user.id).getD user

def create_or_restore_user (now : Datetime) (telegram_user_id : Int)
    (first_name username phone_number preferred_name : Option String)
    (admin_telegram_id : Option Int) (is_admin commit : Bool) : Tx UserPreference := do
  let phone := normalize_phone_number phone_number
  let admin := is_admin || admin_telegram_id = some telegram_user_id
  let user ← Prog.read fun db => db.users.first fun u =>
    u.telegram_user_id = some telegram_user_id || (phone.isSome && u.phone_number = phone)
  match user with
  | none =>
    let added : UserPreference :=
      { id := 0, telegram_user_id := some telegram_user_id, first_name, username, preferred_name,
        phone_number := phone, is_admin := some admin,
        account_status := some (if admin then "active" else "pending_onboarding") }
    let id ← Prog.read fun db => db.users.nextKey
    Prog.flush (.addUser added)
    let user := { added with id }
    let _ ← apply_starter_credit user
    let trial_config ← Prog.read fun db => db.trial_configs.first fun _ => true
    if trial_config.any fun c => c.apply_automatically = some true then
      let _ ← Prog.attempt
        (grant_trial_subscription now user.id "Automatically granted on signup")
    Prog.flush (.setUser user (mark_onboarding_state user))
    Prog.publishIf commit
    refreshed user
  | some user =>
    if user.telegram_user_id ≠ some telegram_user_id then
      Prog.flush (.setTelegramId user.id (some telegram_user_id))
    let known := restored { user with telegram_user_id := some telegram_user_id } first_name
      username preferred_name phone admin
    Prog.flush (.setUser user (mark_onboarding_state known))
    Prog.publishIf commit
    refreshed user

end dr_boz.accounts
