-- The phone numbers of the bot (`bot.py`). A shared contact or a typed number
-- becomes the number of the sender's account, or it gives the sender the
-- account that has the number already. The texts of the answers are left out:
-- an answer names the branch that gave it.
import DrBoz.BotPayments

open keyed_table unit_of_work dr_boz.py dr_boz.texts dr_boz.models dr_boz.codex_capacity
open dr_boz.accounts dr_boz.views dr_boz.bot_users dr_boz.bot_payments

namespace dr_boz.bot_phones

def missing_phone (user : UserPreference) : Bool := strip (user.phone_number.getD "") = ""

def missing_preferred_name (user : UserPreference) : Bool :=
  strip (user.preferred_name.getD "") = ""

/-- `^[\d+\-\s()]{7,24}$`, for a text without blanks around it. -/
def PHONE_TEXT_RE (text : String) : Bool :=
  decide (7 ≤ text.toList.length ∧ text.toList.length ≤ 24) &&
    text.toList.all fun c => (decimal c).isSome || isSpace c || c ∈ ['+', '-', '(', ')']

/-- `normalize_phone_number(raw_phone) or raw_phone.strip()`. -/
def phone_of (raw_phone : String) : String :=
  (normalize_phone_number (some raw_phone)).getD (strip raw_phone)

def log_referral_event (user : UserPreference) (event_type : String) : Tx Unit :=
  match user.referral_campaign_id.filter (· ≠ 0) with
  | none => return ()
  | some campaign_id => do
    Prog.flush (.addReferralEvent { campaign_id, user_id := user.id, event_type })
    Prog.publish

/-! ## Saving a number -/

/-- What the bot answers to a number. -/
inductive Registered where
  | no_number
  | not_yours
  | ask_name
  | restored
  | saved
deriving DecidableEq

/-- The sender's telegram id moves to the account: the row that has it gives
it up first. -/
def rebind (sender : Sender) (account : UserPreference) : Tx Unit := do
  let holder ← Prog.read fun db => userOf db sender.id
  match holder.filter (·.id ≠ account.id) with
  | some holder => Prog.flush (.setTelegramId holder.id none)
  | none => pure ()
  Prog.flush (.setTelegramId account.id (some sender.id))

/-- The account with the sender's names. -/
def renamed (sender : Sender) (account : UserPreference) : UserPreference :=
  { account with
    first_name := if truthy sender.first_name then sender.first_name else account.first_name
    username := if truthy sender.username then sender.username else account.username }

/-- The account with the number. A missing name decides the status, whatever
it was. -/
def registered (user : UserPreference) (phone : String) : UserPreference :=
  let user := { user with phone_number := some phone }
  if user.is_admin = some true then user
  else if missing_preferred_name user then { user with account_status := some "pending_name" }
  else mark_onboarding_complete user

/-- The end of a registration: `read` is the row as it was read, and `user`
the one that gets the number. -/
def save_number (read user : UserPreference) (phone : String) (restored : Bool) :
    Tx Registered := do
  Prog.flush (.setUser read (registered user phone))
  if user.is_admin ≠ some true ∧ missing_preferred_name user = false ∧
      user_onboarding_completed user = false then
    log_referral_event user "signup"
  Prog.publish
  return if user.is_admin ≠ some true ∧ missing_preferred_name user then .ask_name
    else if restored then .restored
    else .saved

def save_phone_onboarding_and_reply (sender : Sender) (raw_phone : String) : Tx Registered := do
  let phone := phone_of raw_phone
  if phone = "" then return .no_number
  else
  let current_user ← get_user sender.id sender.first_name sender.username
  let existing_user ← get_user_by_phone (some phone)
  match existing_user.filter (·.id ≠ current_user.id) with
  | none => save_number current_user current_user phone false
  | some account =>
    rebind sender account
    save_number account (renamed sender account) phone true

/-! ## The updates that bring a number or a name -/

structure Contact where
  user_id : Option Int
  phone_number : String

/-- `contact.user_id and contact.user_id != uid`. -/
def of_another (sender : Sender) (contact : Contact) : Bool :=
  contact.user_id.any fun n => n ≠ 0 && n ≠ sender.id

/-- On Bale the contact may be that of another person. -/
def handle_contact (is_bale : Bool) (sender : Sender) (contact : Contact) : Tx Registered :=
  if of_another sender contact = true ∧ is_bale = false then return .not_yours
  else save_phone_onboarding_and_reply sender contact.phone_number

/-- A message that looks like a number, from a user without one. -/
def handle_phone_text (sender : Sender) (normalized : String) : Tx (Option Registered) := do
  if PHONE_TEXT_RE normalized then
    let user ← get_user sender.id sender.first_name sender.username
    if user.is_admin ≠ some true ∧ missing_phone user then
      let answer ← save_phone_onboarding_and_reply sender normalized
      return some answer
    else return none
  else return none

/-- The answer to the question for a name. -/
def handle_name (sender : Sender) (content : String) : Tx Unit := do
  let name := strip content
  if name = "" then return ()
  else
  let user ← get_user sender.id sender.first_name sender.username
  Prog.flush (.setUser user (mark_onboarding_complete { user with preferred_name := some name }))
  Prog.publish

/-! ## Whose number it is -/

/-- The account with the number, as the bot finds it. -/
def found_by_phone (db : Db) (phone : String) : Except PyError (Option UserPreference) :=
  match normalize_phone_number (some phone) with
  | none => .ok none
  | some normalized =>
    match db.users.rows.filter fun u =>
      u.phone_number.any fun p => p ∈ phone_candidates normalized with
    | [] => .ok none
    | [user] => .ok (some user)
    | _ => .error .multiple_results_found

theorem run_get_user_by_phone (phone : String) (s : Session Db) :
    (get_user_by_phone (some phone)).run s = (found_by_phone s.view phone, s) := by
  unfold get_user_by_phone found_by_phone
  cases normalize_phone_number (some phone) with
  | none => rfl
  | some normalized =>
    rw [Prog.run_bind, Prog.run_read, Prog.continueWith_ok]
    simp only
    generalize s.view.users.rows.filter _ = found
    rcases found with _ | ⟨u, _ | ⟨v, rest⟩⟩
    · rfl
    · rfl
    · rfl

end dr_boz.bot_phones
