-- The updates of the bot (`bot.py`), each with the sender it comes from. The
-- handlers that write a telegram id, a status or a balance are here with what
-- they do. The others are known by what they leave alone.
import DrBoz.BotPhones
import DrBoz.BotStart
import DrBoz.Calls

open keyed_table unit_of_work dr_boz.py dr_boz.models dr_boz.codex_capacity dr_boz.toman_billing
open dr_boz.subscriptions dr_boz.billing_runs dr_boz.chat_runs dr_boz.calls dr_boz.bot_users
open dr_boz.bot_payments dr_boz.bot_phones dr_boz.bot_start

namespace dr_boz.bot_updates

/-- The change gives a telegram id to no account, and takes none. -/
def keeps_ids : Change → Prop
  | .setTelegramId _ _ => False
  | _ => True

/-- The change leaves the telegram ids, the statuses and the balances. -/
def keeps_standing : Change → Prop
  | .setTelegramId _ _ => False
  | .setUser o n => n.account_status = o.account_status ∧ n.is_admin = o.is_admin
  | .addAccount a => intOr0 a.gift_balance_toman = 0 ∧ intOr0 a.paid_balance_toman = 0
  | .setAccount _ _ => False
  | _ => True

/-- `handle_activate_trial_callback`. The exceptions become a message. -/
def handle_activate_trial_callback (now : Datetime) (sender : Sender) : Tx Unit := do
  let user ← get_user sender.id sender.first_name sender.username
  if user.trial_used = some true then return ()
  else
  let _ ← Prog.attempt (grant_trial_subscription now user.id "User activated via bot callback")
  return ()

/-- An update of the bot. A pending chat or transcription is charged when the
user resumes it. A handler behind `_ensure_onboarding_or_prompt` does the rest
of its work for a user who is let through only. -/
inductive Update : Type 1 where
  | start (now : Datetime) (sends : Reply → Bool) (percent : String) (arg : Option String)
  | contact (is_bale : Bool) (shared : Contact)
  | phone_text (normalized : String)
  | name (content : String)
  | payment (now : Datetime) (reported : Payment)
  | subscribe (now : Datetime) (platform : Platform) (plan_id : Nat) (use_wallet : Bool)
  | trial (now : Datetime)
  | resume_chat (now : Datetime) (c : ChatCall)
  | resume_voice (c : GenericCall)
  | behind_gate (rest : UserPreference → Tx Unit) (h : ∀ user, (rest user).Writes keeps_ids)
  | open_to_all (rest : UserPreference → Tx Unit) (h : ∀ user, (rest user).Writes keeps_standing)

def Update.prog (sender : Sender) : Update → Tx Unit
  | .start now sends percent arg => cmd_start now sends percent sender arg
  | .contact is_bale shared => calls.discard (handle_contact is_bale sender shared)
  | .phone_text normalized => calls.discard (handle_phone_text sender normalized)
  | .name content => handle_name sender content
  | .payment now reported => calls.discard (handle_successful_payment now sender reported)
  | .subscribe now platform plan_id use_wallet =>
    calls.discard (start_subscription_payment now platform sender plan_id use_wallet)
  | .trial now => handle_activate_trial_callback now sender
  | .resume_chat now c => do
    let user ← get_user sender.id sender.first_name sender.username
    calls.discard (ChatCall.prog now { c with user })
  | .resume_voice c => do
    let user ← get_user sender.id sender.first_name sender.username
    calls.discard (GenericCall.prog { c with user })
  | .behind_gate rest _ => do
    let user ← get_user sender.id sender.first_name sender.username
    if ensure_onboarding_or_prompt user then rest user else return ()
  | .open_to_all rest _ => do
    let user ← get_user sender.id sender.first_name sender.username
    rest user

/-- A sender and what the bot gets from this sender. -/
structure Sent : Type 1 where
  sender : Sender
  update : Update

/-- The store after an update. -/
def Sent.run (db : Db) (e : Sent) : Db := ((e.update.prog e.sender).run (.opened db)).2.stored

end dr_boz.bot_updates
