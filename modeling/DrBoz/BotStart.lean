-- The command /start of `bot.py` with its two kinds of links: a referral link,
-- which pays the user who made it, and a promotional link, which gives its
-- offer to the user who opens it. The texts of the messages are left out.
import DrBoz.BotPayments

open keyed_table unit_of_work dr_boz.py dr_boz.models dr_boz.codex_capacity dr_boz.toman_billing
open dr_boz.accounts dr_boz.views dr_boz.bot_users dr_boz.bot_payments

namespace dr_boz.bot_start

/-- What follows the command. -/
inductive StartPayload where
  | referral (token : String)
  | offer (code : String)
  | other
deriving DecidableEq

/-- A referral code is the whole text, and an offer's code is what follows the
prefix. -/
def start_payload (arg : Option String) : StartPayload :=
  let payload := strip (arg.getD "")
  if payload.toList.take 4 = "ref_".toList then .referral payload
  else if payload.toList.take 6 = "offer_".toList then
    .offer (strip (String.ofList (payload.toList.drop 6)))
  else .other

/-! ## Referral links -/

/-- `int(config.reward_toman if config else 50000)`. -/
def referral_reward : Tx Int := do
  let config ← Prog.read fun db => db.referral_configs.first fun c => c.name = some "default"
  match config with
  | none => return 50000
  | some config => Prog.lift (compared config.reward_toman)

/-- The account after a gift. -/
def gifted (account : UserBillingAccount) (amount_toman : Int) : UserBillingAccount :=
  { account with
    gift_balance_toman := some (intOr0 account.gift_balance_toman + amount_toman)
    total_gift_granted_toman := some (intOr0 account.total_gift_granted_toman + amount_toman)
    version := some (intOr0 account.version + 1) }

theorem owner_gifted (a : UserBillingAccount) (n : Int) : SameOwner (gifted a n) a :=
  ⟨rfl, rfl, rfl⟩

def reward_entry (referrer user : UserPreference) (account' : UserBillingAccount) (reward : Int)
    (campaign : ReferralCampaign) : TomanLedgerEntry where
  user_id := referrer.id
  billing_account_id := some account'.id
  amount_toman := reward
  gift_delta_toman := reward
  paid_delta_toman := 0
  gift_balance_after_toman := account'.gift_balance_toman
  paid_balance_after_toman := account'.paid_balance_toman
  entry_type := "referral_reward"
  reason := some ("پاداش دعوت کاربر جدید (user " ++ toString user.id ++ ")")
  metadata_json :=
    [("referred_user_id", Scalar.int user.id), ("campaign_id", Scalar.int campaign.id),
     ("campaign_code", Scalar.str campaign.code)]

/-- Nothing is asked about the user who followed the link. -/
def pay_referrer (user : UserPreference) (campaign : ReferralCampaign) (referrer_id : Nat) :
    Tx Unit := do
  let reward ← referral_reward
  let referrer ← Prog.read fun db => db.users.get referrer_id
  match referrer with
  | none => return ()
  | some referrer =>
    let account ← get_or_create_billing_account referrer
    let account' := gifted account reward
    Prog.flush (.setAccount account account')
    let _ ← add_ledger (reward_entry referrer user account' reward campaign)
    Prog.flush (.addReferralEvent
      { campaign_id := campaign.id, user_id := user.id, event_type := "signup" })

/-- The user who gets the reward: the maker of the campaign, if it is another
user. -/
def referrer_of (user : UserPreference) (campaign : ReferralCampaign) : Option Nat :=
  campaign.created_by_user_id.filter fun n => n ≠ 0 && n ≠ user.id

/-- The user keeps the first campaign. -/
def referred (user : UserPreference) (campaign : ReferralCampaign) : UserPreference :=
  if user.referral_campaign_id.getD 0 = 0 then
    { user with referral_campaign_id := some campaign.id }
  else user

def follow_referral (user : UserPreference) (token : String) : Tx UserPreference := do
  let campaign ← Prog.read fun db => db.referral_campaigns.first fun c => c.code = token
  match campaign with
  | none => return user
  | some campaign =>
    Prog.flush (.setUser user (referred user campaign))
    Prog.flush (.addReferralEvent
      { campaign_id := campaign.id, user_id := user.id, event_type := "start" })
    match referrer_of user campaign with
    | none => pure ()
    | some referrer_id => pay_referrer user campaign referrer_id
    Prog.publish
    return referred user campaign

/-! ## Promotional links -/

/-- The messages that a start with an offer can send, one for each branch. -/
inductive Reply where
  | unknown_link
  | expired_link
  | used_before
  | no_room
  | broken_link
  | has_subscription
  | granted
  | error
deriving DecidableEq

/-- A message that cannot be sent raises. -/
def reply_text (sends : Reply → Bool) (r : Reply) : Tx Unit :=
  if sends r then return () else Prog.throw .telegram_error

def clicked (click : PromotionalLinkClick) (status : String) : PromotionalLinkClick :=
  { click with redemption_status := some status }

def redeemed (click : PromotionalLinkClick) (now : Datetime) : PromotionalLinkClick :=
  { click with redemption_status := some "redeemed", redeemed_at := some now }

/-- The status is committed before the message is sent. -/
def settle_click (sends : Reply → Bool) (click click' : PromotionalLinkClick) (r : Reply) :
    Tx Unit := do
  Prog.flush (.setClick click click')
  Prog.publish
  reply_text sends r

/-- A float column inside of a JSON column. -/
def floatOrNull (value : Option PyFloat) : Scalar := (value.map Scalar.float).getD .null

def link_entry (user : UserPreference) (account : UserBillingAccount) (link : PromotionalLink)
    (amount_toman : Int) (entry_type reason : String) (metadata : Dict) : TomanLedgerEntry where
  user_id := user.id
  billing_account_id := some account.id
  amount_toman := amount_toman
  gift_delta_toman := amount_toman
  paid_delta_toman := 0
  gift_balance_after_toman := account.gift_balance_toman
  paid_balance_after_toman := account.paid_balance_toman
  entry_type
  reason := some reason
  metadata_json :=
    ("promotional_link_id", Scalar.int link.id) :: ("link_code", Scalar.str link.code) :: metadata

def grant_credit (now : Datetime) (sends : Reply → Bool) (user : UserPreference)
    (link : PromotionalLink) (click : PromotionalLinkClick) : Tx Unit := do
  let account ← get_or_create_billing_account user
  let amount ← Prog.lift (compared link.offer_value_toman)
  let account' := gifted account amount
  Prog.flush (.setAccount account account')
  let _ ← add_ledger (link_entry user account' link amount "promotional_link_credit"
    ("اعتبار هدیه از لینک تبلیغاتی: " ++ link.title) [])
  settle_click sends click (redeemed click now) .granted

/-- The subscription takes no slot of a pool. -/
def grant_subscription (now : Datetime) (sends : Reply → Bool) (user : UserPreference)
    (link : PromotionalLink) (click : PromotionalLinkClick) : Tx Unit := do
  match link.plan_id.filter (· ≠ 0) with
  | none => settle_click sends click (clicked click "failed") .broken_link
  | some plan_id =>
  let plan ← Prog.read fun db => db.plans.get plan_id
  match plan with
  | none => settle_click sends click (clicked click "failed") .broken_link
  | some _ =>
  let existing_sub ← Prog.read fun db => db.subscriptions.rows.filter fun u =>
    u.user_id = user.id && u.plan_id = plan_id && active_at now u
  match existing_sub with
  | _ :: _ :: _ => Prog.throw .multiple_results_found
  | [_] => settle_click sends click (clicked click "already_used") .has_subscription
  | [] =>
    let duration ← Prog.lift (compared link.offer_duration_hours)
    let expires_at ← Prog.lift (addDelta now (hours duration))
    Prog.flush (.addSubscription
      { user_id := user.id, plan_id, status := some "active", purchased_at := some now,
        expires_at })
    settle_click sends click (redeemed click now) .granted

def grant_discount (now : Datetime) (sends : Reply → Bool) (user : UserPreference)
    (link : PromotionalLink) (click : PromotionalLinkClick) (percent : String) : Tx Unit := do
  let account ← get_or_create_billing_account user
  let _ ← add_ledger (link_entry user account link 0 "promotional_link_topup_discount"
    ("تخفیف شارژ از لینک تبلیغاتی: " ++ link.title ++ " (" ++ percent ++ "%)")
    [("discount_percent", floatOrNull link.discount_percent)])
  settle_click sends click (redeemed click now) .granted

def grant_offer (now : Datetime) (sends : Reply → Bool) (percent : String)
    (user : UserPreference) (link : PromotionalLink) (click : PromotionalLinkClick) : Tx Unit :=
  if link.offer_type = "credit_grant" then grant_credit now sends user link click
  else if link.offer_type = "free_subscription" then grant_subscription now sends user link click
  else if link.offer_type = "topup_discount" then
    grant_discount now sends user link click percent
  else settle_click sends click (clicked click "failed") .broken_link

/-- Any exception of the offer, that of its message as well, leaves the click
as a failed one. `percent` is the printed discount of the link. -/
def apply_promotional_offer (now : Datetime) (sends : Reply → Bool) (percent : String)
    (user : UserPreference) (link : PromotionalLink) (click : PromotionalLinkClick) :
    Tx Unit := do
  let done ← Prog.attempt (grant_offer now sends percent user link click)
  match done with
  | .ok _ => return ()
  | .error _ => settle_click sends click (clicked click "failed") .error

/-- The count of the users who have redeemed the link. -/
def link_full (link : PromotionalLink) (db : Db) : Bool :=
  link.max_redemptions.any fun m => m ≤ (db.promotional_link_clicks.count fun c =>
    c.promotional_link_id = link.id && c.redemption_status = some "redeemed" : Int)

def follow_offer (now : Datetime) (sends : Reply → Bool) (percent : String)
    (user : UserPreference) (code : String) : Tx Unit := do
  let link ← Prog.read fun db => db.promotional_links.first fun l =>
    l.code = code && l.is_active = some true
  match link with
  | none => reply_text sends .unknown_link
  | some link =>
  if link.expires_at.any (· < now) then reply_text sends .expired_link
  else
  let added : PromotionalLinkClick :=
    { promotional_link_id := link.id, user_id := user.id, redemption_status := some "pending" }
  let id ← Prog.read fun db => db.promotional_link_clicks.nextKey
  Prog.flush (.addClick added)
  let click := { added with id }
  let existing ← Prog.read fun db => db.promotional_link_clicks.rows.filter fun c =>
    c.promotional_link_id = link.id && c.user_id = user.id && c.redemption_status = some "redeemed"
  match existing with
  | _ :: _ :: _ => Prog.throw .multiple_results_found
  | [_] => settle_click sends click (clicked click "already_used") .used_before
  | [] =>
    let full ← Prog.read (link_full link)
    if full then settle_click sends click (clicked click "failed") .no_room
    else apply_promotional_offer now sends percent user link click

/-! ## The command -/

/-- The admin gets a name. -/
def name_admin (sender : Sender) (user : UserPreference) : Tx Unit :=
  if sender.id = ADMIN_ID ∧ truthy user.preferred_name = false then do
    let name := if truthy sender.first_name then sender.first_name else some "محمد علی"
    Prog.flush (.setUser user { user with preferred_name := name })
    Prog.publish
  else return ()

def cmd_start (now : Datetime) (sends : Reply → Bool) (percent : String) (sender : Sender)
    (arg : Option String) : Tx Unit := do
  let user ← get_user sender.id sender.first_name sender.username
  match start_payload arg with
  | .referral token =>
    let user ← follow_referral user token
    name_admin sender user
  | .offer code =>
    follow_offer now sends percent user code
    name_admin sender user
  | .other => name_admin sender user

/-- A start command, with what surrounds it. -/
structure Start where
  now : Datetime
  sends : Reply → Bool
  percent : String
  sender : Sender
  arg : Option String

def Start.prog (s : Start) : Tx Unit := cmd_start s.now s.sends s.percent s.sender s.arg

def Start.run (db : Db) (s : Start) : Db := (s.prog.run (.opened db)).2.stored

end dr_boz.bot_start
