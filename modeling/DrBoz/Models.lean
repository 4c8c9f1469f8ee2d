-- The rows of the account database that the services read and write, and
-- the changes that an ORM session sends to it. A nullable column is an
-- `Option`, and an id column is a `Nat`.
import DrBoz.Lib.Table
import DrBoz.Lib.UnitOfWork
import DrBoz.Py

open keyed_table unit_of_work dr_boz.py

namespace dr_boz.models

/-! ## Rows -/

structure UserPreference where
  id : Nat
  telegram_user_id : Option Int := none
  first_name : Option String := none
  username : Option String := none
  preferred_name : Option String := none
  phone_number : Option String := none
  account_status : Option String := some "active"
  credit_balance_usd : Option PyFloat := some 0
  is_admin : Option Bool := some false
  is_pro : Option Bool := some false
  total_charged_usd : Option PyFloat := some 0
  referral_campaign_id : Option Nat := none
  trial_used : Option Bool := some false
deriving DecidableEq

structure UserBillingAccount where
  id : Nat := 0
  user_id : Nat
  currency : Option String := some "TOMAN"
  gift_balance_toman : Option Int := some 0
  paid_balance_toman : Option Int := some 0
  total_gift_granted_toman : Option Int := some 0
  total_gift_spent_toman : Option Int := some 0
  total_paid_topup_toman : Option Int := some 0
  total_paid_spent_toman : Option Int := some 0
  total_subscription_paid_toman : Option Int := some 0
  first_topup_discount_used : Option Bool := some false
  version : Option Int := some 0
deriving DecidableEq

structure TomanLedgerEntry where
  id : Nat := 0
  user_id : Nat
  billing_account_id : Option Nat
  amount_toman : Int
  gift_delta_toman : Int := 0
  paid_delta_toman : Int := 0
  gift_balance_after_toman : Option Int := some 0
  paid_balance_after_toman : Option Int := some 0
  entry_type : String
  status : Option String := some "posted"
  reason : Option String := none
  usage_event_id : Option Nat := none
  idempotency_key : Option String := none
  metadata_json : Dict := []
deriving DecidableEq

structure SubscriptionPlan where
  id : Nat
  name : Option String
  plan_type : Option String := some "monthly_credit"
  monthly_price_toman : Option Int := some 0
  gift_credit_toman : Option Int := some 0
  cooldown_limit_toman : Option Int := some 0
  cooldown_hours : Option Int := some 0
  weekly_limit_toman : Option Int := some 0
  is_active : Option Bool := some true
deriving DecidableEq

structure UserSubscription where
  id : Nat := 0
  user_id : Nat
  plan_id : Nat
  pool_id : Option Nat := none
  status : Option String := some "active"
  purchased_at : Option Datetime
  expires_at : Datetime
  cooldown_spent_toman : Option Int := some 0
  cooldown_ends_at : Option Datetime := none
  weekly_spent_toman : Option Int := some 0
  week_resets_at : Option Datetime := none
deriving DecidableEq

structure CapacityPool where
  id : Nat
  max_users : Option Int := some 50
  active_users : Option Int := some 0
  status : Option String := some "active"
deriving DecidableEq

structure SubscriptionConfig where
  id : Nat := 0
  is_enabled : Option Bool
  monthly_price_toman : Option Int
  gift_credit_toman : Option Int
  api_markup_percent : Option PyFloat
  first_topup_discount_percent : Option PyFloat
  first_topup_discount_cap_toman : Option Int
  usd_to_toman_rate : Option Int
deriving DecidableEq

structure PromoCode where
  id : Nat
  code : String
  bonus_type : Option String := some "fixed"
  currency : Option String := some "USD"
  bonus_value_usd : Option PyFloat := some 0
  bonus_value_toman : Option Int := some 0
  minimum_charge_usd : Option PyFloat := some 0
  minimum_charge_toman : Option Int := some 0
  max_redemptions_total : Option Int := none
  max_redemptions_per_user : Option Int := some 1
  is_active : Option Bool := some true
  expires_at : Option Datetime := none
deriving DecidableEq

structure PromoCodeRedemption where
  id : Nat := 0
  promo_code_id : Nat
  user_id : Nat
  charge_amount_usd : PyFloat
  charge_amount_toman : Int
  bonus_amount_usd : PyFloat
  bonus_amount_toman : Int
  total_credit_usd : PyFloat
  total_credit_toman : Int
  credit_ledger_entry_id : Option Nat
  toman_ledger_entry_id : Option Nat
deriving DecidableEq

structure PaymentRequest where
  id : Nat := 0
  user_id : Nat
  amount_toman : Int
  receipt_image_path : String
  description : Option String := none
  payment_type : Option String := some "topup"
  plan_id : Option Nat := none
  status : Option String := some "pending"
  admin_note : Option String := none
  approved_by : Option Int := none
  approved_at : Option Datetime := none
deriving DecidableEq

structure AdminAction where
  id : Nat := 0
  admin_user_id : Option Int := none
  action_type : String
  target_type : String
  target_id : Option Nat
  before_json : Option Dict := none
  after_json : Option Dict := none
  reason : Option String
deriving DecidableEq

structure TrialConfig where
  id : Nat
  plan_id : Option Nat := none
  duration_hours : Option Int := some 48
  is_enabled : Option Bool := some false
  apply_automatically : Option Bool := some false
deriving DecidableEq

structure StarterCreditConfig where
  id : Nat
  amount_usd : Option PyFloat := some 0
  amount_toman : Option Int := some 0
  is_active : Option Bool := some true
deriving DecidableEq

structure ReferralCampaign where
  id : Nat
  code : String
  created_by_user_id : Option Nat := none
deriving DecidableEq

structure ReferralConfig where
  id : Nat
  name : Option String := some "default"
  reward_toman : Option Int := some 50000
deriving DecidableEq

structure ReferralEvent where
  id : Nat := 0
  campaign_id : Nat
  user_id : Nat
  event_type : String
  amount_usd : Option PyFloat := none
deriving DecidableEq

structure PromotionalLink where
  id : Nat
  code : String
  title : String
  offer_type : String
  offer_value_toman : Option Int := some 0
  offer_duration_hours : Option Int := some 0
  plan_id : Option Nat := none
  discount_percent : Option PyFloat := some 0
  max_redemptions : Option Int := none
  expires_at : Option Datetime := none
  is_active : Option Bool := some true
deriving DecidableEq

structure PromotionalLinkClick where
  id : Nat := 0
  promotional_link_id : Nat
  user_id : Nat
  redeemed_at : Option Datetime := none
  redemption_status : Option String := some "pending"
deriving DecidableEq

structure Wallet where
  id : Nat := 0
  user_id : Nat
  currency : Option String := some "USD"
  balance_minor : Option Int := some 0
  available_minor : Option Int := some 0
  held_minor : Option Int := some 0
  allow_negative : Option Bool := some false
  version : Option Int := some 0
deriving DecidableEq

structure CreditLedgerEntry where
  id : Nat := 0
  user_id : Nat
  wallet_id : Option Nat
  amount_delta_usd : PyFloat
  amount_minor : Option Int
  balance_after_minor : Option Int
  available_after_minor : Option Int
  held_after_minor : Option Int
  currency : Option String
  direction : Option String
  entry_type : String
  status : Option String
  reason : Option String
  usage_event_id : Option Nat := none
  idempotency_key : Option String := none
  metadata_json : Dict
deriving DecidableEq

/-- A model is a parameter of the quotes. No query reads its table. -/
structure Model where
  id : Nat
  name : Option String := none
  pricing_input : Option PyFloat := some 0
  pricing_output : Option PyFloat := some 0
deriving DecidableEq

/-! ## Keys and unique columns -/

instance : Row UserPreference Int :=
  ⟨(·.id), fun a n => { a with id := n }, (·.telegram_user_id), fun _ _ => rfl, fun _ _ => rfl⟩

instance : Row UserBillingAccount Nat :=
  ⟨(·.id), fun a n => { a with id := n }, fun a => some a.user_id, fun _ _ => rfl, fun _ _ => rfl⟩

instance : Row TomanLedgerEntry String :=
  ⟨(·.id), fun a n => { a with id := n }, (·.idempotency_key), fun _ _ => rfl, fun _ _ => rfl⟩

instance : Row SubscriptionPlan String :=
  ⟨(·.id), fun a n => { a with id := n }, (·.name), fun _ _ => rfl, fun _ _ => rfl⟩

instance : Row UserSubscription Empty :=
  ⟨(·.id), fun a n => { a with id := n }, fun _ => none, fun _ _ => rfl, fun _ _ => rfl⟩

instance : Row CapacityPool Empty :=
  ⟨(·.id), fun a n => { a with id := n }, fun _ => none, fun _ _ => rfl, fun _ _ => rfl⟩

instance : Row SubscriptionConfig Empty :=
  ⟨(·.id), fun a n => { a with id := n }, fun _ => none, fun _ _ => rfl, fun _ _ => rfl⟩

instance : Row PromoCode String :=
  ⟨(·.id), fun a n => { a with id := n }, fun a => some a.code, fun _ _ => rfl, fun _ _ => rfl⟩

instance : Row PromoCodeRedemption Empty :=
  ⟨(·.id), fun a n => { a with id := n }, fun _ => none, fun _ _ => rfl, fun _ _ => rfl⟩

instance : Row PaymentRequest Empty :=
  ⟨(·.id), fun a n => { a with id := n }, fun _ => none, fun _ _ => rfl, fun _ _ => rfl⟩

instance : Row AdminAction Empty :=
  ⟨(·.id), fun a n => { a with id := n }, fun _ => none, fun _ _ => rfl, fun _ _ => rfl⟩

instance : Row TrialConfig Empty :=
  ⟨(·.id), fun a n => { a with id := n }, fun _ => none, fun _ _ => rfl, fun _ _ => rfl⟩

instance : Row Wallet Nat :=
  ⟨(·.id), fun a n => { a with id := n }, fun a => some a.user_id, fun _ _ => rfl, fun _ _ => rfl⟩

instance : Row CreditLedgerEntry String :=
  ⟨(·.id), fun a n => { a with id := n }, (·.idempotency_key), fun _ _ => rfl, fun _ _ => rfl⟩

instance : Row StarterCreditConfig Empty :=
  ⟨(·.id), fun a n => { a with id := n }, fun _ => none, fun _ _ => rfl, fun _ _ => rfl⟩

instance : Row ReferralCampaign String :=
  ⟨(·.id), fun a n => { a with id := n }, fun a => some a.code, fun _ _ => rfl, fun _ _ => rfl⟩

instance : Row ReferralConfig String :=
  ⟨(·.id), fun a n => { a with id := n }, (·.name), fun _ _ => rfl, fun _ _ => rfl⟩

instance : Row ReferralEvent Empty :=
  ⟨(·.id), fun a n => { a with id := n }, fun _ => none, fun _ _ => rfl, fun _ _ => rfl⟩

instance : Row PromotionalLink String :=
  ⟨(·.id), fun a n => { a with id := n }, fun a => some a.code, fun _ _ => rfl, fun _ _ => rfl⟩

instance : Row PromotionalLinkClick Empty :=
  ⟨(·.id), fun a n => { a with id := n }, fun _ => none, fun _ _ => rfl, fun _ _ => rfl⟩

/-- The account database. -/
structure Db where
  users : Table UserPreference
  accounts : Table UserBillingAccount
  ledger : Table TomanLedgerEntry
  plans : Table SubscriptionPlan
  subscriptions : Table UserSubscription
  pools : Table CapacityPool
  configs : Table SubscriptionConfig
  promo_codes : Table PromoCode
  promo_redemptions : Table PromoCodeRedemption
  payment_requests : Table PaymentRequest
  admin_actions : Table AdminAction
  trial_configs : Table TrialConfig
  wallets : Table Wallet
  credit_ledger : Table CreditLedgerEntry
  starter_credit_configs : Table StarterCreditConfig
  referral_campaigns : Table ReferralCampaign
  referral_configs : Table ReferralConfig
  referral_events : Table ReferralEvent
  promotional_links : Table PromotionalLink
  promotional_link_clicks : Table PromotionalLinkClick
deriving DecidableEq

def Db.empty : Db :=
  ⟨.empty, .empty, .empty, .empty, .empty, .empty, .empty, .empty, .empty, .empty, .empty, .empty,
    .empty, .empty, .empty, .empty, .empty, .empty, .empty, .empty⟩

/-! ## Changes -/

/-- An UPDATE sends only the columns whose value changed. The other columns
keep what the row holds when the UPDATE runs. -/
def col {α : Type} [DecidableEq α] (old new current : α) : α := if new = old then current else new

def UserPreference.merge (o n c : UserPreference) : UserPreference where
  id := c.id
  telegram_user_id := c.telegram_user_id
  first_name := col o.first_name n.first_name c.first_name
  username := col o.username n.username c.username
  preferred_name := col o.preferred_name n.preferred_name c.preferred_name
  phone_number := col o.phone_number n.phone_number c.phone_number
  account_status := col o.account_status n.account_status c.account_status
  credit_balance_usd := col o.credit_balance_usd n.credit_balance_usd c.credit_balance_usd
  is_admin := col o.is_admin n.is_admin c.is_admin
  is_pro := col o.is_pro n.is_pro c.is_pro
  total_charged_usd := col o.total_charged_usd n.total_charged_usd c.total_charged_usd
  referral_campaign_id := col o.referral_campaign_id n.referral_campaign_id c.referral_campaign_id
  trial_used := col o.trial_used n.trial_used c.trial_used

def UserBillingAccount.merge (o n c : UserBillingAccount) : UserBillingAccount where
  id := c.id
  user_id := c.user_id
  currency := c.currency
  gift_balance_toman := col o.gift_balance_toman n.gift_balance_toman c.gift_balance_toman
  paid_balance_toman := col o.paid_balance_toman n.paid_balance_toman c.paid_balance_toman
  total_gift_granted_toman :=
    col o.total_gift_granted_toman n.total_gift_granted_toman c.total_gift_granted_toman
  total_gift_spent_toman :=
    col o.total_gift_spent_toman n.total_gift_spent_toman c.total_gift_spent_toman
  total_paid_topup_toman :=
    col o.total_paid_topup_toman n.total_paid_topup_toman c.total_paid_topup_toman
  total_paid_spent_toman :=
    col o.total_paid_spent_toman n.total_paid_spent_toman c.total_paid_spent_toman
  total_subscription_paid_toman :=
    col o.total_subscription_paid_toman n.total_subscription_paid_toman
      c.total_subscription_paid_toman
  first_topup_discount_used :=
    col o.first_topup_discount_used n.first_topup_discount_used c.first_topup_discount_used
  version := col o.version n.version c.version

def UserSubscription.merge (o n c : UserSubscription) : UserSubscription where
  id := c.id
  user_id := c.user_id
  plan_id := c.plan_id
  pool_id := col o.pool_id n.pool_id c.pool_id
  status := col o.status n.status c.status
  purchased_at := c.purchased_at
  expires_at := col o.expires_at n.expires_at c.expires_at
  cooldown_spent_toman := col o.cooldown_spent_toman n.cooldown_spent_toman c.cooldown_spent_toman
  cooldown_ends_at := col o.cooldown_ends_at n.cooldown_ends_at c.cooldown_ends_at
  weekly_spent_toman := col o.weekly_spent_toman n.weekly_spent_toman c.weekly_spent_toman
  week_resets_at := col o.week_resets_at n.week_resets_at c.week_resets_at

def CapacityPool.merge (o n c : CapacityPool) : CapacityPool where
  id := c.id
  max_users := c.max_users
  active_users := col o.active_users n.active_users c.active_users
  status := c.status

def PromoCodeRedemption.merge (o n c : PromoCodeRedemption) : PromoCodeRedemption :=
  { c with
    toman_ledger_entry_id :=
      col o.toman_ledger_entry_id n.toman_ledger_entry_id c.toman_ledger_entry_id }

def PaymentRequest.merge (o n c : PaymentRequest) : PaymentRequest :=
  { c with
    status := col o.status n.status c.status
    admin_note := col o.admin_note n.admin_note c.admin_note
    approved_by := col o.approved_by n.approved_by c.approved_by
    approved_at := col o.approved_at n.approved_at c.approved_at }

def Wallet.merge (o n c : Wallet) : Wallet :=
  { c with
    balance_minor := col o.balance_minor n.balance_minor c.balance_minor
    available_minor := col o.available_minor n.available_minor c.available_minor
    version := col o.version n.version c.version }

def PromotionalLinkClick.merge (o n c : PromotionalLinkClick) : PromotionalLinkClick :=
  { c with
    redeemed_at := col o.redeemed_at n.redeemed_at c.redeemed_at
    redemption_status := col o.redemption_status n.redemption_status c.redemption_status }

def StarterCreditConfig.merge (o n c : StarterCreditConfig) : StarterCreditConfig :=
  { c with
    amount_usd := col o.amount_usd n.amount_usd c.amount_usd
    amount_toman := col o.amount_toman n.amount_toman c.amount_toman
    is_active := col o.is_active n.is_active c.is_active }

/-- What a flush sends to the database. The telegram id of a user is unique,
so its update is a change of its own. -/
inductive Change where
  | addUser (u : UserPreference)
  | setTelegramId (id : Nat) (telegram_user_id : Option Int)
  | setUser (old new : UserPreference)
  | addAccount (a : UserBillingAccount)
  | setAccount (old new : UserBillingAccount)
  | addLedger (e : TomanLedgerEntry)
  | addSubscription (u : UserSubscription)
  | setSubscription (old new : UserSubscription)
  | deleteSubscription (id : Nat)
  | setPool (old new : CapacityPool)
  | addConfig (c : SubscriptionConfig)
  | addRedemption (r : PromoCodeRedemption)
  | setRedemption (old new : PromoCodeRedemption)
  | addPaymentRequest (r : PaymentRequest)
  | setPaymentRequest (old new : PaymentRequest)
  | addAdminAction (a : AdminAction)
  | addWallet (w : Wallet)
  | setWallet (old new : Wallet)
  | addCreditLedger (e : CreditLedgerEntry)
  | addReferralEvent (e : ReferralEvent)
  | addClick (c : PromotionalLinkClick)
  | setClick (old new : PromotionalLinkClick)
  | addStarterConfig (c : StarterCreditConfig)
  | setStarterConfig (old new : StarterCreditConfig)
deriving DecidableEq

def Db.apply (db : Db) : Change → Db
  | .addUser u => { db with users := db.users.insert u }
  | .setTelegramId id t =>
    { db with users := db.users.rewrite id ({ · with telegram_user_id := t }) fun _ => rfl }
  | .setUser o n =>
    { db with users := db.users.update n.id (.merge o n) (fun _ => rfl) fun _ => rfl }
  | .addAccount a => { db with accounts := db.accounts.insert a }
  | .setAccount o n =>
    { db with accounts := db.accounts.update n.id (.merge o n) (fun _ => rfl) fun _ => rfl }
  | .addLedger e => { db with ledger := db.ledger.insert e }
  | .addSubscription u => { db with subscriptions := db.subscriptions.insert u }
  | .setSubscription o n =>
    { db with
      subscriptions := db.subscriptions.update n.id (.merge o n) (fun _ => rfl) fun _ => rfl }
  | .deleteSubscription id => { db with subscriptions := db.subscriptions.delete id }
  | .setPool o n =>
    { db with pools := db.pools.update n.id (.merge o n) (fun _ => rfl) fun _ => rfl }
  | .addConfig c => { db with configs := db.configs.insert c }
  | .addRedemption r => { db with promo_redemptions := db.promo_redemptions.insert r }
  | .setRedemption o n =>
    { db with
      promo_redemptions :=
        db.promo_redemptions.update n.id (.merge o n) (fun _ => rfl) fun _ => rfl }
  | .addPaymentRequest r => { db with payment_requests := db.payment_requests.insert r }
  | .setPaymentRequest o n =>
    { db with
      payment_requests := db.payment_requests.update n.id (.merge o n) (fun _ => rfl) fun _ => rfl }
  | .addAdminAction a => { db with admin_actions := db.admin_actions.insert a }
  | .addWallet w => { db with wallets := db.wallets.insert w }
  | .setWallet o n =>
    { db with wallets := db.wallets.update n.id (.merge o n) (fun _ => rfl) fun _ => rfl }
  | .addCreditLedger e => { db with credit_ledger := db.credit_ledger.insert e }
  | .addReferralEvent e => { db with referral_events := db.referral_events.insert e }
  | .addClick c => { db with promotional_link_clicks := db.promotional_link_clicks.insert c }
  | .setClick o n =>
    { db with
      promotional_link_clicks :=
        db.promotional_link_clicks.update n.id (.merge o n) (fun _ => rfl) fun _ => rfl }
  | .addStarterConfig c => { db with starter_credit_configs := db.starter_credit_configs.insert c }
  | .setStarterConfig o n =>
    { db with
      starter_credit_configs :=
        db.starter_credit_configs.update n.id (.merge o n) (fun _ => rfl) fun _ => rfl }

/-- The unique columns: the telegram id of a user, the user of an account and
of a wallet, and the idempotency keys of the two ledgers. -/
def Db.admits (db : Db) : Change → Bool
  | .addUser u => decide (db.users.Accepts u)
  | .setTelegramId id t => decide (db.users.Rewrites id ({ · with telegram_user_id := t }))
  | .addAccount a => decide (db.accounts.Accepts a)
  | .addLedger e => decide (db.ledger.Accepts e)
  | .addWallet w => decide (db.wallets.Accepts w)
  | .addCreditLedger e => decide (db.credit_ledger.Accepts e)
  | _ => true

instance : Store Db Change PyError := ⟨Db.apply, Db.admits, .integrity_error⟩

end dr_boz.models
