-- What the programs of the services and of the bot write, whatever they
-- read. A law about one kind of change asks for the changes of a program
-- here, and does not follow its branches again.
import DrBoz.BotPhones
import DrBoz.BotStart
import DrBoz.Commits
import DrBoz.PaymentRequests

open keyed_table unit_of_work dr_boz.py dr_boz.models dr_boz.codex_capacity dr_boz.toman_billing
open dr_boz.promo_codes dr_boz.accounts dr_boz.subscriptions dr_boz.payment_requests
open dr_boz.bot_users dr_boz.payment_payloads dr_boz.bot_payments dr_boz.bot_phones dr_boz.bot_start
open dr_boz.commits

namespace dr_boz.writers
variable {P : Change → Prop}

/-! ## Rows that a call finds or creates -/

/-- The kind has the rows that a call adds when it does not find them. -/
structure Looks (P : Change → Prop) : Prop where
  account : ∀ u, P (.addAccount { user_id := u })
  config : P (.addConfig defaultConfig)

theorem writes_quote (h : Looks P) (now : Datetime) (user : UserPreference) (credit : Int) :
    (quote_toman_topup_payment now user credit).Writes P :=
  (writes_account user h.account).bind fun _ => (writes_config h.config).bind fun _ =>
    (Prog.writes_read _).bind fun _ => Prog.writes_lift _

theorem writes_balance (h : Looks P) (user : UserPreference) :
    (bot_users.toman_balance user).Writes P :=
  (writes_account user h.account).bind fun _ => Prog.writes_pure _

/-! ## Charges, top-ups and purchases -/

theorem writes_topup (h : Looks P) (hset : ∀ a q, P (.setAccount a (topped_up a q)))
    (hentry : ∀ e, P (.addLedger e)) (now : Datetime) (user : UserPreference) (credit : Int)
    (key : Option String) (metadata : Dict) (commit : Bool) :
    (apply_toman_topup now user credit key metadata commit).Writes P := by
  unfold apply_toman_topup
  refine (writes_account user h.account).bind fun account => ?_
  refine (writes_existing key).bind fun existing => ?_
  refine (writes_quote h now user credit).bind fun quote => ?_
  cases existing with
  | some existing => exact Prog.writes_pure _
  | none =>
    refine Prog.writes_ite (Prog.writes_pure _) ?_
    refine (Prog.writes_flush (hset _ _)).bind fun _ => ?_
    refine (writes_add_ledger (hentry _)).bind fun _ => ?_
    exact (Prog.writes_publishIf _).bind fun _ => Prog.writes_pure _

theorem writes_generic (h : Looks P) (hset : ∀ a n, P (.setAccount a (spent_gift_first a n)))
    (hentry : ∀ e, P (.addLedger e)) (user : UserPreference) (cost : PyFloat)
    (entry_type reason : String) (event : Option Nat) (key : Option String) (metadata : Dict)
    (commit : Bool) :
    (charge_generic_usage_toman user cost entry_type reason event key metadata
      commit).Writes P := by
  unfold charge_generic_usage_toman usd_to_toman
  refine (writes_account user h.account).bind fun account => ?_
  refine (writes_existing key).bind fun existing => ?_
  cases existing with
  | some existing => exact Prog.writes_pure _
  | none =>
    refine ((writes_config h.config).bind fun _ => Prog.writes_lift _).bind
      fun cost_toman => ?_
    refine Prog.writes_ite (Prog.writes_pure _) ?_
    refine Prog.writes_ite (Prog.writes_pure _) ?_
    refine (Prog.writes_flush (hset _ _)).bind fun _ => ?_
    refine (writes_add_ledger (hentry _)).bind fun _ => ?_
    exact (Prog.writes_publishIf _).bind fun _ => Prog.writes_pure _

/-- The kind has the changes of a subscription and of its pool. -/
structure Subscribes (P : Change → Prop) : Prop where
  add : ∀ u, P (.addSubscription u)
  assign : ∀ u v, P (.setSubscription u v)
  delete : ∀ id, P (.deleteSubscription id)
  pool : ∀ p q, P (.setPool p q)

theorem writes_assign (h : Subscribes P) (u : UserSubscription) :
    (assign_subscription_pool u).Writes P := by
  unfold assign_subscription_pool
  cases u.pool_id with
  | some id =>
    refine (Prog.writes_read _).bind fun pool => ?_
    cases pool with
    | none => exact Prog.writes_throw _
    | some pool => exact Prog.writes_pure _
  | none =>
    refine (Prog.writes_read _).bind fun pool => ?_
    cases pool with
    | none => exact Prog.writes_throw _
    | some pool =>
      exact (Prog.writes_flush (h.assign _ _)).bind fun _ =>
        (Prog.writes_flush (h.pool _ _)).bind fun _ => Prog.writes_pure _

theorem writes_purchase (h : Looks P) (hs : Subscribes P)
    (hset : ∀ a w g t p, P (.setAccount a (bought a w g t p))) (hentry : ∀ e, P (.addLedger e))
    (now : Datetime) (user : UserPreference) (plan : SubscriptionPlan) (key : Option String)
    (confirmed : Bool) (wallet : Option Int) (gift commit : Bool) :
    (purchase_toman_subscription now user plan key confirmed wallet gift commit).Writes P := by
  unfold purchase_toman_subscription
  refine (writes_account user h.account).bind fun account => ?_
  refine (writes_existing key).bind fun existing => ?_
  cases existing with
  | some existing => exact Prog.writes_pure _
  | none =>
    refine (Prog.writes_read _).bind fun active => ?_
    cases active with
    | some active => exact Prog.writes_pure _
    | none =>
      refine (writes_config h.config).bind fun config => ?_
      refine Prog.writes_ite (Prog.writes_pure _) ?_
      refine Prog.writes_ite (Prog.writes_pure _) ?_
      refine (Prog.writes_lift _).bind fun expires_at => ?_
      refine (Prog.writes_read _).bind fun id => ?_
      refine (Prog.writes_flush (hs.add _)).bind fun _ => ?_
      refine (writes_assign hs _).attempt.bind fun assigned => ?_
      rcases assigned with e | ⟨subscription, pool⟩
      · cases e with
        | codex_capacity_error code message =>
          exact (Prog.writes_flush (hs.delete _)).bind fun _ => Prog.writes_pure _
        | _ => exact Prog.writes_throw _
      · refine (Prog.writes_flush (hset _ _ _ _ _)).bind fun _ => ?_
        refine (writes_add_ledger (hentry _)).bind fun _ => ?_
        refine (writes_add_ledger (hentry _)).bind fun _ => ?_
        exact (Prog.writes_publishIf _).bind fun _ => Prog.writes_pure _

/-! ## Finding the user of an update -/

/-- The kind has the changes of the USD wallet. -/
structure Credits (P : Change → Prop) : Prop where
  add : ∀ w, P (.addWallet w)
  set : ∀ a b, P (.setWallet a b)
  entry : ∀ e, P (.addCreditLedger e)
  user : ∀ u x, P (.setUser u { u with credit_balance_usd := x })

/-- The kind has the changes of a redeemed promo code. -/
structure Redeems (P : Change → Prop) : Prop extends Looks P, Credits P where
  charged : ∀ u t p, P (.setUser u { u with total_charged_usd := t, is_pro := p })
  credited : ∀ a n, P (.setAccount a (promo_credited a n))
  ledger : ∀ e, P (.addLedger e)
  redemption : ∀ r, P (.addRedemption r)
  link : ∀ r r', P (.setRedemption r r')

theorem writes_added (h : ∀ r, P (.addRedemption r)) (added : PromoCodeRedemption) :
    (do
      let id ← Prog.read fun db => db.promo_redemptions.nextKey
      Prog.flush (.addRedemption added)
      Prog.publish
      return { added with id } : Tx PromoCodeRedemption).Writes P :=
  (Prog.writes_read _).bind fun _ => (Prog.writes_flush (h _)).bind fun _ =>
    Prog.writes_publish.bind fun _ => Prog.writes_pure _

theorem writes_redeem_usd (h : Credits P)
    (hcharged : ∀ u t p, P (.setUser u { u with total_charged_usd := t, is_pro := p }))
    (hredemption : ∀ r, P (.addRedemption r)) (user : UserPreference) (promo_code : PromoCode)
    (charge_usd : PyFloat) (source : String) (credit_charge : Bool) :
    (redeem_usd user promo_code charge_usd source credit_charge).Writes P := by
  unfold redeem_usd
  refine (Prog.writes_lift _).bind fun charge_minor =>
    Prog.writes_ite (Prog.writes_throw _) ?_
  refine (Prog.writes_lift _).bind fun minimum =>
    Prog.writes_ite (Prog.writes_throw _) ?_
  refine (Prog.writes_lift _).bind fun bonus => Prog.writes_ite (Prog.writes_throw _)
    (Prog.writes_ite (Prog.writes_throw _) ?_)
  refine (writes_credit_delta _ _ _ _ _ _ _ h.add h.entry h.set h.user).bind fun result => ?_
  refine Prog.writes_ite (Prog.writes_throw _) ?_
  exact Prog.writes_ite ((Prog.writes_flush (hcharged _ _ _)).bind fun _ =>
    writes_added hredemption _) (writes_added hredemption _)

theorem writes_promo (h : Redeems P) (user : UserPreference) (code : Option String)
    (charge_usd : PyFloat) (charge_toman : Int) (source : String) (credit_charge : Bool) :
    (redeem_promo_code_for_user user code charge_usd charge_toman source credit_charge).Writes
      P := by
  unfold redeem_promo_code_for_user
  refine (writes_usable user code).bind fun promo_code => Prog.writes_ite ?_
    (writes_redeem_usd h.toCredits h.charged h.redemption _ _ _ _ _)
  unfold redeem_toman
  refine Prog.writes_ite (Prog.writes_throw _) (Prog.writes_ite (Prog.writes_throw _)
    (Prog.writes_ite (Prog.writes_throw _) ?_))
  refine (writes_account user h.account).bind fun account => ?_
  refine (Prog.writes_flush (h.credited _ _)).bind fun _ => ?_
  refine (writes_add_ledger (h.ledger _)).bind fun entry => ?_
  refine (Prog.writes_read _).bind fun id => ?_
  refine (Prog.writes_flush (h.redemption _)).bind fun _ => ?_
  refine Prog.writes_publish.bind fun _ => ?_
  refine (Prog.writes_flush (h.link _ _)).bind fun _ => ?_
  exact Prog.writes_publish.bind fun _ => Prog.writes_pure _

/-- The kind has the changes of a sign-up credit. -/
structure Welcomes (P : Change → Prop) : Prop extends Looks P, Credits P where
  welcomed : ∀ a n, P (.setAccount a (welcomed a n))
  starter : ∀ u a n c, P (.addLedger (starter_entry u a n c))

theorem writes_starter (h : Welcomes P) (user : UserPreference) :
    (apply_starter_credit user).Writes P := by
  unfold apply_starter_credit
  refine (Prog.writes_read _).bind fun existing_usd => ?_
  refine (Prog.writes_read _).bind fun existing_toman => ?_
  refine Prog.writes_ite (Prog.writes_pure _) ?_
  refine (Prog.writes_read _).bind fun config => ?_
  cases config with
  | none => exact Prog.writes_pure _
  | some config =>
    have husd : ∀ x, (apply_starter_usd user x config.id).Writes P := fun x =>
      (Prog.writes_lift _).bind fun _ =>
        (writes_credit_delta _ _ _ _ _ _ _ h.add h.entry h.set h.user).bind fun _ =>
          Prog.writes_pure _
    have hgift : ∀ n, (apply_starter_gift user n config.id).Writes P := fun n =>
      (writes_account user h.account).bind fun _ =>
        (Prog.writes_flush (h.welcomed _ _)).bind fun _ =>
          (writes_add_ledger (h.starter _ _ _ _)).bind fun _ => Prog.writes_pure _
    have hrest : ∀ b, (do
        let amount_toman ← Prog.lift (compared config.amount_toman)
        let pays_toman := decide (0 < amount_toman) && existing_toman == 0
        if pays_toman then apply_starter_gift user amount_toman config.id
        return b || pays_toman : Tx Bool).Writes P := fun b =>
      (Prog.writes_lift _).bind fun n =>
        Prog.writes_ite ((hgift n).bind fun _ => Prog.writes_pure _)
          (Prog.writes_pure _)
    refine (Prog.writes_lift _).bind fun amount_usd => ?_
    exact Prog.writes_ite ((husd amount_usd).bind fun _ => hrest _) (hrest _)

/-- The kind has the changes of an update's user: a new row with its credit,
or the names and the status of a known one. -/
structure Greets (P : Change → Prop) : Prop extends Welcomes P where
  added : ∀ u, P (.addUser u)
  seen : ∀ u f n, P (.setUser u (seen u f n))

theorem writes_get_user (h : Greets P) (uid : Int) (f n : Option String) :
    (get_user uid f n).Writes P := by
  unfold get_user
  refine (Prog.writes_read _).bind fun user => ?_
  cases user with
  | none =>
    refine (Prog.writes_read _).bind fun id => ?_
    refine (Prog.writes_flush (h.added _)).bind fun _ => ?_
    refine (writes_starter h.toWelcomes _).bind fun _ => ?_
    exact Prog.writes_publish.bind fun _ => Prog.writes_read _
  | some user =>
    refine Prog.writes_ite (Prog.writes_pure _) ?_
    refine (Prog.writes_flush (h.seen _ _ _)).bind fun _ => ?_
    exact Prog.writes_publish.bind fun _ => Prog.writes_pure _

/-! ## The payments of the bot -/

/-- The kind has the changes of charges, top-ups and purchases. -/
structure Sales (P : Change → Prop) : Prop extends Looks P, Subscribes P where
  spent : ∀ a n, P (.setAccount a (spent_gift_first a n))
  bought : ∀ a w g t p, P (.setAccount a (bought a w g t p))
  topped_up : ∀ a q, P (.setAccount a (topped_up a q))
  entry : ∀ e, P (.addLedger e)

/-- The handler finds the user of the update, and writes changes of the kind
then. -/
def WritesFor {α : Type} (P : Change → Prop) (sender : Sender) (x : Tx α) : Prop :=
  ∃ f : UserPreference → Tx α,
    x = get_user sender.id sender.first_name sender.username >>= f ∧ ∀ user, (f user).Writes P

theorem WritesFor.writes {α : Type} {sender : Sender} {x : Tx α} (h : Greets P)
    (hx : WritesFor P sender x) : x.Writes P := by
  obtain ⟨f, rfl, hf⟩ := hx
  exact (writes_get_user h _ _ _).bind hf

theorem writes_sold (h : Sales P) (now : Datetime) (user : UserPreference)
    (plan : SubscriptionPlan) (key : Option String) (confirmed : Bool) (wallet : Option Int)
    (gift commit : Bool) :
    (purchase_toman_subscription now user plan key confirmed wallet gift commit).Writes P :=
  writes_purchase h.toLooks h.toSubscribes h.bought h.entry now user plan key confirmed wallet
    gift commit

theorem writes_debit (h : Sales P) (user : UserPreference) (amount : Int) (key : String)
    (metadata : Dict) : (debit_subscription_wallet_usd user amount key metadata).Writes P :=
  Prog.writes_ite (Prog.writes_pure _)
    ((writes_generic h.toLooks h.spent h.entry _ _ _ _ _ _ _ _).bind fun _ => Prog.writes_pure _)

theorem writes_pay_subscription (h : Sales P) (now : Datetime) (platform : Platform)
    (sender : Sender) (user : UserPreference) (plan : SubscriptionPlan) (use_wallet : Bool) :
    (pay_subscription now platform sender user plan use_wallet).Writes P := by
  unfold pay_subscription
  refine (writes_config h.config).bind fun config => ?_
  refine (writes_balance h.toLooks user).bind fun balance => ?_
  refine Prog.writes_ite ?_ ?_
  · refine (writes_debit h _ _ _ _).bind fun wallet_ok => ?_
    refine Prog.writes_ite (Prog.writes_pure _) ?_
    exact (writes_sold h _ _ _ _ _ _ _ _).bind fun _ => Prog.writes_pure _
  · refine Prog.writes_ite (Prog.writes_pure _) ?_
    cases build_subscription_payload now sender.id plan.id _ _ with
    | error e => exact Prog.writes_pure _
    | ok payload => exact Prog.writes_pure _

theorem writes_start_payment (h : Sales P) (hgreets : Greets P) (now : Datetime)
    (platform : Platform) (sender : Sender) (plan_id : Nat) (use_wallet : Bool) :
    (start_subscription_payment now platform sender plan_id use_wallet).Writes P := by
  unfold start_subscription_payment
  refine (Prog.writes_read _).bind fun enabled => ?_
  refine Prog.writes_ite (Prog.writes_pure _) ?_
  refine (Prog.writes_read _).bind fun plan => ?_
  cases plan with
  | none => exact Prog.writes_pure _
  | some plan =>
    refine (writes_get_user hgreets _ _ _).bind fun user => ?_
    refine (Prog.writes_read _).bind fun active => ?_
    cases active with
    | some active => exact Prog.writes_pure _
    | none => exact writes_pay_subscription h _ _ _ _ _ _

theorem writes_subscription_payment (h : Sales P) (now : Datetime) (sender : Sender)
    (payload : SubscriptionPayload) (payment : Payment) :
    WritesFor P sender (handle_successful_subscription_payment now sender payload payment) := by
  refine ⟨_, rfl, fun user => ?_⟩
  refine (Prog.writes_read _).bind fun plan => ?_
  cases plan with
  | none => exact Prog.writes_pure _
  | some plan =>
    have hblocked : (blocked_by_active now user
        (subscription_key now sender payload payment)).Writes P := by
      unfold blocked_by_active
      refine (Prog.writes_read _).bind fun active => ?_
      cases active with
      | none => exact Prog.writes_pure _
      | some active =>
        exact (Prog.writes_read _).bind fun _ =>
          (Prog.writes_read _).bind fun _ => Prog.writes_pure _
    refine hblocked.bind fun blocked => ?_
    refine Prog.writes_ite (Prog.writes_pure _) ?_
    refine (writes_debit h _ _ _ _).bind fun wallet_ok => ?_
    refine Prog.writes_ite (Prog.writes_pure _) ?_
    exact (writes_sold h _ _ _ _ _ _ _ _).bind fun _ => Prog.writes_pure _

theorem writes_topup_payment (h : Sales P) (now : Datetime) (sender : Sender)
    (payload : TomanTopupPayload) (payment : Payment) :
    WritesFor P sender (handle_successful_toman_topup_payment now sender payload payment) := by
  refine ⟨_, rfl, fun user => ?_⟩
  refine (writes_quote h.toLooks _ _ _).bind fun quote => ?_
  refine Prog.writes_ite (Prog.writes_pure _) ?_
  exact (writes_topup h.toLooks h.topped_up h.entry _ _ _ _ _ _).bind fun _ => Prog.writes_pure _

/-- A payment that fails its checks is answered without the user. -/
theorem writes_payment (h : Sales P) (now : Datetime) (sender : Sender) (payment : Payment) :
    (∃ answer, handle_successful_payment now sender payment = return answer) ∨
      WritesFor P sender (handle_successful_payment now sender payment) := by
  unfold handle_successful_payment
  split
  · exact .inl ⟨_, rfl⟩
  · exact .inr (writes_subscription_payment h _ _ _ _)
  · exact .inr (writes_topup_payment h _ _ _ _)

theorem writes_trial (h : Subscribes P)
    (huser : ∀ u, P (.setUser u { u with trial_used := some true }))
    (haction : ∀ a, P (.addAdminAction a)) (now : Datetime) (user_id : Nat) (reason : String) :
    (grant_trial_subscription now user_id reason).Writes P := by
  have hchecks : (trial_checks user_id).Writes P := by
    unfold trial_checks
    refine (Prog.writes_read _).bind fun user => ?_
    cases user with
    | none => exact Prog.writes_throw _
    | some user =>
      refine Prog.writes_ite (Prog.writes_throw _) ?_
      refine (Prog.writes_read _).bind fun config => ?_
      cases config with
      | none => exact Prog.writes_throw _
      | some config =>
        refine Prog.writes_ite (Prog.writes_throw _) ?_
        refine (Prog.writes_read _).bind fun sub => ?_
        cases sub with
        | some sub => exact Prog.writes_throw _
        | none => exact Prog.writes_pure _
  unfold grant_trial_subscription
  refine hchecks.bind fun ⟨user, config, plan_id⟩ => ?_
  refine (Prog.writes_lift _).bind fun expires_at => ?_
  refine (Prog.writes_read _).bind fun id => ?_
  refine (Prog.writes_flush (h.add _)).bind fun _ => ?_
  refine (writes_assign h _).attempt.bind fun assigned => ?_
  cases assigned with
  | error e => exact Prog.writes_throw _
  | ok assigned =>
    refine (Prog.writes_flush (huser _)).bind fun _ => ?_
    refine (Prog.writes_flush (haction _)).bind fun _ => ?_
    exact Prog.writes_publish.bind fun _ => Prog.writes_pure _

/-! ## The links of the command /start -/

/-- The kind has the changes of a referral link. -/
structure Refers (P : Change → Prop) : Prop extends Looks P where
  user : ∀ u c, P (.setUser u (referred u c))
  event : ∀ e, P (.addReferralEvent e)
  gifted : ∀ a n, P (.setAccount a (gifted a n))
  reward : ∀ r u a n c, P (.addLedger (reward_entry r u a n c))

theorem writes_pay_referrer (h : Refers P) (user : UserPreference) (campaign : ReferralCampaign)
    (referrer_id : Nat) : (pay_referrer user campaign referrer_id).Writes P := by
  have hreward : (referral_reward).Writes P := by
    refine (Prog.writes_read _).bind fun config => ?_
    cases config with
    | none => exact Prog.writes_pure _
    | some config => exact Prog.writes_lift _
  unfold pay_referrer
  refine hreward.bind fun reward => ?_
  refine (Prog.writes_read _).bind fun referrer => ?_
  cases referrer with
  | none => exact Prog.writes_pure _
  | some referrer =>
    refine (writes_account referrer h.account).bind fun account => ?_
    refine (Prog.writes_flush (h.gifted _ _)).bind fun _ => ?_
    refine (writes_add_ledger (h.reward _ _ _ _ _)).bind fun _ => ?_
    exact Prog.writes_flush (h.event _)

theorem writes_follow_referral (h : Refers P) (user : UserPreference) (token : String) :
    (follow_referral user token).Writes P := by
  unfold follow_referral
  refine (Prog.writes_read _).bind fun campaign => ?_
  cases campaign with
  | none => exact Prog.writes_pure _
  | some campaign =>
    have hend : (do
        Prog.publish
        return referred user campaign : Tx UserPreference).Writes P :=
      Prog.writes_publish.bind fun _ => Prog.writes_pure _
    refine (Prog.writes_flush (h.user _ _)).bind fun _ => ?_
    refine (Prog.writes_flush (h.event _)).bind fun _ => ?_
    cases referrer_of user campaign with
    | none => exact (Prog.writes_pure ()).bind fun _ => hend
    | some n => exact (writes_pay_referrer h user campaign n).bind fun _ => hend

/-- The kind has the changes of a promotional link, apart from a gift. -/
structure Presents (P : Change → Prop) : Prop extends Looks P where
  click : ∀ c, P (.addClick c)
  settle : ∀ c c', P (.setClick c c')
  credit : ∀ u a l n r m, P (.addLedger (link_entry u a l n "promotional_link_credit" r m))
  discount : ∀ u a l r m,
    P (.addLedger (link_entry u a l 0 "promotional_link_topup_discount" r m))
  subscription : ∀ u, P (.addSubscription u)

/-- The kind has the changes of a promotional link. -/
structure Offers (P : Change → Prop) : Prop extends Presents P where
  gifted : ∀ a n, P (.setAccount a (gifted a n))

theorem writes_reply (sends : Reply → Bool) (r : Reply) : (reply_text sends r).Writes P :=
  Prog.writes_ite (Prog.writes_pure _) (Prog.writes_throw _)

theorem writes_settle (h : ∀ c c', P (.setClick c c')) (sends : Reply → Bool)
    (c c' : PromotionalLinkClick) (r : Reply) : (settle_click sends c c' r).Writes P :=
  (Prog.writes_flush (h c c')).bind fun _ => Prog.writes_publish.bind fun _ => writes_reply sends r

theorem writes_grant_credit (h : Offers P) (now : Datetime) (sends : Reply → Bool)
    (user : UserPreference) (link : PromotionalLink) (click : PromotionalLinkClick) :
    (grant_credit now sends user link click).Writes P := by
  unfold grant_credit
  refine (writes_account user h.account).bind fun account => ?_
  refine (Prog.writes_lift _).bind fun amount => ?_
  refine (Prog.writes_flush (h.gifted _ _)).bind fun _ => ?_
  refine (writes_add_ledger (h.credit _ _ _ _ _ _)).bind fun _ => ?_
  exact writes_settle h.settle _ _ _ _

theorem writes_grant_subscription (hsettle : ∀ c c', P (.setClick c c'))
    (hadd : ∀ u, P (.addSubscription u)) (now : Datetime) (sends : Reply → Bool)
    (user : UserPreference) (link : PromotionalLink) (click : PromotionalLinkClick) :
    (grant_subscription now sends user link click).Writes P := by
  unfold grant_subscription
  cases link.plan_id.filter (· ≠ 0) with
  | none => exact writes_settle hsettle _ _ _ _
  | some plan_id =>
    refine (Prog.writes_read _).bind fun plan => ?_
    cases plan with
    | none => exact writes_settle hsettle _ _ _ _
    | some plan =>
      refine (Prog.writes_read _).bind fun existing => ?_
      rcases existing with _ | ⟨x, _ | ⟨y, rest⟩⟩
      · refine (Prog.writes_lift _).bind fun duration => ?_
        refine (Prog.writes_lift _).bind fun expires_at => ?_
        exact (Prog.writes_flush (hadd _)).bind fun _ => writes_settle hsettle _ _ _ _
      · exact writes_settle hsettle _ _ _ _
      · exact Prog.writes_throw _

theorem writes_grant_discount (h : Presents P) (now : Datetime) (sends : Reply → Bool)
    (user : UserPreference) (link : PromotionalLink) (click : PromotionalLinkClick)
    (percent : String) : (grant_discount now sends user link click percent).Writes P := by
  unfold grant_discount
  refine (writes_account user h.account).bind fun account => ?_
  refine (writes_add_ledger (h.discount _ _ _ _ _)).bind fun _ => ?_
  exact writes_settle h.settle _ _ _ _

theorem writes_apply_offer (h : Offers P) (now : Datetime) (sends : Reply → Bool)
    (percent : String) (user : UserPreference) (link : PromotionalLink)
    (click : PromotionalLinkClick) :
    (apply_promotional_offer now sends percent user link click).Writes P := by
  have hgrant : (grant_offer now sends percent user link click).Writes P :=
    Prog.writes_ite (writes_grant_credit h _ _ _ _ _)
      (Prog.writes_ite (writes_grant_subscription h.settle h.subscription _ _ _ _ _)
        (Prog.writes_ite (writes_grant_discount h.toPresents _ _ _ _ _ _)
          (writes_settle h.settle _ _ _ _)))
  unfold apply_promotional_offer
  refine hgrant.attempt.bind fun done => ?_
  cases done with
  | ok _ => exact Prog.writes_pure _
  | error _ => exact writes_settle h.settle _ _ _ _

theorem writes_follow_offer (h : Offers P) (now : Datetime) (sends : Reply → Bool)
    (percent : String) (user : UserPreference) (code : String) :
    (follow_offer now sends percent user code).Writes P := by
  unfold follow_offer
  refine (Prog.writes_read _).bind fun link => ?_
  cases link with
  | none => exact writes_reply _ _
  | some link =>
    refine Prog.writes_ite (writes_reply _ _) ?_
    refine (Prog.writes_read _).bind fun id => ?_
    refine (Prog.writes_flush (h.click _)).bind fun _ => ?_
    refine (Prog.writes_read _).bind fun existing => ?_
    rcases existing with _ | ⟨x, _ | ⟨y, rest⟩⟩
    · exact (Prog.writes_read _).bind fun full =>
        Prog.writes_ite (writes_settle h.settle _ _ _ _) (writes_apply_offer h _ _ _ _ _ _)
    · exact writes_settle h.settle _ _ _ _
    · exact Prog.writes_throw _

theorem writes_name_admin (h : ∀ u n, P (.setUser u { u with preferred_name := n }))
    (sender : Sender) (user : UserPreference) : (name_admin sender user).Writes P :=
  Prog.writes_ite ((Prog.writes_flush (h _ _)).bind fun _ => Prog.writes_publish)
    (Prog.writes_pure _)

/-! ## Phone numbers -/

theorem writes_save_number {read user : UserPreference} {phone : String}
    (huser : P (.setUser read (registered user phone))) (hevent : ∀ e, P (.addReferralEvent e))
    (restored : Bool) : (save_number read user phone restored).Writes P := by
  have hlog : (log_referral_event user "signup").Writes P := by
    unfold log_referral_event
    split
    · exact Prog.writes_pure _
    · exact (Prog.writes_flush (hevent _)).bind fun _ => Prog.writes_publish
  unfold save_number
  refine (Prog.writes_flush huser).bind fun _ => ?_
  have hend : (do
      Prog.publish
      return if user.is_admin ≠ some true ∧ missing_preferred_name user then .ask_name
        else if restored then .restored
        else .saved : Tx Registered).Writes P :=
    Prog.writes_publish.bind fun _ => Prog.writes_pure _
  refine Prog.writes_ite (hlog.bind fun _ => hend) ?_
  exact hend

end dr_boz.writers
