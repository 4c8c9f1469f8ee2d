-- Law of the users whom an admin has blocked: no update of theirs changes the
-- status or raises a balance, apart from a few kinds of updates. A number
-- for an account without a name overwrites the status. A credit link and a
-- confirmed top-up pay whoever asks.
import DrBoz.BotUpdates
import DrBoz.ConfirmedPayments
import DrBoz.Lib.FreshCommits
import DrBoz.Lib.Runs
import DrBoz.Writers

open keyed_table unit_of_work dr_boz.py dr_boz.models dr_boz.codex_capacity dr_boz.toman_billing
open dr_boz.accounts dr_boz.views dr_boz.billing_runs dr_boz.chat_runs dr_boz.calls
open dr_boz.bot_users dr_boz.payment_payloads dr_boz.bot_payments dr_boz.bot_purchases
open dr_boz.confirmed_payments dr_boz.bot_start dr_boz.bot_phones dr_boz.bot_updates
open dr_boz.subscriptions dr_boz.commits dr_boz.writers

namespace dr_boz.blocked_users

/-! ## The standing of a user -/

/-- The user's row has the status that it had. -/
def SameStatus (u : Nat) (db db' : Db) : Prop :=
  ∀ r, db.users.get u = some r → ∃ r', db'.users.get u = some r' ∧
    r'.account_status = r.account_status ∧ r'.is_admin = r.is_admin

theorem SameStatus.refl (u : Nat) (db : Db) : SameStatus u db db := fun r h => ⟨r, h, rfl, rfl⟩

theorem SameStatus.trans {u : Nat} {db db' db'' : Db} (h : SameStatus u db db')
    (h' : SameStatus u db' db'') : SameStatus u db db'' := by
  intro r hr
  obtain ⟨r', hr', hs, ha⟩ := h r hr
  obtain ⟨r'', hr'', hs', ha'⟩ := h' r' hr'
  exact ⟨r'', hr'', hs'.trans hs, ha'.trans ha⟩

/-- The status of the user is as it was, and no balance has risen. -/
structure Stands (u : Nat) (db db' : Db) : Prop where
  status : SameStatus u db db'
  gift : intOr0 (accountRow db' u).gift_balance_toman ≤
    intOr0 (accountRow db u).gift_balance_toman
  paid : intOr0 (accountRow db' u).paid_balance_toman ≤
    intOr0 (accountRow db u).paid_balance_toman

namespace Stands
variable {u : Nat} {db db' db'' : Db}

theorem refl (u : Nat) (db : Db) : Stands u db db :=
  ⟨.refl u db, le_rfl, le_rfl⟩

theorem trans (h : Stands u db db') (h' : Stands u db' db'') : Stands u db db'' where
  status := h.status.trans h'.status
  gift := h'.gift.trans h.gift
  paid := h'.paid.trans h.paid

/-- The users are as they were. -/
theorem of_balances (hu : db'.users = db.users)
    (hg : intOr0 (accountRow db' u).gift_balance_toman ≤
      intOr0 (accountRow db u).gift_balance_toman)
    (hp : intOr0 (accountRow db' u).paid_balance_toman ≤
      intOr0 (accountRow db u).paid_balance_toman) : Stands u db db' :=
  ⟨fun r h => ⟨r, hu ▸ h, rfl, rfl⟩, hg, hp⟩

theorem of_kept (hu : db'.users = db.users) (h : Kept db db' u) : Stands u db db' :=
  of_balances hu h.1.le h.2.le

end Stands

/-- The change leaves the status and the balances of the user. -/
def stands (u : Nat) : Change → Prop
  | .setUser o n => n.id = u → n.account_status = o.account_status ∧ n.is_admin = o.is_admin
  | .addAccount a => intOr0 a.gift_balance_toman = 0 ∧ intOr0 a.paid_balance_toman = 0
  | .setAccount _ _ => False
  | _ => True

/-- An account row without money counts as the row that is not there. -/
theorem kept_new_account {db : Db} {a : UserBillingAccount}
    (hg : intOr0 a.gift_balance_toman = 0) (hp : intOr0 a.paid_balance_toman = 0) (u : Nat) :
    Kept db (db.apply (.addAccount a)) u := by
  unfold Kept accountRow Db.apply
  rcases Table.first_insert_cases db.accounts a fun x => x.user_id = u with
    h | ⟨hnone, -, hnew⟩
  · simp only
    rw [h]
    cases db.accounts.first fun x => x.user_id = u with
    | some x => exact ⟨rfl, rfl⟩
    | none => exact ⟨rfl, rfl⟩
  · simp only
    rw [hnew, hnone]
    exact ⟨hg, hp⟩

theorem stands_change {u : Nat} (db : Db) {c : Change} (h : stands u c) :
    Stands u db (db.apply c) := by
  cases c with
  | addUser a => exact ⟨fun r hr => ⟨r, Table.get_insert_some hr, rfl, rfl⟩, le_rfl, le_rfl⟩
  | setTelegramId id t =>
    refine ⟨fun r hr => ?_, le_rfl, le_rfl⟩
    rcases Table.get_rewrite_cases db.users id ({ · with telegram_user_id := t })
      (fun _ => rfl) u with hget | hget
    · exact ⟨r, hget.trans hr, rfl, rfl⟩
    · refine ⟨_, hget.trans (by rw [hr]; rfl), ?_, ?_⟩
      · split <;> rfl
      · split <;> rfl
  | setUser o n =>
    refine ⟨fun r hr => ?_, le_rfl, le_rfl⟩
    have hget := Table.get_update db.users n.id (UserPreference.merge o n) (fun _ => rfl)
      (fun _ => rfl) u
    by_cases hid : u = n.id
    · obtain ⟨hs, ha⟩ := h hid.symm
      rw [if_pos hid, hr] at hget
      refine ⟨_, hget, ?_, ?_⟩
      · simp [UserPreference.merge, col, hs]
      · simp [UserPreference.merge, col, ha]
    · rw [if_neg hid, hr] at hget
      exact ⟨r, hget, rfl, rfl⟩
  | addAccount a => exact .of_kept rfl (kept_new_account h.1 h.2 u)
  | setAccount o n => exact h.elim
  | addLedger | addSubscription | setSubscription | deleteSubscription | setPool | addConfig
  | addRedemption | setRedemption | addPaymentRequest | setPaymentRequest | addAdminAction
  | addWallet | setWallet | addCreditLedger | addReferralEvent | addClick | setClick
  | addStarterConfig | setStarterConfig =>
    exact .of_balances rfl le_rfl le_rfl

/-- What a program writes beside the status and the balances. -/
theorem stands_program {α : Type} {u : Nat} {x : Tx α} (h : x.Writes (stands u)) (db : Db) :
    Stands u db (x.run (.opened db)).2.stored :=
  (h.keeps (I := Stands u db) (fun s _ hc hs => hs.trans (stands_change s hc))
    ⟨.refl u db, .refl u db⟩).1

/-! ## A blocked user and the updates of this user -/

/-- The row is not an admin's, and an admin has blocked it. -/
def Blocked (r : UserPreference) : Prop := r.is_admin ≠ some true ∧ blocked r = true

def IsBlocked (u : Nat) (db : Db) : Prop := ∃ r, db.users.get u = some r ∧ Blocked r

theorem IsBlocked.stands {u : Nat} {db db' : Db} (hb : IsBlocked u db) (h : Stands u db db') :
    IsBlocked u db' := by
  obtain ⟨r, hr, hadmin, hblocked⟩ := hb
  obtain ⟨r', hr', hs, ha⟩ := h.status r hr
  refine ⟨r', hr', by rwa [ha], ?_⟩
  unfold blocked at hblocked ⊢
  rwa [hs]

/-- The update comes from the user. -/
def FromUser (u : Nat) (db : Db) (e : Sent) : Prop :=
  ∃ r, userOf db e.sender.id = some r ∧ r.id = u

/-- What the bot has of a blocked user, once it has found the row. -/
structure Found (u : Nat) (db : Db) (sender : Sender) (v : UserPreference) (d : Db) : Prop where
  run : (get_user sender.id sender.first_name sender.username).run (.opened db) =
    (.ok v, .opened d)
  again : (get_user sender.id sender.first_name sender.username).run (.opened d) =
    (.ok v, .opened d)
  id : v.id = u
  row : d.users.get u = some v
  blocked : Blocked v
  stands : Stands u db d

theorem Found.visitor {u : Nat} {db d : Db} {sender : Sender} {v : UserPreference}
    (h : Found u db sender v d) :
    bot_users.visitor db sender.id sender.first_name sender.username = some (v, d) := by
  unfold bot_users.visitor
  rw [h.run]
  rfl

theorem seen_blocked {r : UserPreference} (h : Blocked r) (f n : Option String) :
    seen r f n = { r with
      first_name := if truthy f then f else r.first_name
      username := if truthy n then n else r.username } := by
  obtain ⟨hadmin, hblocked⟩ := h
  unfold bot_users.blocked at hblocked
  simp [seen, user_onboarding_completed, mark_onboarding_pending, bot_users.blocked, hadmin,
    hblocked]

/-- The row does not change when the same sender comes again. -/
theorem seen_again {r : UserPreference} (h : Blocked r) (f n : Option String) :
    Blocked (seen r f n) ∧ seen (seen r f n) f n = seen r f n := by
  have hb : Blocked (seen r f n) := by
    rw [seen_blocked h]
    exact h
  refine ⟨hb, ?_⟩
  rw [seen_blocked hb, seen_blocked h]
  congr 1
  · simp only
    split <;> rfl
  · simp only
    split <;> rfl

theorem found {u : Nat} {db : Db} {e : Sent} (hb : IsBlocked u db) (h : FromUser u db e) :
    ∃ v d, Found u db e.sender v d := by
  obtain ⟨r, hr, rfl⟩ := h
  obtain ⟨r', hr', hblocked⟩ := hb
  have hget := get_userOf hr
  rw [hget] at hr'
  cases hr'
  obtain ⟨hv, hagain⟩ := seen_again hblocked e.sender.first_name e.sender.username
  have hrow := get_userOf (userOf_putUser hr (seen_id r e.sender.first_name e.sender.username)
    (seen_telegram r _ _))
  have hrun := run_get_user
    (userOf_putUser hr (seen_id r e.sender.first_name e.sender.username) (seen_telegram r _ _))
    e.sender.first_name e.sender.username
  rw [hagain, putUser_self hrow] at hrun
  refine ⟨_, _, run_get_user hr _ _, hrun, seen_id _ _ _, by rwa [seen_id] at hrow, hv, ?_⟩
  refine ⟨fun x hx => ?_, le_rfl, le_rfl⟩
  rw [hget] at hx
  cases hx
  rw [seen_id] at hrow
  refine ⟨_, hrow, ?_, ?_⟩
  · rw [seen_blocked hblocked]
  · rw [seen_blocked hblocked]

/-! ## A chat or a transcription that is charged -/

def Negative (db : Db) (u : Nat) : Prop := intOr0 (accountRow db u).gift_balance_toman < 0

/-- The chat is paid from the balances. -/
def PaysChat (now : Datetime) (db : Db) (c : ChatCall) : Prop :=
  c.commit = true ∧ ∃ q db', c.quote db = .ok q ∧ ledgerRow db c.idempotency_key = none ∧
    0 < q.billable_cost_toman ∧ LeftToBalances now db c.user.id db' ∧
    q.billable_cost_toman ≤ available (accountRow db c.user.id)

/-- The transcription is paid from the balances. -/
def PaysGeneric (db : Db) (c : GenericCall) : Prop :=
  c.commit = true ∧ ∃ cost, ledgerRow db c.idempotency_key = none ∧
    usd_cost (configRow db) c.cost_usd = .ok cost ∧ 0 < cost ∧
    cost ≤ available (accountRow db c.user.id)

theorem accounts_row {db db' : Db} {u : Nat} (h : db'.accounts = (withAccount db u).accounts) :
    accountRow db' u = accountRow db u := by
  refine accountRow_eq ?_
  rw [h]
  exact first_withAccount db u

/-- A call that looks for the account, and does not pay. -/
theorem stands_looked {db db' : Db} {u : Nat} (hu : db'.users = db.users)
    (h : db'.accounts = (withAccount db u).accounts) : Stands u db db' := by
  refine .of_kept hu ?_
  unfold Kept
  rw [accounts_row h]
  exact ⟨rfl, rfl⟩

theorem stands_charge {db db' : Db} {u : Nat} {cost : Int} {e : TomanLedgerEntry}
    (hu : db'.users = db.users) (h : db'.accounts = (withAccount db u).accounts)
    (hsafe : ¬Negative db u) (hpos : 0 < cost) :
    Stands u db (post db' (spent_gift_first (accountRow db u) cost) [e]) := by
  have hrow : accountRow (post db' (spent_gift_first (accountRow db u) cost) [e]) u =
      spent_gift_first (accountRow db u) cost :=
    accountRow_post _ (by rw [h]; exact first_withAccount db u) (owner_spent_gift_first _ _)
  have hgift : 0 ≤ intOr0 (accountRow db u).gift_balance_toman := not_lt.mp hsafe
  refine .of_balances hu ?_ ?_
  · rw [hrow]
    simp only [spent_gift_first, intOr0, Option.getD_some] at hgift ⊢
    omega
  · rw [hrow]
    simp only [spent_gift_first, intOr0, Option.getD_some] at hgift ⊢
    omega

theorem stands_chat {now : Datetime} {d : Db} {c : ChatCall}
    {r : Except PyError ChatUsageChargeResult} {s : Session Db}
    (h : ChatRun now c (.opened d) r s) (hsafe : ¬(Negative d c.user.id ∧ PaysChat now d c)) :
    Stands c.user.id d s.stored := by
  cases h with
  | covered q w v plan r hq hk hpos hc hv hr =>
    rw [Session.stored_commitIf]
    split
    · exact stands_looked rfl rfl
    · exact .refl _ _
  | paid q db e r hq hk hpos hb hle he ha hr =>
    rw [Session.stored_commitIf]
    split
    · rename_i hcommit
      have hneg : ¬Negative d c.user.id := fun hneg =>
        hsafe ⟨hneg, hcommit, q, db, hq, hk, hpos, hb, hle⟩
      exact stands_charge hb.users hb.frame.1 hneg hpos
    · exact .refl _ _
  | quote_raised | replay | free | no_plan | window_raised | start_raised | refused | conflict =>
    exact .refl _ _

theorem stands_generic {d : Db} {c : GenericCall} {r : Except PyError GenericUsageChargeResult}
    {s : Session Db} (h : GenericRun c (.opened d) r s)
    (hsafe : ¬(Negative d c.user.id ∧ PaysGeneric d c)) : Stands c.user.id d s.stored := by
  cases h with
  | paid cost e r hk hc hpos hle he ha hr =>
    rw [Session.stored_commitIf]
    split
    · rename_i hcommit
      have hneg : ¬Negative d c.user.id := fun hneg =>
        hsafe ⟨hneg, hcommit, cost, hk, hc, hpos, hle⟩
      exact stands_charge rfl rfl hneg hpos
    · exact .refl _ _
  | replay | raised | free | refused | conflict => exact .refl _ _

/-! ## A start with a link -/

/-- Each commit of the program leaves the user's standing, and so does its
end. -/
def KeepsStanding {α : Type} (u : Nat) (x : Tx α) (s : Session Db) : Prop :=
  x.wp (Stands u) (fun _ t => Stands u t.stored t.view) (fun _ t => Stands u t.stored t.view) s

section
variable {α β : Type} {u : Nat} {x : Tx α} {f : α → Tx β} {s : Session Db}

theorem KeepsStanding.bind (hx : KeepsStanding u x s)
    (hf : ∀ a t, Stands u t.stored t.view → KeepsStanding u (f a) t) :
    KeepsStanding u (x >>= f) s :=
  Prog.wp_bind (hx.mono (fun a t ht => hf a t ht) fun _ _ ht => ht)

theorem keeps_part (hx : x.Writes (stands u)) (hs : Stands u s.stored s.view) :
    KeepsStanding u x s :=
  hx.wp (fun s _ hc hs => hs.trans (stands_change s.view hc))
    (fun _ hs => ⟨hs, fun t _ => .refl u t⟩) hs

theorem KeepsStanding.ends {d : Db} (hx : KeepsStanding u x (.opened d)) :
    Stands u d (x.run (.opened d)).2.stored :=
  Prog.wp.alone (.refl u) (fun _ _ _ h h' => h.trans h') hx (.refl u d)

/-- A part that looks for an account goes on with the row. -/
theorem keeps_account {f : UserBillingAccount → Tx β} {user : UserPreference}
    (h : KeepsStanding u (f (accountRow s.view user.id))
      ⟨s.stored, withAccount s.view user.id⟩) :
    KeepsStanding u (get_or_create_billing_account user >>= f) s :=
  Prog.wp_bind (Prog.Silent.wp_run (silent_account user) (run_get_or_create_billing_account _ _) h)

end

theorem looks_stand (u : Nat) : Looks (stands u) where
  account _ := ⟨rfl, rfl⟩
  config := trivial

theorem presents_stand (u : Nat) : Presents (stands u) where
  toLooks := looks_stand u
  click _ := trivial
  settle _ _ := trivial
  credit _ _ _ _ _ _ := trivial
  discount _ _ _ _ _ := trivial
  subscription _ := trivial

/-! ### Gifts -/

theorem kept_first {db db' : Db} {u : Nat}
    (h : (db'.accounts.first fun a => a.user_id = u) = db.accounts.first fun a => a.user_id = u) :
    Kept db db' u := by
  unfold Kept accountRow
  rw [h]
  cases db.accounts.first fun a => a.user_id = u with
  | some a => exact ⟨rfl, rfl⟩
  | none => exact ⟨rfl, rfl⟩

theorem stands_withAccount (u : Nat) (db : Db) (n : Nat) : Stands u db (withAccount db n) := by
  cases h : db.accounts.first fun a => a.user_id = n with
  | some a =>
    rw [withAccount_eq h]
    exact .refl u db
  | none =>
    have hnew : withAccount db n = db.apply (.addAccount { user_id := n }) := by
      unfold withAccount
      rw [h]
      rfl
    rw [hnew]
    exact stands_change db ⟨rfl, rfl⟩

/-- A gift to another user. -/
theorem stands_gift_other {db : Db} {u n : Nat} (amount : Int) (hne : n ≠ u) :
    Stands u db ((withAccount db n).apply
      (.setAccount (accountRow db n) (gifted (accountRow db n) amount))) := by
  refine (stands_withAccount u db n).trans ?_
  rw [apply_setAccount (get_accountRow db n) (owner_gifted _ amount)]
  refine .of_kept rfl (kept_first ?_)
  have hother : ¬decide ((accountRow db n).user_id = u) = true := by
    simpa [accountRow_user] using hne
  exact Table.first_put_of_not (get_accountRow db n) ⟨rfl, rfl⟩ hother hother

/-- A gift that gives nothing. -/
theorem stands_gift_of_nothing {db : Db} {u : Nat} {amount : Int} (h : amount ≤ 0) :
    Stands u db ((withAccount db u).apply
      (.setAccount (accountRow db u) (gifted (accountRow db u) amount))) := by
  rw [apply_setAccount (get_accountRow db u) (owner_gifted _ amount)]
  have hrow : accountRow (putAccount (withAccount db u) (gifted (accountRow db u) amount)) u =
      gifted (accountRow db u) amount :=
    accountRow_post [] (first_withAccount db u) (owner_gifted _ amount)
  refine .of_balances rfl ?_ ?_
  · rw [hrow]
    simp only [gifted, intOr0, Option.getD_some]
    omega
  · rw [hrow]
    rfl

/-! ### The two kinds of links -/

/-- The link's offer is a credit for the user, and all of its checks pass. -/
def GivesCredit (now : Datetime) (db : Db) (u : Nat) (code : String) : Prop :=
  ∃ link amount,
    (db.promotional_links.first fun l => l.code = code && l.is_active = some true) = some link ∧
    link.expires_at.any (· < now) = false ∧ link.offer_type = "credit_grant" ∧
    (db.promotional_link_clicks.rows.filter fun c => c.promotional_link_id = link.id &&
      c.user_id = u && c.redemption_status = some "redeemed") = [] ∧
    link_full link db = false ∧ link.offer_value_toman = some amount ∧ 0 < amount

theorem keeps_grant_credit {u : Nat} {now : Datetime} {sends : Reply → Bool}
    {v : UserPreference} {link : PromotionalLink} {click : PromotionalLinkClick} {s : Session Db}
    (hid : v.id = u) (hno : ∀ amount, link.offer_value_toman = some amount → amount ≤ 0)
    (hs : Stands u s.stored s.view) :
    KeepsStanding u (grant_credit now sends v link click) s := by
  subst hid
  refine keeps_account ?_
  refine Prog.wp_bind (Prog.wp_lift (fun amount ha => ?_) fun e _ => ?_)
  · have hamount : amount ≤ 0 := by
      cases hv : link.offer_value_toman with
      | none =>
        rw [hv] at ha
        cases ha
      | some n =>
        rw [hv] at ha
        cases ha
        exact hno amount hv
    refine Prog.wp_bind (Prog.wp_flush fun _ => ?_)
    refine keeps_part ?_ (hs.trans (stands_gift_of_nothing hamount))
    exact (writes_add_ledger trivial).bind fun _ => writes_settle (fun _ _ => trivial) _ _ _ _
  · exact hs.trans (stands_withAccount _ _ _)

theorem keeps_apply_offer {u : Nat} {now : Datetime} {sends : Reply → Bool} {percent : String}
    {v : UserPreference} {link : PromotionalLink} {click : PromotionalLinkClick} {s : Session Db}
    (hid : v.id = u)
    (hno : link.offer_type = "credit_grant" →
      ∀ amount, link.offer_value_toman = some amount → amount ≤ 0)
    (hs : Stands u s.stored s.view) :
    KeepsStanding u (apply_promotional_offer now sends percent v link click) s := by
  have hsettle : ∀ c' r, (settle_click sends click c' r).Writes (stands u) := fun c' r =>
    writes_settle (fun _ _ => trivial) sends click c' r
  have hgrant : KeepsStanding u (grant_offer now sends percent v link click) s := by
    refine Prog.wp_ite (fun htype => keeps_grant_credit hid (hno htype) hs) fun _ => ?_
    refine keeps_part ?_ hs
    exact Prog.writes_ite (writes_grant_subscription (presents_stand u).settle
        (presents_stand u).subscription _ _ _ _ _)
      (Prog.writes_ite (writes_grant_discount (presents_stand u) _ _ _ _ _ _) (hsettle _ _))
  refine Prog.wp_bind (Prog.wp_attempt (hgrant.mono (fun _ t ht => ?_) fun _ t ht => ?_))
  · exact Prog.wp_pure ht
  · exact keeps_part (hsettle _ _) ht

/-- The click of the start itself is not a redeemed one. -/
theorem redeemed_before (d : Db) {click : PromotionalLinkClick}
    (h : click.redemption_status = some "pending") (p : PromotionalLinkClick → Bool) :
    let q := fun c : PromotionalLinkClick => p c && c.redemption_status = some "redeemed"
    (d.apply (.addClick click)).promotional_link_clicks.rows.filter q =
        d.promotional_link_clicks.rows.filter q ∧
      (d.apply (.addClick click)).promotional_link_clicks.count q =
        d.promotional_link_clicks.count q := by
  intro q
  have hacc : d.promotional_link_clicks.Accepts click := Table.accepts_of_no_unique rfl
  have hq : q (Row.setKey click d.promotional_link_clicks.nextKey) = false := by
    simp only [q, Bool.and_eq_false_iff]
    right
    exact decide_eq_false (by rw [show (Row.setKey click d.promotional_link_clicks.nextKey :
      PromotionalLinkClick).redemption_status = click.redemption_status from rfl, h]; decide)
  constructor
  · change (d.promotional_link_clicks.insert click).rows.filter q = _
    rw [Table.rows_insert hacc, List.filter_append, List.filter_cons_of_neg (by rw [hq]; decide),
      List.filter_nil, List.append_nil]
  · change (d.promotional_link_clicks.insert click).count q = _
    rw [Table.count_insert hacc, hq]
    rfl

theorem keeps_follow_offer {u : Nat} {now : Datetime} {sends : Reply → Bool} {percent : String}
    {v : UserPreference} {code : String} {d : Db} (hid : v.id = u)
    (hno : ¬GivesCredit now d u code) :
    KeepsStanding u (follow_offer now sends percent v code) (.opened d) := by
  have hsettle : ∀ c c' r, (settle_click sends c c' r).Writes (stands u) := fun c c' r =>
    writes_settle (fun _ _ => trivial) sends c c' r
  unfold follow_offer
  refine Prog.wp_bind (Prog.wp_read ?_)
  simp only [Session.view_opened]
  cases hl : d.promotional_links.first fun l => l.code = code && l.is_active = some true with
  | none => exact keeps_part (writes_reply _ _) (.refl u d)
  | some link =>
    refine Prog.wp_ite (fun _ => keeps_part (writes_reply _ _) (.refl u d)) fun hfresh => ?_
    refine Prog.wp_bind (Prog.wp_read (Prog.wp_bind (Prog.wp_flush fun _ => ?_)))
    refine Prog.wp_bind (Prog.wp_read ?_)
    have hs : Stands u d (d.apply (.addClick
        { promotional_link_id := link.id, user_id := v.id })) := stands_change d trivial
    let click : PromotionalLinkClick := { promotional_link_id := link.id, user_id := v.id }
    have hpending : click.redemption_status = some "pending" := rfl
    have hredeemed := (redeemed_before d hpending fun c =>
      c.promotional_link_id = link.id && c.user_id = v.id).1
    have hfull : link_full link (d.apply (.addClick
        { promotional_link_id := link.id, user_id := v.id })) = link_full link d := by
      unfold link_full
      rw [(redeemed_before d hpending fun c => c.promotional_link_id = link.id).2]
    simp only [Session.view_opened, Session.stored_opened, store_apply]
    rw [hredeemed]
    split
    · exact Prog.wp_throw hs
    · exact keeps_part (hsettle _ _ _) hs
    · rename_i hnone
      refine Prog.wp_bind (Prog.wp_read ?_)
      refine Prog.wp_ite (fun _ => keeps_part (hsettle _ _ _) hs) fun hroom => ?_
      refine keeps_apply_offer hid (fun htype amount hvalue => ?_) hs
      by_contra hpos
      refine hno ⟨link, amount, hl, Bool.eq_false_iff.mpr hfresh, htype, hid ▸ hnone, ?_, hvalue,
        not_le.mp hpos⟩
      exact hfull ▸ Bool.eq_false_iff.mpr hroom

/-- A referral pays another user than the one who followed the link. -/
theorem keeps_pay_referrer {u n : Nat} {v : UserPreference} {campaign : ReferralCampaign}
    {s : Session Db} (hne : n ≠ u) (hs : Stands u s.stored s.view) :
    KeepsStanding u (pay_referrer v campaign n) s := by
  have hreward : (referral_reward).Writes (stands u) := by
    refine (Prog.writes_read _).bind fun config => ?_
    cases config with
    | none => exact Prog.writes_pure _
    | some config => exact Prog.writes_lift _
  refine (keeps_part hreward hs).bind fun reward t ht => ?_
  refine Prog.wp_bind (Prog.wp_read ?_)
  cases hr : t.view.users.get n with
  | none => exact Prog.wp_pure ht
  | some referrer =>
    obtain rfl : referrer.id = n := ((Table.get_eq_some _).mp hr).2
    refine keeps_account (Prog.wp_bind (Prog.wp_flush fun _ => ?_))
    refine keeps_part ?_ (ht.trans (stands_gift_other reward hne))
    exact (writes_add_ledger trivial).bind fun _ => Prog.writes_flush trivial

theorem keeps_follow_referral {u : Nat} {v : UserPreference} {token : String} {d : Db}
    (hid : v.id = u) : KeepsStanding u (follow_referral v token) (.opened d) := by
  unfold follow_referral
  refine Prog.wp_bind (Prog.wp_read ?_)
  cases (Session.opened d).view.referral_campaigns.first fun c => c.code = token with
  | none => exact Prog.wp_pure (.refl u d)
  | some campaign =>
    have huser : stands u (.setUser v (referred v campaign)) := fun _ => by
      unfold referred
      split <;> exact ⟨rfl, rfl⟩
    have hevent : ∀ {e}, stands u (.addReferralEvent e) := trivial
    have hend : ∀ t : Session Db, Stands u t.stored t.view → KeepsStanding u (do
        Prog.publish
        return referred v campaign : Tx UserPreference) t := fun t ht =>
      keeps_part (Prog.writes_publish.bind fun _ => Prog.writes_pure _) ht
    refine (keeps_part (Prog.writes_flush huser) (.refl u d)).bind fun _ t ht => ?_
    refine (keeps_part (Prog.writes_flush hevent) ht).bind fun _ t ht => ?_
    cases hn : referrer_of v campaign with
    | none => exact hend t ht
    | some n =>
      have hne : n ≠ u := by
        have hfilter := (Option.filter_eq_some_iff.mp hn).2
        simp only [Bool.and_eq_true, decide_eq_true_eq] at hfilter
        exact hid ▸ hfilter.2
      exact (keeps_pay_referrer hne ht).bind fun _ t ht => hend t ht

theorem stands_start {u : Nat} {db d : Db} {sender : Sender} {v : UserPreference}
    (h : Found u db sender v d) {now : Datetime} {sends : Reply → Bool} {percent : String}
    {arg : Option String}
    (hno : ∀ code, start_payload arg = .offer code → ¬GivesCredit now d u code) :
    Stands u db ((cmd_start now sends percent sender arg).run (.opened db)).2.stored := by
  have hname : ∀ w, (name_admin sender w).Writes (stands u) := fun w =>
    writes_name_admin (fun _ _ _ => ⟨rfl, rfl⟩) sender w
  refine h.stands.trans ?_
  unfold cmd_start
  rw [Prog.run_bind, h.run, Prog.continueWith_ok]
  cases hp : start_payload arg with
  | referral token =>
    exact ((keeps_follow_referral h.id).bind fun w _ ht => keeps_part (hname w) ht).ends
  | offer code =>
    exact ((keeps_follow_offer h.id (hno code hp)).bind fun _ _ ht => keeps_part (hname v) ht).ends
  | other => exact stands_program (hname v) d

/-! ## Payments and subscriptions -/

/-- The changes that leave the status, whatever they do to the balances. -/
def keeps_status (u : Nat) : Change → Prop
  | .setUser o n => n.id = u → n.account_status = o.account_status ∧ n.is_admin = o.is_admin
  | _ => True

theorem status_change {u : Nat} (db : Db) {c : Change} (hc : keeps_status u c) :
    SameStatus u db (db.apply c) := by
  cases c with
  | addAccount a => exact .refl u db
  | setAccount o n => exact .refl u db
  | setUser o n => exact (stands_change (c := .setUser o n) db hc).status
  | addUser a => exact (stands_change (c := .addUser a) db trivial).status
  | setTelegramId id t => exact (stands_change (c := .setTelegramId id t) db trivial).status
  | addLedger | addSubscription | setSubscription | deleteSubscription | setPool | addConfig
  | addRedemption | setRedemption | addPaymentRequest | setPaymentRequest | addAdminAction
  | addWallet | setWallet | addCreditLedger | addReferralEvent | addClick | setClick
  | addStarterConfig | setStarterConfig =>
    exact .refl u db

theorem status_program {α : Type} {u : Nat} {x : Tx α} (h : x.Writes (keeps_status u)) (db : Db) :
    SameStatus u db (x.run (.opened db)).2.stored :=
  (h.keeps (I := SameStatus u db) (fun s _ hc hs => hs.trans (status_change s hc))
    ⟨.refl u db, .refl u db⟩).1

theorem sales_keep_status (u : Nat) : Sales (keeps_status u) where
  account _ := trivial
  config := trivial
  add _ := trivial
  assign _ _ := trivial
  delete _ := trivial
  pool _ _ := trivial
  spent _ _ := trivial
  bought _ _ _ _ _ := trivial
  topped_up _ _ := trivial
  entry _ := trivial

theorem subscribes_stand (u : Nat) : Subscribes (stands u) where
  add _ := trivial
  assign _ _ := trivial
  delete _ := trivial
  pool _ _ := trivial

/-- A confirmed payment that credits nothing. -/
theorem stands_payment {u : Nat} {db d : Db} {sender : Sender} {v : UserPreference}
    (h : Found u db sender v d) {now : Datetime} {payment : Payment}
    (hno : ∀ p, checked_payload sender payment = .ok (.toman_topup p) →
      ¬Credits now d u p (topup_key now sender p payment)) :
    Stands u db (confirmed now sender payment db) := by
  have hstatus : SameStatus u db (confirmed now sender payment db) := by
    unfold confirmed
    rcases writes_payment (sales_keep_status u) now sender payment with
      ⟨answer, hx⟩ | ⟨f, hx, hf⟩
    · rw [hx]
      exact .refl u db
    · rw [hx, Prog.run_bind, h.run, Prog.continueWith_ok]
      exact h.stands.status.trans (status_program (hf v) d)
  cases hp : checked_payload sender payment with
  | error answer =>
    have hx : confirmed now sender payment db = db := by
      unfold confirmed handle_successful_payment
      rw [hp]
      rfl
    rw [hx]
    exact .refl u db
  | ok payload =>
    rcases confirmation_cases now hp h.visitor with ⟨hmeets, happlied, -⟩ | ⟨-, hx⟩
    · rw [h.id] at hmeets happlied
      cases payload with
      | subscription p =>
        obtain ⟨hg, hpaid⟩ := happlied.1
        exact ⟨hstatus, hg.le.trans h.stands.gift, hpaid.le.trans h.stands.paid⟩
      | toman_topup p => exact absurd hmeets (hno p hp)
    · rw [hx]
      exact h.stands

theorem stands_pay_subscription {u : Nat} {d : Db} {v : UserPreference} (hid : v.id = u)
    (now : Datetime) (platform : Platform) (sender : Sender) (plan : SubscriptionPlan)
    (use_wallet : Bool) :
    Stands u d ((pay_subscription now platform sender v plan use_wallet).run
      (.opened d)).2.stored := by
  have hstatus : SameStatus u d ((pay_subscription now platform sender v plan use_wallet).run
      (.opened d)).2.stored :=
    status_program (writes_pay_subscription (sales_keep_status u) _ _ _ _ _ _) d
  obtain ⟨hbuys, hinvoice⟩ :=
    run_pay_subscription now platform sender v plan use_wallet (.opened d)
  by_cases hpay : payable_toman use_wallet (available (accountRow d v.id))
      (price_toman plan (configRow d)) ≤ 0
  · rcases hbuys hpay with ⟨-, db', hx, hsold⟩ | ⟨-, hx, -⟩
    · rw [hid] at hsold
      rw [hx] at hstatus ⊢
      exact ⟨hstatus, hsold.gift.le, hsold.paid.le⟩
    · exact hx ▸ .refl u d
  · exact (hinvoice (not_le.mp hpay)).1 ▸ .refl u d

theorem stands_subscribe {u : Nat} {db d : Db} {sender : Sender} {v : UserPreference}
    (h : Found u db sender v d) (now : Datetime) (platform : Platform) (plan_id : Nat)
    (use_wallet : Bool) :
    Stands u db ((start_subscription_payment now platform sender plan_id use_wallet).run
      (.opened db)).2.stored := by
  unfold start_subscription_payment
  simp only [Prog.run_bind, is_sub_feature_enabled, Prog.run_read, Prog.continueWith_ok]
  split
  · exact .refl u db
  · rw [Prog.run_bind, Prog.run_read, Prog.continueWith_ok]
    cases (Session.opened db).view.plans.get plan_id with
    | none => exact .refl u db
    | some plan =>
      simp only
      rw [Prog.run_bind, h.run, Prog.continueWith_ok, Prog.run_bind, Prog.run_read,
        Prog.continueWith_ok]
      split
      · exact h.stands
      · exact h.stands.trans (stands_pay_subscription h.id _ _ _ _ _)

theorem stands_trial {u : Nat} {db d : Db} {sender : Sender} {v : UserPreference}
    (h : Found u db sender v d) (now : Datetime) :
    Stands u db ((handle_activate_trial_callback now sender).run (.opened db)).2.stored := by
  have hgrant : ∀ id reason, (grant_trial_subscription now id reason).Writes (stands u) :=
    fun id reason => writes_trial (subscribes_stand u) (fun _ _ => ⟨rfl, rfl⟩) (fun _ => trivial)
      now id reason
  unfold handle_activate_trial_callback
  rw [Prog.run_bind, h.run, Prog.continueWith_ok]
  refine h.stands.trans (stands_program ?_ d)
  exact Prog.writes_ite (Prog.writes_pure _)
    ((hgrant _ _).attempt.bind fun _ => Prog.writes_pure _)

/-! ## Names and numbers -/

theorem complete_blocked {r : UserPreference} (h : Blocked r) :
    (mark_onboarding_complete r).account_status = r.account_status ∧
      (mark_onboarding_complete r).is_admin = r.is_admin := by
  unfold mark_onboarding_complete
  rw [if_pos (.inr h.2)]
  exact ⟨rfl, rfl⟩

theorem stands_name {u : Nat} {db d : Db} {sender : Sender} {v : UserPreference}
    (h : Found u db sender v d) (content : String) :
    Stands u db ((handle_name sender content).run (.opened db)).2.stored := by
  unfold handle_name
  simp only
  split
  · exact .refl u db
  · rw [Prog.run_bind, h.run, Prog.continueWith_ok]
    refine h.stands.trans (stands_program ?_ d)
    refine (Prog.writes_flush fun _ => ?_).bind fun _ => Prog.writes_publish
    exact complete_blocked (r := { v with preferred_name := some (strip content) }) h.blocked

/-- The number is saved on the sender's own account, and the account has no
name. -/
def AsksName (d : Db) (v : UserPreference) (raw_phone : String) : Prop :=
  phone_of raw_phone ≠ "" ∧ missing_preferred_name v = true ∧
    ∃ o, found_by_phone d (phone_of raw_phone) = .ok o ∧ o.filter (·.id ≠ v.id) = none

theorem registered_id (user : UserPreference) (phone : String) :
    (registered user phone).id = user.id := by
  unfold registered mark_onboarding_complete
  simp only
  split_ifs <;> rfl

theorem stands_save_phone {u : Nat} {db d : Db} {sender : Sender} {v : UserPreference}
    (h : Found u db sender v d) {raw_phone : String} (hno : ¬AsksName d v raw_phone) :
    Stands u db ((save_phone_onboarding_and_reply sender raw_phone).run (.opened db)).2.stored := by
  unfold save_phone_onboarding_and_reply
  simp only
  split
  · exact .refl u db
  · rename_i hphone
    rw [Prog.run_bind, h.run, Prog.continueWith_ok, Prog.run_bind, run_get_user_by_phone]
    cases ho : found_by_phone (Session.opened d).view (phone_of raw_phone) with
    | error e => exact h.stands
    | ok o =>
      rw [Prog.continueWith_ok]
      refine h.stands.trans ?_
      cases hother : o.filter (·.id ≠ v.id) with
      | none =>
        have hname : missing_preferred_name v = false := by
          by_contra hname
          exact hno ⟨hphone, Bool.eq_true_of_not_eq_false hname, o, ho, hother⟩
        refine stands_program (writes_save_number (fun _ => ?_) (fun _ => trivial) _) d
        have hname' : missing_preferred_name { v with phone_number := some (phone_of raw_phone) } =
            false := hname
        unfold registered
        simp only [if_neg h.blocked.1, hname', Bool.false_eq_true, if_false]
        exact complete_blocked (r := { v with phone_number := some (phone_of raw_phone) }) h.blocked
      | some account =>
        have hne : account.id ≠ u := by
          have := (Option.filter_eq_some_iff.mp hother).2
          exact h.id ▸ (by simpa using this)
        have hrebind : (rebind sender account).Writes (stands u) := by
          refine (Prog.writes_read _).bind fun holder => ?_
          cases holder.filter (·.id ≠ account.id) with
          | none => exact (Prog.writes_pure _).bind fun _ => Prog.writes_flush trivial
          | some holder =>
            exact (Prog.writes_flush trivial).bind fun _ => Prog.writes_flush trivial
        refine stands_program (hrebind.bind fun _ =>
          writes_save_number (fun hid => ?_) (fun _ => trivial) _) d
        rw [registered_id] at hid
        exact absurd hid hne

/-! ## One update -/

/-- The updates that change a blocked user's standing: a link with a credit, a
number for an account without a name, a confirmed top-up, and a charge that
fills a negative gift balance up from the paid one. -/
def Harms (d : Db) (v : UserPreference) (sender : Sender) : Update → Prop
  | .start now _ _ arg => ∃ code, start_payload arg = .offer code ∧ GivesCredit now d v.id code
  | .contact is_bale shared =>
    ¬(of_another sender shared = true ∧ is_bale = false) ∧ AsksName d v shared.phone_number
  | .phone_text normalized =>
    PHONE_TEXT_RE normalized = true ∧ missing_phone v = true ∧ AsksName d v normalized
  | .payment now reported => ∃ p, checked_payload sender reported = .ok (.toman_topup p) ∧
      Credits now d v.id p (topup_key now sender p reported)
  | .resume_chat now c => Negative d v.id ∧ PaysChat now d { c with user := v }
  | .resume_voice c => Negative d v.id ∧ PaysGeneric d { c with user := v }
  | _ => False

def Harmful (db : Db) (e : Sent) : Prop :=
  ∃ v d, visitor db e.sender.id e.sender.first_name e.sender.username = some (v, d) ∧
    Harms d v e.sender e.update

theorem stands_contact {u : Nat} {db d : Db} {sender : Sender} {v : UserPreference}
    (h : Found u db sender v d) {is_bale : Bool} {shared : Contact}
    (hno : ¬(of_another sender shared = true ∧ is_bale = false) →
      ¬AsksName d v shared.phone_number) :
    Stands u db ((handle_contact is_bale sender shared).run (.opened db)).2.stored := by
  unfold handle_contact
  split
  · exact .refl u db
  · rename_i hown
    exact stands_save_phone h (hno hown)

theorem stands_phone_text {u : Nat} {db d : Db} {sender : Sender} {v : UserPreference}
    (h : Found u db sender v d) {text : String}
    (hno : PHONE_TEXT_RE text = true → missing_phone v = true → ¬AsksName d v text) :
    Stands u db ((handle_phone_text sender text).run (.opened db)).2.stored := by
  unfold handle_phone_text
  split
  · rename_i htext
    rw [Prog.run_bind, h.run, Prog.continueWith_ok]
    split
    · rename_i hmissing
      have hsecond : Found u d sender v d :=
        ⟨h.again, h.again, h.id, h.row, h.blocked, .refl u d⟩
      have hsaved := stands_save_phone hsecond (hno htext hmissing.2)
      rw [Prog.run_bind]
      refine h.stands.trans ?_
      generalize (save_phone_onboarding_and_reply sender text).run (.opened d) = y at hsaved ⊢
      obtain ⟨e | a, t⟩ := y
      · exact hsaved
      · exact hsaved
    · exact h.stands
  · exact .refl u db

/-- An update of a blocked user that is not one of the harmful ones leaves the
status and raises no balance. -/
theorem stands_update {u : Nat} {db : Db} {e : Sent} (hb : IsBlocked u db)
    (hfrom : FromUser u db e) (hno : ¬Harmful db e) : Stands u db (e.run db) := by
  obtain ⟨v, d, h⟩ := found hb hfrom
  have hsafe : ¬Harms d v e.sender e.update := fun hh => hno ⟨v, d, h.visitor, hh⟩
  clear hno hfrom
  obtain ⟨sender, update⟩ := e
  unfold Sent.run
  simp only at h hsafe ⊢
  cases update with
  | start now sends percent arg =>
    simp only [Harms] at hsafe
    simp only [Update.prog]
    exact stands_start h fun code hp hg => hsafe ⟨code, hp, h.id.symm ▸ hg⟩
  | contact is_bale shared =>
    simp only [Harms] at hsafe
    simp only [Update.prog]
    rw [run_discard]
    exact stands_contact h fun hown hasks => hsafe ⟨hown, hasks⟩
  | phone_text text =>
    simp only [Harms] at hsafe
    simp only [Update.prog]
    rw [run_discard]
    exact stands_phone_text h fun htext hmissing hasks => hsafe ⟨htext, hmissing, hasks⟩
  | name content =>
    simp only [Update.prog]
    exact stands_name h content
  | payment now reported =>
    simp only [Harms] at hsafe
    simp only [Update.prog]
    rw [run_discard]
    exact stands_payment h fun p hp hc => hsafe ⟨p, hp, h.id.symm ▸ hc⟩
  | subscribe now platform plan_id use_wallet =>
    simp only [Update.prog]
    rw [run_discard]
    exact stands_subscribe h now platform plan_id use_wallet
  | trial now => exact stands_trial h now
  | resume_chat now c =>
    simp only [Update.prog]
    rw [Prog.run_bind, h.run, Prog.continueWith_ok, run_discard]
    have hchat := stands_chat (chatRun now { c with user := v } (.opened d)) hsafe
    simp only [h.id] at hchat
    exact h.stands.trans hchat
  | resume_voice c =>
    simp only [Update.prog]
    rw [Prog.run_bind, h.run, Prog.continueWith_ok, run_discard]
    have hvoice := stands_generic (genericRun { c with user := v } (.opened d)) hsafe
    simp only [h.id] at hvoice
    exact h.stands.trans hvoice
  | behind_gate rest hrest =>
    have hgate : ensure_onboarding_or_prompt v = false := by
      unfold ensure_onboarding_or_prompt
      rw [h.blocked.2]
      rfl
    simp only [Update.prog]
    rw [Prog.run_bind, h.run, Prog.continueWith_ok, hgate]
    exact h.stands
  | open_to_all rest hrest =>
    simp only [Update.prog]
    rw [Prog.run_bind, h.run, Prog.continueWith_ok]
    refine h.stands.trans (stands_program ((hrest v).mono fun c hc => ?_) d)
    cases c with
    | setUser o n => exact fun _ => hc
    | addAccount a => exact hc
    | setAccount o n => exact hc.elim
    | setTelegramId id t => exact hc.elim
    | addUser | addLedger | addSubscription | setSubscription | deleteSubscription | setPool
    | addConfig | addRedemption | setRedemption | addPaymentRequest | setPaymentRequest
    | addAdminAction | addWallet | setWallet | addCreditLedger | addReferralEvent | addClick
    | setClick | addStarterConfig | setStarterConfig => exact trivial

/-! ## Law -/

/-- No balance of the user is higher than before. -/
structure NotRisen (u : Nat) (db db' : Db) : Prop where
  gift : intOr0 (accountRow db' u).gift_balance_toman ≤
    intOr0 (accountRow db u).gift_balance_toman
  paid : intOr0 (accountRow db' u).paid_balance_toman ≤
    intOr0 (accountRow db u).paid_balance_toman

/-- Through the whole run, the user stays blocked and gains nothing. -/
def StaysBlocked (u : Nat) (db : Db) (es : List Sent) : Prop :=
  runs.Each Sent.run (fun db e => IsBlocked u (e.run db) ∧ NotRisen u db (e.run db)) db es

/-- LAW: A blocked user stays blocked, and no balance of this user rises, in
every run of the user's own updates without a harmful one. -/
theorem a_blocked_user_stays_blocked (u : Nat) (db : Db) (es : List Sent)
    (hblocked : IsBlocked u db) (hfrom : runs.Each Sent.run (FromUser u) db es)
    (hno : runs.Each Sent.run (fun db e => ¬Harmful db e) db es) : StaysBlocked u db es := by
  have hboth : runs.Each Sent.run (fun db e => FromUser u db e ∧ ¬Harmful db e) db es :=
    runs.each_and.mpr ⟨hfrom, hno⟩
  have hkeeps : ∀ db e, IsBlocked u db → FromUser u db e ∧ ¬Harmful db e → IsBlocked u (e.run db) :=
    fun db e hb he => hb.stands (stands_update hb he.1 he.2)
  refine (hboth.finds hkeeps hblocked).mono fun db e ⟨hb, hf, hn⟩ => ?_
  have hstands := stands_update hb hf hn
  exact ⟨hb.stands hstands, hstands.gift, hstands.paid⟩

/-- The shop after an admin has suspended the customer, who has no name yet. -/
def suspended_shop : Db :=
  { shop with users := Table.empty.insert { customer with account_status := some "suspended" } }

theorem customer_is_blocked : IsBlocked 1 suspended_shop :=
  ⟨{ customer with account_status := some "suspended" }, by decide +kernel, by decide,
    by decide +kernel⟩

theorem from_customer {db : Db} {e : Sent}
    (h : (userOf db e.sender.id).map (·.id) = some 1) : FromUser 1 db e := by
  obtain ⟨r, hr, hid⟩ := Option.map_eq_some_iff.mp h
  exact ⟨r, hr, hid⟩

/-- A name and a trial, for example. -/
theorem a_name_unblocks_nobody :
    StaysBlocked 1 suspended_shop [⟨buyer, .name "Sara"⟩, ⟨buyer, .trial noon⟩] := by
  refine a_blocked_user_stays_blocked 1 suspended_shop _ customer_is_blocked
    ⟨from_customer (by decide +kernel), from_customer (by decide +kernel), trivial⟩
    ⟨?_, ?_, trivial⟩
  · rintro ⟨v, d, -, h⟩
    exact h
  · rintro ⟨v, d, -, h⟩
    exact h

/-- The suspended customer shares the own number, and the account waits for a
name instead. -/
theorem a_number_unblocks_the_customer :
    ¬∀ u db es, IsBlocked u db → runs.Each Sent.run (FromUser u) db es → StaysBlocked u db es := by
  intro h
  have hrun := h 1 suspended_shop [⟨buyer, .contact false ⟨some 100, "09120000000"⟩⟩]
    customer_is_blocked ⟨from_customer (by decide +kernel), trivial⟩
  obtain ⟨⟨⟨r, hr, -, hblocked⟩, -⟩, -⟩ := hrun
  have hrow : ((Sent.run suspended_shop ⟨buyer, .contact false ⟨some 100, "09120000000"⟩⟩).users.get
      1).map blocked = some false := by
    decide +kernel
  rw [hr, Option.map_some, hblocked] at hrow
  cases hrow

end dr_boz.blocked_users
