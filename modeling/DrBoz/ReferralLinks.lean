-- Law of the referral links that the bot shows (`account_referral_copy`). One
-- column of the user holds the campaign that brought the user and the user's
-- own campaign, whichever came first.
import DrBoz.ReferralRewards

open keyed_table unit_of_work runs dr_boz.py dr_boz.models dr_boz.codex_capacity
open dr_boz.toman_billing dr_boz.accounts dr_boz.views dr_boz.billing_runs dr_boz.calls
open dr_boz.bot_users dr_boz.bot_payments dr_boz.bot_start dr_boz.writers
open dr_boz.referral_rewards

namespace dr_boz.referral_links

/-! ## The button -/

/-- The campaign that the bot makes for a user. -/
def own_campaign (user : UserPreference) : ReferralCampaign where
  id := 0
  code := "ref_u" ++ toString user.id ++ "_" ++ (user.telegram_user_id.map toString).getD "None"
  created_by_user_id := some user.id

/-- The campaign of the user's column, if it is there. -/
def campaign_of (user : UserPreference) (db : Db) : Option ReferralCampaign :=
  (user.referral_campaign_id.filter (· ≠ 0)).bind db.referral_campaigns.get

/-- The user with a new campaign in the column, in one commit. -/
def with_campaign (user : UserPreference) (db : Db) : Db :=
  ({ db with referral_campaigns := db.referral_campaigns.insert (own_campaign user) }).apply
    (.setUser user { user with referral_campaign_id := some db.referral_campaigns.nextKey })

/-- `data == "account_referral_copy"`: the user, the campaign whose code is in the
link, and what is stored. A code that is taken raises before the commit. -/
def account_referral_copy (sender : Sender) (db : Db) :
    Except PyError (UserPreference × ReferralCampaign) × Db :=
  match (get_user sender.id sender.first_name sender.username).run (.opened db) with
  | (.error e, s) => (.error e, s.stored)
  | (.ok user, s) =>
    match campaign_of user s.view with
    | some campaign => (.ok (user, campaign), s.stored)
    | none =>
      if s.view.referral_campaigns.Accepts (own_campaign user) then
        (.ok (user, { own_campaign user with id := s.view.referral_campaigns.nextKey }),
          with_campaign user s.view)
      else (.error .integrity_error, s.stored)

/-- A start command, or a request for the own link. -/
inductive Event where
  | start (s : Start)
  | link (sender : Sender)

def Event.step (db : Db) : Event → Db
  | .start s => s.run db
  | .link sender => (account_referral_copy sender db).2

/-! ## What a link should do -/

/-- The rewards that a start writes are credited to the user. -/
def Credits (u : Nat) (db : Db) (s : Start) : Prop :=
  ∀ e ∈ (s.run db).ledger.rows, e ∉ db.ledger.rows → e.entry_type = "referral_reward" →
    e.user_id = u

/-- Each link that the run shows is of a campaign that its user made, and a start
with the link, at any time after it, pays nobody else. -/
structure PaysOwner (db : Db) (es : List Event) : Prop where
  owner : ∀ pre sender post user campaign, es = pre ++ .link sender :: post →
    (account_referral_copy sender (after Event.step db pre)).1 = .ok (user, campaign) →
    campaign.created_by_user_id = some user.id
  reward : ∀ pre sender mid s post user campaign,
    es = pre ++ .link sender :: (mid ++ .start s :: post) →
    (account_referral_copy sender (after Event.step db pre)).1 = .ok (user, campaign) →
    start_payload s.arg = .referral campaign.code →
    Credits user.id (after Event.step db (pre ++ .link sender :: mid)) s

/-- A request for the link finds the column empty, or its campaign gone, or a
campaign that the user made. -/
def FindsOwn (db : Db) : Event → Prop
  | .start _ => True
  | .link sender => ∀ user d,
    visitor db sender.id sender.first_name sender.username = some (user, d) →
    ∀ campaign, campaign_of user d = some campaign → campaign.created_by_user_id = some user.id

/-! ## The campaigns -/

theorem campaigns_apply (db : Db) (c : Change) :
    (db.apply c).referral_campaigns = db.referral_campaigns := by
  cases c <;> rfl

/-- No program takes a campaign away. -/
theorem campaigns_program {α : Type} (x : Tx α) {s : Session Db} {c : ReferralCampaign}
    (h : c ∈ s.stored.referral_campaigns.rows ∧ c ∈ s.view.referral_campaigns.rows) :
    c ∈ (x.run s).2.stored.referral_campaigns.rows ∧
      c ∈ (x.run s).2.view.referral_campaigns.rows := by
  refine Prog.run_keeps (I := fun d : Db => c ∈ d.referral_campaigns.rows) (fun d k hd => ?_) x h
  change c ∈ (d.apply k).referral_campaigns.rows
  rw [campaigns_apply]
  exact hd

section
variable {db : Db} {sender : Sender} {user : UserPreference} {campaign : ReferralCampaign}

theorem mem_campaign_of {user : UserPreference} (h : campaign_of user db = some campaign) :
    campaign ∈ db.referral_campaigns.rows := by
  unfold campaign_of at h
  obtain ⟨n, -, hn⟩ := Option.bind_eq_some_iff.mp h
  exact ((Table.get_eq_some _).mp hn).1

/-- What the button shows is found or made. -/
theorem copy_cases (sender : Sender) (db : Db) :
    (∃ e, (account_referral_copy sender db).1 = .error e) ∨
    ∃ user d, visitor db sender.id sender.first_name sender.username = some (user, d) ∧
      ((∃ campaign, campaign_of user d = some campaign ∧
          account_referral_copy sender db = (.ok (user, campaign), d)) ∨
        campaign_of user d = none ∧ d.referral_campaigns.Accepts (own_campaign user) ∧
          account_referral_copy sender db =
            (.ok (user, { own_campaign user with id := d.referral_campaigns.nextKey }),
              with_campaign user d)) := by
  unfold account_referral_copy
  cases hv : visitor db sender.id sender.first_name sender.username with
  | none =>
    obtain ⟨e, s, hrun⟩ := run_no_visitor hv
    rw [hrun]
    exact .inl ⟨e, rfl⟩
  | some x =>
    obtain ⟨user, d⟩ := x
    rw [run_visitor hv]
    simp only [Session.view_opened, Session.stored_opened]
    cases hc : campaign_of user d with
    | some campaign => exact .inr ⟨user, d, rfl, .inl ⟨campaign, hc, rfl⟩⟩
    | none =>
      by_cases hacc : d.referral_campaigns.Accepts (own_campaign user)
      · exact .inr ⟨user, d, rfl, .inr ⟨hc, hacc, if_pos hacc⟩⟩
      · exact .inl ⟨_, congrArg Prod.fst (if_neg hacc)⟩

/-- The campaign that is shown stands in the store. -/
theorem shown_mem (h : (account_referral_copy sender db).1 = .ok (user, campaign)) :
    campaign ∈ (account_referral_copy sender db).2.referral_campaigns.rows := by
  rcases copy_cases sender db with ⟨e, he⟩ | ⟨u, d, -, ⟨c, hc, hcopy⟩ | ⟨-, hacc, hcopy⟩⟩
  · rw [he] at h
    cases h
  · rw [hcopy] at h ⊢
    cases h
    exact mem_campaign_of hc
  · rw [hcopy] at h ⊢
    cases h
    unfold with_campaign
    rw [campaigns_apply, Table.rows_insert hacc]
    exact List.mem_append_right _ (List.mem_singleton.mpr rfl)

/-- A campaign stays in the store. -/
theorem campaign_stays (h : campaign ∈ db.referral_campaigns.rows) (e : Event) :
    campaign ∈ (e.step db).referral_campaigns.rows := by
  cases e with
  | start s => exact (campaigns_program s.prog ⟨h, h⟩).1
  | link sender =>
    have hget := campaigns_program (get_user sender.id sender.first_name sender.username)
      (s := .opened db) ⟨h, h⟩
    simp only [Event.step, account_referral_copy]
    generalize (get_user sender.id sender.first_name sender.username).run (.opened db) = x
      at hget ⊢
    obtain ⟨r, s⟩ := x
    cases r with
    | error e => exact hget.1
    | ok user =>
      simp only
      cases campaign_of user s.view with
      | some c => exact hget.1
      | none =>
        simp only
        split
        · unfold with_campaign
          rw [campaigns_apply]
          exact Table.mem_insert_of_mem hget.2
        · exact hget.1

theorem campaign_after (h : campaign ∈ db.referral_campaigns.rows) (es : List Event) :
    campaign ∈ (after Event.step db es).referral_campaigns.rows := by
  induction es generalizing db with
  | nil => exact h
  | cons e es ih => exact ih (campaign_stays h e)

end

/-! ## Who is paid -/

section
variable {u : Nat} {t₀ : Table TomanLedgerEntry} {db : Db} {s : Session Db}

/-- The rewards that have come to the entries are the user's. -/
def Right (u : Nat) (t₀ : Table TomanLedgerEntry) (d : Db) : Prop :=
  ∀ e ∈ d.ledger.rows, e ∉ t₀.rows → e.entry_type = "referral_reward" → e.user_id = u

theorem right_insert {t : Table TomanLedgerEntry} {e : TomanLedgerEntry}
    (he : e.entry_type = "referral_reward" → e.user_id = u)
    (h : ∀ x ∈ t.rows, x ∉ t₀.rows → x.entry_type = "referral_reward" → x.user_id = u) :
    ∀ x ∈ (t.insert e).rows, x ∉ t₀.rows → x.entry_type = "referral_reward" → x.user_id = u := by
  intro x hx hnew htype
  by_cases hacc : t.Accepts e
  · rw [Table.rows_insert hacc] at hx
    rcases List.mem_append.mp hx with hx | hx
    · exact h x hx hnew htype
    · rw [List.mem_singleton.mp hx] at htype ⊢
      exact he htype
  · rw [Table.insert, dif_neg hacc] at hx
    exact h x hx hnew htype

/-- A program without rewards keeps them right. -/
theorem right_program {α : Type} {x : Tx α} (hx : x.Writes no_reward)
    (hs : Right u t₀ s.stored ∧ Right u t₀ s.view) :
    Right u t₀ (x.run s).2.stored ∧ Right u t₀ (x.run s).2.view := by
  refine hx.keeps (I := Right u t₀) (fun d c hc hd => ?_) hs
  cases c with
  | addLedger e => exact right_insert (fun htype => absurd htype hc) hd
  | _ => exact hd

/-- The payment goes to the maker of the campaign. -/
theorem right_pay (user : UserPreference) (campaign : ReferralCampaign)
    (hs : Right u t₀ s.stored ∧ Right u t₀ s.view) :
    Right u t₀ ((pay_referrer user campaign u).run s).2.stored ∧
      Right u t₀ ((pay_referrer user campaign u).run s).2.view := by
  unfold pay_referrer
  rw [Prog.run_bind]
  rcases run_referral_reward s with ⟨reward, hrun, -⟩ | ⟨e, hrun, -⟩
  · rw [hrun, Prog.continueWith_ok, Prog.run_bind, Prog.run_read, Prog.continueWith_ok]
    cases hr : s.view.users.get u with
    | none => exact hs
    | some referrer =>
      have hid : referrer.id = u := ((Table.get_eq_some _).mp hr).2
      simp only [Prog.run_bind, run_get_or_create_billing_account, Prog.continueWith_ok]
      rw [run_flush_account (get_accountRow _ _) (owner_gifted _ reward), Prog.continueWith_ok,
        Prog.run_bind, run_add_ledger, if_pos (Table.accepts_of_no_unique rfl)]
      exact ⟨hs.1, right_insert (fun _ => hid) hs.2⟩
  · rw [hrun]
    exact hs

/-- A code finds its campaign. -/
theorem first_code {t : Table ReferralCampaign} {c : ReferralCampaign} (h : c ∈ t.rows) :
    t.first (fun x => x.code = c.code) = some c := by
  cases hf : t.first fun x => x.code = c.code with
  | none => simpa using Table.first_eq_none.mp hf c h
  | some o =>
    obtain ⟨ho, hcode⟩ := Table.first_mem hf
    have hsame : o.code = c.code := of_decide_eq_true hcode
    rw [t.row_of_unique ho h (congrArg some hsame) rfl]

/-- What a start with the code of a campaign does after the user is found. -/
theorem right_follow {c : ReferralCampaign} (user : UserPreference)
    (hc : c ∈ s.view.referral_campaigns.rows) (hmade : c.created_by_user_id = some u)
    (hs : Right u t₀ s.stored ∧ Right u t₀ s.view) :
    Right u t₀ ((follow_referral user c.code).run s).2.stored ∧
      Right u t₀ ((follow_referral user c.code).run s).2.view := by
  unfold follow_referral
  rw [Prog.run_bind, Prog.run_read, Prog.continueWith_ok, first_code hc]
  simp only [Prog.run_bind, Prog.run_flush, store_admits, Db.admits, if_true,
    Prog.continueWith_ok]
  cases hr : referrer_of user c with
  | none => exact ⟨hs.2, hs.2⟩
  | some n =>
    have hn : n = u := by
      unfold referrer_of at hr
      rw [hmade] at hr
      exact (Option.some.inj (Option.filter_eq_some_iff.mp hr).1).symm
    subst hn
    simp only [Prog.run_bind]
    have hpay := right_pay (s := ⟨s.stored, (s.view.apply (.setUser user (referred user c))).apply
      (.addReferralEvent { campaign_id := c.id, user_id := user.id, event_type := "start" })⟩)
      user c hs
    generalize (pay_referrer user c n).run _ = y at hpay ⊢
    obtain ⟨r, t⟩ := y
    cases r with
    | error e => exact hpay
    | ok _ => exact ⟨hpay.2, hpay.2⟩

/-- A start with the code of a campaign pays nobody but its maker. -/
theorem start_credits {c : ReferralCampaign} {s : Start} (hc : c ∈ db.referral_campaigns.rows)
    (hmade : c.created_by_user_id = some u) (hp : start_payload s.arg = .referral c.code) :
    Credits u db s := by
  have hstart : Right u db.ledger db := fun e he hnew => absurd he hnew
  have hget := right_program (u := u) (writes_get_user greets_no_reward s.sender.id
    s.sender.first_name s.sender.username) (s := .opened db) ⟨hstart, hstart⟩
  have hkept := campaigns_program (get_user s.sender.id s.sender.first_name s.sender.username)
    (s := .opened db) ⟨hc, hc⟩
  change Right u db.ledger (s.run db)
  unfold Start.run Start.prog cmd_start
  rw [Prog.run_bind]
  generalize (get_user s.sender.id s.sender.first_name s.sender.username).run (.opened db) = x
    at hget hkept ⊢
  obtain ⟨r, t⟩ := x
  cases r with
  | error e => exact hget.1
  | ok user =>
    simp only [hp, Prog.continueWith_ok, Prog.run_bind]
    have hfollow := right_follow user hkept.2 hmade hget
    generalize (follow_referral user c.code).run t = y at hfollow ⊢
    obtain ⟨r, t'⟩ := y
    cases r with
    | error e => exact hfollow.1
    | ok user' => exact (right_program (no_reward_name s.sender user') hfollow).1

end

/-! ## The law -/

/-- LAW: In a run of starts and link requests, each link that is shown pays its
user and nobody else, if and only if each request finds no campaign of another
maker in the user's column. -/
theorem a_link_pays_its_owner_iff_the_column_holds_the_own_campaign (db : Db)
    (es : List Event) : PaysOwner db es ↔ Each Event.step FindsOwn db es := by
  have howner : (∀ pre sender post user campaign, es = pre ++ .link sender :: post →
      (account_referral_copy sender (after Event.step db pre)).1 = .ok (user, campaign) →
      campaign.created_by_user_id = some user.id) ↔ Each Event.step FindsOwn db es := by
    rw [each_iff]
    constructor
    · intro h pre e post hes
      cases e with
      | start s => trivial
      | link sender =>
        intro user d hv campaign hc
        refine h pre sender post user campaign hes ?_
        unfold account_referral_copy
        rw [run_visitor hv]
        simp only [Session.view_opened, hc]
    · intro h pre sender post user campaign hes hshown
      have hfinds := h pre (.link sender) post hes
      rcases copy_cases sender (after Event.step db pre) with
        ⟨e, he⟩ | ⟨u, d, hv, ⟨c, hc, hcopy⟩ | ⟨-, -, hcopy⟩⟩
      · rw [he] at hshown
        cases hshown
      · rw [hcopy] at hshown
        cases hshown
        exact hfinds _ _ hv _ hc
      · rw [hcopy] at hshown
        cases hshown
        rfl
  refine ⟨fun h => howner.mp h.owner, fun h => ⟨howner.mpr h, ?_⟩⟩
  intro pre sender mid s post user campaign hes hshown hp
  have hmade := howner.mpr h pre sender _ user campaign hes hshown
  refine start_credits ?_ hmade hp
  rw [after_append, after_cons]
  exact campaign_after (shown_mem hshown) mid

/-- The customer comes by the link of the friend and asks for the own one. The
bot shows the link of the friend. -/
theorem a_referred_user_is_shown_the_link_of_the_referrer :
    ¬∀ (db : Db) (es : List Event), PaysOwner db es := by
  intro h
  have hshown : ((account_referral_copy { id := 100 }
      (after Event.step invited_shop [.start follow_friend])).1.toOption.map fun x =>
        (x.1.id, x.2.created_by_user_id)) = some (1, some 2) := by
    decide +kernel
  cases hcopy : (account_referral_copy { id := 100 }
      (after Event.step invited_shop [.start follow_friend])).1 with
  | error e =>
    rw [hcopy] at hshown
    cases hshown
  | ok x =>
    obtain ⟨user, campaign⟩ := x
    have hmade := (h invited_shop [.start follow_friend, .link { id := 100 }]).owner
      [.start follow_friend] { id := 100 } [] user campaign rfl hcopy
    rw [hcopy] at hshown
    have hpair : (user.id, campaign.created_by_user_id) = (1, some 2) := Option.some.inj hshown
    have hid : user.id = 1 := congrArg Prod.fst hpair
    have hfriend : campaign.created_by_user_id = some 2 := congrArg Prod.snd hpair
    rw [hfriend, hid] at hmade
    cases hmade

end dr_boz.referral_links
