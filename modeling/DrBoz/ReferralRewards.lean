-- Law of the referral rewards: how many rewards a user can cause. The start
-- handler pays the maker of the campaign at every start with a referral code,
-- and nothing asks whether the sender is new.
import DrBoz.Calls
import DrBoz.Writers
import DrBoz.Lib.Runs

open keyed_table unit_of_work runs dr_boz.py dr_boz.models dr_boz.codex_capacity
open dr_boz.toman_billing dr_boz.accounts dr_boz.views dr_boz.billing_runs dr_boz.calls
open dr_boz.bot_users dr_boz.bot_payments dr_boz.bot_start dr_boz.commits dr_boz.writers

namespace dr_boz.referral_rewards

/-- The entry is a reward for the user `v` having come. -/
def is_reward (v : Nat) (e : TomanLedgerEntry) : Bool :=
  e.entry_type = "referral_reward" &&
    e.metadata_json.get "referred_user_id" = some (Scalar.int v)

/-- How many rewards the user has caused. -/
def rewards (v : Nat) (db : Db) : Nat := db.ledger.count (is_reward v)

/-! ## What is no reward -/

/-- The change writes no reward. -/
def no_reward : Change → Prop
  | .addLedger e => e.entry_type ≠ "referral_reward"
  | _ => True

theorem rewards_change {v : Nat} {c : Change} (hc : no_reward c) (db : Db) :
    rewards v (db.apply c) = rewards v db := by
  cases c with
  | addLedger e =>
    unfold rewards
    by_cases h : db.ledger.Accepts e
    · have hno : is_reward v (Row.setKey e db.ledger.nextKey) = false := by
        have : e.entry_type ≠ "referral_reward" := hc
        simp [is_reward, Row.setKey, this]
      change (db.ledger.insert e).count _ = _
      rw [Table.count_insert h, hno]
      rfl
    · change (db.ledger.insert e).count _ = _
      rw [Table.insert, dif_neg h]
  | _ => rfl

theorem rewards_program {α : Type} {v : Nat} {x : Tx α} (hx : x.Writes no_reward) (s : Session Db)
    (hs : rewards v s.stored = rewards v s.view) :
    rewards v (x.run s).2.stored = rewards v s.view := by
  have h := hx.run (I := fun t => rewards v t = rewards v s.view)
    (fun c hc t => by rw [views.store_apply, rewards_change hc]) (s := s) (by rw [hs])
  exact h.mpr rfl

theorem greets_no_reward : Greets no_reward where
  account _ := trivial
  config := trivial
  add _ := trivial
  set _ _ := trivial
  entry _ := trivial
  user _ _ := trivial
  welcomed _ _ := trivial
  starter _ _ _ _ := by simp [no_reward, accounts.starter_entry]
  added _ := trivial
  seen _ _ _ := trivial

theorem offers_no_reward : Offers no_reward where
  toLooks := greets_no_reward.toLooks
  click _ := trivial
  settle _ _ := trivial
  gifted _ _ := trivial
  credit _ _ _ _ _ _ := by simp [no_reward, link_entry]
  discount _ _ _ _ _ := by simp [no_reward, link_entry]
  subscription _ := trivial

/-! ## What a start pays -/

/-- The reward can be read, and the user who gets it is there. -/
structure PaysTo (db : Db) (referrer_id : Nat) : Prop where
  reward : ∀ c, db.referral_configs.first (fun c => c.name = some "default") = some c →
    c.reward_toman.isSome
  referrer : (db.users.get referrer_id).isSome

/-- The token is that of a campaign of another user, who is paid. -/
def Pays (db : Db) (user : UserPreference) (token : String) : Prop :=
  ∃ c n, db.referral_campaigns.first (fun c => c.code = token) = some c ∧
    referrer_of user c = some n ∧ PaysTo db n

/-- The ledger has one reward more, for the user having come. -/
def Rewarded (user : UserPreference) (t t' : Table TomanLedgerEntry) : Prop :=
  ∃ e, t' = t.insert e ∧ t.Accepts e ∧ ∀ v, is_reward v e = decide (user.id = v)

theorem run_referral_reward (s : Session Db) :
    (∃ n, (referral_reward).run s = (.ok n, s) ∧
      ∀ c, s.view.referral_configs.first (fun c => c.name = some "default") = some c →
        c.reward_toman.isSome) ∨
    (∃ e, (referral_reward).run s = (.error e, s) ∧ ∃ c,
      s.view.referral_configs.first (fun c => c.name = some "default") = some c ∧
        c.reward_toman.isSome = false) := by
  unfold referral_reward
  simp only [Prog.run_bind, Prog.run_read, Prog.continueWith_ok]
  cases hc : s.view.referral_configs.first fun c => c.name = some "default" with
  | none => exact .inl ⟨50000, rfl, fun c h => by cases h⟩
  | some c =>
    cases hr : c.reward_toman with
    | none => exact .inr ⟨.type_error, by simp only [hr, compared]; rfl, c, rfl, by rw [hr]; rfl⟩
    | some n =>
      refine .inl ⟨n, by simp only [hr, compared]; rfl, fun c' h => ?_⟩
      cases h
      rw [hr]
      rfl

theorem is_reward_entry (referrer user : UserPreference) (a : UserBillingAccount) (n : Int)
    (c : ReferralCampaign) (v : Nat) :
    is_reward v (reward_entry referrer user a n c) = decide (user.id = v) := by
  simp [is_reward, reward_entry, Dict.get]

theorem run_pay_referrer (user : UserPreference) (campaign : ReferralCampaign) (n : Nat)
    (s : Session Db) :
    let x := (pay_referrer user campaign n).run s
    (PaysTo s.view n ∧ ∃ db', x = (.ok (), ⟨s.stored, db'⟩) ∧
      Rewarded user s.view.ledger db'.ledger) ∨
    (¬PaysTo s.view n ∧ x.2 = s) := by
  intro x
  simp only [x, pay_referrer, Prog.run_bind]
  rcases run_referral_reward s with ⟨reward, hrun, hread⟩ | ⟨e, hrun, c, hc, hnone⟩
  · rw [hrun]
    simp only [Prog.continueWith_ok, Prog.run_bind, Prog.run_read]
    cases hr : s.view.users.get n with
    | none => exact .inr ⟨fun h => by simpa [hr] using h.referrer, rfl⟩
    | some referrer =>
      refine .inl ⟨⟨hread, by rw [hr]; rfl⟩, ?_⟩
      simp only [Prog.run_bind, run_get_or_create_billing_account, Prog.continueWith_ok]
      rw [run_flush_account (get_accountRow _ _) (owner_gifted _ reward), Prog.continueWith_ok]
      rcases add_ledger_cases (reward_entry referrer user
          (gifted (accountRow s.view referrer.id) reward) reward campaign)
        ⟨s.stored, putAccount (withAccount s.view referrer.id)
          (gifted (accountRow s.view referrer.id) reward)⟩ with ⟨ha, hadd⟩ | ⟨hno, -⟩
      · exact ⟨_, by rw [Prog.run_bind, hadd]; rfl, _, rfl, ha, is_reward_entry _ _ _ _ _⟩
      · exact absurd (Table.accepts_of_no_unique rfl) hno
  · rw [hrun]
    refine .inr ⟨fun h => ?_, rfl⟩
    have := h.reward c hc
    rw [hnone] at this
    cases this

/-- The count of rewards after a part of a start that pays or does not pay. -/
structure CountsReward (db db' : Db) (user : UserPreference) (pays : Prop) : Prop where
  paid : pays → ∀ v, rewards v db' = rewards v db + if user.id = v then 1 else 0
  unpaid : ¬pays → ∀ v, rewards v db' = rewards v db

theorem counts_rewarded {db db' : Db} {user : UserPreference}
    (h : Rewarded user db.ledger db'.ledger) (v : Nat) :
    rewards v db' = rewards v db + if user.id = v then 1 else 0 := by
  obtain ⟨e, hins, hacc, he⟩ := h
  unfold rewards
  rw [hins, Table.count_insert hacc]
  have hkey : is_reward v (Row.setKey e db.ledger.nextKey) = is_reward v e := rfl
  rw [hkey, he v]
  simp

/-- The campaign of the user and the event of the start change nothing that
the payment reads. -/
theorem paysTo_noted {db : Db} {u u' : UserPreference} {e : ReferralEvent} {n : Nat} :
    PaysTo ((db.apply (.setUser u u')).apply (.addReferralEvent e)) n ↔ PaysTo db n := by
  have husers : (((db.apply (.setUser u u')).apply (.addReferralEvent e)).users.get n).isSome =
      (db.users.get n).isSome := by
    simp only [Db.apply]
    erw [Table.get_update]
    split
    · exact Option.isSome_map
    · rfl
  exact ⟨fun h => ⟨h.reward, husers ▸ h.referrer⟩, fun h => ⟨h.reward, husers ▸ h.referrer⟩⟩

/-- The payment and the commit after it. -/
theorem run_paid_referral (user u : UserPreference) (c : ReferralCampaign) (n : Nat)
    {s : Session Db} (hs : s.view.ledger = s.stored.ledger) :
    let x := (do
      pay_referrer user c n
      Prog.publish
      return u : Tx UserPreference).run s
    CountsReward s.stored x.2.stored user (PaysTo s.view n) ∧
      ∀ v, x.1 = .ok v → x.2 = .opened x.2.stored := by
  intro x
  have hsame : ∀ v, rewards v s.view = rewards v s.stored := fun v => by
    unfold rewards
    rw [hs]
  simp only [x, Prog.run_bind]
  rcases run_pay_referrer user c n s with ⟨hto, db', hrun, hledger⟩ | ⟨hto, hrun⟩
  · rw [hrun]
    refine ⟨⟨fun _ v => ?_, fun h => absurd hto h⟩, fun _ _ => rfl⟩
    exact (counts_rewarded hledger v).trans (by rw [hsame])
  · generalize (pay_referrer user c n).run s = y at hrun ⊢
    obtain ⟨r, s'⟩ := y
    simp only at hrun
    subst hrun
    cases r with
    | error e => exact ⟨⟨fun h => absurd h hto, fun _ _ => rfl⟩, fun v h => by cases h⟩
    | ok _ => exact ⟨⟨fun h => absurd h hto, fun _ v => hsame v⟩, fun _ _ => rfl⟩

theorem run_follow_referral (user : UserPreference) (token : String) (db : Db) :
    let x := (follow_referral user token).run (.opened db)
    CountsReward db x.2.stored user (Pays db user token) ∧
      ∀ u, x.1 = .ok u → x.2 = .opened x.2.stored := by
  intro x
  simp only [x, follow_referral, Prog.run_bind, Prog.run_read, Prog.continueWith_ok,
    Session.view_opened]
  cases hc : db.referral_campaigns.first fun c => c.code = token with
  | none =>
    refine ⟨⟨fun h => ?_, fun _ _ => rfl⟩, fun _ _ => rfl⟩
    obtain ⟨c, n, hc', -⟩ := h
    rw [hc] at hc'
    cases hc'
  | some c =>
    have hpays : Pays db user token ↔ ∃ n, referrer_of user c = some n ∧ PaysTo db n := by
      constructor
      · rintro ⟨c', n, hc', hn, h⟩
        rw [hc] at hc'
        cases hc'
        exact ⟨n, hn, h⟩
      · rintro ⟨n, hn, h⟩
        exact ⟨c, n, hc, hn, h⟩
    simp only [Prog.run_bind, Prog.run_flush, store_admits, Db.admits, if_true,
      Prog.continueWith_ok]
    cases hn : referrer_of user c with
    | none =>
      refine ⟨⟨fun h => ?_, fun _ _ => rfl⟩, fun _ _ => rfl⟩
      obtain ⟨n, hn', -⟩ := hpays.mp h
      rw [hn] at hn'
      cases hn'
    | some n =>
      obtain ⟨hcount, hopen⟩ := run_paid_referral user (referred user c) c n
        (s := ⟨db, (db.apply (.setUser user (referred user c))).apply (.addReferralEvent
          { campaign_id := c.id, user_id := user.id, event_type := "start" })⟩) rfl
      have hiff : Pays db user token ↔ PaysTo db n := by
        rw [hpays, hn]
        simp
      refine ⟨⟨fun h => hcount.paid (paysTo_noted.mpr (hiff.mp h)),
        fun h => hcount.unpaid fun hto => h (hiff.mpr (paysTo_noted.mp hto))⟩, hopen⟩

/-- The start causes a reward for the user `v` having come. -/
def CausesReward (db : Db) (s : Start) (v : Nat) : Prop :=
  ∃ user d token, start_payload s.arg = .referral token ∧
    visitor db s.sender.id s.sender.first_name s.sender.username = some (user, d) ∧
    user.id = v ∧ Pays d user token

theorem no_reward_name (sender : Sender) (user : UserPreference) :
    (name_admin sender user).Writes no_reward := writes_name_admin (fun _ _ => trivial) sender user

/-- A start adds the reward that it causes, and no other. -/
theorem rewards_start (db : Db) (s : Start) (v : Nat) :
    (CausesReward db s v → rewards v (s.run db) = rewards v db + 1) ∧
      (¬CausesReward db s v → rewards v (s.run db) = rewards v db) := by
  have hget := rewards_program (v := v) (writes_get_user greets_no_reward s.sender.id
    s.sender.first_name s.sender.username) (.opened db) rfl
  unfold Start.run Start.prog cmd_start
  rw [Prog.run_bind]
  cases hv : visitor db s.sender.id s.sender.first_name s.sender.username with
  | none =>
    obtain ⟨e, t, hrun⟩ := run_no_visitor hv
    rw [hrun] at hget ⊢
    refine ⟨fun h => ?_, fun _ => hget⟩
    obtain ⟨user, d, token, -, hv', -⟩ := h
    rw [hv] at hv'
    cases hv'
  | some x =>
    obtain ⟨user, d⟩ := x
    have hrun := run_visitor hv
    rw [hrun] at hget ⊢
    simp only [Session.stored_opened, Session.view_opened] at hget
    simp only [Prog.continueWith_ok]
    have hcauses : CausesReward db s v ↔
        ∃ token, start_payload s.arg = .referral token ∧ user.id = v ∧ Pays d user token := by
      constructor
      · rintro ⟨user', d', token, hp, hv', hid, hpays⟩
        rw [hv] at hv'
        cases hv'
        exact ⟨token, hp, hid, hpays⟩
      · rintro ⟨token, hp, hid, hpays⟩
        exact ⟨user, d, token, hp, hv, hid, hpays⟩
    cases hp : start_payload s.arg with
    | referral token =>
      simp only [Prog.run_bind]
      obtain ⟨hcount, hopen⟩ := run_follow_referral user token d
      have hlast : rewards v (Prog.continueWith (fun u => name_admin s.sender u)
          ((follow_referral user token).run (.opened d))).2.stored =
          rewards v ((follow_referral user token).run (.opened d)).2.stored := by
        generalize (follow_referral user token).run (.opened d) = y at hopen ⊢
        obtain ⟨r, t⟩ := y
        cases r with
        | error e => rfl
        | ok u =>
          have ht : t = .opened t.stored := hopen u rfl
          have hview : rewards v t.view = rewards v t.stored := by
            rw [ht]
            rfl
          exact (rewards_program (no_reward_name s.sender u) t hview.symm).trans hview
      rw [hlast]
      constructor
      · intro h
        obtain ⟨token', hp', hid, hpays⟩ := hcauses.mp h
        rw [hp] at hp'
        cases hp'
        rw [hcount.paid hpays, if_pos hid, hget]
      · intro h
        by_cases hpays : Pays d user token
        · have hid : user.id ≠ v := fun hid => h (hcauses.mpr ⟨token, hp, hid, hpays⟩)
          rw [hcount.paid hpays, if_neg hid, Nat.add_zero, hget]
        · rw [hcount.unpaid hpays, hget]
    | offer code =>
      refine ⟨fun h => ?_, fun _ => ?_⟩
      · obtain ⟨token, hp', -⟩ := hcauses.mp h
        rw [hp] at hp'
        cases hp'
      · refine (rewards_program ?_ (.opened d) rfl).trans hget
        exact (writes_follow_offer offers_no_reward _ _ _ _ _).bind fun _ => no_reward_name _ _
    | other =>
      refine ⟨fun h => ?_, fun _ => ?_⟩
      · obtain ⟨token, hp', -⟩ := hcauses.mp h
        rw [hp] at hp'
        cases hp'
      · exact (rewards_program (no_reward_name _ _) (.opened d) rfl).trans hget

/-! ## Who came new -/

def HasUser (v : Nat) (db : Db) : Prop := v ∈ db.users.rows.map Row.key

/-- No change takes a user away. -/
theorem user_kept {v : Nat} (db : Db) (c : Change) (h : HasUser v db) : HasUser v (db.apply c) := by
  unfold HasUser at h ⊢
  cases c with
  | addUser u =>
    obtain ⟨r, hr, hv⟩ := List.mem_map.mp h
    exact List.mem_map.mpr ⟨r, Table.mem_insert_of_mem hr, hv⟩
  | setTelegramId id t =>
    simp only [Db.apply]
    rw [Table.keys_rewrite]
    exact h
  | setUser o n =>
    simp only [Db.apply]
    erw [Table.keys_update]
    exact h
  | addAccount | setAccount | addLedger | addSubscription | setSubscription | deleteSubscription
  | setPool | addConfig | addRedemption | setRedemption | addPaymentRequest | setPaymentRequest
  | addAdminAction | addWallet | setWallet | addCreditLedger | addReferralEvent | addClick
  | setClick | addStarterConfig | setStarterConfig => exact h

theorem user_stays {v : Nat} {db : Db} (s : Start) (h : HasUser v db) : HasUser v (s.run db) :=
  (Prog.run_keeps user_kept s.prog ⟨h, h⟩).1

/-- The row read back has the key it was read by. -/
theorem refreshed_key (t : Table UserPreference) (w : UserPreference) :
    ((t.get w.id).getD w).id = w.id := by
  cases h : t.get w.id with
  | none => rfl
  | some r => exact ((Table.get_eq_some _).mp h).2

/-- A sender without a row gets the next one. -/
theorem visitor_new {db d : Db} {uid : Int} {f n : Option String} {user : UserPreference}
    (hnone : userOf db uid = none) (hv : visitor db uid f n = some (user, d)) :
    ¬HasUser user.id db ∧ HasUser user.id d := by
  have hrun := run_visitor hv
  unfold userOf at hnone
  unfold get_user at hrun
  rw [Prog.run_bind, Prog.run_read, Prog.continueWith_ok, Session.view_opened, hnone] at hrun
  simp only [Prog.run_bind, Prog.run_read, Prog.continueWith_ok, Prog.run_flush] at hrun
  split at hrun
  · rename_i hadm
    simp only [store_admits, Session.view_opened, Db.admits, decide_eq_true_eq] at hadm
    rw [Prog.continueWith_ok, Prog.run_bind] at hrun
    have hadded : HasUser db.users.nextKey (db.apply (.addUser
        { id := 0, telegram_user_id := some uid, is_admin := some (uid = ADMIN_ID),
          first_name := f, username := n, account_status := some "active" })) := by
      unfold HasUser
      simp only [Db.apply]
      rw [Table.rows_insert hadm, List.map_append]
      exact List.mem_append_right _ (List.mem_singleton.mpr rfl)
    generalize hx : (apply_starter_credit _).run _ = x at hrun
    obtain ⟨e | b, t⟩ := x
    · cases hrun
    · have hkept : HasUser db.users.nextKey t.view := Prog.view_keeps user_kept hx hadded
      rw [Prog.continueWith_ok, Prog.run_bind, Prog.run_publish, Prog.continueWith_ok] at hrun
      unfold refreshed at hrun
      rw [Prog.run_read] at hrun
      cases hrun
      rw [refreshed_key]
      change ¬HasUser db.users.nextKey db ∧ HasUser db.users.nextKey t.view
      refine ⟨fun hold => ?_, hkept⟩
      obtain ⟨r, hr, hkey⟩ := List.mem_map.mp hold
      have hlt := db.users.key_lt_nextKey hr
      omega
  · cases hrun

/-- A sender with a row keeps it. -/
theorem visitor_known {db d : Db} {uid : Int} {f n : Option String} {u user : UserPreference}
    (hu : userOf db uid = some u) (hv : visitor db uid f n = some (user, d)) :
    HasUser user.id db := by
  have hrun := run_visitor hv
  rw [run_get_user hu] at hrun
  cases hrun
  rw [seen_id]
  exact List.mem_map.mpr ⟨u, (Table.first_mem hu).1, rfl⟩

/-- The sender of a start that causes a reward is new exactly when the row did
not stand before. -/
theorem causes_new {db : Db} {s : Start} {v : Nat} (h : CausesReward db s v) :
    (userOf db s.sender.id = none ↔ ¬HasUser v db) ∧ HasUser v (s.run db) := by
  obtain ⟨user, d, token, hp, hv, rfl, -⟩ := h
  have hrun := run_visitor hv
  have hstored : HasUser user.id d → HasUser user.id (s.run db) := by
    intro hd
    unfold Start.run Start.prog cmd_start
    rw [Prog.run_bind, hrun, Prog.continueWith_ok]
    exact (Prog.run_keeps user_kept _ ⟨hd, hd⟩).1
  cases hu : userOf db s.sender.id with
  | none =>
    obtain ⟨h1, h2⟩ := visitor_new hu hv
    exact ⟨⟨fun _ => h1, fun _ => rfl⟩, hstored h2⟩
  | some u =>
    have hknown := visitor_known hu hv
    refine ⟨⟨fun h => ?_, fun h => absurd hknown h⟩, user_stays s hknown⟩
    cases h

/-! ## Law -/

/-- Over the run each user causes at most one reward, and only by the start
that created the row of the user. -/
structure Bounded (db : Db) (es : List Start) : Prop where
  once : ∀ v, rewards v (after Start.run db es) ≤ rewards v db + 1
  created : ∀ pre s post v, es = pre ++ s :: post →
    rewards v (s.run (after Start.run db pre)) ≠ rewards v (after Start.run db pre) →
    ¬HasUser v (after Start.run db pre) ∧ HasUser v (s.run (after Start.run db pre))

/-- The start causes no reward, or its sender has no row yet. -/
def FromNewUser (db : Db) (s : Start) : Prop :=
  ∀ v, CausesReward db s v → userOf db s.sender.id = none

/-- The rewards of a user are within the bound: none before the row stands, and
one at most after it. -/
theorem rewards_within {db : Db} {v k : Nat} {s : Start} (hnew : FromNewUser db s)
    (h : rewards v db ≤ k + 1 ∧ (¬HasUser v db → rewards v db ≤ k)) :
    rewards v (s.run db) ≤ k + 1 ∧ (¬HasUser v (s.run db) → rewards v (s.run db) ≤ k) := by
  obtain ⟨hyes, hno⟩ := rewards_start db s v
  by_cases hc : CausesReward db s v
  · obtain ⟨hiff, hnow⟩ := causes_new hc
    have hbefore := h.2 (hiff.mp (hnew v hc))
    rw [hyes hc]
    exact ⟨by omega, fun habs => absurd hnow habs⟩
  · rw [hno hc]
    exact ⟨h.1, fun hnone => h.2 fun hb => hnone (user_stays s hb)⟩

/-- LAW: The referral rewards of a run of starts are bounded if and only if
each start that causes a reward comes from a sender without a row. -/
theorem rewards_are_bounded_iff_they_come_from_new_users (db : Db) (es : List Start) :
    Bounded db es ↔ Each Start.run FromNewUser db es := by
  constructor
  · intro h
    refine each_iff.mpr fun pre s post hes v hc => ?_
    have hchange : rewards v (s.run (after Start.run db pre)) ≠
        rewards v (after Start.run db pre) := by
      rw [(rewards_start _ s v).1 hc]
      omega
    exact (causes_new hc).1.mpr (h.created pre s post v hes hchange).1
  · intro h
    constructor
    · intro v
      have hkeeps := h.keeps (I := fun w => rewards v w ≤ rewards v db + 1 ∧
        (¬HasUser v w → rewards v w ≤ rewards v db)) (fun w s hw hs => rewards_within hs hw)
        ⟨by omega, fun _ => le_refl _⟩
      exact hkeeps.1
    · intro pre s post v hes hchange
      have hnew := each_iff.mp h pre s post hes
      by_cases hc : CausesReward (after Start.run db pre) s v
      · exact ⟨(causes_new hc).1.mp (hnew v hc), (causes_new hc).2⟩
      · exact absurd ((rewards_start _ s v).2 hc) hchange

/-- The customer, and a friend who made a campaign. -/
def invited_shop : Db :=
  { Db.empty with
    users := (Table.empty.insert customer).insert { id := 2, telegram_user_id := some 200 }
    referral_campaigns :=
      Table.empty.insert { id := 1, code := "ref_friend", created_by_user_id := some 2 } }

/-- The customer follows the link of the friend. -/
def follow_friend : Start where
  now := noon
  sends _ := true
  percent := "0"
  sender := { id := 100 }
  arg := some "ref_friend"

/-- The friend is paid two times for a customer who was there before. -/
theorem an_old_customer_is_paid_for_two_times : ¬∀ db es, Bounded db es := by
  intro h
  have hrun : rewards 1 (after Start.run invited_shop [follow_friend, follow_friend]) = 2 := by
    decide +kernel
  have hnone : rewards 1 invited_shop = 0 := by decide
  have := (h invited_shop [follow_friend, follow_friend]).once 1
  omega

end dr_boz.referral_rewards
