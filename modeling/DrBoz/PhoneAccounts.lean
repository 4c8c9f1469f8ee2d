-- Law of the accounts that the bot gives back by their phone numbers: an
-- account keeps its telegram id unless a number gives it to another sender.
-- A shared contact of the sender's own is a proof of the number. A typed
-- number is none, and neither is a contact that names nobody or, on Bale,
-- somebody else.
import DrBoz.BotUpdates
import DrBoz.Lib.Runs
import DrBoz.Writers

open keyed_table unit_of_work dr_boz.py dr_boz.models dr_boz.codex_capacity dr_boz.toman_billing
open dr_boz.accounts dr_boz.views dr_boz.billing_runs dr_boz.chat_runs dr_boz.calls
open dr_boz.bot_users dr_boz.bot_payments dr_boz.bot_start dr_boz.bot_phones dr_boz.bot_updates
open dr_boz.subscriptions dr_boz.commits dr_boz.writers

namespace dr_boz.phone_accounts

/-- The account belongs to the telegram user. -/
def HasTelegram (a : Nat) (t : Int) (db : Db) : Prop :=
  ∃ r, db.users.get a = some r ∧ r.telegram_user_id = some t

/-! ## Changes that spare an account -/

/-- The change leaves the telegram id of the account. -/
def spares (a : Nat) : Change → Prop
  | .setTelegramId id _ => id ≠ a
  | _ => True

theorem telegram_change {a : Nat} {t : Int} {db : Db} {c : Change} (hc : spares a c)
    (h : HasTelegram a t db) : HasTelegram a t (db.apply c) := by
  obtain ⟨r, hr, ht⟩ := h
  cases c with
  | addUser u => exact ⟨r, Table.get_insert_some hr, ht⟩
  | setTelegramId id x =>
    rcases Table.get_rewrite_cases db.users id ({ · with telegram_user_id := x })
      (fun _ => rfl) a with hget | hget
    · exact ⟨r, hget.trans hr, ht⟩
    · refine ⟨r, hget.trans ?_, ht⟩
      rw [hr, Option.map_some, if_neg (Ne.symm hc)]
  | setUser o n =>
    have hget := Table.get_update db.users n.id (UserPreference.merge o n) (fun _ => rfl)
      (fun _ => rfl) a
    by_cases hid : a = n.id
    · rw [if_pos hid, hr] at hget
      exact ⟨_, hget, ht⟩
    · rw [if_neg hid, hr] at hget
      exact ⟨r, hget, ht⟩
  | addAccount | setAccount | addLedger | addSubscription | setSubscription | deleteSubscription
  | setPool | addConfig | addRedemption | setRedemption | addPaymentRequest | setPaymentRequest
  | addAdminAction | addWallet | setWallet | addCreditLedger | addReferralEvent | addClick
  | setClick | addStarterConfig | setStarterConfig => exact ⟨r, hr, ht⟩

theorem telegram_program {α : Type} {a : Nat} {t : Int} {x : Tx α} (hx : x.Writes (spares a))
    {db : Db} (h : HasTelegram a t db) : HasTelegram a t (x.run (.opened db)).2.stored :=
  (hx.keeps (I := HasTelegram a t) (fun _ _ hc hs => telegram_change hc hs) ⟨h, h⟩).1

/-! ## The handlers that spare every account -/

section
variable (a : Nat)

theorem sales_spare : Sales (spares a) where
  account _ := trivial
  config := trivial
  add _ := trivial
  assign _ _ := trivial
  delete _ := trivial
  pool _ _ := trivial
  spent _ _ := trivial
  bought _ _ _ _ _ := trivial
  topped_up _ _ := trivial
  entry _ := trivial

theorem greets_spare : Greets (spares a) where
  toLooks := (sales_spare a).toLooks
  add _ := trivial
  set _ _ := trivial
  entry _ := trivial
  user _ _ := trivial
  welcomed _ _ := trivial
  starter _ _ _ _ := trivial
  added _ := trivial
  seen _ _ _ := trivial

theorem refers_spare : Refers (spares a) where
  toLooks := (sales_spare a).toLooks
  user _ _ := trivial
  event _ := trivial
  gifted _ _ := trivial
  reward _ _ _ _ _ := trivial

theorem offers_spare : Offers (spares a) where
  toLooks := (sales_spare a).toLooks
  click _ := trivial
  settle _ _ := trivial
  gifted _ _ := trivial
  credit _ _ _ _ _ _ := trivial
  discount _ _ _ _ _ := trivial
  subscription _ := trivial

end

section
variable {a : Nat} {t : Int}

theorem writes_visit (sender : Sender) :
    (get_user sender.id sender.first_name sender.username).Writes (spares a) :=
  writes_get_user (greets_spare a) _ _ _

theorem writes_start_command (now : Datetime) (sends : Reply → Bool) (percent : String)
    (sender : Sender) (arg : Option String) :
    (cmd_start now sends percent sender arg).Writes (spares a) := by
  have hname : ∀ w, (name_admin sender w).Writes (spares a) := fun w =>
    writes_name_admin (fun _ _ => trivial) sender w
  refine (writes_visit sender).bind fun user => ?_
  cases start_payload arg with
  | referral token =>
    exact (writes_follow_referral (refers_spare a) _ _).bind fun w => hname w
  | offer code =>
    exact (writes_follow_offer (offers_spare a) _ _ _ _ _).bind fun _ => hname user
  | other => exact hname user

theorem writes_trial_callback (now : Datetime) (sender : Sender) :
    (handle_activate_trial_callback now sender).Writes (spares a) := by
  refine (writes_visit sender).bind fun user => Prog.writes_ite (Prog.writes_pure _) ?_
  have hgrant := writes_trial (sales_spare a).toSubscribes (fun _ => trivial) (fun _ => trivial)
    now user.id "User activated via bot callback"
  exact hgrant.attempt.bind fun _ => Prog.writes_pure _

theorem writes_name (sender : Sender) (content : String) :
    (handle_name sender content).Writes (spares a) := by
  unfold handle_name
  refine Prog.writes_ite (Prog.writes_pure _) ((writes_visit sender).bind fun user => ?_)
  exact (Prog.writes_flush trivial).bind fun _ => Prog.writes_publish

theorem chat_users {now : Datetime} {d : Db} {c : ChatCall}
    {r : Except PyError ChatUsageChargeResult} {s : Session Db}
    (h : ChatRun now c (.opened d) r s) : s.stored.users = d.users := by
  cases h with
  | covered =>
    rw [Session.stored_commitIf]
    split <;> rfl
  | paid q db e r hq hk hpos hb hle he ha hr =>
    rw [Session.stored_commitIf]
    split
    · exact hb.users
    · rfl
  | quote_raised | replay | free | no_plan | window_raised | start_raised | refused | conflict =>
    rfl

theorem voice_users {d : Db} {c : GenericCall} {r : Except PyError GenericUsageChargeResult}
    {s : Session Db} (h : GenericRun c (.opened d) r s) : s.stored.users = d.users := by
  cases h with
  | paid =>
    rw [Session.stored_commitIf]
    split <;> rfl
  | replay | raised | free | refused | conflict => rfl

/-- What comes after the visit starts from the account as the visit leaves it. -/
theorem telegram_after_visit {α : Type} {sender : Sender} {f : UserPreference → Tx α} {db : Db}
    (hf : ∀ v d, visitor db sender.id sender.first_name sender.username = some (v, d) →
      HasTelegram a t d → HasTelegram a t ((f v).run (.opened d)).2.stored)
    (h : HasTelegram a t db) :
    HasTelegram a t ((get_user sender.id sender.first_name sender.username >>= f).run
      (.opened db)).2.stored := by
  have hvisit := telegram_program (writes_visit (a := a) sender) h
  rw [Prog.run_bind]
  cases hv : visitor db sender.id sender.first_name sender.username with
  | none =>
    obtain ⟨e, s, hx⟩ := run_no_visitor hv
    rw [hx] at hvisit ⊢
    exact hvisit
  | some x =>
    obtain ⟨v, d⟩ := x
    rw [run_visitor hv] at hvisit ⊢
    rw [Prog.continueWith_ok]
    exact hf v d hv hvisit

/-- A charge after the visit, whatever it is: it leaves the users. -/
theorem telegram_charge {sender : Sender} {f : UserPreference → Tx Unit} {db : Db}
    (hf : ∀ v d, ((f v).run (.opened d)).2.stored.users = d.users) (h : HasTelegram a t db) :
    HasTelegram a t ((get_user sender.id sender.first_name sender.username >>= f).run
      (.opened db)).2.stored := by
  refine telegram_after_visit (fun v d _ hvisit => ?_) h
  unfold HasTelegram
  rw [hf]
  exact hvisit

end

/-! ## Numbers that move an account -/

/-- The update registers the number, on the store `d`. -/
def Registers (db : Db) (e : Sent) (raw_phone : String) (d : Db) : Prop :=
  match e.update with
  | .contact is_bale shared =>
    ¬(of_another e.sender shared = true ∧ is_bale = false) ∧
      raw_phone = shared.phone_number ∧ d = db
  | .phone_text text => PHONE_TEXT_RE text = true ∧ raw_phone = text ∧ ∃ v,
      visitor db e.sender.id e.sender.first_name e.sender.username = some (v, d) ∧
      v.is_admin ≠ some true ∧ missing_phone v = true
  | _ => False

/-- The number finds the account `r`, which is not the sender's. -/
def Rebinds (db : Db) (sender : Sender) (raw_phone : String) (d : Db) (r : UserPreference) : Prop :=
  phone_of raw_phone ≠ "" ∧ ∃ v,
    visitor db sender.id sender.first_name sender.username = some (v, d) ∧
    found_by_phone d (phone_of raw_phone) = .ok (some r) ∧ r.id ≠ v.id

/-- The update gives the account to its sender. -/
def Takes (a : Nat) (db : Db) (e : Sent) : Prop :=
  ∃ raw_phone d d' r, Registers db e raw_phone d ∧ Rebinds d e.sender raw_phone d' r ∧ r.id = a

/-- The sender gives the account up for another one. -/
def Leaves (a : Nat) (db : Db) (e : Sent) : Prop :=
  ∃ raw_phone d d' r, Registers db e raw_phone d ∧ Rebinds d e.sender raw_phone d' r ∧ r.id ≠ a ∧
    ∃ holder, userOf d' e.sender.id = some holder ∧ holder.id = a

section
variable {a : Nat} {t : Int}

/-- The telegram id moves from the row that has it. -/
theorem run_rebind (sender : Sender) (r : UserPreference) (d : Db) :
    (rebind sender r).run (.opened d) =
      (match (userOf d sender.id).filter (·.id ≠ r.id) with
        | some holder => do
          Prog.flush (.setTelegramId holder.id none)
          Prog.flush (.setTelegramId r.id (some sender.id))
        | none => Prog.flush (.setTelegramId r.id (some sender.id)) : Tx Unit).run (.opened d) := by
  unfold rebind
  cases hholder : (userOf d sender.id).filter (·.id ≠ r.id) with
  | some holder =>
    simp only [Prog.run_bind, Prog.run_read, Prog.continueWith_ok, Session.view_opened, hholder]
  | none =>
    simp only [Prog.run_bind, Prog.run_read, Prog.continueWith_ok, Session.view_opened, hholder]

/-- A number that finds this account for nobody else, and another account for
nobody who has this one. -/
theorem telegram_save_phone {db : Db} (sender : Sender) (raw_phone : String)
    (h : HasTelegram a t db)
    (htakes : ∀ d r, Rebinds db sender raw_phone d r → r.id ≠ a)
    (hleaves : ∀ d r holder, Rebinds db sender raw_phone d r → userOf d sender.id = some holder →
      holder.id ≠ a) :
    HasTelegram a t
      ((save_phone_onboarding_and_reply sender raw_phone).run (.opened db)).2.stored := by
  unfold save_phone_onboarding_and_reply
  simp only
  split
  · exact h
  · rename_i hphone
    refine telegram_after_visit (fun v d hv hvisit => ?_) h
    rw [Prog.run_bind, run_get_user_by_phone]
    cases ho : found_by_phone (Session.opened d).view (phone_of raw_phone) with
    | error e => exact hvisit
    | ok o =>
      rw [Prog.continueWith_ok]
      cases hother : o.filter (·.id ≠ v.id) with
      | none => exact telegram_program (writes_save_number trivial (fun _ => trivial) _) hvisit
      | some r =>
        obtain ⟨rfl, hne⟩ := Option.filter_eq_some_iff.mp hother
        have hre : Rebinds db sender raw_phone d r := ⟨hphone, v, hv, ho, by simpa using hne⟩
        have hgive : (Prog.flush (.setTelegramId r.id (some sender.id)) : Tx Unit).Writes
            (spares a) := Prog.writes_flush (htakes d r hre)
        simp only
        rw [Prog.run_bind, run_rebind, ← Prog.run_bind]
        refine telegram_program (Prog.Writes.bind ?_ fun _ =>
          writes_save_number trivial (fun _ => trivial) _) hvisit
        cases hholder : (userOf d sender.id).filter (·.id ≠ r.id) with
        | none => exact hgive
        | some holder =>
          obtain ⟨hheld, -⟩ := Option.filter_eq_some_iff.mp hholder
          have hlose : spares a (.setTelegramId holder.id none) := hleaves d r holder hre hheld
          exact (Prog.writes_flush hlose).bind fun _ => hgive

/-- A contact that neither takes the account's telegram id nor gives it up. -/
theorem telegram_contact {db : Db} {sender : Sender} {is_bale : Bool} {shared : Contact}
    (h : HasTelegram a t db) (htakes : ¬Takes a db ⟨sender, .contact is_bale shared⟩)
    (hleaves : ¬Leaves a db ⟨sender, .contact is_bale shared⟩) :
    HasTelegram a t ((handle_contact is_bale sender shared).run (.opened db)).2.stored := by
  unfold handle_contact
  split
  · exact h
  · rename_i hown
    have hreg : Registers db ⟨sender, .contact is_bale shared⟩ shared.phone_number db :=
      ⟨hown, rfl, rfl⟩
    exact telegram_save_phone _ _ h
      (fun d r hre hr => htakes ⟨_, db, d, r, hreg, hre, hr⟩)
      (fun d r holder hre hheld hid => hleaves ⟨_, db, d, r, hreg, hre,
        fun hr => htakes ⟨_, db, d, r, hreg, hre, hr⟩, holder, hheld, hid⟩)

/-- The same for a number in a text, which comes after the visit. -/
theorem telegram_phone_text {db : Db} {sender : Sender} {text : String}
    (h : HasTelegram a t db) (htakes : ¬Takes a db ⟨sender, .phone_text text⟩)
    (hleaves : ¬Leaves a db ⟨sender, .phone_text text⟩) :
    HasTelegram a t ((handle_phone_text sender text).run (.opened db)).2.stored := by
  unfold handle_phone_text
  split
  · rename_i htext
    refine telegram_after_visit (fun v d hv hvisit => ?_) h
    split
    · rename_i hneeds
      have hreg : Registers db ⟨sender, .phone_text text⟩ text d :=
        ⟨htext, rfl, v, hv, hneeds.1, hneeds.2⟩
      have hsaved := telegram_save_phone sender text hvisit
        (fun d' r hre hr => htakes ⟨_, d, d', r, hreg, hre, hr⟩)
        (fun d' r holder hre hheld hid => hleaves ⟨_, d, d', r, hreg, hre,
          fun hr => htakes ⟨_, d, d', r, hreg, hre, hr⟩, holder, hheld, hid⟩)
      rw [Prog.run_bind]
      generalize (save_phone_onboarding_and_reply sender text).run (.opened d) = y at hsaved ⊢
      obtain ⟨e | x, s⟩ := y
      · exact hsaved
      · exact hsaved
    · exact hvisit
  · exact h

/-- An update that gives the account to nobody, from a sender who keeps it. -/
theorem telegram_update {db : Db} {e : Sent} (h : HasTelegram a t db) (htakes : ¬Takes a db e)
    (hleaves : ¬Leaves a db e) : HasTelegram a t (e.run db) := by
  obtain ⟨sender, update⟩ := e
  unfold Sent.run
  simp only
  cases update with
  | start now sends percent arg =>
    simp only [Update.prog]
    exact telegram_program (writes_start_command _ _ _ _ _) h
  | name content =>
    simp only [Update.prog]
    exact telegram_program (writes_name _ _) h
  | trial now =>
    simp only [Update.prog]
    exact telegram_program (writes_trial_callback _ _) h
  | payment now reported =>
    simp only [Update.prog]
    rw [run_discard]
    rcases writes_payment (sales_spare a) now sender reported with ⟨answer, hx⟩ | hx
    · rw [hx]
      exact h
    · exact telegram_program (hx.writes (greets_spare a)) h
  | subscribe now platform plan_id use_wallet =>
    simp only [Update.prog]
    rw [run_discard]
    exact telegram_program (writes_start_payment (sales_spare a) (greets_spare a) _ _ _ _ _) h
  | resume_chat now c =>
    refine telegram_charge (fun v d => ?_) h
    rw [run_discard]
    exact chat_users (chatRun now { c with user := v } (.opened d))
  | resume_voice c =>
    refine telegram_charge (fun v d => ?_) h
    rw [run_discard]
    exact voice_users (genericRun { c with user := v } (.opened d))
  | behind_gate rest hrest =>
    refine telegram_program ((writes_visit sender).bind fun user => ?_) h
    refine Prog.writes_ite ((hrest user).mono fun c hc => ?_) (Prog.writes_pure _)
    cases c with
    | setTelegramId id x => exact hc.elim
    | _ => exact trivial
  | open_to_all rest hrest =>
    refine telegram_program
      ((writes_visit sender).bind fun user => (hrest user).mono fun c hc => ?_) h
    cases c with
    | setTelegramId id x => exact hc.elim
    | _ => exact trivial
  | contact is_bale shared =>
    simp only [Update.prog]
    rw [run_discard]
    exact telegram_contact h htakes hleaves
  | phone_text text =>
    simp only [Update.prog]
    rw [run_discard]
    exact telegram_phone_text h htakes hleaves

end

/-! ## Law -/

/-- The sender's own contact. -/
def OwnContact (e : Sent) : Prop :=
  ∃ is_bale shared, e.update = .contact is_bale shared ∧ shared.user_id = some e.sender.id

/-- The account keeps its telegram id all along. -/
def KeepsTelegram (a : Nat) (t : Int) (db : Db) (es : List Sent) : Prop :=
  runs.Each Sent.run (fun db e => HasTelegram a t (e.run db)) db es

/-- LAW: Where nobody shares an own contact with the account's number, the
account keeps its telegram id, if no other number takes it either and its
holder does not leave it for another account. -/
theorem an_account_stays_with_its_telegram_user (a : Nat) (t : Int) (db : Db) (es : List Sent)
    (h : HasTelegram a t db)
    (hown : runs.Each Sent.run (fun db e => OwnContact e → ¬Takes a db e) db es)
    (hno : runs.Each Sent.run (fun db e => (Takes a db e → OwnContact e) ∧ ¬Leaves a db e) db es) :
    KeepsTelegram a t db es := by
  have hstep : ∀ db e, HasTelegram a t db →
      ((OwnContact e → ¬Takes a db e) ∧ (Takes a db e → OwnContact e) ∧ ¬Leaves a db e) →
      HasTelegram a t (e.run db) := fun db e hh he =>
    telegram_update hh (fun ht => he.1 (he.2.1 ht) ht) he.2.2
  exact ((runs.each_and.mpr ⟨hown, hno⟩).finds hstep h).mono fun db e he => hstep db e he.1 he.2

/-- The customer, with a number, and another user without one. -/
def two_users : Db :=
  { shop with
    users := (Table.empty.insert { customer with phone_number := some "09120000000" }).insert
      { id := 2, telegram_user_id := some 200 } }

def other_sender : Sender := { id := 200 }

/-- The other user shares the own contact with a new number, for example. -/
theorem a_new_number_takes_no_account :
    KeepsTelegram 1 100 two_users
      [⟨other_sender, .contact false ⟨some 200, "09350000000"⟩⟩] := by
  have hnew : (visitor two_users 200 none none).map
      (fun x => found_by_phone x.2 (phone_of "09350000000")) = some (.ok none) := by
    decide +kernel
  have hfree : ∀ raw d d' r,
      Registers two_users ⟨other_sender, .contact false ⟨some 200, "09350000000"⟩⟩ raw d →
      ¬Rebinds d other_sender raw d' r := by
    rintro raw d d' r ⟨-, rfl, rfl⟩ ⟨-, v, hv, hf, -⟩
    change visitor two_users 200 none none = _ at hv
    rw [hv, Option.map_some, hf] at hnew
    cases hnew
  refine an_account_stays_with_its_telegram_user 1 100 two_users _
    ⟨{ customer with phone_number := some "09120000000" }, by decide +kernel, rfl⟩
    ⟨fun _ => ?_, trivial⟩ ⟨⟨fun h => ?_, ?_⟩, trivial⟩
  · rintro ⟨raw, d, d', r, hreg, hre, -⟩
    exact hfree raw d d' r hreg hre
  · obtain ⟨raw, d, d', r, hreg, hre, -⟩ := h
    exact absurd hre (hfree raw d d' r hreg)
  · rintro ⟨raw, d, d', r, hreg, hre, -⟩
    exact hfree raw d d' r hreg hre

/-- The other user types the customer's number and has the account. -/
theorem a_typed_number_takes_the_account :
    ¬∀ a t db es, HasTelegram a t db →
      runs.Each Sent.run (fun db e => OwnContact e → ¬Takes a db e) db es →
      KeepsTelegram a t db es := by
  intro h
  have hown : OwnContact ⟨other_sender, .phone_text "09120000000"⟩ →
      ¬Takes 1 two_users ⟨other_sender, .phone_text "09120000000"⟩ := by
    rintro ⟨b, c, he, -⟩
    cases he
  obtain ⟨⟨r, hr, ht⟩, -⟩ := h 1 100 two_users [⟨other_sender, .phone_text "09120000000"⟩]
    ⟨{ customer with phone_number := some "09120000000" }, by decide +kernel, rfl⟩
    ⟨hown, trivial⟩
  have hrow : ((Sent.run two_users ⟨other_sender, .phone_text "09120000000"⟩).users.get 1).map
      (·.telegram_user_id) = some (some 200) := by
    decide +kernel
  rw [hr, Option.map_some, ht] at hrow
  cases hrow

end dr_boz.phone_accounts
