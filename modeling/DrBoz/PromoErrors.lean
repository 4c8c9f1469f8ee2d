-- Law of the errors of `redeem_promo_code_for_user`: a redemption credits what
-- it says, or it raises its own exception and leaves nothing. The expiry time
-- is made aware (`_as_utc`), the clock is naive (`_utcnow`), and Python does
-- not compare the two.
import DrBoz.PromoRuns
import DrBoz.WalletRuns
import DrBoz.UsageEntries

open keyed_table unit_of_work dr_boz.py dr_boz.models dr_boz.codex_capacity
open dr_boz.toman_billing dr_boz.promo_codes dr_boz.views dr_boz.billing_runs dr_boz.effects
open dr_boz.image_tool dr_boz.promo_runs dr_boz.wallet_runs dr_boz.usage_entries dr_boz.calls

namespace dr_boz.promo_errors

/-! ## The calls -/

/-- The arguments of `redeem_promo_code_for_user`, with any float as the charge. -/
structure Call where
  user : UserPreference
  code : Option String
  charge_amount_usd : FloatArg
  charge_amount_toman : Int
  source : String
  credit_charge_amount : Bool

/-- What `usd_to_minor` makes of a float before it rounds it: infinity cannot be
quantized, and a NaN is no integer. -/
def usd_charge : FloatArg → Except PyError PyFloat
  | .finite x => .ok x
  | .infinity | .minus_infinity => .error .invalid_operation
  | .nan => .error (.value_error "cannot convert NaN to integer")

/-- The branch of a USD code. -/
def Call.usd (c : Call) (promo_code : PromoCode) : Tx PromoCodeRedemption := do
  let charge ← Prog.lift (usd_charge c.charge_amount_usd)
  redeem_usd c.user promo_code charge c.source c.credit_charge_amount

def Call.prog (c : Call) : Tx PromoCodeRedemption := do
  let promo_code ← usable_promo_code c.user c.code
  if strOr promo_code.currency (some "USD") = some "TOMAN" then
    redeem_toman c.user promo_code c.charge_amount_toman c.source c.credit_charge_amount
  else c.usd promo_code

/-! ## What a redemption should leave -/

/-- The wallet that a redemption finds or opens. -/
def wallet_of (user : UserPreference) (db : Db) : Except PyError Wallet :=
  match wallet_row user.id db with
  | some wallet => .ok wallet
  | none => (promo_codes.usd_to_minor (user.credit_balance_usd.getD 0)).map (new_wallet user.id)

def usd_available (user : UserPreference) (db : Db) : Int :=
  (wallet_of user db).toOption.elim 0 fun w => intOr0 w.available_minor

def usd_column (user : UserPreference) (db : Db) : Int :=
  (wallet_of user db).toOption.elim 0 fun w => intOr0 w.balance_minor

/-- The millionths of a dollar that a redemption credits: those of its entry. -/
def credited_minor (db : Db) (r : PromoCodeRedemption) : Int :=
  (r.credit_ledger_entry_id.bind db.credit_ledger.get).elim 0 fun e => intOr0 e.amount_minor

/-- The total credit of a redemption is what the user's balances rise by. -/
structure Redeemed (user : UserPreference) (db db' : Db) (r : PromoCodeRedemption) : Prop where
  toman : held db' user.id = held db user.id + r.total_credit_toman
  dollars : r.total_credit_usd = promo_codes.minor_to_usd (credited_minor db' r)
  available : usd_available user db' = usd_available user db + credited_minor db' r
  balance : usd_column user db' = usd_column user db + credited_minor db' r

/-- The call is refused by its own exception. -/
def Refused (c : Call) (db : Db) : Prop :=
  ∃ text, c.prog.run (.opened db) = (.error (.promo_code_redemption_error text), .opened db)

def Redeems (c : Call) (db : Db) : Prop := ∃ r, (c.prog.run (.opened db)).1 = .ok r

/-- The code of the call is there, and it is active. -/
def Active (c : Call) (db : Db) (p : PromoCode) : Prop :=
  normalize_promo_code c.code ≠ "" ∧
    db.promo_codes.first (fun p => p.code = normalize_promo_code c.code) = some p ∧
    p.is_active = some true

/-- The books with a code that does not expire. -/
def without_expiry (p : PromoCode) (db : Db) : Db :=
  { db with promo_codes := db.promo_codes.put { p with expires_at := none } }

/-- A redemption credits what it says, or it is refused. A time to come keeps
no code from being redeemed, and a time that has come refuses it. -/
structure Disciplined (now : Datetime) (c : Call) (db : Db) : Prop where
  outcome : (∃ r, (c.prog.run (.opened db)).1 = .ok r ∧
    Redeemed c.user db (c.prog.run (.opened db)).2.stored r) ∨ Refused c db
  future : ∀ p t, Active c db p → p.expires_at = some t → now < t →
    Redeems c (without_expiry p db) → Redeems c db
  past : ∀ p t, Active c db p → p.expires_at = some t → t ≤ now → Refused c db

/-! ## When it does -/

/-- The credit of a USD code in millionths, `none` where the charge or the bonus
is too small. The amounts have to fit in 28 digits. -/
def usd_credit (c : Call) (p : PromoCode) : Except PyError (Option Int) := do
  let charge ← usd_charge c.charge_amount_usd
  let charge_minor ← promo_codes.usd_to_minor charge
  if charge_minor < 0 then return none
  else
  let minimum_charge_minor ← promo_codes.usd_to_minor (p.minimum_charge_usd.getD 0)
  if charge_minor < minimum_charge_minor then return none
  else
  let bonus ← bonus_minor p charge_minor
  if bonus ≤ 0 then return none
  else return some ((if c.credit_charge_amount then charge_minor else 0) + bonus)

/-- The amounts fit, and a credit finds a wallet that owes nothing and holds
nothing back. -/
def UsdFits (c : Call) (p : PromoCode) (db : Db) : Prop :=
  ∃ credit, usd_credit c p = .ok credit ∧ ∀ n, credit = some n →
    ∃ wallet, wallet_of c.user db = .ok wallet ∧ 0 ≤ intOr0 wallet.available_minor ∧
      intOr0 wallet.balance_minor = intOr0 wallet.available_minor

/-- An active code has no expiry time, and a USD code with room fits. -/
def Fits (c : Call) (db : Db) : Prop :=
  ∀ p, Active c db p → p.expires_at = none ∧
    (HasRoom db p c.user.id → strOr p.currency (some "USD") ≠ some "TOMAN" → UsdFits c p db)

/-! ## The checks of the code -/

section
variable {c : Call} {db : Db} {p : PromoCode}

/-- An active code passes, or it has an expiry time, or it has no room. -/
theorem run_active (h : Active c db p) :
    (p.expires_at = none ∧ HasRoom db p c.user.id ∧
      (usable_promo_code c.user c.code).run (.opened db) = (.ok p, .opened db)) ∨
    (p.expires_at ≠ none ∧
      (usable_promo_code c.user c.code).run (.opened db) = (.error .type_error, .opened db)) ∨
    (p.expires_at = none ∧ ¬HasRoom db p c.user.id ∧ ∃ text,
      (usable_promo_code c.user c.code).run (.opened db) =
        (.error (.promo_code_redemption_error text), .opened db)) := by
  obtain ⟨hcode, hp, hactive⟩ := h
  unfold usable_promo_code
  rw [if_neg hcode]
  simp only [Prog.run_bind, Prog.run_read, Prog.continueWith_ok, Session.opened, hp, hactive,
    ne_eq, not_true, if_false]
  by_cases hexpires : p.expires_at = none
  · rw [if_neg (not_not.mpr hexpires), Prog.run_bind, Prog.run_read, Prog.continueWith_ok]
    split
    · next htotal =>
      refine .inr (.inr ⟨hexpires, fun hroom => ?_, _, rfl⟩)
      cases hm : p.max_redemptions_total with
      | none => simp [hm] at htotal
      | some m =>
        rw [hm] at htotal
        exact absurd (of_decide_eq_true htotal) (not_le.mpr (hroom.total m hm))
    · next htotal =>
      rw [Prog.run_bind, Prog.run_read, Prog.continueWith_ok]
      split
      · next huser =>
        refine .inr (.inr ⟨hexpires, fun hroom => ?_, _, rfl⟩)
        exact absurd huser.2 (not_le.mpr (hroom.per_user huser.1))
      · next huser =>
        refine .inl ⟨hexpires, ⟨fun m hm => ?_, fun hpos => ?_⟩, rfl⟩
        · rw [hm] at htotal
          simpa using htotal
        · exact not_le.mp fun hle => huser ⟨hpos, hle⟩
  · rw [if_pos hexpires]
    exact .inr (.inl ⟨hexpires, rfl⟩)

/-- Without an active code the call is refused. -/
theorem run_inactive (h : ∀ p, ¬Active c db p) :
    ∃ text, (usable_promo_code c.user c.code).run (.opened db) =
      (.error (.promo_code_redemption_error text), .opened db) := by
  unfold usable_promo_code
  split
  · exact ⟨_, rfl⟩
  · next hcode =>
    rw [Prog.run_bind, Prog.run_read, Prog.continueWith_ok]
    cases hp : db.promo_codes.first fun p => p.code = normalize_promo_code c.code with
    | none =>
      simp only [Session.opened, hp]
      exact ⟨_, rfl⟩
    | some p =>
      simp only [Session.opened, hp]
      have hinactive : p.is_active ≠ some true := fun hactive => h p ⟨hcode, hp, hactive⟩
      rw [if_pos hinactive]
      exact ⟨_, rfl⟩

end

/-! ## A Toman code -/

section
variable {c : Call} {db : Db} {p : PromoCode}

/-- What the credit of a Toman code leaves, in one session of two commits. -/
theorem run_toman (c : Call) (p : PromoCode) (db : Db) :
    (∃ text, (redeem_toman c.user p c.charge_amount_toman c.source c.credit_charge_amount).run
      (.opened db) = (.error (.promo_code_redemption_error text), .opened db)) ∨
    ∃ r d n, (redeem_toman c.user p c.charge_amount_toman c.source c.credit_charge_amount).run
        (.opened db) = (.ok r, ⟨d, d⟩) ∧
      r.total_credit_toman = n ∧ r.total_credit_usd = 0 ∧ r.credit_ledger_entry_id = none ∧
      d.accounts = (withAccount db c.user.id).accounts.put
        (promo_credited (accountRow db c.user.id) n) ∧ d.wallets = db.wallets := by
  unfold redeem_toman
  simp only
  split
  · exact .inl ⟨_, rfl⟩
  split
  · exact .inl ⟨_, rfl⟩
  generalize hn : (if c.credit_charge_amount = true then c.charge_amount_toman else 0) +
    bonus_toman p c.charge_amount_toman = n
  by_cases hle : n ≤ 0
  · rw [if_pos hle]
    exact .inl ⟨_, rfl⟩
  rw [if_neg hle]
  right
  simp only [Prog.run_bind, run_get_or_create_billing_account, Prog.continueWith_ok]
  rw [run_flush_account (get_accountRow _ _) (owner_promo_credited _ _)]
  simp only [Prog.continueWith_ok, Prog.run_bind, run_add_ledger]
  rw [if_pos (Table.accepts_of_no_unique rfl), Prog.continueWith_ok]
  exact ⟨_, _, _, rfl, rfl, rfl, rfl, rfl, rfl⟩

end

/-! ## A USD code -/

section
variable {c : Call} {db : Db} {p : PromoCode} {n : Int} {e : PyError} {wallet : Wallet}

/-- The exception is one of the numbers, and none of the redemption. -/
def Internal (e : PyError) : Prop := ∀ text, e ≠ .promo_code_redemption_error text

theorem internal_charge {x : FloatArg} (h : usd_charge x = .error e) : Internal e := by
  cases x <;> cases h <;> exact fun _ h => by cases h

theorem internal_minor {x : PyFloat} (h : promo_codes.usd_to_minor x = .error e) : Internal e := by
  rw [usd_to_minor_error h]
  exact fun _ h => by cases h

theorem internal_bonus {charge : Int} (h : bonus_minor p charge = .error e) : Internal e := by
  unfold bonus_minor at h
  split at h
  · cases h
  · cases hm : promo_codes.usd_to_minor (p.bonus_value_usd.getD 0) with
    | error e' =>
      rw [hm] at h
      cases h
      exact internal_minor hm
    | ok m =>
      rw [hm] at h
      cases h

theorem minor_nonneg_bonus {charge bonus : Int} (hcharge : ¬charge < 0) (hbonus : ¬bonus ≤ 0)
    (b : Bool) : ¬(if b then charge else 0) + bonus ≤ 0 := by
  cases b <;> simp <;> omega

/-- The wallet of the user is found or opened, or its opening amount does not fit. -/
theorem run_wallet (user : UserPreference) (stored db : Db) :
    (∃ e, wallet_of user db = .error e ∧ Internal e ∧
      (get_or_create_wallet user).run ⟨stored, db⟩ = (.error e, ⟨stored, db⟩)) ∨
    ∃ w₀ w d, wallet_of user db = .ok w₀ ∧
      (get_or_create_wallet user).run ⟨stored, db⟩ = (.ok w, ⟨stored, d⟩) ∧
      wallet_row user.id d = some w ∧ w.available_minor = w₀.available_minor ∧
      w.balance_minor = w₀.balance_minor ∧ d.accounts = db.accounts ∧
      d.credit_ledger = db.credit_ledger := by
  unfold get_or_create_wallet wallet_of
  rw [Prog.run_bind, Prog.run_read, Prog.continueWith_ok]
  cases hrow : wallet_row user.id db with
  | some w =>
    have hfirst := hrow
    unfold wallet_row at hfirst
    simp only [hfirst]
    exact .inr ⟨w, w, db, rfl, rfl, hrow, rfl, rfl, rfl, rfl⟩
  | none =>
    have hfirst := hrow
    unfold wallet_row at hfirst
    simp only [hfirst, Prog.run_bind]
    cases hminor : promo_codes.usd_to_minor (user.credit_balance_usd.getD 0) with
    | error e => exact .inl ⟨e, rfl, internal_minor hminor, rfl⟩
    | ok minor =>
      have haccepts := accepts_new_wallet hfirst minor
      have hadmits : Store.admits db (Change.addWallet (new_wallet user.id minor)) = true :=
        decide_eq_true haccepts
      refine .inr ⟨new_wallet user.id minor,
        { new_wallet user.id minor with id := db.wallets.nextKey },
        db.apply (.addWallet (new_wallet user.id minor)), rfl, ?_, ?_, rfl, rfl, rfl, rfl⟩
      · simp only [Prog.run_lift_ok, Prog.continueWith_ok, Prog.run_bind, Prog.run_read,
          Prog.run_flush]
        exact if_pos hadmits ▸ rfl
      · exact Table.first_insert_none haccepts hfirst (decide_eq_true rfl)

/-- What a credit leaves: one sum in both columns of the wallet, and the entry. -/
structure Credited (user : UserPreference) (db d : Db) (w₀ : Wallet) (n : Int) (id : Nat) :
    Prop where
  row : ∃ w, wallet_row user.id d = some w ∧
    w.available_minor = some (max 0 (intOr0 w₀.available_minor) + n) ∧
    w.balance_minor = some (max 0 (intOr0 w₀.available_minor) + n)
  entry : ∃ x, d.credit_ledger.get id = some x ∧ x.amount_minor = some n
  accounts : d.accounts = db.accounts

theorem run_credit (user : UserPreference) (hpos : 0 < n) (entry_type : String)
    (reason : Option String) (metadata : Dict) (stored db : Db) :
    (∃ e, wallet_of user db = .error e ∧ Internal e ∧
      ((apply_credit_delta user n entry_type reason metadata false false).run ⟨stored, db⟩) =
        (.error e, ⟨stored, db⟩)) ∨
    ∃ w₀ result user' d id, wallet_of user db = .ok w₀ ∧
      (apply_credit_delta user n entry_type reason metadata false false).run ⟨stored, db⟩ =
        (.ok (result, user'), ⟨stored, d⟩) ∧
      result.ok = true ∧ result.ledger_entry.map (·.id) = some id ∧ Credited user db d w₀ n id := by
  unfold apply_credit_delta get_balance_minor
  rcases run_wallet user stored db with ⟨e, hw, he, hrun⟩ |
    ⟨w₀, w, d, hw, hrun, hrow, havailable, hbalance, haccounts, hledger⟩
  · exact .inl ⟨e, hw, he, by simp only [Prog.run_bind, hrun, Prog.continueWith_error]⟩
  · right
    have hnot : ¬(n < 0 ∧ True ∧ max 0 (intOr0 w.available_minor) + n < 0 ∧
        user.is_admin ≠ some true) := by
      rintro ⟨hneg, -⟩
      omega
    simp only [Prog.run_bind, hrun, Prog.continueWith_ok, Prog.run_pure]
    rw [if_neg hnot, Prog.run_bind, wallet_found hrow, Prog.continueWith_ok, Prog.run_bind,
      Prog.run_read, Prog.continueWith_ok, run_writes, if_pos (Table.accepts_of_no_unique rfl)]
    refine ⟨w₀, _, _, _, d.credit_ledger.nextKey, hw, rfl, rfl, rfl, ?_, ?_, haccounts⟩
    · refine ⟨_, row_posted hrow, ?_, ?_⟩
      · rw [← havailable]
        rfl
      · rw [← havailable]
        rfl
    · exact ⟨_, Table.get_insert_new (Table.accepts_of_no_unique rfl), rfl⟩

/-- How the branch of a USD code ends. -/
inductive UsdRun (c : Call) (p : PromoCode) (db : Db) :
    Except PyError PromoCodeRedemption × Session Db → Prop
  | unfit (e : PyError) (t : Session Db) (he : Internal e)
      (h : ∀ n, usd_credit c p = .ok n → n ≠ none ∧ wallet_of c.user db = .error e) :
      UsdRun c p db (.error e, t)
  | small (text : String) (h : usd_credit c p = .ok none) :
      UsdRun c p db (.error (.promo_code_redemption_error text), .opened db)
  | credited (n : Int) (w₀ : Wallet) (r : PromoCodeRedemption) (d d' : Db) (id : Nat)
      (h : usd_credit c p = .ok (some n)) (hw : wallet_of c.user db = .ok w₀)
      (hd : Credited c.user db d w₀ n id) (hr : r.total_credit_toman = 0)
      (husd : r.total_credit_usd = promo_codes.minor_to_usd n)
      (hid : r.credit_ledger_entry_id = some id) (hwallets : d'.wallets = d.wallets)
      (hledger : d'.credit_ledger = d.credit_ledger) (haccounts : d'.accounts = d.accounts) :
      UsdRun c p db (.ok r, ⟨d', d'⟩)

theorem run_usd (c : Call) (p : PromoCode) (db : Db) :
    UsdRun c p db ((c.usd p).run (.opened db)) := by
  have hstop : ∀ {e : PyError} {n : Option Int}, usd_credit c p = .error e →
      usd_credit c p = .ok n → n ≠ none ∧ wallet_of c.user db = .error e := by
    intro e n h h'
    rw [h] at h'
    cases h'
  unfold Call.usd redeem_usd
  rw [Prog.run_bind, run_lift]
  cases hcharge : usd_charge c.charge_amount_usd with
  | error e =>
    refine .unfit e _ (internal_charge hcharge) fun n => hstop ?_
    simp only [usd_credit, hcharge]
    rfl
  | ok charge =>
  rw [Prog.continueWith_ok, Prog.run_bind, run_lift]
  cases hminor : promo_codes.usd_to_minor charge with
  | error e =>
    refine .unfit e _ (internal_minor hminor) fun n => hstop ?_
    simp only [usd_credit, hcharge, bind, Except.bind, hminor]
  | ok charge_minor =>
  rw [Prog.continueWith_ok]
  by_cases hneg : charge_minor < 0
  · rw [if_pos hneg]
    refine .small _ ?_
    simp only [usd_credit, hcharge, bind, Except.bind, hminor, if_pos hneg]
    rfl
  rw [if_neg hneg, Prog.run_bind, run_lift]
  cases hminimum : promo_codes.usd_to_minor (p.minimum_charge_usd.getD 0) with
  | error e =>
    refine .unfit e _ (internal_minor hminimum) fun n => hstop ?_
    simp only [usd_credit, hcharge, bind, Except.bind, hminor, if_neg hneg, hminimum]
  | ok minimum =>
  rw [Prog.continueWith_ok]
  by_cases hbelow : charge_minor < minimum
  · rw [if_pos hbelow]
    refine .small _ ?_
    simp only [usd_credit, hcharge, bind, Except.bind, hminor, if_neg hneg, hminimum,
      if_pos hbelow]
    rfl
  rw [if_neg hbelow, Prog.run_bind, run_lift]
  cases hbonus : bonus_minor p charge_minor with
  | error e =>
    refine .unfit e _ (internal_bonus hbonus) fun n => hstop ?_
    simp only [usd_credit, hcharge, bind, Except.bind, hminor, if_neg hneg, hminimum,
      if_neg hbelow, hbonus]
  | ok bonus =>
  rw [Prog.continueWith_ok]
  by_cases hzero : bonus ≤ 0
  · rw [if_pos hzero]
    refine .small _ ?_
    simp only [usd_credit, hcharge, bind, Except.bind, hminor, if_neg hneg, hminimum,
      if_neg hbelow, hbonus, if_pos hzero]
    rfl
  rw [if_neg hzero]
  have hcredit : usd_credit c p =
      .ok (some ((if c.credit_charge_amount then charge_minor else 0) + bonus)) := by
    simp only [usd_credit, hcharge, bind, Except.bind, hminor, if_neg hneg, hminimum,
      if_neg hbelow, hbonus, if_neg hzero]
    rfl
  have hpos := not_le.mp (minor_nonneg_bonus hneg hzero c.credit_charge_amount)
  simp only
  generalize hn : (if c.credit_charge_amount = true then charge_minor else 0) + bonus = n
    at hcredit hpos ⊢
  rw [if_neg (not_le.mpr hpos), Prog.run_bind]
  rcases run_credit c.user hpos "promo_code_credit" (some ("promo code " ++ p.code)) _ db db with
    ⟨e, hw, he, hrun⟩ | ⟨w₀, result, user', d, id, hw, hrun, hok, hentry, hd⟩
  · erw [hrun]
    refine .unfit e _ he fun x hx => ?_
    rw [hcredit] at hx
    cases hx
    exact ⟨Option.some_ne_none n, hw⟩
  · erw [hrun]
    rw [Prog.continueWith_ok]
    simp only [hok, Bool.true_eq_false, if_false]
    split
    · exact .credited n w₀ _ d _ id hcredit hw hd rfl rfl hentry rfl rfl rfl
    · exact .credited n w₀ _ d _ id hcredit hw hd rfl rfl hentry rfl rfl rfl

end

/-! ## The law -/

section
variable {c : Call} {db d d' : Db} {p : PromoCode} {n : Int} {r : PromoCodeRedemption}
variable {w₀ : Wallet} {id : Nat}

/-- The outcome of a call that a Toman code credits is the redemption. -/
theorem redeemed_toman (htoman : r.total_credit_toman = n) (husd : r.total_credit_usd = 0)
    (hentry : r.credit_ledger_entry_id = none)
    (haccounts : d.accounts = (withAccount db c.user.id).accounts.put
      (promo_credited (accountRow db c.user.id) n)) (hwallets : d.wallets = db.wallets) :
    Redeemed c.user db d r := by
  have hminor : credited_minor d r = 0 := by
    unfold credited_minor
    rw [hentry]
    rfl
  have hwallet : wallet_of c.user d = wallet_of c.user db := by
    unfold wallet_of wallet_row
    rw [hwallets]
  have hput := purse_put (first_withAccount db c.user.id)
    (owner_promo_credited (accountRow db c.user.id) n) c.user.id
  rw [← haccounts, if_pos rfl] at hput
  have hheld : purse (withAccount db c.user.id).accounts c.user.id = held db c.user.id :=
    held_account db c.user.id c.user.id
  have hcredit : available (promo_credited (accountRow db c.user.id) n) =
      available (accountRow db c.user.id) + n := by
    unfold available promo_credited
    simp only [intOr0, Option.getD_some]
    omega
  refine ⟨?_, ?_, ?_, ?_⟩
  · rw [htoman]
    refine hput.trans ?_
    rw [hheld, hcredit]
    omega
  · rw [husd, hminor]
    decide +kernel
  · unfold usd_available
    rw [hwallet, hminor, add_zero]
  · unfold usd_column
    rw [hwallet, hminor, add_zero]

/-- A credit raises both columns by itself where the wallet owes nothing and
holds nothing back. -/
theorem redeemed_usd_iff (hw : wallet_of c.user db = .ok w₀) (hd : Credited c.user db d w₀ n id)
    (hr : r.total_credit_toman = 0) (husd : r.total_credit_usd = promo_codes.minor_to_usd n)
    (hid : r.credit_ledger_entry_id = some id) (hwallets : d'.wallets = d.wallets)
    (hledger : d'.credit_ledger = d.credit_ledger) (haccounts : d'.accounts = d.accounts) :
    Redeemed c.user db d' r ↔ 0 ≤ intOr0 w₀.available_minor ∧
      intOr0 w₀.balance_minor = intOr0 w₀.available_minor := by
  obtain ⟨w, hrow, havailable, hbalance⟩ := hd.row
  obtain ⟨x, hx, hamount⟩ := hd.entry
  have hminor : credited_minor d' r = n := by
    unfold credited_minor
    rw [hid, hledger, Option.bind_some, hx, Option.elim_some, hamount]
    rfl
  have hheld : held d' c.user.id = held db c.user.id := by
    unfold held
    rw [haccounts, hd.accounts]
  have hrow' : wallet_of c.user d' = .ok w := by
    unfold wallet_row at hrow
    unfold wallet_of wallet_row
    rw [hwallets, hrow]
  have hbefore : usd_available c.user db = intOr0 w₀.available_minor ∧
      usd_column c.user db = intOr0 w₀.balance_minor := by
    unfold usd_available usd_column
    rw [hw]
    exact ⟨rfl, rfl⟩
  have hafter : usd_available c.user d' = max 0 (intOr0 w₀.available_minor) + n ∧
      usd_column c.user d' = max 0 (intOr0 w₀.available_minor) + n := by
    unfold usd_available usd_column
    rw [hrow']
    change intOr0 w.available_minor = _ ∧ intOr0 w.balance_minor = _
    rw [havailable, hbalance]
    exact ⟨rfl, rfl⟩
  constructor
  · intro h
    have h₁ := h.available
    have h₂ := h.balance
    rw [hafter.1, hbefore.1, hminor] at h₁
    rw [hafter.2, hbefore.2, hminor] at h₂
    omega
  · rintro ⟨hnonneg, hsame⟩
    refine ⟨by rw [hheld, hr, add_zero], by rw [husd, hminor], ?_, ?_⟩
    · rw [hafter.1, hbefore.1, hminor]
      omega
    · rw [hafter.2, hbefore.2, hminor]
      omega

/-- The outcome of a USD code is right if and only if it fits. -/
theorem usd_outcome_iff {x : Except PyError PromoCodeRedemption × Session Db}
    (h : UsdRun c p db x) :
    ((∃ r, x.1 = .ok r ∧ Redeemed c.user db x.2.stored r) ∨
      ∃ text, x = (.error (.promo_code_redemption_error text), .opened db)) ↔ UsdFits c p db := by
  cases h with
  | unfit e t he h =>
    constructor
    · rintro (⟨r, hr, -⟩ | ⟨text, ht⟩)
      · cases hr
      · cases ht
        exact absurd rfl (he text)
    · rintro ⟨credit, hcredit, hfits⟩
      obtain ⟨hsome, herror⟩ := h credit hcredit
      obtain ⟨n, hn⟩ := Option.ne_none_iff_exists'.mp hsome
      obtain ⟨w, hw, -⟩ := hfits n hn
      rw [herror] at hw
      cases hw
  | small text h =>
    refine ⟨fun _ => ⟨none, h, fun n hn => by cases hn⟩, fun _ => .inr ⟨text, rfl⟩⟩
  | credited n w₀ r d d' id h hw hd hr husd hid hwallets hledger haccounts =>
    have hiff := redeemed_usd_iff (c := c) hw hd hr husd hid hwallets hledger haccounts
    constructor
    · rintro (⟨r', hr', hredeemed⟩ | ⟨text, ht⟩)
      · cases hr'
        refine ⟨some n, h, fun m hm => ?_⟩
        cases hm
        exact ⟨w₀, hw, hiff.mp hredeemed⟩
      · cases ht
    · rintro ⟨credit, hcredit, hfits⟩
      rw [h] at hcredit
      cases hcredit
      obtain ⟨w, hw', hok⟩ := hfits n rfl
      rw [hw] at hw'
      cases hw'
      exact .inl ⟨r, rfl, hiff.mpr hok⟩

theorem Active.unique {q : PromoCode} (h : Active c db p) (h' : Active c db q) : q = p := by
  obtain ⟨-, hp, -⟩ := h
  obtain ⟨-, hq, -⟩ := h'
  rw [hp] at hq
  cases hq
  rfl

theorem refused_of_checks {e : PyError}
    (h : (usable_promo_code c.user c.code).run (.opened db) = (.error e, .opened db)) :
    c.prog.run (.opened db) = (.error e, .opened db) := by
  unfold Call.prog
  rw [Prog.run_bind, h, Prog.continueWith_error]

theorem outcome_iff (c : Call) (db : Db) :
    ((∃ r, (c.prog.run (.opened db)).1 = .ok r ∧
      Redeemed c.user db (c.prog.run (.opened db)).2.stored r) ∨ Refused c db) ↔ Fits c db := by
  by_cases hactive : ∃ p, Active c db p
  · obtain ⟨p, hp⟩ := hactive
    have hfits : Fits c db ↔ p.expires_at = none ∧ (HasRoom db p c.user.id →
        strOr p.currency (some "USD") ≠ some "TOMAN" → UsdFits c p db) := by
      refine ⟨fun h => h p hp, fun h q hq => ?_⟩
      rw [hp.unique hq]
      exact h
    rw [hfits]
    rcases run_active hp with ⟨hexpires, hroom, hrun⟩ | ⟨hexpires, hrun⟩ |
      ⟨hexpires, hroom, text, hrun⟩
    · have hprog : c.prog.run (.opened db) =
          (if strOr p.currency (some "USD") = some "TOMAN" then
            redeem_toman c.user p c.charge_amount_toman c.source c.credit_charge_amount
          else c.usd p).run (.opened db) := by
        unfold Call.prog
        rw [Prog.run_bind, hrun, Prog.continueWith_ok]
      unfold Refused
      rw [hprog]
      by_cases hcurrency : strOr p.currency (some "USD") = some "TOMAN"
      · rw [if_pos hcurrency]
        refine ⟨fun _ => ⟨hexpires, fun _ hne => absurd hcurrency hne⟩, fun _ => ?_⟩
        rcases run_toman c p db with hrefused | ⟨r, d, n, htoman, hr, husd, hid, hacc, hwal⟩
        · exact .inr hrefused
        · rw [htoman]
          exact .inl ⟨r, rfl, redeemed_toman hr husd hid hacc hwal⟩
      · rw [if_neg hcurrency, usd_outcome_iff (run_usd c p db)]
        exact ⟨fun h => ⟨hexpires, fun _ _ => h⟩, fun h => h.2 hroom hcurrency⟩
    · have hprog := refused_of_checks hrun
      unfold Refused
      rw [hprog]
      constructor
      · rintro (⟨r, hr, -⟩ | ⟨text, ht⟩)
        · cases hr
        · cases ht
      · intro h
        exact absurd h.1 hexpires
    · exact ⟨fun _ => ⟨hexpires, fun h => absurd h hroom⟩,
        fun _ => .inr ⟨text, refused_of_checks hrun⟩⟩
  · obtain ⟨text, hrun⟩ := run_inactive fun p hp => hactive ⟨p, hp⟩
    exact ⟨fun _ p hp => absurd ⟨p, hp⟩ hactive, fun _ => .inr ⟨text, refused_of_checks hrun⟩⟩

end

/-- A code that is good for one more day. -/
def last_day_code : PromoCode where
  id := 1
  code := "WELCOME"
  currency := some "TOMAN"
  bonus_value_toman := some 10000
  expires_at := some (noon + days 1)

def last_day : Db := { shop with promo_codes := Table.empty.insert last_day_code }

def welcome : Call where
  user := customer
  code := some "welcome"
  charge_amount_usd := .finite 0
  charge_amount_toman := 0
  source := "account"
  credit_charge_amount := true

end dr_boz.promo_errors
