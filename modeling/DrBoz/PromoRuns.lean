-- What the redemption of a promo code does in a session. A Toman code credits
-- the gift balance in two commits. A USD code and a refused code leave the
-- Toman books alone.
import DrBoz.Effects
import DrBoz.PromoCodes

open keyed_table unit_of_work dr_boz.py dr_boz.models dr_boz.codex_capacity dr_boz.toman_billing
open dr_boz.promo_codes dr_boz.views dr_boz.billing_runs dr_boz.effects

namespace dr_boz.promo_runs

/-- A change of a table beside the books. -/
def Beside (db db' : Db) : Prop := ∃ c, isAside c = true ∧ db' = db.apply c

theorem moves_beside {c : Change} (h : isAside c = true) :
    (Prog.flush c : Tx Unit).Moves Beside := Prog.moves_flush fun _ => ⟨c, h, rfl⟩

theorem Beside.books {db db' : Db} (h : Beside db db') :
    db'.accounts = db.accounts ∧ db'.ledger = db.ledger ∧
      db'.subscriptions = db.subscriptions ∧ db'.plans = db.plans := by
  obtain ⟨c, hc, rfl⟩ := h
  cases c with
  | addUser | setTelegramId | setUser | addRedemption | setRedemption | setPaymentRequest
  | addAdminAction | addWallet | setWallet | addCreditLedger | addReferralEvent | addClick
  | setClick => exact ⟨rfl, rfl, rfl, rfl⟩
  | addAccount | setAccount | addLedger | addSubscription | setSubscription
  | deleteSubscription | setPool | addConfig | addPaymentRequest | addStarterConfig
  | setStarterConfig => cases hc

/-! ## The USD wallet -/

theorem moves_get_or_create_wallet (user : UserPreference) :
    (get_or_create_wallet user).Moves Beside := by
  unfold get_or_create_wallet
  refine Prog.moves_bind (Prog.moves_read _) fun wallet => ?_
  cases wallet with
  | some wallet => exact Prog.moves_pure _
  | none =>
    exact Prog.moves_bind (Prog.moves_lift _) fun _ => Prog.moves_bind (Prog.moves_read _) fun _ =>
      Prog.moves_bind (moves_beside rfl) fun _ => Prog.moves_pure _

theorem moves_apply_credit_delta (user : UserPreference) (amount : Int) (entry_type : String)
    (reason : Option String) (metadata : Dict) (allow_negative commit : Bool) :
    (apply_credit_delta user amount entry_type reason metadata allow_negative commit).Moves
      Beside := by
  unfold apply_credit_delta get_balance_minor
  refine Prog.moves_bind (Prog.moves_bind (moves_get_or_create_wallet user) fun _ =>
    Prog.moves_pure _) fun current => ?_
  split
  · exact Prog.moves_pure _
  · exact Prog.moves_bind (moves_get_or_create_wallet user) fun _ =>
      Prog.moves_bind (Prog.moves_read _) fun _ => Prog.moves_bind (moves_beside rfl) fun _ =>
      Prog.moves_bind (moves_beside rfl) fun _ => Prog.moves_bind (moves_beside rfl) fun _ =>
      Prog.moves_bind (Prog.moves_publishIf _) fun _ => Prog.moves_pure _

theorem moves_redeem_usd (user : UserPreference) (promo_code : PromoCode) (charge : PyFloat)
    (source : String) (credit_charge_amount : Bool) :
    (redeem_usd user promo_code charge source credit_charge_amount).Moves Beside := by
  have rest : ∀ added : PromoCodeRedemption, (do
      let id ← Prog.read fun db => db.promo_redemptions.nextKey
      Prog.flush (.addRedemption added)
      Prog.publish
      return { added with id } : Tx PromoCodeRedemption).Moves Beside := fun added =>
    Prog.moves_bind (Prog.moves_read _) fun _ => Prog.moves_bind (moves_beside rfl) fun _ =>
      Prog.moves_bind Prog.moves_publish fun _ => Prog.moves_pure _
  unfold redeem_usd
  refine Prog.moves_bind (Prog.moves_lift _) fun charge_minor =>
    Prog.moves_ite (fun _ => Prog.moves_throw _) fun _ => ?_
  refine Prog.moves_bind (Prog.moves_lift _) fun minimum =>
    Prog.moves_ite (fun _ => Prog.moves_throw _) fun _ => ?_
  refine Prog.moves_bind (Prog.moves_lift _) fun bonus =>
    Prog.moves_ite (fun _ => Prog.moves_throw _) fun _ =>
    Prog.moves_ite (fun _ => Prog.moves_throw _) fun _ => ?_
  refine Prog.moves_bind (moves_apply_credit_delta _ _ _ _ _ _ _) fun result =>
    Prog.moves_ite (fun _ => Prog.moves_throw _) fun _ => ?_
  exact Prog.moves_ite (fun _ => Prog.moves_bind (moves_beside rfl) fun _ => rest _)
    fun _ => rest _

/-! ## Redemption -/

/-- The arguments of `redeem_promo_code_for_user`. -/
structure PromoCall where
  user : UserPreference
  code : Option String
  charge_amount_usd : PyFloat
  charge_amount_toman : Int
  source : String
  credit_charge_amount : Bool

def PromoCall.prog (c : PromoCall) : Tx PromoCodeRedemption :=
  redeem_promo_code_for_user c.user c.code c.charge_amount_usd c.charge_amount_toman c.source
    c.credit_charge_amount

/-- What a Toman code credits: the bonus, with the charge when it counts. -/
def PromoCall.credit (c : PromoCall) (promo_code : PromoCode) : Int :=
  (if c.credit_charge_amount then c.charge_amount_toman else 0) +
    bonus_toman promo_code c.charge_amount_toman

def withRedemptions (db : Db) (t : Table PromoCodeRedemption) : Db :=
  { db with promo_redemptions := t }

/-- How a redemption ends. -/
inductive PromoRun (c : PromoCall) (s : Session Db) :
    Except PyError PromoCodeRedemption → Session Db → Prop where
  | beside (r : Except PyError PromoCodeRedemption) (s' : Session Db)
      (h : Trail Beside s s') : PromoRun c s r s'
  | credited (promo_code : PromoCode) (e : TomanLedgerEntry) (t : Table PromoCodeRedemption)
      (r : PromoCodeRedemption)
      (hp : s.view.promo_codes.first (fun p => p.code = normalize_promo_code c.code) =
        some promo_code)
      (hpos : 0 < c.credit promo_code)
      (hb : e.billing_account_id = some (accountRow s.view c.user.id).id)
      (hg : e.gift_delta_toman = c.credit promo_code) (hd : e.paid_delta_toman = 0)
      (hk : e.idempotency_key = none)
      (hr : r.bonus_amount_toman = bonus_toman promo_code c.charge_amount_toman) :
      PromoRun c s (.ok r) (Session.commit ⟨s.stored, withRedemptions
        (post (withAccount s.view c.user.id)
          (promo_credited (accountRow s.view c.user.id) (c.credit promo_code)) [e]) t⟩)

/-- The limits of the code leave a redemption for the user. -/
structure HasRoom (db : Db) (p : PromoCode) (user_id : Nat) : Prop where
  total : ∀ m, p.max_redemptions_total = some m →
    (db.promo_redemptions.count fun r => r.promo_code_id = p.id : Int) < m
  per_user : 0 < intOr0 p.max_redemptions_per_user →
    (db.promo_redemptions.count fun r => r.promo_code_id = p.id && r.user_id = user_id : Int) <
      intOr0 p.max_redemptions_per_user

/-- The checks read only. A code that passes them is the one that was asked
for, and its limits have room. -/
theorem run_usable_promo_code (user : UserPreference) (code : Option String) (s : Session Db) :
    (∃ p, s.view.promo_codes.first (fun p => p.code = normalize_promo_code code) = some p ∧
      HasRoom s.view p user.id ∧ (usable_promo_code user code).run s = (.ok p, s)) ∨
    ∃ e, (usable_promo_code user code).run s = (.error e, s) := by
  unfold usable_promo_code
  split
  · exact .inr ⟨_, rfl⟩
  simp only [Prog.run_bind, Prog.run_read, Prog.continueWith_ok]
  cases hp : s.view.promo_codes.first (fun p => p.code = normalize_promo_code code) with
  | none => exact .inr ⟨_, rfl⟩
  | some p =>
    simp only
    split
    · exact .inr ⟨_, rfl⟩
    split
    · exact .inr ⟨_, rfl⟩
    simp only [Prog.run_bind, Prog.run_read, Prog.continueWith_ok]
    split
    · exact .inr ⟨_, rfl⟩
    rename_i htotal
    simp only [Prog.run_bind, Prog.run_read, Prog.continueWith_ok]
    split
    · exact .inr ⟨_, rfl⟩
    · rename_i huser
      refine .inl ⟨p, rfl, ⟨fun m hm => ?_, fun hpos => ?_⟩, rfl⟩
      · rw [hm] at htotal
        simpa using htotal
      · exact not_le.mp fun hle => huser ⟨hpos, hle⟩

theorem owner_promo_credited (a : UserBillingAccount) (n : Int) :
    SameOwner (promo_credited a n) a := ⟨rfl, rfl, rfl⟩

/-- The entry of a credit has no key, so nothing keeps it out. -/
theorem promoRun_credited {c : PromoCall} {s : Session Db} {p : PromoCode} {e : TomanLedgerEntry}
    {k : TomanLedgerEntry → Tx PromoCodeRedemption}
    (hp : s.view.promo_codes.first (fun p => p.code = normalize_promo_code c.code) = some p)
    (hpos : 0 < c.credit p)
    (he : e.billing_account_id = some (accountRow s.view c.user.id).id ∧
      e.gift_delta_toman = c.credit p ∧ e.paid_delta_toman = 0 ∧ e.idempotency_key = none)
    (hk : ∀ x st v, ∃ t r, r.bonus_amount_toman = bonus_toman p c.charge_amount_toman ∧
      (k x).run ⟨st, v⟩ = (.ok r, Session.commit ⟨st, withRedemptions v t⟩)) :
    let x := Prog.continueWith k ((add_ledger e).run ⟨s.stored,
      putAccount (withAccount s.view c.user.id)
        (promo_credited (accountRow s.view c.user.id) (c.credit p))⟩)
    PromoRun c s x.1 x.2 := by
  obtain ⟨hb, hg, hd, hkey⟩ := he
  rcases add_ledger_cases e ⟨s.stored, putAccount (withAccount s.view c.user.id)
    (promo_credited (accountRow s.view c.user.id) (c.credit p))⟩ with ⟨-, hrun⟩ | ⟨hno, -⟩
  · simp only [hrun, Prog.continueWith_ok]
    obtain ⟨t, r, hr, hrest⟩ := hk _ s.stored (addLedger (putAccount (withAccount s.view c.user.id)
      (promo_credited (accountRow s.view c.user.id) (c.credit p))) e)
    rw [hrest]
    exact .credited p e t r hp hpos hb hg hd hkey hr
  · exact absurd (Table.accepts_of_no_unique hkey) hno

theorem promoRun_toman {c : PromoCall} {s : Session Db} {p : PromoCode}
    (hp : s.view.promo_codes.first (fun p => p.code = normalize_promo_code c.code) = some p) :
    let x := (redeem_toman c.user p c.charge_amount_toman c.source c.credit_charge_amount).run s
    PromoRun c s x.1 x.2 := by
  unfold redeem_toman
  by_cases h1 : c.charge_amount_toman < intOr0 p.minimum_charge_toman
  · simp only [if_pos h1]
    exact .beside _ _ (.refl s)
  by_cases h2 : bonus_toman p c.charge_amount_toman ≤ 0
  · simp only [if_neg h1, if_pos h2]
    exact .beside _ _ (.refl s)
  by_cases h3 : c.credit p ≤ 0
  · have h3' := h3
    unfold PromoCall.credit at h3'
    simp only [if_neg h1, if_neg h2, if_pos h3']
    exact .beside _ _ (.refl s)
  have h3' := h3
  unfold PromoCall.credit at h3'
  simp only [if_neg h1, if_neg h2, if_neg h3', Prog.run_bind, run_get_or_create_billing_account,
    Prog.continueWith_ok]
  rw [run_flush_account (get_accountRow _ _) (owner_promo_credited _ _)]
  simp only [Prog.continueWith_ok, Prog.run_bind]
  exact promoRun_credited hp (not_le.mp h3) ⟨rfl, rfl, rfl, rfl⟩ fun _ _ _ => ⟨_, _, rfl, rfl⟩

theorem promoRun (c : PromoCall) (s : Session Db) :
    PromoRun c s (c.prog.run s).1 (c.prog.run s).2 := by
  unfold PromoCall.prog redeem_promo_code_for_user
  simp only [Prog.run_bind]
  rcases run_usable_promo_code c.user c.code s with ⟨p, hp, -, hrun⟩ | ⟨e, hrun⟩
  · rw [hrun, Prog.continueWith_ok]
    by_cases hcur : strOr p.currency (some "USD") = some "TOMAN"
    · rw [if_pos hcur]
      exact promoRun_toman hp
    · rw [if_neg hcur]
      exact .beside _ _ (moves_redeem_usd _ _ _ _ _ s)
  · rw [hrun]
    exact .beside _ _ (.refl s)

/-! ## Its effects on the books -/

theorem trail_of_beside {now : Datetime} {s s' : Session Db} (h : Trail Beside s s') :
    EffectTrail now s s' :=
  h.mono fun db db' hb => by
    obtain ⟨c, hc, rfl⟩ := hb
    exact effect_aside now db hc

theorem effect_withRedemptions (now : Datetime) (db : Db) (t : Table PromoCodeRedemption) :
    Effect now db (withRedemptions db t) := .aside _ rfl rfl rfl rfl id

theorem trail_of_promo {now : Datetime} {c : PromoCall} {s s' : Session Db}
    {r : Except PyError PromoCodeRedemption} (h : PromoRun c s r s') : EffectTrail now s s' := by
  cases h with
  | beside r s' h => exact trail_of_beside h
  | credited p e t r hp hpos hb hg hd hk hr =>
    refine (((trail_account c.user.id).step (.posting (accountRow s.view c.user.id)
      (promo_credited (accountRow s.view c.user.id) (c.credit p)) [e] (get_accountRow _ _)
      (owner_promo_credited _ _) ?_ ?_ ?_ ?_
      ⟨Table.accepts_of_no_unique hk, trivial⟩)).step (effect_withRedemptions now _ t)).commit
    · intro x hx
      rw [List.mem_singleton.mp hx]
      exact hb
    · simp [promo_credited, hg, intOr0]
    · simp [promo_credited, hd]
    · intro _ hg0 hp0
      refine ⟨?_, hp0⟩
      simp only [promo_credited, intOr0, Option.getD_some] at hg0 ⊢
      omega

end dr_boz.promo_runs
