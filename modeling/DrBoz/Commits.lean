-- What the services write up to their commit: the parts that never commit,
-- and the changes that each of them can send. The laws about interleavings
-- build on these parts.
import DrBoz.Lib.FirstCommits
import DrBoz.PromoCodes

open keyed_table unit_of_work dr_boz.py dr_boz.models dr_boz.codex_capacity dr_boz.toman_billing
open dr_boz.promo_codes

namespace dr_boz.commits

/-! ## Parts without a commit -/

theorem silent_account (user : UserPreference) : (get_or_create_billing_account user).Silent := by
  refine (Prog.silent_read _).bind fun account => ?_
  cases account with
  | some a => exact Prog.silent_pure a
  | none =>
    exact (Prog.silent_read _).bind fun _ => (Prog.silent_flush _).bind fun _ => Prog.silent_pure _

theorem silent_config : get_or_create_subscription_config.Silent := by
  refine (Prog.silent_read _).bind fun config => ?_
  cases config with
  | some c => exact Prog.silent_pure c
  | none =>
    exact (Prog.silent_read _).bind fun _ => (Prog.silent_flush _).bind fun _ => Prog.silent_pure _

theorem silent_existing (key : Option String) : (existing_ledger key).Silent := by
  unfold existing_ledger
  split
  · exact Prog.silent_read _
  · exact Prog.silent_pure _

theorem silent_add_ledger (e : TomanLedgerEntry) : (add_ledger e).Silent :=
  (Prog.silent_read _).bind fun _ => (Prog.silent_flush _).bind fun _ => Prog.silent_pure _

theorem silent_assign (u : UserSubscription) : (assign_subscription_pool u).Silent := by
  unfold assign_subscription_pool
  split
  · refine (Prog.silent_read _).bind fun pool => ?_
    cases pool
    · exact Prog.silent_throw _
    · exact Prog.silent_pure _
  · refine (Prog.silent_read _).bind fun pool => ?_
    cases pool
    · exact Prog.silent_throw _
    · exact (Prog.silent_flush _).bind fun _ => (Prog.silent_flush _).bind fun _ =>
        Prog.silent_pure _

theorem silent_wallet (user : UserPreference) : (get_or_create_wallet user).Silent := by
  refine (Prog.silent_read _).bind fun wallet => ?_
  cases wallet with
  | some w => exact Prog.silent_pure w
  | none =>
    exact (Prog.silent_lift _).bind fun _ => (Prog.silent_read _).bind fun _ =>
      (Prog.silent_flush _).bind fun _ => Prog.silent_pure _

theorem silent_credit_delta (user : UserPreference) (amount : Int) (entry_type : String)
    (reason : Option String) (metadata : Dict) (allow_negative : Bool) :
    (apply_credit_delta user amount entry_type reason metadata allow_negative false).Silent := by
  unfold apply_credit_delta get_balance_minor
  refine ((silent_wallet user).bind fun _ => Prog.silent_pure _).bind fun current => ?_
  split
  · exact Prog.silent_pure _
  · exact (silent_wallet user).bind fun _ => (Prog.silent_read _).bind fun _ =>
      (Prog.silent_flush _).bind fun _ => (Prog.silent_flush _).bind fun _ =>
      (Prog.silent_flush _).bind fun _ => Prog.silent_pure _

theorem silent_usable (user : UserPreference) (code : Option String) :
    (usable_promo_code user code).Silent := by
  unfold usable_promo_code
  split
  · exact Prog.silent_throw _
  · refine (Prog.silent_read _).bind fun promo_code => ?_
    cases promo_code with
    | none => exact Prog.silent_throw _
    | some p =>
      simp only
      split
      · exact Prog.silent_throw _
      · split
        · exact Prog.silent_throw _
        · refine (Prog.silent_read _).bind fun _ => ?_
          split
          · exact Prog.silent_throw _
          · refine (Prog.silent_read _).bind fun _ => ?_
            split
            · exact Prog.silent_throw _
            · exact Prog.silent_pure _

/-! ## The changes of a part -/

section
variable {P : Change → Prop}

theorem writes_account (user : UserPreference) (h : ∀ u, P (.addAccount { user_id := u })) :
    (get_or_create_billing_account user).Writes P := by
  refine (Prog.writes_read _).bind fun account => ?_
  cases account with
  | some a => exact Prog.writes_pure a
  | none =>
    exact (Prog.writes_read _).bind fun _ => (Prog.writes_flush (h _)).bind fun _ =>
      Prog.writes_pure _

theorem writes_config (h : P (.addConfig defaultConfig)) :
    get_or_create_subscription_config.Writes P := by
  refine (Prog.writes_read _).bind fun config => ?_
  cases config with
  | some config => exact Prog.writes_pure _
  | none =>
    exact (Prog.writes_read _).bind fun _ => (Prog.writes_flush h).bind fun _ => Prog.writes_pure _

theorem writes_existing (key : Option String) : (existing_ledger key).Writes P := by
  unfold existing_ledger
  exact Prog.writes_ite (Prog.writes_read _) (Prog.writes_pure _)

theorem writes_add_ledger {e : TomanLedgerEntry} (h : P (.addLedger e)) :
    (add_ledger e).Writes P :=
  (Prog.writes_read _).bind fun _ => (Prog.writes_flush h).bind fun _ => Prog.writes_pure _

theorem writes_wallet (user : UserPreference) (h : ∀ w, P (.addWallet w)) :
    (get_or_create_wallet user).Writes P := by
  refine (Prog.writes_read _).bind fun wallet => ?_
  cases wallet with
  | some w => exact Prog.writes_pure w
  | none =>
    exact (Prog.writes_lift _).bind fun _ => (Prog.writes_read _).bind fun _ =>
      (Prog.writes_flush (h _)).bind fun _ => Prog.writes_pure _

theorem writes_credit_delta (user : UserPreference) (amount : Int) (entry_type : String)
    (reason : Option String) (metadata : Dict) (allow_negative commit : Bool)
    (h1 : ∀ w, P (.addWallet w)) (h2 : ∀ e, P (.addCreditLedger e))
    (h3 : ∀ o n, P (.setWallet o n))
    (h4 : ∀ o x, P (.setUser o { o with credit_balance_usd := x })) :
    (apply_credit_delta user amount entry_type reason metadata allow_negative commit).Writes P := by
  unfold apply_credit_delta get_balance_minor
  refine ((writes_wallet user h1).bind fun _ => Prog.writes_pure _).bind fun current => ?_
  split
  · exact Prog.writes_pure _
  · exact (writes_wallet user h1).bind fun _ => (Prog.writes_read _).bind fun _ =>
      (Prog.writes_flush (h2 _)).bind fun _ => (Prog.writes_flush (h3 _ _)).bind fun _ =>
      (Prog.writes_flush (h4 _ _)).bind fun _ => (Prog.writes_publishIf _).bind fun _ =>
      Prog.writes_pure _

theorem writes_usable (user : UserPreference) (code : Option String) :
    (usable_promo_code user code).Writes P := by
  unfold usable_promo_code
  refine Prog.writes_ite (Prog.writes_throw _) ((Prog.writes_read _).bind fun promo_code => ?_)
  cases promo_code with
  | none => exact Prog.writes_throw _
  | some p =>
    refine Prog.writes_ite (Prog.writes_throw _) (Prog.writes_ite (Prog.writes_throw _) ?_)
    refine (Prog.writes_read _).bind fun _ => Prog.writes_ite (Prog.writes_throw _) ?_
    exact (Prog.writes_read _).bind fun _ =>
      Prog.writes_ite (Prog.writes_throw _) (Prog.writes_pure _)

end

end dr_boz.commits
