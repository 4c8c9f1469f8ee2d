-- Law of the four counters beside the two balances: what was granted and
-- spent of the gift balance, and what was paid in and spent of the paid
-- balance. A purchase counts the gift of its plan also when it does not
-- grant it.
import DrBoz.Postings
import DrBoz.Reconciliation

open keyed_table unit_of_work runs dr_boz.py dr_boz.models dr_boz.codex_capacity
open dr_boz.toman_billing dr_boz.payment_requests dr_boz.accounts dr_boz.views dr_boz.billing_runs
open dr_boz.purchase_runs dr_boz.effects dr_boz.payment_runs dr_boz.calls dr_boz.postings
open dr_boz.reconciliation

namespace dr_boz.toman_counters

/-- Both balances are what was put in less what was taken out. -/
structure CountersAgree (a : UserBillingAccount) : Prop where
  gift : intOr0 a.gift_balance_toman =
    intOr0 a.total_gift_granted_toman - intOr0 a.total_gift_spent_toman
  paid : intOr0 a.paid_balance_toman =
    intOr0 a.total_paid_topup_toman - intOr0 a.total_paid_spent_toman

/-- The counters of the user's account agree. There is at most one account. -/
def UserAgrees (u : Nat) (db : Db) : Prop :=
  ∀ a ∈ db.accounts.rows, a.user_id = u → CountersAgree a

/-- The user has no account, or one on which nothing has happened. -/
def FreshAccount (u : Nat) (db : Db) : Prop :=
  ∀ a ∈ db.accounts.rows, a.user_id = u →
    intOr0 a.gift_balance_toman = 0 ∧ intOr0 a.paid_balance_toman = 0 ∧
    intOr0 a.total_gift_granted_toman = 0 ∧ intOr0 a.total_gift_spent_toman = 0 ∧
    intOr0 a.total_paid_topup_toman = 0 ∧ intOr0 a.total_paid_spent_toman = 0

/-- A posting that leaves agreeing counters of the user. -/
def keeps_counters (u : Nat) : Posting := fun a b _ =>
  a.user_id = u → CountersAgree a → CountersAgree b

section
variable {u : Nat} {db : Db}

theorem fresh_agrees (h : FreshAccount u db) : UserAgrees u db := by
  intro a ha hu
  obtain ⟨h1, h2, h3, h4, h5, h6⟩ := h a ha hu
  exact ⟨by omega, by omega⟩

theorem agrees_withAccount (w : Nat) (h : UserAgrees u db) : UserAgrees u (withAccount db w) := by
  cases hw : db.accounts.first fun a => a.user_id = w with
  | some a =>
    rw [withAccount_eq hw]
    exact h
  | none =>
    intro a ha hu
    rw [rows_withAccount hw] at ha
    rcases List.mem_append.mp ha with ha | ha
    · exact h a ha hu
    · rw [List.mem_singleton.mp ha]
      exact ⟨rfl, rfl⟩

theorem counters_kept (u : Nat) : Kept (UserAgrees u) (keeps_counters u) where
  frame db db' ha _ h := by
    unfold UserAgrees
    rw [ha]
    exact h
  account db w h := agrees_withAccount w h
  posting db a b es ha hb hP _ h := by
    intro x hx hu
    rcases (mem_post es ha hb x).mp hx with rfl | ⟨hx, -⟩
    · have hau : a.user_id = u := hb.2.1.symm.trans hu
      exact hP hau (h a ((Table.get_eq_some _).mp ha).1 hau)
    · exact h x hx hu

/-- Charges, top-ups and sign-up gifts move each counter with its balance. -/
theorem books_counters (u : Nat) : Books (keeps_counters u) where
  charged user a cost _ _ _ _ _ _ h := by
    obtain ⟨hg, hp⟩ := h
    constructor
    · simp only [spent_gift_first, intOr0, Option.getD_some] at hg ⊢
      omega
    · simp only [spent_gift_first, intOr0, Option.getD_some] at hp ⊢
      omega
  topped_up user a q _ _ _ _ _ _ h := by
    obtain ⟨hg, hp⟩ := h
    refine ⟨hg, ?_⟩
    simp only [topped_up, intOr0, Option.getD_some] at hp ⊢
    omega
  marked a _ h := ⟨h.gift, h.paid⟩
  marked_once user a _ _ _ _ _ _ h := ⟨h.gift, h.paid⟩
  welcomed user a n _ _ h := by
    obtain ⟨hg, hp⟩ := h
    refine ⟨?_, hp⟩
    simp only [welcomed, intOr0, Option.getD_some] at hg ⊢
    omega

/-- A purchase that grants its gift, or has none, moves each counter with its
balance. -/
theorem bought_agrees {a : UserBillingAccount} {wallet delta gift payment : Int}
    (hgift : delta = gift) (h : CountersAgree a) :
    CountersAgree (bought a wallet delta gift payment) := by
  obtain ⟨hg, hp⟩ := h
  constructor
  · simp only [bought, intOr0, Option.getD_some] at hg ⊢
    omega
  · by_cases hpos : 0 < wallet
    · simp only [bought, if_pos hpos, intOr0, Option.getD_some] at hp ⊢
      omega
    · simp only [bought, if_neg hpos]
      exact hp

theorem granted_buys {now : Datetime} {c : PurchaseCall}
    (h : c.user.id = u → Passes now c db → c.grant_gift_toman_balance = true ∨ c.gift db = 0) :
    Buys (keeps_counters u) now c db := by
  intro hpass n hu hagree
  refine bought_agrees ?_ hagree
  rcases h ((accountRow_user db c.user.id).symm.trans hu) hpass with hgrant | hzero
  · rw [hgrant, if_pos rfl]
  · rw [hzero, ite_self]

theorem paid_in_agrees {a : UserBillingAccount} (n : Int) (h : CountersAgree a) :
    CountersAgree (paid_in a n) := by
  refine ⟨h.gift, ?_⟩
  have hp := h.paid
  simp only [paid_in, intOr0, Option.getD_some] at hp ⊢
  omega

/-- The step is no purchase by the user that goes through and withholds the
gift of its plan. -/
def GrantsItsGift (u : Nat) (s : Session Db) : Step → Prop
  | .operation now (.purchase c) => c.user.id = u → Passes now c s.view →
      c.grant_gift_toman_balance = true ∨ c.gift s.view = 0
  | _ => True

theorem grants_fits {s : Session Db} {e : Step} (h : GrantsItsGift u s e) :
    Fits (keeps_counters u) s e := by
  cases e with
  | commit | rollback => trivial
  | operation now o =>
    cases o with
    | purchase c => exact granted_buys h
    | approve id note =>
      intro req user _ _ _
      exact ⟨fun _ _ hagree => paid_in_agrees _ hagree,
        fun plan _ _ => granted_buys fun _ _ => .inl rfl⟩
    | topup | mark | check | chat | generic | starter => trivial

end

/-! ## Law -/

/-- LAW: From a fresh account on, in every run in which no purchase that goes
through withholds the gift of its plan, both balances are what their counters
say, in what is stored and in what the session sees. -/
theorem the_counters_agree_when_gifts_are_granted (u : Nat) (db : Db) (es : List Step)
    (hfresh : FreshAccount u db) (hes : Each Step.run (GrantsItsGift u) (.opened db) es) :
    UserAgrees u (after Step.run (.opened db) es).stored ∧
      UserAgrees u (after Step.run (.opened db) es).view :=
  run_keeps (counters_kept u) (books_counters u).own (hes.mono fun _ _ => grants_fits)
    (fresh_agrees hfresh)

/-- The customer's purchase of the tiered plan, paid outside of the wallet. -/
def plan_purchase (grant : Bool) : Step :=
  .operation noon (.purchase
    { user := customer, plan := tiered_plan, idempotency_key := some "subscription:1"
      payment_confirmed := true, wallet_payment_toman := some 0
      grant_gift_toman_balance := grant, commit := true })

/-- The shop with no account yet. -/
def opening : Db := { shop with accounts := Table.empty }

/-- A purchase that withholds the gift counts 100000 Toman as granted, and the
balance is zero. -/
theorem a_withheld_gift_is_counted :
    ¬∀ (u : Nat) (db : Db) (es : List Step), FreshAccount u db →
      UserAgrees u (after Step.run (.opened db) es).stored := by
  intro h
  have hagree := h 1 opening [plan_purchase false] (by simp [FreshAccount, opening, Table.empty])
  have hrow : accountRow (after Step.run (.opened opening) [plan_purchase false]).stored 1 ∈
      (after Step.run (.opened opening) [plan_purchase false]).stored.accounts.rows := by
    decide +kernel
  have hgift := (hagree _ hrow (accountRow_user _ _)).gift
  revert hgift
  decide +kernel

/-- A purchase with its gift, and a chat after it. -/
theorem granted_gifts_agree :
    let es : List Step := [plan_purchase true, .operation noon (.chat (small_chat "chat"))]
    UserAgrees 1 (after Step.run (.opened opening) es).stored ∧
      UserAgrees 1 (after Step.run (.opened opening) es).view := by
  refine the_counters_agree_when_gifts_are_granted 1 opening _ ?_ ⟨fun _ _ => .inl rfl, ?_, trivial⟩
  · simp [FreshAccount, opening, Table.empty]
  · trivial

end dr_boz.toman_counters
