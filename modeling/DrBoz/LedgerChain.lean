-- Law of the balances that the ledger entries of an account note: each entry
-- says the balances of the entry before it, moved by its own deltas. Two
-- writers break the chain. A purchase notes the balances after both of its
-- entries in each of them, and a manual payment notes no gift balance.
import DrBoz.Postings
import DrBoz.Reconciliation
import Mathlib.Data.List.Chain

open keyed_table unit_of_work runs dr_boz.py dr_boz.models dr_boz.codex_capacity
open dr_boz.toman_billing dr_boz.payment_requests dr_boz.accounts dr_boz.views dr_boz.billing_runs
open dr_boz.purchase_runs dr_boz.effects dr_boz.payment_runs dr_boz.calls dr_boz.postings
open dr_boz.reconciliation

namespace dr_boz.ledger_chain

/-! ## The chain -/

/-- The entries of an account, in the order of their writing. -/
def entries (db : Db) (account_id : Nat) : List TomanLedgerEntry :=
  db.ledger.rows.filter fun e => e.billing_account_id = some account_id

/-- The balances that an entry notes. -/
def noted (e : TomanLedgerEntry) : Int × Int :=
  (intOr0 e.gift_balance_after_toman, intOr0 e.paid_balance_after_toman)

def balances (a : UserBillingAccount) : Int × Int :=
  (intOr0 a.gift_balance_toman, intOr0 a.paid_balance_toman)

/-- The entry takes the balances `p` to what it notes. -/
def TakesOn (p : Int × Int) (e : TomanLedgerEntry) : Prop :=
  (noted e).1 = p.1 + e.gift_delta_toman ∧ (noted e).2 = p.2 + e.paid_delta_toman

/-- Consecutive entries of one account follow on each other. -/
def Chained (db : Db) : Prop :=
  ∀ i, (entries db i).IsChain fun e₁ e₂ => TakesOn (noted e₁) e₂

/-- The entries take the balances `p` to `q`, one after the other. -/
def Leads (p : Int × Int) : List TomanLedgerEntry → Int × Int → Prop
  | [], q => p = q
  | e :: es, q => TakesOn p e ∧ Leads (noted e) es q

/-- The ledger is chained up to the balances of each account. -/
structure Current (db : Db) : Prop where
  linked : Linked db
  chained : Chained db
  last : ∀ a ∈ db.accounts.rows, ∀ e, (entries db a.id).getLast? = some e → noted e = balances a

section
variable {db : Db} {p q : Int × Int} {es fs : List TomanLedgerEntry}

/-- Entries that lead on from the last one continue the chain. -/
theorem chain_leads (h : es.IsChain fun e₁ e₂ => TakesOn (noted e₁) e₂)
    (hlast : ∀ e, es.getLast? = some e → noted e = p) (hfs : Leads p fs q) :
    (es ++ fs).IsChain fun e₁ e₂ => TakesOn (noted e₁) e₂ := by
  induction fs generalizing es p with
  | nil => simpa using h
  | cons f fs ih =>
    obtain ⟨hf, hrest⟩ := hfs
    have hmore : (es ++ [f]).IsChain fun e₁ e₂ => TakesOn (noted e₁) e₂ := by
      refine List.isChain_append.mpr ⟨h, List.isChain_singleton f, ?_⟩
      intro x hx y hy
      have hxp := hlast x hx
      cases hy
      rw [hxp]
      exact hf
    have hnext := ih hmore (fun e he => by
      rw [List.getLast?_concat] at he
      cases he
      rfl) hrest
    rwa [List.append_assoc] at hnext

/-- And the last of them notes where they lead. -/
theorem last_leads (hlast : ∀ e, es.getLast? = some e → noted e = p) (hfs : Leads p fs q) :
    ∀ e, (es ++ fs).getLast? = some e → noted e = q := by
  induction fs generalizing es p with
  | nil =>
    intro e he
    rw [List.append_nil] at he
    rw [hlast e he]
    exact hfs
  | cons f fs ih =>
    obtain ⟨-, hrest⟩ := hfs
    have hlast : ∀ e, (es ++ [f]).getLast? = some e → noted e = noted f := by
      intro e he
      rw [List.getLast?_concat] at he
      cases he
      rfl
    have hnext := ih hlast hrest
    rwa [List.append_assoc] at hnext

/-- The ids of the entries do not count. -/
theorem leads_added (h : List.Forall₂ (fun x e => ∃ n, x = { e with id := n }) fs es)
    (hes : Leads p es q) : Leads p fs q := by
  induction h generalizing p with
  | nil => exact hes
  | cons hx _ ih =>
    obtain ⟨n, rfl⟩ := hx
    exact ⟨hes.1, ih hes.2⟩

/-! ## Postings on the chain -/

/-- The entries are the account's own and lead from its old balances to the
new ones. -/
def leads_on : Posting := fun a b es =>
  (∀ e ∈ es, e.billing_account_id = some a.id) ∧ Leads (balances a) es (balances b)

theorem current_withAccount (w : Nat) (h : Current db) : Current (withAccount db w) := by
  refine ⟨linked_withAccount w h.linked, h.chained, ?_⟩
  cases hw : db.accounts.first fun a => a.user_id = w with
  | some a =>
    rw [withAccount_eq hw]
    exact h.last
  | none =>
    intro a ha e he
    rw [rows_withAccount hw] at ha
    rcases List.mem_append.mp ha with ha | ha
    · exact h.last a ha e he
    · rw [List.mem_singleton.mp ha] at he
      have hnone : entries db db.accounts.nextKey = [] := unlinked_nextKey h.linked
      change (entries db db.accounts.nextKey).getLast? = some e at he
      rw [hnone] at he
      cases he

/-- A posting adds its entries to its own account's, and none to another's. -/
theorem entries_post {a b : UserBillingAccount}
    (hes : ∀ e ∈ es, e.billing_account_id = some a.id) (ht : TakesAll db.ledger es) (i : Nat) :
    ∃ added, List.Forall₂ (fun x e => ∃ n, x = { e with id := n }) added es ∧
      entries (post db b es) i = if i = a.id then entries db i ++ added else entries db i := by
  obtain ⟨added, hrows, hall⟩ := rows_takesAll ht
  have hacc := account_added hes hall
  refine ⟨added, hall, ?_⟩
  unfold entries
  rw [post_eq, hrows, List.filter_append]
  split
  · rename_i hi
    congr 1
    rw [List.filter_eq_self]
    intro e he
    simp [hacc e he, hi]
  · rename_i hi
    have hnil : (added.filter fun e => e.billing_account_id = some i) = [] := by
      rw [List.filter_eq_nil_iff]
      intro e he
      simp [hacc e he, Ne.symm hi]
    rw [hnil, List.append_nil]

theorem current_kept : Kept Current leads_on where
  frame db db' ha hl h := by
    refine ⟨?_, ?_, ?_⟩
    · unfold Linked
      rw [ha, hl]
      exact h.linked
    · unfold Chained entries
      rw [hl]
      exact h.chained
    · unfold entries
      rw [ha, hl]
      exact h.last
  account db w h := current_withAccount w h
  posting db a b es ha hb hP ht h := by
    obtain ⟨hes, hleads⟩ := hP
    have hmem : a ∈ db.accounts.rows := ((Table.get_eq_some _).mp ha).1
    refine ⟨linked_post ha hb hes ht h.linked, fun i => ?_, fun x hx e he => ?_⟩
    · obtain ⟨added, hall, hpost⟩ := entries_post (b := b) hes ht i
      rw [hpost]
      split
      · rename_i hi
        subst hi
        exact chain_leads (h.chained a.id) (h.last a hmem) (leads_added hall hleads)
      · exact h.chained i
    · obtain ⟨added, hall, hpost⟩ := entries_post (b := b) hes ht x.id
      rw [hpost] at he
      rcases (mem_post es ha hb x).mp hx with rfl | ⟨hx, hne⟩
      · rw [if_pos hb.1, hb.1] at he
        exact last_leads (h.last a hmem) (leads_added hall hleads) e he
      · rw [if_neg hne] at he
        exact h.last x hx e he

/-- One entry of the call's own account that notes the new balances. -/
theorem leads_entry {user : UserPreference} {a b : UserBillingAccount} {n g d : Int}
    {type : String} {reason : Option String} {event : Option Nat} {key : Option String}
    {metadata : Dict} (hb : b.id = a.id)
    (hg : intOr0 b.gift_balance_toman = intOr0 a.gift_balance_toman + g)
    (hp : intOr0 b.paid_balance_toman = intOr0 a.paid_balance_toman + d) :
    leads_on a b [new_ledger_entry user b n g d type reason event key metadata] := by
  refine ⟨fun e he => ?_, ⟨hg, hp⟩, rfl⟩
  rw [List.mem_singleton.mp he]
  exact congrArg some hb

/-- Charges, top-ups, discount marks and sign-up gifts note what they do. -/
theorem books_lead : Books leads_on where
  charged user a cost _ _ _ _ _ := by
    refine leads_entry rfl ?_ ?_
    · simp only [spent_gift_first, intOr0, Option.getD_some]
      omega
    · simp only [spent_gift_first, intOr0, Option.getD_some]
      omega
  topped_up user a q _ _ _ _ _ :=
    leads_entry rfl (by simp [topped_up]) (by simp [topped_up, intOr0])
  marked a := ⟨fun _ he => absurd he List.not_mem_nil, rfl⟩
  marked_once user a _ _ _ _ _ :=
    leads_entry rfl (by simp [marked_once, marked]) (by simp [marked_once, marked])
  welcomed user a n config_id := by
    refine ⟨fun e he => ?_, ⟨rfl, ?_⟩, rfl⟩
    · rw [List.mem_singleton.mp he]
      rfl
    · simp [noted, starter_entry, welcomed, balances, intOr0]

/-- A purchase without a gift notes the same balances in both entries, and
they are right in both. -/
theorem buys_lead {now : Datetime} {c : PurchaseCall}
    (h : Passes now c db → c.grant_gift_toman_balance = false ∨ c.gift db = 0) :
    Buys leads_on now c db := by
  intro hpass n
  have hgift : (if c.grant_gift_toman_balance then c.gift db else 0) = 0 := by
    rcases h hpass with hno | hzero
    · rw [hno]
      rfl
    · rw [hzero, ite_self]
  have hsame : intOr0 (c.account db).gift_balance_toman =
      intOr0 (accountRow db c.user.id).gift_balance_toman := by
    rw [bought_gift, hgift, add_zero]
  have hpaid : intOr0 (c.account db).paid_balance_toman =
      intOr0 (accountRow db c.user.id).paid_balance_toman +
        if 0 < c.wallet db then -c.wallet db else 0 := by
    have hw := wallet_nonneg c db
    rw [bought_paid]
    split <;> omega
  refine ⟨fun e he => ?_, ⟨?_, hpaid⟩, ⟨?_, ?_⟩, rfl⟩
  · simp only [bought_entries, List.mem_cons, List.not_mem_nil, or_false] at he
    rcases he with rfl | rfl
    · rfl
    · rfl
  · exact hsame.trans (add_zero _).symm
  · have hsum := congrArg (intOr0 (c.account db).gift_balance_toman + ·) hgift
    exact (hsum.trans (add_zero _)).symm
  · exact (add_zero _).symm

/-- A manual payment leads on from a gift balance of zero. -/
theorem manual_leads {user : UserPreference} {a : UserBillingAccount} {req : PaymentRequest}
    (h : intOr0 a.gift_balance_toman = 0) :
    leads_on a (paid_in a req.amount_toman)
      [manual_entry user (paid_in a req.amount_toman) req] := by
  refine ⟨fun e he => ?_, ⟨?_, rfl⟩, ?_⟩
  · rw [List.mem_singleton.mp he]
    rfl
  · change (0 : Int) = intOr0 a.gift_balance_toman + 0
    omega
  · exact Prod.ext h.symm rfl

end

/-- No purchase of the step that goes through grants a gift, and no manual
payment of the step meets a gift balance. -/
def NotesRightly (s : Session Db) : Step → Prop
  | .operation now (.purchase c) =>
    Passes now c s.view → c.grant_gift_toman_balance = false ∨ c.gift s.view = 0
  | .operation now (.approve id _) =>
    ∀ req user, s.view.payment_requests.get id = some req → req.status = some "pending" →
      s.view.users.get req.user_id = some user →
      (plan_of_request req = none →
        intOr0 (accountRow s.view user.id).gift_balance_toman = 0) ∧
      ∀ plan, plan_of_request req = some plan.id → s.view.plans.get plan.id = some plan →
        Passes now (manualPurchase user plan req) s.view →
        (manualPurchase user plan req).gift s.view = 0
  | _ => True

theorem notes_fit {s : Session Db} {e : Step} (h : NotesRightly s e) : Fits leads_on s e := by
  cases e with
  | commit | rollback => trivial
  | operation now o =>
    cases o with
    | purchase c => exact buys_lead h
    | approve id note =>
      intro req user hreq hst hu
      obtain ⟨htopup, hplan⟩ := h req user hreq hst hu
      exact ⟨fun hp => manual_leads (htopup hp),
        fun plan hp hget => buys_lead fun hpass => .inr (hplan plan hp hget hpass)⟩
    | topup | mark | check | chat | generic | starter => trivial

/-! ## Law -/

/-- LAW: From a ledger that is chained up to the balances on, in every run in
which no purchase that goes through grants a gift, and no manual payment meets
a gift balance, the entries of every account are chained, in what is stored
and in what the session sees. -/
theorem the_ledger_is_chained_when_entries_note_rightly (db : Db) (es : List Step)
    (hdb : Current db) (hes : Each Step.run NotesRightly (.opened db) es) :
    Chained (after Step.run (.opened db) es).stored ∧
      Chained (after Step.run (.opened db) es).view := by
  have h := run_keeps current_kept books_lead.own (hes.mono fun _ _ => notes_fit) hdb
  exact ⟨h.1.chained, h.2.chained⟩

/-- The first purchase of a customer without an account. -/
def first_purchase (grant : Bool) : Step :=
  .operation noon (.purchase
    { user := customer, plan := tiered_plan, idempotency_key := some "subscription:1"
      payment_confirmed := true, wallet_payment_toman := some 0
      grant_gift_toman_balance := grant, commit := true })

def no_account_yet : Db := { shop with accounts := Table.empty }

/-- The customer has a sign-up gift, and has sent a receipt. -/
def gift_and_receipt : Db :=
  { shop with
    accounts := Table.empty.insert { user_id := 1, gift_balance_toman := some 100 }
    ledger := Table.empty.insert
      (starter_entry customer { id := 1, user_id := 1, gift_balance_toman := some 100 } 100 1)
    payment_requests := Table.empty.insert
      { user_id := 1, amount_toman := 50, receipt_image_path := "receipt.jpg" } }

theorem current_no_account : Current no_account_yet where
  linked e he := by cases he
  chained i := List.isChain_nil
  last a ha := by cases ha

/-- The one entry of the ledger. -/
def gift_entry : TomanLedgerEntry :=
  { starter_entry customer { id := 1, user_id := 1, gift_balance_toman := some 100 } 100 1 with
    id := 1 }

theorem current_gift_and_receipt : Current gift_and_receipt := by
  have hrows : gift_and_receipt.ledger.rows = [gift_entry] := by decide +kernel
  have haccounts : gift_and_receipt.accounts.rows =
      [{ id := 1, user_id := 1, gift_balance_toman := some 100 }] := by decide +kernel
  refine ⟨fun e he i hi => ?_, fun i => ?_, fun a ha e he => ?_⟩
  · rw [hrows, List.mem_singleton] at he
    subst he
    cases hi
    exact ⟨_, by rw [haccounts]; exact List.mem_singleton_self _, rfl⟩
  · unfold entries
    rw [hrows, List.filter_singleton]
    cases decide (gift_entry.billing_account_id = some i) with
    | true => exact List.isChain_singleton _
    | false => exact List.isChain_nil
  · rw [haccounts, List.mem_singleton] at ha
    subst ha
    unfold entries at he
    rw [hrows] at he
    cases he
    rfl

/-- Both entries of a purchase note the gift, and a manual payment notes none. -/
theorem a_gift_breaks_the_chain :
    (¬∀ (db : Db) (es : List Step), Current db → Chained (after Step.run (.opened db) es).stored) ∧
    ¬∀ (now : Datetime) (id : Nat) (db : Db), Current db →
      Chained (after Step.run (.opened db) [.operation now (.approve id none)]).stored := by
  constructor
  · intro h
    have hpair := List.isChain_iff_getElem.mp
      (h no_account_yet [first_purchase true] current_no_account 1) 0 (by decide +kernel)
    have hgift := hpair.1
    revert hgift
    decide +kernel
  · intro h
    have hpair := List.isChain_iff_getElem.mp
      (h noon 1 gift_and_receipt current_gift_and_receipt 1) 0 (by decide +kernel)
    have hgift := hpair.1
    revert hgift
    decide +kernel

/-- A purchase without its gift, and a chat after it. -/
theorem entries_without_gifts_are_chained :
    let es : List Step := [first_purchase false, .operation noon (.chat (small_chat "chat"))]
    Chained (after Step.run (.opened no_account_yet) es).stored ∧
      Chained (after Step.run (.opened no_account_yet) es).view :=
  the_ledger_is_chained_when_entries_note_rightly no_account_yet _ current_no_account
    ⟨fun _ => .inl rfl, trivial, trivial⟩

end dr_boz.ledger_chain
