-- The ledger reconciles: along every history the two balances of an account
-- are the sums of its ledger entries, and neither is negative.
import DrBoz.Calls

open keyed_table unit_of_work dr_boz.py dr_boz.models dr_boz.codex_capacity dr_boz.toman_billing
open dr_boz.payment_requests dr_boz.views dr_boz.billing_runs dr_boz.purchase_runs dr_boz.effects
open dr_boz.calls

namespace dr_boz.reconciliation

/-- The entries of one account add up to this, for one of the two deltas. -/
def posted (db : Db) (account_id : Nat) (delta : TomanLedgerEntry → Int) : Int :=
  ((db.ledger.rows.filter fun e => e.billing_account_id = some account_id).map delta).sum

/-- An account row whose balances are what the ledger says, and not negative. -/
structure Reconciles (db : Db) (a : UserBillingAccount) : Prop where
  gift : intOr0 a.gift_balance_toman = posted db a.id (·.gift_delta_toman)
  paid : intOr0 a.paid_balance_toman = posted db a.id (·.paid_delta_toman)
  gift_nonneg : 0 ≤ intOr0 a.gift_balance_toman
  paid_nonneg : 0 ≤ intOr0 a.paid_balance_toman

/-- Every account of the user reconciles. There is at most one. -/
def UserReconciles (db : Db) (u : Nat) : Prop :=
  ∀ a ∈ db.accounts.rows, a.user_id = u → Reconciles db a

/-- No entry stands for an account that is not there: the foreign key of the
ledger. -/
def Linked (db : Db) : Prop :=
  ∀ e ∈ db.ledger.rows, ∀ i, e.billing_account_id = some i → ∃ a ∈ db.accounts.rows, a.id = i

/-- A user without an account, or with one that is empty and has no entries. -/
def Fresh (db : Db) (u : Nat) : Prop :=
  ∀ a ∈ db.accounts.rows, a.user_id = u →
    intOr0 a.gift_balance_toman = 0 ∧ intOr0 a.paid_balance_toman = 0 ∧
      ∀ e ∈ db.ledger.rows, e.billing_account_id ≠ some a.id

/-- What every effect keeps. -/
structure Balanced (u : Nat) (db : Db) : Prop where
  fit : RequestsFit db
  linked : Linked db
  reconciles : UserReconciles db u

theorem posted_congr {db db' : Db} (h : db'.ledger = db.ledger) (i : Nat)
    (delta : TomanLedgerEntry → Int) : posted db' i delta = posted db i delta := by
  unfold posted
  rw [h]

theorem fresh_balanced {db : Db} {u : Nat} (hfit : RequestsFit db) (hl : Linked db)
    (hf : Fresh db u) : Balanced u db := by
  refine ⟨hfit, hl, fun a ha hu => ?_⟩
  obtain ⟨hg, hp, he⟩ := hf a ha hu
  have hnil : (db.ledger.rows.filter fun e => e.billing_account_id = some a.id) = [] := by
    rw [List.filter_eq_nil_iff]
    intro e hmem
    simpa using he e hmem
  exact ⟨by simp [posted, hnil, hg], by simp [posted, hnil, hp], by omega, by omega⟩

/-! ## Postings -/

/-- The rows that the ledger gains are the entries under new ids. -/
theorem rows_takesAll {t : Table TomanLedgerEntry} {es : List TomanLedgerEntry}
    (h : TakesAll t es) : ∃ added : List TomanLedgerEntry,
      (es.foldl (fun t e => t.insert e) t).rows = t.rows ++ added ∧
        List.Forall₂ (fun x e => ∃ n, x = { e with id := n }) added es := by
  induction es generalizing t with
  | nil => exact ⟨[], by simp, .nil⟩
  | cons e es ih =>
    obtain ⟨ha, hrest⟩ := h
    obtain ⟨added, hrows, hall⟩ := ih hrest
    refine ⟨{ e with id := t.nextKey } :: added, ?_, .cons ⟨_, rfl⟩ hall⟩
    rw [List.foldl_cons, hrows, Table.rows_insert ha, List.append_assoc]
    rfl

theorem sum_added {added es : List TomanLedgerEntry} (delta : TomanLedgerEntry → Int)
    (hd : ∀ e n, delta { e with id := n } = delta e)
    (h : List.Forall₂ (fun x e => ∃ n, x = { e with id := n }) added es) :
    (added.map delta).sum = (es.map delta).sum := by
  induction h with
  | nil => rfl
  | cons hx _ ih =>
    obtain ⟨n, rfl⟩ := hx
    simp only [List.map_cons, List.sum_cons, hd, ih]

/-- What the entries have whatever their ids are, the added rows have. -/
theorem all_added {added es : List TomanLedgerEntry} {p : TomanLedgerEntry → Prop}
    (hp : ∀ e n, p e → p { e with id := n }) (hes : ∀ e ∈ es, p e)
    (h : List.Forall₂ (fun x e => ∃ n, x = { e with id := n }) added es) : ∀ x ∈ added, p x := by
  induction h with
  | nil => exact fun x hx => absurd hx List.not_mem_nil
  | cons hx _ ih =>
    obtain ⟨n, rfl⟩ := hx
    intro y hy
    rcases List.mem_cons.mp hy with rfl | hy
    · exact hp _ n (hes _ List.mem_cons_self)
    · exact ih (fun e he => hes e (List.mem_cons_of_mem _ he)) y hy

theorem account_added {added es : List TomanLedgerEntry} {i : Nat}
    (hes : ∀ e ∈ es, e.billing_account_id = some i)
    (h : List.Forall₂ (fun x e => ∃ n, x = { e with id := n }) added es) :
    ∀ x ∈ added, x.billing_account_id = some i :=
  all_added (fun _ _ he => he) hes h

/-- A posting moves the sums of its own account by its entries, and the sums
of no other account. -/
theorem posted_post {db : Db} {b : UserBillingAccount} {es : List TomanLedgerEntry} {i : Nat}
    (hes : ∀ e ∈ es, e.billing_account_id = some i) (ht : TakesAll db.ledger es)
    (delta : TomanLedgerEntry → Int) (hd : ∀ e n, delta { e with id := n } = delta e) (j : Nat) :
    posted (post db b es) j delta =
      posted db j delta + if j = i then (es.map delta).sum else 0 := by
  obtain ⟨added, hrows, hall⟩ := rows_takesAll ht
  have hacc := account_added hes hall
  unfold posted
  rw [post_eq, hrows, List.filter_append, List.map_append, List.sum_append]
  congr 1
  by_cases hj : j = i
  · have hself : (added.filter fun e => e.billing_account_id = some j) = added := by
      rw [List.filter_eq_self]
      intro e he
      simp [hacc e he, hj]
    rw [hself, if_pos hj, sum_added delta hd hall]
  · have hnil : (added.filter fun e => e.billing_account_id = some j) = [] := by
      rw [List.filter_eq_nil_iff]
      intro e he
      simp [hacc e he, Ne.symm hj]
    rw [hnil, if_neg hj]
    rfl

/-! ## Every effect keeps the books balanced -/

theorem balanced_frame {u : Nat} {db db' : Db} (h : Balanced u db)
    (ha : db'.accounts = db.accounts) (hl : db'.ledger = db.ledger) (hr : RequestsFit db') :
    Balanced u db' := by
  refine ⟨hr, ?_, ?_⟩
  · unfold Linked
    rw [ha, hl]
    exact h.linked
  · intro a hmem hu
    rw [ha] at hmem
    obtain ⟨h1, h2, h3, h4⟩ := h.reconciles a hmem hu
    exact ⟨by rw [posted_congr hl]; exact h1, by rw [posted_congr hl]; exact h2, h3, h4⟩

/-- The rows once a missing account is added. -/
theorem rows_withAccount {db : Db} {w : Nat}
    (h : (db.accounts.first fun a => a.user_id = w) = none) :
    (withAccount db w).accounts.rows =
      db.accounts.rows ++ [{ id := db.accounts.nextKey, user_id := w }] := by
  unfold withAccount
  rw [h]
  exact Table.rows_insert (accepts_account h)

theorem linked_withAccount {db : Db} (w : Nat) (h : Linked db) : Linked (withAccount db w) := by
  cases hw : db.accounts.first fun a => a.user_id = w with
  | some a =>
    rw [withAccount_eq hw]
    exact h
  | none =>
    intro e he i hi
    obtain ⟨a, ha, hai⟩ := h e he i hi
    exact ⟨a, by rw [rows_withAccount hw]; exact List.mem_append_left _ ha, hai⟩

/-- The id of the next account is in no entry. -/
theorem unlinked_nextKey {db : Db} (h : Linked db) :
    (db.ledger.rows.filter fun e => e.billing_account_id = some db.accounts.nextKey) = [] := by
  rw [List.filter_eq_nil_iff]
  intro e he hacc
  obtain ⟨a, ha, hai⟩ := h e he _ (by simpa using hacc)
  have hlt : a.id < db.accounts.nextKey := db.accounts.key_lt_nextKey ha
  omega

/-- A new account row has no entries yet. -/
theorem balanced_withAccount {u : Nat} {db : Db} (w : Nat) (h : Balanced u db) :
    Balanced u (withAccount db w) := by
  cases hw : db.accounts.first fun a => a.user_id = w with
  | some a => rw [withAccount_eq hw]; exact h
  | none =>
    refine ⟨h.fit, linked_withAccount w h.linked, ?_⟩
    intro a ha hu
    rw [rows_withAccount hw] at ha
    rcases List.mem_append.mp ha with ha | ha
    · obtain ⟨h1, h2, h3, h4⟩ := h.reconciles a ha hu
      exact ⟨h1, h2, h3, h4⟩
    · rw [List.mem_singleton] at ha
      subst ha
      have hnil := unlinked_nextKey h.linked
      exact ⟨by simp [posted, hnil, intOr0], by simp [posted, hnil, intOr0], le_refl _, le_refl _⟩

/-- The accounts after a posting: the new value, and the other rows. -/
theorem mem_post {db : Db} {a b : UserBillingAccount} (es : List TomanLedgerEntry)
    (ha : db.accounts.get a.id = some a) (hb : SameOwner b a) (x : UserBillingAccount) :
    x ∈ (post db b es).accounts.rows ↔ x = b ∨ x ∈ db.accounts.rows ∧ x.id ≠ a.id := by
  rw [post_eq]
  exact Table.mem_put ha ⟨hb.1, congrArg some hb.2.1⟩

theorem linked_post {db : Db} {a b : UserBillingAccount} {es : List TomanLedgerEntry}
    (ha : db.accounts.get a.id = some a) (hb : SameOwner b a)
    (hes : ∀ e ∈ es, e.billing_account_id = some a.id) (ht : TakesAll db.ledger es)
    (h : Linked db) : Linked (post db b es) := by
  obtain ⟨added, hrows, hall⟩ := rows_takesAll ht
  have hacc := account_added hes hall
  intro e he i hi
  rw [post_eq] at he
  simp only [hrows] at he
  by_cases hia : i = a.id
  · exact ⟨b, (mem_post es ha hb b).mpr (.inl rfl), hb.1.trans hia.symm⟩
  · rcases List.mem_append.mp he with he | he
    · obtain ⟨x, hx, hxi⟩ := h e he i hi
      exact ⟨x, (mem_post es ha hb x).mpr (.inr ⟨hx, fun hxa => hia (hxi.symm.trans hxa)⟩), hxi⟩
    · rw [hacc e he] at hi
      exact absurd (Option.some.inj hi).symm hia

theorem balanced_post {u : Nat} {db : Db} {a b : UserBillingAccount} {es : List TomanLedgerEntry}
    (ha : db.accounts.get a.id = some a) (hb : SameOwner b a)
    (hes : ∀ e ∈ es, e.billing_account_id = some a.id)
    (hg : intOr0 b.gift_balance_toman =
      intOr0 a.gift_balance_toman + (es.map (·.gift_delta_toman)).sum)
    (hp : intOr0 b.paid_balance_toman =
      intOr0 a.paid_balance_toman + (es.map (·.paid_delta_toman)).sum)
    (hn : RequestsFit db → 0 ≤ intOr0 a.gift_balance_toman → 0 ≤ intOr0 a.paid_balance_toman →
      0 ≤ intOr0 b.gift_balance_toman ∧ 0 ≤ intOr0 b.paid_balance_toman)
    (ht : TakesAll db.ledger es) (h : Balanced u db) : Balanced u (post db b es) := by
  have hgd := posted_post (b := b) hes ht (·.gift_delta_toman) fun _ _ => rfl
  have hpd := posted_post (b := b) hes ht (·.paid_delta_toman) fun _ _ => rfl
  have hfit : RequestsFit (post db b es) := by
    rw [post_eq]
    exact h.fit
  refine ⟨hfit, linked_post ha hb hes ht h.linked, ?_⟩
  intro x hx hu
  rcases (mem_post es ha hb x).mp hx with rfl | ⟨hx, hne⟩
  · have hr := h.reconciles a ((Table.get_eq_some _).mp ha).1 (hb.2.1 ▸ hu)
    have hid : x.id = a.id := hb.1
    obtain ⟨h1, h2⟩ := hn h.fit hr.gift_nonneg hr.paid_nonneg
    refine ⟨?_, ?_, h1, h2⟩
    · rw [hgd, hid, if_pos rfl, hg, hr.gift]
    · rw [hpd, hid, if_pos rfl, hp, hr.paid]
  · have hr := h.reconciles x hx hu
    refine ⟨?_, ?_, hr.gift_nonneg, hr.paid_nonneg⟩
    · rw [hgd, if_neg hne, hr.gift, add_zero]
    · rw [hpd, if_neg hne, hr.paid, add_zero]

theorem effect_balanced {u : Nat} {now : Datetime} {db db' : Db} (he : Effect now db db')
    (h : Balanced u db) : Balanced u db' := by
  cases he with
  | account w => exact balanced_withAccount w h
  | config => exact balanced_frame h rfl rfl h.fit
  | posting a b es ha hb hes hg hp hn ht => exact balanced_post ha hb hes hg hp hn ht h
  | window v w hv hw => exact balanced_frame h rfl rfl h.fit
  | subscribe v pool hnone hv hp => exact balanced_frame h rfl rfl h.fit
  | unassigned v hnone hv hp => exact balanced_frame h rfl rfl h.fit
  | cancel v hv =>
    obtain ⟨h1, h2, h3⟩ := cancelledIn_books now db v
    exact balanced_frame h h1 h2 (fun r hr => h.fit r (h3 ▸ hr))
  | aside db' ha hl hs hp hr => exact balanced_frame h ha hl (hr h.fit)

theorem balanced_kept (u : Nat) : KeptByAll (Balanced u) where
  effect _ _ _ he h := effect_balanced he h
  reactivation now db v w _ _ h := by
    obtain ⟨h1, h2, h3⟩ := reactivatedIn_books now db v w
    exact balanced_frame h h1 h2 (fun r hr => h.fit r (h3 ▸ hr))

/-- LAW: from a fresh account on, both balances are the sums of the ledger's
deltas and stay at zero or more, in what is stored and in what the session
sees, whatever calls succeed, fail, repeat or are rolled back. -/
theorem balances_are_the_ledger_sums (db : Db) (u : Nat) (hfit : RequestsFit db)
    (hlinked : Linked db) (hfresh : Fresh db u) (es : List Event) :
    UserReconciles (history es (.opened db)).stored u ∧
      UserReconciles (history es (.opened db)).view u := by
  have h := fresh_balanced hfit hlinked hfresh
  have hs := history_keeps (balanced_kept u) es (s := .opened db) ⟨h, h⟩
  exact ⟨hs.1.reconciles, hs.2.reconciles⟩

/-- The customer of an empty till tops up, chats, and the session is closed. -/
theorem first_balances_are_the_ledger_sums :
    let till := { shop with accounts := .empty }
    let es : List Event :=
      [.call noon (.topup { user := customer, credit_amount_toman := 5000
                            idempotency_key := none, metadata := [], commit := true }),
       .call noon (.chat (small_chat "chat")), .rollback]
    UserReconciles (history es (.opened till)).stored 1 ∧
      UserReconciles (history es (.opened till)).view 1 := by
  refine balances_are_the_ledger_sums _ 1 ?_ ?_ ?_ _
  · intro r hr
    cases hr
  · intro e he
    cases he
  · intro a ha
    cases ha

end dr_boz.reconciliation
