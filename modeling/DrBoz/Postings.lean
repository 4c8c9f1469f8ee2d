-- What the calls of the services do to the accounts and the ledger, for any
-- invariant of the two: each call sets the row that it has read and adds the
-- entries of that change. An invariant that such a posting keeps is kept by
-- every call.
import DrBoz.Lib.FreshCommits
import DrBoz.Lib.Runs
import DrBoz.Writers
import DrBoz.Calls

open keyed_table unit_of_work runs dr_boz.py dr_boz.models dr_boz.codex_capacity
open dr_boz.toman_billing dr_boz.payment_requests dr_boz.accounts dr_boz.views
open dr_boz.billing_runs dr_boz.chat_runs dr_boz.check_runs dr_boz.purchase_runs dr_boz.effects
open dr_boz.payment_runs dr_boz.commits dr_boz.calls dr_boz.writers

namespace dr_boz.postings

/-- A change of neither the accounts nor the ledger. -/
def off_books : Change → Prop
  | .addAccount _ | .setAccount _ _ | .addLedger _ => False
  | _ => True

/-- An account before and after, and the entries that are written with it. -/
abbrev Posting := UserBillingAccount → UserBillingAccount → List TomanLedgerEntry → Prop

/-- The invariant depends on the accounts and the ledger only, and a new
account or a posting of the kind keeps it. -/
structure Kept (I : Db → Prop) (P : Posting) : Prop where
  frame : ∀ db db', db'.accounts = db.accounts → db'.ledger = db.ledger → I db → I db'
  account : ∀ db u, I db → I (withAccount db u)
  posting : ∀ db a b es, db.accounts.get a.id = some a → SameOwner b a → P a b es →
    TakesAll db.ledger es → I db → I (post db b es)

/-- Each commit of the program and its end keep the invariant. -/
abbrev Keeps {α : Type} (I : Db → Prop) (x : Tx α) (s : Session Db) : Prop :=
  x.wp (fun a b => I a → I b) (fun _ t => I t.view) (fun _ t => I t.view) s

/-- The invariant holds, and the row is the one that the session sees. -/
structure Holds (I : Db → Prop) (a : UserBillingAccount) (s : Session Db) : Prop where
  kept : I s.view
  row : s.view.accounts.get a.id = some a

section
variable {α β : Type} {I : Db → Prop} {P : Posting} {x : Tx α} {f : α → Tx β} {s : Session Db}
variable {a b : UserBillingAccount} {user : UserPreference}

theorem off_books_frame {c : Change} (hc : off_books c) (db : Db) :
    (db.apply c).accounts = db.accounts ∧ (db.apply c).ledger = db.ledger := by
  cases c with
  | addAccount | setAccount | addLedger => exact hc.elim
  | addUser | setTelegramId | setUser | addSubscription | setSubscription | deleteSubscription
  | setPool | addConfig | addRedemption | setRedemption | addPaymentRequest | setPaymentRequest
  | addAdminAction | addWallet | setWallet | addCreditLedger | addReferralEvent | addClick
  | setClick | addStarterConfig | setStarterConfig => exact ⟨rfl, rfl⟩

theorem Kept.off (hI : Kept I P) {c : Change} (hc : off_books c) {db : Db} (h : I db) :
    I (db.apply c) :=
  hI.frame _ _ (off_books_frame hc db).1 (off_books_frame hc db).2 h

/-! ## Parts of a call -/

/-- A part beside the books, with or without a commit. -/
theorem keeps_part (hI : Kept I P) (hx : x.Writes off_books) (hs : I s.view) : Keeps I x s :=
  hx.wp (J := fun t => I t.view) (fun _ _ hc h => hI.off hc h)
    (fun _ h => ⟨fun _ => h, fun _ ht => ht h⟩) hs

/-- A part beside the books that does not commit: the row is still the one
that the session sees. -/
theorem keeps_beside (hI : Kept I P) (hx : x.Writes off_books) (hsilent : x.Silent)
    (hs : Holds I a s) (hf : ∀ v t, Holds I a t → Keeps I (f v) t) : Keeps I (x >>= f) s := by
  refine Prog.wp_bind (Prog.wp.mono (fun v t ht => hf v t ht) (fun _ _ ht => ht.kept)
    (Prog.Silent.wp hx hsilent (J := Holds I a) ?_ hs))
  intro t c hc ht
  refine ⟨hI.off hc ht.kept, ?_⟩
  change (t.view.apply c).accounts.get a.id = some a
  rw [(off_books_frame hc t.view).1]
  exact ht.row

/-- A part that looks for the account goes on with the row. -/
theorem keeps_account (hI : Kept I P) {f : UserBillingAccount → Tx β} (hs : I s.view)
    (hf : Holds I (accountRow s.view user.id) ⟨s.stored, withAccount s.view user.id⟩ →
      Keeps I (f (accountRow s.view user.id)) ⟨s.stored, withAccount s.view user.id⟩) :
    Keeps I (get_or_create_billing_account user >>= f) s :=
  Prog.wp_bind (Prog.Silent.wp_run (silent_account user) (run_get_or_create_billing_account _ _)
    (hf ⟨hI.account _ _ hs, get_accountRow _ _⟩))

/-- Looking for an account once more keeps the rows that are there. -/
theorem Holds.looked (hI : Kept I P) (hs : Holds I a s) (u : Nat) :
    Holds I a ⟨s.stored, withAccount s.view u⟩ := by
  refine ⟨hI.account _ _ hs.kept, ?_⟩
  obtain ⟨hmem, -⟩ := (Table.get_eq_some _).mp hs.row
  refine (Table.get_eq_some _).mpr ⟨?_, rfl⟩
  unfold withAccount
  cases s.view.accounts.first fun a => a.user_id = u with
  | some b => exact hmem
  | none => exact Table.mem_insert_of_mem hmem

/-- The quote of a top-up looks for the account and the config. -/
theorem keeps_quote (hI : Kept I P) {now : Datetime} {credit : Int} {f : TopupQuote → Tx β}
    (hs : Holds I a s) (hf : ∀ q t, Holds I a t → Keeps I (f q) t) :
    Keeps I (quote_toman_topup_payment now user credit >>= f) s := by
  refine Prog.wp_bind (Prog.wp_bind (Prog.Silent.wp_run (silent_account user)
    (run_get_or_create_billing_account user s) ?_))
  refine Prog.wp_bind (Prog.Silent.wp_run silent_config
    (run_get_or_create_subscription_config _) ?_)
  have ht := hs.looked hI user.id
  have hconfig : Holds I a ⟨s.stored, withConfig (withAccount s.view user.id)⟩ :=
    ⟨hI.frame (withAccount s.view user.id) _ rfl rfl ht.kept, ht.row⟩
  exact Prog.wp_bind (Prog.wp_read (Prog.wp_lift (fun q _ => hf q _ hconfig) fun _ _ =>
    hconfig.kept))

theorem keeps_publishIf {c : Bool} {k : Tx β} (hs : I s.view)
    (hk : ∀ t, I t.view → Keeps I k t) :
    Keeps I (Prog.publishIf c >>= fun _ => k) s := by
  cases c with
  | false => exact hk s hs
  | true => exact Prog.wp_bind (Prog.wp_publish (fun _ => hs) fun t ht => hk _ (ht hs))

/-- The end of a call after its posting. -/
theorem keeps_end {c : Bool} (r : β) (hs : I s.view) :
    Keeps I (Prog.publishIf c >>= fun _ => (return r : Tx β)) s :=
  keeps_publishIf hs fun _ ht => ht

/-- The row and one entry. -/
theorem keeps_posting (hI : Kept I P) {e : TomanLedgerEntry} {f : TomanLedgerEntry → Tx β}
    (hs : Holds I a s) (hb : SameOwner b a) (hP : P a b [e])
    (hf : ∀ e' t, I t.view → Keeps I (f e') t) :
    Keeps I (do
      Prog.flush (.setAccount a b)
      let e' ← add_ledger e
      f e') s := by
  refine Prog.wp_bind (Prog.wp_flush fun _ => ?_)
  rw [store_apply, apply_setAccount hs.row hb]
  refine Prog.wp_bind (Prog.wp_bind (Prog.wp_read (Prog.wp_bind (Prog.wp_flush fun hadm => ?_))))
  have hacc : s.view.ledger.Accepts e := of_decide_eq_true hadm
  exact hf _ _ (hI.posting s.view a b [e] hs.row hb hP ⟨hacc, trivial⟩ hs.kept)

/-- The row and two entries. -/
theorem keeps_two_entries (hI : Kept I P) {e₁ e₂ : TomanLedgerEntry}
    {f : TomanLedgerEntry → TomanLedgerEntry → Tx β} (hs : Holds I a s) (hb : SameOwner b a)
    (hP : P a b [e₁, e₂]) (hf : ∀ x y t, I t.view → Keeps I (f x y) t) :
    Keeps I (do
      Prog.flush (.setAccount a b)
      let x ← add_ledger e₁
      let y ← add_ledger e₂
      f x y) s := by
  refine Prog.wp_bind (Prog.wp_flush fun _ => ?_)
  rw [store_apply, apply_setAccount hs.row hb]
  refine Prog.wp_bind (Prog.wp_bind (Prog.wp_read (Prog.wp_bind (Prog.wp_flush fun h₁ => ?_))))
  refine Prog.wp_bind (Prog.wp_bind (Prog.wp_read (Prog.wp_bind (Prog.wp_flush fun h₂ => ?_))))
  have hacc₁ : s.view.ledger.Accepts e₁ := of_decide_eq_true h₁
  have hacc₂ : (s.view.ledger.insert e₁).Accepts e₂ := of_decide_eq_true h₂
  exact hf _ _ _ (hI.posting s.view a b [e₁, e₂] hs.row hb hP ⟨hacc₁, hacc₂, trivial⟩ hs.kept)

/-- The tier of a subscription and its window are beside the books. -/
theorem silent_tiered (now : Datetime) (user : UserPreference) :
    (tiered_subscription now user).Silent := by
  refine (Prog.silent_read _).bind fun u => ?_
  cases u with
  | none => exact Prog.silent_pure _
  | some u =>
    refine (Prog.silent_read _).bind fun plan => ?_
    cases plan with
    | none => exact Prog.silent_throw _
    | some plan => exact Prog.silent_pure _

theorem writes_tiered {Q : Change → Prop} (now : Datetime) (user : UserPreference) :
    (tiered_subscription now user).Writes Q := by
  refine (Prog.writes_read _).bind fun u => ?_
  cases u with
  | none => exact Prog.writes_pure _
  | some u =>
    refine (Prog.writes_read _).bind fun plan => ?_
    cases plan with
    | none => exact Prog.writes_throw _
    | some plan => exact Prog.writes_pure _

theorem silent_reset_week (now : Datetime) (u : UserSubscription) :
    (reset_week now u).Silent := by
  unfold reset_week
  split
  · exact (Prog.silent_flush _).bind fun _ => (Prog.silent_lift _).bind fun _ =>
      (Prog.silent_flush _).bind fun _ => Prog.silent_pure _
  · exact Prog.silent_pure _

theorem writes_reset_week (now : Datetime) (u : UserSubscription) :
    (reset_week now u).Writes off_books :=
  Prog.writes_ite ((Prog.writes_flush trivial).bind fun _ => (Prog.writes_lift _).bind fun _ =>
    (Prog.writes_flush trivial).bind fun _ => Prog.writes_pure _) (Prog.writes_pure _)

theorem writes_reset_cooldown (now : Datetime) (u : UserSubscription) :
    (reset_cooldown now u).Writes off_books :=
  Prog.writes_ite ((Prog.writes_flush trivial).bind fun _ => Prog.writes_pure _)
    (Prog.writes_pure _)

theorem writes_start_window (now : Datetime) (u : UserSubscription) (plan : SubscriptionPlan) :
    (start_window now u plan).Writes off_books := by
  unfold start_window
  split
  · exact Prog.writes_pure _
  · exact Prog.writes_throw _
  · exact Prog.writes_ite ((Prog.writes_lift _).bind fun _ =>
      (Prog.writes_flush trivial).bind fun _ => Prog.writes_pure _) (Prog.writes_pure _)

theorem writes_charge_window (now : Datetime) (account : UserBillingAccount)
    (quote : ChatUsageQuote) (u : UserSubscription) (plan : SubscriptionPlan) (commit : Bool) :
    (charge_window now account quote u plan commit).Writes off_books :=
  (writes_reset_cooldown now u).bind fun u => (writes_start_window now u plan).bind fun _ =>
    (Prog.writes_flush trivial).bind fun _ => (Prog.writes_publishIf _).bind fun _ =>
      Prog.writes_pure _

theorem silent_quote (model : Model) (i o : Int) : (quote_chat_usage_toman model i o).Silent :=
  silent_config.bind fun _ => Prog.silent_lift _

theorem writes_chat_quote (model : Model) (i o : Int) :
    (quote_chat_usage_toman model i o).Writes off_books :=
  (writes_config trivial).bind fun _ => Prog.writes_lift _

/-! ## The calls -/

/-- The kind has the postings of charges, top-ups and the discount flag. -/
structure Books (P : Posting) : Prop where
  charged : ∀ (user : UserPreference) a cost type reason event key metadata,
    P a (spent_gift_first a cost) [new_ledger_entry user (spent_gift_first a cost) (-cost)
      (-min (intOr0 a.gift_balance_toman) cost) (-(cost - min (intOr0 a.gift_balance_toman) cost))
      type reason event key metadata]
  topped_up : ∀ (user : UserPreference) a q type reason event key metadata,
    P a (topped_up a q) [new_ledger_entry user (topped_up a q) q.credit_amount_toman 0
      q.credit_amount_toman type reason event key metadata]
  marked : ∀ a, P a (marked a) []
  marked_once : ∀ (user : UserPreference) a type reason event key metadata,
    P a (marked_once a) [new_ledger_entry user (marked_once a) 0 0 0 type reason event key metadata]
  welcomed : ∀ user a n config_id,
    P a (welcomed a n) [starter_entry user (welcomed a n) n config_id]

/-- The kind has these postings for the user whose account it is. -/
structure OwnBooks (P : Posting) : Prop where
  charged : ∀ (user : UserPreference) a cost type reason event key metadata, a.user_id = user.id →
    P a (spent_gift_first a cost) [new_ledger_entry user (spent_gift_first a cost) (-cost)
      (-min (intOr0 a.gift_balance_toman) cost) (-(cost - min (intOr0 a.gift_balance_toman) cost))
      type reason event key metadata]
  topped_up : ∀ (user : UserPreference) a q type reason event key metadata, a.user_id = user.id →
    P a (topped_up a q) [new_ledger_entry user (topped_up a q) q.credit_amount_toman 0
      q.credit_amount_toman type reason event key metadata]
  marked : ∀ a, P a (marked a) []
  marked_once : ∀ (user : UserPreference) a type reason event key metadata, a.user_id = user.id →
    P a (marked_once a) [new_ledger_entry user (marked_once a) 0 0 0 type reason event key metadata]
  welcomed : ∀ user a n config_id, a.user_id = user.id →
    P a (welcomed a n) [starter_entry user (welcomed a n) n config_id]

theorem Books.own (h : Books P) : OwnBooks P where
  charged _ _ _ _ _ _ _ _ _ := h.charged _ _ _ _ _ _ _ _
  topped_up _ _ _ _ _ _ _ _ _ := h.topped_up _ _ _ _ _ _ _ _
  marked := h.marked
  marked_once _ _ _ _ _ _ _ _ := h.marked_once _ _ _ _ _ _ _
  welcomed _ _ _ _ _ := h.welcomed _ _ _ _

theorem generic_keeps (hI : Kept I P) (hP : OwnBooks P) (c : GenericCall) (hs : I s.view) :
    Keeps I c.prog s := by
  unfold GenericCall.prog charge_generic_usage_toman
  refine keeps_account hI hs fun hs => ?_
  refine keeps_beside hI (writes_existing _) (silent_existing _) hs fun existing t ht => ?_
  cases existing with
  | some existing => exact ht.kept
  | none =>
    refine keeps_beside hI ((writes_config trivial).bind fun _ => Prog.writes_lift _)
      (silent_config.bind fun _ => Prog.silent_lift _) ht fun cost t ht => ?_
    refine Prog.wp_ite (fun _ => ht.kept) fun _ => Prog.wp_ite (fun _ => ht.kept) fun _ => ?_
    exact keeps_posting hI ht (owner_spent_gift_first _ _)
      (hP.charged _ _ _ _ _ _ _ _ (accountRow_user _ _)) fun _ _ ht => keeps_end _ ht

theorem topup_keeps (hI : Kept I P) (hP : OwnBooks P) (now : Datetime) (c : TopupCall)
    (hs : I s.view) : Keeps I (c.prog now) s := by
  unfold TopupCall.prog apply_toman_topup
  refine keeps_account hI hs fun hs => ?_
  refine keeps_beside hI (writes_existing _) (silent_existing _) hs fun existing t ht => ?_
  refine keeps_quote hI ht fun quote t ht => ?_
  cases existing with
  | some existing => exact ht.kept
  | none =>
    refine Prog.wp_ite (fun _ => ht.kept) fun _ => ?_
    exact keeps_posting hI ht (owner_topped_up _ _)
      (hP.topped_up _ _ _ _ _ _ _ _ (accountRow_user _ _)) fun _ _ ht => keeps_end _ ht

theorem mark_keeps (hI : Kept I P) (hP : OwnBooks P) (c : MarkCall) (hs : I s.view) :
    Keeps I c.prog s := by
  unfold MarkCall.prog mark_first_topup_discount_used
  refine keeps_account hI hs fun hs => ?_
  refine Prog.wp_ite (fun _ => hs.kept) fun _ => ?_
  refine keeps_beside hI (writes_existing _) (silent_existing _) hs fun existing t ht => ?_
  cases existing with
  | some existing =>
    refine Prog.wp_bind (Prog.wp_flush fun _ => ?_)
    rw [store_apply, apply_setAccount ht.row (owner_marked _)]
    exact keeps_end _ (hI.posting _ _ _ [] ht.row (owner_marked _) (hP.marked _) trivial ht.kept)
  | none =>
    exact keeps_posting hI ht (owner_marked_once _)
      (hP.marked_once _ _ _ _ _ _ _ (accountRow_user _ _)) fun _ _ ht => keeps_end _ ht

/-- The balances pay, or the call ends. -/
theorem charge_balances_keeps (hI : Kept I P) (hP : OwnBooks P) (now : Datetime)
    (user : UserPreference) (quote : ChatUsageQuote) (u : Option UserSubscription)
    (plan : Option SubscriptionPlan) (event : Option Nat) (key : Option String) (metadata : Dict)
    (commit : Bool) (hs : Holds I a s) (ha : a.user_id = user.id) :
    Keeps I (charge_balances now user a quote u plan event key metadata commit) s := by
  unfold charge_balances
  refine Prog.wp_ite (fun _ => ?_) fun _ => ?_
  · exact Prog.wp_bind (Prog.wp_lift (fun _ _ => hs.kept) fun _ _ => hs.kept)
  · exact keeps_posting hI hs (owner_spent_gift_first _ _) (hP.charged _ _ _ _ _ _ _ _ ha)
      fun _ _ ht => keeps_end _ ht

theorem chat_keeps (hI : Kept I P) (hP : OwnBooks P) (now : Datetime) (c : ChatCall)
    (hs : I s.view) : Keeps I (c.prog now) s := by
  unfold ChatCall.prog charge_chat_usage_toman
  refine keeps_account hI hs fun hs => ?_
  refine keeps_beside hI (writes_existing _) (silent_existing _) hs fun existing t ht => ?_
  refine keeps_beside hI (writes_chat_quote _ _ _) (silent_quote _ _ _) ht fun quote t ht => ?_
  cases existing with
  | some existing => exact ht.kept
  | none =>
    refine Prog.wp_ite (fun _ => ht.kept) fun _ => ?_
    refine keeps_beside hI (writes_tiered _ _) (silent_tiered _ _) ht fun tier t ht => ?_
    rcases tier with ⟨_ | u, _ | plan⟩
    · exact charge_balances_keeps hI hP _ _ _ _ _ _ _ _ _ ht (accountRow_user _ _)
    · exact charge_balances_keeps hI hP _ _ _ _ _ _ _ _ _ ht (accountRow_user _ _)
    · exact charge_balances_keeps hI hP _ _ _ _ _ _ _ _ _ ht (accountRow_user _ _)
    · refine keeps_beside hI (writes_reset_week _ _) (silent_reset_week _ _) ht fun u t ht => ?_
      refine keeps_beside hI (Prog.writes_lift _) (Prog.silent_lift _) ht fun hit t ht => ?_
      refine keeps_beside hI (Prog.writes_lift _) (Prog.silent_lift _) ht fun cooling t ht => ?_
      refine Prog.wp_ite (fun _ => ?_) fun _ =>
        charge_balances_keeps hI hP _ _ _ _ _ _ _ _ _ ht (accountRow_user _ _)
      exact keeps_part hI (writes_charge_window _ _ _ _ _ _) ht.kept

theorem check_keeps (hI : Kept I P) (now : Datetime) (c : ChatCall) (hs : I s.view) :
    Keeps I (permission now c) s := by
  unfold permission check_chat_usage_permission_toman
  refine keeps_account hI hs fun hs => ?_
  refine keeps_part hI ((writes_chat_quote _ _ _).bind fun quote => ?_) hs.kept
  refine Prog.writes_ite (Prog.writes_pure _) ((writes_tiered _ _).bind fun tier => ?_)
  rcases tier with ⟨_ | u, _ | plan⟩
  · exact Prog.writes_ite (Prog.writes_pure _) (Prog.writes_pure _)
  · exact Prog.writes_ite (Prog.writes_pure _) (Prog.writes_pure _)
  · exact Prog.writes_ite (Prog.writes_pure _) (Prog.writes_pure _)
  · refine (writes_reset_week _ _).bind fun u => (writes_reset_cooldown _ _).bind fun u => ?_
    refine (Prog.writes_lift _).bind fun cooling => (Prog.writes_lift _).bind fun hit => ?_
    exact Prog.writes_ite (Prog.writes_ite (Prog.writes_pure _) (Prog.writes_pure _))
      (Prog.writes_ite (Prog.writes_ite (Prog.writes_pure _) (Prog.writes_pure _))
        (Prog.writes_pure _))

/-- The two entries of a purchase, for the subscription with this id. -/
def bought_entries (c : PurchaseCall) (db : Db) (subscription_id : Nat) : List TomanLedgerEntry :=
  [new_ledger_entry c.user (c.account db) (c.price db) 0
    (if 0 < c.wallet db then -c.wallet db else 0) "subscription_payment"
    (some ("Purchased " ++ formatted c.plan.name)) none (payment_key c.idempotency_key)
    [("plan_id", Scalar.int c.plan.id), ("subscription_id", Scalar.int subscription_id),
     ("payment_confirmed", Scalar.bool c.payment_confirmed),
     ("wallet_payment_toman", Scalar.int (c.wallet db)),
     ("external_payment_toman", Scalar.int (c.price db - c.wallet db))],
   new_ledger_entry c.user (c.account db) (c.gift db)
    (if c.grant_gift_toman_balance then c.gift db else 0) 0 "subscription_gift_credit"
    (some ("Gift credit for " ++ formatted c.plan.name)) none c.idempotency_key
    [("plan_id", Scalar.int c.plan.id), ("subscription_id", Scalar.int subscription_id),
     ("payment_toman", Scalar.int (c.price db)),
     ("grant_gift_toman_balance", Scalar.bool c.grant_gift_toman_balance)]]

/-- The purchase passes its checks and finds a pool with room. -/
structure Passes (now : Datetime) (c : PurchaseCall) (db : Db) : Prop where
  unused : ledgerRow db c.idempotency_key = none
  inactive : activeRow now db c.user.id = none
  paid : ¬c.Unpaid db
  ends : ∃ t, addDelta now (days 30) = .ok t
  room : ∃ pool, db.pools.lowest has_room = some pool

/-- The kind has the posting of this purchase. -/
def Buys (P : Posting) (now : Datetime) (c : PurchaseCall) (db : Db) : Prop :=
  Passes now c db → ∀ n, P (accountRow db c.user.id) (c.account db) (bought_entries c db n)

theorem purchase_keeps (hI : Kept I P) (now : Datetime) (c : PurchaseCall)
    (hP : Buys P now c s.view) (hs : I s.view) : Keeps I (c.prog now) s := by
  unfold PurchaseCall.prog purchase_toman_subscription
  refine keeps_account hI hs fun hs => ?_
  refine Prog.wp_bind (Prog.Silent.wp_run (silent_existing _) (run_existing_ledger _ _) ?_)
  simp only [ledgerRow_withAccount]
  cases hkey : ledgerRow s.view c.idempotency_key with
  | some existing => exact hs.kept
  | none =>
  refine Prog.wp_bind (Prog.Silent.wp_run (a := activeRow now s.view c.user.id)
    (Prog.silent_read _) rfl ?_)
  cases hactive : activeRow now s.view c.user.id with
  | some active => exact hs.kept
  | none =>
  refine Prog.wp_bind (Prog.Silent.wp_run silent_config
    (run_get_or_create_subscription_config _) ?_)
  have hconfig : Holds I (accountRow s.view c.user.id) ⟨s.stored, c.base s.view⟩ :=
    ⟨hI.frame (withAccount s.view c.user.id) _ rfl rfl hs.kept, hs.row⟩
  refine Prog.wp_ite (fun _ => hconfig.kept) fun hlow => ?_
  refine Prog.wp_ite (fun _ => hconfig.kept) fun hopen => ?_
  refine Prog.wp_bind (Prog.wp_lift (fun ends hends => ?_) fun _ _ => hconfig.kept)
  refine Prog.wp_bind (Prog.wp_read (Prog.wp_bind (Prog.wp_flush fun _ => ?_)))
  have hnone : (c.row now ends).pool_id = none := rfl
  have hview : Session.view ⟨s.stored, unassigned (c.base s.view) (c.row now ends)⟩ =
      { c.base s.view with
        subscriptions := (c.base s.view).subscriptions.insert (c.row now ends) } := rfl
  have hassign := run_attempt_assign hnone hview
  cases hpool : s.view.pools.lowest has_room with
  | none =>
    rw [show (c.base s.view).pools.lowest has_room = none from hpool] at hassign
    refine Prog.wp_bind (Prog.Silent.wp_run (silent_assign _).attempt hassign ?_)
    exact keeps_part hI ((Prog.writes_flush trivial).bind fun _ => Prog.writes_pure _)
      (hI.frame (c.base s.view) _ rfl rfl hconfig.kept)
  | some pool =>
    rw [show (c.base s.view).pools.lowest has_room = some pool from hpool] at hassign
    refine Prog.wp_bind (Prog.Silent.wp_run (silent_assign _).attempt hassign ?_)
    have hsub : Holds I (accountRow s.view c.user.id)
        ⟨s.stored, subscribed (c.base s.view) (c.row now ends) pool⟩ :=
      ⟨hI.frame (c.base s.view) _ rfl rfl hconfig.kept, hconfig.row⟩
    have hunpaid : ¬c.Unpaid s.view := fun h => h.elim hlow hopen
    exact keeps_two_entries hI hsub (owner_bought _ _ _ _ _)
      (hP ⟨hkey, hactive, hunpaid, ⟨ends, hends⟩, pool, hpool⟩ _) fun _ _ _ ht => keeps_end _ ht

/-- The kind has the posting of this approval, if the request is a pending one. -/
def Approves (P : Posting) (now : Datetime) (id : Nat) (db : Db) : Prop :=
  ∀ req user, db.payment_requests.get id = some req → req.status = some "pending" →
    db.users.get req.user_id = some user →
    (plan_of_request req = none →
      P (accountRow db user.id) (paid_in (accountRow db user.id) req.amount_toman)
        [manual_entry user (paid_in (accountRow db user.id) req.amount_toman) req]) ∧
    ∀ plan, plan_of_request req = some plan.id → db.plans.get plan.id = some plan →
      Buys P now (manualPurchase user plan req) db

/-- What follows the posting of an approval. -/
theorem writes_settled (now : Datetime) (req : PaymentRequest) (note : Option String)
    (action reason : String) (before after : Option Dict) :
    (do
      Prog.flush (.setPaymentRequest req (settled req now "approved" note))
      record_admin_action action req.id reason before after
      Prog.publish
      return settled req now "approved" note : Tx PaymentRequest).Writes off_books :=
  (Prog.writes_flush trivial).bind fun _ => (Prog.writes_flush trivial).bind fun _ =>
    Prog.writes_publish.bind fun _ => Prog.writes_pure _

theorem approve_keeps (hI : Kept I P) (now : Datetime) (id : Nat) (note : Option String)
    (hP : Approves P now id s.view) (hs : I s.view) :
    Keeps I (approve_payment_request now id note) s := by
  unfold approve_payment_request pending_request
  refine Prog.wp_bind (Prog.wp_bind (Prog.wp_read ?_))
  cases hreq : s.view.payment_requests.get id with
  | none => exact hs
  | some req =>
  refine Prog.wp_ite (fun _ => hs) fun hst => ?_
  rw [not_not] at hst
  refine Prog.wp_pure (Prog.wp_bind (Prog.wp_read ?_))
  cases hu : s.view.users.get req.user_id with
  | none => exact hs
  | some user =>
  obtain ⟨htopup, hplan⟩ := hP req user hreq hst hu
  cases hp : plan_of_request req with
  | none =>
    unfold approve_topup get_or_create_billing_account_row
    refine keeps_account hI hs fun hs => ?_
    exact keeps_posting hI hs (owner_paid_in _ _) (htopup hp)
      fun _ _ ht => keeps_part hI (writes_settled _ _ _ _ _ _ _) ht
  | some plan_id =>
    unfold approve_subscription
    refine Prog.wp_bind (Prog.wp_read ?_)
    cases hget : s.view.plans.get plan_id with
    | none => exact hs
    | some plan =>
      obtain ⟨-, rfl⟩ := (Table.get_eq_some _).mp hget
      refine Prog.wp_bind (Prog.wp.mono (fun result t ht => ?_) (fun _ _ ht => ht)
        (purchase_keeps hI now (manualPurchase user plan req) (hplan plan hp hget) hs))
      refine Prog.wp_ite (fun _ => ht) fun _ => ?_
      exact keeps_part hI (writes_settled _ _ _ _ _ _ _) ht

theorem starter_keeps (hI : Kept I P) (hP : OwnBooks P) (user : UserPreference) (hs : I s.view) :
    Keeps I (apply_starter_credit user) s := by
  have hgift : ∀ n c (t : Session Db) (r : Bool), I t.view →
      Keeps I (apply_starter_gift user n c >>= fun _ => (return r : Tx Bool)) t := by
    intro n c t r ht
    refine Prog.wp_bind (keeps_account hI ht fun ht => ?_)
    exact keeps_posting hI ht ⟨rfl, rfl, rfl⟩ (hP.welcomed _ _ _ _ (accountRow_user _ _))
      fun _ _ ht => ht
  unfold apply_starter_credit
  refine Prog.wp_bind (Prog.wp_read (Prog.wp_bind (Prog.wp_read ?_)))
  refine Prog.wp_ite (fun _ => hs) fun _ => ?_
  refine Prog.wp_bind (Prog.wp_read ?_)
  generalize Table.lowest s.view.starter_credit_configs _ = config
  cases config with
  | none => exact hs
  | some config =>
    have hrest : ∀ (b e : Bool) (t : Session Db), I t.view → Keeps I (do
        let amount_toman ← Prog.lift (compared config.amount_toman)
        let pays_toman := decide (0 < amount_toman) && e
        if pays_toman then apply_starter_gift user amount_toman config.id
        return b || pays_toman : Tx Bool) t := by
      intro b e t ht
      refine Prog.wp_bind (Prog.wp_lift (fun n _ => ?_) fun _ _ => ht)
      exact Prog.wp_ite (fun _ => hgift _ _ _ _ ht) fun _ => ht
    refine Prog.wp_bind (Prog.wp_lift (fun amount _ => ?_) fun _ _ => hs)
    refine Prog.wp_ite (fun _ => ?_) fun _ => hrest _ _ _ hs
    refine Prog.wp_bind (Prog.wp.mono (fun _ t ht => hrest _ _ t ht) (fun _ _ ht => ht)
      (keeps_part hI ?_ hs))
    exact (Prog.writes_lift _).bind fun _ => (writes_credit_delta _ _ _ _ _ _ _ (fun _ => trivial)
      (fun _ => trivial) (fun _ _ => trivial) fun _ _ => trivial).bind fun _ => Prog.writes_pure _

end

/-! ## Runs -/

/-- The operations that write ledger entries, and the check before a chat. -/
inductive Operation where
  | purchase (c : PurchaseCall)
  | topup (c : TopupCall)
  | mark (c : MarkCall)
  | check (c : ChatCall)
  | chat (c : ChatCall)
  | generic (c : GenericCall)
  | approve (request_id : Nat) (admin_note : Option String)
  | starter (user : UserPreference)

def Operation.prog (now : Datetime) : Operation → Tx Unit
  | .purchase c => calls.discard (c.prog now)
  | .topup c => calls.discard (c.prog now)
  | .mark c => calls.discard c.prog
  | .check c => calls.discard (permission now c)
  | .chat c => calls.discard (c.prog now)
  | .generic c => calls.discard c.prog
  | .approve id note => calls.discard (approve_payment_request now id note)
  | .starter user => calls.discard (apply_starter_credit user)

/-- An operation at a time, or what its caller does with the session. -/
inductive Step where
  | operation (now : Datetime) (o : Operation)
  | commit
  | rollback

def Step.run (s : Session Db) : Step → Session Db
  | .operation now o => ((o.prog now).run s).2
  | .commit => s.commit
  | .rollback => s.rollback

/-- A purchase or an approval of the step posts what the kind allows. -/
def Fits (P : Posting) (s : Session Db) : Step → Prop
  | .operation now (.purchase c) => Buys P now c s.view
  | .operation now (.approve id _) => Approves P now id s.view
  | _ => True

section
variable {α : Type} {I : Db → Prop} {P : Posting} {s : Session Db}

theorem keeps_discard {x : Tx α} (h : Keeps I x s) : Keeps I (calls.discard x) s :=
  Prog.wp_bind (Prog.wp.mono (fun _ _ ht => ht) (fun _ _ ht => ht) h)

theorem operation_keeps (hI : Kept I P) (hP : OwnBooks P) {now : Datetime} {o : Operation}
    (hfit : Fits P s (.operation now o)) (hs : I s.view) : Keeps I (o.prog now) s := by
  cases o with
  | purchase c => exact keeps_discard (purchase_keeps hI now c hfit hs)
  | topup c => exact keeps_discard (topup_keeps hI hP now c hs)
  | mark c => exact keeps_discard (mark_keeps hI hP c hs)
  | check c => exact keeps_discard (check_keeps hI now c hs)
  | chat c => exact keeps_discard (chat_keeps hI hP now c hs)
  | generic c => exact keeps_discard (generic_keeps hI hP c hs)
  | approve id note => exact keeps_discard (approve_keeps hI now id note hfit hs)
  | starter user => exact keeps_discard (starter_keeps hI hP user hs)

/-- What new accounts and postings of the kind keep holds all along a run
whose purchases and approvals are of the kind. -/
theorem run_keeps (hI : Kept I P) (hP : OwnBooks P) {es : List Step} {db : Db}
    (hes : Each Step.run (Fits P) (.opened db) es) (hdb : I db) :
    I (after Step.run (.opened db) es).stored ∧ I (after Step.run (.opened db) es).view := by
  refine hes.keeps (I := fun s => I s.stored ∧ I s.view) (fun s e hs hfit => ?_) ⟨hdb, hdb⟩
  cases e with
  | commit => exact ⟨hs.2, hs.2⟩
  | rollback => exact ⟨hs.1, hs.1⟩
  | operation now o => exact (operation_keeps hI hP hfit hs.2).ends hs.1

end

end dr_boz.postings
