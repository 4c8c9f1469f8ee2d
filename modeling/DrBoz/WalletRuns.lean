-- Law of the USD wallet and its two writers. The service starts from the
-- available amount, cut at zero, and writes one sum into both columns. The bot
-- adds to each column what it holds.
import DrBoz.ImageTool
import DrBoz.Accounts
import DrBoz.BillingRuns
import DrBoz.Lib.Runs
import DrBoz.Calls

open keyed_table unit_of_work runs dr_boz.py dr_boz.models dr_boz.codex_capacity
open dr_boz.toman_billing dr_boz.promo_codes dr_boz.accounts dr_boz.views dr_boz.billing_runs
open dr_boz.image_tool dr_boz.calls

namespace dr_boz.wallet_runs

/-! ## The wallet in the bot -/

/-- A float that a caller hands over. The rows hold finite ones only. -/
inductive FloatArg where
  | finite (x : PyFloat)
  | infinity
  | minus_infinity
  | nan
deriving DecidableEq

/-- `max(0.0, float(amount))`. Infinity cannot be rounded afterwards, and a NaN
is not greater than zero. -/
def FloatArg.clamped : FloatArg → Except PyError PyFloat
  | .finite x => .ok (max 0 x)
  | .infinity => .error .overflow_error
  | .minus_infinity | .nan => .ok 0

/-- `_usd_to_minor` of an amount that is not negative. -/
def usd_to_minor (amount_usd : PyFloat) : Int := roundHalfEven (f64 (amount_usd * 1000000))

/-- `_signed_usd_to_minor`. -/
def signed_usd_to_minor (amount_usd : PyFloat) : Int := roundHalfEven (f64 (amount_usd * 1000000))

/-- `_minor_to_usd`. -/
def minor_to_usd (amount_minor : Int) : PyFloat := f64 (f64 amount_minor / 1000000)

def credit_balance (user : UserPreference) : PyFloat := max 0 (user.credit_balance_usd.getD 0)

/-- `column += amount`. A NULL raises. -/
def added (column : Option Int) (amount : Int) : Except PyError Int :=
  match column with
  | some v => .ok (v + amount)
  | none => .error .type_error

/-- The wallet that both functions look for, or open. -/
def user_wallet (user : UserPreference) : Tx Wallet := do
  let wallet ← Prog.read fun db => db.wallets.first fun w => w.user_id = user.id
  match wallet with
  | some wallet => return wallet
  | none =>
    let opening_minor := signed_usd_to_minor (user.credit_balance_usd.getD 0)
    let id ← Prog.read fun db => db.wallets.nextKey
    let added : Wallet :=
      { user_id := user.id, balance_minor := some opening_minor
        available_minor := some opening_minor }
    Prog.flush (.addWallet added)
    return { added with id }

/-- The wallet with a signed amount on both columns. -/
def Wallet.moved (wallet : Wallet) (balance available : Int) : Wallet :=
  { wallet with
    balance_minor := some balance
    available_minor := some available
    version := some (intOr0 wallet.version + 1) }

/-- The event of a top-up by a user who came with a campaign. -/
def record_purchase (user : UserPreference) (amount_usd : PyFloat) : Tx Unit :=
  match user.referral_campaign_id with
  | some (n + 1) =>
    Prog.flush (.addReferralEvent
      { campaign_id := n + 1, user_id := user.id, event_type := "purchase"
        amount_usd := some amount_usd })
  | _ => return ()

def apply_topup_credit (user : UserPreference) (usd_amount : FloatArg) (idempotency_key : String)
    (metadata : Dict) : Tx (Bool × PyFloat) := do
  let existing ← Prog.read fun db =>
    db.credit_ledger.first fun e => e.idempotency_key = some idempotency_key
  match existing with
  | some _ =>
    let user ← refreshed user
    return (false, credit_balance user)
  | none =>
  -- An amount that gets past the test below is its own clamp.
  let credit_usd ← Prog.lift usd_amount.clamped
  let credit_minor := usd_to_minor credit_usd
  if credit_minor ≤ 0 then Prog.throw (.value_error "topup amount must be positive")
  else
  let wallet ← user_wallet user
  let balance ← Prog.lift (added wallet.balance_minor credit_minor)
  let available ← Prog.lift (added wallet.available_minor credit_minor)
  let total := f64 (user.total_charged_usd.getD 0 + credit_usd)
  Prog.flush (.addCreditLedger
    { user_id := user.id, wallet_id := some wallet.id, amount_delta_usd := credit_usd
      amount_minor := some credit_minor, balance_after_minor := some balance
      available_after_minor := some available, held_after_minor := wallet.held_minor
      currency := wallet.currency, direction := some "credit", entry_type := "wallet_topup"
      status := some "posted", reason := some "bale wallet topup"
      idempotency_key := some idempotency_key, metadata_json := metadata })
  Prog.flush (.setWallet wallet (Wallet.moved wallet balance available))
  Prog.flush (.setUser user { user with
    credit_balance_usd := some (minor_to_usd available)
    total_charged_usd := some total
    is_pro := if 1 ≤ total then some true else user.is_pro })
  record_purchase user credit_usd
  Prog.publish
  let user ← refreshed user
  return (true, credit_balance user)

/-- `not wallet.allow_negative and wallet.available_minor < charge_minor`. -/
def short_of (wallet : Wallet) (charge_minor : Int) : Except PyError Bool :=
  if wallet.allow_negative = some true then .ok false
  else match wallet.available_minor with
    | some available => .ok (decide (available < charge_minor))
    | none => .error .type_error

def charge_credit (user : UserPreference) (amount_usd : FloatArg) (entry_type reason : String)
    (metadata : Dict) (usage_event_id : Option Nat) (idempotency_key : Option String) :
    Tx (Bool × PyFloat) := do
  let charge ← Prog.lift amount_usd.clamped
  let charge_minor := usd_to_minor charge
  if charge ≤ 0 then return (true, credit_balance user)
  else
  let existing ← Prog.read fun db =>
    if truthyKey idempotency_key then
      db.credit_ledger.first fun e => e.idempotency_key = idempotency_key
    else none
  match existing with
  | some _ => return (true, credit_balance user)
  | none =>
  let wallet ← user_wallet user
  let short ← Prog.lift (short_of wallet charge_minor)
  if short then return (false, minor_to_usd (intOr0 wallet.available_minor))
  else
  let balance ← Prog.lift (added wallet.balance_minor (-charge_minor))
  let available ← Prog.lift (added wallet.available_minor (-charge_minor))
  Prog.flush (.addCreditLedger
    { user_id := user.id, wallet_id := some wallet.id, amount_delta_usd := -charge
      amount_minor := some charge_minor, balance_after_minor := some balance
      available_after_minor := some available, held_after_minor := wallet.held_minor
      currency := wallet.currency, direction := some "debit", entry_type
      status := some "posted", reason := some reason, usage_event_id, idempotency_key
      metadata_json := metadata })
  Prog.flush (.setWallet wallet (Wallet.moved wallet balance available))
  Prog.flush (.setUser user { user with credit_balance_usd := some (minor_to_usd available) })
  Prog.publish
  let user ← refreshed user
  return (true, credit_balance user)

def credit (user : UserPreference) (amount_minor : Int) (entry_type : String)
    (reason : Option String) (metadata : Dict) (commit : Bool) :
    Tx (WalletResult × UserPreference) :=
  apply_credit_delta user amount_minor.natAbs entry_type reason metadata false commit

/-! ## Runs -/

/-- The arguments that the calls of the service share. -/
structure Note where
  entry_type : String
  reason : Option String
  metadata : Dict
  commit : Bool

inductive WalletOp where
  | delta (amount_minor : Int) (allow_negative : Bool) (n : Note)
  | credit (amount_minor : Int) (n : Note)
  | debit (amount_minor : Int) (n : Note)
  | topup (usd_amount : FloatArg) (idempotency_key : String) (metadata : Dict)
  | charge (amount_usd : FloatArg) (entry_type reason : String) (metadata : Dict)
      (usage_event_id : Option Nat) (idempotency_key : Option String)

def WalletOp.call (user : UserPreference) : WalletOp → Tx Unit
  | .delta amount allow_negative n => calls.discard
      (apply_credit_delta user amount n.entry_type n.reason n.metadata allow_negative n.commit)
  | .credit amount n => calls.discard
      (wallet_runs.credit user amount n.entry_type n.reason n.metadata n.commit)
  | .debit amount n => calls.discard
      (image_tool.debit user amount n.entry_type n.reason n.metadata n.commit)
  | .topup amount key metadata => calls.discard (apply_topup_credit user amount key metadata)
  | .charge amount entry_type reason metadata event key => calls.discard
      (charge_credit user amount entry_type reason metadata event key)

/-- A call for the user, with the row that the session has loaded. -/
def WalletOp.prog (u : Nat) (op : WalletOp) : Tx Unit := do
  let user ← Prog.read fun db => db.users.get u
  match user with
  | some user => op.call user
  | none => return ()

/-- The database after a call. What it leaves uncommitted is its caller's to
commit, and a call that raises is rolled back. -/
def settled {α : Type} (r : Except PyError α × Session Db) : Db :=
  match r.1 with
  | .ok _ => r.2.view
  | .error _ => r.2.stored

def WalletOp.step (u : Nat) (db : Db) (op : WalletOp) : Db :=
  settled ((op.prog u).run (.opened db))

/-! ## The books of a wallet -/

/-- An entry with its sign: the service signs the amount of a debit, the bot
does not. -/
def signed (e : CreditLedgerEntry) : Int :=
  if e.direction = some "debit" then -((intOr0 e.amount_minor).natAbs : Int)
  else (intOr0 e.amount_minor).natAbs

def ledger_total (u : Nat) (db : Db) : Int :=
  ((db.credit_ledger.rows.filter fun e => e.user_id = u).map signed).sum

def wallet_row (u : Nat) (db : Db) : Option Wallet := db.wallets.first fun w => w.user_id = u

/-- A wallet that is not there has nothing. -/
def available_of (u : Nat) (db : Db) : Int :=
  (wallet_row u db).elim 0 fun w => intOr0 w.available_minor

def balance_of (u : Nat) (db : Db) : Int :=
  (wallet_row u db).elim 0 fun w => intOr0 w.balance_minor

def credit_of (u : Nat) (db : Db) : PyFloat :=
  ((db.users.get u).bind fun user => user.credit_balance_usd).getD 0

/-- The row of the user has the available amount, as one of the two modules
puts it in dollars. -/
def Agrees (u : Nat) (db : Db) : Prop :=
  credit_of u db = promo_codes.minor_to_usd (available_of u db) ∨
    credit_of u db = minor_to_usd (available_of u db)

/-- What stands in the books is the same. -/
structure SameBooks (u : Nat) (db db' : Db) : Prop where
  available : available_of u db' = available_of u db
  balance : balance_of u db' = balance_of u db
  total : ledger_total u db' = ledger_total u db
  user : db'.users.get u = db.users.get u

theorem SameBooks.refl (u : Nat) (db : Db) : SameBooks u db db := ⟨rfl, rfl, rfl, rfl⟩

theorem SameBooks.agrees {u : Nat} {db db' : Db} (h : SameBooks u db db') (ha : Agrees u db) :
    Agrees u db' := by
  unfold Agrees credit_of at ha ⊢
  rw [h.available, h.user]
  exact ha

/-- The amount and its entry go on top of an available amount and a balance. -/
structure Posted (u : Nat) (db db' : Db) (available balance amount : Int) : Prop where
  available : available_of u db' = available + amount
  balance : balance_of u db' = balance + amount
  total : ledger_total u db' = ledger_total u db + amount
  agrees : Agrees u db'

/-- The amount and its entry go on top of what the wallet has. -/
def Kept (u : Nat) (db db' : Db) : Prop :=
  ∃ amount, Posted u db db' (available_of u db) (balance_of u db) amount

theorem SameBooks.kept {u : Nat} {db db' : Db} (h : SameBooks u db db') (ha : Agrees u db) :
    Kept u db db' :=
  ⟨0, by rw [h.available, add_zero], by rw [h.balance, add_zero], by rw [h.total, add_zero],
    h.agrees ha⟩

/-! ## The wallet that a call finds or opens -/

/-- A user without a wallet whose row agrees has no credit. -/
theorem no_credit {u : Nat} {db : Db} (ha : Agrees u db) (h : wallet_row u db = none) :
    credit_of u db = 0 := by
  have hzero : available_of u db = 0 := by
    unfold available_of
    rw [h]
    rfl
  have hservice : promo_codes.minor_to_usd 0 = 0 := by decide +kernel
  have hbot : minor_to_usd 0 = 0 := by decide +kernel
  unfold Agrees at ha
  rw [hzero, hservice, hbot] at ha
  exact ha.elim id id

theorem wallet_opened {u : Nat} {db : Db} (h : wallet_row u db = none) :
    db.admits (.addWallet (new_wallet u 0)) = true ∧
      wallet_row u (db.apply (.addWallet (new_wallet u 0))) =
        some { new_wallet u 0 with id := db.wallets.nextKey } ∧
      SameBooks u db (db.apply (.addWallet (new_wallet u 0))) := by
  have haccepts := accepts_new_wallet h 0
  have hrow : wallet_row u (db.apply (.addWallet (new_wallet u 0))) =
      some { new_wallet u 0 with id := db.wallets.nextKey } :=
    Table.first_insert_none haccepts h (decide_eq_true rfl)
  refine ⟨decide_eq_true haccepts, hrow, ⟨?_, ?_, rfl, rfl⟩⟩
  · unfold available_of
    rw [hrow, h]
    rfl
  · unfold balance_of
    rw [hrow, h]
    rfl

theorem run_opening {u : Nat} {db : Db} (stored : Db) (h : wallet_row u db = none) :
    ((do
      let id ← Prog.read fun db => db.wallets.nextKey
      Prog.flush (.addWallet (new_wallet u 0))
      return { new_wallet u 0 with id } : Tx Wallet)).run ⟨stored, db⟩ =
      (.ok { new_wallet u 0 with id := db.wallets.nextKey },
        ⟨stored, db.apply (.addWallet (new_wallet u 0))⟩) := by
  simp only [Prog.run_bind, Prog.run_read, Prog.continueWith_ok, Prog.run_flush, store_admits,
    (wallet_opened h).1, if_true, Prog.run_pure, store_apply]

/-- A session that has looked for the wallet has it, and the same books. -/
structure Opened (user : UserPreference) (db : Db) (wallet : Wallet) (db' : Db) : Prop where
  row : wallet_row user.id db' = some wallet
  books : SameBooks user.id db db'

/-- A user who has no wallet has no credit on the own row. -/
theorem no_credit_balance {user : UserPreference} {db : Db}
    (huser : db.users.get user.id = some user) (ha : Agrees user.id db)
    (hrow : wallet_row user.id db = none) : user.credit_balance_usd.getD 0 = 0 := by
  have hzero := no_credit ha hrow
  unfold credit_of at hzero
  rw [huser] at hzero
  exact hzero

/-- A program that takes the wallet there is, and opens an empty one else. -/
theorem wallet_run {user : UserPreference} {db : Db} (stored : Db) {x : Tx Wallet}
    (hsome : ∀ wallet, wallet_row user.id db = some wallet →
      x.run ⟨stored, db⟩ = (.ok wallet, ⟨stored, db⟩))
    (hnone : wallet_row user.id db = none → x.run ⟨stored, db⟩ =
      (.ok { new_wallet user.id 0 with id := db.wallets.nextKey },
        ⟨stored, db.apply (.addWallet (new_wallet user.id 0))⟩)) :
    ∃ wallet db', x.run ⟨stored, db⟩ = (.ok wallet, ⟨stored, db'⟩) ∧
      Opened user db wallet db' := by
  cases hrow : wallet_row user.id db with
  | some wallet => exact ⟨wallet, db, hsome wallet hrow, hrow, .refl _ _⟩
  | none =>
    obtain ⟨-, hopened, hbooks⟩ := wallet_opened hrow
    exact ⟨_, _, hnone hrow, hopened, hbooks⟩

theorem user_wallet_run {user : UserPreference} {db : Db} (stored : Db)
    (huser : db.users.get user.id = some user) (ha : Agrees user.id db) :
    ∃ wallet db', (user_wallet user).run ⟨stored, db⟩ = (.ok wallet, ⟨stored, db'⟩) ∧
      Opened user db wallet db' := by
  refine wallet_run stored (fun wallet hrow => ?_) fun hrow => ?_
  · unfold wallet_row at hrow
    rw [user_wallet, Prog.run_bind, Prog.run_read, Prog.continueWith_ok, hrow]
    rfl
  · have hcredit := no_credit_balance huser ha hrow
    have hminor : signed_usd_to_minor 0 = 0 := by decide +kernel
    refine Eq.trans ?_ (run_opening stored hrow)
    unfold wallet_row at hrow
    rw [user_wallet, Prog.run_bind, Prog.run_read, Prog.continueWith_ok, hrow, hcredit, hminor]
    rfl

theorem get_or_create_wallet_run {user : UserPreference} {db : Db} (stored : Db)
    (huser : db.users.get user.id = some user) (ha : Agrees user.id db) :
    ∃ wallet db', (get_or_create_wallet user).run ⟨stored, db⟩ = (.ok wallet, ⟨stored, db'⟩) ∧
      Opened user db wallet db' := by
  refine wallet_run stored (fun wallet hrow => ?_) fun hrow => ?_
  · unfold wallet_row at hrow
    rw [get_or_create_wallet, Prog.run_bind, Prog.run_read, Prog.continueWith_ok, hrow]
    rfl
  · have hcredit := no_credit_balance huser ha hrow
    have hminor : promo_codes.usd_to_minor 0 = .ok 0 := by decide +kernel
    refine Eq.trans ?_ (run_opening stored hrow)
    unfold wallet_row at hrow
    rw [get_or_create_wallet, Prog.run_bind, Prog.run_read, Prog.continueWith_ok, hrow, hcredit,
      hminor]
    rfl

/-! ## What is posted -/

theorem ledger_total_insert {u : Nat} {db : Db} {e : CreditLedgerEntry}
    (he : db.credit_ledger.Accepts e) (hu : e.user_id = u) :
    ledger_total u (db.apply (.addCreditLedger e)) = ledger_total u db + signed e := by
  unfold ledger_total
  have hrows : (db.apply (.addCreditLedger e)).credit_ledger.rows =
      db.credit_ledger.rows ++ [{ e with id := db.credit_ledger.nextKey }] :=
    Table.rows_insert he
  rw [hrows, List.filter_append, List.map_append, List.sum_append]
  simp only [List.filter_cons, hu, decide_true, if_true, List.filter_nil, List.map_cons,
    List.map_nil, List.sum_cons, List.sum_nil, add_zero]
  rfl

/-- The database with an entry, and with the wallet and the user as they are
after it. -/
def posted (db : Db) (e : CreditLedgerEntry) (wallet : Wallet) (balance available : Int)
    (user user' : UserPreference) : Db :=
  ((db.apply (.addCreditLedger e)).apply
    (.setWallet wallet (Wallet.moved wallet balance available))).apply (.setUser user user')

theorem row_posted {user user' : UserPreference} {wallet : Wallet} {db : Db}
    {e : CreditLedgerEntry} {balance available : Int} (hrow : wallet_row user.id db = some wallet) :
    wallet_row user.id (posted db e wallet balance available user user') =
      some (Wallet.moved wallet balance available) := by
  have hmem := Table.first_mem hrow
  have hget : db.wallets.get wallet.id = some wallet :=
    db.wallets.get_eq_some.mpr ⟨hmem.1, rfl⟩
  have hmerge : Wallet.merge wallet (Wallet.moved wallet balance available) wallet =
      Wallet.moved wallet balance available := by
    simp only [Wallet.merge, Wallet.moved, col_self]
  have hput : db.wallets.update wallet.id (Wallet.merge wallet (Wallet.moved wallet balance
      available)) (fun _ => rfl) (fun _ => rfl) = db.wallets.put (Wallet.moved wallet balance
        available) := Table.update_eq_put _ _ hget hmerge
  have hwallets : (posted db e wallet balance available user user').wallets =
      db.wallets.put (Wallet.moved wallet balance available) := hput
  unfold wallet_row
  rw [hwallets]
  exact Table.first_put hrow ⟨rfl, rfl⟩ hmem.2

theorem credit_posted {user user' : UserPreference} {wallet : Wallet} {db : Db}
    {e : CreditLedgerEntry} {balance available : Int}
    (huser : db.users.get user.id = some user) (hid : user'.id = user.id) :
    credit_of user.id (posted db e wallet balance available user user') =
      user'.credit_balance_usd.getD 0 := by
  have hupdate := db.users.get_update user'.id (UserPreference.merge user user') (fun _ => rfl)
    (fun _ => rfl) user.id
  rw [if_pos hid.symm, huser, Option.map_some] at hupdate
  have hget : (posted db e wallet balance available user user').users.get user.id =
      some (UserPreference.merge user user' user) := hupdate
  unfold credit_of
  rw [hget]
  exact congrArg (Option.getD · 0) (col_self _ _)

/-- The entry, the wallet and the row of the user move by one amount. -/
theorem Posted.of_writes {user user' : UserPreference} {wallet : Wallet} {db db' : Db}
    {e : CreditLedgerEntry} {balance available amount : Int}
    (hopened : Opened user db wallet db') (huser : db.users.get user.id = some user)
    (he : db'.credit_ledger.Accepts e) (heu : e.user_id = user.id) (hid : user'.id = user.id)
    (hsigned : signed e = amount)
    (hcredit : user'.credit_balance_usd = some (promo_codes.minor_to_usd (available + amount)) ∨
      user'.credit_balance_usd = some (minor_to_usd (available + amount))) :
    Posted user.id db
      (posted db' e wallet (balance + amount) (available + amount) user user')
      available balance amount := by
  have hrow := @row_posted user user' wallet db' e (balance + amount) (available + amount)
    hopened.row
  have havailable : available_of user.id
      (posted db' e wallet (balance + amount) (available + amount) user user') =
        available + amount := by
    unfold available_of
    rw [hrow]
    rfl
  refine ⟨havailable, ?_, ?_, ?_⟩
  · unfold balance_of
    rw [hrow]
    rfl
  · rw [← hopened.books.total, ← hsigned]
    exact ledger_total_insert he heu
  · unfold Agrees
    rw [havailable, credit_posted (hopened.books.user.trans huser) hid]
    rcases hcredit with h | h
    · rw [h]
      exact .inl rfl
    · rw [h]
      exact .inr rfl

/-- The three writes of a posting go through, or the key of the entry is taken. -/
theorem run_writes {α : Type} {e : CreditLedgerEntry} {w w' : Wallet} {user user' : UserPreference}
    (k : Unit → Tx α) (stored db : Db) :
    (Prog.flush (.addCreditLedger e) >>= fun _ => Prog.flush (.setWallet w w') >>= fun _ =>
        Prog.flush (.setUser user user') >>= k).run ⟨stored, db⟩ =
      if db.credit_ledger.Accepts e then
        (k ()).run ⟨stored,
          ((db.apply (.addCreditLedger e)).apply (.setWallet w w')).apply (.setUser user user')⟩
      else (.error .integrity_error, ⟨stored, stored⟩) := by
  have hadmits : db.admits (.addCreditLedger e) = decide (db.credit_ledger.Accepts e) := rfl
  rw [Prog.run_bind, Prog.run_flush, store_admits, hadmits]
  by_cases he : db.credit_ledger.Accepts e
  · rw [decide_eq_true he, if_pos rfl, if_pos he]
    rfl
  · rw [decide_eq_false he, if_neg (by decide), if_neg he]
    rfl

/-! ## The calls of the service -/

/-- A debit that finds too little. -/
def Refused (user : UserPreference) (amount_minor : Int) (allow_negative : Bool) (db : Db) : Prop :=
  amount_minor < 0 ∧ allow_negative = false ∧
    max 0 (available_of user.id db) + amount_minor < 0 ∧ user.is_admin ≠ some true

instance (user : UserPreference) (amount_minor : Int) (allow_negative : Bool) (db : Db) :
    Decidable (Refused user amount_minor allow_negative db) :=
  inferInstanceAs (Decidable (_ ∧ _))

/-- The amount goes on top of the clamped amount, in both columns. -/
def Overwritten (u : Nat) (db db' : Db) : Prop :=
  ∃ amount, Posted u db db' (max 0 (available_of u db)) (max 0 (available_of u db)) amount

theorem Opened.available {user : UserPreference} {wallet : Wallet} {db db' : Db}
    (h : Opened user db wallet db') :
    intOr0 wallet.available_minor = available_of user.id db := by
  rw [← h.books.available]
  unfold available_of
  rw [h.row]
  rfl

theorem settled_publishIf (b : Bool) {α : Type} (a : α) (s : Session Db) :
    settled ((.ok a, s.commitIf b) : Except PyError α × Session Db) = s.view := by
  cases b <;> rfl

theorem signed_delta {e : CreditLedgerEntry} {amount : Int} (hm : e.amount_minor = some amount)
    (hd : e.direction = some (if 0 ≤ amount then "credit" else "debit")) : signed e = amount := by
  unfold signed
  rw [hm, hd]
  by_cases h : 0 ≤ amount
  · have hne : ¬some "credit" = some "debit" := by decide
    rw [if_pos h, if_neg hne]
    simp only [intOr0, Option.getD_some]
    omega
  · rw [if_neg h, if_pos rfl]
    simp only [intOr0, Option.getD_some]
    omega

theorem delta_books {user : UserPreference} {db : Db} (huser : db.users.get user.id = some user)
    (ha : Agrees user.id db) (amount : Int) (entry_type : String) (reason : Option String)
    (metadata : Dict) (allow_negative commit : Bool) {db' : Db}
    (hrun : settled ((apply_credit_delta user amount entry_type reason metadata allow_negative
      commit).run (.opened db)) = db') :
    (Refused user amount allow_negative db → Kept user.id db db') ∧
      (¬Refused user amount allow_negative db → Overwritten user.id db db') := by
  obtain ⟨wallet, db₁, hwallet, hopened⟩ := get_or_create_wallet_run db huser ha
  have hbalance : (get_balance_minor user).run (.opened db) =
      (.ok (max 0 (available_of user.id db)), ⟨db, db₁⟩) := by
    unfold get_balance_minor
    rw [Prog.run_bind, Session.opened, hwallet, Prog.continueWith_ok, hopened.available]
    rfl
  unfold apply_credit_delta at hrun
  rw [Prog.run_bind, hbalance, Prog.continueWith_ok] at hrun
  by_cases h : Refused user amount allow_negative db
  · refine ⟨fun _ => ?_, fun hn => absurd h hn⟩
    rw [if_pos (by exact h)] at hrun
    rw [← hrun]
    exact hopened.books.kept ha
  · refine ⟨fun hr => absurd hr h, fun _ => ⟨amount, ?_⟩⟩
    rw [if_neg (by exact h), Prog.run_bind, wallet_found hopened.row, Prog.continueWith_ok] at hrun
    rw [Prog.run_bind, Prog.run_read, Prog.continueWith_ok, run_writes,
      if_pos (Table.accepts_of_no_unique rfl), Prog.run_bind, Prog.run_publishIf,
      Prog.continueWith_ok, Prog.run_pure, settled_publishIf] at hrun
    rw [← hrun]
    refine Posted.of_writes hopened huser ?_ ?_ ?_ (signed_delta ?_ ?_) (.inl ?_)
    · exact Table.accepts_of_no_unique rfl
    · rfl
    · rfl
    · rfl
    · rfl
    · rfl

/-! ## The calls of the bot -/

theorem added_ok {column : Option Int} {amount v : Int} (h : added column amount = .ok v) :
    v = intOr0 column + amount := by
  cases column with
  | none => cases h
  | some _ =>
    cases h
    rfl

theorem Opened.balance {user : UserPreference} {wallet : Wallet} {db db' : Db}
    (h : Opened user db wallet db') : intOr0 wallet.balance_minor = balance_of user.id db := by
  rw [← h.books.balance]
  unfold balance_of
  rw [h.row]
  rfl

/-- The bot puts an amount on each of the two columns. -/
theorem Opened.kept {user user' : UserPreference} {wallet : Wallet} {db db' : Db}
    {e : CreditLedgerEntry} {amount balance available : Int}
    (h : Opened user db wallet db') (huser : db.users.get user.id = some user)
    (hbalance : added wallet.balance_minor amount = .ok balance)
    (havailable : added wallet.available_minor amount = .ok available)
    (he : db'.credit_ledger.Accepts e) (heu : e.user_id = user.id) (hid : user'.id = user.id)
    (hsigned : signed e = amount)
    (hcredit : user'.credit_balance_usd = some (minor_to_usd available)) :
    Kept user.id db (posted db' e wallet balance available user user') := by
  have hb := added_ok hbalance
  have ha := added_ok havailable
  rw [h.balance] at hb
  rw [h.available] at ha
  subst hb ha
  exact ⟨amount, Posted.of_writes h huser he heu hid hsigned (.inr hcredit)⟩

theorem signed_credit {e : CreditLedgerEntry} {amount : Int} (hm : e.amount_minor = some amount)
    (hd : e.direction = some "credit") (h : 0 ≤ amount) : signed e = amount :=
  signed_delta hm (by rw [if_pos h, hd])

/-- The bot writes the amount of a debit without a sign. -/
theorem signed_debit {e : CreditLedgerEntry} {amount : Int} (hm : e.amount_minor = some amount)
    (hd : e.direction = some "debit") (h : 0 ≤ amount) : signed e = -amount := by
  unfold signed
  rw [hm, if_pos hd]
  simp only [intOr0, Option.getD_some]
  omega

theorem usd_to_minor_nonneg {amount_usd : PyFloat} (h : 0 ≤ amount_usd) :
    0 ≤ usd_to_minor amount_usd :=
  roundHalfEven_nonneg (roundSig_nonneg 2 53 (mul_nonneg h (by norm_num)))

theorem Kept.of_error {u : Nat} {db : Db} (ha : Agrees u db) {α : Type} (e : PyError)
    (view : Db) : Kept u db (settled ((.error e, ⟨db, view⟩) : Except PyError α × Session Db)) :=
  (SameBooks.refl u db).kept ha

theorem record_purchase_run (user : UserPreference) (amount_usd : PyFloat) (s : Session Db) :
    ∃ events, (record_purchase user amount_usd).run s =
      (.ok (), ⟨s.stored, { s.view with referral_events := events }⟩) := by
  unfold record_purchase
  split
  · exact ⟨_, rfl⟩
  · exact ⟨s.view.referral_events, rfl⟩

theorem Kept.with_events {u : Nat} {db db' : Db} (h : Kept u db db')
    (events : Table ReferralEvent) : Kept u db { db' with referral_events := events } := by
  obtain ⟨amount, h⟩ := h
  exact ⟨amount, h.available, h.balance, h.total, h.agrees⟩

theorem topup_books {user : UserPreference} {db : Db} (huser : db.users.get user.id = some user)
    (ha : Agrees user.id db) (usd_amount : FloatArg) (key : String) (metadata : Dict) :
    Kept user.id db (settled ((apply_topup_credit user usd_amount key metadata).run
      (.opened db))) := by
  unfold apply_topup_credit
  rw [Prog.run_bind, Prog.run_read, Prog.continueWith_ok]
  cases (Session.opened db).view.credit_ledger.first fun e => e.idempotency_key = some key with
  | some _ => exact (SameBooks.refl _ db).kept ha
  | none =>
    cases hclamped : usd_amount.clamped with
    | error e => exact .of_error ha e db
    | ok credit_usd =>
      simp only [Prog.run_bind, Prog.run_lift_ok, Prog.continueWith_ok]
      by_cases hzero : usd_to_minor credit_usd ≤ 0
      · rw [if_pos hzero]
        exact .of_error ha _ db
      · rw [if_neg hzero]
        obtain ⟨wallet, db₁, hwallet, hopened⟩ := user_wallet_run db huser ha
        rw [Prog.run_bind, Session.opened, hwallet, Prog.continueWith_ok]
        cases hbalance : added wallet.balance_minor (usd_to_minor credit_usd) with
        | error e => exact .of_error ha e db₁
        | ok balance =>
          cases havailable : added wallet.available_minor (usd_to_minor credit_usd) with
          | error e => exact .of_error ha e db₁
          | ok available =>
            rw [Prog.run_bind, Prog.run_lift_ok, Prog.continueWith_ok, Prog.run_bind,
              Prog.run_lift_ok, Prog.continueWith_ok]
            rw [run_writes]
            split
            · rename_i haccepts
              obtain ⟨events, hevents⟩ := record_purchase_run user credit_usd ⟨db, _⟩
              rw [Prog.run_bind, hevents, Prog.continueWith_ok]
              refine Kept.with_events (Opened.kept hopened huser hbalance havailable haccepts
                ?_ ?_ ?_ ?_) events
              · rfl
              · rfl
              · exact signed_credit rfl rfl (by omega)
              · rfl
            · exact .of_error ha _ db

theorem charge_books {user : UserPreference} {db : Db} (huser : db.users.get user.id = some user)
    (ha : Agrees user.id db) (amount_usd : FloatArg) (entry_type reason : String)
    (metadata : Dict) (usage_event_id : Option Nat) (key : Option String) :
    Kept user.id db (settled ((charge_credit user amount_usd entry_type reason metadata
      usage_event_id key).run (.opened db))) := by
  unfold charge_credit
  cases amount_usd.clamped with
  | error e => exact .of_error ha e db
  | ok charge =>
    rw [Prog.run_bind, Prog.run_lift_ok, Prog.continueWith_ok]
    by_cases hfree : charge ≤ 0
    · rw [if_pos hfree]
      exact (SameBooks.refl _ db).kept ha
    · rw [if_neg hfree, Prog.run_bind, Prog.run_read, Prog.continueWith_ok]
      split
      · exact (SameBooks.refl _ db).kept ha
      · obtain ⟨wallet, db₁, hwallet, hopened⟩ := user_wallet_run db huser ha
        rw [Prog.run_bind, Session.opened, hwallet, Prog.continueWith_ok]
        cases short_of wallet (usd_to_minor charge) with
        | error e => exact .of_error ha e db₁
        | ok short =>
          rw [Prog.run_bind, Prog.run_lift_ok, Prog.continueWith_ok]
          cases short with
          | true => exact hopened.books.kept ha
          | false =>
            rw [if_neg (by decide)]
            cases hbalance : added wallet.balance_minor (-usd_to_minor charge) with
            | error e => exact .of_error ha e db₁
            | ok balance =>
              cases havailable : added wallet.available_minor (-usd_to_minor charge) with
              | error e => exact .of_error ha e db₁
              | ok available =>
                rw [Prog.run_bind, Prog.run_lift_ok, Prog.continueWith_ok, Prog.run_bind,
                  Prog.run_lift_ok, Prog.continueWith_ok, run_writes]
                split
                · rename_i haccepts
                  refine Opened.kept hopened huser hbalance havailable haccepts ?_ ?_ ?_ ?_
                  · rfl
                  · rfl
                  · exact signed_debit rfl rfl (usd_to_minor_nonneg (le_of_not_ge hfree))
                  · rfl
                · exact .of_error ha _ db

/-! ## One call -/

/-- Whether a call of the service gets to its writes. The bot never writes one
sum into both columns. -/
def WalletOp.Writes (user : UserPreference) (db : Db) : WalletOp → Prop
  | .delta amount allow_negative _ => ¬Refused user amount allow_negative db
  | .credit _ _ => True
  | .debit amount _ => user.is_admin ≠ some true ∧ ¬Refused user (-amount.natAbs) false db
  | .topup .. | .charge .. => False

def Overwrites (u : Nat) (db : Db) (op : WalletOp) : Prop :=
  ∃ user, db.users.get u = some user ∧ op.Writes user db

theorem settled_discard {α : Type} (x : Tx α) (s : Session Db) :
    settled ((calls.discard x).run s) = settled (x.run s) := by
  unfold calls.discard
  rw [Prog.run_bind]
  generalize x.run s = y
  obtain ⟨r, t⟩ := y
  cases r <;> rfl

/-- An admin is not debited. -/
theorem debit_books {user : UserPreference} {db : Db} (huser : db.users.get user.id = some user)
    (ha : Agrees user.id db) (amount : Int) (n : Note) {db' : Db}
    (hrun : settled ((image_tool.debit user amount n.entry_type n.reason n.metadata n.commit).run
      (.opened db)) = db') :
    (¬WalletOp.Writes user db (.debit amount n) → Kept user.id db db') ∧
      (WalletOp.Writes user db (.debit amount n) → Overwritten user.id db db') := by
  unfold image_tool.debit at hrun
  by_cases hadmin : user.is_admin = some true
  · refine ⟨fun _ => ?_, fun h => absurd hadmin h.1⟩
    obtain ⟨wallet, db₁, hwallet, hopened⟩ := get_or_create_wallet_run db huser ha
    unfold get_balance_minor at hrun
    rw [if_pos hadmin, Prog.run_bind, Prog.run_bind, Session.opened, hwallet, Prog.continueWith_ok]
      at hrun
    rw [← hrun]
    exact hopened.books.kept ha
  · rw [if_neg hadmin] at hrun
    obtain ⟨hkept, hwritten⟩ := delta_books huser ha _ _ _ _ _ _ hrun
    refine ⟨fun h => hkept ?_, fun h => hwritten h.2⟩
    by_contra hnot
    exact h ⟨hadmin, hnot⟩

theorem call_books {user : UserPreference} {db : Db} (huser : db.users.get user.id = some user)
    (ha : Agrees user.id db) (op : WalletOp) :
    (¬op.Writes user db → Kept user.id db (settled ((op.call user).run (.opened db)))) ∧
      (op.Writes user db → Overwritten user.id db (settled ((op.call user).run (.opened db)))) := by
  cases op with
  | delta amount allow_negative n =>
    rw [WalletOp.call, settled_discard]
    obtain ⟨hkept, hwritten⟩ := delta_books huser ha amount n.entry_type n.reason n.metadata
      allow_negative n.commit rfl
    exact ⟨fun h => hkept (not_not.mp h), hwritten⟩
  | credit amount n =>
    rw [WalletOp.call, settled_discard]
    have hpaid : ¬Refused user amount.natAbs false db := by
      rintro ⟨hneg, -⟩
      omega
    exact ⟨fun h => absurd trivial h,
      fun _ => (delta_books huser ha _ _ _ _ _ _ rfl).2 hpaid⟩
  | debit amount n =>
    rw [WalletOp.call, settled_discard]
    exact debit_books huser ha amount n rfl
  | topup amount key metadata =>
    rw [WalletOp.call, settled_discard]
    exact ⟨fun _ => topup_books huser ha amount key metadata, False.elim⟩
  | charge amount entry_type reason metadata event key =>
    rw [WalletOp.call, settled_discard]
    exact ⟨fun _ => charge_books huser ha amount entry_type reason metadata event key, False.elim⟩

/-- A call keeps the two columns together, or it writes one sum over both. -/
theorem step_books {u : Nat} {db : Db} (ha : Agrees u db) (op : WalletOp) :
    (¬Overwrites u db op → Kept u db (op.step u db)) ∧
      (Overwrites u db op → Overwritten u db (op.step u db)) := by
  unfold WalletOp.step WalletOp.prog
  rw [Prog.run_bind, Prog.run_read, Prog.continueWith_ok, Session.view_opened]
  cases huser : db.users.get u with
  | none =>
    refine ⟨fun _ => (SameBooks.refl u db).kept ha, ?_⟩
    rintro ⟨user, hget, -⟩
    rw [huser] at hget
    cases hget
  | some user =>
    have hid : user.id = u := ((Table.get_eq_some _).mp huser).2
    subst hid
    obtain ⟨hkept, hwritten⟩ := call_books huser ha op
    refine ⟨fun h => hkept fun hw => h ⟨user, huser, hw⟩, ?_⟩
    rintro ⟨other, hget, hw⟩
    rw [huser] at hget
    cases hget
    exact hwritten hw

/-! ## A run -/

/-- What stands in the books has moved by what was posted since. -/
structure Reconciled (u : Nat) (db db' : Db) : Prop where
  posted : available_of u db' - available_of u db = ledger_total u db' - ledger_total u db
  apart : balance_of u db' - available_of u db' = balance_of u db - available_of u db
  agrees : Agrees u db'

/-- After any number of the calls the books are reconciled. -/
def Reconciles (u : Nat) (db : Db) (ops : List WalletOp) : Prop :=
  ∀ done rest, ops = done ++ rest → Reconciled u db (after (WalletOp.step u) db done)

/-- A call that overwrites finds nothing owed and nothing held. -/
def Fit (u : Nat) (db : Db) (op : WalletOp) : Prop :=
  Overwrites u db op → 0 ≤ available_of u db ∧ balance_of u db = available_of u db

theorem Reconciled.step {u : Nat} {db₀ db : Db} {op : WalletOp} (h : Reconciled u db₀ db)
    (hfit : Fit u db op) : Reconciled u db₀ (op.step u db) := by
  obtain ⟨hkept, hwritten⟩ := step_books h.agrees op
  have hposted := h.posted
  have hapart := h.apart
  by_cases hover : Overwrites u db op
  · obtain ⟨amount, havailable, hbalance, htotal, hagrees⟩ := hwritten hover
    obtain ⟨hnonneg, hsame⟩ := hfit hover
    exact ⟨by omega, by omega, hagrees⟩
  · obtain ⟨amount, havailable, hbalance, htotal, hagrees⟩ := hkept hover
    exact ⟨by omega, by omega, hagrees⟩

/-- Books that are reconciled before and after a call tell what it found. -/
theorem Reconciled.fit {u : Nat} {db₀ db : Db} {op : WalletOp} (h : Reconciled u db₀ db)
    (h' : Reconciled u db₀ (op.step u db)) : Fit u db op := by
  intro hover
  obtain ⟨amount, havailable, hbalance, htotal, -⟩ := (step_books h.agrees op).2 hover
  have hposted := h.posted
  have hposted' := h'.posted
  have hapart := h.apart
  have hapart' := h'.apart
  omega

/-- LAW: A run of the service and of the bot over the wallet of a user
reconciles exactly when the row of the user agrees with the wallet at the
start, and each call of the service that writes finds an available amount that
is not negative and equal to the balance. -/
theorem the_wallet_reconciles_iff_overwrites_are_fit (u : Nat) (db : Db) (ops : List WalletOp) :
    Reconciles u db ops ↔ Agrees u db ∧ Each (WalletOp.step u) (Fit u) db ops := by
  constructor
  · intro h
    refine ⟨(h [] ops rfl).agrees, each_iff.mpr fun done op rest hops => ?_⟩
    have hnow := h done (op :: rest) hops
    have hnext := h (done ++ [op]) rest (by rw [hops, List.append_assoc]; rfl)
    rw [after_append] at hnext
    exact hnow.fit hnext
  · rintro ⟨hagrees, heach⟩ done rest rfl
    exact (each_append.mp heach).1.keeps (fun _ _ hw hfit => hw.step hfit) ⟨by omega, rfl, hagrees⟩

/-! ## Calls that overwrite -/

/-- A customer with the wallet, whose row agrees with it. -/
def with_wallet (balance available held : Int) : Db :=
  { shop with
    users := Table.empty.insert
      { customer with credit_balance_usd := some (minor_to_usd available) }
    wallets := Table.empty.insert
      { user_id := 1, balance_minor := some balance, available_minor := some available
        held_minor := some held } }

def ten_more : WalletOp := .credit 10 ⟨"bonus", none, [], true⟩

/-- A credit forgives what is owed, and takes what is held out of the balance. -/
theorem a_credit_overwrites_the_wallet :
    (Agrees 1 (with_wallet (-5) (-5) 0) ∧ ¬Reconciles 1 (with_wallet (-5) (-5) 0) [ten_more]) ∧
    (Agrees 1 (with_wallet 15 10 5) ∧ ¬Reconciles 1 (with_wallet 15 10 5) [ten_more]) := by
  refine ⟨⟨.inr (by decide +kernel), fun h => ?_⟩, ⟨.inr (by decide +kernel), fun h => ?_⟩⟩
  · have hposted := (h [ten_more] [] rfl).posted
    revert hposted
    decide +kernel
  · have hapart := (h [ten_more] [] rfl).apart
    revert hapart
    decide +kernel

end dr_boz.wallet_runs
