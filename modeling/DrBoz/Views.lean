-- What a session sees of the account database: the rows that the services
-- look up, and the database after a row was put in its place or added.
import DrBoz.TomanBilling

open keyed_table unit_of_work dr_boz.py dr_boz.models dr_boz.codex_capacity dr_boz.toman_billing

namespace dr_boz.views

@[simp] theorem store_apply (db : Db) (c : Change) : Store.apply db c = db.apply c := rfl

@[simp] theorem store_admits (db : Db) (c : Change) : Store.admits db c = db.admits c := rfl

@[simp] theorem store_conflict : (Store.conflict Db : PyError) = .integrity_error := rfl

/-! ## Lookups -/

/-- The account row of a user, or the row that a call adds for the user. -/
def accountRow (db : Db) (u : Nat) : UserBillingAccount :=
  (db.accounts.first fun a => a.user_id = u).getD { id := db.accounts.nextKey, user_id := u }

def configRow (db : Db) : SubscriptionConfig :=
  (db.configs.first fun _ => true).getD { defaultConfig with id := db.configs.nextKey }

/-- The ledger entry that stands for a call with this key. -/
def ledgerRow (db : Db) (k : Option String) : Option TomanLedgerEntry :=
  if truthyKey k then db.ledger.first fun e => e.idempotency_key = k else none

/-- The first active subscription of a user. -/
def activeRow (now : Datetime) (db : Db) (u : Nat) : Option UserSubscription :=
  db.subscriptions.first fun r => r.user_id = u && active_at now r

/-! ## The database after a change -/

def withAccount (db : Db) (u : Nat) : Db :=
  { db with accounts :=
      match db.accounts.first fun a => a.user_id = u with
      | some _ => db.accounts
      | none => db.accounts.insert { user_id := u } }

def withConfig (db : Db) : Db :=
  { db with configs :=
      match db.configs.first fun _ => true with
      | some _ => db.configs
      | none => db.configs.insert defaultConfig }

def putAccount (db : Db) (a : UserBillingAccount) : Db := { db with accounts := db.accounts.put a }

def putSubscription (db : Db) (u : UserSubscription) : Db :=
  { db with subscriptions := db.subscriptions.put u }

def putPool (db : Db) (p : CapacityPool) : Db := { db with pools := db.pools.put p }

def addLedger (db : Db) (e : TomanLedgerEntry) : Db := { db with ledger := db.ledger.insert e }

/-- An account row and its ledger entries, as one flush sends them. -/
def post (db : Db) (a : UserBillingAccount) (es : List TomanLedgerEntry) : Db :=
  es.foldl addLedger (putAccount db a)

theorem foldl_addLedger (db : Db) (es : List TomanLedgerEntry) :
    es.foldl addLedger db = { db with ledger := es.foldl (fun t e => t.insert e) db.ledger } := by
  induction es generalizing db with
  | nil => rfl
  | cons e es ih => rw [List.foldl_cons, ih]; rfl

theorem post_eq (db : Db) (a : UserBillingAccount) (es : List TomanLedgerEntry) :
    post db a es = { db with accounts := db.accounts.put a,
                             ledger := es.foldl (fun t e => t.insert e) db.ledger } :=
  foldl_addLedger _ _

section
variable (db : Db) (u : Nat) (a : UserBillingAccount) (v : UserSubscription)

@[simp] theorem withAccount_ledger : (withAccount db u).ledger = db.ledger := rfl
@[simp] theorem withAccount_subscriptions :
    (withAccount db u).subscriptions = db.subscriptions := rfl
@[simp] theorem withAccount_plans : (withAccount db u).plans = db.plans := rfl
@[simp] theorem withAccount_pools : (withAccount db u).pools = db.pools := rfl
@[simp] theorem withAccount_configs : (withAccount db u).configs = db.configs := rfl
@[simp] theorem withConfig_accounts : (withConfig db).accounts = db.accounts := rfl
@[simp] theorem withConfig_ledger : (withConfig db).ledger = db.ledger := rfl
@[simp] theorem withConfig_subscriptions : (withConfig db).subscriptions = db.subscriptions := rfl
@[simp] theorem withConfig_plans : (withConfig db).plans = db.plans := rfl
@[simp] theorem withConfig_pools : (withConfig db).pools = db.pools := rfl
@[simp] theorem addLedger_ledger (e : TomanLedgerEntry) :
    (addLedger db e).ledger = db.ledger.insert e := rfl
@[simp] theorem putAccount_ledger : (putAccount db a).ledger = db.ledger := rfl
@[simp] theorem putSubscription_accounts : (putSubscription db v).accounts = db.accounts := rfl
@[simp] theorem putSubscription_ledger : (putSubscription db v).ledger = db.ledger := rfl
@[simp] theorem putSubscription_plans : (putSubscription db v).plans = db.plans := rfl
@[simp] theorem putSubscription_pools : (putSubscription db v).pools = db.pools := rfl
@[simp] theorem putSubscription_configs : (putSubscription db v).configs = db.configs := rfl

@[simp] theorem configRow_withAccount : configRow (withAccount db u) = configRow db := rfl
@[simp] theorem ledgerRow_withAccount (k : Option String) :
    ledgerRow (withAccount db u) k = ledgerRow db k := rfl
@[simp] theorem activeRow_withAccount (now : Datetime) (w : Nat) :
    activeRow now (withAccount db u) w = activeRow now db w := rfl
@[simp] theorem activeRow_withConfig (now : Datetime) (w : Nat) :
    activeRow now (withConfig db) w = activeRow now db w := rfl
@[simp] theorem accountRow_withConfig : accountRow (withConfig db) u = accountRow db u := rfl

end

/-! ## The account row -/

theorem accepts_account {db : Db} {u : Nat}
    (h : (db.accounts.first fun a => a.user_id = u) = none) :
    db.accounts.Accepts { user_id := u } := by
  intro v hv r hr hu
  cases hv
  have hn := Table.first_eq_none.mp h r hr
  cases hu
  simp at hn

/-- The account row stands in the database once the call has looked for it. -/
theorem first_withAccount (db : Db) (u : Nat) :
    ((withAccount db u).accounts.first fun a => a.user_id = u) = some (accountRow db u) := by
  unfold withAccount accountRow
  cases h : db.accounts.first fun a => a.user_id = u with
  | some a => simpa using h
  | none => exact Table.first_insert_none (accepts_account h) h (by simp [Row.setKey])

theorem accountRow_user (db : Db) (u : Nat) : (accountRow db u).user_id = u := by
  simpa using (Table.first_mem (first_withAccount db u)).2

theorem get_accountRow (db : Db) (u : Nat) :
    (withAccount db u).accounts.get (accountRow db u).id = some (accountRow db u) :=
  (Table.get_eq_some _).mpr ⟨(Table.first_mem (first_withAccount db u)).1, rfl⟩

theorem accountRow_eq {db : Db} {u : Nat} {a : UserBillingAccount}
    (h : (db.accounts.first fun a => a.user_id = u) = some a) : accountRow db u = a := by
  unfold accountRow; rw [h]; rfl

theorem withAccount_eq {db : Db} {u : Nat} {a : UserBillingAccount}
    (h : (db.accounts.first fun a => a.user_id = u) = some a) : withAccount db u = db := by
  unfold withAccount; rw [h]

theorem withAccount_withAccount (db : Db) (u : Nat) :
    withAccount (withAccount db u) u = withAccount db u := withAccount_eq (first_withAccount db u)

theorem accountRow_withAccount (db : Db) (u : Nat) :
    accountRow (withAccount db u) u = accountRow db u := accountRow_eq (first_withAccount db u)

/-! ## The config row -/

theorem first_withConfig (db : Db) :
    ((withConfig db).configs.first fun _ => true) = some (configRow db) := by
  unfold withConfig configRow
  cases h : db.configs.first fun _ => true with
  | some a => simpa using h
  | none => exact Table.first_insert_none (Table.accepts_of_no_unique rfl) h rfl

theorem configRow_eq {db : Db} {c : SubscriptionConfig}
    (h : (db.configs.first fun _ => true) = some c) : configRow db = c := by
  unfold configRow; rw [h]; rfl

theorem withConfig_eq {db : Db} {c : SubscriptionConfig}
    (h : (db.configs.first fun _ => true) = some c) : withConfig db = db := by
  unfold withConfig; rw [h]

theorem configRow_withConfig (db : Db) : configRow (withConfig db) = configRow db :=
  configRow_eq (first_withConfig db)

/-! ## Calls that only look -/

/-- A call that looks for the user's account and for the config leaves these
parts of the database as they were. -/
structure Looked (u : Nat) (db db' : Db) : Prop where
  account : accountRow db' u = accountRow db u
  config : configRow db' = configRow db
  ledger : db'.ledger = db.ledger
  subscriptions : db'.subscriptions = db.subscriptions
  pools : db'.pools = db.pools
  plans : db'.plans = db.plans

namespace Looked
variable {u : Nat} {db db' db'' : Db}

theorem refl (u : Nat) (db : Db) : Looked u db db := ⟨rfl, rfl, rfl, rfl, rfl, rfl⟩

theorem trans (h : Looked u db db') (h' : Looked u db' db'') : Looked u db db'' where
  account := h'.account.trans h.account
  config := h'.config.trans h.config
  ledger := h'.ledger.trans h.ledger
  subscriptions := h'.subscriptions.trans h.subscriptions
  pools := h'.pools.trans h.pools
  plans := h'.plans.trans h.plans

theorem activeRow (h : Looked u db db') (now : Datetime) (w : Nat) :
    views.activeRow now db' w = views.activeRow now db w := by
  unfold views.activeRow
  rw [h.subscriptions]

theorem ledgerRow (h : Looked u db db') (k : Option String) :
    views.ledgerRow db' k = views.ledgerRow db k := by
  unfold views.ledgerRow
  rw [h.ledger]

end Looked

theorem looked_account (u : Nat) (db : Db) : Looked u db (withAccount db u) :=
  ⟨accountRow_withAccount db u, rfl, rfl, rfl, rfl, rfl⟩

theorem looked_config (u : Nat) (db : Db) : Looked u db (withConfig db) :=
  ⟨rfl, configRow_withConfig db, rfl, rfl, rfl, rfl⟩

/-! ## Flushes of a row that the session has read -/

theorem col_self {α : Type} [DecidableEq α] (o n : α) : col o n o = n := by
  unfold col
  split
  · rename_i h; exact h.symm
  · rfl

/-- The account `b` is a new value of the row `a`. -/
def SameOwner (b a : UserBillingAccount) : Prop :=
  b.id = a.id ∧ b.user_id = a.user_id ∧ b.currency = a.currency

theorem apply_setAccount {db : Db} {a b : UserBillingAccount} (h : db.accounts.get a.id = some a)
    (hb : SameOwner b a) : db.apply (.setAccount a b) = putAccount db b := by
  obtain ⟨h1, h2, h3⟩ := hb
  have hm : UserBillingAccount.merge a b a = b := by
    unfold UserBillingAccount.merge
    simp only [col_self, ← h1, ← h2, ← h3]
  exact congrArg (fun t => { db with accounts := t }) (Table.update_eq_put _ _ (h1 ▸ h) hm)

theorem apply_setSubscription {db : Db} {a b : UserSubscription}
    (h : db.subscriptions.get a.id = some a)
    (hb : b.id = a.id ∧ b.user_id = a.user_id ∧ b.plan_id = a.plan_id ∧
      b.purchased_at = a.purchased_at) :
    db.apply (.setSubscription a b) = putSubscription db b := by
  obtain ⟨h1, h2, h3, h4⟩ := hb
  have hm : UserSubscription.merge a b a = b := by
    unfold UserSubscription.merge
    simp only [col_self, ← h1, ← h2, ← h3, ← h4]
  exact congrArg (fun t => { db with subscriptions := t }) (Table.update_eq_put _ _ (h1 ▸ h) hm)

theorem apply_setPool {db : Db} {a b : CapacityPool} (h : db.pools.get a.id = some a)
    (hb : b.id = a.id ∧ b.max_users = a.max_users ∧ b.status = a.status) :
    db.apply (.setPool a b) = putPool db b := by
  obtain ⟨h1, h2, h3⟩ := hb
  have hm : CapacityPool.merge a b a = b := by
    unfold CapacityPool.merge
    simp only [col_self, ← h1, ← h2, ← h3]
  exact congrArg (fun t => { db with pools := t }) (Table.update_eq_put _ _ (h1 ▸ h) hm)

end dr_boz.views
