-- Law of the precheck of a group (`group_billing_service.py`): the cost of an
-- answer is split among the members that opted in, and each of them must be
-- able to pay its share before anything is charged.
import DrBoz.ImageTool
import Mathlib.Data.List.Dedup
import Mathlib.Data.List.Sort
import Mathlib.Algebra.BigOperators.Group.List.Basic

open keyed_table unit_of_work dr_boz.py dr_boz.models dr_boz.codex_capacity dr_boz.promo_codes
open dr_boz.image_tool (usd_balance new_wallet accepts_new_wallet usd_to_minor_error)

namespace dr_boz.group_precheck

/-! ## The tables -/

structure TelegramGroup where
  id : Nat := 0
  status : Option String := some "active"
  min_active_members : Option Int := some 2
deriving DecidableEq

instance : Row TelegramGroup Empty :=
  ⟨(·.id), fun a n => { a with id := n }, fun _ => none, fun _ _ => rfl, fun _ _ => rfl⟩

/-- A membership. The database counts the ids of users from 1. -/
structure TelegramGroupMember where
  id : Nat := 0
  group_id : Nat
  user_id : Nat
  user_pos : 0 < user_id
  telegram_user_id : Option Int := none
  status : Option String := some "active"
  shared_billing_enabled : Option Bool := some false
deriving DecidableEq

instance : Row TelegramGroupMember Empty :=
  ⟨(·.id), fun a n => { a with id := n }, fun _ => none, fun _ _ => rfl, fun _ _ => rfl⟩

/-- The tables of the groups. The precheck only reads them. -/
structure Groups where
  groups : Table TelegramGroup
  members : Table TelegramGroupMember

/-! ## The split -/

/-- Shares by user id. -/
abbrev Shares := List (Nat × Int)

/-- `shares.get(user_id, 0)` -/
def Shares.get (shares : Shares) (user_id : Nat) : Int := (shares.lookup user_id).getD 0

/-- `sorted({uid for uid in user_ids if uid > 0})` -/
def ordered_ids (user_ids : List Nat) : List Nat :=
  (user_ids.filter (0 < ·)).dedup.insertionSort (· ≤ ·)

def split_cost_minor_with_remainder_rule (total_cost_minor : Int) (user_ids : List Nat)
    (remainder_user_id : Option Nat) : Shares :=
  match ordered_ids user_ids with
  | [] => []
  | first :: others =>
    let ids := first :: others
    let total := max 0 total_cost_minor
    let base_share := total / ids.length
    let remainder := total % ids.length
    let anchor_user_id := (remainder_user_id.filter (ids.contains ·)).getD first
    ids.map fun uid => (uid, if uid = anchor_user_id then base_share + remainder else base_share)

/-! ## The precheck -/

structure BillingPrecheckMember where
  user_id : Nat
  telegram_user_id : Option Int
  required_share_minor : Int
  balance_minor : Int
  has_credit : Bool
  is_admin : Bool := false
deriving DecidableEq

structure BillingPrecheckResult where
  ok : Bool
  reason : Option String
  estimated_cost_minor : Int
  split_member_count : Nat
  shares_minor : Shares
  members : List BillingPrecheckMember
deriving DecidableEq

def has_credit (user : UserPreference) (amount_minor : Int) : Tx Bool :=
  if user.is_admin = some true then return true
  else if amount_minor ≤ 0 then return true
  else do
    let balance ← get_balance_minor user
    return amount_minor ≤ balance

/-- The members of the group that take part. -/
def opted_in (group_id : Nat) (m : TelegramGroupMember) : Bool :=
  m.group_id = group_id && m.status = some "active" && m.shared_billing_enabled = some true

/-- By user, and then by membership. -/
def ComesFirst (a b : TelegramGroupMember) : Prop :=
  a.user_id < b.user_id ∨ a.user_id = b.user_id ∧ a.id ≤ b.id

instance : DecidableRel ComesFirst := fun _ _ => inferInstanceAs (Decidable (_ ∨ _))

def list_active_billing_members (g : Groups) (group_id : Nat) : List TelegramGroupMember :=
  (g.members.rows.filter (opted_in group_id)).insertionSort ComesFirst

/-- The state of one member. -/
def member_state (shares : Shares) (member : TelegramGroupMember) : Tx BillingPrecheckMember := do
  let required_share := shares.get member.user_id
  let user ← Prog.read fun db => db.users.get member.user_id
  match user with
  | none =>
    return { user_id := member.user_id, telegram_user_id := member.telegram_user_id,
             required_share_minor := required_share, balance_minor := 0, has_credit := false }
  | some user =>
    let balance_minor ← get_balance_minor user
    let can_pay ← has_credit user required_share
    return { user_id := user.id, telegram_user_id := user.telegram_user_id,
             required_share_minor := required_share, balance_minor, has_credit := can_pay,
             is_admin := user.is_admin = some true }

def member_states (shares : Shares) : List TelegramGroupMember → Tx (List BillingPrecheckMember)
  | [] => return []
  | member :: members => do
    let state ← member_state shares member
    let states ← member_states shares members
    return state :: states

def refused (reason : String) (cost : Int) (count : Nat) : BillingPrecheckResult :=
  ⟨false, some reason, max 0 cost, count, [], []⟩

def estimate_split_and_strict_precheck (g : Groups) (group_id : Nat) (estimated_cost_minor : Int)
    (remainder_user_id : Option Nat) : Tx BillingPrecheckResult :=
  match g.groups.get group_id with
  | none => return refused "group_not_found" estimated_cost_minor 0
  | some group =>
    if (group.status.getD "").toLower ≠ "active" then
      return refused "group_inactive" estimated_cost_minor 0
    else
      let members := list_active_billing_members g group_id
      let min_active_members := max 1 (orDefault group.min_active_members 1)
      if members.length < min_active_members then
        return refused "not_enough_active_members" estimated_cost_minor members.length
      else do
        let shares := split_cost_minor_with_remainder_rule estimated_cost_minor
          (members.map (·.user_id)) remainder_user_id
        let states ← member_states shares members
        let all_ok := states.all (·.has_credit)
        return { ok := all_ok
                 reason := if all_ok then none else some "insufficient_credit_member"
                 estimated_cost_minor := max 0 estimated_cost_minor
                 split_member_count := members.length
                 shares_minor := shares
                 members := states }

/-! ## What a split is -/

theorem mem_ordered_ids {user_ids : List Nat} {uid : Nat} :
    uid ∈ ordered_ids user_ids ↔ uid ∈ user_ids ∧ 0 < uid := by
  simp [ordered_ids, List.mem_dedup]

theorem ordered_ids_nodup (user_ids : List Nat) : (ordered_ids user_ids).Nodup :=
  (List.perm_insertionSort _ _).nodup_iff.mpr (List.nodup_dedup _)

/-- Equal shares, and one of them with the remainder. -/
structure Split (total : Int) (ids : List Nat) (shares : Shares) : Prop where
  covers : shares.map Prod.fst = ids
  fair : ∃ anchor, ∀ p ∈ shares,
    p.2 = total / ids.length + if p.1 = anchor then total % ids.length else 0
  sum : ids ≠ [] → (shares.map Prod.snd).sum = total

/-- The sum of equal numbers, one of which has something more. -/
theorem sum_with_extra {ids : List Nat} (hids : ids.Nodup) {anchor : Nat} (base extra : Int) :
    (ids.map fun uid => if uid = anchor then base + extra else base).sum =
      ids.length * base + if anchor ∈ ids then extra else 0 := by
  induction ids with
  | nil => simp
  | cons uid ids ih =>
    obtain ⟨hnew, hrest⟩ := List.nodup_cons.mp hids
    rw [List.map_cons, List.sum_cons, ih hrest, List.length_cons]
    by_cases huid : uid = anchor
    · subst huid
      simp only [if_neg hnew, List.mem_cons_self]
      push_cast
      ring
    · simp only [if_neg huid, List.mem_cons, Ne.symm huid, false_or]
      push_cast
      ring

theorem split_is_split (cost : Int) (user_ids : List Nat) (remainder_user_id : Option Nat) :
    Split (max 0 cost) (ordered_ids user_ids)
      (split_cost_minor_with_remainder_rule cost user_ids remainder_user_id) := by
  have hnodup := ordered_ids_nodup user_ids
  unfold split_cost_minor_with_remainder_rule
  split
  · rename_i hempty
    rw [hempty]
    exact ⟨rfl, ⟨0, fun p hp => by cases hp⟩, fun h => absurd rfl h⟩
  · rename_i first others hids
    rw [hids] at hnodup ⊢
    simp only
    generalize hanchor : (remainder_user_id.filter ((first :: others).contains ·)).getD first =
      anchor
    have hmem : anchor ∈ first :: others := by
      rw [← hanchor]
      cases hfilter : remainder_user_id.filter ((first :: others).contains ·) with
      | none => exact List.mem_cons_self
      | some uid =>
        have hcontains := (Option.filter_eq_some_iff.mp hfilter).2
        simpa using hcontains
    refine ⟨?_, ⟨anchor, ?_⟩, fun _ => ?_⟩
    · rw [List.map_map]
      exact List.map_id _
    · intro p hp
      obtain ⟨uid, -, rfl⟩ := List.mem_map.mp hp
      by_cases huid : uid = anchor
      · simp only [if_pos huid]
      · simp only [if_neg huid, add_zero]
    · rw [List.map_map]
      refine (sum_with_extra hnodup _ _).trans ?_
      rw [if_pos hmem]
      exact Int.mul_ediv_add_emod (max 0 cost) _

/-! ## What the precheck finds -/

/-- The users are the same, and their balances. -/
structure Kept (before after : Db) : Prop where
  users : after.users = before.users
  balances : ∀ uid, usd_balance uid after = usd_balance uid before

/-- In every session that has the users and balances of `db`, the program gives `a` and
leaves them, or it raises. -/
def Finds {α : Type} (db : Db) (x : Tx α) (a : α) : Prop :=
  ∀ s : Session Db, Kept db s.view →
    (∃ s', x.run s = (.ok a, s') ∧ Kept db s'.view) ∨ ∃ e s', x.run s = (.error e, s')

section
variable {α β : Type} {db : Db} {shares : Shares}

theorem finds_pure (a : α) : Finds db (pure a) a := fun s hs => .inl ⟨s, rfl, hs⟩

theorem Finds.bind {x : Tx α} {f : α → Tx β} {a : α} {b : β} (hx : Finds db x a)
    (hf : Finds db (f a) b) : Finds db (x >>= f) b := by
  intro s hs
  rw [Prog.run_bind]
  rcases hx s hs with ⟨s', hrun, hkept⟩ | ⟨e, s', hrun⟩
  · rw [hrun, Prog.continueWith_ok]
    exact hf s' hkept
  · rw [hrun, Prog.continueWith_error]
    exact .inr ⟨e, s', rfl⟩

theorem finds_user (uid : Nat) :
    Finds db (Prog.read fun db => db.users.get uid) (db.users.get uid) := by
  intro s hs
  rw [Prog.run_read, hs.users]
  exact .inl ⟨s, rfl, hs⟩

theorem usd_balance_congr {db db' : Db} {uid : Nat} (hwallets : db'.wallets.first
    (fun w => w.user_id = uid) = db.wallets.first fun w => w.user_id = uid)
    (husers : db'.users.get uid = db.users.get uid) : usd_balance uid db' = usd_balance uid db := by
  unfold usd_balance
  rw [hwallets, husers]

theorem usd_balance_of_wallet {db : Db} {uid : Nat} {wallet : Wallet}
    (hwallet : db.wallets.first (fun w => w.user_id = uid) = some wallet) :
    usd_balance uid db = max 0 (intOr0 wallet.available_minor) := by
  unfold usd_balance
  rw [hwallet]

/-- A new wallet has the balance that its user had without one. -/
theorem kept_new_wallet {before : Db} {user : UserPreference} {minor : Int}
    (huser : before.users.get user.id = some user)
    (hfirst : before.wallets.first (fun w => w.user_id = user.id) = none)
    (hminor : usd_to_minor (user.credit_balance_usd.getD 0) = .ok minor) :
    Kept before (Store.apply before (Change.addWallet (new_wallet user.id minor))) := by
  refine ⟨rfl, fun uid => ?_⟩
  rcases Table.first_insert_cases before.wallets (new_wallet user.id minor)
    fun w => w.user_id = uid with hsame | ⟨-, hmine, hnew⟩
  · exact usd_balance_congr hsame rfl
  · have hid : user.id = uid := of_decide_eq_true hmine
    subst hid
    refine (usd_balance_of_wallet hnew).trans ?_
    simp only [usd_balance, hfirst, huser, hminor]
    rfl

theorem finds_balance {user : UserPreference} (huser : db.users.get user.id = some user) :
    Finds db (get_balance_minor user) (usd_balance user.id db) := by
  intro s hs
  have huser' : s.view.users.get user.id = some user := by rw [hs.users, huser]
  rw [← hs.balances user.id]
  unfold get_balance_minor get_or_create_wallet
  simp only [Prog.run_bind, Prog.run_read, Prog.continueWith_ok]
  cases hfirst : s.view.wallets.first fun w => w.user_id = user.id with
  | some wallet =>
    left
    refine ⟨s, ?_, hs⟩
    simp only [Prog.run_pure, Prog.continueWith_ok, usd_balance, hfirst]
  | none =>
    simp only [Prog.run_bind]
    cases hminor : usd_to_minor (user.credit_balance_usd.getD 0) with
    | error e => exact .inr ⟨e, s, rfl⟩
    | ok minor =>
      left
      have hkept := kept_new_wallet huser' hfirst hminor
      have hadmits : Store.admits s.view (Change.addWallet (new_wallet user.id minor)) = true :=
        decide_eq_true (accepts_new_wallet hfirst minor)
      refine ⟨⟨s.stored, Store.apply s.view (.addWallet (new_wallet user.id minor))⟩, ?_,
        hkept.users.trans hs.users, fun uid => (hkept.balances uid).trans (hs.balances uid)⟩
      have hvalue : usd_balance user.id s.view = max 0 minor := by
        simp only [usd_balance, hfirst, huser', hminor]
      rw [hvalue]
      simp only [Prog.run_lift_ok, Prog.continueWith_ok, Prog.run_bind, Prog.run_read,
        Prog.run_flush]
      split
      · rfl
      · rename_i hrefused
        exact absurd hadmits hrefused

/-- The user can pay the amount. -/
def can_pay (db : Db) (user : UserPreference) (amount_minor : Int) : Bool :=
  user.is_admin = some true || amount_minor ≤ usd_balance user.id db

theorem usd_balance_nonneg (uid : Nat) (db : Db) : 0 ≤ usd_balance uid db := by
  unfold usd_balance
  split
  · exact le_max_left 0 _
  · split
    · exact le_refl 0
    · split
      · exact le_max_left 0 _
      · exact le_refl 0

theorem finds_has_credit {user : UserPreference} (huser : db.users.get user.id = some user)
    (amount_minor : Int) :
    Finds db (has_credit user amount_minor) (can_pay db user amount_minor) := by
  unfold has_credit can_pay
  split
  · rename_i hadmin
    rw [hadmin]
    exact finds_pure true
  · rename_i hadmin
    have hbalance := usd_balance_nonneg user.id db
    split
    · rename_i hzero
      rw [decide_eq_true (show amount_minor ≤ usd_balance user.id db by omega), Bool.or_true]
      exact finds_pure true
    · rw [decide_eq_false hadmin, Bool.false_or]
      exact (finds_balance huser).bind (finds_pure _)

/-- The state of a member, by the users and balances of `db`. -/
def state_of (db : Db) (shares : Shares) (member : TelegramGroupMember) :
    BillingPrecheckMember :=
  let required_share := shares.get member.user_id
  match db.users.get member.user_id with
  | none => ⟨member.user_id, member.telegram_user_id, required_share, 0, false, false⟩
  | some user => ⟨user.id, user.telegram_user_id, required_share, usd_balance user.id db,
      can_pay db user required_share, user.is_admin = some true⟩

theorem finds_member_state (member : TelegramGroupMember) :
    Finds db (member_state shares member) (state_of db shares member) := by
  unfold member_state state_of
  refine (finds_user member.user_id).bind ?_
  cases huser : db.users.get member.user_id with
  | none => exact finds_pure _
  | some user =>
    obtain ⟨hmem, hid⟩ := db.users.get_eq_some.mp huser
    have hself : db.users.get user.id = some user := db.users.get_eq_some.mpr ⟨hmem, rfl⟩
    exact (finds_balance hself).bind ((finds_has_credit hself _).bind (finds_pure _))

theorem finds_member_states (members : List TelegramGroupMember) :
    Finds db (member_states shares members) (members.map (state_of db shares)) := by
  induction members with
  | nil => exact finds_pure []
  | cons member members ih => exact (finds_member_state member).bind (ih.bind (finds_pure _))

/-- The result for members that are enough. -/
def settled (db : Db) (cost : Int) (remainder_user_id : Option Nat)
    (members : List TelegramGroupMember) : BillingPrecheckResult :=
  let shares := split_cost_minor_with_remainder_rule cost (members.map (·.user_id))
    remainder_user_id
  let states := members.map (state_of db shares)
  let all_ok := states.all (·.has_credit)
  ⟨all_ok, if all_ok then none else some "insufficient_credit_member", max 0 cost,
    members.length, shares, states⟩

/-- The precheck, by the users and balances of `db`. -/
def found (db : Db) (g : Groups) (group_id : Nat) (cost : Int) (remainder_user_id : Option Nat) :
    BillingPrecheckResult :=
  match g.groups.get group_id with
  | none => refused "group_not_found" cost 0
  | some group =>
    if (group.status.getD "").toLower ≠ "active" then refused "group_inactive" cost 0
    else
      let members := list_active_billing_members g group_id
      if members.length < max 1 (orDefault group.min_active_members 1) then
        refused "not_enough_active_members" cost members.length
      else settled db cost remainder_user_id members

theorem finds_precheck (g : Groups) (group_id : Nat) (cost : Int)
    (remainder_user_id : Option Nat) :
    Finds db (estimate_split_and_strict_precheck g group_id cost remainder_user_id)
      (found db g group_id cost remainder_user_id) := by
  unfold estimate_split_and_strict_precheck found
  cases g.groups.get group_id with
  | none => exact finds_pure _
  | some group =>
    simp only
    split
    · exact finds_pure _
    · split
      · exact finds_pure _
      · exact (finds_member_states _).bind (finds_pure _)

end

/-- What a run of the precheck gives depends only on what it finds at the start. -/
theorem precheck_found {g : Groups} {group_id : Nat} {cost : Int} {remainder_user_id : Option Nat}
    {s s' : Session Db} {r : BillingPrecheckResult}
    (h : (estimate_split_and_strict_precheck g group_id cost remainder_user_id).run s =
      (.ok r, s')) : r = found s.view g group_id cost remainder_user_id := by
  have hstart : Kept s.view s.view := ⟨rfl, fun _ => rfl⟩
  rcases finds_precheck g group_id cost remainder_user_id s hstart with
    ⟨t, hrun, -⟩ | ⟨e, t, hrun⟩
  · rw [hrun] at h
    cases h
    rfl
  · rw [hrun] at h
    cases h

/-! ## The law -/

/-- The user has an active membership in the group and opted in. -/
def TakesPart (g : Groups) (group_id uid : Nat) : Prop :=
  ∃ m ∈ g.members.rows, opted_in group_id m = true ∧ m.user_id = uid

/-- Every user that takes part, and nobody else, can pay its share. -/
structure Charged (db : Db) (g : Groups) (group_id : Nat) (total : Int) (shares : Shares) :
    Prop where
  once : (shares.map Prod.fst).Nodup
  covers : ∀ uid, uid ∈ shares.map Prod.fst ↔ TakesPart g group_id uid
  nonneg : ∀ p ∈ shares, 0 ≤ p.2
  sum : (shares.map Prod.snd).sum = total
  remainder : ∃ anchor, ∀ p ∈ shares,
    p.2 = total / shares.length + if p.1 = anchor then total % shares.length else 0
  paid : ∀ p ∈ shares, ∃ user, db.users.get p.1 = some user ∧
    (user.is_admin = some true ∨ p.2 ≤ usd_balance p.1 db)

/-- What is wrong with the group, by the reason that the precheck gives. -/
inductive Failure (db : Db) (g : Groups) (group_id : Nat) (shares : Shares) : String → Prop
  | group_not_found : g.groups.get group_id = none → Failure db g group_id shares "group_not_found"
  | group_inactive (group : TelegramGroup) : g.groups.get group_id = some group →
      (group.status.getD "").toLower ≠ "active" → Failure db g group_id shares "group_inactive"
  | not_enough_active_members (group : TelegramGroup) : g.groups.get group_id = some group →
      (g.members.rows.countP (opted_in group_id) : Int) <
        max 1 (orDefault group.min_active_members 1) →
      Failure db g group_id shares "not_enough_active_members"
  | no_user (uid : Nat) : TakesPart g group_id uid → db.users.get uid = none →
      Failure db g group_id shares "insufficient_credit_member"
  | no_credit (uid : Nat) (user : UserPreference) : TakesPart g group_id uid →
      db.users.get uid = some user → user.is_admin ≠ some true →
      usd_balance uid db < shares.get uid →
      Failure db g group_id shares "insufficient_credit_member"

theorem mem_members {g : Groups} {group_id : Nat} {m : TelegramGroupMember} :
    m ∈ list_active_billing_members g group_id ↔ m ∈ g.members.rows ∧ opted_in group_id m := by
  rw [list_active_billing_members, List.mem_insertionSort, List.mem_filter]

theorem mem_member_ids {g : Groups} {group_id uid : Nat} :
    uid ∈ ordered_ids ((list_active_billing_members g group_id).map (·.user_id)) ↔
      TakesPart g group_id uid := by
  rw [mem_ordered_ids, List.mem_map]
  constructor
  · rintro ⟨⟨m, hm, rfl⟩, -⟩
    exact ⟨m, (mem_members.mp hm).1, (mem_members.mp hm).2, rfl⟩
  · rintro ⟨m, hm, hin, rfl⟩
    exact ⟨⟨m, mem_members.mpr ⟨hm, hin⟩, rfl⟩, m.user_pos⟩

theorem length_members (g : Groups) (group_id : Nat) :
    (list_active_billing_members g group_id).length =
      g.members.rows.countP (opted_in group_id) := by
  rw [list_active_billing_members, List.length_insertionSort, List.countP_eq_length_filter]

/-- The share that is found under the user is the one in the table. -/
theorem Shares.get_of_mem {shares : Shares} (honce : (shares.map Prod.fst).Nodup)
    {p : Nat × Int} (hp : p ∈ shares) : shares.get p.1 = p.2 := by
  unfold Shares.get
  induction shares with
  | nil => cases hp
  | cons q shares ih =>
    obtain ⟨hnew, hrest⟩ := List.nodup_cons.mp honce
    rcases List.mem_cons.mp hp with rfl | hp
    · rw [List.lookup_cons, beq_self_eq_true]
      rfl
    · have hne : p.1 ≠ q.1 := fun h => hnew (h ▸ List.mem_map_of_mem hp)
      rw [List.lookup_cons, beq_false_of_ne hne]
      exact ih hrest hp

instance : Std.Total ComesFirst := ⟨fun a b => by
  unfold ComesFirst
  omega⟩

instance : IsTrans TelegramGroupMember ComesFirst := ⟨fun a b c hab hbc => by
  unfold ComesFirst at hab hbc ⊢
  omega⟩

theorem members_sorted (g : Groups) (group_id : Nat) :
    (list_active_billing_members g group_id).Pairwise ComesFirst :=
  List.pairwise_insertionSort ComesFirst _

/-- The order of the rows does not matter: the memberships are sorted, and no two of them have
one id. -/
theorem members_of_perm {g g' : Groups} (hperm : g'.members.rows.Perm g.members.rows)
    (group_id : Nat) :
    list_active_billing_members g' group_id = list_active_billing_members g group_id := by
  have hsame : (list_active_billing_members g' group_id).Perm
      (list_active_billing_members g group_id) :=
    (List.perm_insertionSort _ _).trans
      ((hperm.filter _).trans (List.perm_insertionSort _ _).symm)
  refine hsame.eq_of_pairwise ?_ (members_sorted g' group_id) (members_sorted g group_id)
  intro a b ha hb hab hba
  unfold ComesFirst at hab hba
  have ha' := hperm.mem_iff.mp (mem_members.mp ha).1
  exact g.members.key_unique ha' (mem_members.mp hb).1 (show a.id = b.id by omega)

theorem found_cases (db : Db) (g : Groups) (group_id : Nat) (cost : Int)
    (remainder_user_id : Option Nat) :
    (∃ reason count, found db g group_id cost remainder_user_id = refused reason cost count ∧
      Failure db g group_id [] reason) ∨
    (found db g group_id cost remainder_user_id =
        settled db cost remainder_user_id (list_active_billing_members g group_id) ∧
      list_active_billing_members g group_id ≠ []) := by
  unfold found
  cases hgroup : g.groups.get group_id with
  | none => exact .inl ⟨_, 0, rfl, .group_not_found hgroup⟩
  | some group =>
    simp only
    split
    · rename_i hinactive
      exact .inl ⟨_, 0, rfl, .group_inactive group hgroup hinactive⟩
    · split
      · rename_i hfew
        rw [length_members] at hfew
        exact .inl ⟨_, _, rfl, .not_enough_active_members group hgroup hfew⟩
      · rename_i henough
        refine .inr ⟨rfl, fun hempty => henough ?_⟩
        rw [hempty]
        exact lt_of_lt_of_le Int.zero_lt_one (le_max_left 1 _)

/-- The user can pay its share. -/
def pays (db : Db) (shares : Shares) (uid : Nat) : Bool :=
  match db.users.get uid with
  | none => false
  | some user => can_pay db user (shares.get uid)

theorem has_credit_eq (db : Db) (shares : Shares) (member : TelegramGroupMember) :
    (state_of db shares member).has_credit = pays db shares member.user_id := by
  unfold state_of pays
  cases db.users.get member.user_id <;> rfl

/-- A member has credit if its user can pay the share. -/
theorem state_of_has_credit {db : Db} {shares : Shares} {member : TelegramGroupMember} :
    (state_of db shares member).has_credit = true ↔
      ∃ user, db.users.get member.user_id = some user ∧
        (user.is_admin = some true ∨
          shares.get member.user_id ≤ usd_balance member.user_id db) := by
  rw [has_credit_eq]
  unfold pays can_pay
  cases huser : db.users.get member.user_id with
  | none => simp
  | some user =>
    have hid : user.id = member.user_id := ((db.users.get_eq_some).mp huser).2
    simp [hid]

/-- Members with the same users come to the same. -/
theorem settled_of_users {db : Db} {cost : Int} {remainder_user_id : Option Nat}
    {members members' : List TelegramGroupMember}
    (h : members'.map (·.user_id) = members.map (·.user_id)) :
    (settled db cost remainder_user_id members').ok =
      (settled db cost remainder_user_id members).ok ∧
    (settled db cost remainder_user_id members').reason =
      (settled db cost remainder_user_id members).reason ∧
    (settled db cost remainder_user_id members').shares_minor =
      (settled db cost remainder_user_id members).shares_minor := by
  have hok : ∀ (shares : Shares) (ms : List TelegramGroupMember),
      (ms.map (state_of db shares)).all (·.has_credit) =
        (ms.map (·.user_id)).all (pays db shares) := by
    intro shares ms
    rw [List.all_map, List.all_map]
    exact congrArg (List.all ms) (funext (has_credit_eq db shares))
  unfold settled
  simp only [hok, h, and_self]

section
variable {db : Db} {g : Groups} {group_id : Nat} {cost : Int} {remainder_user_id : Option Nat}

theorem settled_charged (hsome : list_active_billing_members g group_id ≠ [])
    (hok : (settled db cost remainder_user_id (list_active_billing_members g group_id)).ok = true) :
    Charged db g group_id (max 0 cost) (settled db cost remainder_user_id
      (list_active_billing_members g group_id)).shares_minor := by
  set members := list_active_billing_members g group_id with hmembers
  have hsplit := split_is_split cost (members.map (·.user_id)) remainder_user_id
  have hstates : ((members.map (state_of db (split_cost_minor_with_remainder_rule cost
      (members.map (·.user_id)) remainder_user_id))).all (·.has_credit)) = true := hok
  change Charged db g group_id (max 0 cost) (split_cost_minor_with_remainder_rule cost
    (members.map (·.user_id)) remainder_user_id)
  generalize split_cost_minor_with_remainder_rule cost (members.map (·.user_id))
    remainder_user_id = shares at hsplit hstates ⊢
  have honce : (shares.map Prod.fst).Nodup := by
    rw [hsplit.covers]
    exact ordered_ids_nodup _
  have hcovers : ∀ uid, uid ∈ shares.map Prod.fst ↔ TakesPart g group_id uid := by
    intro uid
    rw [hsplit.covers]
    exact mem_member_ids
  have hlength : (ordered_ids (members.map (·.user_id))).length = shares.length := by
    rw [← hsplit.covers, List.length_map]
  have hremainder := hsplit.fair
  rw [hlength] at hremainder
  refine ⟨honce, hcovers, ?_, hsplit.sum ?_, hremainder, ?_⟩
  · intro p hp
    obtain ⟨anchor, hfair⟩ := hremainder
    have hpos : (0 : Int) < shares.length := by exact_mod_cast List.length_pos_of_mem hp
    have hbase := Int.ediv_nonneg (le_max_left 0 cost) hpos.le
    have hextra := Int.emod_nonneg (max 0 cost) hpos.ne'
    rw [hfair p hp]
    split <;> omega
  · obtain ⟨m, hm⟩ := List.exists_mem_of_ne_nil _ hsome
    obtain ⟨hrow, hin⟩ := mem_members.mp hm
    exact List.ne_nil_of_mem (mem_member_ids.mpr ⟨m, hrow, hin, rfl⟩)
  · intro p hp
    obtain ⟨m, hrow, hin, hid⟩ := (hcovers p.1).mp (List.mem_map_of_mem hp)
    have hm : m ∈ members := mem_members.mpr ⟨hrow, hin⟩
    have hcredit := List.all_eq_true.mp hstates _ (List.mem_map_of_mem hm)
    rw [state_of_has_credit, hid, Shares.get_of_mem honce hp] at hcredit
    exact hcredit

theorem settled_failure
    (hok : (settled db cost remainder_user_id (list_active_billing_members g group_id)).ok =
      false) :
    Failure db g group_id (settled db cost remainder_user_id
      (list_active_billing_members g group_id)).shares_minor "insufficient_credit_member" := by
  obtain ⟨state, hstate, hcredit⟩ := List.all_eq_false.mp hok
  obtain ⟨m, hm, rfl⟩ := List.mem_map.mp hstate
  obtain ⟨hrow, hin⟩ := mem_members.mp hm
  rw [state_of_has_credit] at hcredit
  cases huser : db.users.get m.user_id with
  | none => exact .no_user m.user_id ⟨m, hrow, hin, rfl⟩ huser
  | some user =>
    have hcannot := not_or.mp fun hpays => hcredit ⟨user, huser, hpays⟩
    exact .no_credit m.user_id user ⟨m, hrow, hin, rfl⟩ huser hcannot.1 (not_le.mp hcannot.2)

end

/-- The users of the memberships that take part. -/
def member_users (g : Groups) (group_id : Nat) : List Nat :=
  (g.members.rows.filter (opted_in group_id)).map (·.user_id)

/-- The sorted users depend on the users only. -/
theorem users_of_perm {g g' : Groups} {group_id : Nat}
    (hperm : (member_users g' group_id).Perm (member_users g group_id)) :
    (list_active_billing_members g' group_id).map (·.user_id) =
      (list_active_billing_members g group_id).map (·.user_id) := by
  have hsorted : ∀ h : Groups, ((list_active_billing_members h group_id).map
      (·.user_id)).Pairwise (· ≤ ·) := by
    intro h
    refine List.Pairwise.map _ (fun a b hab => ?_) (members_sorted h group_id)
    unfold ComesFirst at hab
    omega
  have husers : ∀ h : Groups, ((list_active_billing_members h group_id).map (·.user_id)).Perm
      (member_users h group_id) :=
    fun h => (List.perm_insertionSort _ _).map _
  exact ((husers g').trans (hperm.trans (husers g).symm)).eq_of_pairwise
    (fun a b _ _ => Nat.le_antisymm) (hsorted g') (hsorted g)

/-- A precheck that passes charges exactly the distinct users that take part, and each can
pay; one that does not pass names what is wrong. The order of the memberships is nothing. -/
theorem precheck_is_exact {g : Groups} {group_id : Nat} {cost : Int}
    {remainder_user_id : Option Nat} {s s' : Session Db} {r : BillingPrecheckResult}
    (h : (estimate_split_and_strict_precheck g group_id cost remainder_user_id).run s =
      (.ok r, s')) :
    r.estimated_cost_minor = max 0 cost ∧
    (r.ok = true → Charged s.view g group_id r.estimated_cost_minor r.shares_minor) ∧
    (r.ok = false → ∃ reason, r.reason = some reason ∧
      Failure s.view g group_id r.shares_minor reason) ∧
    (∀ g', g'.groups = g.groups → g'.members.rows.Perm g.members.rows →
      (estimate_split_and_strict_precheck g' group_id cost remainder_user_id).run s =
        (.ok r, s')) ∧
    ∀ g' r' t, g'.groups = g.groups →
      (member_users g' group_id).Perm (member_users g group_id) →
      (estimate_split_and_strict_precheck g' group_id cost remainder_user_id).run s =
        (.ok r', t) →
      r'.ok = r.ok ∧ r'.reason = r.reason ∧ r'.shares_minor = r.shares_minor := by
  have hr := precheck_found h
  have hcost : r.estimated_cost_minor = max 0 cost := by
    rcases found_cases s.view g group_id cost remainder_user_id with
      ⟨reason, count, hfound, -⟩ | ⟨hfound, -⟩ <;> rw [hr, hfound] <;> rfl
  refine ⟨hcost, fun hok => ?_, fun hok => ?_, fun g' hgroups hperm => ?_,
    fun g' r' t hgroups hperm hrun => ?_⟩
  · rw [hcost]
    rcases found_cases s.view g group_id cost remainder_user_id with
      ⟨reason, count, hfound, -⟩ | ⟨hfound, hsome⟩
    · rw [hr, hfound] at hok
      cases hok
    · rw [hr, hfound] at hok ⊢
      exact settled_charged hsome hok
  · rcases found_cases s.view g group_id cost remainder_user_id with
      ⟨reason, count, hfound, hfailure⟩ | ⟨hfound, -⟩
    · rw [hr, hfound]
      exact ⟨reason, rfl, hfailure⟩
    · rw [hr, hfound] at hok ⊢
      refine ⟨_, ?_, settled_failure hok⟩
      exact if_neg (ne_true_of_eq_false hok)
  · rw [← h]
    unfold estimate_split_and_strict_precheck
    rw [hgroups, members_of_perm hperm]
  · have husers := users_of_perm hperm
    have hlength := congrArg List.length husers
    rw [List.length_map, List.length_map] at hlength
    rw [hr, precheck_found hrun]
    unfold found
    rw [hgroups]
    cases g.groups.get group_id with
    | none => exact ⟨rfl, rfl, rfl⟩
    | some group =>
      simp only [hlength]
      split
      · exact ⟨rfl, rfl, rfl⟩
      · split
        · exact ⟨rfl, rfl, rfl⟩
        · exact settled_of_users husers

/-- One with three units, and an admin with none. -/
def two_users : Db :=
  { Db.empty with
    users := (Table.empty.insert { id := 1 }).insert { id := 2, is_admin := some true }
    wallets := (Table.empty.insert (new_wallet 1 3)).insert (new_wallet 2 0) }

def member (uid : Nat) (h : 0 < uid) : TelegramGroupMember :=
  ⟨0, 1, uid, h, none, some "active", some true⟩

/-- Both of them in a group, the admin first. -/
def group_of_two : Groups where
  groups := Table.empty.insert {}
  members := (Table.empty.insert (member 2 (by decide))).insert (member 1 (by decide))

/-- What they have to pay for seven units. -/
def seven_units : Tx BillingPrecheckResult :=
  estimate_split_and_strict_precheck group_of_two 1 7 (some 2)

/-- The admin carries the remainder, and both pay. -/
theorem two_members_share_seven_units :
    (match seven_units.run (.opened two_users) with
      | (.ok r, _) => r.ok = true ∧ r.shares_minor = [(1, 3), (2, 4)] ∧
          Charged two_users group_of_two 1 7 r.shares_minor
      | _ => False) := by
  have hrun : (seven_units.run (.opened two_users)).1 = .ok
      ⟨true, none, 7, 2, [(1, 3), (2, 4)],
        [⟨1, none, 3, 3, true, false⟩, ⟨2, none, 4, 0, true, true⟩]⟩ := by
    decide +kernel
  generalize hout : seven_units.run (.opened two_users) = out at hrun ⊢
  obtain ⟨result, after⟩ := out
  cases hrun
  exact ⟨rfl, rfl, (precheck_is_exact hout).2.1 rfl⟩

end dr_boz.group_precheck
