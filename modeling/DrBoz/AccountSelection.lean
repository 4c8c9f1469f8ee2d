-- Law of the selection of a Codex account: the account with the most capacity
-- left among those that may be used. The usage that is recorded for it counts
-- against its limits in every selection that follows.
import DrBoz.CliLines
import DrBoz.CodexCapacity
import DrBoz.Lib.Runs
import Mathlib.Data.Prod.Lex

open keyed_table dr_boz.py dr_boz.models dr_boz.codex_capacity
open dr_boz.cli_lines (JsonValue Fields truncated)

namespace dr_boz.account_selection

/-! ## The accounts -/

structure CodexAccount where
  id : Nat := 0
  provider_id : Option Nat := none
  pool_id : Option Nat := none
  auth_status : Option String := some "pending"
  is_active : Option Bool := some true
  status : Option String := some "active"
  five_hour_limit : Option Int := some 0
  five_hour_used : Option Int := some 0
  weekly_limit : Option Int := some 0
  weekly_used : Option Int := some 0
  safety_buffer_percent : Option PyFloat := some 30
  cooldown_until : Option Datetime := none
  last_used_at : Option Datetime := none
deriving DecidableEq

instance : Row CodexAccount Empty :=
  ⟨(·.id), fun a n => { a with id := n }, fun _ => none, fun _ _ => rfl, fun _ _ => rfl⟩

/-- The tables that a selection reads. -/
structure Store where
  subscriptions : Table UserSubscription
  accounts : Table CodexAccount

/-! ## The capacity that is left -/

def _effective_limit (limit : Option Int) (safety_buffer_percent : Option PyFloat) : Int :=
  let raw_limit := max 0 (intOr0 limit)
  if raw_limit = 0 then 0
  else
    let buffer_percent := min 95 (max 0 (safety_buffer_percent.getD 30))
    truncated (f64 (f64 raw_limit * f64 (1 - f64 (buffer_percent / 100))))

/-- A counter as it is compared: `max(0, _coerce_int(used))`. -/
def counted (used : Option Int) : Int := max 0 (intOr0 used)

def codex_account_remaining_capacity (account : CodexAccount) : Int :=
  let five_hour_effective :=
    _effective_limit account.five_hour_limit account.safety_buffer_percent
  let weekly_effective := _effective_limit account.weekly_limit account.safety_buffer_percent
  min (five_hour_effective - counted account.five_hour_used)
    (weekly_effective - counted account.weekly_used)

/-! ## The selection -/

-- The order of the whole numbers that can be computed.
local instance int_order : Preorder Int := Int.instLinearOrder.toPreorder

/-- The active subscription that ends last, and of two the one with the higher id. -/
def get_active_user_subscription (now : Datetime) (user_id : Nat) (s : Store) :
    Option UserSubscription :=
  (s.subscriptions.rows.filter fun u => u.user_id = user_id && active_at now u).argmax
    fun u => toLex (u.expires_at, u.id)

/-- The conditions of the query. A provider is given by its id. -/
def in_query (now : Datetime) (provider : Option Nat) (pool_id : Nat) (account : CodexAccount) :
    Bool :=
  account.pool_id = some pool_id && account.is_active = some true &&
    account.status = some "active" && account.auth_status = some "authenticated" &&
    account.cooldown_until.all (· ≤ now) &&
    provider.all fun id => account.provider_id = some id || account.provider_id = none

/-- The key of `max`: no two accounts have the same. -/
def selection_key (account : CodexAccount) : Int ×ₗ Bool ×ₗ Int :=
  toLex (codex_account_remaining_capacity account,
    toLex (account.last_used_at = none, -(account.id : Int)))

def candidates (now : Datetime) (provider : Option Nat) (pool_id : Nat) (s : Store) :
    List CodexAccount :=
  (s.accounts.rows.filter (in_query now provider pool_id)).filter fun account =>
    0 < codex_account_remaining_capacity account

def select_codex_account_for_subscription (now : Datetime) (provider : Option Nat)
    (user_id : Nat) (s : Store) : Option CodexAccount :=
  match (get_active_user_subscription now user_id s).bind (·.pool_id) with
  | none => none
  | some pool_id => (candidates now provider pool_id s).argmax selection_key

/-! ## The accounting -/

/-- `_coerce_int(value)`. Infinity raises. -/
def coerce_int : JsonValue → Except PyError Int
  | .int n => .ok n
  | .bool b => .ok (if b then 1 else 0)
  | .float x => .ok (truncated x)
  | .infinity | .minus_infinity => .error .overflow_error
  | .str text => .ok ((texts.int_of text).getD 0)
  | .null | .nan | .list _ | .dict _ => .ok 0

/-- The tokens that are recorded for a usage. -/
def total_tokens (usage : Fields) : Except PyError Int := do
  let total ← coerce_int (usage.get "total_tokens" .null)
  if 0 < total then return total
  let input ← coerce_int (usage.get "input_tokens" .null)
  let output ← coerce_int (usage.get "output_tokens" .null)
  return if 0 < input + output then input + output else 1

/-- The account after it was used. -/
def used (now : Datetime) (total : Int) (account : CodexAccount) : CodexAccount :=
  { account with
    five_hour_used := some (counted account.five_hour_used + total)
    weekly_used := some (counted account.weekly_used + total)
    last_used_at := some now }

def record_codex_account_usage (now : Datetime) (account : CodexAccount) (usage : Fields) :
    Except PyError CodexAccount := do
  let total ← total_tokens usage
  return used now total account

/-! ## What a selection gives -/

/-- The subscription of the user that counts: active, and none that is active ends later. -/
structure Current (now : Datetime) (user_id : Nat) (s : Store) (u : UserSubscription) : Prop where
  stored : u ∈ s.subscriptions.rows
  of_user : u.user_id = user_id
  active : active_at now u = true
  last : ∀ v ∈ s.subscriptions.rows, v.user_id = user_id → active_at now v = true →
    v.expires_at < u.expires_at ∨ v.expires_at = u.expires_at ∧ v.id ≤ u.id

/-- The account may be used for the user now. -/
structure Usable (now : Datetime) (provider : Option Nat) (user_id : Nat) (s : Store)
    (account : CodexAccount) : Prop where
  stored : account ∈ s.accounts.rows
  in_pool : ∃ u pool_id, Current now user_id s u ∧ u.pool_id = some pool_id ∧
    account.pool_id = some pool_id
  active : account.is_active = some true ∧ account.status = some "active"
  authenticated : account.auth_status = some "authenticated"
  rested : ∀ t, account.cooldown_until = some t → t ≤ now
  for_provider : ∀ id, provider = some id →
    account.provider_id = some id ∨ account.provider_id = none
  capacity : 0 < codex_account_remaining_capacity account

/-- Both counters are below the limits less the buffer. -/
def BelowLimits (account : CodexAccount) (five_hour weekly : Int) : Prop :=
  five_hour < _effective_limit account.five_hour_limit account.safety_buffer_percent ∧
    weekly < _effective_limit account.weekly_limit account.safety_buffer_percent

theorem below_limits_iff (account : CodexAccount) :
    0 < codex_account_remaining_capacity account ↔
      BelowLimits account (counted account.five_hour_used) (counted account.weekly_used) := by
  unfold codex_account_remaining_capacity BelowLimits
  simp only [lt_min_iff, sub_pos]

theorem current_of_active {now : Datetime} {user_id : Nat} {s : Store} {u : UserSubscription}
    (h : get_active_user_subscription now user_id s = some u) : Current now user_id s u := by
  have hmem := List.argmax_mem h
  simp only [List.mem_filter, Bool.and_eq_true, decide_eq_true_eq] at hmem
  refine ⟨hmem.1, hmem.2.1, hmem.2.2, fun v hv huser hactive => ?_⟩
  have hle := List.le_of_mem_argmax (f := fun u : UserSubscription => toLex (u.expires_at, u.id))
    (List.mem_filter.mpr ⟨hv, by simp [huser, hactive]⟩) h
  exact Prod.Lex.le_iff.mp hle

/-- There is one such subscription, and it is the one that is found. -/
theorem active_of_current {now : Datetime} {user_id : Nat} {s : Store} {u : UserSubscription}
    (h : Current now user_id s u) : get_active_user_subscription now user_id s = some u := by
  cases hfound : get_active_user_subscription now user_id s with
  | none =>
    have hnone := List.argmax_eq_none.mp hfound
    have hmem : u ∈ s.subscriptions.rows.filter
        fun u => u.user_id = user_id && active_at now u :=
      List.mem_filter.mpr ⟨h.stored, by simp [h.of_user, h.active]⟩
    rw [hnone] at hmem
    cases hmem
  | some v =>
    have hv := current_of_active hfound
    have huv := h.last v hv.stored hv.of_user hv.active
    have hvu := hv.last u h.stored h.of_user h.active
    have hid : v.id = u.id := by
      rcases huv with huv | ⟨hends, huv⟩
      · rcases hvu with hvu | ⟨heq, -⟩
        · exact absurd (lt_trans huv hvu) (lt_irrefl _)
        · exact absurd heq (ne_of_gt huv)
      · rcases hvu with hvu | ⟨-, hvu⟩
        · exact absurd hends (ne_of_gt hvu)
        · exact le_antisymm huv hvu
    rw [s.subscriptions.key_unique hv.stored h.stored hid]

theorem mem_candidates {now : Datetime} {provider : Option Nat} {user_id pool_id : Nat}
    {s : Store} {u : UserSubscription} (hu : Current now user_id s u)
    (hpool : u.pool_id = some pool_id) {account : CodexAccount} :
    account ∈ candidates now provider pool_id s ↔ Usable now provider user_id s account := by
  simp only [candidates, List.mem_filter, in_query, Bool.and_eq_true, decide_eq_true_eq]
  constructor
  · rintro ⟨⟨hmem, ⟨⟨⟨⟨hin, hactive⟩, hstatus⟩, hauth⟩, hrest⟩, hprovider⟩, hcapacity⟩
    refine ⟨hmem, ⟨u, pool_id, hu, hpool, hin⟩, ⟨hactive, hstatus⟩, hauth, ?_, ?_, hcapacity⟩
    · rintro t ht
      simpa [ht] using hrest
    · rintro id rfl
      simpa using hprovider
  · rintro ⟨hmem, ⟨v, pool, hv, hvpool, hin⟩, ⟨hactive, hstatus⟩, hauth, hrest, hprovider,
      hcapacity⟩
    have hsame := active_of_current hu
    rw [active_of_current hv] at hsame
    cases hsame
    rw [hpool] at hvpool
    cases hvpool
    refine ⟨⟨hmem, ⟨⟨⟨⟨hin, hactive⟩, hstatus⟩, hauth⟩, ?_⟩, ?_⟩, hcapacity⟩
    · cases hcooldown : account.cooldown_until with
      | none => rfl
      | some t => simpa using hrest t hcooldown
    · cases provider with
      | none => rfl
      | some id => simpa using hprovider id rfl

/-- The pool that is selected from. -/
theorem selected_pool {now : Datetime} {user_id pool_id : Nat} {s : Store}
    (h : (get_active_user_subscription now user_id s).bind (·.pool_id) = some pool_id) :
    ∃ u, Current now user_id s u ∧ u.pool_id = some pool_id := by
  obtain ⟨u, hu, hpool⟩ := Option.bind_eq_some_iff.mp h
  exact ⟨u, current_of_active hu, hpool⟩

theorem select_some {now : Datetime} {provider : Option Nat} {user_id : Nat} {s : Store}
    {account : CodexAccount}
    (h : select_codex_account_for_subscription now provider user_id s = some account) :
    Usable now provider user_id s account ∧
      ∀ other, Usable now provider user_id s other →
        codex_account_remaining_capacity other ≤ codex_account_remaining_capacity account := by
  unfold select_codex_account_for_subscription at h
  split at h
  · cases h
  · rename_i pool_id hpool
    obtain ⟨u, hu, hupool⟩ := selected_pool hpool
    refine ⟨(mem_candidates hu hupool).mp (List.argmax_mem h), fun other hother => ?_⟩
    have hle := List.le_of_mem_argmax ((mem_candidates hu hupool).mpr hother) h
    rcases Prod.Lex.le_iff.mp hle with hlt | ⟨heq, -⟩
    · exact le_of_lt hlt
    · exact le_of_eq heq

theorem select_none {now : Datetime} {provider : Option Nat} {user_id : Nat} {s : Store}
    (h : select_codex_account_for_subscription now provider user_id s = none)
    (account : CodexAccount) : ¬ Usable now provider user_id s account := by
  intro husable
  obtain ⟨u, pool_id, hu, hpool, -⟩ := husable.in_pool
  unfold select_codex_account_for_subscription at h
  rw [active_of_current hu, Option.bind_some, hpool] at h
  have hmem := (mem_candidates hu hpool).mpr husable
  rw [List.argmax_eq_none.mp h] at hmem
  cases hmem

/-! ## Selections and their usage -/

/-- A selection, and the usage that is recorded for the account. -/
structure Turn where
  now : Datetime
  provider : Option Nat
  user_id : Nat
  usage : Fields

def Turn.selected (t : Turn) (s : Store) : Option CodexAccount :=
  select_codex_account_for_subscription t.now t.provider t.user_id s

/-- The store after a turn. Usage that raises is not recorded. -/
def turn (s : Store) (t : Turn) : Store :=
  match t.selected s with
  | none => s
  | some account =>
    match record_codex_account_usage t.now account t.usage with
    | .error _ => s
    | .ok account => { s with accounts := s.accounts.put account }

/-- What a turn records for the account with an id. -/
def Turn.recorded (t : Turn) (s : Store) (id : Nat) : Int :=
  match t.selected s, total_tokens t.usage with
  | some account, .ok total => if account.id = id then total else 0
  | _, _ => 0

/-- What the turns of a run record for the account with an id. -/
def recorded (s : Store) (id : Nat) : List Turn → Int
  | [] => 0
  | t :: ts => t.recorded s id + recorded (turn s t) id ts

theorem total_tokens_pos {usage : Fields} {total : Int} (h : total_tokens usage = .ok total) :
    0 < total := by
  obtain ⟨reported, -, h⟩ := of_bind_ok h
  split at h
  · rename_i hpos
    cases h
    exact hpos
  · obtain ⟨input, -, h⟩ := of_bind_ok h
    obtain ⟨output, -, h⟩ := of_bind_ok h
    cases h
    split <;> omega

/-- The limits and the counters of an account, as a selection reads them, with what was
recorded since. -/
structure Counts (before after : CodexAccount) (total : Int) : Prop where
  five_hour_limit : after.five_hour_limit = before.five_hour_limit
  weekly_limit : after.weekly_limit = before.weekly_limit
  buffer : after.safety_buffer_percent = before.safety_buffer_percent
  five_hour : counted after.five_hour_used = counted before.five_hour_used + total
  weekly : counted after.weekly_used = counted before.weekly_used + total

theorem counts_used {total : Int} (h : 0 < total) (now : Datetime) (account : CodexAccount) :
    Counts account (used now total account) total := by
  refine ⟨rfl, rfl, rfl, ?_, ?_⟩ <;>
  · simp only [used, counted, intOr0, Option.getD_some]
    omega

/-- A turn records nothing, or it puts the used account in its place. -/
theorem turn_cases (s : Store) (t : Turn) :
    (turn s t = s ∧ ∀ id, t.recorded s id = 0) ∨
    ∃ account total, s.accounts.get account.id = some account ∧ 0 < total ∧
      turn s t = { s with accounts := s.accounts.put (used t.now total account) } ∧
      ∀ id, t.recorded s id = if account.id = id then total else 0 := by
  unfold turn Turn.recorded
  cases hselected : t.selected s with
  | none => exact .inl ⟨rfl, fun _ => rfl⟩
  | some account =>
    cases htotal : total_tokens t.usage with
    | error e =>
      simp only [record_codex_account_usage, htotal]
      exact .inl ⟨rfl, fun _ => trivial⟩
    | ok total =>
      simp only [record_codex_account_usage, htotal]
      exact .inr ⟨account, total,
        s.accounts.get_eq_some.mpr ⟨(select_some hselected).1.stored, rfl⟩,
        total_tokens_pos htotal, rfl, fun _ => rfl⟩

theorem replaces_used (now : Datetime) (total : Int) (account : CodexAccount) :
    Table.Replaces (used now total account) account := ⟨rfl, rfl⟩

/-- A turn counts for the account that it selects, and for no other. -/
theorem turn_account {s : Store} {t : Turn} {id : Nat} {before : CodexAccount}
    (h : s.accounts.get id = some before) :
    ∃ after, (turn s t).accounts.get id = some after ∧ Counts before after (t.recorded s id) := by
  have hsame : Counts before before 0 := ⟨rfl, rfl, rfl, by simp, by simp⟩
  rcases turn_cases s t with ⟨hturn, hrecorded⟩ | ⟨account, total, hstored, hpos, hturn, hrecorded⟩
  · rw [hturn, hrecorded]
    exact ⟨before, h, hsame⟩
  · rw [hturn, hrecorded]
    by_cases hid : account.id = id
    · subst hid
      rw [hstored] at h
      cases h
      rw [if_pos rfl]
      exact ⟨_, Table.get_put_self hstored (replaces_used t.now total before),
        counts_used hpos t.now before⟩
    · rw [if_neg hid]
      have hget := Table.get_put_ne hstored (replaces_used t.now total account) (Ne.symm hid)
      exact ⟨before, hget.trans h, hsame⟩

/-- A run counts all that its turns record. -/
theorem run_account {s : Store} {id : Nat} {before : CodexAccount}
    (h : s.accounts.get id = some before) (ts : List Turn) :
    ∃ after, (runs.after turn s ts).accounts.get id = some after ∧
      Counts before after (recorded s id ts) := by
  induction ts generalizing s before with
  | nil => exact ⟨before, h, rfl, rfl, rfl, by simp [recorded], by simp [recorded]⟩
  | cons t ts ih =>
    obtain ⟨middle, hmiddle, hfirst⟩ := turn_account (t := t) h
    obtain ⟨after, hafter, hrest⟩ := ih hmiddle
    refine ⟨after, hafter, hrest.five_hour_limit.trans hfirst.five_hour_limit,
      hrest.weekly_limit.trans hfirst.weekly_limit, hrest.buffer.trans hfirst.buffer, ?_, ?_⟩
    · rw [hrest.five_hour, hfirst.five_hour, recorded]
      omega
    · rw [hrest.weekly, hfirst.weekly, recorded]
      omega

/-- No turn adds an account. -/
theorem turn_get {s : Store} {t : Turn} {id : Nat} (h : s.accounts.get id = none) :
    (turn s t).accounts.get id = none := by
  rcases turn_cases s t with ⟨hturn, -⟩ | ⟨account, total, hstored, -, hturn, -⟩
  · rw [hturn]
    exact h
  · have hne : id ≠ account.id := by
      rintro rfl
      rw [h] at hstored
      cases hstored
    rw [hturn]
    exact (Table.get_put_ne hstored (replaces_used t.now total account) hne).trans h

theorem run_get {s : Store} {id : Nat} (h : s.accounts.get id = none) (ts : List Turn) :
    (runs.after turn s ts).accounts.get id = none := by
  induction ts generalizing s with
  | nil => exact h
  | cons t ts ih => exact ih (turn_get h)

/-- The account that is selected after a run is one of the accounts at its beginning, and
with all that the run recorded for it both counters are below its limits. -/
theorem selected_below_limits (s : Store) (ts : List Turn) (t : Turn) {account : CodexAccount}
    (h : t.selected (runs.after turn s ts) = some account) :
    ∃ before, s.accounts.get account.id = some before ∧
      BelowLimits before (counted before.five_hour_used + recorded s account.id ts)
        (counted before.weekly_used + recorded s account.id ts) := by
  have husable := (select_some h).1
  have hstored : (runs.after turn s ts).accounts.get account.id = some account :=
    Table.get_eq_some _ |>.mpr ⟨husable.stored, rfl⟩
  cases hbefore : s.accounts.get account.id with
  | none =>
    rw [run_get hbefore ts] at hstored
    cases hstored
  | some before =>
    obtain ⟨after, hafter, hcounts⟩ := run_account hbefore ts
    rw [hstored] at hafter
    cases hafter
    have hbelow := (below_limits_iff account).mp husable.capacity
    unfold BelowLimits at hbelow
    rw [hcounts.five_hour, hcounts.weekly, hcounts.five_hour_limit, hcounts.weekly_limit,
      hcounts.buffer] at hbelow
    exact ⟨before, rfl, hbelow⟩

/-- Every selection gives a usable account with the most capacity left, or there is none; and
in every run an account is selected only while both of its counters are below its limits. -/
theorem selection_is_optimal_and_safe :
    (∀ now provider user_id s,
      match select_codex_account_for_subscription now provider user_id s with
      | some account => Usable now provider user_id s account ∧
          ∀ other, Usable now provider user_id s other →
            codex_account_remaining_capacity other ≤ codex_account_remaining_capacity account
      | none => ∀ account, ¬ Usable now provider user_id s account) ∧
    ∀ (s : Store) (ts : List Turn) (t : Turn) (account : CodexAccount),
      t.selected (runs.after turn s ts) = some account →
      BelowLimits account (counted account.five_hour_used) (counted account.weekly_used) ∧
      ∃ before, s.accounts.get account.id = some before ∧
        BelowLimits before (counted before.five_hour_used + recorded s account.id ts)
          (counted before.weekly_used + recorded s account.id ts) := by
  constructor
  · intro now provider user_id s
    cases h : select_codex_account_for_subscription now provider user_id s with
    | some account => exact select_some h
    | none => exact select_none h
  · intro s ts t account h
    exact ⟨(below_limits_iff account).mp (select_some h).1.capacity,
      selected_below_limits s ts t h⟩

def one_subscription : UserSubscription :=
  { id := 1, user_id := 7, plan_id := 1, pool_id := some 2, purchased_at := none,
    expires_at := 100 }

def small_account : CodexAccount :=
  { id := 3, pool_id := some 2, auth_status := some "authenticated",
    five_hour_limit := some 10, weekly_limit := some 50 }

def one_account : Store where
  subscriptions := ⟨[one_subscription], by decide, by decide⟩
  accounts := ⟨[small_account], by decide, by decide⟩

def two_turns : List Turn :=
  [⟨5, none, 7, [("total_tokens", .int 4)]⟩, ⟨6, none, 7, [("input_tokens", .int 2)]⟩]

theorem an_account_is_used_up_to_its_limit :
    ∃ account, Turn.selected ⟨9, none, 7, []⟩ (runs.after turn one_account two_turns) =
      some account ∧
      BelowLimits account (counted account.five_hour_used) (counted account.weekly_used) := by
  have hsome : (Turn.selected ⟨9, none, 7, []⟩
      (runs.after turn one_account two_turns)).isSome = true := by decide +kernel
  obtain ⟨account, h⟩ := Option.isSome_iff_exists.mp hsome
  exact ⟨account, h, (selection_is_optimal_and_safe.2 one_account two_turns _ account h).1⟩

end dr_boz.account_selection
