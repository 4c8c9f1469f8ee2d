-- Law of the message credits of Open WebUI (`user_credits.py`). A call reads
-- the row of its user, and writes it in a later commit. The row of one user
-- is all that its calls share.
import DrBoz.Views
import DrBoz.Lib.Runs
import Mathlib.Algebra.BigOperators.Group.List.Basic

open runs dr_boz.models dr_boz.views

namespace dr_boz.user_credits

/-! ## The rows and the calls -/

structure UserCredits where
  balance : Int
  total_used : Int
  reset_date : Option Int
deriving DecidableEq, Repr

/-- The balance of a new month. -/
def MONTHLY_CREDITS : Int := 50

/-- `now + 30 * 24 * 3600` -/
def in_30_days (now : Int) : Int := now + 30 * 24 * 3600

inductive Op where
  | get_user_credits
  | deduct_credit (amount : Int)
  | add_credits (amount : Int)
  | check_and_reset_monthly
deriving DecidableEq, Repr

/-- What a call gives back. -/
inductive Returned where
  | credits (credits : Option UserCredits)
  | flag (done : Bool)
  | integrity_error
deriving DecidableEq, Repr

/-- Where a call is: in front of its query, of one of its commits, or of the
refresh after a commit. -/
inductive Call where
  | starts (op : Op)
  | inserts (credits : UserCredits) (entry : Option Int)
  | deducts (credits : UserCredits) (amount : Int)
  | adds (credits : UserCredits) (amount : Int)
  | resets (credits : UserCredits) (now : Int)
  | refreshes (entry : Option Int)
  | enters (credits : UserCredits) (amount : Int)
  | returned (r : Returned)
deriving DecidableEq, Repr

/-- The tables of one user. `allotments` is what the first row and the resets
have granted. No table notes it. -/
structure Store where
  credits : Option UserCredits := none
  transactions : List Int := []
  allotments : Int := 0
deriving DecidableEq, Repr

/-- An UPDATE writes the columns that the call has changed. -/
def UserCredits.merge (o n c : UserCredits) : UserCredits where
  balance := col o.balance n.balance c.balance
  total_used := col o.total_used n.total_used c.total_used
  reset_date := col o.reset_date n.reset_date c.reset_date

def Store.update (s : Store) (old new : UserCredits) : Store :=
  { s with credits := s.credits.map (old.merge new) }

def Store.enter (s : Store) (amount : Int) : Store :=
  { s with transactions := s.transactions ++ [amount] }

def Store.grant (s : Store) : Store := { s with allotments := s.allotments + MONTHLY_CREDITS }

/-- The query of a call, and what it does up to its commit. -/
def select (now : Int) (credits : Option UserCredits) : Op → Call
  | .get_user_credits =>
    match credits with
    | some credits => .returned (.credits (some credits))
    | none => .inserts ⟨MONTHLY_CREDITS, 0, some (in_30_days now)⟩ none
  | .deduct_credit amount =>
    match credits with
    | none => .returned (.flag false)
    | some credits =>
      if credits.balance < amount then .returned (.flag false) else .deducts credits amount
  | .add_credits amount =>
    match credits with
    | none => .inserts ⟨amount, 0, some (in_30_days now)⟩ (some amount)
    | some credits => .adds credits amount
  | .check_and_reset_monthly =>
    match credits with
    | none => .returned (.credits none)
    | some credits =>
      match credits.reset_date with
      | none => .returned (.credits (some credits))
      | some reset_date =>
        if reset_date ≠ 0 ∧ reset_date ≤ now then .resets credits now
        else .returned (.credits (some credits))

/-- The row after a deduction. -/
def UserCredits.deducted (credits : UserCredits) (amount : Int) : UserCredits :=
  { credits with
    balance := credits.balance - amount
    total_used := credits.total_used + amount }

def UserCredits.added (credits : UserCredits) (amount : Int) : UserCredits :=
  { credits with balance := credits.balance + amount }

/-- The row of a new month. -/
def reset_row (now : Int) : UserCredits := ⟨MONTHLY_CREDITS, 0, some (in_30_days now)⟩

def Call.turn (now : Int) (s : Store) : Call → Store × Call
  | .starts op => (s, select now s.credits op)
  | .inserts credits entry =>
    match s.credits with
    | some _ => (s, .returned .integrity_error)
    | none =>
      let inserted := { s with credits := some credits }
      (if entry = none then inserted.grant else inserted, .refreshes entry)
  | .deducts credits amount =>
    ((s.update credits (credits.deducted amount)).enter (-amount), .returned (.flag true))
  | .adds credits amount =>
    ((s.update credits (credits.added amount)).enter amount,
      .returned (.credits (some (credits.added amount))))
  | .resets credits now => ((s.update credits (reset_row now)).grant, .refreshes none)
  | .refreshes entry =>
    (s, match s.credits, entry with
      | some credits, some amount => .enters credits amount
      | credits, _ => .returned (.credits credits))
  | .enters credits amount => (s.enter amount, .returned (.credits (some credits)))
  | .returned r => (s, .returned r)

structure State where
  store : Store := {}
  calls : List Call := []
deriving DecidableEq, Repr

/-- A call comes in, or one of them takes its next step. -/
inductive Event where
  | call (op : Op)
  | turn (i : Nat) (now : Int)
deriving DecidableEq, Repr

def step (s : State) : Event → State
  | .call op => { s with calls := s.calls ++ [.starts op] }
  | .turn i now =>
    match s.calls[i]? with
    | none => s
    | some c =>
      let (store, c') := c.turn now s.store
      { store, calls := s.calls.set i c' }

/-! ## The balance and its entries -/

def Store.balance (s : Store) : Int := (s.credits.map (·.balance)).getD 0

/-- The entry that comes with the next commit of the call, when its row is
there already. -/
def Call.due : Call → Int
  | .refreshes entry => entry.getD 0
  | .enters _ amount => amount
  | _ => 0

/-- The entries that are still to be written. -/
def State.due (s : State) : Int := (s.calls.map Call.due).sum

/-- The balance is what the transactions and the monthly allotments make. The
row that `add_credits` opens counts with the entry that follows it. -/
structure Reconciles (s : State) : Prop where
  nonneg : 0 ≤ s.store.balance
  sums : s.store.balance = s.store.transactions.sum + s.store.allotments + s.due

/-- The commit of a call fits the row that it finds. A reset fits a balance
that is used up only. -/
def Call.Fit (s : Store) : Call → Prop
  | .inserts credits _ => s.credits = none → 0 ≤ credits.balance
  | .deducts credits amount => amount = 0 ∨ s.balance = credits.balance
  | .adds credits amount =>
    amount = 0 ∨ s.balance = credits.balance ∧ 0 ≤ credits.balance + amount
  | .resets credits _ => s.balance = 0 ∧ credits.balance ≠ MONTHLY_CREDITS
  | _ => True

/-- The next step of the call fits. -/
def Fit (s : State) : Event → Prop
  | .call _ => True
  | .turn i _ => ∀ c, s.calls[i]? = some c → c.Fit s.store

/-! ## What a call has read -/

/-- A call that has found or written the row finds it again, and a deduction
does not go below zero. -/
def Call.Sane (s : Store) : Call → Prop
  | .inserts credits entry => credits.balance = entry.getD MONTHLY_CREDITS
  | .deducts credits amount => s.credits.isSome ∧ amount ≤ credits.balance
  | .adds _ _ | .resets _ _ | .refreshes _ => s.credits.isSome
  | _ => True

def Sane (s : State) : Prop := ∀ c ∈ s.calls, c.Sane s.store

theorem Call.Sane.mono {s t : Store} {c : Call} (h : c.Sane s)
    (hst : s.credits.isSome → t.credits.isSome) : c.Sane t := by
  cases c with
  | inserts credits entry => exact h
  | deducts credits amount => exact ⟨hst h.1, h.2⟩
  | adds | resets | refreshes => exact hst h
  | starts | enters | returned => trivial

theorem sane_select (now : Int) (s : Store) (op : Op) : (select now s.credits op).Sane s := by
  cases op with
  | get_user_credits =>
    unfold select
    cases s.credits with
    | none => rfl
    | some credits => trivial
  | deduct_credit amount =>
    unfold select
    cases h : s.credits with
    | none => trivial
    | some credits =>
      dsimp only
      split
      · trivial
      · rename_i hle
        exact ⟨by rw [h]; rfl, not_lt.mp hle⟩
  | add_credits amount =>
    unfold select
    cases h : s.credits with
    | none => rfl
    | some credits => exact Option.isSome_iff_exists.mpr ⟨credits, h⟩
  | check_and_reset_monthly =>
    unfold select
    cases h : s.credits with
    | none => trivial
    | some credits =>
      dsimp only
      split
      · trivial
      · split
        · exact Option.isSome_iff_exists.mpr ⟨credits, h⟩
        · trivial

theorem turn_keeps_row (now : Int) (s : Store) (c : Call) (h : s.credits.isSome) :
    (c.turn now s).1.credits.isSome := by
  have hupdate : ∀ old new, (s.update old new).credits.isSome := fun old new => by
    unfold Store.update
    rw [Option.isSome_map]
    exact h
  cases c with
  | starts | refreshes | enters | returned => exact h
  | deducts | adds | resets => exact hupdate _ _
  | inserts credits entry =>
    unfold Call.turn
    obtain ⟨row, hrow⟩ := Option.isSome_iff_exists.mp h
    rw [hrow]
    exact h

theorem turn_sane {now : Int} {s : Store} {c : Call} (h : c.Sane s) :
    (c.turn now s).2.Sane (c.turn now s).1 := by
  cases c with
  | starts op => exact sane_select now s op
  | deducts | adds | enters | returned => trivial
  | resets credits now' => exact turn_keeps_row now s (.resets credits now') h
  | refreshes entry =>
    unfold Call.turn
    cases s.credits <;> cases entry <;> trivial
  | inserts credits entry =>
    unfold Call.turn
    cases s.credits with
    | some row => trivial
    | none =>
      cases entry with
      | none => rfl
      | some amount => rfl

theorem step_turn {s : State} {i : Nat} {c : Call} (now : Int) (h : s.calls[i]? = some c) :
    step s (.turn i now) =
      { store := (c.turn now s.store).1, calls := s.calls.set i (c.turn now s.store).2 } := by
  simp only [step, h]

theorem step_idle {s : State} {i : Nat} (now : Int) (h : s.calls[i]? = none) :
    step s (.turn i now) = s := by
  simp only [step, h]

theorem sane_step {s : State} (h : Sane s) (e : Event) : Sane (step s e) := by
  cases e with
  | call op =>
    intro c hc
    rcases List.mem_append.mp hc with hold | hnew
    · exact h c hold
    · rw [List.mem_singleton.mp hnew]
      trivial
  | turn i now =>
    cases hcall : s.calls[i]? with
    | none =>
      rw [step_idle now hcall]
      exact h
    | some c =>
      rw [step_turn now hcall]
      have hmem : c ∈ s.calls := List.mem_of_getElem? hcall
      intro x hx
      rcases List.mem_or_eq_of_mem_set hx with hold | hnew
      · exact (h x hold).mono (turn_keeps_row now s.store c)
      · rw [hnew]
        exact turn_sane (h c hmem)

/-! ## One step -/

theorem due_call (s : State) (op : Op) : (step s (.call op)).due = s.due := by
  simp [step, State.due, Call.due]

theorem due_set {l : List Call} {i : Nat} {c : Call} (c' : Call) (h : l[i]? = some c) :
    ((l.set i c').map Call.due).sum = (l.map Call.due).sum - c.due + c'.due := by
  induction l generalizing i with
  | nil => cases h
  | cons x l ih =>
    cases i with
    | zero =>
      cases h
      simp only [List.set_cons_zero, List.map_cons, List.sum_cons]
      omega
    | succ i =>
      have hrest := ih (i := i) (by simpa using h)
      simp only [List.set_cons_succ, List.map_cons, List.sum_cons, hrest]
      omega

/-- What a step of a call adds to the balance, and to the sum that it should
be. -/
theorem reconciles_turn {s : State} {i : Nat} {now : Int} {c : Call} (h : s.calls[i]? = some c) :
    Reconciles (step s (.turn i now)) ↔
      0 ≤ (c.turn now s.store).1.balance ∧
        (c.turn now s.store).1.balance = (c.turn now s.store).1.transactions.sum +
          (c.turn now s.store).1.allotments + (s.due - c.due + (c.turn now s.store).2.due) := by
  have hstep := step_turn now h
  have hdue : (step s (.turn i now)).due = s.due - c.due + (c.turn now s.store).2.due := by
    rw [hstep]
    exact due_set _ h
  constructor
  · rintro ⟨hnonneg, hsums⟩
    rw [hdue] at hsums
    rw [hstep] at hnonneg hsums
    exact ⟨hnonneg, hsums⟩
  · rintro ⟨hnonneg, hsums⟩
    refine ⟨?_, ?_⟩
    · rw [hstep]
      exact hnonneg
    · rw [hdue, hstep]
      exact hsums

theorem balance_update {s : Store} (h : s.credits.isSome) (old new : UserCredits) :
    (s.update old new).balance = col old.balance new.balance s.balance := by
  obtain ⟨row, hrow⟩ := Option.isSome_iff_exists.mp h
  unfold Store.update Store.balance
  rw [hrow]
  rfl

/-- A commit that moves the balance by the amount of its entry. -/
theorem balance_moved {s : Store} (h : s.credits.isSome) {old new : UserCredits} {amount : Int}
    (hnew : new.balance = old.balance + amount) :
    (s.update old new).balance = s.balance + amount ↔ amount = 0 ∨ s.balance = old.balance := by
  rw [balance_update h, hnew]
  unfold col
  by_cases hzero : amount = 0
  · simp [hzero]
  · rw [if_neg (by omega)]
    constructor
    · intro heq
      exact .inr (by omega)
    · rintro (heq | heq)
      · exact absurd heq hzero
      · omega

/-- A deduction lowers the balance by its amount, and not below zero, exactly
when it finds the balance that it has read. -/
theorem deducted_iff {s : Store} (h : s.credits.isSome) {credits : UserCredits} {amount : Int}
    (hle : amount ≤ credits.balance) (hnonneg : 0 ≤ s.balance) :
    (0 ≤ (s.update credits (credits.deducted amount)).balance ∧
      (s.update credits (credits.deducted amount)).balance = s.balance - amount) ↔
      amount = 0 ∨ s.balance = credits.balance := by
  have hmoved := @balance_moved s h credits (credits.deducted amount) (-amount) rfl
  rw [Int.neg_eq_zero] at hmoved
  constructor
  · rintro ⟨-, heq⟩
    exact hmoved.mp (by omega)
  · intro hfit
    have heq := hmoved.mpr hfit
    refine ⟨?_, by omega⟩
    rcases hfit with hzero | hsame <;> omega

theorem added_iff {s : Store} (h : s.credits.isSome) {credits : UserCredits} {amount : Int}
    (hnonneg : 0 ≤ s.balance) :
    (0 ≤ (s.update credits (credits.added amount)).balance ∧
      (s.update credits (credits.added amount)).balance = s.balance + amount) ↔
      amount = 0 ∨ s.balance = credits.balance ∧ 0 ≤ credits.balance + amount := by
  have hmoved := @balance_moved s h credits (credits.added amount) amount rfl
  constructor
  · rintro ⟨hleft, heq⟩
    exact (hmoved.mp heq).imp_right fun hsame => ⟨hsame, by omega⟩
  · intro hfit
    have heq := hmoved.mpr (hfit.imp_right (·.1))
    refine ⟨?_, heq⟩
    rcases hfit with hzero | ⟨hsame, hleft⟩ <;> omega

/-- A reset adds the credits of a month only to a balance that is used up. -/
theorem reset_iff {s : Store} (h : s.credits.isSome) {credits : UserCredits} (now : Int) :
    (0 ≤ (s.update credits (reset_row now)).balance ∧
      (s.update credits (reset_row now)).balance = s.balance + MONTHLY_CREDITS) ↔
      s.balance = 0 ∧ credits.balance ≠ MONTHLY_CREDITS := by
  have hmonth : (reset_row now).balance = MONTHLY_CREDITS := rfl
  have hfifty : MONTHLY_CREDITS = 50 := rfl
  rw [balance_update h, hmonth]
  unfold col
  by_cases hsame : MONTHLY_CREDITS = credits.balance
  · rw [if_pos hsame]
    constructor
    · rintro ⟨-, heq⟩
      omega
    · rintro ⟨-, hne⟩
      exact absurd hsame.symm hne
  · rw [if_neg hsame]
    constructor
    · rintro ⟨-, heq⟩
      exact ⟨by omega, fun h => hsame h.symm⟩
    · rintro ⟨hzero, -⟩
      omega

theorem due_select (now : Int) (credits : Option UserCredits) (op : Op) :
    (select now credits op).due = 0 := by
  cases op with
  | get_user_credits | add_credits => cases credits <;> rfl
  | deduct_credit amount =>
    unfold select
    cases credits with
    | none => rfl
    | some credits =>
      dsimp only
      split
      · rfl
      · rfl
  | check_and_reset_monthly =>
    unfold select
    cases credits with
    | none => rfl
    | some credits =>
      dsimp only
      split
      · rfl
      · split
        · rfl
        · rfl

/-- From a balance that reconciles, a step leaves one exactly when it fits. -/
theorem reconciles_iff_fit {s : State} {i : Nat} {c : Call} (now : Int)
    (h : s.calls[i]? = some c) (hs : c.Sane s.store) (hr : Reconciles s) :
    Reconciles (step s (.turn i now)) ↔ c.Fit s.store := by
  rw [reconciles_turn h]
  obtain ⟨hnonneg, hsums⟩ := hr
  cases c with
  | starts op =>
    have hdue : (select now s.store.credits op).due = 0 := due_select now _ op
    simp only [Call.turn, hdue, Call.Fit, iff_true]
    exact ⟨hnonneg, by simp only [Call.due]; omega⟩
  | returned r =>
    simp only [Call.turn, Call.due, Call.Fit, iff_true]
    exact ⟨hnonneg, by omega⟩
  | enters credits amount =>
    simp only [Call.turn, Call.due, Call.Fit, iff_true, Store.enter, List.sum_append,
      List.sum_singleton]
    exact ⟨hnonneg, by change s.store.balance = _; omega⟩
  | refreshes entry =>
    obtain ⟨row, hrow⟩ := Option.isSome_iff_exists.mp hs
    simp only [Call.turn, Call.Fit, iff_true, hrow]
    cases entry with
    | none => exact ⟨hnonneg, by simp only [Call.due, Option.getD_none]; omega⟩
    | some amount => exact ⟨hnonneg, by simp only [Call.due, Option.getD_some]; omega⟩
  | inserts credits entry =>
    change credits.balance = entry.getD MONTHLY_CREDITS at hs
    unfold Call.Fit Call.turn
    cases hrow : s.store.credits with
    | some row =>
      simp only [Call.due, reduceCtorEq, false_implies, iff_true]
      exact ⟨hnonneg, by omega⟩
    | none =>
      have hempty : s.store.balance = 0 := by
        unfold Store.balance
        rw [hrow]
        rfl
      simp only [true_implies]
      cases entry with
      | none =>
        simp only [Option.getD_none] at hs
        simp only [if_true, Store.grant, Store.balance, Option.map_some, Option.getD_some,
          Call.due, Option.getD_none]
        omega
      | some amount =>
        simp only [Option.getD_some] at hs
        simp only [reduceCtorEq, if_false, Store.balance, Option.map_some, Option.getD_some,
          Call.due]
        omega
  | deducts credits amount =>
    obtain ⟨hrow, hle⟩ := hs
    simp only [Call.Fit, ← deducted_iff hrow hle hnonneg]
    simp only [Call.turn, Call.due, Store.enter, List.sum_append, List.sum_singleton]
    refine and_congr_right fun _ => ?_
    change (s.store.update _ _).balance = s.store.transactions.sum + -amount + s.store.allotments +
      (s.due - 0 + 0) ↔ _
    constructor <;> intro heq <;> omega
  | adds credits amount =>
    simp only [Call.Fit, ← added_iff hs hnonneg]
    simp only [Call.turn, Call.due, Store.enter, List.sum_append, List.sum_singleton]
    refine and_congr_right fun _ => ?_
    change (s.store.update _ _).balance = s.store.transactions.sum + amount + s.store.allotments +
      (s.due - 0 + 0) ↔ _
    constructor <;> intro heq <;> omega
  | resets credits now' =>
    simp only [Call.Fit, ← reset_iff hs now']
    simp only [Call.turn, Call.due, Store.grant]
    refine and_congr_right fun _ => ?_
    change (s.store.update _ _).balance = s.store.transactions.sum +
      (s.store.allotments + MONTHLY_CREDITS) + (s.due - 0 + 0) ↔ _
    constructor <;> intro heq <;> omega

/-! ## Every run -/

theorem reconciles_call {s : State} (h : Reconciles s) (op : Op) :
    Reconciles (step s (.call op)) := by
  refine ⟨h.nonneg, ?_⟩
  rw [due_call]
  exact h.sums

theorem reconciles_step {s : State} (hs : Sane s) (h : Reconciles s) (e : Event) :
    Reconciles (step s e) ↔ Fit s e := by
  cases e with
  | call op => exact iff_of_true (reconciles_call h op) trivial
  | turn i now =>
    cases hcall : s.calls[i]? with
    | none =>
      rw [step_idle now hcall]
      refine iff_of_true h fun c hc => ?_
      rw [hcall] at hc
      cases hc
    | some c =>
      rw [reconciles_iff_fit now hcall (hs c (List.mem_of_getElem? hcall)) h]
      constructor
      · intro hfit x hx
        rw [hcall] at hx
        cases hx
        exact hfit
      · intro hfit
        exact hfit c hcall

theorem sane_run (es : List Event) : Sane (after step {} es) := by
  have hstart : Sane {} := fun c hc => nomatch hc
  generalize ({} : State) = s at hstart
  induction es generalizing s with
  | nil => exact hstart
  | cons e es ih => exact ih _ (sane_step hstart e)

theorem reconciles_run {es : List Event} (h : Each step Fit {} es) :
    Reconciles (after step {} es) := by
  refine (h.keeps (I := fun s => Sane s ∧ Reconciles s) ?_ ⟨sane_run [], ⟨le_refl 0, rfl⟩⟩).2
  rintro s e ⟨hs, hr⟩ hfit
  exact ⟨sane_step hs e, (reconciles_step hs hr e).mpr hfit⟩

/-- Where no entry is left to write, the balance is the sum of the tables. -/
theorem reconciles_at_rest {s : State} (h : Reconciles s) (hrest : ∀ c ∈ s.calls, c.due = 0) :
    s.store.balance = s.store.transactions.sum + s.store.allotments := by
  have hdue : s.due = 0 := List.sum_eq_zero fun d hd => by
    obtain ⟨c, hc, rfl⟩ := List.mem_map.mp hd
    exact hrest c hc
  have hsums := h.sums
  omega

/-- LAW: In every interleaving of the calls, the balance reconciles at all
times exactly when each commit fits the row that it finds: a deduction and a
purchase find the balance that they have read, no purchase leads below zero,
and a reset finds a balance that is used up. -/
theorem the_balance_reconciles_iff_each_commit_fits (es : List Event) :
    (∀ pre, pre <+: es → Reconciles (after step {} pre)) ↔ Each step Fit {} es := by
  constructor
  · intro h
    refine each_iff.mpr fun pre e post hes => ?_
    have hbefore := h pre ⟨e :: post, hes.symm⟩
    have hafter := h (pre ++ [e]) ⟨post, by rw [hes, List.append_assoc]; rfl⟩
    rw [after_append] at hafter
    exact (reconciles_step (sane_run pre) hbefore e).mp hafter
  · rintro h pre ⟨post, rfl⟩
    exact reconciles_run (each_append.mp h).1

/-- A user with the first 50 credits buys 100 more. A month later, a reset
takes what is left of them. And two deductions that have read one balance
write it twice. -/
theorem a_reset_takes_what_was_purchased :
    ¬Reconciles (after step {}
      [.call .get_user_credits, .turn 0 1000, .turn 0 1000, .turn 0 1000,
        .call (.add_credits 100), .turn 1 2000, .turn 1 2000,
        .call .check_and_reset_monthly, .turn 2 2593000, .turn 2 2593000, .turn 2 2593000]) ∧
    ¬Reconciles (after step {}
      [.call .get_user_credits, .turn 0 1000, .turn 0 1000, .turn 0 1000,
        .call (.deduct_credit 1), .call (.deduct_credit 1), .turn 1 2000, .turn 2 2000,
        .turn 1 2000, .turn 2 2000]) := by
  constructor
  · rintro ⟨-, hsums⟩
    revert hsums
    decide
  · rintro ⟨-, hsums⟩
    revert hsums
    decide

end dr_boz.user_credits
