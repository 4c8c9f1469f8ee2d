-- Law of the updates that Telegram sends. `_claim_update_once` decides whether
-- a worker may handle an update, and `_mark_update_completed_by_id` notes that
-- it was handled. Each call reads the row of the update and commits later, in
-- a session of its own, and other calls may commit in between.
import DrBoz.Lib.Runs
import Mathlib.Data.List.Induction
import Mathlib.Logic.Function.Basic

open runs

namespace dr_boz.update_claims

/-! ## The calls -/

inductive UpdateStatus where
  | processing
  | completed
deriving DecidableEq, Repr

/-- A row of `telegram_update_logs`, with what the calls look at. -/
structure TelegramUpdateLog where
  status : UpdateStatus
  created_at : Int
deriving DecidableEq, Repr

/-- The table by `update_id`, which is unique. -/
abbrev Logs := Int → Option TelegramUpdateLog

/-- `timedelta(minutes=15)`, in microseconds. -/
def fifteen_minutes : Int := 15 * 60 * 1000000

def stuck (existing : TelegramUpdateLog) (now : Int) : Prop :=
  existing.status = .processing ∧ now - existing.created_at > fifteen_minutes

instance (existing : TelegramUpdateLog) (now : Int) : Decidable (stuck existing now) :=
  inferInstanceAs (Decidable (_ ∧ _))

/-- A call that waits for the database, or is over with its answer. A call
that crashes, and one that marks the update, has no answer. -/
inductive Call where
  | claims (update_id : Int) (allow_reclaim : Bool) (existing : Option TelegramUpdateLog)
  | inserts (update_id : Int) (allow_reclaim : Bool) (log : TelegramUpdateLog)
  | reclaims (update_id : Int) (existing : TelegramUpdateLog) (now : Int)
  | completes (update_id : Int)
  | answered (answer : Option Bool)
deriving DecidableEq, Repr

/-- The call up to its query. -/
def _claim_update_once (update_id : Option Int) (allow_reclaim : Bool) (logs : Logs) : Call :=
  match update_id with
  | none => .answered (some true)
  | some update_id => .claims update_id allow_reclaim (logs update_id)

/-- From the answer of the query up to the commit. `_utcnow()` is read here,
and so is the time that a new row gets by default. -/
def decides (update_id : Int) (allow_reclaim : Bool) (existing : Option TelegramUpdateLog)
    (now : Int) : Call :=
  match existing with
  | some existing =>
    if existing.status = .completed then .answered (some false)
    else if allow_reclaim then .answered (some true)
    else if stuck existing now then .reclaims update_id existing now
    else .answered (some false)
  | none => .inserts update_id allow_reclaim ⟨.processing, now⟩

def _mark_update_completed_by_id (update_id : Option Int) (logs : Logs) : Call :=
  match update_id with
  | none => .answered none
  | some update_id =>
    match logs update_id with
    | some _ => .completes update_id
    | none => .answered none

/-- The call goes on with the answer of its query. -/
def Call.checked (now : Int) : Call → Call
  | .claims update_id allow_reclaim existing => decides update_id allow_reclaim existing now
  | call => call

/-- The commit of a call, with its end. An update writes the columns that have
changed and no other: a re-claim leaves the status alone. -/
def Call.committed (logs : Logs) : Call → Call × Logs
  | .inserts update_id _ log =>
    match logs update_id with
    | some _ => (.answered (some false), logs)
    | none => (.answered (some true), Function.update logs update_id (some log))
  | .reclaims update_id _ now =>
    match logs update_id with
    | some log =>
      (.answered (some true), Function.update logs update_id (some { log with created_at := now }))
    | none => (.answered none, logs)
  | .completes update_id =>
    match logs update_id with
    | some log =>
      (.answered none, Function.update logs update_id (some { log with status := .completed }))
    | none => (.answered none, logs)
  | call => (call, logs)

/-! ## The workers -/

structure Workers where
  logs : Logs
  clock : Int
  calls : List Call := []

inductive Event where
  | tick (n : Nat)
  | claim (update_id : Option Int) (allow_reclaim : Bool)
  | mark (update_id : Option Int)
  | check (i : Nat)
  | commit (i : Nat)
  | crash (i : Nat)
deriving DecidableEq, Repr

def step (w : Workers) : Event → Workers
  | .tick n => { w with clock := w.clock + n }
  | .claim update_id allow_reclaim =>
    { w with calls := w.calls ++ [_claim_update_once update_id allow_reclaim w.logs] }
  | .mark update_id =>
    { w with calls := w.calls ++ [_mark_update_completed_by_id update_id w.logs] }
  | .check i =>
    match w.calls[i]? with
    | some call => { w with calls := w.calls.set i (call.checked w.clock) }
    | none => w
  | .commit i =>
    match w.calls[i]? with
    | some call =>
      { w with logs := (call.committed w.logs).2,
               calls := w.calls.set i (call.committed w.logs).1 }
    | none => w
  | .crash i => { w with calls := w.calls.set i (.answered none) }

/-- A call that asks for the update, of a caller that does not re-claim. -/
def Call.AsksFor (update_id : Int) : Call → Prop
  | .claims u allow_reclaim _ => u = update_id ∧ allow_reclaim = false
  | .inserts u allow_reclaim _ => u = update_id ∧ allow_reclaim = false
  | .reclaims u _ _ => u = update_id
  | _ => False

/-- A caller that does not re-claim gets `True` in this step. -/
def Grants (update_id : Int) (w : Workers) (e : Event) : Prop :=
  ∃ (i : Nat) (call : Call), w.calls[i]? = some call ∧ call.AsksFor update_id ∧
    (step w e).calls[i]? = some (.answered (some true))

/-- The update is older than the threshold. -/
def Older (update_id : Int) (w : Workers) : Prop :=
  ∃ log, w.logs update_id = some log ∧ w.clock - log.created_at > fifteen_minutes

def Completed (update_id : Int) (w : Workers) : Prop :=
  ∃ log, w.logs update_id = some log ∧ log.status = .completed

/-- Between two grants there is a moment at which the update is older than the
threshold. There is no grant after the update was marked. -/
def HandledAtMostOnce (update_id : Int) (w : Workers) (es : List Event) : Prop :=
  (∀ pre e mid e' post, es = pre ++ e :: (mid ++ e' :: post) →
    Grants update_id (after step w pre) e →
    Grants update_id (after step w (pre ++ e :: mid)) e' →
    ∃ m₁ m₂, mid = m₁ ++ m₂ ∧ Older update_id (after step w (pre ++ e :: m₁))) ∧
  ∀ m₁ m₂ e post, es = m₁ ++ (m₂ ++ e :: post) → Completed update_id (after step w m₁) →
    ¬Grants update_id (after step w (m₁ ++ m₂)) e

/-- The workers before any call. -/
def start (logs : Logs) (clock : Int) : Workers := { logs, clock }

/-- A re-claim commits while the row is still stuck. -/
def ReclaimsStuck (update_id : Int) (w : Workers) : Event → Prop
  | .commit i => ∀ existing now, w.calls[i]? = some (.reclaims update_id existing now) →
      ∃ log, w.logs update_id = some log ∧ stuck log w.clock
  | _ => True

/-! ## What a step does -/

section
variable {update_id : Int} {w : Workers} {e : Event}

/-- A caller that does not re-claim gets `True` at no look. -/
theorem decides_grants_nothing (existing : Option TelegramUpdateLog) (now : Int) :
    decides update_id false existing now ≠ .answered (some true) := by
  unfold decides
  cases existing with
  | none => simp
  | some existing =>
    simp only [Bool.false_eq_true, if_false]
    split
    · simp
    · split <;> simp

theorem checked_grants_nothing {call : Call} (h : call.AsksFor update_id) (now : Int) :
    call.checked now ≠ .answered (some true) := by
  cases call with
  | claims u allow_reclaim existing =>
    obtain ⟨rfl, rfl⟩ := h
    exact decides_grants_nothing existing now
  | inserts u allow_reclaim log => simp [Call.checked]
  | reclaims u existing now => simp [Call.checked]
  | completes u => exact h.elim
  | answered answer => exact h.elim

/-- A grant is the commit of a first claim, or of a re-claim. -/
theorem grants_cases (h : Grants update_id w e) : ∃ i, e = .commit i ∧
    ((∃ log, w.calls[i]? = some (.inserts update_id false log) ∧ w.logs update_id = none) ∨
      ∃ existing now log, w.calls[i]? = some (.reclaims update_id existing now) ∧
        w.logs update_id = some log) := by
  obtain ⟨i, call, hcall, hasks, hanswer⟩ := h
  have hi : i < w.calls.length := (List.getElem?_eq_some_iff.mp hcall).1
  -- A call that is as it was has no answer.
  have hsame : ¬w.calls[i]? = some (.answered (some true)) := by
    intro hover
    rw [hcall, Option.some.injEq] at hover
    rw [hover] at hasks
    exact hasks
  cases e with
  | tick n => exact absurd hanswer hsame
  | claim u allow_reclaim =>
    simp only [step, List.getElem?_append_left hi] at hanswer
    exact absurd hanswer hsame
  | mark u =>
    simp only [step, List.getElem?_append_left hi] at hanswer
    exact absurd hanswer hsame
  | check j =>
    by_cases hij : j = i
    · subst hij
      simp only [step, hcall, List.getElem?_set_self hi, Option.some.injEq] at hanswer
      exact absurd hanswer (checked_grants_nothing hasks w.clock)
    · simp only [step] at hanswer
      split at hanswer
      · rw [List.getElem?_set_ne hij] at hanswer
        exact absurd hanswer hsame
      · exact absurd hanswer hsame
  | crash j =>
    simp only [step] at hanswer
    by_cases hij : j = i
    · subst hij
      rw [List.getElem?_set_self hi] at hanswer
      simp at hanswer
    · rw [List.getElem?_set_ne hij] at hanswer
      exact absurd hanswer hsame
  | commit j =>
    by_cases hij : j = i
    · subst hij
      refine ⟨j, rfl, ?_⟩
      simp only [step, hcall, List.getElem?_set_self hi, Option.some.injEq] at hanswer
      cases call with
      | claims u allow_reclaim existing => cases hanswer
      | inserts u allow_reclaim log =>
        obtain ⟨rfl, rfl⟩ := hasks
        refine .inl ⟨log, hcall, ?_⟩
        cases hrow : w.logs u with
        | none => rfl
        | some row =>
          simp only [Call.committed, hrow] at hanswer
          simp at hanswer
      | reclaims u existing now =>
        obtain rfl : u = update_id := hasks
        refine .inr ?_
        cases hrow : w.logs u with
        | none =>
          simp only [Call.committed, hrow] at hanswer
          simp at hanswer
        | some row => exact ⟨existing, now, row, hcall, rfl⟩
      | completes u => exact hasks.elim
      | answered answer => exact hasks.elim
    · simp only [step] at hanswer
      split at hanswer
      · rw [List.getElem?_set_ne hij] at hanswer
        exact absurd hanswer hsame
      · exact absurd hanswer hsame

/-- The commit of a re-claim is a grant, stuck or not. -/
theorem grants_reclaim {i : Nat} {existing log : TelegramUpdateLog} {now : Int}
    (hcall : w.calls[i]? = some (.reclaims update_id existing now))
    (hlog : w.logs update_id = some log) : Grants update_id w (.commit i) := by
  have hi : i < w.calls.length := (List.getElem?_eq_some_iff.mp hcall).1
  refine ⟨i, _, hcall, rfl, ?_⟩
  simp only [step, hcall, Call.committed, hlog, List.getElem?_set_self hi]

theorem clock_step (w : Workers) (e : Event) : w.clock ≤ (step w e).clock := by
  cases e with
  | tick n =>
    simp only [step]
    omega
  | claim u allow_reclaim => exact Int.le_refl _
  | mark u => exact Int.le_refl _
  | check i | commit i =>
    simp only [step]
    split <;> exact Int.le_refl _
  | crash i => exact Int.le_refl _

/-- What a commit does to a row that is there: the status stays completed, and
a new `created_at` comes from a re-claim. -/
theorem row_committed (call : Call) {log : TelegramUpdateLog} {logs : Logs}
    (hlog : logs update_id = some log) :
    ∃ log', (call.committed logs).2 update_id = some log' ∧
      (log.status = .completed → log'.status = .completed) ∧
      (log'.created_at = log.created_at ∨
        ∃ existing now, call = .reclaims update_id existing now) := by
  cases call with
  | claims u allow_reclaim existing => exact ⟨log, hlog, id, .inl rfl⟩
  | answered answer => exact ⟨log, hlog, id, .inl rfl⟩
  | inserts u allow_reclaim row =>
    simp only [Call.committed]
    cases hrow : logs u with
    | some old => exact ⟨log, hlog, id, .inl rfl⟩
    | none =>
      have hne : update_id ≠ u := by
        rintro rfl
        rw [hlog] at hrow
        cases hrow
      refine ⟨log, ?_, id, .inl rfl⟩
      simp only [Function.update_of_ne hne, hlog]
  | reclaims u existing now =>
    simp only [Call.committed]
    cases hrow : logs u with
    | none => exact ⟨log, hlog, id, .inl rfl⟩
    | some old =>
      by_cases hu : update_id = u
      · subst hu
        rw [hlog, Option.some.injEq] at hrow
        subst hrow
        exact ⟨_, Function.update_self .., id, .inr ⟨existing, now, rfl⟩⟩
      · refine ⟨log, ?_, id, .inl rfl⟩
        simp only [Function.update_of_ne hu, hlog]
  | completes u =>
    simp only [Call.committed]
    cases hrow : logs u with
    | none => exact ⟨log, hlog, id, .inl rfl⟩
    | some old =>
      by_cases hu : update_id = u
      · subst hu
        rw [hlog, Option.some.injEq] at hrow
        subst hrow
        exact ⟨_, Function.update_self .., fun _ => rfl, .inl rfl⟩
      · refine ⟨log, ?_, id, .inl rfl⟩
        simp only [Function.update_of_ne hu, hlog]

theorem row_step {log : TelegramUpdateLog} (hlog : w.logs update_id = some log) (e : Event) :
    ∃ log', (step w e).logs update_id = some log' ∧
      (log.status = .completed → log'.status = .completed) ∧
      (log'.created_at = log.created_at ∨ Grants update_id w e) := by
  cases e with
  | tick n => exact ⟨log, hlog, id, .inl rfl⟩
  | claim u allow_reclaim => exact ⟨log, hlog, id, .inl rfl⟩
  | mark u => exact ⟨log, hlog, id, .inl rfl⟩
  | crash i => exact ⟨log, hlog, id, .inl rfl⟩
  | check i =>
    simp only [step]
    split <;> exact ⟨log, hlog, id, .inl rfl⟩
  | commit i =>
    cases hcall : w.calls[i]? with
    | none =>
      simp only [step, hcall]
      exact ⟨log, hlog, id, .inl rfl⟩
    | some call =>
      obtain ⟨log', hlog', hstatus, hcreated⟩ := row_committed call hlog
      refine ⟨log', by simp only [step, hcall, hlog'], hstatus, ?_⟩
      rcases hcreated with hcreated | ⟨existing, now, rfl⟩
      · exact .inl hcreated
      · exact .inr (grants_reclaim hcall hlog)

theorem grants_row (h : Grants update_id w e) : ∃ log, (step w e).logs update_id = some log := by
  obtain ⟨i, rfl, ⟨log, hcall, hnone⟩ | ⟨existing, now, log, hcall, hlog⟩⟩ := grants_cases h
  · refine ⟨log, ?_⟩
    simp only [step, hcall, Call.committed, hnone, Function.update_self]
  · obtain ⟨log', hlog', -⟩ := row_step hlog (.commit i)
    exact ⟨log', hlog'⟩

/-! ## What a run does -/

theorem clock_after (w : Workers) (es : List Event) : w.clock ≤ (after step w es).clock := by
  induction es generalizing w with
  | nil => exact Int.le_refl _
  | cons e es ih => exact Int.le_trans (clock_step w e) (ih (step w e))

theorem row_after {log : TelegramUpdateLog} (hlog : w.logs update_id = some log)
    (es : List Event) : ∃ log', (after step w es).logs update_id = some log' := by
  induction es generalizing w log with
  | nil => exact ⟨log, hlog⟩
  | cons e es ih =>
    obtain ⟨log', hlog', -⟩ := row_step hlog e
    exact ih hlog'

/-- What was marked stays marked. -/
theorem completed_after (h : Completed update_id w) (es : List Event) :
    Completed update_id (after step w es) := by
  induction es generalizing w with
  | nil => exact h
  | cons e es ih =>
    obtain ⟨log, hlog, hstatus⟩ := h
    obtain ⟨log', hlog', hkeeps, -⟩ := row_step hlog e
    exact ih ⟨log', hlog', hkeeps hstatus⟩

/-- A grant is a first claim or finds the row stuck. -/
theorem grant_stuck (hfit : ReclaimsStuck update_id w e) (h : Grants update_id w e) :
    w.logs update_id = none ∨ ∃ log, w.logs update_id = some log ∧ stuck log w.clock := by
  obtain ⟨i, rfl, ⟨log, hcall, hnone⟩ | ⟨existing, now, log, hcall, hlog⟩⟩ := grants_cases h
  · exact .inl hnone
  · exact .inr (hfit existing now hcall)

theorem handled_at_most_once_of_stuck {es : List Event}
    (h : Each step (ReclaimsStuck update_id) w es) : HandledAtMostOnce update_id w es := by
  rw [each_iff] at h
  constructor
  · rintro pre e mid e' post hes hgrant hgrant'
    have hfit := h (pre ++ e :: mid) e' post (by rw [hes]; simp)
    refine ⟨mid, [], by simp, ?_⟩
    rcases grant_stuck hfit hgrant' with hnone | ⟨log, hlog, hstuck⟩
    · -- The first of the two grants has left a row.
      obtain ⟨log, hlog⟩ := grants_row hgrant
      obtain ⟨log', hlog'⟩ := row_after hlog mid
      rw [after_append, after_cons, hlog'] at hnone
      cases hnone
    · exact ⟨log, hlog, hstuck.2⟩
  · rintro m₁ m₂ e post hes hcompleted hgrant
    have hfit := h (m₁ ++ m₂) e post (by rw [hes]; simp)
    obtain ⟨row, hrow, hstatus⟩ := completed_after hcompleted m₂
    rw [← after_append] at hrow
    rcases grant_stuck hfit hgrant with hnone | ⟨log, hlog, hstuck⟩
    · rw [hrow] at hnone
      cases hnone
    · rw [hrow, Option.some.injEq] at hlog
      rw [← hlog] at hstuck
      rw [hstuck.1] at hstatus
      cases hstatus

/-! ## What a re-claim has seen -/

/-- Since some grant the row has had this `created_at`. -/
def SinceGrant (update_id : Int) (w : Workers) (es : List Event) (created_at : Int) : Prop :=
  ∃ pre e mid, es = pre ++ e :: mid ∧ Grants update_id (after step w pre) e ∧
    ∀ m₁ m₂, mid = m₁ ++ m₂ → ∃ log, (after step w (pre ++ e :: m₁)).logs update_id = some log ∧
      log.created_at = created_at

/-- The row is there, and unless it is as old as the one that was seen, a
grant has renewed it. -/
def Follows (update_id : Int) (w : Workers) (es : List Event) (seen : TelegramUpdateLog) : Prop :=
  ∃ log, (after step w es).logs update_id = some log ∧
    (log.created_at = seen.created_at ∨ SinceGrant update_id w es log.created_at)

theorem after_snoc (es : List Event) : after step w (es ++ [e]) = step (after step w es) e := by
  rw [after_append, after_cons, after_nil]

theorem sinceGrant_snoc {es : List Event} {log log' : TelegramUpdateLog}
    (h : SinceGrant update_id w es log.created_at)
    (hlog' : (step (after step w es) e).logs update_id = some log')
    (hsame : log'.created_at = log.created_at) :
    SinceGrant update_id w (es ++ [e]) log'.created_at := by
  obtain ⟨pre, g, mid, rfl, hgrant, hrow⟩ := h
  refine ⟨pre, g, mid ++ [e], by simp, hgrant, fun m₁ m₂ hmid => ?_⟩
  rcases List.eq_nil_or_concat m₂ with rfl | ⟨m₃, x, rfl⟩
  · rw [List.append_nil] at hmid
    subst hmid
    refine ⟨log', ?_, rfl⟩
    rw [← hlog', ← after_snoc]
    simp
  · rw [List.concat_eq_append, ← List.append_assoc] at hmid
    obtain ⟨log₁, hlog₁, hcreated⟩ := hrow m₁ m₃ (List.append_inj' hmid rfl).1
    exact ⟨log₁, hlog₁, hcreated.trans hsame.symm⟩

theorem follows_snoc {es : List Event} {seen : TelegramUpdateLog}
    (h : Follows update_id w es seen) (e : Event) : Follows update_id w (es ++ [e]) seen := by
  obtain ⟨log, hlog, hold⟩ := h
  obtain ⟨log', hlog', -, hcreated⟩ := row_step hlog e
  refine ⟨log', by rw [after_snoc, hlog'], ?_⟩
  rcases hcreated with hsame | hgrant
  · rcases hold with hold | hold
    · exact .inl (hsame.trans hold)
    · exact .inr (sinceGrant_snoc hold hlog' hsame)
  · refine .inr ⟨es, e, [], rfl, hgrant, fun m₁ m₂ hnil => ?_⟩
    obtain ⟨rfl, -⟩ := List.append_eq_nil_iff.mp hnil.symm
    exact ⟨log', by rw [after_snoc, hlog'], rfl⟩

/-- What a call has seen of the row has the property. A re-claim has seen it
stuck. -/
def Call.Saw (update_id : Int) (P : TelegramUpdateLog → Prop) (clock : Int) : Call → Prop
  | .claims u _ (some existing) => u = update_id → P existing
  | .reclaims u existing now => u = update_id → P existing ∧ stuck existing now ∧ now ≤ clock
  | _ => True

variable {P Q : TelegramUpdateLog → Prop} {call : Call} {clock clock' : Int}

theorem Call.Saw.mono (h : call.Saw update_id P clock) (hPQ : ∀ seen, P seen → Q seen)
    (hclock : clock ≤ clock') : call.Saw update_id Q clock' := by
  cases call with
  | claims u allow_reclaim existing =>
    cases existing with
    | none => trivial
    | some existing => exact fun hu => hPQ existing (h hu)
  | reclaims u existing now =>
    intro hu
    obtain ⟨hseen, hstuck, hnow⟩ := h hu
    exact ⟨hPQ existing hseen, hstuck, Int.le_trans hnow hclock⟩
  | inserts u allow_reclaim log => trivial
  | completes u => trivial
  | answered answer => trivial

theorem saw_decides {u : Int} {allow_reclaim : Bool} {existing : Option TelegramUpdateLog}
    (h : (Call.claims u allow_reclaim existing).Saw update_id P clock) :
    (decides u allow_reclaim existing clock).Saw update_id P clock := by
  unfold decides
  cases existing with
  | none => trivial
  | some existing =>
    simp only
    split
    · trivial
    · split
      · trivial
      · split
        · next hstuck => exact fun hu => ⟨h hu, hstuck, Int.le_refl _⟩
        · trivial

theorem saw_committed (h : call.Saw update_id P clock) (logs : Logs) :
    (call.committed logs).1.Saw update_id P clock := by
  cases call with
  | claims u allow_reclaim existing => exact h
  | answered answer => trivial
  | inserts u allow_reclaim log | reclaims u existing now | completes u =>
    simp only [Call.committed]
    split <;> trivial

theorem saw_step (hrow : ∀ log, w.logs update_id = some log → P log)
    (h : ∀ call ∈ w.calls, call.Saw update_id P w.clock) (e : Event) :
    ∀ call ∈ (step w e).calls, call.Saw update_id P w.clock := by
  intro call hmem
  cases e with
  | tick n => exact h call hmem
  | claim u allow_reclaim =>
    rcases List.mem_append.mp hmem with hmem | hmem
    · exact h call hmem
    · obtain rfl := List.mem_singleton.mp hmem
      cases u with
      | none => trivial
      | some u =>
        simp only [_claim_update_once]
        cases hlog : w.logs u with
        | none => trivial
        | some log =>
          rintro rfl
          exact hrow log hlog
  | mark u =>
    rcases List.mem_append.mp hmem with hmem | hmem
    · exact h call hmem
    · obtain rfl := List.mem_singleton.mp hmem
      unfold _mark_update_completed_by_id
      cases u with
      | none => trivial
      | some u =>
        simp only
        split <;> trivial
  | check i =>
    simp only [step] at hmem
    split at hmem
    · next old hold =>
      rcases List.mem_or_eq_of_mem_set hmem with hmem | rfl
      · exact h call hmem
      · have hsaw := h old (List.mem_of_getElem? hold)
        cases old with
        | claims u allow_reclaim existing => exact saw_decides hsaw
        | inserts u allow_reclaim log => trivial
        | reclaims u existing now => exact hsaw
        | completes u => trivial
        | answered answer => trivial
    · exact h call hmem
  | commit i =>
    simp only [step] at hmem
    split at hmem
    · next old hold =>
      rcases List.mem_or_eq_of_mem_set hmem with hmem | rfl
      · exact h call hmem
      · exact saw_committed (h old (List.mem_of_getElem? hold)) w.logs
    · exact h call hmem
  | crash i =>
    rcases List.mem_or_eq_of_mem_set hmem with hmem | rfl
    · exact h call hmem
    · trivial

/-- Each row that a call has seen is followed by the one that is there. -/
theorem saw_after (hcalls : w.calls = []) (es : List Event) :
    ∀ call ∈ (after step w es).calls,
      call.Saw update_id (Follows update_id w es) (after step w es).clock := by
  induction es using List.reverseRecOn with
  | nil => simp [hcalls]
  | append_singleton es e ih =>
    have hrow : ∀ log, (after step w es).logs update_id = some log → Follows update_id w es log :=
      fun log hlog => ⟨log, hlog, .inl rfl⟩
    rw [after_snoc]
    intro call hmem
    exact (saw_step hrow ih e call hmem).mono (fun seen hseen => follows_snoc hseen e)
      (clock_step _ e)

theorem stuck_of_handled_at_most_once (hcalls : w.calls = []) {es : List Event}
    (h : HandledAtMostOnce update_id w es) : Each step (ReclaimsStuck update_id) w es := by
  obtain ⟨hbetween, hmarked⟩ := h
  rw [each_iff]
  intro pre e post hes
  cases e with
  | tick n => trivial
  | claim u allow_reclaim => trivial
  | mark u => trivial
  | check i => trivial
  | crash i => trivial
  | commit i =>
    intro existing now hcall
    obtain ⟨⟨log, hlog, hcreated⟩, hstuck, hnow⟩ :=
      saw_after hcalls pre _ (List.mem_of_getElem? hcall) rfl
    have hgrant : Grants update_id (after step w pre) (.commit i) := grants_reclaim hcall hlog
    refine ⟨log, hlog, ?_, ?_⟩
    · cases hstatus : log.status with
      | processing => rfl
      | completed =>
        refine absurd ?_ (hmarked pre [] (.commit i) post (by simpa using hes)
          ⟨log, hlog, hstatus⟩)
        rwa [List.append_nil]
    · rcases hcreated with hsame | ⟨pre₁, g, mid, hpre, hgrant₁, hrow⟩
      · -- Nobody has renewed the row since it was seen.
        have hage : now - existing.created_at > fifteen_minutes := hstuck.2
        omega
      · -- The last grant has renewed it, and it has aged since then.
        have hgrant₂ : Grants update_id (after step w (pre₁ ++ g :: mid)) (.commit i) := by
          rwa [← hpre]
        obtain ⟨m₁, m₂, hmid, log₁, hlog₁, hage⟩ :=
          hbetween pre₁ g mid (.commit i) post (by rw [hes, hpre]; simp) hgrant₁ hgrant₂
        obtain ⟨log₂, hlog₂, hsame⟩ := hrow m₁ m₂ hmid
        rw [hlog₁, Option.some.injEq] at hlog₂
        subst hlog₂
        have hclock := clock_after (after step w (pre₁ ++ g :: m₁)) m₂
        rw [← after_append, List.append_assoc, List.cons_append, ← hmid, ← hpre] at hclock
        omega

end

/-! ## The law -/

/-- LAW: whatever the workers do and in whatever order, an update is handled
at most once between two moments at which it is older than the threshold, and
not after it was marked, exactly when each re-claim commits while the row is
still stuck. -/
theorem an_update_is_handled_once_iff_reclaims_find_it_stuck (logs : Logs) (clock update_id : Int)
    (es : List Event) : HandledAtMostOnce update_id (start logs clock) es ↔
      Each step (ReclaimsStuck update_id) (start logs clock) es :=
  ⟨stuck_of_handled_at_most_once rfl, handled_at_most_once_of_stuck⟩

/-- One worker claims an update and dies. Sixteen minutes later two workers
look at the row before either of them has committed. -/
def two_reclaims : List Event :=
  [.claim (some 7) false, .check 0, .commit 0, .tick 960000000, .claim (some 7) false,
    .claim (some 7) false, .check 1, .check 2, .commit 1, .commit 2]

/-- LAW: two workers handle the update at the same time. -/
theorem two_workers_reclaim_one_update :
    ¬HandledAtMostOnce 7 (start (fun _ => none) 0) two_reclaims := by
  rintro ⟨hbetween, -⟩
  have h₁ : Grants 7 (after step (start (fun _ => none) 0) (two_reclaims.take 8)) (.commit 1) :=
    ⟨1, .reclaims 7 ⟨.processing, 0⟩ 960000000, rfl, rfl, rfl⟩
  have h₂ : Grants 7 (after step (start (fun _ => none) 0) (two_reclaims.take 8 ++ [.commit 1]))
      (.commit 2) :=
    ⟨2, .reclaims 7 ⟨.processing, 0⟩ 960000000, rfl, rfl, rfl⟩
  obtain ⟨m₁, m₂, hnil, log, hlog, hage⟩ :=
    hbetween (two_reclaims.take 8) (.commit 1) [] (.commit 2) [] rfl h₁ h₂
  obtain ⟨rfl, -⟩ := List.append_eq_nil_iff.mp hnil.symm
  cases hlog
  revert hage
  decide

end dr_boz.update_claims
