-- Programs over a store, as an ORM session runs them. A session reads the
-- store through its own changes, and a commit publishes these changes. The
-- same program runs alone here, and step by step among others in
-- `Interleaving`.
import Mathlib.Data.List.Basic

namespace unit_of_work

/-- A store, the changes that can be written to it, its unique constraints
(`admits`), and the error of a change that breaks one. -/
class Store (σ : Type) (δ ε : outParam Type) where
  apply : σ → δ → σ
  admits : σ → δ → Bool
  conflict : ε

/-- A program of a session. `query` reads the session's view of the store,
`write` flushes a change, `commit` publishes what was flushed. -/
inductive Prog (σ δ ε α : Type) : Type 1 where
  | ret (a : α)
  | raise (e : ε)
  | query {β : Type} (f : σ → β) (k : β → Prog σ δ ε α)
  | write (c : δ) (k : Prog σ δ ε α)
  | commit (k : Prog σ δ ε α)

/-- What is published, and what the session sees: the published store with
the changes that wait for a commit. -/
structure Session (σ : Type) where
  stored : σ
  view : σ
deriving DecidableEq

namespace Session
variable {σ : Type}

def opened (s : σ) : Session σ := ⟨s, s⟩

@[simp] theorem view_opened (s : σ) : (opened s).view = s := rfl

@[simp] theorem stored_opened (s : σ) : (opened s).stored = s := rfl

def commit (s : Session σ) : Session σ := ⟨s.view, s.view⟩

/-- Drops the changes that wait for a commit. -/
def rollback (s : Session σ) : Session σ := ⟨s.stored, s.stored⟩

/-- Publishes when the flag is set. -/
def commitIf (b : Bool) (s : Session σ) : Session σ := if b then s.commit else s

@[simp] theorem view_commitIf (b : Bool) (s : Session σ) : (s.commitIf b).view = s.view := by
  cases b <;> rfl

theorem stored_commitIf (b : Bool) (s : Session σ) :
    (s.commitIf b).stored = if b then s.view else s.stored := by
  cases b <;> rfl

/-- The session publishes, or else its caller does. -/
theorem stored_commitIf_or_caller (b : Bool) (s : Session σ) :
    ((s.commitIf b).commitIf !b).stored = s.view := by
  cases b <;> rfl

end Session

namespace Prog
variable {σ δ ε α β : Type}

def bind : Prog σ δ ε α → (α → Prog σ δ ε β) → Prog σ δ ε β
  | .ret a, f => f a
  | .raise e, _ => .raise e
  | .query q k, f => .query q fun b => (k b).bind f
  | .write c k, f => .write c (k.bind f)
  | .commit k, f => .commit (k.bind f)

instance : Monad (Prog σ δ ε) where
  pure := .ret
  bind := bind

def throw (e : ε) : Prog σ δ ε α := .raise e

def read (f : σ → α) : Prog σ δ ε α := .query f .ret

def flush (c : δ) : Prog σ δ ε Unit := .write c (.ret ())

def publish : Prog σ δ ε Unit := .commit (.ret ())

def publishIf (b : Bool) : Prog σ δ ε Unit := if b then publish else .ret ()

/-- A pure computation that can raise. -/
def lift : Except ε α → Prog σ δ ε α
  | .ok a => .ret a
  | .error e => .raise e

/-- Hands an exception of the program over as a value. A broken constraint is
not among them: it ends the session. -/
def attempt : Prog σ δ ε α → Prog σ δ ε (Except ε α)
  | .ret a => .ret (.ok a)
  | .raise e => .ret (.error e)
  | .query q k => .query q fun b => (k b).attempt
  | .write c k => .write c k.attempt
  | .commit k => .commit k.attempt

/-! ## A run in one session -/

variable [Store σ δ ε]

/-- Runs the program in a session that nothing else interrupts. An exception
leaves the session as it is: the caller rolls it back or goes on with it. A
broken constraint rolls it back. -/
def run : Prog σ δ ε α → Session σ → Except ε α × Session σ
  | .ret a, s => (.ok a, s)
  | .raise e, s => (.error e, s)
  | .query q k, s => (k (q s.view)).run s
  | .write c k, s =>
    if Store.admits s.view c then k.run ⟨s.stored, Store.apply s.view c⟩
    else (.error (Store.conflict σ), s.rollback)
  | .commit k, s => k.run s.commit

/-- The changes that a run sends to the database, in their order. -/
def sent : Prog σ δ ε α → Session σ → List δ
  | .ret _, _ => []
  | .raise _, _ => []
  | .query q k, s => (k (q s.view)).sent s
  | .write c k, s =>
    if Store.admits s.view c then c :: k.sent ⟨s.stored, Store.apply s.view c⟩ else []
  | .commit k, s => k.sent s.commit

/-- The rest of a program after one part of it has run. -/
def continueWith (f : α → Prog σ δ ε β) : Except ε α × Session σ → Except ε β × Session σ
  | (.ok a, s) => (f a).run s
  | (.error e, s) => (.error e, s)

@[simp] theorem continueWith_ok (f : α → Prog σ δ ε β) (a : α) (s : Session σ) :
    continueWith f (.ok a, s) = (f a).run s := rfl

@[simp] theorem continueWith_error (f : α → Prog σ δ ε β) (e : ε) (s : Session σ) :
    continueWith f (.error e, s) = (.error e, s) := rfl

@[simp] theorem run_bind (x : Prog σ δ ε α) (f : α → Prog σ δ ε β) (s : Session σ) :
    (x >>= f).run s = continueWith f (x.run s) := by
  change (x.bind f).run s = _
  induction x generalizing s with
  | ret a => rfl
  | raise e => rfl
  | query q k ih => exact ih _ s
  | write c k ih =>
    simp only [bind, run]
    split
    · exact ih _
    · rfl
  | commit k ih => exact ih _

theorem sent_bind (x : Prog σ δ ε α) (f : α → Prog σ δ ε β) (s : Session σ) :
    (x >>= f).sent s = x.sent s ++
      match x.run s with
      | (.ok a, t) => (f a).sent t
      | (.error _, _) => [] := by
  change (x.bind f).sent s = _
  induction x generalizing s with
  | ret a => rfl
  | raise e => rfl
  | query q k ih => exact ih _ s
  | write c k ih =>
    simp only [bind, run, sent]
    split
    · rw [ih, List.cons_append]
    · rfl
  | commit k ih => exact ih _

@[simp] theorem run_pure (a : α) (s : Session σ) :
    (Pure.pure a : Prog σ δ ε α).run s = (.ok a, s) := rfl

@[simp] theorem run_throw (e : ε) (s : Session σ) :
    (throw e : Prog σ δ ε α).run s = (.error e, s) := rfl

@[simp] theorem run_read (f : σ → α) (s : Session σ) :
    (read f : Prog σ δ ε α).run s = (.ok (f s.view), s) := rfl

@[simp] theorem sent_pure (a : α) (s : Session σ) :
    (Pure.pure a : Prog σ δ ε α).sent s = [] := rfl

@[simp] theorem sent_throw (e : ε) (s : Session σ) :
    (throw e : Prog σ δ ε α).sent s = [] := rfl

@[simp] theorem sent_read (f : σ → α) (s : Session σ) :
    (read f : Prog σ δ ε α).sent s = [] := rfl

theorem run_flush (c : δ) (s : Session σ) :
    (flush c : Prog σ δ ε Unit).run s =
      if Store.admits s.view c then (.ok (), ⟨s.stored, Store.apply s.view c⟩)
      else (.error (Store.conflict σ), s.rollback) := rfl

@[simp] theorem run_publish (s : Session σ) :
    (publish : Prog σ δ ε Unit).run s = (.ok (), s.commit) := rfl

@[simp] theorem run_publishIf (b : Bool) (s : Session σ) :
    (publishIf b : Prog σ δ ε Unit).run s = (.ok (), s.commitIf b) := by
  cases b <;> rfl

@[simp] theorem run_lift_ok (a : α) (s : Session σ) :
    (lift (.ok a) : Prog σ δ ε α).run s = (.ok a, s) := rfl

@[simp] theorem run_lift_error (e : ε) (s : Session σ) :
    (lift (.error e) : Prog σ δ ε α).run s = (.error e, s) := rfl

/-- A last step that only looks at the result leaves the session. -/
theorem session_continue (f : α → β) (x : Except ε α × Session σ) :
    (continueWith (fun a => (Pure.pure (f a) : Prog σ δ ε β)) x).2 = x.2 := by
  obtain ⟨r, s⟩ := x
  cases r <;> rfl

/-- Only a broken constraint is not handed over. -/
theorem run_attempt {x : Prog σ δ ε α} {s : Session σ}
    (h : (x.run s).1 ≠ .error (Store.conflict σ)) :
    x.attempt.run s = (.ok (x.run s).1, (x.run s).2) := by
  induction x generalizing s with
  | ret a => rfl
  | raise e => rfl
  | query q k ih => exact ih _ h
  | write c k ih =>
    simp only [attempt, run] at h ⊢
    split
    · rename_i hc
      rw [if_pos hc] at h
      exact ih h
    · rename_i hc
      rw [if_neg hc] at h
      exact absurd rfl h
  | commit k ih => exact ih h

/-- Handing an exception over leaves the session where it was raised. -/
theorem session_attempt (x : Prog σ δ ε α) (s : Session σ) :
    (x.attempt.run s).2 = (x.run s).2 := by
  induction x generalizing s with
  | ret a | raise e => rfl
  | query q k ih => exact ih _ s
  | write c k ih =>
    simp only [attempt, run]
    split
    · exact ih _
    · rfl
  | commit k ih => exact ih s.commit

/-- A pure end of a program leaves the session. -/
theorem session_lift (f : α → Except ε β) (x : Except ε α × Session σ) :
    (continueWith (fun a => (lift (f a) : Prog σ δ ε β)) x).2 = x.2 := by
  obtain ⟨r, s⟩ := x
  cases r with
  | error e => rfl
  | ok a =>
    rw [continueWith_ok]
    cases f a <;> rfl

/-- A run that hands a value over has broken no constraint: what every change
keeps holds of its view. -/
theorem view_keeps {I : σ → Prop} (hI : ∀ s c, I s → I (Store.apply s c)) {x : Prog σ δ ε α}
    {s t : Session σ} {a : α} (h : x.run s = (.ok a, t)) (hs : I s.view) : I t.view := by
  induction x generalizing s with
  | ret a =>
    cases h
    exact hs
  | raise e => cases h
  | query q k ih => exact ih _ h hs
  | write c k ih =>
    simp only [run] at h
    split at h
    · exact ih h (hI _ _ hs)
    · cases h
  | commit k ih => exact ih h hs

end Prog

/-! ## Trails -/

/-- A session that moves by steps of a relation, commits and rollbacks. Each
step changes the view only. -/
inductive Trail {σ : Type} (A : σ → σ → Prop) : Session σ → Session σ → Prop where
  | refl (s : Session σ) : Trail A s s
  | step {s t : Session σ} {v : σ} : Trail A s t → A t.view v → Trail A s ⟨t.stored, v⟩
  | commit {s t : Session σ} : Trail A s t → Trail A s t.commit
  | rollback {s t : Session σ} : Trail A s t → Trail A s t.rollback

namespace Trail
variable {σ : Type} {A B : σ → σ → Prop} {s t u : Session σ}

theorem commitIf (b : Bool) (h : Trail A s t) : Trail A s (t.commitIf b) := by
  cases b
  · exact h
  · exact h.commit

theorem trans (h : Trail A s t) (h' : Trail A t u) : Trail A s u := by
  induction h' with
  | refl => exact h
  | step _ ha ih => exact ih.step ha
  | commit _ ih => exact ih.commit
  | rollback _ ih => exact ih.rollback

theorem mono (hAB : ∀ a b, A a b → B a b) (h : Trail A s t) : Trail B s t := by
  induction h with
  | refl => exact .refl _
  | step _ ha ih => exact ih.step (hAB _ _ ha)
  | commit _ ih => exact ih.commit
  | rollback _ ih => exact ih.rollback

/-- What each step keeps holds of the store and of the view all along. -/
theorem keeps {I : σ → Prop} (hA : ∀ a b, A a b → I a → I b) (h : Trail A s t)
    (hs : I s.stored ∧ I s.view) : I t.stored ∧ I t.view := by
  induction h with
  | refl => exact hs
  | step _ ha ih => exact ⟨ih.1, hA _ _ ha ih.2⟩
  | commit _ ih => exact ⟨ih.2, ih.2⟩
  | rollback _ ih => exact ⟨ih.1, ih.1⟩

end Trail

/-! ## Programs that move by a relation -/

/-- Wherever the program starts, it moves by steps of the relation. -/
def Prog.Moves {σ δ ε α : Type} [Store σ δ ε] (A : σ → σ → Prop) (x : Prog σ δ ε α) : Prop :=
  ∀ s, Trail A s (x.run s).2

namespace Prog
variable {σ δ ε α β : Type} [Store σ δ ε] {A : σ → σ → Prop}

theorem moves_bind {x : Prog σ δ ε α} {f : α → Prog σ δ ε β} (hx : x.Moves A)
    (hf : ∀ a, (f a).Moves A) : (x >>= f).Moves A := by
  intro s
  rw [run_bind]
  have h := hx s
  generalize x.run s = y at h ⊢
  obtain ⟨r, t⟩ := y
  cases r with
  | error e => exact h
  | ok a => exact h.trans (hf a t)

theorem moves_pure (a : α) : (Pure.pure a : Prog σ δ ε α).Moves A := Trail.refl

theorem moves_throw (e : ε) : (throw e : Prog σ δ ε α).Moves A := Trail.refl

theorem moves_read (f : σ → α) : (read f : Prog σ δ ε α).Moves A := Trail.refl

theorem moves_lift (x : Except ε α) : (lift x : Prog σ δ ε α).Moves A := by
  cases x
  · exact Trail.refl
  · exact Trail.refl

theorem moves_publish : (publish : Prog σ δ ε Unit).Moves A := fun s => (Trail.refl s).commit

theorem moves_publishIf (b : Bool) : (publishIf b : Prog σ δ ε Unit).Moves A := by
  cases b
  · exact Trail.refl
  · exact moves_publish

theorem moves_ite {p : Prop} [Decidable p] {x y : Prog σ δ ε α} (hx : p → x.Moves A)
    (hy : ¬p → y.Moves A) : (if p then x else y).Moves A := by
  by_cases h : p
  · rw [if_pos h]
    exact hx h
  · rw [if_neg h]
    exact hy h

/-- A flush takes one step, or breaks a constraint and rolls back. -/
theorem moves_flush {c : δ} (h : ∀ s, A s (Store.apply s c)) :
    (flush c : Prog σ δ ε Unit).Moves A := by
  intro s
  rw [run_flush]
  split
  · exact (Trail.refl s).step (h _)
  · exact (Trail.refl s).rollback

end Prog

/-! ## The changes that a program writes -/

namespace Prog
variable {σ δ ε α β : Type}

/-- Every change that the program writes is of this kind. -/
def Writes (P : δ → Prop) : Prog σ δ ε α → Prop
  | .ret _ | .raise _ => True
  | .query _ k => ∀ b, (k b).Writes P
  | .write c k => P c ∧ k.Writes P
  | .commit k => k.Writes P

section
variable {P : δ → Prop} {x y : Prog σ δ ε α} {f : α → Prog σ δ ε β}

theorem Writes.bind (hx : x.Writes P) (hf : ∀ a, (f a).Writes P) : (x >>= f).Writes P := by
  change (x.bind f).Writes P
  induction x with
  | ret a => exact hf a
  | raise e => trivial
  | query q k ih => exact fun b => ih b (hx b)
  | write c k ih => exact ⟨hx.1, ih hx.2⟩
  | commit k ih => exact ih hx

theorem Writes.mono {Q : δ → Prop} (hPQ : ∀ c, P c → Q c) (hx : x.Writes P) : x.Writes Q := by
  induction x with
  | ret a | raise e => trivial
  | query q k ih => exact fun b => ih b (hx b)
  | write c k ih => exact ⟨hPQ c hx.1, ih hx.2⟩
  | commit k ih => exact ih hx

theorem Writes.attempt (hx : x.Writes P) : x.attempt.Writes P := by
  induction x with
  | ret a | raise e => trivial
  | query q k ih => exact fun b => ih b (hx b)
  | write c k ih => exact ⟨hx.1, ih hx.2⟩
  | commit k ih => exact ih hx

theorem writes_all (x : Prog σ δ ε α) : x.Writes fun _ => True := by
  induction x with
  | ret a | raise e => trivial
  | query q k ih => exact ih
  | write c k ih => exact ⟨trivial, ih⟩
  | commit k ih => exact ih

theorem writes_query_iff {q : σ → β} {k : β → Prog σ δ ε α} :
    (query q k).Writes P ↔ ∀ b, (k b).Writes P := Iff.rfl

theorem writes_write_iff {c : δ} {k : Prog σ δ ε α} :
    (write c k).Writes P ↔ P c ∧ k.Writes P := Iff.rfl

theorem writes_commit_iff {k : Prog σ δ ε α} : (commit k).Writes P ↔ k.Writes P := Iff.rfl

theorem writes_raise (e : ε) : (raise e : Prog σ δ ε α).Writes P := trivial

theorem writes_pure (a : α) : (Pure.pure a : Prog σ δ ε α).Writes P := trivial

theorem writes_throw (e : ε) : (throw e : Prog σ δ ε α).Writes P := trivial

theorem writes_read (q : σ → α) : (read q : Prog σ δ ε α).Writes P := fun _ => trivial

theorem writes_flush {c : δ} (h : P c) : (flush c : Prog σ δ ε Unit).Writes P := ⟨h, trivial⟩

theorem writes_publish : (publish : Prog σ δ ε Unit).Writes P := trivial

theorem writes_publishIf (b : Bool) : (publishIf b : Prog σ δ ε Unit).Writes P := by
  cases b <;> trivial

theorem writes_lift (r : Except ε α) : (lift r : Prog σ δ ε α).Writes P := by
  cases r <;> trivial

theorem writes_ite {p : Prop} [Decidable p] (hx : x.Writes P) (hy : y.Writes P) :
    (if p then x else y).Writes P := by
  by_cases h : p
  · rw [if_pos h]
    exact hx
  · rw [if_neg h]
    exact hy

end

variable [Store σ δ ε] {P : δ → Prop} {x : Prog σ δ ε α}

/-- What the changes of a program keep, the program keeps. -/
theorem Writes.keeps {I : σ → Prop} (h : x.Writes P) (hP : ∀ s c, P c → I s → I (Store.apply s c))
    {s : Session σ} (hs : I s.stored ∧ I s.view) : I (x.run s).2.stored ∧ I (x.run s).2.view := by
  induction x generalizing s with
  | ret a | raise e => exact hs
  | query q k ih => exact ih _ (h _) hs
  | write c k ih =>
    simp only [run]
    split
    · exact ih h.2 ⟨hs.1, hP _ _ h.1 hs.2⟩
    · exact ⟨hs.1, hs.1⟩
  | commit k ih => exact ih h ⟨hs.2, hs.2⟩

/-- What every change keeps is kept by every program. -/
theorem run_keeps {I : σ → Prop} (hI : ∀ s c, I s → I (Store.apply s c)) (x : Prog σ δ ε α)
    {s : Session σ} (hs : I s.stored ∧ I s.view) :
    I (x.run s).2.stored ∧ I (x.run s).2.view :=
  (writes_all x).keeps (fun s c _ => hI s c) hs

/-- Changes that an invariant does not see. -/
theorem Writes.run {I : σ → Prop} (hP : ∀ c, P c → ∀ s, I (Store.apply s c) ↔ I s)
    (h : x.Writes P) {s : Session σ} (hs : I s.stored ↔ I s.view) :
    I (x.run s).2.stored ↔ I s.view := by
  induction x generalizing s with
  | ret a | raise e => exact hs
  | query q k ih => exact ih _ (h _) hs
  | write c k ih =>
    simp only [Prog.run]
    split
    · have hc := hP c h.1 s.view
      exact (ih (s := ⟨s.stored, Store.apply s.view c⟩) h.2 (hs.trans hc.symm)).trans hc
    · exact hs
  | commit k ih => exact ih h Iff.rfl

-- The rules above are the interface: a goal about a program does not run it.
attribute [irreducible] Writes

end Prog
end unit_of_work
