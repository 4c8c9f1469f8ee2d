-- Programs whose first commit decides. Up to there a worker may write
-- anything, and after it only changes that an invariant does not see. When
-- every first commit is made on a store that still answers what the worker has
-- read, all stores of the run keep what each program keeps alone.
import DrBoz.Lib.Interleaving

namespace unit_of_work

variable {ι σ δ ε α β : Type}

/-! ## What a program writes -/

namespace Prog

/-- After its first commit the program writes changes of this kind only. -/
def WritesAfter (P : δ → Prop) : Prog σ δ ε α → Prop
  | .ret _ | .raise _ => True
  | .query _ k => ∀ b, (k b).WritesAfter P
  | .write _ k => k.WritesAfter P
  | .commit k => k.Writes P

/-- On no path does the program write changes of more than this weight. -/
def Spends (w : δ → Nat) : Prog σ δ ε α → Nat → Prop
  | .ret _, _ | .raise _, _ => True
  | .query _ k, n => ∀ b, (k b).Spends w n
  | .write c k, n => w c ≤ n ∧ k.Spends w (n - w c)
  | .commit k, n => k.Spends w n

/-- What the program hands over at its end is of this kind. -/
def Returns (Q : α → Prop) : Prog σ δ ε α → Prop
  | .ret a => Q a
  | .raise _ => True
  | .query _ k => ∀ b, (k b).Returns Q
  | .write _ k | .commit k => k.Returns Q

section
variable {P : δ → Prop} {w : δ → Nat} {x : Prog σ δ ε α} {f : α → Prog σ δ ε β}

/-- A part without a commit in front. -/
theorem Silent.writesAfter_bind (hx : x.Silent) (hf : ∀ a, (f a).WritesAfter P) :
    (x >>= f).WritesAfter P := by
  change (x.bind f).WritesAfter P
  induction x with
  | ret a => exact hf a
  | raise e => trivial
  | query q k ih => exact fun b => ih b (hx b)
  | write c k ih => exact ih hx
  | commit k ih => exact hx.elim

theorem publish_writesAfter {f : Unit → Prog σ δ ε β} (hf : (f ()).Writes P) :
    (publish >>= f).WritesAfter P := hf

theorem Spends.mono {m n : Nat} (h : x.Spends w m) (hmn : m ≤ n) : x.Spends w n := by
  induction x generalizing m n with
  | ret a | raise e => trivial
  | query q k ih => exact fun b => ih b (h b) hmn
  | write c k ih => exact ⟨Nat.le_trans h.1 hmn, ih h.2 (Nat.sub_le_sub_right hmn _)⟩
  | commit k ih => exact ih h hmn

theorem Spends.bind {m n : Nat} (hx : x.Spends w m) (hf : ∀ a, (f a).Spends w n) :
    (x >>= f).Spends w (m + n) := by
  change (x.bind f).Spends w (m + n)
  induction x generalizing m with
  | ret a => exact (hf a).mono (Nat.le_add_left n m)
  | raise e => trivial
  | query q k ih => exact fun b => ih b (hx b)
  | write c k ih =>
    obtain ⟨h1, h2⟩ := hx
    refine ⟨by omega, ?_⟩
    rw [Nat.sub_add_comm h1]
    exact ih h2
  | commit k ih => exact ih hx

/-- A program that writes nothing of weight. -/
theorem Writes.spends (h : x.Writes fun c => w c = 0) : x.Spends w 0 := by
  induction x with
  | ret a | raise e => trivial
  | query q k ih => exact fun b => ih b (writes_query_iff.mp h b)
  | write c k ih =>
    obtain ⟨h1, h2⟩ := writes_write_iff.mp h
    refine ⟨Nat.le_of_eq h1, ?_⟩
    rw [Nat.zero_sub]
    exact ih h2
  | commit k ih => exact ih (writes_commit_iff.mp h)

theorem Writes.spends_bind {n : Nat} (hx : x.Writes fun c => w c = 0)
    (hf : ∀ a, (f a).Spends w n) : (x >>= f).Spends w n := by
  have := hx.spends.bind hf
  rwa [Nat.zero_add] at this

theorem returns_bind {Q : β → Prop} (hf : ∀ a, (f a).Returns Q) : (x >>= f).Returns Q := by
  change (x.bind f).Returns Q
  induction x with
  | ret a => exact hf a
  | raise e => trivial
  | query q k ih => exact ih
  | write c k ih | commit k ih => exact ih

theorem returns_ite {Q : α → Prop} {p : Prop} [Decidable p] {y : Prog σ δ ε α} (hx : x.Returns Q)
    (hy : y.Returns Q) : (if p then x else y).Returns Q := by
  by_cases h : p
  · rw [if_pos h]
    exact hx
  · rw [if_neg h]
    exact hy

/-- A run that does not raise hands over a value of the kind. -/
theorem Returns.of_run [Store σ δ ε] {Q : α → Prop} {a : α} {s t : Session σ} (hx : x.Returns Q)
    (h : x.run s = (.ok a, t)) : Q a := by
  induction x generalizing s with
  | ret b =>
    cases h
    exact hx
  | raise e => cases h
  | query q k ih => exact ih _ (hx _) h
  | write c k ih =>
    simp only [run] at h
    split at h
    · exact ih hx h
    · cases h
  | commit k ih => exact ih hx h

/-- A part that writes nothing of weight, and hands over what the rest needs. -/
theorem Returns.spends_bind {Q : α → Prop} {n : Nat} (hq : x.Returns Q)
    (hx : x.Writes fun c => w c = 0) (hf : ∀ a, Q a → (f a).Spends w n) :
    (x >>= f).Spends w n := by
  change (x.bind f).Spends w n
  induction x with
  | ret a => exact hf a hq
  | raise e => trivial
  | query q k ih => exact fun b => ih b (hq b) (writes_query_iff.mp hx b)
  | write c k ih =>
    obtain ⟨h1, h2⟩ := writes_write_iff.mp hx
    refine ⟨?_, ?_⟩
    · rw [h1]
      exact Nat.zero_le n
    · rw [h1, Nat.sub_zero]
      exact ih hq h2
  | commit k ih => exact ih hq (writes_commit_iff.mp hx)

theorem spends_ite {p : Prop} [Decidable p] {y : Prog σ δ ε α} {n : Nat} (hx : x.Spends w n)
    (hy : y.Spends w n) : (if p then x else y).Spends w n := by
  by_cases h : p
  · rw [if_pos h]
    exact hx
  · rw [if_neg h]
    exact hy

theorem writesAfter_ite {p : Prop} [Decidable p] {y : Prog σ δ ε α} (hx : x.WritesAfter P)
    (hy : y.WritesAfter P) : (if p then x else y).WritesAfter P := by
  by_cases h : p
  · rw [if_pos h]
    exact hx
  · rw [if_neg h]
    exact hy

/-- A check that raises. -/
theorem spends_guard {p : Prop} [Decidable p] {e : ε} {n : Nat} (h : ¬p → x.Spends w n) :
    (if p then throw e else x).Spends w n := by
  by_cases hp : p
  · rw [if_pos hp]
    trivial
  · rw [if_neg hp]
    exact h hp

theorem writesAfter_guard {p : Prop} [Decidable p] {e : ε} (h : ¬p → x.WritesAfter P) :
    (if p then throw e else x).WritesAfter P := by
  by_cases hp : p
  · rw [if_pos hp]
    trivial
  · rw [if_neg hp]
    exact h hp

theorem spends_flush (c : δ) : (flush c : Prog σ δ ε Unit).Spends w (w c) :=
  ⟨Nat.le_refl _, trivial⟩

end

variable [Store σ δ ε] {P : δ → Prop} {w : δ → Nat} {x : Prog σ δ ε α}

/-- A measure that grows by the weight of each change grows by no more than the
program spends. -/
theorem Spends.run {m : σ → Nat} {n B : Nat} (hm : ∀ s c, m (Store.apply s c) ≤ m s + w c)
    (h : x.Spends w n) {s : Session σ} (hs : m s.stored ≤ B) (hv : m s.view + n ≤ B) :
    m (x.run s).2.stored ≤ B := by
  induction x generalizing s n with
  | ret a | raise e => exact hs
  | query q k ih => exact ih _ (h _) hs hv
  | write c k ih =>
    obtain ⟨h1, h2⟩ := h
    simp only [Prog.run]
    split
    · refine ih h2 hs ?_
      have : m (Store.apply s.view c) ≤ m s.view + w c := hm s.view c
      change m (Store.apply s.view c) + (n - w c) ≤ B
      omega
    · exact hs
  | commit k ih =>
    refine ih h ?_ hv
    exact Nat.le_trans (Nat.le_add_right _ n) hv

end Prog

/-! ## The rule -/

section
variable [DecidableEq ι] [Store σ δ ε]

namespace System

/-- A worker makes its first commit on a store that still answers what it has
read. -/
def Fresh (x : System ι σ δ ε α) : Move ι → Prop
  | .step i => (x.worker i).takesEffect false = true → (x.worker i).seen x.store
  | .crash _ => True

def FreshRun : System ι σ δ ε α → List (Move ι) → Prop
  | _, [] => True
  | x, m :: ms => x.Fresh m ∧ FreshRun (x.move m) ms

theorem SoundRun.fresh {ok : ι → σ → Prop} {x : System ι σ δ ε α} {ms : List (Move ι)}
    (h : x.SoundRun false ok ms) : x.FreshRun ms := by
  induction ms generalizing x with
  | nil => trivial
  | cons m ms ih =>
    refine ⟨?_, ih h.2⟩
    cases m with
    | step i => exact fun hte => (h.1 hte).1
    | crash i => trivial

end System

/-- What every move of a fresh run keeps. -/
structure Decided (P : δ → Prop) (I : σ → Prop) (progs : ι → Prog σ δ ε α)
    (x : System ι σ δ ε α) : Prop where
  idle : ∀ i, (x.worker i).idle = true →
    Faithful (progs i) (x.worker i) ∧ (x.worker i).prog.WritesAfter P
  published : ∀ i, (x.worker i).published = true →
    (x.worker i).prog.Writes P ∧ ∀ c ∈ (x.worker i).pending, P c
  store : I x.store

section
variable {P : δ → Prop} {I : σ → Prop} {progs : ι → Prog σ δ ε α} {x : System ι σ δ ε α}

theorem applyAll_unseen (hP : ∀ c, P c → ∀ s, I (Store.apply s c) ↔ I s) {cs : List δ}
    (hcs : ∀ c ∈ cs, P c) (s : σ) : I (applyAll s cs) ↔ I s := by
  induction cs generalizing s with
  | nil => exact Iff.rfl
  | cons c cs ih =>
    exact (ih (fun d hd => hcs d (List.mem_cons_of_mem _ hd)) _).trans
      (hP c (hcs c List.mem_cons_self) s)

/-- Another worker in the place of one, with another store. -/
theorem decided_put (hx : Decided P I progs x) {i : ι} {w : Worker σ δ ε α} {u : σ}
    (hidle : w.idle = true → Faithful (progs i) w ∧ w.prog.WritesAfter P)
    (hpub : w.published = true → w.prog.Writes P ∧ ∀ c ∈ w.pending, P c) (hu : I u) :
    Decided P I progs { x.put i w with store := u } := by
  refine ⟨fun j hj => ?_, fun j hj => ?_, hu⟩
  · change ((x.put i w).worker j).idle = true at hj
    change Faithful (progs j) ((x.put i w).worker j) ∧ ((x.put i w).worker j).prog.WritesAfter P
    by_cases hji : j = i
    · subst hji
      rw [put_self] at hj ⊢
      exact hidle hj
    · rw [put_ne x w hji] at hj ⊢
      exact hx.idle j hj
  · change ((x.put i w).worker j).published = true at hj
    change ((x.put i w).worker j).prog.Writes P ∧ ∀ c ∈ ((x.put i w).worker j).pending, P c
    by_cases hji : j = i
    · subst hji
      rw [put_self] at hj ⊢
      exact hpub hj
    · rw [put_ne x w hji] at hj ⊢
      exact hx.published j hj

/-- A read or a write. -/
theorem decided_quiet (hx : Decided P I progs x) {i : ι} {w : Worker σ δ ε α}
    (h : Worker.Quiet (x.worker i) w x.store)
    (hafter : (x.worker i).prog.WritesAfter P → w.prog.WritesAfter P)
    (hwrites : (x.worker i).prog.Writes P → (∀ c ∈ (x.worker i).pending, P c) →
      w.prog.Writes P ∧ ∀ c ∈ w.pending, P c) :
    Decided P I progs (x.put i w) := by
  refine decided_put hx (fun hi => ?_) (fun hp => ?_) hx.store
  · have hi' : (x.worker i).idle = true := by
      unfold Worker.idle at hi ⊢
      rw [← h.published, ← h.closed, ← h.crashed]
      exact hi
    obtain ⟨h1, h2⟩ := hx.idle i hi'
    exact ⟨h.faithful h1, hafter h2⟩
  · rw [h.published] at hp
    obtain ⟨h1, h2⟩ := hx.published i hp
    exact hwrites h1 h2

/-- A commit: the first one leaves what the program leaves alone, and the later
ones are not seen. -/
theorem decided_commit (hP : ∀ c, P c → ∀ s, I (Store.apply s c) ↔ I s)
    (halone : ∀ i s, I s → I ((progs i).run (.opened s)).2.stored)
    (hx : Decided P I progs x) {i : ι} {k : Prog σ δ ε α}
    (hopen : (x.worker i).closed = false ∧ (x.worker i).crashed = false)
    (hp : (x.worker i).prog = .commit k)
    (hseen : (x.worker i).idle = true → (x.worker i).seen x.store) :
    Decided P I progs
      { x.put i { x.worker i with
          prog := k, pending := [], seen := fun _ => True, published := true } with
        store := (x.worker i).view x.store } := by
  have hdone : k.Writes P ∧ I ((x.worker i).view x.store) := by
    by_cases hpub : (x.worker i).published = true
    · obtain ⟨h1, h2⟩ := hx.published i hpub
      rw [hp, Prog.writes_commit_iff] at h1
      exact ⟨h1, (applyAll_unseen hP h2 x.store).mpr hx.store⟩
    · have hidle : (x.worker i).idle = true := by
        simp [Worker.idle, hopen.1, hopen.2, Bool.eq_false_iff.mpr hpub]
      obtain ⟨hfaith, hafter⟩ := hx.idle i hidle
      rw [hp] at hafter
      have hrun := (hfaith x.store (hseen hidle)).1
      rw [hp] at hrun
      have hkept := halone i x.store hx.store
      rw [hrun] at hkept
      exact ⟨hafter, (Prog.Writes.run hP (s := .opened ((x.worker i).view x.store)) hafter
        Iff.rfl).mp hkept⟩
  refine decided_put hx (fun hi => ?_) (fun _ => ⟨hdone.1, fun c hc => by cases hc⟩) hdone.2
  simp [Worker.idle] at hi

theorem decided_move (hP : ∀ c, P c → ∀ s, I (Store.apply s c) ↔ I s)
    (halone : ∀ i s, I s → I ((progs i).run (.opened s)).2.stored)
    (hx : Decided P I progs x) {m : Move ι} (hm : x.Fresh m) : Decided P I progs (x.move m) := by
  cases m with
  | crash i =>
    refine decided_put hx (fun h => ?_)
      (fun _ => ⟨Prog.writes_raise _, fun c hc => by cases hc⟩) hx.store
    simp [Worker.idle, Worker.crash] at h
  | step i =>
    unfold System.move Worker.step
    unfold System.Fresh Worker.takesEffect at hm
    by_cases hstop : ((x.worker i).closed || (x.worker i).crashed) = true
    · simp only [hstop, if_true, Function.update_eq_self]
      exact hx
    · have hopen : (x.worker i).closed = false ∧ (x.worker i).crashed = false := by
        simpa using hstop
      simp only [hstop]
      cases hp : (x.worker i).prog with
      | ret a =>
        refine decided_put hx (fun h => ?_) (fun h => ?_) hx.store
        · simp [Worker.idle] at h
        · exact ⟨Prog.writes_pure a, fun c hc => by cases hc⟩
      | raise e =>
        refine decided_put hx (fun h => ?_) (fun h => ?_) hx.store
        · simp [Worker.idle] at h
        · exact ⟨Prog.writes_raise e, fun c hc => by cases hc⟩
      | query f k =>
        exact decided_quiet hx (Worker.quiet_query x.store hp)
          (fun h => by rw [hp] at h; exact h _)
          fun h hc => by rw [hp, Prog.writes_query_iff] at h; exact ⟨h _, hc⟩
      | write c k =>
        by_cases hc : Store.admits ((x.worker i).view x.store) c = true
        · simp only [hc, if_true]
          refine decided_quiet hx (Worker.quiet_write hp hc) (fun h => by rw [hp] at h; exact h) ?_
          intro h hcs
          rw [hp, Prog.writes_write_iff] at h
          refine ⟨h.2, fun d hd => ?_⟩
          rcases List.mem_append.mp hd with hd | hd
          · exact hcs d hd
          · rw [List.mem_singleton.mp hd]
            exact h.1
        · have hc' : Store.admits ((x.worker i).view x.store) c = false := by simpa using hc
          simp only [hc', Bool.false_eq_true, if_false]
          exact decided_quiet hx (Worker.quiet_conflict hp hc') (fun _ => trivial)
            fun _ _ => ⟨Prog.writes_raise _, fun d hd => by cases hd⟩
      | commit k =>
        simp only [hp, Bool.and_true] at hm ⊢
        by_cases hadm : admitsAll x.store (x.worker i).pending = true
        · simp only [hadm, if_true]
          exact decided_commit hP halone hx hopen hp hm
        · simp only [hadm]
          refine decided_put hx (fun h => ?_)
            (fun _ => ⟨Prog.writes_raise _, fun c hc => by cases hc⟩) hx.store
          have hidle : (x.worker i).idle = true := h
          exact absurd ((hx.idle i hidle).1 x.store (hm hidle)).2 hadm

/-- LAW: what every program keeps when it runs alone, and what the changes
after its first commit do not touch, every fresh run keeps at every moment. -/
theorem fresh_runs_keep {s : σ} {ms : List (Move ι)}
    (hP : ∀ c, P c → ∀ s, I (Store.apply s c) ↔ I s) (hafter : ∀ i, (progs i).WritesAfter P)
    (halone : ∀ i s, I s → I ((progs i).run (.opened s)).2.stored) (hs : I s)
    (hms : (System.init s progs).FreshRun ms) : I ((System.init s progs).run ms).store := by
  have hinit : Decided P I progs (System.init s progs) :=
    ⟨fun i _ => ⟨faithful_start (progs i), hafter i⟩, fun i h => (by cases h), hs⟩
  generalize System.init s progs = x at hinit hms
  unfold System.run
  induction ms generalizing x with
  | nil => exact hinit.store
  | cons m ms ih => exact ih _ (decided_move hP halone hinit hms.1) hms.2

end
end

end unit_of_work
