-- Programs that commit several times, side by side. Each commit may do what a
-- relation allows and no more, and between two commits of a worker the others
-- do what the same relation allows. When every commit is made on a store that
-- still answers what the worker has read since its last one, each program can
-- be looked at alone.
import DrBoz.Lib.Interleaving

namespace unit_of_work

variable {ι σ δ ε α β : Type}

/-! ## Weakest preconditions -/

namespace Prog
section
variable [Store σ δ ε]

/-- What a session needs in front of a program, so that each commit does what
`G` allows, and the program ends in `Q` or with an exception in `E`. A broken
constraint ends the session and needs nothing. -/
def wp (G : σ → σ → Prop) (Q : α → Session σ → Prop) (E : ε → Session σ → Prop) :
    Prog σ δ ε α → Session σ → Prop
  | .ret a, s => Q a s
  | .raise e, s => E e s
  | .query f k, s => (k (f s.view)).wp G Q E s
  | .write c k, s => Store.admits s.view c = true → k.wp G Q E ⟨s.stored, Store.apply s.view c⟩
  | .commit k, s => G s.stored s.view ∧ ∀ t, G s.view t → k.wp G Q E (.opened t)

variable {G : σ → σ → Prop} {Q Q' : α → Session σ → Prop} {E E' : ε → Session σ → Prop}
  {x y : Prog σ δ ε α} {s : Session σ}

theorem wp.mono (hQ : ∀ a s, Q a s → Q' a s) (hE : ∀ e s, E e s → E' e s)
    (h : x.wp G Q E s) : x.wp G Q' E' s := by
  induction x generalizing s with
  | ret a => exact hQ a s h
  | raise e => exact hE e s h
  | query q k ih => exact ih _ h
  | write c k ih => exact fun hc => ih (h hc)
  | commit k ih => exact ⟨h.1, fun t ht => ih (h.2 t ht)⟩

theorem wp_bind {f : α → Prog σ δ ε β} {R : β → Session σ → Prop}
    (h : x.wp G (fun a t => (f a).wp G R E t) E s) : (x >>= f).wp G R E s := by
  change (x.bind f).wp G R E s
  induction x generalizing s with
  | ret a => exact h
  | raise e => exact h
  | query q k ih => exact ih _ h
  | write c k ih => exact fun hc => ih (h hc)
  | commit k ih => exact ⟨h.1, fun t ht => ih (h.2 t ht)⟩

/-- The exceptions of an attempt are values. -/
theorem wp_attempt {R : Except ε α → Session σ → Prop}
    (h : x.wp G (fun a => R (.ok a)) (fun e => R (.error e)) s) : x.attempt.wp G R E s := by
  induction x generalizing s with
  | ret a => exact h
  | raise e => exact h
  | query q k ih => exact ih _ h
  | write c k ih => exact fun hc => ih (h hc)
  | commit k ih => exact ⟨h.1, fun t ht => ih (h.2 t ht)⟩

theorem wp_pure {a : α} (h : Q a s) : (Pure.pure a : Prog σ δ ε α).wp G Q E s := h

theorem wp_throw {e : ε} (h : E e s) : (throw e : Prog σ δ ε α).wp G Q E s := h

theorem wp_read {f : σ → α} (h : Q (f s.view) s) : (read f : Prog σ δ ε α).wp G Q E s := h

theorem wp_flush {c : δ} {R : Unit → Session σ → Prop}
    (h : Store.admits s.view c = true → R () ⟨s.stored, Store.apply s.view c⟩) :
    (flush c : Prog σ δ ε Unit).wp G R E s := h

theorem wp_publish {R : Unit → Session σ → Prop} (hG : G s.stored s.view)
    (h : ∀ t, G s.view t → R () (.opened t)) : (publish : Prog σ δ ε Unit).wp G R E s := ⟨hG, h⟩

theorem wp_lift {r : Except ε α} (hQ : ∀ a, r = .ok a → Q a s) (hE : ∀ e, r = .error e → E e s) :
    (lift r : Prog σ δ ε α).wp G Q E s := by
  cases r with
  | ok a => exact hQ a rfl
  | error e => exact hE e rfl

theorem wp_ite {p : Prop} [Decidable p] (hx : p → x.wp G Q E s) (hy : ¬p → y.wp G Q E s) :
    (if p then x else y).wp G Q E s := by
  by_cases h : p
  · rw [if_pos h]
    exact hx h
  · rw [if_neg h]
    exact hy h

/-- A part whose changes keep what the rest needs, and whose commits do what is
allowed. -/
theorem Writes.wp {P : δ → Prop} {J : Session σ → Prop} (hx : x.Writes P)
    (hwrite : ∀ s c, P c → J s → J ⟨s.stored, Store.apply s.view c⟩)
    (hcommit : ∀ s, J s → G s.stored s.view ∧ ∀ t, G s.view t → J (.opened t)) (hs : J s) :
    x.wp G (fun _ => J) (fun _ => J) s := by
  induction x generalizing s with
  | ret a | raise e => exact hs
  | query q k ih => exact ih _ (writes_query_iff.mp hx _) hs
  | write c k ih =>
    obtain ⟨hc, hk⟩ := writes_write_iff.mp hx
    exact fun _ => ih hk (hwrite s c hc hs)
  | commit k ih =>
    obtain ⟨hG, hnext⟩ := hcommit s hs
    exact ⟨hG, fun t ht => ih (writes_commit_iff.mp hx) (hnext t ht)⟩

/-- The same for a part that does not commit. -/
theorem Silent.wp {P : δ → Prop} {J : Session σ → Prop} (hx : x.Writes P) (hsilent : x.Silent)
    (hwrite : ∀ s c, P c → J s → J ⟨s.stored, Store.apply s.view c⟩) (hs : J s) :
    x.wp G (fun _ => J) (fun _ => J) s := by
  induction x generalizing s with
  | ret a | raise e => exact hs
  | query q k ih => exact ih _ (writes_query_iff.mp hx _) (hsilent _) hs
  | write c k ih =>
    obtain ⟨hc, hk⟩ := writes_write_iff.mp hx
    exact fun _ => ih hk hsilent (hwrite s c hc hs)
  | commit k ih => exact hsilent.elim

/-- A part that does not commit and has been run. -/
theorem Silent.wp_run {a : α} {t : Session σ} (hx : x.Silent) (h : x.run s = (.ok a, t))
    (hQ : Q a t) : x.wp G Q E s := by
  induction x generalizing s with
  | ret b =>
    cases h
    exact hQ
  | raise e => cases h
  | query q k ih => exact ih _ (hx _) h
  | write c k ih =>
    intro hc
    simp only [run, hc, if_true] at h
    exact ih hx h
  | commit k ih => exact hx.elim

/-- A program that runs alone publishes what is allowed. -/
theorem wp.alone {s₀ : σ} (hrefl : ∀ s, G s s) (htrans : ∀ s t u, G s t → G t u → G s u)
    (h : x.wp G Q E s) (hs : G s₀ s.stored) : G s₀ (x.run s).2.stored := by
  induction x generalizing s with
  | ret a | raise e => exact hs
  | query q k ih => exact ih _ h hs
  | write c k ih =>
    simp only [run]
    split
    · rename_i hc
      exact ih (h hc) hs
    · exact hs
  | commit k ih => exact ih (h.2 _ (hrefl _)) (htrans _ _ _ hs h.1)

/-- What holds of every value that a program gives holds of that of a run. -/
theorem wp.value {a : α} {t : Session σ} (hrefl : ∀ s, G s s) (h : x.wp G Q E s)
    (hrun : x.run s = (.ok a, t)) : Q a t := by
  induction x generalizing s with
  | ret b =>
    cases hrun
    exact h
  | raise e => cases hrun
  | query q k ih => exact ih _ h hrun
  | write c k ih =>
    simp only [run] at hrun
    split at hrun
    · rename_i hc
      exact ih (h hc) hrun
    · cases hrun
  | commit k ih => exact ih (h.2 _ (hrefl _)) hrun

/-- A program whose commits and ends keep an invariant keeps it in a session
that nothing else interrupts, also when a broken constraint ends it. -/
theorem wp.ends {I : σ → Prop}
    (h : x.wp (fun a b => I a → I b) (fun _ t => I t.view) (fun _ t => I t.view) s)
    (hs : I s.stored) : I (x.run s).2.stored ∧ I (x.run s).2.view := by
  induction x generalizing s with
  | ret a | raise e => exact ⟨hs, h⟩
  | query q k ih => exact ih _ h hs
  | write c k ih =>
    simp only [run]
    split
    · rename_i hc
      exact ih (h hc) hs
    · exact ⟨hs, hs⟩
  | commit k ih => exact ih (h.2 _ id) (h.1 hs)

end
end Prog

/-! ## The rule -/

section
variable [DecidableEq ι] [Store σ δ ε]

/-- The next step of the worker is a commit. -/
def Worker.commits (w : Worker σ δ ε α) : Bool :=
  !w.closed && !w.crashed && match w.prog with
    | .commit _ => true
    | _ => false

namespace System

/-- A commit is made on a store that still answers what the worker has read
since its last one. -/
def FreshCommit (x : System ι σ δ ε α) : Move ι → Prop
  | .step i => (x.worker i).commits = true → (x.worker i).seen x.store
  | .crash _ => True

def FreshCommits : System ι σ δ ε α → List (Move ι) → Prop
  | _, [] => True
  | x, m :: ms => x.FreshCommit m ∧ FreshCommits (x.move m) ms

end System

section
variable {x : System ι σ δ ε α}

theorem freshCommits_append {ms ns : List (Move ι)} (h : x.FreshCommits ms)
    (h' : (x.run ms).FreshCommits ns) : x.FreshCommits (ms ++ ns) := by
  induction ms generalizing x with
  | nil => exact h'
  | cons m ms ih => exact ⟨h.1, ih h.2 h'⟩

/-- What a worker has seen is so after its own step. -/
theorem seen_own_step {w : Worker σ δ ε α} {s : σ} (h : w.seen s) :
    (w.step s).1.seen (w.step s).2 := by
  unfold Worker.step
  by_cases hstop : (w.closed || w.crashed) = true
  · rw [if_pos hstop]
    exact h
  · rw [if_neg hstop]
    cases hp : w.prog with
    | ret a | raise e => exact h
    | query f k => exact ⟨h, rfl⟩
    | write c k =>
      by_cases hc : Store.admits (w.view s) c = true
      · simp only [hc, if_true]
        exact ⟨h, trivial⟩
      · simp only [hc]
        exact ⟨h, by simpa using hc⟩
    | commit k =>
      by_cases hadm : admitsAll s w.pending = true
      · simp only [hadm, if_true]
      · simp only [hadm]
        exact h

/-- A worker that runs alone makes fresh commits only. -/
theorem freshCommits_alone {i : ι} (h : (x.worker i).seen x.store) (n : Nat) :
    x.FreshCommits (.replicate n (.step i)) := by
  induction n generalizing x with
  | zero => trivial
  | succ n ih =>
    refine ⟨fun _ => h, ih ?_⟩
    simp only [System.move, Function.update_self]
    exact seen_own_step h

end

/-- Like fresh commits, for stores that need to agree with a fresh one only. -/
def System.AgreeingCommit (R : σ → σ → Prop) (x : System ι σ δ ε α) : Move ι → Prop
  | .step i => (x.worker i).commits = true → ∃ t, (x.worker i).seen t ∧ R t x.store
  | .crash _ => True

def System.AgreeingCommits (R : σ → σ → Prop) : System ι σ δ ε α → List (Move ι) → Prop
  | _, [] => True
  | x, m :: ms => x.AgreeingCommit R m ∧ AgreeingCommits R (x.move m) ms

theorem System.FreshCommits.agreeing {R : σ → σ → Prop} {x : System ι σ δ ε α} {ms : List (Move ι)}
    (hrefl : ∀ s, R s s) (h : x.FreshCommits ms) : x.AgreeingCommits R ms := by
  induction ms generalizing x with
  | nil => trivial
  | cons m ms ih =>
    refine ⟨?_, ih h.2⟩
    cases m with
    | crash i => trivial
    | step i => exact fun hc => ⟨x.store, h.1 hc, hrefl _⟩

/-- The next step of the worker is a commit, and the store lets it in. -/
def Worker.publishes (w : Worker σ δ ε α) (s : σ) : Bool := w.commits && admitsAll s w.pending

theorem Worker.publishes_commits {w : Worker σ δ ε α} {s : σ} (h : w.publishes s = true) :
    w.commits = true := by
  rw [Worker.publishes, Bool.and_eq_true] at h
  exact h.1

/-- Like agreeing commits, for the commits that the store lets in. The others
change nothing. -/
def System.AgreeingPublish (R : σ → σ → Prop) (x : System ι σ δ ε α) : Move ι → Prop
  | .step i => (x.worker i).publishes x.store = true → ∃ t, (x.worker i).seen t ∧ R t x.store
  | .crash _ => True

def System.AgreeingPublishes (R : σ → σ → Prop) : System ι σ δ ε α → List (Move ι) → Prop
  | _, [] => True
  | x, m :: ms => x.AgreeingPublish R m ∧ AgreeingPublishes R (x.move m) ms

theorem System.AgreeingCommits.publishes {R : σ → σ → Prop} {x : System ι σ δ ε α}
    {ms : List (Move ι)} (h : x.AgreeingCommits R ms) : x.AgreeingPublishes R ms := by
  induction ms generalizing x with
  | nil => trivial
  | cons m ms ih =>
    refine ⟨?_, ih h.2⟩
    cases m with
    | crash i => trivial
    | step i => exact fun hp => h.1 (Worker.publishes_commits hp)

/-- A commit that goes through finds what the worker has read since its last
one. -/
def System.FreshPublish (x : System ι σ δ ε α) : Move ι → Prop
  | .step i => (x.worker i).publishes x.store = true → (x.worker i).seen x.store
  | .crash _ => True

def System.FreshPublishes : System ι σ δ ε α → List (Move ι) → Prop
  | _, [] => True
  | x, m :: ms => x.FreshPublish m ∧ FreshPublishes (x.move m) ms

theorem System.FreshPublishes.agreeing {x : System ι σ δ ε α} {ms : List (Move ι)}
    (h : x.FreshPublishes ms) : x.AgreeingPublishes Eq ms := by
  induction ms generalizing x with
  | nil => trivial
  | cons m ms ih =>
    refine ⟨?_, ih h.2⟩
    cases m with
    | crash i => trivial
    | step i => exact fun hp => ⟨x.store, h.1 hp, rfl⟩

theorem System.FreshCommits.publishes {x : System ι σ δ ε α} {ms : List (Move ι)}
    (h : x.FreshCommits ms) : x.FreshPublishes ms := by
  induction ms generalizing x with
  | nil => trivial
  | cons m ms ih =>
    refine ⟨?_, ih h.2⟩
    cases m with
    | crash i => trivial
    | step i => exact fun hp => h.1 (Worker.publishes_commits hp)

/-- Stores that agree are allowed for each other, and agree after a change that
both let in. -/
structure Agreement (G R : σ → σ → Prop) : Prop where
  refl : ∀ s, G s s
  trans : ∀ s t u, G s t → G t u → G s u
  forth : ∀ s t, R s t → G s t
  back : ∀ s t, R s t → G t s
  apply : ∀ s t (c : δ), R s t → Store.admits s c = true → Store.admits t c = true →
    R (Store.apply s c) (Store.apply t c)

/-- What is left of the worker's program does what `G` allows, from each store
that `G` allows after the worker's last commit and that the worker cannot tell
from the one it has read. -/
def Relies (G : σ → σ → Prop) (w : Worker σ δ ε α) (s : σ) : Prop :=
  ∃ b, G b s ∧ ∀ t, G b t → w.seen t →
    w.prog.wp G (fun _ _ => True) (fun _ _ => True) ⟨t, w.view t⟩

/-- A store that answers what the worker has read lets its changes in. -/
def Worker.Admitted (w : Worker σ δ ε α) : Prop := ∀ t, w.seen t → admitsAll t w.pending = true

section
variable {G R : σ → σ → Prop} {w : Worker σ δ ε α} {s t : σ}

theorem admitted_step (h : w.Admitted) (s : σ) : (w.step s).1.Admitted := by
  unfold Worker.step
  by_cases hstop : (w.closed || w.crashed) = true
  · rw [if_pos hstop]
    exact h
  · rw [if_neg hstop]
    cases hp : w.prog with
    | ret a | raise e => exact fun _ _ => rfl
    | query f k => exact fun t ht => h t ht.1
    | write c k =>
      by_cases hc : Store.admits (w.view s) c = true
      · simp only [hc, if_true]
        intro t ht
        change admitsAll t (w.pending ++ [c]) = true
        rw [admitsAll_append, h t ht.1, Bool.true_and]
        exact ht.2
      · simp only [hc]
        exact fun _ _ => rfl
    | commit k =>
      by_cases hadm : admitsAll s w.pending = true
      · simp only [hadm, if_true]
        exact fun _ _ => rfl
      · simp only [hadm]
        exact fun _ _ => rfl

/-- Stores that agree still do so after the changes of a worker. -/
theorem Agreement.applyAll (hG : Agreement (δ := δ) G R) {cs : List δ} (h : R s t)
    (hs : admitsAll s cs = true) (ht : admitsAll t cs = true) :
    R (applyAll s cs) (applyAll t cs) := by
  induction cs generalizing s t with
  | nil => exact h
  | cons c cs ih =>
    rw [admitsAll, Bool.and_eq_true] at hs ht
    exact ih (hG.apply _ _ _ h hs.1 ht.1) hs.2 ht.2

/-- A worker with an ended program needs nothing. -/
theorem relies_ended (hrefl : ∀ s, G s s) (w : Worker σ δ ε α) (h : w.prog.ended = true) (s : σ) :
    Relies G w s := by
  refine ⟨s, hrefl s, fun t _ _ => ?_⟩
  cases hp : w.prog with
  | ret a => trivial
  | raise e => trivial
  | query f k | write c k | commit k =>
    rw [hp] at h
    cases h

/-- A step does what is allowed, when a commit that goes through is made on a
store that agrees with a fresh one. -/
theorem worker_step (hG : Agreement (δ := δ) G R) (hw : Relies G w s) (hadm : w.Admitted)
    (hfresh : w.publishes s = true → ∃ t, w.seen t ∧ R t s) :
    G s (w.step s).2 ∧ Relies G (w.step s).1 (w.step s).2 := by
  obtain ⟨b, hb, hwp⟩ := hw
  unfold Worker.step
  by_cases hstop : (w.closed || w.crashed) = true
  · rw [if_pos hstop]
    exact ⟨hG.refl s, b, hb, hwp⟩
  · rw [if_neg hstop]
    cases hp : w.prog with
    | ret a | raise e => exact ⟨hG.refl s, relies_ended hG.refl _ (by simp [Prog.ended]) s⟩
    | query f k =>
      refine ⟨hG.refl s, b, hb, fun t ht hseen => ?_⟩
      have h := hwp t ht hseen.1
      rw [hp] at h
      have hf : f (w.view t) = f (w.view s) := hseen.2
      simp only [Prog.wp, hf] at h
      exact h
    | write c k =>
      by_cases hc : Store.admits (w.view s) c = true
      · simp only [hc, if_true]
        refine ⟨hG.refl s, b, hb, fun t ht hseen => ?_⟩
        have h := hwp t ht hseen.1
        rw [hp] at h
        simp only [Worker.view, applyAll_append]
        exact h hseen.2
      · simp only [hc]
        exact ⟨hG.refl s, relies_ended hG.refl _ rfl s⟩
    | commit k =>
      by_cases hin : admitsAll s w.pending = true
      · simp only [hin, if_true]
        have hcommits : w.commits = true := by
          simp only [Bool.or_eq_true, not_or, Bool.not_eq_true] at hstop
          simp [Worker.commits, hp, hstop.1, hstop.2]
        obtain ⟨t, hseen, hts⟩ := hfresh (by rw [Worker.publishes, hcommits, hin]; rfl)
        have h := hwp t (hG.trans _ _ _ hb (hG.back _ _ hts)) hseen
        rw [hp] at h
        -- The two stores agree before the changes of the worker and after them.
        have hviews : R (w.view t) (w.view s) := hG.applyAll hts (hadm t hseen) hin
        refine ⟨?_, w.view t, hG.forth _ _ hviews, fun u hu _ => h.2 u hu⟩
        exact hG.trans _ _ _ (hG.back _ _ hts) (hG.trans _ _ _ h.1 (hG.forth _ _ hviews))
      · simp only [hin]
        exact ⟨hG.refl s, relies_ended hG.refl _ rfl s⟩

end

/-- What every move of a run with fresh commits keeps. -/
structure Allowed (G : σ → σ → Prop) (s : σ) (x : System ι σ δ ε α) : Prop where
  store : G s x.store
  worker : ∀ i, Relies G (x.worker i) x.store

section
variable {G R : σ → σ → Prop} {progs : ι → Prog σ δ ε α} {x : System ι σ δ ε α} {s : σ}

theorem admitted_move (h : ∀ i, (x.worker i).Admitted) (m : Move ι) (i : ι) :
    ((x.move m).worker i).Admitted := by
  cases m with
  | crash j =>
    change (Function.update x.worker j (x.worker j).crash i).Admitted
    by_cases hij : i = j
    · subst hij
      rw [Function.update_self]
      exact fun _ _ => rfl
    · rw [Function.update_of_ne hij]
      exact h i
  | step j =>
    change (Function.update x.worker j ((x.worker j).step x.store).1 i).Admitted
    by_cases hij : i = j
    · subst hij
      rw [Function.update_self]
      exact admitted_step (h i) x.store
    · rw [Function.update_of_ne hij]
      exact h i

theorem allowed_move (hG : Agreement (δ := δ) G R) (hx : Allowed G s x)
    (hadm : ∀ i, (x.worker i).Admitted) {m : Move ι} (hm : x.AgreeingPublish R m) :
    Allowed G s (x.move m) := by
  cases m with
  | crash i =>
    refine ⟨hx.store, fun j => ?_⟩
    change Relies G (Function.update x.worker i (x.worker i).crash j) x.store
    by_cases hji : j = i
    · subst hji
      rw [Function.update_self]
      exact relies_ended hG.refl _ rfl x.store
    · rw [Function.update_of_ne hji]
      exact hx.worker j
  | step i =>
    obtain ⟨hstore, hself⟩ := worker_step hG (hx.worker i) (hadm i) hm
    refine ⟨hG.trans _ _ _ hx.store hstore, fun j => ?_⟩
    change Relies G (Function.update x.worker i ((x.worker i).step x.store).1 j)
      ((x.worker i).step x.store).2
    by_cases hji : j = i
    · subst hji
      rw [Function.update_self]
      exact hself
    · rw [Function.update_of_ne hji]
      obtain ⟨b, hb, hwp⟩ := hx.worker j
      exact ⟨b, hG.trans _ _ _ hb hstore, hwp⟩

/-- LAW: when each program, from every store that is allowed, commits only what
is allowed, a run whose commits agree with fresh ones, if they go through, ends
in a store that is allowed. -/
theorem agreeing_publishes_allowed {ms : List (Move ι)} (hG : Agreement (δ := δ) G R)
    (hprogs : ∀ i t, G s t → (progs i).wp G (fun _ _ => True) (fun _ _ => True) (.opened t))
    (hms : (System.init s progs).AgreeingPublishes R ms) :
    G s ((System.init s progs).run ms).store := by
  have hinit : Allowed G s (System.init s progs) :=
    ⟨hG.refl s, fun i => ⟨s, hG.refl s, fun t ht _ => hprogs i t ht⟩⟩
  have hadm : ∀ i, ((System.init s progs).worker i).Admitted := fun _ _ _ => rfl
  generalize System.init s progs = x at hinit hadm hms
  unfold System.run
  induction ms generalizing x with
  | nil => exact hinit.store
  | cons m ms ih =>
    exact ih _ (allowed_move hG hinit hadm hms.1) (admitted_move hadm m) hms.2

/-- LAW: when each program, from every store that is allowed, commits only what
is allowed, a run whose commits agree with fresh ones ends in a store that is
allowed. -/
theorem agreeing_commits_allowed {ms : List (Move ι)} (hG : Agreement (δ := δ) G R)
    (hprogs : ∀ i t, G s t → (progs i).wp G (fun _ _ => True) (fun _ _ => True) (.opened t))
    (hms : (System.init s progs).AgreeingCommits R ms) :
    G s ((System.init s progs).run ms).store :=
  agreeing_publishes_allowed hG hprogs hms.publishes

/-- LAW: when each program, from every store that is allowed, commits only what
is allowed, a run whose commits are fresh, if they go through, ends in a store
that is allowed. -/
theorem fresh_publishes_allowed {ms : List (Move ι)} (hrefl : ∀ s, G s s)
    (htrans : ∀ s t u, G s t → G t u → G s u)
    (hprogs : ∀ i t, G s t → (progs i).wp G (fun _ _ => True) (fun _ _ => True) (.opened t))
    (hms : (System.init s progs).FreshPublishes ms) :
    G s ((System.init s progs).run ms).store := by
  have hG : Agreement (δ := δ) G Eq :=
    ⟨hrefl, htrans, fun s t h => h ▸ hrefl s, fun s t h => h ▸ hrefl s,
      fun s t c h _ _ => congrArg (Store.apply · c) h⟩
  exact agreeing_publishes_allowed hG hprogs hms.agreeing

/-- LAW: when each program, from every store that is allowed, commits only what
is allowed, a run with fresh commits ends in a store that is allowed. -/
theorem fresh_commits_allowed {ms : List (Move ι)} (hrefl : ∀ s, G s s)
    (htrans : ∀ s t u, G s t → G t u → G s u)
    (hprogs : ∀ i t, G s t → (progs i).wp G (fun _ _ => True) (fun _ _ => True) (.opened t))
    (hms : (System.init s progs).FreshCommits ms) : G s ((System.init s progs).run ms).store :=
  fresh_publishes_allowed hrefl htrans hprogs hms.publishes

end
end

end unit_of_work
