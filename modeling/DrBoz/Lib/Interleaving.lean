-- Sessions side by side over one store. A worker runs its program one step at
-- a time: it reads the published store through its own changes, and a commit
-- publishes them. When every commit is made on a store that still answers
-- what the worker has read, the workers have run one after the other.
import Mathlib.Logic.Function.Basic
import DrBoz.Lib.UnitOfWork

namespace unit_of_work

variable {ι σ δ ε α : Type}

/-- The program has nothing left to do. -/
def Prog.ended : Prog σ δ ε α → Bool
  | .ret _ => true
  | .raise _ => true
  | _ => false

section
variable [Store σ δ ε]

/-- A store with a list of changes on top. -/
def applyAll (s : σ) (cs : List δ) : σ := cs.foldl Store.apply s

/-- The store lets the changes in, one after the other. -/
def admitsAll : σ → List δ → Bool
  | _, [] => true
  | s, c :: cs => Store.admits s c && admitsAll (Store.apply s c) cs

theorem applyAll_append (s : σ) (cs : List δ) (c : δ) :
    applyAll s (cs ++ [c]) = Store.apply (applyAll s cs) c := by
  unfold applyAll
  rw [List.foldl_append]
  rfl

theorem admitsAll_append (s : σ) (cs : List δ) (c : δ) :
    admitsAll s (cs ++ [c]) = (admitsAll s cs && Store.admits (applyAll s cs) c) := by
  induction cs generalizing s with
  | nil => simp [admitsAll, applyAll]
  | cons d cs ih =>
    simp only [List.cons_append, admitsAll, ih, Bool.and_assoc]
    rfl

end

/-! ## Workers -/

/-- A session in the middle of its program: what is left of it, the changes
that wait for a commit, and what it has found out about the published store
since its last commit. -/
structure Worker (σ δ ε α : Type) : Type 1 where
  prog : Prog σ δ ε α
  pending : List δ
  seen : σ → Prop
  published : Bool
  closed : Bool
  crashed : Bool

namespace Worker

def start (x : Prog σ δ ε α) : Worker σ δ ε α := ⟨x, [], fun _ => True, false, false, false⟩

/-- It has published something and has more to do. -/
def busy (w : Worker σ δ ε α) : Bool := w.published && !w.prog.ended

/-- It has not taken effect yet, and still can. -/
def idle (w : Worker σ δ ε α) : Bool := !w.published && !w.closed && !w.crashed

variable [Store σ δ ε]

def view (w : Worker σ δ ε α) (s : σ) : σ := applyAll s w.pending

/-- One step, with the published store after it. The end of a program closes
the session and drops what was not committed. -/
def step (w : Worker σ δ ε α) (s : σ) : Worker σ δ ε α × σ :=
  if w.closed || w.crashed then (w, s)
  else match w.prog with
  | .ret _ | .raise _ => ({ w with pending := [], closed := true }, s)
  | .query f k =>
    ({ w with
        prog := k (f (w.view s))
        seen := fun t => w.seen t ∧ f (w.view t) = f (w.view s) }, s)
  | .write c k =>
    if Store.admits (w.view s) c then
      ({ w with
          prog := k, pending := w.pending ++ [c]
          seen := fun t => w.seen t ∧ Store.admits (w.view t) c = true }, s)
    else
      ({ w with
          prog := .raise (Store.conflict σ), pending := []
          seen := fun t => w.seen t ∧ Store.admits (w.view t) c = false }, s)
  | .commit k =>
    if admitsAll s w.pending then
      ({ w with prog := k, pending := [], seen := fun _ => True, published := true }, w.view s)
    else ({ w with prog := .raise (Store.conflict σ), pending := [] }, s)

/-- The process dies, and its open transaction with it. -/
def crash (w : Worker σ δ ε α) : Worker σ δ ε α :=
  { w with prog := .raise (Store.conflict σ), pending := [], crashed := true }

/-- The step at which a worker takes effect: its first commit, and with `ends`
also its end when it has committed nothing. -/
def takesEffect (ends : Bool) (w : Worker σ δ ε α) : Bool :=
  w.idle && match w.prog with
    | .ret _ | .raise _ => ends
    | .commit _ => true
    | _ => false

end Worker

/-! ## Systems -/

/-- The published store and the workers. -/
structure System (ι σ δ ε α : Type) : Type 1 where
  store : σ
  worker : ι → Worker σ δ ε α

/-- What the scheduler does: one step of a worker, or the death of one. -/
inductive Move (ι : Type) where
  | step (i : ι)
  | crash (i : ι)

namespace System
variable [DecidableEq ι] [Store σ δ ε]

def init (s : σ) (progs : ι → Prog σ δ ε α) : System ι σ δ ε α :=
  ⟨s, fun i => .start (progs i)⟩

def move (x : System ι σ δ ε α) : Move ι → System ι σ δ ε α
  | .step i =>
    { store := ((x.worker i).step x.store).2
      worker := Function.update x.worker i ((x.worker i).step x.store).1 }
  | .crash i => { x with worker := Function.update x.worker i (x.worker i).crash }

def run (x : System ι σ δ ε α) (ms : List (Move ι)) : System ι σ δ ε α := ms.foldl move x

/-- A move is sound when a worker takes effect only on a store that answers
all that it has read the way it was answered, that meets the extra condition
`ok`, and that no other worker is in the middle of changing; and when no
worker dies between two commits of its own. -/
def Sound (ends : Bool) (ok : ι → σ → Prop) (x : System ι σ δ ε α) : Move ι → Prop
  | .step i =>
    (x.worker i).takesEffect ends = true →
      (x.worker i).seen x.store ∧ ok i x.store ∧ ∀ j, (x.worker j).busy = false
  | .crash i => (x.worker i).busy = false

/-- Every move of the run is sound. -/
def SoundRun (ends : Bool) (ok : ι → σ → Prop) : System ι σ δ ε α → List (Move ι) → Prop
  | _, [] => True
  | x, m :: ms => x.Sound ends ok m ∧ SoundRun ends ok (x.move m) ms

end System

/-! ## Serial runs -/

section
variable [Store σ δ ε]

/-- The programs run one after the other, each alone in its own session, on a
store that meets its condition. -/
inductive Serial (progs : ι → Prog σ δ ε α) (ok : ι → σ → Prop) (s : σ) : List ι → σ → Prop where
  | nil : Serial progs ok s [] s
  | snoc {is : List ι} {t : σ} (i : ι) : Serial progs ok s is t → ok i t →
      Serial progs ok s (is ++ [i]) ((progs i).run (.opened t)).2.stored

/-- What every program of the list keeps, a serial run keeps. -/
theorem Serial.keeps {progs : ι → Prog σ δ ε α} {ok : ι → σ → Prop} {s t : σ} {is : List ι}
    {I : σ → Prop} (hI : ∀ i ∈ is, ∀ t, ok i t → I t → I ((progs i).run (.opened t)).2.stored)
    (h : Serial progs ok s is t) (hs : I s) : I t := by
  induction h with
  | nil => exact hs
  | snoc i _ hok ih =>
    exact hI i (by simp) _ hok (ih fun j hj => hI j (List.mem_append_left _ hj))

theorem Serial.nil_inv {progs : ι → Prog σ δ ε α} {ok : ι → σ → Prop} {s u : σ}
    (h : Serial progs ok s [] u) : u = s := by
  generalize hl : [] = l at h
  cases h with
  | nil => rfl
  | snoc i h hok => exact absurd hl.symm (List.concat_ne_nil i _)

theorem Serial.snoc_inv {progs : ι → Prog σ δ ε α} {ok : ι → σ → Prop} {s u : σ} (is : List ι)
    {i : ι} (h : Serial progs ok s (is ++ [i]) u) :
    ∃ t, Serial progs ok s is t ∧ ok i t ∧ u = ((progs i).run (.opened t)).2.stored := by
  generalize hl : is ++ [i] = l at h
  cases h with
  | nil => exact absurd hl (List.concat_ne_nil i is)
  | snoc j h hok =>
    obtain ⟨rfl, hij⟩ := List.append_inj' hl rfl
    cases hij
    exact ⟨_, h, hok, rfl⟩

/-- Two programs one after the other. -/
theorem serial_pair {progs : ι → Prog σ δ ε α} {ok : ι → σ → Prop} {s u : σ} {i j : ι}
    (h : Serial progs ok s [i, j] u) :
    u = ((progs j).run (.opened ((progs i).run (.opened s)).2.stored)).2.stored := by
  obtain ⟨t, h1, -, rfl⟩ := Serial.snoc_inv [i] h
  obtain ⟨v, h2, -, rfl⟩ := Serial.snoc_inv [] h1
  rw [h2.nil_inv]

end

/-! ## One step of a worker -/

section
variable [Store σ δ ε]

/-- What is left of the worker's program does, on any store that it cannot
tell from the ones it has read, what the whole program does there. -/
def Faithful (p : Prog σ δ ε α) (w : Worker σ δ ε α) : Prop :=
  ∀ t, w.seen t →
    p.run (.opened t) = w.prog.run ⟨t, w.view t⟩ ∧ admitsAll t w.pending = true

theorem faithful_start (p : Prog σ δ ε α) : Faithful p (.start p) := fun _ _ => ⟨rfl, rfl⟩

namespace Worker
variable {w : Worker σ δ ε α}

/-- A read or a write of an open worker: the flags and the store stay, what
it has seen grows, and on a store that agrees the rest runs as before. -/
structure Quiet (w w' : Worker σ δ ε α) (s : σ) : Prop where
  published : w'.published = w.published
  closed : w'.closed = w.closed
  crashed : w'.crashed = w.crashed
  seen : ∀ t, w'.seen t → w.seen t
  here : w.seen s → w'.seen s
  run : ∀ t, t = s ∨ w'.seen t → w'.prog.run ⟨t, w'.view t⟩ = w.prog.run ⟨t, w.view t⟩
  admits : ∀ t, t = s ∨ w'.seen t → admitsAll t w.pending = true → admitsAll t w'.pending = true

theorem quiet_query {β : Type} {f : σ → β} {k : β → Prog σ δ ε α} (s : σ)
    (hp : w.prog = .query f k) :
    Quiet w { w with
      prog := k (f (w.view s))
      seen := fun t => w.seen t ∧ f (w.view t) = f (w.view s) } s where
  published := rfl
  closed := rfl
  crashed := rfl
  seen _ h := h.1
  here h := ⟨h, rfl⟩
  run t h := by
    have hf : f (w.view t) = f (w.view s) := by
      rcases h with rfl | h
      · rfl
      · exact h.2
    rw [hp]
    change _ = (k (f (w.view t))).run ⟨t, w.view t⟩
    rw [hf]
    rfl
  admits _ _ h := h

theorem quiet_write {c : δ} {k : Prog σ δ ε α} {s : σ} (hp : w.prog = .write c k)
    (hc : Store.admits (w.view s) c = true) :
    Quiet w { w with
      prog := k, pending := w.pending ++ [c]
      seen := fun t => w.seen t ∧ Store.admits (w.view t) c = true } s where
  published := rfl
  closed := rfl
  crashed := rfl
  seen _ h := h.1
  here h := ⟨h, hc⟩
  run t h := by
    have ha : Store.admits (w.view t) c = true := by
      rcases h with rfl | h
      · exact hc
      · exact h.2
    rw [hp]
    simp only [Prog.run, ha, if_true]
    unfold view
    rw [applyAll_append]
  admits t h hw := by
    have ha : Store.admits (w.view t) c = true := by
      rcases h with rfl | h
      · exact hc
      · exact h.2
    unfold view at ha
    rw [admitsAll_append, hw, ha]
    rfl

theorem quiet_conflict {c : δ} {k : Prog σ δ ε α} {s : σ} (hp : w.prog = .write c k)
    (hc : Store.admits (w.view s) c = false) :
    Quiet w { w with
      prog := .raise (Store.conflict σ), pending := []
      seen := fun t => w.seen t ∧ Store.admits (w.view t) c = false } s where
  published := rfl
  closed := rfl
  crashed := rfl
  seen _ h := h.1
  here h := ⟨h, hc⟩
  run t h := by
    have ha : Store.admits (w.view t) c = false := by
      rcases h with rfl | h
      · exact hc
      · exact h.2
    rw [hp]
    simp only [Prog.run, ha, Bool.false_eq_true, if_false]
    rfl
  admits _ _ _ := rfl

theorem Quiet.faithful {p : Prog σ δ ε α} {w' : Worker σ δ ε α} {s : σ} (h : Quiet w w' s)
    (hw : Faithful p w) : Faithful p w' := by
  intro t ht
  obtain ⟨h1, h2⟩ := hw t (h.seen t ht)
  exact ⟨h1.trans (h.run t (.inr ht)).symm, h.admits t (.inr ht) h2⟩

theorem ended_run {s : Session σ} (h : w.prog.ended = true) : (w.prog.run s).2 = s := by
  cases hp : w.prog with
  | ret a => rfl
  | raise e => rfl
  | query f k | write c k | commit k =>
    rw [hp] at h
    cases h

end Worker
end

/-! ## What every sound run keeps -/

section
variable [DecidableEq ι] [Store σ δ ε] {ends : Bool} {progs : ι → Prog σ δ ε α}
  {ok : ι → σ → Prop} {s : σ} {x : System ι σ δ ε α} {is : List ι}

/-- One worker is between two commits of its own. Alone, its program would
have come to this point as well. -/
structure Midway (progs : ι → Prog σ δ ε α) (ok : ι → σ → Prop) (s : σ)
    (x : System ι σ δ ε α) (is : List ι) (b : ι) (js : List ι) (t : σ) : Prop where
  order : is = js ++ [b]
  serial : Serial progs ok s js t
  ok : ok b t
  run : ((progs b).run (.opened t)).2.stored =
    ((x.worker b).prog.run ⟨x.store, (x.worker b).view x.store⟩).2.stored
  admits : admitsAll x.store (x.worker b).pending = true
  others : ∀ j, j ≠ b → (x.worker j).busy = false

/-- The workers have taken effect in this order, and the store is what they
leave one after the other, or will leave when the last one has gone on to its
end. -/
structure Inv (ends : Bool) (progs : ι → Prog σ δ ε α) (ok : ι → σ → Prop) (s : σ)
    (x : System ι σ δ ε α) (is : List ι) : Prop where
  idle : ∀ i, (x.worker i).idle = true → Faithful (progs i) (x.worker i) ∧ i ∉ is
  member : ∀ i, i ∈ is ↔ (x.worker i).published = true ∨ ends = true ∧ (x.worker i).closed = true
  nodup : is.Nodup
  store : ((∀ j, (x.worker j).busy = false) ∧ Serial progs ok s is x.store) ∨
    ∃ b js t, (x.worker b).busy = true ∧ Midway progs ok s x is b js t

omit [DecidableEq ι] in
theorem inv_init (s : σ) (progs : ι → Prog σ δ ε α) (ok : ι → σ → Prop) :
    Inv ends progs ok s (.init s progs) [] where
  idle i _ := ⟨faithful_start (progs i), List.not_mem_nil⟩
  member i := ⟨fun h => absurd h List.not_mem_nil, fun h => by rcases h with h | ⟨-, h⟩ <;> cases h⟩
  nodup := List.nodup_nil
  store := .inl ⟨fun _ => rfl, .nil⟩

/-- The system with another worker in the place of one. -/
def System.put (x : System ι σ δ ε α) (i : ι) (w : Worker σ δ ε α) : System ι σ δ ε α :=
  { x with worker := Function.update x.worker i w }

omit [Store σ δ ε] in
@[simp] theorem put_self (x : System ι σ δ ε α) (i : ι) (w : Worker σ δ ε α) :
    (x.put i w).worker i = w := Function.update_self ..

omit [Store σ δ ε] in
theorem put_ne (x : System ι σ δ ε α) {i j : ι} (w : Worker σ δ ε α) (h : j ≠ i) :
    (x.put i w).worker j = x.worker j := Function.update_of_ne h ..

/-- A worker that is not in the middle of changing the store is replaced. -/
theorem inv_replace {i : ι} {w : Worker σ δ ε α} (hx : Inv ends progs ok s x is)
    (hidle : w.idle = true → (x.worker i).idle = true ∧
      (Faithful (progs i) (x.worker i) → Faithful (progs i) w))
    (hmem : (x.worker i).published = true ∨ ends = true ∧ (x.worker i).closed = true ↔
      w.published = true ∨ ends = true ∧ w.closed = true)
    (hb : (x.worker i).busy = false) (hb' : w.busy = false) :
    Inv ends progs ok s (x.put i w) is := by
  have hbusy : ∀ j, ((x.put i w).worker j).busy = (x.worker j).busy := by
    intro j
    by_cases hj : j = i
    · subst hj
      rw [put_self, hb, hb']
    · rw [put_ne x w hj]
  refine ⟨?_, ?_, hx.nodup, ?_⟩
  · intro j hj
    by_cases hji : j = i
    · subst hji
      rw [put_self] at hj ⊢
      obtain ⟨h1, h2⟩ := hidle hj
      obtain ⟨h3, h4⟩ := hx.idle j h1
      exact ⟨h2 h3, h4⟩
    · rw [put_ne x w hji] at hj ⊢
      exact hx.idle j hj
  · intro j
    by_cases hji : j = i
    · subst hji
      rw [put_self]
      exact (hx.member j).trans hmem
    · rw [put_ne x w hji]
      exact hx.member j
  · rcases hx.store with ⟨h1, h2⟩ | ⟨b, js, t, hbb, hm⟩
    · exact .inl ⟨fun j => (hbusy j).trans (h1 j), h2⟩
    · have hbi : b ≠ i := by
        rintro rfl
        rw [hb] at hbb
        cases hbb
      refine .inr ⟨b, js, t, (hbusy b).trans hbb, hm.order, hm.serial, hm.ok, ?_, ?_, ?_⟩
      · rw [put_ne x w hbi]
        exact hm.run
      · rw [put_ne x w hbi]
        exact hm.admits
      · exact fun j hj => (hbusy j).trans (hm.others j hj)

omit [DecidableEq ι] [Store σ δ ε] in
theorem not_idle_of_done {w : Worker σ δ ε α}
    (hdone : w.published = true ∨ ends = true ∧ w.closed = true) : w.idle = false := by
  unfold Worker.idle
  rcases hdone with h | ⟨-, h⟩ <;> simp [h]

/-- The other workers stay idle beside one that has taken effect. -/
theorem idle_put {i : ι} {w : Worker σ δ ε α} (hx : Inv ends progs ok s x is)
    (hdone : w.published = true ∨ ends = true ∧ w.closed = true) {j : ι}
    (hj : ((x.put i w).worker j).idle = true) :
    j ≠ i ∧ Faithful (progs j) ((x.put i w).worker j) ∧ j ∉ is := by
  by_cases hji : j = i
  · subst hji
    rw [put_self, not_idle_of_done hdone] at hj
    cases hj
  · rw [put_ne x w hji] at hj ⊢
    exact ⟨hji, hx.idle j hj⟩

theorem member_put {i : ι} {w : Worker σ δ ε α} (hx : Inv ends progs ok s x is)
    (hdone : w.published = true ∨ ends = true ∧ w.closed = true) (j : ι) :
    (j = i ∨ j ∈ is) ↔ ((x.put i w).worker j).published = true ∨
      ends = true ∧ ((x.put i w).worker j).closed = true := by
  by_cases hji : j = i
  · subst hji
    rw [put_self]
    exact iff_of_true (.inl rfl) hdone
  · rw [put_ne x w hji, ← hx.member j]
    exact or_iff_right hji

/-- The store after a move of the last worker in the order, which is in the
middle or at its end. -/
theorem store_put {i : ι} {w : Worker σ δ ε α} {u t : σ} {js : List ι}
    (hserial : Serial progs ok s js t) (hok : ok i t)
    (hrun : ((progs i).run (.opened t)).2.stored = (w.prog.run ⟨u, w.view u⟩).2.stored)
    (hothers : ∀ j, j ≠ i → (x.worker j).busy = false)
    (hend : w.busy = false → w.prog.ended = true)
    (hadm : w.busy = true → admitsAll u w.pending = true) :
    ((∀ j, ((x.put i w).worker j).busy = false) ∧ Serial progs ok s (js ++ [i]) u) ∨
      ∃ b js' t, ((x.put i w).worker b).busy = true ∧
        Midway progs ok s { x.put i w with store := u } (js ++ [i]) b js' t := by
  have hrest : ∀ j, j ≠ i → ((x.put i w).worker j).busy = false := by
    intro j hj
    rw [put_ne x w hj]
    exact hothers j hj
  by_cases hb : w.busy = true
  · refine .inr ⟨i, js, t, ?_, rfl, hserial, hok, ?_, ?_, hrest⟩
    · rw [put_self, hb]
    · change _ = (((x.put i w).worker i).prog.run ⟨u, ((x.put i w).worker i).view u⟩).2.stored
      rw [put_self, hrun]
    · change admitsAll u ((x.put i w).worker i).pending = true
      rw [put_self, hadm hb]
  · have hquiet : w.busy = false := by simpa using hb
    refine .inl ⟨fun j => ?_, ?_⟩
    · by_cases hj : j = i
      · rw [hj, put_self, hquiet]
      · exact hrest j hj
    · have hlast := Serial.snoc i hserial hok
      rwa [hrun, Worker.ended_run (hend hquiet)] at hlast

/-- The worker in the middle goes on: it reads, writes or commits again. -/
theorem inv_midway {i : ι} {w : Worker σ δ ε α} {u : σ} (hx : Inv ends progs ok s x is)
    (hb : (x.worker i).busy = true) (hpub : w.published = true)
    (hrun : (w.prog.run ⟨u, w.view u⟩).2.stored =
      ((x.worker i).prog.run ⟨x.store, (x.worker i).view x.store⟩).2.stored)
    (hadm : admitsAll x.store (x.worker i).pending = true → admitsAll u w.pending = true) :
    Inv ends progs ok s { x.put i w with store := u } is := by
  have hmember : i ∈ is := (hx.member i).mpr (.inl (by
    unfold Worker.busy at hb
    exact (Bool.and_eq_true_iff.mp hb).1))
  have hdone : w.published = true ∨ ends = true ∧ w.closed = true := .inl hpub
  refine ⟨fun j hj => (idle_put hx hdone hj).2, fun j => ?_, hx.nodup, ?_⟩
  · rw [← member_put hx hdone j]
    exact ⟨.inr, fun h => h.elim (fun h => h ▸ hmember) id⟩
  · obtain ⟨b, js, t, hbb, hm⟩ : ∃ b js t, (x.worker b).busy = true ∧
        Midway progs ok s x is b js t := by
      rcases hx.store with ⟨h1, -⟩ | h
      · rw [h1 i] at hb
        cases hb
      · exact h
    have hbi : b = i := by
      by_contra hne
      rw [hm.others i (Ne.symm hne)] at hb
      cases hb
    subst hbi
    rw [hm.order]
    exact store_put hm.serial hm.ok (hm.run.trans hrun.symm) hm.others
      (fun hquiet => by simpa [Worker.busy, hpub] using hquiet) fun _ => hadm hm.admits

/-- A worker takes effect: it is the next one in the order. -/
theorem inv_effect {i : ι} {w : Worker σ δ ε α} {u : σ} (hx : Inv ends progs ok s x is)
    (hidle : (x.worker i).idle = true) (hseen : (x.worker i).seen x.store)
    (hok : ok i x.store) (hnone : ∀ j, (x.worker j).busy = false)
    (hdone : w.published = true ∨ ends = true ∧ w.closed = true)
    (hrun : (w.prog.run ⟨u, w.view u⟩).2.stored =
      ((x.worker i).prog.run ⟨x.store, (x.worker i).view x.store⟩).2.stored)
    (hend : w.busy = false → w.prog.ended = true)
    (hadm : admitsAll u w.pending = true) :
    Inv ends progs ok s { x.put i w with store := u } (is ++ [i]) := by
  obtain ⟨hfaith, hfresh⟩ := hx.idle i hidle
  have hserial : Serial progs ok s is x.store := by
    rcases hx.store with ⟨-, h⟩ | ⟨b, js, t, hbb, -⟩
    · exact h
    · rw [hnone b] at hbb
      cases hbb
  have halone : ((progs i).run (.opened x.store)).2.stored =
      (w.prog.run ⟨u, w.view u⟩).2.stored := by
    rw [(hfaith x.store hseen).1, hrun]
  refine ⟨fun j hj => ?_, fun j => ?_, ?_, ?_⟩
  · obtain ⟨hji, hworker, hmem⟩ := idle_put hx hdone hj
    exact ⟨hworker, by simp [hmem, hji]⟩
  · rw [← member_put hx hdone j, List.mem_append, List.mem_singleton, or_comm]
  · exact List.nodup_append.mpr ⟨hx.nodup, by simp, by
      intro a ha b hb
      rw [List.mem_singleton.mp hb]
      rintro rfl
      exact hfresh ha⟩
  · exact store_put hserial hok halone (fun j _ => hnone j) hend fun _ => hadm

/-- A read or a write of an open worker. -/
theorem inv_quiet {i : ι} {w : Worker σ δ ε α} (hx : Inv ends progs ok s x is)
    (hopen : (x.worker i).closed = false ∧ (x.worker i).crashed = false)
    (hgo : (x.worker i).prog.ended = false) (h : Worker.Quiet (x.worker i) w x.store) :
    Inv ends progs ok s (x.put i w) is := by
  by_cases hp : (x.worker i).published = true
  · refine inv_midway hx ?_ (h.published.trans hp) ?_ (h.admits x.store (.inl rfl))
    · simp [Worker.busy, hp, hgo]
    · rw [h.run x.store (.inl rfl)]
  · have hp' : (x.worker i).published = false := by simpa using hp
    refine inv_replace hx (fun _ => ⟨?_, h.faithful⟩) ?_ ?_ ?_
    · simp [Worker.idle, hp', hopen.1, hopen.2]
    · rw [h.published, h.closed]
    · simp [Worker.busy, hp']
    · simp [Worker.busy, h.published, hp']

/-- An open worker at the end of its program closes. -/
theorem inv_finish {i : ι} (hx : Inv ends progs ok s x is)
    (hopen : (x.worker i).closed = false ∧ (x.worker i).crashed = false)
    (hend : (x.worker i).prog.ended = true)
    (hsound : ((x.worker i).idle && ends) = true →
      (x.worker i).seen x.store ∧ ok i x.store ∧ ∀ j, (x.worker j).busy = false) :
    ∃ is, Inv ends progs ok s
      (x.put i { x.worker i with pending := [], closed := true }) is := by
  have hbusy : (x.worker i).busy = false := by simp [Worker.busy, hend]
  by_cases hp : (x.worker i).published = true ∨ ends = false
  · refine ⟨is, inv_replace hx ?_ ?_ hbusy ?_⟩
    · intro h
      simp [Worker.idle] at h
    · rcases hp with hp | hp
      · exact iff_of_true (.inl hp) (.inl hp)
      · simp [hp]
    · simp [Worker.busy, hend]
  · obtain ⟨hp, he⟩ := not_or.mp hp
    have he : ends = true := by simpa using he
    have hidle : (x.worker i).idle = true := by
      simp [Worker.idle, hopen.1, hopen.2, Bool.eq_false_iff.mpr hp]
    obtain ⟨hseen, hok, hnone⟩ := hsound (by rw [hidle, he]; rfl)
    refine ⟨is ++ [i], inv_effect hx hidle hseen hok hnone (.inr ⟨he, rfl⟩) ?_
      (fun _ => hend) rfl⟩
    rw [Worker.ended_run hend, Worker.ended_run hend]

/-- An open worker commits. -/
theorem inv_commit {i : ι} {k : Prog σ δ ε α} (hx : Inv ends progs ok s x is)
    (hopen : (x.worker i).closed = false ∧ (x.worker i).crashed = false)
    (hp : (x.worker i).prog = .commit k)
    (hsound : (x.worker i).idle = true →
      (x.worker i).seen x.store ∧ ok i x.store ∧ ∀ j, (x.worker j).busy = false) :
    admitsAll x.store (x.worker i).pending = true ∧
    ∃ is, Inv ends progs ok s
      { x.put i { x.worker i with
          prog := k, pending := [], seen := fun _ => True, published := true } with
        store := (x.worker i).view x.store } is := by
  have hrun : (k.run ⟨(x.worker i).view x.store, (x.worker i).view x.store⟩).2.stored =
      ((x.worker i).prog.run ⟨x.store, (x.worker i).view x.store⟩).2.stored := by
    rw [hp]
    rfl
  by_cases hpub : (x.worker i).published = true
  · have hbusy : (x.worker i).busy = true := by simp [Worker.busy, hpub, hp, Prog.ended]
    refine ⟨?_, is, inv_midway hx hbusy rfl hrun (fun _ => rfl)⟩
    rcases hx.store with ⟨h, -⟩ | ⟨b, js, t, -, hm⟩
    · rw [h i] at hbusy
      cases hbusy
    · have hbi : i = b := by
        by_contra hne
        rw [hm.others i hne] at hbusy
        cases hbusy
      exact hbi ▸ hm.admits
  · have hidle : (x.worker i).idle = true := by
      simp [Worker.idle, hopen.1, hopen.2, Bool.eq_false_iff.mpr hpub]
    obtain ⟨hseen, hok, hnone⟩ := hsound hidle
    refine ⟨((hx.idle i hidle).1 x.store hseen).2, is ++ [i],
      inv_effect hx hidle hseen hok hnone (.inl rfl) hrun ?_ rfl⟩
    intro hb
    simpa [Worker.busy] using hb

/-- One sound move. -/
theorem inv_move {m : Move ι} (hx : Inv ends progs ok s x is) (hm : x.Sound ends ok m) :
    ∃ is, Inv ends progs ok s (x.move m) is := by
  cases m with
  | crash i =>
    refine ⟨is, inv_replace hx ?_ ?_ hm ?_⟩
    · intro h
      simp [Worker.idle, Worker.crash] at h
    · exact Iff.rfl
    · simp [Worker.busy, Worker.crash, Prog.ended]
  | step i =>
    unfold System.move Worker.step
    unfold System.Sound Worker.takesEffect at hm
    by_cases hstop : ((x.worker i).closed || (x.worker i).crashed) = true
    · simp only [hstop, if_true, Function.update_eq_self]
      exact ⟨is, hx⟩
    · have hopen : (x.worker i).closed = false ∧ (x.worker i).crashed = false := by
        simpa using hstop
      simp only [hstop]
      cases hp : (x.worker i).prog with
      | ret a | raise e =>
        have hend : (x.worker i).prog.ended = true := by
          rw [hp]
          rfl
        simp only [hp] at hm ⊢
        exact hp ▸ inv_finish hx hopen hend hm
      | query f k =>
        have hgo : (x.worker i).prog.ended = false := by
          rw [hp]
          rfl
        exact ⟨is, inv_quiet hx hopen hgo (Worker.quiet_query x.store hp)⟩
      | write c k =>
        have hgo : (x.worker i).prog.ended = false := by
          rw [hp]
          rfl
        by_cases hc : Store.admits ((x.worker i).view x.store) c = true
        · simp only [hc, if_true]
          exact ⟨is, inv_quiet hx hopen hgo (Worker.quiet_write hp hc)⟩
        · have hc' : Store.admits ((x.worker i).view x.store) c = false := by simpa using hc
          simp only [hc', Bool.false_eq_true, if_false]
          exact ⟨is, inv_quiet hx hopen hgo (Worker.quiet_conflict hp hc')⟩
      | commit k =>
        simp only [hp, Bool.and_true] at hm ⊢
        obtain ⟨hadm, h⟩ := inv_commit hx hopen hp hm
        simp only [hadm, if_true]
        exact h

theorem inv_run {ms : List (Move ι)} (hx : Inv ends progs ok s x is)
    (hms : x.SoundRun ends ok ms) : ∃ is, Inv ends progs ok s (x.run ms) is := by
  induction ms generalizing x is with
  | nil => exact ⟨is, hx⟩
  | cons m ms ih =>
    obtain ⟨js, h⟩ := inv_move hx hms.1
    exact ih h hms.2

/-- LAW: when every move is sound and nobody is between two commits of its
own, the store is what the workers that have published leave one after the
other, each once. -/
theorem sound_runs_are_serial {ms : List (Move ι)}
    (hms : (System.init s progs).SoundRun ends ok ms)
    (hrest : ∀ j, (((System.init s progs).run ms).worker j).busy = false) :
    ∃ is, Serial progs ok s is ((System.init s progs).run ms).store ∧ is.Nodup ∧
      ∀ i, i ∈ is ↔ (((System.init s progs).run ms).worker i).published = true ∨
        ends = true ∧ (((System.init s progs).run ms).worker i).closed = true := by
  obtain ⟨is, h⟩ := inv_run (inv_init s progs ok) hms
  refine ⟨is, ?_, h.nodup, h.member⟩
  rcases h.store with ⟨-, h⟩ | ⟨b, js, t, hb, -⟩
  · exact h
  · rw [hrest b] at hb
    cases hb

end

/-- A list without repetitions that has both booleans. -/
theorem both_orders {l : List Bool} (hn : l.Nodup) (h : ∀ b, b ∈ l) :
    l = [false, true] ∨ l = [true, false] := by
  have hp : l.Perm [false, true] :=
    (List.perm_ext_iff_of_nodup hn (by decide)).mpr fun b => by simp [h b]
  obtain ⟨a, b, rfl⟩ := List.length_eq_two.mp hp.length_eq
  cases a <;> cases b <;> simp_all

/-! ## What every change moves along -/

/-- A preorder that every change moves up. -/
structure Grows [Store σ δ ε] (R : σ → σ → Prop) : Prop where
  refl : ∀ s, R s s
  trans : ∀ {s t u}, R s t → R t u → R s u
  apply : ∀ s c, R s (Store.apply s c)

section
variable [Store σ δ ε] {R : σ → σ → Prop}

theorem Grows.applyAll (h : Grows R) (s : σ) (cs : List δ) : R s (applyAll s cs) := by
  induction cs generalizing s with
  | nil => exact h.refl s
  | cons c cs ih => exact h.trans (h.apply s c) (ih _)

theorem Grows.run (h : Grows R) {b : σ} (p : Prog σ δ ε α) {s : Session σ}
    (hs : R b s.stored) (hv : R b s.view) : R b (p.run s).2.stored := by
  induction p generalizing s with
  | ret a => exact hs
  | raise e => exact hs
  | query q k ih => exact ih _ hs hv
  | write c k ih =>
    simp only [Prog.run]
    split
    · exact ih hs (h.trans hv (h.apply _ c))
    · exact hs
  | commit k ih => exact ih hv hv

/-- A sound run is on the way to the end of a serial one. -/
theorem below_serial [DecidableEq ι] {ends : Bool} {progs : ι → Prog σ δ ε α}
    {ok : ι → σ → Prop} {s : σ} {ms : List (Move ι)} (h : Grows R)
    (hms : (System.init s progs).SoundRun ends ok ms) :
    ∃ is u, Serial progs ok s is u ∧ R ((System.init s progs).run ms).store u := by
  obtain ⟨is, hi⟩ := inv_run (inv_init s progs ok) hms
  rcases hi.store with ⟨-, hs⟩ | ⟨b, js, t, -, hm⟩
  · exact ⟨_, _, hs, h.refl _⟩
  · refine ⟨_, _, hm.order ▸ Serial.snoc b hm.serial hm.ok, ?_⟩
    rw [hm.run]
    exact h.run _ (h.refl _) (h.applyAll _ _)

end

/-! ## Programs with one commit -/

/-- The program never commits. -/
def Prog.Silent : Prog σ δ ε α → Prop
  | .ret _ | .raise _ => True
  | .query _ k => ∀ b, (k b).Silent
  | .write _ k => k.Silent
  | .commit _ => False

/-- The program ends with its first commit. -/
def Prog.Once : Prog σ δ ε α → Prop
  | .ret _ | .raise _ => True
  | .query _ k => ∀ b, (k b).Once
  | .write _ k => k.Once
  | .commit k => k.ended = true

namespace Prog
variable {β : Type}

theorem Silent.bind {x : Prog σ δ ε α} {f : α → Prog σ δ ε β} (hx : x.Silent)
    (hf : ∀ a, (f a).Silent) : (x >>= f).Silent := by
  change (x.bind f).Silent
  induction x with
  | ret a => exact hf a
  | raise e => trivial
  | query q k ih => exact fun b => ih b (hx b)
  | write c k ih => exact ih hx
  | commit k ih => exact hx.elim

theorem Silent.once_bind {x : Prog σ δ ε α} {f : α → Prog σ δ ε β} (hx : x.Silent)
    (hf : ∀ a, (f a).Once) : (x >>= f).Once := by
  change (x.bind f).Once
  induction x with
  | ret a => exact hf a
  | raise e => trivial
  | query q k ih => exact fun b => ih b (hx b)
  | write c k ih => exact ih hx
  | commit k ih => exact hx.elim

theorem bind_assoc {γ : Type} (x : Prog σ δ ε α) (f : α → Prog σ δ ε β) (g : β → Prog σ δ ε γ) :
    (x >>= f) >>= g = x >>= fun a => f a >>= g := by
  change (x.bind f).bind g = x.bind fun a => (f a).bind g
  induction x with
  | ret a => rfl
  | raise e => rfl
  | query q k ih => exact congrArg (Prog.query q) (funext ih)
  | write c k ih => exact congrArg (Prog.write c) ih
  | commit k ih => exact congrArg Prog.commit ih

/-- A silent part in front of a program and of what its caller does then. -/
theorem Silent.once_bind_bind {γ : Type} {x : Prog σ δ ε α} {f : α → Prog σ δ ε β}
    {g : β → Prog σ δ ε γ} (hx : x.Silent) (hf : ∀ a, (f a >>= g).Once) :
    ((x >>= f) >>= g).Once := by
  rw [bind_assoc]
  exact hx.once_bind hf

theorem Once.bind_pure {x : Prog σ δ ε α} {g : α → β} (hx : x.Once) :
    (x >>= fun a => Pure.pure (g a)).Once := by
  change (x.bind fun a => .ret (g a)).Once
  induction x with
  | ret a => trivial
  | raise e => trivial
  | query q k ih => exact fun b => ih b (hx b)
  | write c k ih => exact ih hx
  | commit k ih =>
    cases k with
    | ret a => rfl
    | raise e => rfl
    | query f k | write c k | commit k => cases hx

theorem Silent.attempt {x : Prog σ δ ε α} (hx : x.Silent) : x.attempt.Silent := by
  induction x with
  | ret a => trivial
  | raise e => trivial
  | query q k ih => exact fun b => ih b (hx b)
  | write c k ih => exact ih hx
  | commit k ih => exact hx.elim

theorem silent_pure (a : α) : (Pure.pure a : Prog σ δ ε α).Silent := trivial

theorem silent_throw (e : ε) : (throw e : Prog σ δ ε α).Silent := trivial

theorem silent_read (f : σ → α) : (read f : Prog σ δ ε α).Silent := fun _ => trivial

theorem silent_flush (c : δ) : (flush c : Prog σ δ ε Unit).Silent := trivial

theorem silent_lift (x : Except ε α) : (lift x : Prog σ δ ε α).Silent := by
  cases x <;> trivial

end Prog

section
variable [Store σ δ ε]

/-- A program with one commit has ended when it has published. -/
def Worker.Brief (w : Worker σ δ ε α) : Prop :=
  w.prog.Once ∧ (w.published = true → w.prog.ended = true)

theorem Worker.Brief.step {w : Worker σ δ ε α} (h : w.Brief) (s : σ) : (w.step s).1.Brief := by
  obtain ⟨h1, h2⟩ := h
  unfold Worker.step
  by_cases hstop : (w.closed || w.crashed) = true
  · rw [if_pos hstop]
    exact ⟨h1, h2⟩
  · rw [if_neg hstop]
    cases hp : w.prog with
    | ret a | raise e =>
      exact ⟨trivial, fun _ => rfl⟩
    | query f k =>
      rw [hp] at h1 h2
      exact ⟨h1 _, fun hpub => by cases h2 hpub⟩
    | write c k =>
      rw [hp] at h1 h2
      simp only
      split
      · exact ⟨h1, fun hpub => by cases h2 hpub⟩
      · exact ⟨trivial, fun _ => rfl⟩
    | commit k =>
      rw [hp] at h1 h2
      have hk : k.ended = true := h1
      simp only
      split
      · refine ⟨?_, fun _ => hk⟩
        cases k with
        | ret a => trivial
        | raise e => trivial
        | query f k | write c k | commit k => cases hk
      · exact ⟨trivial, fun _ => rfl⟩

theorem Worker.Brief.crash {w : Worker σ δ ε α} (_ : w.Brief) : w.crash.Brief :=
  ⟨trivial, fun _ => rfl⟩

variable [DecidableEq ι]

/-- What every step of a worker and its death keep, every run keeps of all
workers. -/
theorem workers_keep {P : Worker σ δ ε α → Prop} (hstep : ∀ w s, P w → P (w.step s).1)
    (hcrash : ∀ w, P w → P w.crash) (ms : List (Move ι)) {x : System ι σ δ ε α}
    (hx : ∀ i, P (x.worker i)) (i : ι) : P ((x.run ms).worker i) := by
  unfold System.run
  induction ms generalizing x with
  | nil => exact hx i
  | cons m ms ih =>
    refine ih fun j => ?_
    cases m with
    | step k =>
      by_cases hjk : j = k
      · subst hjk
        simp only [System.move, Function.update_self]
        exact hstep _ _ (hx j)
      · simp only [System.move, Function.update_of_ne hjk]
        exact hx j
    | crash k =>
      by_cases hjk : j = k
      · subst hjk
        simp only [System.move, Function.update_self]
        exact hcrash _ (hx j)
      · simp only [System.move, Function.update_of_ne hjk]
        exact hx j

/-- Nobody is ever between two commits when every program has one. -/
theorem never_busy {s : σ} {progs : ι → Prog σ δ ε α} (h : ∀ i, (progs i).Once)
    (ms : List (Move ι)) (j : ι) : (((System.init s progs).run ms).worker j).busy = false := by
  have hbrief : (((System.init s progs).run ms).worker j).Brief :=
    workers_keep (P := Worker.Brief) (fun _ s hw => hw.step s) (fun _ hw => hw.crash) ms
      (fun i => ⟨h i, fun hp => by cases hp⟩) j
  unfold Worker.busy
  cases hp : (((System.init s progs).run ms).worker j).published with
  | false => rfl
  | true =>
    rw [hbrief.2 hp]
    rfl

/-! ## In turn -/

/-- A worker that has closed its session has come to the end. -/
theorem closed_ended {s : σ} {progs : ι → Prog σ δ ε α} (ms : List (Move ι)) {j : ι}
    (h : (((System.init s progs).run ms).worker j).closed = true) :
    (((System.init s progs).run ms).worker j).busy = false := by
  have hend := workers_keep (P := fun w : Worker σ δ ε α => w.closed = true → w.prog.ended = true)
    (fun w s hw => ?_) (fun _ _ _ => rfl) ms (x := System.init s progs) (fun i hi => by cases hi) j
  · unfold Worker.busy
    rw [hend h, Bool.not_true, Bool.and_false]
  · unfold Worker.step
    by_cases hstop : (w.closed || w.crashed) = true
    · rw [if_pos hstop]
      exact hw
    · have hopen : w.closed = false := (by simpa using hstop : _ ∧ _).1
      rw [if_neg hstop]
      cases hp : w.prog with
      | ret a | raise e => exact fun _ => rfl
      | query f k => exact fun hc => by rw [hopen] at hc; cases hc
      | write c k | commit k =>
        simp only
        split
        · exact fun hc => by rw [hopen] at hc; cases hc
        · exact fun _ => rfl

theorem soundRun_append {ends : Bool} {ok : ι → σ → Prop} {x : System ι σ δ ε α}
    {ms ns : List (Move ι)} (h : x.SoundRun ends ok ms) (h' : (x.run ms).SoundRun ends ok ns) :
    x.SoundRun ends ok (ms ++ ns) := by
  induction ms generalizing x with
  | nil => exact h'
  | cons m ms ih => exact ⟨h.1, ih h.2 h'⟩

/-- The steps of one worker leave the others alone. -/
theorem run_alone_ne {x : System ι σ δ ε α} {i j : ι} (hj : j ≠ i) (n : Nat) :
    (x.run (.replicate n (.step i))).worker j = x.worker j := by
  induction n generalizing x with
  | zero => rfl
  | succ n ih =>
    refine (ih (x := x.move (.step i))).trans ?_
    exact Function.update_of_ne hj ..

/-- As long as it has not taken effect, a worker that runs alone has seen
nothing that is not so. -/
theorem seen_step {w : Worker σ δ ε α} {s : σ} (h : w.idle = true → w.seen s)
    (hw : (w.step s).1.idle = true) : (w.step s).1.seen (w.step s).2 := by
  unfold Worker.step at hw ⊢
  by_cases hstop : (w.closed || w.crashed) = true
  · rw [if_pos hstop] at hw ⊢
    exact h hw
  · rw [if_neg hstop] at hw ⊢
    cases hp : w.prog with
    | ret a | raise e =>
      simp only [hp, Worker.idle, Bool.not_true, Bool.and_false, Bool.false_and] at hw
      cases hw
    | query f k =>
      simp only [hp] at hw
      exact ⟨h hw, rfl⟩
    | write c k =>
      simp only [hp] at hw ⊢
      split
      · rename_i hc
        rw [if_pos hc] at hw
        exact ⟨h hw, hc⟩
      · rename_i hc
        rw [if_neg hc] at hw
        exact ⟨h hw, by simpa using hc⟩
    | commit k =>
      simp only [hp] at hw ⊢
      split
      · trivial
      · rename_i hc
        rw [if_neg hc] at hw
        exact h hw

/-- A worker that runs alone makes sound steps only. -/
theorem sound_alone {ends : Bool} {ok : ι → σ → Prop} {x : System ι σ δ ε α} {i : ι}
    (hok : ∀ t, ok i t)
    (hseen : (x.worker i).idle = true → (x.worker i).seen x.store)
    (hothers : ∀ j, j ≠ i → (x.worker j).busy = false) (n : Nat) :
    x.SoundRun ends ok (.replicate n (.step i)) := by
  induction n generalizing x with
  | zero => trivial
  | succ n ih =>
    refine ⟨fun hte => ?_, ih ?_ fun j hj => ?_⟩
    · have hidle : (x.worker i).idle = true := (Bool.and_eq_true_iff.mp hte).1
      refine ⟨hseen hidle, hok _, fun j => ?_⟩
      by_cases hj : j = i
      · subst hj
        unfold Worker.idle at hidle
        simp only [Bool.and_eq_true, Bool.not_eq_true'] at hidle
        simp [Worker.busy, hidle.1.1]
      · exact hothers j hj
    · intro h
      simp only [System.move, Function.update_self] at h ⊢
      exact seen_step hseen h
    · simp only [System.move, Function.update_of_ne hj]
      exact hothers j hj

end

end unit_of_work
