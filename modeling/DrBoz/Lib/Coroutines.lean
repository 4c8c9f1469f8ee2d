-- Handlers that share a state and take turns. A handler keeps control until it
-- waits for an answer from outside; while it waits, the others may run. What
-- every handler leaves behind whenever it gives up control holds in every state
-- that a run reaches.
import DrBoz.Lib.Runs

open runs

namespace coroutines

variable {σ β α γ : Type}

/-! ## Handlers -/

/-- What is left of a handler: it changes the shared state, reads it, or waits
for an answer. It ends with a value, or it fails. -/
inductive Coroutine (σ β α : Type) where
  | done (a : α)
  | failed
  | change (f : σ → σ) (rest : Coroutine σ β α)
  | look (rest : σ → Coroutine σ β α)
  | wait (rest : β → Coroutine σ β α)

namespace Coroutine

def bind : Coroutine σ β α → (α → Coroutine σ β γ) → Coroutine σ β γ
  | done a, k => k a
  | failed, _ => failed
  | change f rest, k => change f (rest.bind k)
  | look rest, k => look fun s => (rest s).bind k
  | wait rest, k => wait fun b => (rest b).bind k

instance : Monad (Coroutine σ β) where
  pure := done
  bind := bind

/-- The handler changes the shared state. -/
def edit (f : σ → σ) : Coroutine σ β Unit := change f (done ())

/-- The handler reads the shared state. -/
def shared : Coroutine σ β σ := look done

/-- The handler waits for an answer. -/
def answer : Coroutine σ β β := wait done

/-- The handler runs until it waits or is over. -/
def advance : Coroutine σ β α → σ → σ × Coroutine σ β α
  | change f rest, s => rest.advance (f s)
  | look rest, s => (rest s).advance s
  | done a, s => (s, done a)
  | failed, s => (s, failed)
  | wait rest, s => (s, wait rest)

/-- The handler runs to its end, and nobody else runs. It gets the same answer
each time. -/
def alone (b : β) : Coroutine σ β α → σ → Option α × σ
  | done a, s => (some a, s)
  | failed, s => (none, s)
  | change f rest, s => rest.alone b (f s)
  | look rest, s => (rest s).alone b s
  | wait rest, s => (rest b).alone b s

/-! ## What a handler keeps -/

/-- From a state, the handler leaves `I` behind whenever it gives up control,
and ends in `Q`. It finds `I` after each wait. -/
def wp (I : σ → Prop) (Q : α → σ → Prop) : Coroutine σ β α → σ → Prop
  | done a, s => Q a s
  | failed, s => I s
  | change f rest, s => rest.wp I Q (f s)
  | look rest, s => (rest s).wp I Q s
  | wait rest, s => I s ∧ ∀ b t, I t → (rest b).wp I Q t

variable {I : σ → Prop} {Q Q' : α → σ → Prop} {c : Coroutine σ β α} {s : σ}

theorem wp.mono (hQ : ∀ a s, Q a s → Q' a s) (h : c.wp I Q s) : c.wp I Q' s := by
  induction c generalizing s with
  | done a => exact hQ a s h
  | failed => exact h
  | change f rest ih => exact ih h
  | look rest ih => exact ih s h
  | wait rest ih => exact ⟨h.1, fun b t ht => ih b (h.2 b t ht)⟩

theorem wp_bind {k : α → Coroutine σ β γ} {R : γ → σ → Prop} :
    (c >>= k).wp I R s ↔ c.wp I (fun a => (k a).wp I R) s := by
  change (c.bind k).wp I R s ↔ _
  induction c generalizing s with
  | done a => exact Iff.rfl
  | failed => exact Iff.rfl
  | change f rest ih => exact ih
  | look rest ih => exact ih s
  | wait rest ih =>
    exact and_congr_right fun _ => forall_congr' fun b => forall_congr' fun t =>
      imp_congr_right fun _ => ih b

@[simp] theorem wp_pure {a : α} : (Pure.pure a : Coroutine σ β α).wp I Q s ↔ Q a s := Iff.rfl

@[simp] theorem wp_failed : (failed : Coroutine σ β α).wp I Q s ↔ I s := Iff.rfl

@[simp] theorem wp_edit {f : σ → σ} {R : Unit → σ → Prop} :
    (edit f : Coroutine σ β Unit).wp I R s ↔ R () (f s) := Iff.rfl

@[simp] theorem wp_shared {R : σ → σ → Prop} :
    (shared : Coroutine σ β σ).wp I R s ↔ R s s := Iff.rfl

@[simp] theorem wp_answer {R : β → σ → Prop} :
    (answer : Coroutine σ β β).wp I R s ↔ I s ∧ ∀ b t, I t → R b t := Iff.rfl

/-- A handler that is started in any state with `I`, and leaves `I` behind. -/
def Keeps (I : σ → Prop) (c : Coroutine σ β α) : Prop := ∀ s, I s → c.wp I (fun _ => I) s

/-- A handler that has given up control. -/
def Paused (I : σ → Prop) : Coroutine σ β α → Prop
  | wait rest => ∀ b, (rest b).Keeps I
  | _ => True

theorem advance_keeps (h : c.wp I (fun _ => I) s) :
    I (c.advance s).1 ∧ (c.advance s).2.Paused I := by
  induction c generalizing s with
  | done a => exact ⟨h, trivial⟩
  | failed => exact ⟨h, trivial⟩
  | change f rest ih => exact ih h
  | look rest ih => exact ih s h
  | wait rest ih => exact ⟨h.1, fun b t ht => h.2 b t ht⟩

end Coroutine

/-! ## The loop -/

/-- The shared state, with the handlers that were started, in order. -/
structure Loop (σ β : Type) where
  state : σ
  tasks : List (Coroutine σ β Unit) := []

namespace Loop

/-- A handler is started, and runs until it waits. -/
def start (c : Coroutine σ β Unit) (w : Loop σ β) : Loop σ β :=
  let (s, left) := c.advance w.state
  ⟨s, w.tasks ++ [left]⟩

/-- A handler that waits gets its answer, and runs until it waits again. -/
def resume (i : Nat) (b : β) (w : Loop σ β) : Loop σ β :=
  match w.tasks[i]? with
  | some (.wait rest) =>
    let (s, left) := (rest b).advance w.state
    ⟨s, w.tasks.set i left⟩
  | _ => w

/-- The shared state has `I`, and so will it when a handler that waits goes on. -/
structure Holds (I : σ → Prop) (w : Loop σ β) : Prop where
  state : I w.state
  tasks : ∀ c ∈ w.tasks, c.Paused I

variable {I : σ → Prop} {w : Loop σ β} {c : Coroutine σ β Unit}

theorem Holds.start (h : w.Holds I) (hc : c.Keeps I) : (w.start c).Holds I := by
  obtain ⟨hstate, hleft⟩ := Coroutine.advance_keeps (hc w.state h.state)
  refine ⟨hstate, fun d hd => ?_⟩
  rcases List.mem_append.mp hd with hd | hd
  · exact h.tasks d hd
  · rw [List.mem_singleton.mp hd]
    exact hleft

theorem Holds.resume (h : w.Holds I) (i : Nat) (b : β) : (w.resume i b).Holds I := by
  unfold Loop.resume
  split
  · next rest hi =>
    have hpaused : (Coroutine.wait rest).Paused I := h.tasks _ (List.mem_of_getElem? hi)
    obtain ⟨hstate, hleft⟩ := Coroutine.advance_keeps (hpaused b w.state h.state)
    refine ⟨hstate, fun d hd => ?_⟩
    rcases List.mem_or_eq_of_mem_set hd with hd | rfl
    · exact h.tasks d hd
    · exact hleft
  · exact h

end Loop

end coroutines
