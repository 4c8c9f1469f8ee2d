-- A store that is part of a larger one. A program over the part runs over the
-- whole, where it changes nothing else.
import DrBoz.Lib.UnitOfWork

namespace unit_of_work

variable {σ τ δ γ ε α β : Type}

/-- Where the part stands in the whole, and what its changes are there. -/
structure Part (σ τ : Type) {δ γ ε : Type} [Store σ δ ε] [Store τ γ ε] where
  view : τ → σ
  change : δ → γ
  view_apply : ∀ t c, view (Store.apply t (change c)) = Store.apply (view t) c
  admits : ∀ t c, Store.admits t (change c) = Store.admits (view t) c
  conflict : (Store.conflict τ : ε) = Store.conflict σ

def Session.map (f : τ → σ) (s : Session τ) : Session σ := ⟨f s.stored, f s.view⟩

namespace Prog
variable [Store σ δ ε] [Store τ γ ε]

/-- The program of the part, over the whole. -/
def within (p : Part σ τ) : Prog σ δ ε α → Prog τ γ ε α
  | .ret a => .ret a
  | .raise e => .raise e
  | .query q k => .query (fun t => q (p.view t)) fun b => (k b).within p
  | .write c k => .write (p.change c) (k.within p)
  | .commit k => .commit (k.within p)

/-- Over the whole the program does to the part what it does alone. -/
theorem run_within (p : Part σ τ) (x : Prog σ δ ε α) (s : Session τ) :
    ((x.within p).run s).1 = (x.run (s.map p.view)).1 ∧
      ((x.within p).run s).2.map p.view = (x.run (s.map p.view)).2 := by
  induction x generalizing s with
  | ret a => exact ⟨rfl, rfl⟩
  | raise e => exact ⟨rfl, rfl⟩
  | query q k ih => exact ih _ s
  | write c k ih =>
    simp only [within, run]
    rw [p.admits, p.conflict]
    cases h : Store.admits (p.view s.view) c with
    | true =>
      have happly : Session.map p.view ⟨s.stored, Store.apply s.view (p.change c)⟩ =
          ⟨p.view s.stored, Store.apply (p.view s.view) c⟩ := by
        unfold Session.map
        rw [p.view_apply]
      have hstep := ih ⟨s.stored, Store.apply s.view (p.change c)⟩
      rw [happly] at hstep
      have hadmits : Store.admits (Session.map p.view s).view c = true := h
      rw [if_pos rfl, if_pos hadmits]
      exact hstep
    | false =>
      have hadmits : ¬Store.admits (Session.map p.view s).view c = true := by
        change ¬Store.admits (p.view s.view) c = true
        rw [h]
        decide
      rw [if_neg (by decide), if_neg hadmits]
      exact ⟨rfl, rfl⟩
  | commit k ih => exact ih s.commit

theorem writes_within (p : Part σ τ) (x : Prog σ δ ε α) :
    (x.within p).Writes fun c => ∃ d, c = p.change d := by
  induction x with
  | ret a => exact writes_pure a
  | raise e => exact writes_raise e
  | query q k ih => exact writes_query_iff.mpr fun b => ih b
  | write c k ih => exact writes_write_iff.mpr ⟨⟨c, rfl⟩, ih⟩
  | commit k ih => exact writes_commit_iff.mpr ih

/-- A program moves by what its changes do. -/
theorem Writes.moves {A : σ → σ → Prop} {P : δ → Prop} {x : Prog σ δ ε α} (hx : x.Writes P)
    (hP : ∀ c, P c → ∀ s, A s (Store.apply s c)) : x.Moves A := by
  induction x with
  | ret a => exact Trail.refl
  | raise e => exact Trail.refl
  | query q k ih => exact fun s => ih (q s.view) (writes_query_iff.mp hx _) s
  | write c k ih =>
    obtain ⟨hc, hk⟩ := writes_write_iff.mp hx
    intro s
    change Trail A s (if Store.admits s.view c then k.run ⟨s.stored, Store.apply s.view c⟩
      else (.error (Store.conflict σ), s.rollback)).2
    split
    · exact ((Trail.refl s).step (hP c hc s.view)).trans (ih hk _)
    · exact (Trail.refl s).rollback
  | commit k ih => exact fun s => (Trail.refl s).commit.trans (ih (writes_commit_iff.mp hx) _)

end Prog

end unit_of_work
