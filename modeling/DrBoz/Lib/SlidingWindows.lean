-- A limiter over a sliding window: it keeps what it let through lately, drops
-- what is over when it is asked the next time, and lets nothing through while
-- it is full. At times that never go back this is the same as to count all
-- that ever passed and is not over yet.
import Mathlib.Data.List.Basic
import Mathlib.Order.Basic

namespace sliding_windows

variable {τ κ : Type} [Preorder τ]

/-- `recent now t`: at the time `now`, something of the time `t` still counts. -/
abbrev Recent (τ : Type) := τ → τ → Bool

/-- What is over stays over. -/
def Fades (recent : Recent τ) : Prop :=
  ∀ {t now later : τ}, t ≤ now → now ≤ later → recent later t = true → recent now t = true

section
variable (recent : Recent τ) (capacity : Nat) (time : κ → τ)

def window (now : τ) (passed : List κ) : List κ := passed.filter fun e => recent now (time e)

/-- Whether something passes, and what is kept afterwards. -/
def attempt (kept : List κ) (e : κ) : Bool × List κ :=
  if capacity ≤ (window recent time (time e) kept).length then
    (false, window recent time (time e) kept)
  else (true, window recent time (time e) kept ++ [e])

/-- What is kept is as good as all that passed, from the time `now` on. -/
structure Keeps (passed kept : List κ) (now : τ) : Prop where
  same : ∀ t, now ≤ t → window recent time t passed = window recent time t kept
  past : ∀ e ∈ kept, time e ≤ now
  few : kept.length ≤ capacity
end

variable {recent : Recent τ} {capacity : Nat} {time : κ → τ} {passed kept : List κ} {now : τ}

theorem Keeps.start (now : τ) : Keeps recent capacity time ([] : List κ) [] now :=
  ⟨fun _ _ => rfl, fun _ h => (nomatch h), Nat.zero_le _⟩

theorem Keeps.later (h : Keeps recent capacity time passed kept now) {later : τ}
    (hle : now ≤ later) : Keeps recent capacity time passed kept later :=
  ⟨fun t ht => h.same t (hle.trans ht), fun e he => (h.past e he).trans hle, h.few⟩

/-- In no window has more passed than fits in. -/
theorem Keeps.bound (h : Keeps recent capacity time passed kept now) {t : τ} (ht : now ≤ t) :
    (window recent time t passed).length ≤ capacity := by
  rw [h.same t ht]
  exact Nat.le_trans (List.length_filter_le _ _) h.few

/-- A window of a later time is the same on what an earlier window has kept. -/
theorem window_window (hfades : Fades recent) (hpast : ∀ e ∈ kept, time e ≤ now) {t : τ}
    (ht : now ≤ t) :
    window recent time t (window recent time now kept) = window recent time t kept := by
  unfold window
  rw [List.filter_filter]
  refine List.filter_congr fun e he => ?_
  by_cases hrecent : recent t (time e) = true
  · rw [hrecent, hfades (hpast e he) ht hrecent]
    rfl
  · rw [Bool.not_eq_true] at hrecent
    rw [hrecent]
    rfl

/-- The next one passes exactly if what passed lately leaves room for it. -/
theorem Keeps.passes_iff (h : Keeps recent capacity time passed kept now) {e : κ}
    (hle : now ≤ time e) : (attempt recent capacity time kept e).1 = true ↔
      (window recent time (time e) passed).length < capacity := by
  rw [h.same _ hle]
  unfold attempt
  split <;> simp_all

theorem Keeps.attempt (hfades : Fades recent) (h : Keeps recent capacity time passed kept now)
    {e : κ} (hle : now ≤ time e) :
    Keeps recent capacity time
      (if (attempt recent capacity time kept e).1 then passed ++ [e] else passed)
      (attempt recent capacity time kept e).2 (time e) := by
  have hold := h.later hle
  have hkept : ∀ x ∈ window recent time (time e) kept, time x ≤ time e :=
    fun x hx => hold.past x (List.mem_of_mem_filter hx)
  have hsame : ∀ t, time e ≤ t →
      window recent time t passed = window recent time t (window recent time (time e) kept) :=
    fun t ht => (hold.same t ht).trans (window_window hfades hold.past ht).symm
  unfold sliding_windows.attempt
  split
  · exact ⟨hsame, hkept, Nat.le_trans (List.length_filter_le _ _) h.few⟩
  · rename_i hroom
    refine ⟨fun t ht => ?_, fun x hx => ?_, ?_⟩
    · have happend : ∀ l : List κ, window recent time t (l ++ [e]) =
          window recent time t l ++ window recent time t [e] := fun l => List.filter_append _ _
      dsimp only
      rw [if_pos rfl, happend, happend, hsame t ht]
    · rcases List.mem_append.mp hx with hx | hx
      · exact hkept x hx
      · rw [List.mem_singleton.mp hx]
    · rw [List.length_append, List.length_singleton]
      omega

end sliding_windows
