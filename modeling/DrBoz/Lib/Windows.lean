-- Counters over a time window that nobody resets on time. The window starts
-- anew, or closes, when someone looks at it after its end, and until then it
-- keeps its sum. At times that never go back, the counter is the sum of the
-- costs since the window opened.
import Mathlib.Algebra.BigOperators.Group.List.Basic
import Mathlib.Algebra.Order.Group.Defs
import Mathlib.Algebra.Order.Sub.Basic

namespace lazy_windows

variable {τ κ : Type} [AddCommGroup τ] [LinearOrder τ] [AddCommMonoid κ]

/-- A cost and its time. -/
structure Cost (τ κ : Type) where
  time : τ
  cost : κ

/-- The sum of the costs from a time on. Without a window there is none. -/
def sum_since (opened : Option τ) (h : List (Cost τ κ)) : κ :=
  match opened with
  | none => 0
  | some t => ((h.filter fun x => t ≤ x.time).map (·.cost)).sum

/-- A window with its end, its length and its counter, at a time that is not
before any cost. It has opened by then, and every cost is before its end. -/
structure Window (ends : Option τ) (length : τ) (spent : κ) (h : List (Cost τ κ)) (now : τ) :
    Prop where
  opened : ∀ t, ends = some t → t - length ≤ now
  past : ∀ x ∈ h, x.time < ends.getD now
  sum : spent = sum_since (ends.map (· - length)) h

section
variable {ends : Option τ} {length t now now' : τ} {spent : κ} {h : List (Cost τ κ)}

omit [AddCommGroup τ] in
/-- Costs that are all over do not count. -/
theorem sum_since_past (hpast : ∀ x ∈ h, x.time < t) : sum_since (some t) h = 0 := by
  have hnone : (h.filter fun x => t ≤ x.time) = [] := by
    rw [List.filter_eq_nil_iff]
    intro x hx
    simpa using hpast x hx
  unfold sum_since
  simp only [hnone, List.map_nil, List.sum_nil]

/-- Before the first cost no window is open. -/
theorem Window.unused (length now : τ) :
    Window none length 0 ([] : List (Cost τ κ)) now where
  opened _ ht := by cases ht
  past _ hx := by cases hx
  sum := rfl

theorem Window.later (hw : Window ends length spent h now) (hle : now ≤ now') :
    Window ends length spent h now' where
  opened t ht := (hw.opened t ht).trans hle
  past x hx := by
    cases ends with
    | none => exact (hw.past x hx).trans_le hle
    | some t => exact hw.past x hx
  sum := hw.sum

/-- A window that is over closes. -/
theorem Window.close (hw : Window (some t) length spent h now) (hend : t ≤ now') :
    Window none length 0 h now' where
  opened _ ht := by cases ht
  past x hx := (hw.past x hx).trans_le hend
  sum := rfl

/-- A new window opens when none is open, or when the old one is over. -/
theorem Window.restart [IsOrderedAddMonoid τ] (hw : Window ends length spent h now)
    (hle : now ≤ now') (hend : ∀ t, ends = some t → t ≤ now') (hlength : 0 < length) :
    Window (some (now' + length)) length 0 h now' where
  opened t ht := by
    cases ht
    rw [add_sub_cancel_right]
  past x hx := by
    have hbefore : ends.getD now ≤ now' := by
      cases ends with
      | none => exact hle
      | some t => exact hend t rfl
    have hlater : now' < now' + length := lt_add_of_pos_right now' hlength
    exact ((hw.past x hx).trans_le hbefore).trans hlater
  sum := by
    have hpast : ∀ x ∈ h, x.time < now' := by
      intro x hx
      cases ends with
      | none => exact (hw.past x hx).trans_le hle
      | some t => exact (hw.past x hx).trans_le (hend t rfl)
    rw [Option.map_some, add_sub_cancel_right, sum_since_past hpast]

/-- A cost inside the window goes on the counter. -/
theorem Window.spend (hw : Window (some t) length spent h now) (hle : now ≤ now')
    (hinside : now' < t) (cost : κ) :
    Window (some t) length (spent + cost) (h ++ [⟨now', cost⟩]) now' where
  opened u hu := (hw.opened u hu).trans hle
  past x hx := by
    rcases List.mem_append.mp hx with hx | hx
    · exact hw.past x hx
    · obtain rfl := List.mem_singleton.mp hx
      exact hinside
  sum := by
    have hfrom : t - length ≤ now' := (hw.opened t rfl).trans hle
    rw [hw.sum]
    simp only [Option.map_some, sum_since, List.filter_append, List.map_append, List.sum_append]
    rw [List.filter_cons_of_pos (by simpa using hfrom)]
    simp

end

end lazy_windows
