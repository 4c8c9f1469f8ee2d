-- What the roundings of Python keep: the order of the numbers, and the numbers
-- themselves up to half a unit of the last place.
import DrBoz.Py
import Mathlib.Tactic.Linarith
import Mathlib.Tactic.FieldSimp

open dr_boz.py

namespace dr_boz.roundings

/-! ## To a whole number -/

theorem roundHalfEven_near (q : ℚ) : |q - roundHalfEven q| ≤ 1 / 2 := by
  rcases roundHalfEven_eq_iff.mp (rfl : roundHalfEven q = roundHalfEven q) with h | h
  · exact h.le
  · exact h.1.le

theorem roundHalfEven_int (n : Int) : roundHalfEven n = n :=
  roundHalfEven_eq_iff.mpr (.inl (by simp))

theorem roundHalfEven_bounds (q : ℚ) : ⌊q⌋ ≤ roundHalfEven q ∧ roundHalfEven q ≤ ⌊q⌋ + 1 := by
  unfold roundHalfEven
  simp only
  split_ifs <;> omega

theorem roundHalfEven_mono {p q : ℚ} (h : p ≤ q) : roundHalfEven p ≤ roundHalfEven q := by
  have hfloor : ⌊p⌋ ≤ ⌊q⌋ := Int.floor_le_floor h
  rcases hfloor.lt_or_eq with hlt | heq
  · have hp := (roundHalfEven_bounds p).2
    have hq := (roundHalfEven_bounds q).1
    omega
  · unfold roundHalfEven
    simp only [heq]
    split_ifs <;> first | omega | (exfalso; linarith)

theorem roundHalfUp_mono {p q : ℚ} (hp : 0 ≤ p) (h : p ≤ q) : roundHalfUp p ≤ roundHalfUp q := by
  unfold roundHalfUp
  rw [if_pos hp, if_pos (hp.trans h)]
  exact Int.floor_le_floor (by linarith)

theorem roundHalfUp_near {q : ℚ} (h : 0 ≤ q) :
    q - 1 / 2 < roundHalfUp q ∧ (roundHalfUp q : ℚ) ≤ q + 1 / 2 := by
  obtain ⟨hlow, hhigh⟩ := (roundHalfUp_eq_iff h).mp rfl
  exact ⟨by linarith, by linarith⟩

/-! ## To a number of digits -/

section
variable {b n : Nat} {q : ℚ}

/-- The unit of the last place. -/
def unit (b n : Nat) (q : ℚ) : ℚ := (b : ℚ) ^ (Int.log b |q| - (n - 1))

theorem roundSig_pos_eq (hq : 0 < q) :
    roundSig b n q = roundHalfEven (q / unit b n q) * unit b n q := by
  unfold roundSig unit
  rw [if_neg hq.ne']

theorem unit_pos (hb : 1 < b) : 0 < unit b n q := zpow_pos (by exact_mod_cast (by omega : 0 < b)) _

/-- A number is less than `b ^ n` and at least `b ^ (n - 1)` units. -/
theorem units_bounds (hb : 1 < b) (hq : 0 < q) :
    (b : ℚ) ^ ((n : Int) - 1) ≤ q / unit b n q ∧ q / unit b n q < (b : ℚ) ^ (n : Int) := by
  have hpos : (0 : ℚ) < b := by exact_mod_cast (by omega : 0 < b)
  have hlow := Int.zpow_log_le_self hb hq
  have hhigh := Int.lt_zpow_succ_log_self hb q
  have hunit : unit b n q = (b : ℚ) ^ Int.log b q / (b : ℚ) ^ ((n : Int) - 1) := by
    rw [unit, abs_of_pos hq, zpow_sub₀ hpos.ne']
  have hdiv : q / unit b n q = q * (b : ℚ) ^ ((n : Int) - 1) / (b : ℚ) ^ Int.log b q := by
    rw [hunit]
    field_simp
  have hlog : (0 : ℚ) < (b : ℚ) ^ Int.log b q := zpow_pos hpos _
  have hplace : (0 : ℚ) < (b : ℚ) ^ ((n : Int) - 1) := zpow_pos hpos _
  rw [hdiv]
  constructor
  · rw [le_div_iff₀ hlog, mul_comm]
    exact mul_le_mul_of_nonneg_right hlow hplace.le
  · rw [div_lt_iff₀ hlog]
    calc q * (b : ℚ) ^ ((n : Int) - 1) < (b : ℚ) ^ (Int.log b q + 1) * (b : ℚ) ^ ((n : Int) - 1) :=
          mul_lt_mul_of_pos_right hhigh hplace
      _ = (b : ℚ) ^ (n : Int) * (b : ℚ) ^ Int.log b q := by
          rw [← zpow_add₀ hpos.ne', ← zpow_add₀ hpos.ne']
          congr 1
          ring

/-- The error is at most half a unit, and the unit is small beside the number. -/
theorem roundSig_near (hb : 1 < b) (hq : 0 ≤ q) :
    |roundSig b n q - q| ≤ q / (2 * (b : ℚ) ^ ((n : Int) - 1)) := by
  rcases hq.lt_or_eq with hq | rfl
  · have hunit : 0 < unit b n q := unit_pos hb
    have hnear := roundHalfEven_near (q / unit b n q)
    obtain ⟨hlow, -⟩ := units_bounds (n := n) hb hq
    have hplace : (0 : ℚ) < (b : ℚ) ^ ((n : Int) - 1) :=
      zpow_pos (by exact_mod_cast (by omega : 0 < b)) _
    have hle : unit b n q ≤ q / (b : ℚ) ^ ((n : Int) - 1) := by
      rw [le_div_iff₀ hunit] at hlow
      rw [le_div_iff₀ hplace]
      linarith
    have hself : q = q / unit b n q * unit b n q := (div_mul_cancel₀ q hunit.ne').symm
    calc |roundSig b n q - q|
        = |(roundHalfEven (q / unit b n q) - q / unit b n q) * unit b n q| := by
          rw [roundSig_pos_eq hq, sub_mul, ← hself]
      _ = |q / unit b n q - roundHalfEven (q / unit b n q)| * unit b n q := by
          rw [abs_mul, abs_of_pos hunit, abs_sub_comm]
      _ ≤ 1 / 2 * (q / (b : ℚ) ^ ((n : Int) - 1)) := by gcongr
      _ = q / (2 * (b : ℚ) ^ ((n : Int) - 1)) := by ring
  · simp [roundSig]

theorem roundSig_mono (hb : 1 < b) (hn : 0 < n) {p : ℚ} (hp : 0 ≤ p) (h : p ≤ q) :
    roundSig b n p ≤ roundSig b n q := by
  rcases hp.lt_or_eq with hp | rfl
  · have hq : 0 < q := hp.trans_le h
    have hpos : (0 : ℚ) < b := by exact_mod_cast (by omega : 0 < b)
    have hlog : Int.log b |p| ≤ Int.log b |q| := by
      rw [abs_of_pos hp, abs_of_pos hq]
      exact Int.log_mono_right hp h
    rw [roundSig_pos_eq hp, roundSig_pos_eq hq]
    rcases hlog.lt_or_eq with hlt | heq
    · -- Between the two there is a power of the base, which both roundings respect.
      have hpower : ∀ k : Nat, roundHalfEven ((b : ℚ) ^ (k : Int)) = (b : Int) ^ k := by
        intro k
        have hcast := roundHalfEven_int ((b : Int) ^ k)
        push_cast at hcast
        simpa using hcast
      obtain ⟨m, rfl⟩ : ∃ m, n = m + 1 := ⟨n - 1, by omega⟩
      have hlow := roundHalfEven_mono (units_bounds (n := m + 1) hb hp).2.le
      have hhigh := roundHalfEven_mono (units_bounds (n := m + 1) hb hq).1
      rw [hpower] at hlow
      rw [show ((m + 1 : Nat) : Int) - 1 = (m : Int) by push_cast; ring, hpower] at hhigh
      have hunit : unit b (m + 1) p * b ≤ unit b (m + 1) q := by
        unfold unit
        rw [← zpow_add_one₀ hpos.ne']
        exact zpow_le_zpow_right₀ (by exact_mod_cast hb.le) (by omega)
      calc (roundHalfEven (p / unit b (m + 1) p) : ℚ) * unit b (m + 1) p
          ≤ (b : ℚ) ^ (m + 1) * unit b (m + 1) p := by
            refine mul_le_mul_of_nonneg_right ?_ (unit_pos hb).le
            exact_mod_cast hlow
        _ = (b : ℚ) ^ m * (unit b (m + 1) p * b) := by ring
        _ ≤ (b : ℚ) ^ m * unit b (m + 1) q := by gcongr
        _ ≤ roundHalfEven (q / unit b (m + 1) q) * unit b (m + 1) q := by
            refine mul_le_mul_of_nonneg_right ?_ (unit_pos hb).le
            exact_mod_cast hhigh
    · have hunit : unit b n p = unit b n q := by rw [unit, unit, heq]
      rw [hunit]
      refine mul_le_mul_of_nonneg_right ?_ (unit_pos hb).le
      exact_mod_cast roundHalfEven_mono (div_le_div_of_nonneg_right h (unit_pos hb).le)
  · have hzero : roundSig b n 0 = 0 := if_pos rfl
    rw [hzero]
    exact roundSig_nonneg b n h

end

/-! ## Decimals -/

theorem ctx_mono {p q : ℚ} (hp : 0 ≤ p) (h : p ≤ q) : ctx p ≤ ctx q :=
  roundSig_mono (by norm_num) (by norm_num) hp h

theorem ctx_near {q : ℚ} (hq : 0 ≤ q) : |ctx q - q| ≤ q / (2 * 10 ^ 27) := by
  have h := roundSig_near (b := 10) (n := 28) (by norm_num) hq
  norm_num at h ⊢
  exact h

end dr_boz.roundings
