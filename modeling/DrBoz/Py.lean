-- The Python values that the services compute with: exceptions, naive UTC
-- times, floats, decimals of the default context, and the small coercions
-- at the head of the billing module.
import Mathlib.Data.Int.Log
import Mathlib.Data.Rat.Floor

namespace dr_boz.py

/-! ## Exceptions -/

/-- The exceptions that the modelled code raises. -/
inductive PyError where
  | type_error
  | attribute_error
  | overflow_error
  | invalid_operation
  | integrity_error
  | multiple_results_found
  | telegram_error
  | value_error (message : String)
  | promo_code_redemption_error (message : String)
  | trial_service_error (message : String)
  | codex_capacity_error (code message : String)
  | http_exception (status_code : Nat) (detail : String)
deriving DecidableEq, Repr

/-- What goes through went through its first part. -/
theorem of_bind_ok {ε α β : Type} {x : Except ε α} {f : α → Except ε β} {b : β}
    (h : (x >>= f) = .ok b) : ∃ a, x = .ok a ∧ f a = .ok b := by
  cases x with
  | error e => cases h
  | ok a => exact ⟨a, rfl, h⟩

/-- A loop that goes through its last turn went through those before it. -/
theorem of_foldlM_concat_ok {ε α β : Type} {f : β → α → Except ε β} {start total : β}
    {before : List α} {last : α} (h : (before ++ [last]).foldlM f start = .ok total) :
    ∃ so_far, before.foldlM f start = .ok so_far ∧ f so_far last = .ok total := by
  rw [List.foldlM_append] at h
  obtain ⟨so_far, hbefore, h⟩ := of_bind_ok h
  obtain ⟨after, hlast, h⟩ := of_bind_ok h
  cases h
  exact ⟨so_far, hbefore, hlast⟩

/-! ## Times -/

/-- A naive UTC time: the microseconds since the first day of year 1. -/
abbrev Datetime := Int

/-- The last microsecond of year 9999. -/
def DATETIME_MAX : Datetime := 315537897599999999

def hours (n : Int) : Int := n * 3600000000

def days (n : Int) : Int := n * 86400000000

/-- `t + timedelta(..)`, which raises outside of the years 1 to 9999. -/
def addDelta (t : Datetime) (d : Int) : Except PyError Datetime :=
  if 0 ≤ t + d ∧ t + d ≤ DATETIME_MAX then .ok (t + d) else .error .overflow_error

/-! ## Rounding -/

/-- Rounds to the nearest integer, ties to the even one. -/
def roundHalfEven (q : ℚ) : Int :=
  let f := ⌊q⌋
  if q - f < 1 / 2 then f
  else if 1 / 2 < q - f then f + 1
  else if f % 2 = 0 then f else f + 1

/-- Rounds to the nearest integer, ties away from zero. -/
def roundHalfUp (q : ℚ) : Int :=
  if 0 ≤ q then ⌊q + 1 / 2⌋ else -⌊-q + 1 / 2⌋

/-- Rounds to `n` significant digits in base `b`. -/
def roundSig (b n : Nat) (q : ℚ) : ℚ :=
  if q = 0 then 0 else
    let e := Int.log b |q| - (n - 1)
    roundHalfEven (q / (b : ℚ) ^ e) * (b : ℚ) ^ e

/-- `n` is nearest to `q`, and the even one of two that are as near. -/
def NearestEven (q : ℚ) (n : Int) : Prop :=
  |q - n| < 1 / 2 ∨ |q - n| = 1 / 2 ∧ n % 2 = 0

/-- Between two whole numbers the fraction decides, and at a half the parity. -/
theorem roundHalfEven_eq_iff {q : ℚ} {n : Int} : roundHalfEven q = n ↔ NearestEven q n := by
  have hle : (⌊q⌋ : ℚ) ≤ q := Int.floor_le q
  have hlt : q < ⌊q⌋ + 1 := Int.lt_floor_add_one q
  have near : ∀ m : Int, NearestEven q m → m = ⌊q⌋ ∨ m = ⌊q⌋ + 1 := by
    intro m hm
    have habs : |q - m| ≤ 1 / 2 := by
      rcases hm with hm | hm
      · exact hm.le
      · exact hm.1.le
    obtain ⟨h1, h2⟩ := abs_le.mp habs
    have h3 : (⌊q⌋ : ℚ) - 1 < m := by linarith
    have h4 : (m : ℚ) < ⌊q⌋ + 2 := by linarith
    have h5 : ⌊q⌋ - 1 < m := by exact_mod_cast h3
    have h6 : m < ⌊q⌋ + 2 := by exact_mod_cast h4
    omega
  have low : |q - (⌊q⌋ : Int)| = q - ⌊q⌋ := abs_of_nonneg (by linarith)
  have high : |q - ((⌊q⌋ + 1 : Int) : ℚ)| = 1 - (q - ⌊q⌋) := by
    rw [abs_of_nonpos (by push_cast; linarith)]
    push_cast
    ring
  unfold roundHalfEven
  simp only
  constructor
  · rintro rfl
    unfold NearestEven
    split
    · next h =>
      rw [low]
      exact .inl h
    · next h =>
      split
      · next h' =>
        rw [high]
        exact .inl (by linarith)
      · next h' =>
        have htie : q - ⌊q⌋ = 1 / 2 := le_antisymm (not_lt.mp h') (not_lt.mp h)
        split
        · next heven =>
          rw [low]
          exact .inr ⟨htie, heven⟩
        · next hodd =>
          rw [high]
          exact .inr ⟨by linarith, by omega⟩
  · intro hn
    rcases near n hn with rfl | rfl
    · unfold NearestEven at hn
      rw [low] at hn
      split
      · rfl
      · next h =>
        rcases hn with hn | ⟨htie, heven⟩
        · exact absurd hn h
        · rw [if_neg (by linarith), if_pos heven]
    · unfold NearestEven at hn
      rw [high] at hn
      rcases hn with hn | ⟨htie, heven⟩
      · rw [if_neg (by linarith), if_pos (by linarith)]
      · rw [if_neg (by linarith), if_neg (by linarith), if_neg (by omega)]

theorem roundHalfUp_eq_iff {q : ℚ} (h : 0 ≤ q) {n : Int} :
    roundHalfUp q = n ↔ (n : ℚ) - 1 / 2 ≤ q ∧ q < n + 1 / 2 := by
  unfold roundHalfUp
  rw [if_pos h, Int.floor_eq_iff]
  constructor
  · rintro ⟨h1, h2⟩
    exact ⟨by linarith, by linarith⟩
  · rintro ⟨h1, h2⟩
    exact ⟨by linarith, by linarith⟩

theorem roundHalfEven_nonneg {q : ℚ} (h : 0 ≤ q) : 0 ≤ roundHalfEven q := by
  have hf : 0 ≤ ⌊q⌋ := Int.floor_nonneg.mpr h
  unfold roundHalfEven
  simp only
  split
  · exact hf
  · split
    · omega
    · split <;> omega

theorem roundHalfUp_nonneg {q : ℚ} (h : 0 ≤ q) : 0 ≤ roundHalfUp q := by
  unfold roundHalfUp
  rw [if_pos h]
  exact Int.floor_nonneg.mpr (by linarith)

theorem roundSig_nonneg (b n : Nat) {q : ℚ} (h : 0 ≤ q) : 0 ≤ roundSig b n q := by
  unfold roundSig
  split
  · exact le_refl 0
  · have hb : (0 : ℚ) ≤ (b : ℚ) := Nat.cast_nonneg b
    have hr := roundHalfEven_nonneg (div_nonneg h (zpow_nonneg hb (Int.log b |q| - (n - 1))))
    exact mul_nonneg (by exact_mod_cast hr) (zpow_nonneg hb _)

/-! ## Floats and decimals -/

/-- A float is the rational number that it holds. -/
abbrev PyFloat := ℚ

/-- A decimal is the rational number that it stands for. -/
abbrev Decimal := ℚ

/-- The float nearest to a number. -/
def f64 (q : ℚ) : PyFloat := roundSig 2 53 q

/-- The number that `str` prints for a float: the shortest decimal that
reads back as this float. -/
def decimalStr (x : PyFloat) : Decimal :=
  (((List.range 17).map fun n => roundSig 10 (n + 1) x).find? fun q => f64 q = x).getD x

/-- The result of decimal arithmetic in the default context: 28 digits. -/
def ctx (q : ℚ) : Decimal := roundSig 10 28 q

/-- `int(value.quantize(Decimal("1"), rounding=ROUND_HALF_UP))`. The quantize
raises when the result has more than 28 digits. -/
def quantizeHalfUp (q : Decimal) : Except PyError Int :=
  if (roundHalfUp q).natAbs < 10 ^ 28 then .ok (roundHalfUp q) else .error .invalid_operation

theorem ctx_nonneg {q : ℚ} (h : 0 ≤ q) : 0 ≤ ctx q := roundSig_nonneg 10 28 h

theorem decimalStr_nonneg {x : PyFloat} (h : 0 ≤ x) : 0 ≤ decimalStr x := by
  unfold decimalStr
  cases hf : ((List.range 17).map fun n => roundSig 10 (n + 1) x).find? fun q => f64 q = x with
  | none => exact h
  | some q =>
    obtain ⟨n, -, rfl⟩ := List.mem_map.mp (List.mem_of_find?_eq_some hf)
    exact roundSig_nonneg 10 (n + 1) h

theorem ctx_zero : ctx 0 = 0 := by
  unfold ctx roundSig
  exact if_pos rfl

/-! ## Coercions -/

/-- `int(value or 0)` of a nullable integer column. -/
def intOr0 (value : Option Int) : Int := value.getD 0

/-- `value or default`: a NULL and a zero are false. -/
def orDefault (value : Option Int) (default : Int) : Int :=
  match value with
  | none => default
  | some v => if v = 0 then default else v

def positive_int (value : Option Int) (default : Int) : Int := max 0 (orDefault value default)

def positive_float (value : Option PyFloat) (default : PyFloat) : PyFloat :=
  max 0 (value.getD default)

def round_toman (value : Decimal) : Except PyError Int := quantizeHalfUp value

theorem round_toman_nonneg {q : Decimal} {n : Int} (h : 0 ≤ q) (hr : round_toman q = .ok n) :
    0 ≤ n := by
  unfold round_toman quantizeHalfUp at hr
  split at hr
  · cases hr
    exact roundHalfUp_nonneg h
  · cases hr

theorem round_toman_zero : round_toman 0 = .ok 0 := by decide +kernel

theorem positive_int_nonneg (value : Option Int) (default : Int) : 0 ≤ positive_int value default :=
  le_max_left _ _

theorem positive_float_nonneg (value : Option PyFloat) (default : PyFloat) :
    0 ≤ positive_float value default := le_max_left _ _

/-! ## Truth and dictionaries -/

/-- A value of a JSON column. `time` stands for the text that `isoformat`
gives. -/
inductive Scalar where
  | null
  | bool (b : Bool)
  | int (n : Int)
  | float (x : PyFloat)
  | str (s : String)
  | time (t : Datetime)
deriving DecidableEq, Repr

inductive Json where
  | scalar (s : Scalar)
  | dict (items : List (String × Scalar))
deriving DecidableEq, Repr

/-- A dictionary in insertion order. -/
abbrev Dict := List (String × Json)

def Dict.set (d : Dict) (k : String) (v : Json) : Dict :=
  if d.any (fun p => p.1 = k) then d.map (fun p => if p.1 = k then (k, v) else p) else d ++ [(k, v)]

/-- `{**d, **e}`. -/
def Dict.merge (d e : Dict) : Dict := e.foldl (fun d p => d.set p.1 p.2) d

def Dict.get (d : Dict) (k : String) : Option Json := (d.find? fun p => p.1 = k).map Prod.snd

instance : Coe Scalar Json := ⟨Json.scalar⟩

/-- A string is true when it is there and not empty. -/
def truthyKey (k : Option String) : Bool := k.isSome && k != some ""

/-- `value or default` of a string. -/
def strOr (value default : Option String) : Option String :=
  if truthyKey value then value else default

/-! ## Texts -/

/-- The blanks of `str.strip`. -/
def isSpace (c : Char) : Bool :=
  c.val ∈ [0x20, 0x85, 0xA0, 0x1680, 0x2028, 0x2029, 0x202F, 0x205F, 0x3000] ||
    (0x9 ≤ c.val && c.val ≤ 0xD) || (0x1C ≤ c.val && c.val ≤ 0x1F) ||
    (0x2000 ≤ c.val && c.val ≤ 0x200A)

def strip (s : String) : String :=
  String.ofList (((s.toList.dropWhile isSpace).reverse.dropWhile isSpace).reverse)

/-- `f"{n:,}"`: the digits in groups of three. -/
def thousands (n : Int) : String :=
  let digits := (toString n.natAbs).toList
  let grouped := digits.zipIdx.flatMap fun (c, i) =>
    if i ≠ 0 ∧ (digits.length - i) % 3 = 0 then [',', c] else [c]
  (if n < 0 then "-" else "") ++ String.ofList grouped

/-- `f"{x:.2f}"`. -/
def fixed2 (x : PyFloat) : String :=
  let cents := (roundHalfEven (x * 100)).natAbs
  let rest := toString (cents % 100)
  (if x < 0 then "-" else "") ++ toString (cents / 100) ++ "." ++
    (if rest.length < 2 then "0" ++ rest else rest)

example : thousands (-1234567) = "-1,234,567" := by decide +kernel

example : round_toman (ctx (5 / 2)) = .ok 3 := by decide +kernel

end dr_boz.py
