-- Law of the calculator: `SafeCalculatorEvaluator` walks over the tree of an
-- expression. The parser and the arithmetic of doubles and complex numbers are
-- those of the machine.
import DrBoz.CliLines

open dr_boz.py dr_boz.cli_lines

namespace dr_boz.calculator

/-! ## Expressions -/

inductive Operator where
  | add | sub | mult | div | floor_div | mod | pow
  | mat_mult | l_shift | r_shift | bit_or | bit_xor | bit_and
deriving DecidableEq

inductive UnaryOperator where
  | u_add | u_sub | invert | not
deriving DecidableEq

inductive Raised where
  | calculator_error (message : String)
  | zero_division_error
  | overflow_error
  | type_error
  | parse_error (message : String)
deriving DecidableEq

def Raised.is_calculator_error : Raised → Bool
  | .calculator_error _ => true
  | _ => false

/-- Doubles and complex numbers. The number of a double is the one that it stands for; an
infinite one has none. -/
structure Machine where
  Double : Type
  Complex : Type
  number : Double → Option ℚ
  of_int : Int → Double
  negated : Double → Double
  negated_number : ∀ x, number (negated x) = (number x).map fun q => -q
  result : Operator → Double → Double → Double
  format : Double → String
  complex_of : Double → Complex
  complex_negated : Complex → Complex
  complex_power : Double → Double → Complex
  complex_result : Operator → Complex → Complex → Except Raised Complex
  complex_exceeds : ℚ → Complex → Except Raised Bool
  complex_str : Complex → String

section
variable (m : Machine)

inductive Value where
  | int (n : Int)
  | bool (b : Bool)
  | double (x : m.Double)
  | complex (z : m.Complex)

inductive Constant where
  | number (value : Value m)
  /-- A text, bytes, None or Ellipsis. -/
  | other

inductive Ast where
  | constant (c : Constant m)
  | unary (op : UnaryOperator) (operand : Ast)
  | binary (op : Operator) (left right : Ast)
  /-- Any other node. -/
  | other
end

variable {m : Machine}

/-! ## Arithmetic of Python -/

def Value.as_int : Value m → Option Int
  | .int n => some n
  | .bool b => some (if b then 1 else 0)
  | _ => none

/-- The number and the double of a value that has one. -/
def Value.real : Value m → Option (ℚ × m.Double)
  | .int n => some (n, m.of_int n)
  | .bool b => some (if b then 1 else 0, m.of_int (if b then 1 else 0))
  | .double x => (m.number x).map fun q => (q, x)
  | .complex _ => none

def Value.as_complex : Value m → m.Complex
  | .int n => m.complex_of (m.of_int n)
  | .bool b => m.complex_of (m.of_int (if b then 1 else 0))
  | .double x => m.complex_of x
  | .complex z => z

/-- `x ** y` of doubles -/
def power (x y : ℚ × m.Double) : Except Raised (Value m) :=
  if x.1 = 0 ∧ y.1 < 0 then .error .zero_division_error
  else if x.1 < 0 ∧ y.1.den ≠ 1 then .ok (.complex (m.complex_power x.2 y.2))
  else if (m.number (m.result .pow x.2 y.2)).isSome then .ok (.double (m.result .pow x.2 y.2))
  else .error .overflow_error

def double_op (op : Operator) (x y : ℚ × m.Double) : Except Raised (Value m) :=
  match op with
  | .div | .floor_div | .mod =>
    if y.1 = 0 then .error .zero_division_error else .ok (.double (m.result op x.2 y.2))
  | .pow => power x y
  | _ => .ok (.double (m.result op x.2 y.2))

def int_op (op : Operator) (a b : Int) : Except Raised (Value m) :=
  match op with
  | .add => .ok (.int (a + b))
  | .sub => .ok (.int (a - b))
  | .mult => .ok (.int (a * b))
  | .div =>
    if b = 0 then .error .zero_division_error
    else .ok (.double (m.result .div (m.of_int a) (m.of_int b)))
  | .floor_div => if b = 0 then .error .zero_division_error else .ok (.int (a.fdiv b))
  | .mod => if b = 0 then .error .zero_division_error else .ok (.int (a.fmod b))
  | .pow =>
    if 0 ≤ b then .ok (.int (a ^ b.toNat)) else power (a, m.of_int a) (b, m.of_int b)
  | _ => .error .type_error

/-- `ALLOWED_BINARY[op](left, right)` -/
def apply (op : Operator) (left right : Value m) : Except Raised (Value m) :=
  match left.as_int, right.as_int with
  | some a, some b => int_op op a b
  | _, _ =>
    match left.real, right.real with
    | some x, some y => double_op op x y
    | _, _ => (m.complex_result op left.as_complex right.as_complex).map .complex

/-- `abs(value) > limit` -/
def exceeds (limit : ℚ) : Value m → Except Raised Bool
  | .complex z => m.complex_exceeds limit z
  | value =>
    match value.real with
    | some x => .ok (limit < |x.1|)
    | none => .ok true

def unary_op (op : UnaryOperator) : Value m → Value m
  | .int n => .int (if op = .u_sub then -n else n)
  | .bool b => .int ((if op = .u_sub then -1 else 1) * (if b then 1 else 0))
  | .double x => .double (if op = .u_sub then m.negated x else x)
  | .complex z => .complex (if op = .u_sub then m.complex_negated z else z)

def Value.str : Value m → String
  | .int n => toString n
  | .bool b => if b then "True" else "False"
  | .double x => m.format x
  | .complex z => m.complex_str z

/-! ## The evaluator -/

def ALLOWED_BINARY : List Operator := [.add, .sub, .mult, .div, .floor_div, .mod, .pow]

def ALLOWED_UNARY : List UnaryOperator := [.u_add, .u_sub]

/-- The two checks of the operands, and the operation. -/
def operate (op : Operator) (left right : Value m) : Except Raised (Value m) := do
  let too_large ← if ← exceeds (10 ^ 12) left then pure true else exceeds (10 ^ 12) right
  if too_large then .error (.calculator_error "Numbers are too large")
  else
    let too_high ← if op = .pow then exceeds 10 right else pure false
    if too_high then .error (.calculator_error "Exponent is too large")
    else apply op left right

def visit : Ast m → Except Raised (Value m)
  | .constant (.number (.complex _)) | .constant .other =>
    .error (.calculator_error "Only numbers are allowed")
  | .constant (.number value) => .ok value
  | .unary op operand =>
    if op ∈ ALLOWED_UNARY then (visit operand).map (unary_op op)
    else .error (.calculator_error "Unsupported unary operator")
  | .binary op left right =>
    if op ∈ ALLOWED_BINARY then
      (visit left).bind fun x => (visit right).bind fun y => operate op x y
    else .error (.calculator_error "Unsupported operator")
  | .other => .error (.calculator_error "Unsupported expression")

/-- The expression, if it is a text that is neither blank nor too long. -/
def expression (arguments : Fields) : Except Raised String :=
  match Fields.get arguments "expression" .null with
  | .str text =>
    if strip text = "" then .error (.calculator_error "expression is required")
    else if 200 < text.length then .error (.calculator_error "expression is too long")
    else .ok text
  | _ => .error (.calculator_error "expression is required")

def run_calculator_tool (parse : String → Except String (Ast m)) (arguments : Fields) :
    Except Raised (String × String) := do
  let text ← expression arguments
  let tree ← (parse text).mapError .parse_error
  let value ← visit tree
  return (text, value.str)

/-! ## Numbers -/

/-- The double stands for a number. -/
def finite (x : m.Double) : Bool := (m.number x).isSome

/-- A number: an integer, or a double that stands for one. -/
inductive Number (m : Machine) where
  | int (n : Int)
  | double (x : m.Double) (h : finite x = true)

def Number.value : Number m → Value m
  | .int n => .int n
  | .double x _ => .double x

/-- The number as it is, and as a double. -/
def Number.real : Number m → ℚ × m.Double
  | .int n => (n, m.of_int n)
  | .double x h => ((m.number x).get h, x)

def number_of (x : m.Double) : Option (Number m) :=
  if h : finite x = true then some (.double x h) else none

/-- The operation is on doubles: not both operands are integers, or it is a division or a
negative power. -/
def UsesDoubles (op : Operator) (x y : Number m) : Prop :=
  ∀ a b, x = .int a → y = .int b → op = .div ∨ op = .pow ∧ b < 0

/-- The operation has a value. A divisor is not zero, zero is not raised to a negative power and
a negative number not to a fractional one, and where doubles are used the result is in range. -/
structure HasValue (op : Operator) (x y : Number m) : Prop where
  divisor : op ∈ [.div, .floor_div, .mod] → y.real.1 ≠ 0
  zero_base : op = .pow → x.real.1 = 0 → 0 ≤ y.real.1
  negative_base : op = .pow → x.real.1 < 0 → y.real.1.den = 1
  range : UsesDoubles op x y → finite (m.result op x.real.2 y.real.2) = true

/-- The value of an operation: integers are exact, except for division and negative powers. -/
def arith (op : Operator) : Number m → Number m → Option (Number m)
  | .int a, .int b =>
    match op with
    | .add => some (.int (a + b))
    | .sub => some (.int (a - b))
    | .mult => some (.int (a * b))
    | .floor_div => some (.int (a.fdiv b))
    | .mod => some (.int (a.fmod b))
    | .pow =>
      if 0 ≤ b then some (.int (a ^ b.toNat))
      else number_of (m.result .pow (m.of_int a) (m.of_int b))
    | _ => number_of (m.result op (m.of_int a) (m.of_int b))
  | x, y => number_of (m.result op x.real.2 y.real.2)

theorem finite_negated (x : m.Double) : finite (m.negated x) = finite x := by
  unfold finite
  rw [m.negated_number, Option.isSome_map]

def negative : Number m → Number m
  | .int n => .int (-n)
  | .double x h => .double (m.negated x) ((finite_negated x).trans h)

/-- The value of an expression over numbers. -/
inductive Denotes : Ast m → Number m → Prop where
  | number (x : Number m) : Denotes (.constant (.number x.value)) x
  | plus {operand : Ast m} {x : Number m} : Denotes operand x → Denotes (.unary .u_add operand) x
  | minus {operand : Ast m} {x : Number m} : Denotes operand x →
    Denotes (.unary .u_sub operand) (negative x)
  | operation {op : Operator} {left right : Ast m} {x y z : Number m} : op ∈ ALLOWED_BINARY →
    Denotes left x → Denotes right y → HasValue op x y → arith op x y = some z →
    Denotes (.binary op left right) z

def Value.is_number : Value m → Bool
  | .int _ => true
  | .double x => finite x
  | _ => false

/-! ## What the law speaks of -/

/-- The parts of an expression that are evaluated. -/
def evaluated : Ast m → List (Ast m)
  | .unary op operand =>
    (if op ∈ ALLOWED_UNARY then evaluated operand else []) ++ [.unary op operand]
  | .binary op left right =>
    (if op ∈ ALLOWED_BINARY then
      evaluated left ++ if (visit left).isOk then evaluated right else []
    else []) ++ [.binary op left right]
  | tree => [tree]

/-- The operands are within the limits of the calculator. -/
def Within (op : Operator) (x y : Number m) : Prop :=
  |x.real.1| ≤ 10 ^ 12 ∧ |y.real.1| ≤ 10 ^ 12 ∧ (op = .pow → |y.real.1| ≤ 10)

/-- A part that is no obstacle: it is no boolean and no infinite number, and where its operands
are numbers within the limits its operation has a value. -/
def Fine : Ast m → Prop
  | .constant (.number (.bool _)) => False
  | .constant (.number (.double x)) => finite x = true
  | .binary op left right => op ∈ ALLOWED_BINARY → ∀ x y : Number m,
    visit left = .ok x.value → visit right = .ok y.value → Within op x y → HasValue op x y
  | _ => True

/-! ## Operations -/

/-- What is no number: it is not returned, or it comes with another error. -/
def Astray (result : Except Raised (Value m)) : Prop :=
  (∃ v, result = .ok v ∧ v.is_number = false) ∨
    ∃ e, result = .error e ∧ e.is_calculator_error = false

theorem number_of_finite {x : m.Double} (h : finite x = true) :
    number_of x = some (.double x h) := dif_pos h

theorem astray_infinite {x : m.Double} (h : finite x = false) :
    Astray (.ok (.double x) : Except Raised (Value m)) := .inl ⟨_, rfl, h⟩

theorem astray_zero_division : Astray (.error .zero_division_error : Except Raised (Value m)) :=
  .inr ⟨_, rfl, rfl⟩

/-- The operation on doubles has a value. -/
structure OnDoubles (op : Operator) (x y : ℚ × m.Double) : Prop where
  divisor : op ∈ [.div, .floor_div, .mod] → y.1 ≠ 0
  zero_base : op = .pow → x.1 = 0 → 0 ≤ y.1
  negative_base : op = .pow → x.1 < 0 → y.1.den = 1
  range : finite (m.result op x.2 y.2) = true

theorem power_ok {x y : ℚ × m.Double} (h : OnDoubles .pow x y) :
    power x y = .ok (.double (m.result .pow x.2 y.2)) := by
  unfold power
  rw [if_neg fun hzero => absurd (h.zero_base rfl hzero.1) (not_le.mpr hzero.2),
    if_neg fun hnegative => hnegative.2 (h.negative_base rfl hnegative.1),
    if_pos (show (m.number _).isSome = true from h.range)]

theorem power_astray {x y : ℚ × m.Double} (h : ¬OnDoubles .pow x y) : Astray (power x y) := by
  unfold power
  split
  · exact astray_zero_division
  · rename_i hzero
    split
    · exact .inl ⟨_, rfl, rfl⟩
    · rename_i hnegative
      split
      · rename_i hrange
        refine absurd ⟨?_, ?_, ?_, hrange⟩ h
        · intro hmem
          exact absurd hmem (by decide)
        · intro _ hx
          exact not_lt.mp fun hy => hzero ⟨hx, hy⟩
        · intro _ hx
          by_contra hy
          exact hnegative ⟨hx, hy⟩
      · exact .inr ⟨_, rfl, rfl⟩

theorem double_op_divided {op : Operator} {x y : ℚ × m.Double}
    (hop : op ∈ [.div, .floor_div, .mod]) : double_op op x y =
      if y.1 = 0 then .error .zero_division_error else .ok (.double (m.result op x.2 y.2)) := by
  simp only [List.mem_cons, List.not_mem_nil, or_false] at hop
  rcases hop with rfl | rfl | rfl <;> rfl

/-- Division of doubles. -/
theorem divided_ok {op : Operator} {x y : ℚ × m.Double} (hop : op ∈ [.div, .floor_div, .mod])
    (h : OnDoubles op x y) : double_op op x y = .ok (.double (m.result op x.2 y.2)) := by
  rw [double_op_divided hop, if_neg (h.divisor hop)]

theorem divided_astray {op : Operator} {x y : ℚ × m.Double}
    (hop : op ∈ [.div, .floor_div, .mod]) (h : ¬OnDoubles op x y) :
    Astray (double_op op x y) := by
  have hpow : op ≠ .pow := by
    rintro rfl
    exact absurd hop (by decide)
  rw [double_op_divided hop]
  split
  · exact astray_zero_division
  · rename_i hzero
    refine astray_infinite (Bool.eq_false_of_not_eq_true fun hrange => h ⟨fun _ => hzero, ?_, ?_,
      hrange⟩)
    · exact fun hop => absurd hop hpow
    · exact fun hop => absurd hop hpow

/-- Sums, differences and products of doubles. -/
theorem plain_eq {op : Operator} (hop : op ∈ ALLOWED_BINARY)
    (hdiv : op ∉ [.div, .floor_div, .mod]) (hpow : op ≠ .pow) (x y : ℚ × m.Double) :
    double_op op x y = .ok (.double (m.result op x.2 y.2)) := by
  cases op with
  | add | sub | mult => rfl
  | div | floor_div | mod => exact absurd (by decide) hdiv
  | pow => exact absurd rfl hpow
  | mat_mult | l_shift | r_shift | bit_or | bit_xor | bit_and => exact absurd hop (by decide)

theorem double_op_ok {op : Operator} (hop : op ∈ ALLOWED_BINARY) {x y : ℚ × m.Double}
    (h : OnDoubles op x y) : double_op op x y = .ok (.double (m.result op x.2 y.2)) := by
  by_cases hdiv : op ∈ [.div, .floor_div, .mod]
  · exact divided_ok hdiv h
  · by_cases hpow : op = .pow
    · subst hpow
      exact power_ok h
    · exact plain_eq hop hdiv hpow x y

theorem double_op_astray {op : Operator} (hop : op ∈ ALLOWED_BINARY) {x y : ℚ × m.Double}
    (h : ¬OnDoubles op x y) : Astray (double_op op x y) := by
  by_cases hdiv : op ∈ [.div, .floor_div, .mod]
  · exact divided_astray hdiv h
  · by_cases hpow : op = .pow
    · subst hpow
      exact power_astray h
    · rw [plain_eq hop hdiv hpow]
      refine astray_infinite (Bool.eq_false_of_not_eq_true fun hrange => h ⟨?_, ?_, ?_, hrange⟩)
      · exact fun hop => absurd hop hdiv
      · exact fun hop => absurd hop hpow
      · exact fun hop => absurd hop hpow

theorem has_value_on_doubles {op : Operator} {x y : Number m} (h : UsesDoubles op x y) :
    HasValue op x y ↔ OnDoubles op x.real y.real :=
  ⟨fun hv => ⟨hv.divisor, hv.zero_base, hv.negative_base, hv.range h⟩,
    fun hd => ⟨hd.divisor, hd.zero_base, hd.negative_base, fun _ => hd.range⟩⟩

theorem value_real (x : Number m) : x.value.real = some x.real := by
  cases x with
  | int n => rfl
  | double x h =>
    change (m.number x).map _ = _
    rw [← Option.some_get (x := m.number x) h]
    rfl

/-- An operation that uses doubles is the one on doubles. -/
theorem apply_on_doubles {op : Operator} {x y : Number m}
    (h : UsesDoubles op x y) : apply op x.value y.value = double_op op x.real y.real := by
  have hreal : x.value.as_int = none ∨ y.value.as_int = none →
      apply op x.value y.value = double_op op x.real y.real := by
    intro hnone
    unfold apply
    rw [value_real, value_real]
    rcases hnone with hnone | hnone
    · rw [hnone]
    · rw [hnone]
      cases x.value.as_int <;> rfl
  cases x with
  | double x hx => exact hreal (.inl rfl)
  | int a =>
    cases y with
    | double y hy => exact hreal (.inr rfl)
    | int b =>
      rcases h a b rfl rfl with rfl | ⟨rfl, hb⟩
      · change (if b = 0 then _ else _) = if (b : ℚ) = 0 then _ else _
        simp only [Int.cast_eq_zero]
        rfl
      · exact if_neg (not_le.mpr hb)

theorem arith_on_doubles {op : Operator} {x y : Number m} (h : UsesDoubles op x y) :
    arith op x y = number_of (m.result op x.real.2 y.real.2) := by
  cases x with
  | double x hx => rfl
  | int a =>
    cases y with
    | double y hy => rfl
    | int b =>
      rcases h a b rfl rfl with rfl | ⟨rfl, hb⟩
      · rfl
      · exact if_neg (not_le.mpr hb)

theorem has_value_integers {op : Operator} {a b : Int}
    (h : ¬(op = .div ∨ op = .pow ∧ b < 0)) :
    HasValue (m := m) op (.int a) (.int b) ↔ (op ∈ [.floor_div, .mod] → b ≠ 0) := by
  constructor
  · intro hv hop hb
    refine hv.divisor ?_ (by rw [hb]; rfl)
    exact List.mem_cons_of_mem _ hop
  · intro hdivisor
    refine ⟨fun hop => ?_, fun hop _ => ?_, fun _ _ => ?_, fun huses => ?_⟩
    · have hb := hdivisor ((List.mem_cons.mp hop).resolve_left fun hdiv => h (.inl hdiv))
      exact fun hzero => hb (Int.cast_eq_zero.mp hzero)
    · have hb : 0 ≤ b := not_lt.mp fun hneg => h (.inr ⟨hop, hneg⟩)
      exact Int.cast_nonneg hb
    · exact Rat.den_intCast b
    · exact absurd (huses a b rfl rfl) h

theorem integers_ok {op : Operator} (hop : op ∈ ALLOWED_BINARY) {a b : Int}
    (h : ¬(op = .div ∨ op = .pow ∧ b < 0)) (hdivisor : op ∈ [.floor_div, .mod] → b ≠ 0) :
    ∃ z : Number m, arith op (.int a) (.int b) = some z ∧
      apply op (.int a) (.int b) = .ok z.value := by
  cases op with
  | add => exact ⟨.int (a + b), rfl, rfl⟩
  | sub => exact ⟨.int (a - b), rfl, rfl⟩
  | mult => exact ⟨.int (a * b), rfl, rfl⟩
  | div => exact absurd (.inl rfl) h
  | floor_div => exact ⟨.int (a.fdiv b), rfl, if_neg (hdivisor (by decide))⟩
  | mod => exact ⟨.int (a.fmod b), rfl, if_neg (hdivisor (by decide))⟩
  | pow =>
    have hb : 0 ≤ b := not_lt.mp fun hneg => h (.inr ⟨rfl, hneg⟩)
    exact ⟨.int (a ^ b.toNat), if_pos hb, if_pos hb⟩
  | mat_mult | l_shift | r_shift | bit_or | bit_xor | bit_and => exact absurd hop (by decide)

/-- An operation on numbers gives its value, if it has one. -/
theorem apply_ok {op : Operator} (hop : op ∈ ALLOWED_BINARY) {x y : Number m}
    (h : HasValue op x y) :
    ∃ z, arith op x y = some z ∧ apply op x.value y.value = .ok z.value := by
  by_cases huses : UsesDoubles op x y
  · have hrange := h.range huses
    refine ⟨.double _ hrange, ?_, ?_⟩
    · rw [arith_on_doubles huses, number_of_finite hrange]
    · rw [apply_on_doubles huses, double_op_ok hop ((has_value_on_doubles huses).mp h)]
      rfl
  · simp only [UsesDoubles, not_forall] at huses
    obtain ⟨a, b, rfl, rfl, hnot⟩ := huses
    exact integers_ok hop hnot ((has_value_integers hnot).mp h)

theorem apply_astray {op : Operator} (hop : op ∈ ALLOWED_BINARY) {x y : Number m}
    (h : ¬HasValue op x y) : Astray (apply op x.value y.value) := by
  by_cases huses : UsesDoubles op x y
  · rw [apply_on_doubles huses]
    exact double_op_astray hop fun hd => h ((has_value_on_doubles huses).mpr hd)
  · simp only [UsesDoubles, not_forall] at huses
    obtain ⟨a, b, rfl, rfl, hnot⟩ := huses
    rw [has_value_integers hnot] at h
    obtain ⟨hdiv, hb⟩ := Classical.not_imp.mp h
    rw [not_not] at hb
    have hzero : apply op (Number.int (m := m) a).value (Number.int (m := m) b).value =
        .error .zero_division_error := by
      simp only [List.mem_cons, List.not_mem_nil, or_false] at hdiv
      rcases hdiv with rfl | rfl <;> exact if_pos hb
    rw [hzero]
    exact astray_zero_division

/-! ## One part -/

theorem exceeds_number (limit : ℚ) (x : Number m) :
    exceeds limit x.value = .ok (limit < |x.real.1| : Bool) := by
  have hreal := value_real x
  cases x with
  | int n => rfl
  | double x h =>
    change (match (Number.double x h).value.real with
      | some x => Except.ok (decide (limit < |x.1|))
      | none => Except.ok true) = _
    rw [hreal]

/-- Numbers beyond the limits are refused, all others are operated on. -/
theorem operate_numbers (op : Operator) (x y : Number m) :
    (Within op x y → operate op x.value y.value = apply op x.value y.value) ∧
      (¬Within op x y → ∃ message,
        operate op x.value y.value = .error (.calculator_error message)) := by
  have hoperate : operate op x.value y.value =
      if 10 ^ 12 < |x.real.1| ∨ 10 ^ 12 < |y.real.1| then
        .error (.calculator_error "Numbers are too large")
      else if op = .pow ∧ 10 < |y.real.1| then
        .error (.calculator_error "Exponent is too large")
      else apply op x.value y.value := by
    unfold operate
    rw [exceeds_number, exceeds_number, exceeds_number]
    by_cases hx : 10 ^ 12 < |x.real.1| <;> by_cases hy : 10 ^ 12 < |y.real.1| <;>
      by_cases hop : op = .pow <;> by_cases hten : 10 < |y.real.1| <;>
      simp [bind, Except.bind, pure, Except.pure, hx, hy, hop, hten]
  rw [hoperate]
  constructor
  · rintro ⟨hx, hy, hpow⟩
    rw [if_neg (not_or.mpr ⟨not_lt.mpr hx, not_lt.mpr hy⟩),
      if_neg fun h => not_lt.mpr (hpow h.1) h.2]
  · intro hnot
    split
    · exact ⟨_, rfl⟩
    · rename_i hlarge
      split
      · exact ⟨_, rfl⟩
      · rename_i hhigh
        rw [not_or, not_lt, not_lt] at hlarge
        exact absurd ⟨hlarge.1, hlarge.2, fun hop => not_lt.mp fun h => hhigh ⟨hop, h⟩⟩ hnot

theorem unary_number {op : UnaryOperator} (hop : op ∈ ALLOWED_UNARY) (x : Number m) :
    ∃ z, unary_op op x.value = z.value ∧
      ∀ operand, Denotes operand x → Denotes (.unary op operand) z := by
  cases op with
  | u_add =>
    refine ⟨x, ?_, fun _ h => .plus h⟩
    cases x <;> rfl
  | u_sub =>
    refine ⟨negative x, ?_, fun _ h => .minus h⟩
    cases x <;> rfl
  | invert | not => exact absurd hop (by decide)

/-! ## The whole expression -/

theorem self_evaluated (tree : Ast m) : tree ∈ evaluated tree := by
  cases tree with
  | constant c => exact List.mem_singleton_self _
  | other => exact List.mem_singleton_self _
  | unary op operand =>
    rw [evaluated]
    exact List.mem_append_right _ (List.mem_singleton_self _)
  | binary op left right =>
    rw [evaluated]
    exact List.mem_append_right _ (List.mem_singleton_self _)

/-- An error of a part is that of the whole. -/
theorem error_of_part {tree part : Ast m} (h : part ∈ evaluated tree) {e : Raised}
    (he : visit part = .error e) : visit tree = .error e := by
  induction tree with
  | constant c => rwa [List.mem_singleton.mp h] at he
  | other => rwa [List.mem_singleton.mp h] at he
  | unary op operand ih =>
    rw [evaluated] at h
    rcases List.mem_append.mp h with h | h
    · split at h
      · rename_i hop
        rw [visit, if_pos hop, ih h]
        rfl
      · cases h
    · rwa [List.mem_singleton.mp h] at he
  | binary op left right ihl ihr =>
    rw [evaluated] at h
    rcases List.mem_append.mp h with h | h
    · split at h
      · rename_i hop
        rw [visit, if_pos hop]
        rcases List.mem_append.mp h with h | h
        · rw [ihl h]
          rfl
        · split at h
          · rw [ihr h]
            cases hleft : visit left with
            | error e' =>
              rename_i hok
              rw [hleft] at hok
              cases hok
            | ok x => rfl
          · cases h
      · cases h
    · rwa [List.mem_singleton.mp h] at he

/-- A part that is not fine goes astray. -/
theorem astray_of_not_fine {part : Ast m} (h : ¬Fine part) : Astray (visit part) := by
  cases part with
  | constant c =>
    cases c with
    | other => exact absurd trivial h
    | number value =>
      cases value with
      | int n => exact absurd trivial h
      | complex z => exact absurd trivial h
      | bool b => exact .inl ⟨_, rfl, rfl⟩
      | double x => exact astray_infinite (Bool.eq_false_of_not_eq_true h)
  | unary op operand => exact absurd trivial h
  | other => exact absurd trivial h
  | binary op left right =>
    simp only [Fine, not_forall] at h
    obtain ⟨hop, x, y, hx, hy, hwithin, hvalue⟩ := h
    rw [visit, if_pos hop, hx, hy]
    change Astray (operate op x.value y.value)
    rw [(operate_numbers op x y).1 hwithin]
    exact apply_astray hop hvalue

/-- An expression that is fine in all its parts: it has its value, or it is refused. -/
theorem fine_visit {tree : Ast m} (h : ∀ part ∈ evaluated tree, Fine part) :
    (∃ x, visit tree = .ok x.value ∧ Denotes tree x) ∨
      ∃ message, visit tree = .error (.calculator_error message) := by
  induction tree with
  | other => exact .inr ⟨_, rfl⟩
  | constant c =>
    have hfine := h _ (self_evaluated _)
    cases c with
    | other => exact .inr ⟨_, rfl⟩
    | number value =>
      cases value with
      | int n => exact .inl ⟨.int n, rfl, .number (.int n)⟩
      | bool b => exact absurd hfine id
      | complex z => exact .inr ⟨_, rfl⟩
      | double x => exact .inl ⟨.double x hfine, rfl, .number (.double x hfine)⟩
  | unary op operand ih =>
    by_cases hop : op ∈ ALLOWED_UNARY
    · rw [evaluated, if_pos hop] at h
      rw [visit, if_pos hop]
      rcases ih fun part hpart => h part (List.mem_append_left _ hpart) with
        ⟨x, hx, hdenotes⟩ | ⟨message, hmessage⟩
      · obtain ⟨z, hz, hunary⟩ := unary_number hop x
        rw [hx]
        exact .inl ⟨z, congrArg Except.ok hz, hunary operand hdenotes⟩
      · rw [hmessage]
        exact .inr ⟨message, rfl⟩
    · rw [visit, if_neg hop]
      exact .inr ⟨_, rfl⟩
  | binary op left right ihl ihr =>
    by_cases hop : op ∈ ALLOWED_BINARY
    · have hfine : Fine (.binary op left right) := h _ (self_evaluated _)
      rw [evaluated, if_pos hop] at h
      rw [visit, if_pos hop]
      have hparts : ∀ part ∈ evaluated left ++
          (if (visit left).isOk then evaluated right else []), Fine part :=
        fun part hpart => h part (List.mem_append_left _ hpart)
      rcases ihl fun part hpart => hparts part (List.mem_append_left _ hpart) with
        ⟨x, hx, hleft⟩ | ⟨message, hmessage⟩
      · rw [hx] at hparts ⊢
        rcases ihr fun part hpart => hparts part (List.mem_append_right _ hpart) with
          ⟨y, hy, hright⟩ | ⟨message, hmessage⟩
        · rw [hy]
          change (∃ z : Number m, operate op x.value y.value = .ok z.value ∧ _) ∨
            ∃ message, operate op x.value y.value = .error (.calculator_error message)
          by_cases hwithin : Within op x y
          · have hvalue := hfine hop x y hx hy hwithin
            obtain ⟨z, harith, hz⟩ := apply_ok hop hvalue
            rw [(operate_numbers op x y).1 hwithin, hz]
            exact .inl ⟨z, rfl, .operation hop hleft hright hvalue harith⟩
          · exact .inr ((operate_numbers op x y).2 hwithin)
        · rw [hmessage]
          exact .inr ⟨message, rfl⟩
      · rw [hmessage]
        exact .inr ⟨message, rfl⟩
    · rw [visit, if_neg hop]
      exact .inr ⟨_, rfl⟩

theorem evaluated_subset {tree part : Ast m} (h : part ∈ evaluated tree) :
    evaluated part ⊆ evaluated tree := by
  induction tree with
  | constant c =>
    rw [List.mem_singleton.mp h]
    exact List.Subset.refl _
  | other =>
    rw [List.mem_singleton.mp h]
    exact List.Subset.refl _
  | unary op operand ih =>
    have hmem := h
    rw [evaluated] at hmem
    rcases List.mem_append.mp hmem with hmem | hmem
    · split at hmem
      · rename_i hop
        rw [evaluated, if_pos hop]
        exact List.Subset.trans (ih hmem) (List.subset_append_left _ _)
      · cases hmem
    · rw [List.mem_singleton.mp hmem]
      exact List.Subset.refl _
  | binary op left right ihl ihr =>
    have hmem := h
    rw [evaluated] at hmem
    rcases List.mem_append.mp hmem with hmem | hmem
    · split at hmem
      · rename_i hop
        rw [evaluated, if_pos hop]
        refine List.Subset.trans ?_ (List.subset_append_left _ _)
        rcases List.mem_append.mp hmem with hmem | hmem
        · exact List.Subset.trans (ihl hmem) (List.subset_append_left _ _)
        · split at hmem
          · rename_i hok
            rw [if_pos hok]
            exact List.Subset.trans (ihr hmem) (List.subset_append_right _ _)
          · cases hmem
      · cases hmem
    · rw [List.mem_singleton.mp hmem]
      exact List.Subset.refl _

theorem number_is_number (x : Number m) : x.value.is_number = true := by
  cases x with
  | int n => rfl
  | double x h => exact h

/-! ## Integers -/

/-- Only integers and no division occur. -/
def integers_only : Ast m → Bool
  | .constant (.number (.int _)) => true
  | .constant _ => false
  | .unary _ operand => integers_only operand
  | .binary op left right => op ≠ .div && integers_only left && integers_only right
  | .other => false

/-- No exponent that is evaluated is negative. -/
def NoNegativePower (tree : Ast m) : Prop :=
  ∀ left right, .binary .pow left right ∈ evaluated tree → ∀ b, visit right = .ok (.int b) → 0 ≤ b

theorem int_op_int {op : Operator} {a b : Int} (hdiv : op ≠ .div) (hpow : op = .pow → 0 ≤ b)
    {v : Value m} (h : int_op op a b = .ok v) : ∃ n, v = .int n := by
  have hzero : ∀ n, (if b = 0 then .error .zero_division_error else .ok (.int n)) =
      (.ok v : Except Raised (Value m)) → ∃ n, v = .int n := by
    intro n hn
    split at hn
    · cases hn
    · cases hn
      exact ⟨n, rfl⟩
  cases op with
  | add | sub | mult =>
    cases h
    exact ⟨_, rfl⟩
  | div => exact absurd rfl hdiv
  | floor_div | mod => exact hzero _ h
  | pow =>
    rw [int_op, if_pos (hpow rfl)] at h
    cases h
    exact ⟨_, rfl⟩
  | mat_mult | l_shift | r_shift | bit_or | bit_xor | bit_and => cases h

/-- An expression of integers has an integer as its value. -/
theorem integer_visit {tree : Ast m} (h : integers_only tree = true)
    (hpow : NoNegativePower tree) {v : Value m} (hv : visit tree = .ok v) : ∃ n, v = .int n := by
  induction tree generalizing v with
  | other => cases h
  | constant c =>
    cases c with
    | other => cases h
    | number value =>
      cases value with
      | int n =>
        cases hv
        exact ⟨n, rfl⟩
      | bool | double | complex => cases h
  | unary op operand ih =>
    by_cases hop : op ∈ ALLOWED_UNARY
    · rw [visit, if_pos hop] at hv
      have hparts : NoNegativePower operand := fun left right hmem =>
        hpow left right (by
          rw [evaluated, if_pos hop]
          exact List.mem_append_left _ hmem)
      cases hoperand : visit operand with
      | error e =>
        rw [hoperand] at hv
        cases hv
      | ok x =>
        obtain ⟨n, rfl⟩ := ih h hparts hoperand
        rw [hoperand] at hv
        cases hv
        exact ⟨_, rfl⟩
    · rw [visit, if_neg hop] at hv
      cases hv
  | binary op left right ihl ihr =>
    rw [integers_only, Bool.and_eq_true, Bool.and_eq_true] at h
    obtain ⟨⟨hdiv, hleft⟩, hright⟩ := h
    by_cases hop : op ∈ ALLOWED_BINARY
    · rw [visit, if_pos hop] at hv
      have hparts : ∀ part ∈ evaluated left ++
          (if (visit left).isOk then evaluated right else []),
          part ∈ evaluated (.binary op left right) := fun part hmem => by
        rw [evaluated, if_pos hop]
        exact List.mem_append_left _ hmem
      cases hx : visit left with
      | error e =>
        rw [hx] at hv
        cases hv
      | ok x =>
        obtain ⟨a, rfl⟩ := ihl hleft (fun l r hmem =>
          hpow l r (hparts _ (List.mem_append_left _ hmem))) hx
        rw [hx] at hparts hv
        cases hy : visit right with
        | error e =>
          rw [hy] at hv
          cases hv
        | ok y =>
          obtain ⟨b, rfl⟩ := ihr hright (fun l r hmem =>
            hpow l r (hparts _ (List.mem_append_right _ hmem))) hy
          rw [hy] at hv
          obtain ⟨hinside, houtside⟩ := operate_numbers (m := m) op (.int a) (.int b)
          by_cases hwithin : Within (m := m) op (.int a) (.int b)
          · refine int_op_int (of_decide_eq_true hdiv) (fun hop => ?_)
              ((hinside hwithin).symm.trans hv)
            subst hop
            exact hpow left right (self_evaluated _) b hy
          · obtain ⟨message, hmessage⟩ := houtside hwithin
            cases hmessage.symm.trans hv
    · rw [visit, if_neg hop] at hv
      cases hv

/-! ## The law -/

/-- The calculator keeps its promise for these arguments: no other error than a CalculatorError
is raised, no part that is evaluated has a value that is no number, and what is returned is the
value of the expression. -/
structure Meets (parse : String → Except String (Ast m)) (arguments : Fields) : Prop where
  errors : ∀ e, run_calculator_tool parse arguments = .error e → e.is_calculator_error = true
  numbers : ∀ text tree, expression arguments = .ok text → parse text = .ok tree →
    ∀ part ∈ evaluated tree, ∀ v, visit part = .ok v → v.is_number = true
  value : ∀ text rendered, run_calculator_tool parse arguments = .ok (text, rendered) →
    ∃ tree x, parse text = .ok tree ∧ Denotes tree x ∧ rendered = x.value.str

/-- For these arguments the calculator returns integers exactly. -/
def Exact (parse : String → Except String (Ast m)) (arguments : Fields) : Prop :=
  ∀ text tree rendered, parse text = .ok tree → integers_only tree = true →
    run_calculator_tool parse arguments = .ok (text, rendered) →
    ∃ n, Denotes tree (.int n) ∧ rendered = toString n

theorem run_of_expression {parse : String → Except String (Ast m)} {arguments : Fields}
    {text : String} (h : expression arguments = .ok text) :
    run_calculator_tool parse arguments = ((parse text).mapError .parse_error).bind fun tree =>
      (visit tree).bind fun value => .ok (text, value.str) := by
  unfold run_calculator_tool
  rw [h]
  rfl

theorem expression_refused {arguments : Fields} {e : Raised} (h : expression arguments = .error e) :
    e.is_calculator_error = true := by
  unfold expression at h
  split at h
  · split at h
    · cases h
      rfl
    · split at h
      · cases h
        rfl
      · cases h
  · cases h
    rfl

/-- The expression is a text that parses to a tree whose parts are all fine, or it is refused
before it is parsed. -/
def FineArguments (parse : String → Except String (Ast m)) (arguments : Fields) : Prop :=
  ∀ text, expression arguments = .ok text →
    ∃ tree, parse text = .ok tree ∧ ∀ part ∈ evaluated tree, Fine part

theorem fine_of_meets {parse : String → Except String (Ast m)} {arguments : Fields}
    (h : Meets parse arguments) : FineArguments parse arguments := by
  intro text htext
  have hrun := @run_of_expression m parse arguments text htext
  cases hparse : parse text with
  | error message =>
    rw [hparse] at hrun
    cases h.errors _ hrun
  | ok tree =>
    refine ⟨tree, rfl, fun part hpart => ?_⟩
    by_contra hnot
    rcases astray_of_not_fine hnot with ⟨v, hv, hnumber⟩ | ⟨e, he, herror⟩
    · rw [h.numbers text tree htext hparse part hpart v hv] at hnumber
      cases hnumber
    · have hvisit := error_of_part hpart he
      rw [hparse] at hrun
      change _ = (visit tree).bind _ at hrun
      rw [hvisit] at hrun
      rw [h.errors e hrun] at herror
      cases herror

theorem meets_of_fine {parse : String → Except String (Ast m)} {arguments : Fields}
    (h : FineArguments parse arguments) : Meets parse arguments := by
  cases hexpression : expression arguments with
  | error e =>
    have hrun : run_calculator_tool parse arguments = .error e := by
      unfold run_calculator_tool
      rw [hexpression]
      rfl
    refine ⟨fun e' he => ?_, fun text tree htext => ?_, fun text rendered hok => ?_⟩
    · cases hrun.symm.trans he
      exact expression_refused hexpression
    · cases hexpression.symm.trans htext
    · cases hrun.symm.trans hok
  | ok text =>
    obtain ⟨tree, hparse, hfine⟩ := h text hexpression
    have hrun : run_calculator_tool parse arguments =
        (visit tree).bind fun value => .ok (text, value.str) := by
      rw [run_of_expression hexpression, hparse]
      rfl
    refine ⟨fun e he => ?_, ?_, fun text' rendered hok => ?_⟩
    · rcases fine_visit hfine with ⟨x, hx, -⟩ | ⟨message, hmessage⟩
      · rw [hx] at hrun
        cases hrun.symm.trans he
      · rw [hmessage] at hrun
        cases hrun.symm.trans he
        rfl
    · intro text' tree' htext htree part hpart v hv
      cases hexpression.symm.trans htext
      cases hparse.symm.trans htree
      rcases fine_visit fun p hp => hfine p (evaluated_subset hpart hp) with
        ⟨x, hx, -⟩ | ⟨message, hmessage⟩
      · cases hx.symm.trans hv
        exact number_is_number x
      · cases hmessage.symm.trans hv
    · rcases fine_visit hfine with ⟨x, hx, hdenotes⟩ | ⟨message, hmessage⟩
      · rw [hx] at hrun
        cases hrun.symm.trans hok
        exact ⟨tree, x, hparse, hdenotes, rfl⟩
      · rw [hmessage] at hrun
        cases hrun.symm.trans hok

theorem exact_of_fine {parse : String → Except String (Ast m)} {arguments : Fields}
    (h : FineArguments parse arguments)
    (hpow : ∀ text tree, expression arguments = .ok text → parse text = .ok tree →
      integers_only tree = true → NoNegativePower tree) : Exact parse arguments := by
  intro text tree rendered hparse hintegers hok
  cases hexpression : expression arguments with
  | error e =>
    unfold run_calculator_tool at hok
    rw [hexpression] at hok
    cases hok
  | ok text' =>
    obtain ⟨tree', hparse', hfine⟩ := h text' hexpression
    have hrun : run_calculator_tool parse arguments =
        (visit tree').bind fun value => .ok (text', value.str) := by
      rw [run_of_expression hexpression, hparse']
      rfl
    rcases fine_visit hfine with ⟨x, hx, hdenotes⟩ | ⟨message, hmessage⟩
    · rw [hx] at hrun
      cases hrun.symm.trans hok
      cases hparse.symm.trans hparse'
      obtain ⟨n, hn⟩ := integer_visit hintegers (hpow text tree hexpression hparse hintegers) hx
      cases x with
      | int k => exact ⟨k, hdenotes, rfl⟩
      | double x hfinite => cases hn
    · rw [hmessage] at hrun
      cases hrun.symm.trans hok

/-- LAW: the calculator raises no other error than a CalculatorError, goes by numbers alone and
returns the value of the expression exactly if the expression parses and all parts of it that
are evaluated are fine. If further no exponent is negative where only integers and no division
occur, it returns integers exactly. -/
theorem the_calculator_keeps_its_promise_iff (m : Machine)
    (parse : String → Except String (Ast m)) (arguments : Fields) :
    (Meets parse arguments ↔ FineArguments parse arguments) ∧
      (FineArguments parse arguments →
        (∀ text tree, expression arguments = .ok text → parse text = .ok tree →
          integers_only tree = true → NoNegativePower tree) →
        Exact parse arguments) :=
  ⟨⟨fine_of_meets, meets_of_fine⟩, exact_of_fine⟩

/-- A small machine, whose doubles are rational numbers or infinite. -/
def SMALL_MACHINE : Machine where
  Double := Option ℚ
  Complex := Unit
  number := id
  of_int n := some n
  negated x := x.map fun q => -q
  negated_number _ := rfl
  result _ _ _ := some 0
  format _ := ""
  complex_of _ := ()
  complex_negated _ := ()
  complex_power _ _ := ()
  complex_result _ _ _ := .ok ()
  complex_exceeds _ _ := .ok false
  complex_str _ := ""

/-- The tree of `1/0`. -/
def ONE_BY_ZERO : Ast SMALL_MACHINE :=
  .binary .div (.constant (.number (.int 1))) (.constant (.number (.int 0)))

/-- A division by zero raises a ZeroDivisionError. -/
theorem a_division_by_zero_escapes :
    run_calculator_tool (fun _ => .ok ONE_BY_ZERO) [("expression", .str "1/0")] =
        .error .zero_division_error ∧
      ¬Meets (fun _ => .ok ONE_BY_ZERO) [("expression", .str "1/0")] := by
  have hrun : run_calculator_tool (fun _ => .ok ONE_BY_ZERO) [("expression", .str "1/0")] =
      .error .zero_division_error := by
    have hexpression : expression [("expression", .str "1/0")] = .ok "1/0" := by decide
    have hwithin : Within (m := SMALL_MACHINE) .div (.int 1) (.int 0) := by
      refine ⟨?_, ?_, fun hop => by cases hop⟩ <;> norm_num [Number.real]
    have hoperate := (operate_numbers .div (.int 1) (.int 0)).1 hwithin
    have hvisit : visit ONE_BY_ZERO =
        operate .div (Number.int 1).value (Number.int 0 : Number SMALL_MACHINE).value := rfl
    have happly : apply .div (Number.int 1).value (Number.int 0 : Number SMALL_MACHINE).value =
        .error .zero_division_error := rfl
    rw [run_of_expression hexpression]
    change (visit ONE_BY_ZERO).bind (fun value => .ok ("1/0", value.str)) = _
    rw [hvisit, hoperate, happly]
    rfl
  refine ⟨hrun, fun h => ?_⟩
  cases h.errors _ hrun

end dr_boz.calculator
