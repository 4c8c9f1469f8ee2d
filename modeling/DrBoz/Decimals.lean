-- Decimals as texts: what `Decimal(text)` reads, and the plain texts of two
-- places that the bot writes.
import DrBoz.Texts
import Mathlib.Data.List.DropRight
import Mathlib.Data.List.TakeWhile

open dr_boz.py dr_boz.texts

namespace dr_boz.decimals

/-! ## Reading -/

/-- A value of `decimal.Decimal`. -/
inductive PyDecimal where
  | finite (value : Decimal)
  | infinity (positive : Bool)
  | nan
  | signaling_nan
deriving DecidableEq, Repr

def is_decimal (c : Char) : Bool := (decimal c).isSome

/-- The number in a row of digits, which may be empty. -/
def digits_of (cs : List Char) : Nat := number (cs.filterMap decimal)

/-- The exponent after the digits: nothing, or `E` and a whole number. -/
def exponent : List Char → Option Int
  | [] => some 0
  | mark :: cs =>
    if mark = 'e' ∨ mark = 'E' then
      let (sign, cs) : Int × List Char :=
        match cs with
        | '-' :: cs => (-1, cs)
        | '+' :: cs => (1, cs)
        | cs => (1, cs)
      if cs ≠ [] ∧ cs.all is_decimal then some (sign * digits_of cs) else none
    else none

/-- The number is exact in the widest context. -/
def in_range (coefficient : Nat) (exponent : Int) : Bool :=
  coefficient = 0 || -1999999999999999997 ≤ exponent &&
    exponent + (Nat.toDigits 10 coefficient).length ≤ 1000000000000000000

/-- Digits with a point among them or not, and an exponent. A number that is not exact is none. -/
def number_of (cs : List Char) : Option Decimal :=
  let whole := cs.takeWhile is_decimal
  let rest := cs.dropWhile is_decimal
  let (fraction, rest) : List Char × List Char :=
    match rest with
    | '.' :: rest => (rest.takeWhile is_decimal, rest.dropWhile is_decimal)
    | rest => ([], rest)
  if whole ++ fraction = [] then none
  else
    (exponent rest).bind fun (e : Int) =>
      if rest.isEmpty || in_range (digits_of (whole ++ fraction)) (e - fraction.length) then
        some (digits_of (whole ++ fraction) * (10 : ℚ) ^ (e - fraction.length))
      else none

def unsigned (positive : Bool) (cs : List Char) : Option PyDecimal :=
  let small := cs.map Char.toLower
  if small = "inf".toList ∨ small = "infinity".toList then some (.infinity positive)
  else if small.take 3 = "nan".toList ∧ (cs.drop 3).all is_decimal then some .nan
  else if small.take 4 = "snan".toList ∧ (cs.drop 4).all is_decimal then some .signaling_nan
  else (number_of cs).map fun value => .finite (if positive then value else -value)

/-- `Decimal(text)`. A text that is no number raises `InvalidOperation`. -/
def decimal_of (text : String) : Option PyDecimal :=
  match (strip text).toList.filter (· ≠ '_') with
  | '-' :: cs => unsigned false cs
  | '+' :: cs => unsigned true cs
  | cs => unsigned true cs

/-- `value.quantize(Decimal("0.01"), rounding=ROUND_HALF_UP)`. Infinity, a
signaling NaN and a result of more than 28 digits raise. -/
def quantize_cents : PyDecimal → Option PyDecimal
  | .finite value =>
    let cents := roundHalfUp (value * 100)
    if cents.natAbs < 10 ^ 28 then some (.finite (cents / 100)) else none
  | .nan => some .nan
  | .infinity _ | .signaling_nan => none

/-! ## Writing -/

/-- `text.rstrip(mark)` -/
def rstrip (mark : Char) (cs : List Char) : List Char := cs.rdropWhile (· = mark)

/-- `format(Decimal(cents) / 100, "f")` of a number that is not negative. -/
def format_cents (cents : Nat) : List Char :=
  Nat.toDigits 10 (cents / 100) ++
    ['.', Nat.digitChar (cents % 100 / 10), Nat.digitChar (cents % 10)]

/-- `_decimal_to_plain`, for the amounts of an invoice, none of which is
negative. -/
def decimal_to_plain (value : Decimal) : String :=
  String.ofList (rstrip '.' (rstrip '0' (format_cents (roundHalfUp (value * 100)).toNat)))

example : decimal_to_plain (25 / 2) = "12.5" := by decide +kernel

example : decimal_of " -1_2.50e1 " = some (.finite (-125)) := by decide +kernel

/-! ## What is written is read again -/

theorem decimal_of_digitChar {d : Nat} (hd : d < 10) : decimal (Nat.digitChar d) = some d := by
  have hall : ∀ d : Fin 10, decimal (Nat.digitChar d) = some d.val := by decide +kernel
  exact hall ⟨d, hd⟩

theorem digitChar_isDigit {d : Nat} (hd : d < 10) : (Nat.digitChar d).isDigit = true := by
  have hall : ∀ d : Fin 10, (Nat.digitChar d).isDigit = true := by decide +kernel
  exact hall ⟨d, hd⟩

theorem upper_range {c : Char} (h : c.isUpper = true) : 65 ≤ c.toNat ∧ c.toNat ≤ 90 := by
  have hval : c.val ≥ 'A'.val ∧ c.val ≤ 'Z'.val := of_decide_eq_true h
  exact hval

theorem digitChar_ne_zero {d : Nat} (hd : d < 10) (h : d ≠ 0) : Nat.digitChar d ≠ '0' := by
  have hall : ∀ d : Fin 10, d.val ≠ 0 → Nat.digitChar d ≠ '0' := by decide +kernel
  exact hall ⟨d, hd⟩ h

theorem is_decimal_of_digit {c : Char} (h : c.isDigit = true) : is_decimal c = true := by
  unfold is_decimal
  rw [decimal_of_digit h]
  rfl

theorem digits_of_append_digit (cs : List Char) {d : Nat} (hd : d < 10) :
    digits_of (cs ++ [Nat.digitChar d]) = 10 * digits_of cs + d := by
  unfold digits_of number
  rw [List.filterMap_append, List.foldl_append, List.filterMap_cons, decimal_of_digitChar hd]
  rfl

theorem digits_of_toDigits (n : Nat) : digits_of (Nat.toDigits 10 n) = n := by
  have hmap : ∀ cs : List Char, (∀ c ∈ cs, c.isDigit = true) →
      cs.filterMap decimal = cs.map (·.toNat - 48) := by
    intro cs hcs
    induction cs with
    | nil => rfl
    | cons c cs ih =>
      rw [List.filterMap_cons, decimal_of_digit (hcs c (List.mem_cons_self ..)), List.map_cons,
        ih fun x hx => hcs x (List.mem_cons_of_mem _ hx)]
  unfold digits_of
  rw [hmap _ fun c => digits_are_digits, number_toDigits]

theorem rstrip_mark (mark : Char) (cs : List Char) : rstrip mark (cs ++ [mark]) = rstrip mark cs :=
  List.rdropWhile_concat_pos _ _ _ (decide_eq_true rfl)

theorem rstrip_other {mark c : Char} (h : c ≠ mark) (cs : List Char) :
    rstrip mark (cs ++ [c]) = cs ++ [c] :=
  List.rdropWhile_concat_neg _ _ _ (by simpa using h)

/-- The digits after the point that are left. -/
def places (cents : Nat) : List Char :=
  if cents % 10 ≠ 0 then [Nat.digitChar (cents % 100 / 10), Nat.digitChar (cents % 10)]
  else if cents % 100 / 10 ≠ 0 then [Nat.digitChar (cents % 100 / 10)]
  else []

theorem rstrip_point_toDigits (n : Nat) : rstrip '.' (Nat.toDigits 10 n) = Nat.toDigits 10 n := by
  have hne : Nat.toDigits 10 n ≠ [] := Nat.toDigits_ne_nil
  obtain ⟨cs, c, hlast⟩ := (List.eq_nil_or_concat' (Nat.toDigits 10 n)).resolve_left hne
  have hdigit : c.isDigit = true := digits_are_digits (n := n) (by rw [hlast]; simp)
  rw [hlast]
  refine rstrip_other (fun h => ?_) cs
  rw [h] at hdigit
  exact absurd hdigit (by decide)

/-- The zeros at the end go, and the point when nothing is left behind it. -/
theorem plain_cents (cents : Nat) :
    rstrip '.' (rstrip '0' (format_cents cents)) =
      Nat.toDigits 10 (cents / 100) ++ if places cents = [] then [] else '.' :: places cents := by
  have hones : cents % 10 < 10 := Nat.mod_lt _ (by decide)
  have htens : cents % 100 / 10 < 10 := by omega
  have hpoint : ∀ d < 10, Nat.digitChar d ≠ '.' := fun d hd h =>
    absurd (h ▸ digitChar_isDigit hd) (by decide)
  unfold format_cents places
  by_cases hone : cents % 10 = 0
  · rw [hone, if_neg (not_not.mpr rfl)]
    have hzero : Nat.digitChar 0 = '0' := rfl
    have hsplit : ∀ tens : Char, Nat.toDigits 10 (cents / 100) ++ ['.', tens, '0'] =
        (Nat.toDigits 10 (cents / 100) ++ ['.', tens]) ++ ['0'] := by simp
    rw [hzero, hsplit, rstrip_mark]
    by_cases hten : cents % 100 / 10 = 0
    · have hpair : Nat.toDigits 10 (cents / 100) ++ ['.', '0'] =
          (Nat.toDigits 10 (cents / 100) ++ ['.']) ++ ['0'] := by simp
      rw [hten, hzero, hpair, rstrip_mark, rstrip_other (by decide), rstrip_mark,
        rstrip_point_toDigits, if_neg (not_not.mpr rfl), if_pos rfl, List.append_nil]
    · have hpair : Nat.toDigits 10 (cents / 100) ++ ['.', Nat.digitChar (cents % 100 / 10)] =
          (Nat.toDigits 10 (cents / 100) ++ ['.']) ++ [Nat.digitChar (cents % 100 / 10)] := by
        simp
      rw [hpair, rstrip_other (digitChar_ne_zero htens hten), rstrip_other (hpoint _ htens),
        if_pos hten, if_neg (by simp), ← hpair]
  · have hpair : Nat.toDigits 10 (cents / 100) ++
          ['.', Nat.digitChar (cents % 100 / 10), Nat.digitChar (cents % 10)] =
        (Nat.toDigits 10 (cents / 100) ++ ['.', Nat.digitChar (cents % 100 / 10)]) ++
          [Nat.digitChar (cents % 10)] := by simp
    rw [hpair, rstrip_other (digitChar_ne_zero hones hone), rstrip_other (hpoint _ hones),
      if_pos hone, if_neg (by simp), ← hpair]

theorem places_digits {cents : Nat} {c : Char} (h : c ∈ places cents) : c.isDigit = true := by
  have hones : cents % 10 < 10 := Nat.mod_lt _ (by decide)
  have htens : cents % 100 / 10 < 10 := by omega
  unfold places at h
  split at h
  · simp only [List.mem_cons, List.not_mem_nil, or_false] at h
    rcases h with rfl | rfl
    · exact digitChar_isDigit htens
    · exact digitChar_isDigit hones
  · split at h
    · rw [List.mem_singleton.mp h]
      exact digitChar_isDigit htens
    · cases h

/-- The digits around the point stand for the cents. -/
theorem value_of_places (cents : Nat) :
    (digits_of (Nat.toDigits 10 (cents / 100) ++ places cents) : ℚ) *
      (10 : ℚ) ^ (0 - ((places cents).length : Int)) = cents / 100 := by
  have hones : cents % 10 < 10 := Nat.mod_lt _ (by decide)
  have htens : cents % 100 / 10 < 10 := by omega
  have hwhole : cents = 100 * (cents / 100) + 10 * (cents % 100 / 10) + cents % 10 := by omega
  unfold places
  split
  · have hpair : Nat.toDigits 10 (cents / 100) ++
          [Nat.digitChar (cents % 100 / 10), Nat.digitChar (cents % 10)] =
        (Nat.toDigits 10 (cents / 100) ++ [Nat.digitChar (cents % 100 / 10)]) ++
          [Nat.digitChar (cents % 10)] := by simp
    have hvalue : digits_of (Nat.toDigits 10 (cents / 100) ++
        [Nat.digitChar (cents % 100 / 10), Nat.digitChar (cents % 10)]) = cents := by
      rw [hpair, digits_of_append_digit _ hones, digits_of_append_digit _ htens,
        digits_of_toDigits]
      omega
    rw [hvalue]
    norm_num
    ring
  · next hone =>
    split
    · have hvalue : 10 * digits_of (Nat.toDigits 10 (cents / 100) ++
          [Nat.digitChar (cents % 100 / 10)]) = cents := by
        rw [digits_of_append_digit _ htens, digits_of_toDigits]
        omega
      have hcast : (10 : ℚ) * digits_of (Nat.toDigits 10 (cents / 100) ++
          [Nat.digitChar (cents % 100 / 10)]) = cents := by exact_mod_cast hvalue
      rw [← hcast]
      norm_num
      ring
    · next hten =>
      have hvalue : 100 * digits_of (Nat.toDigits 10 (cents / 100) ++ []) = cents := by
        rw [List.append_nil, digits_of_toDigits]
        omega
      have hcast : (100 : ℚ) * digits_of (Nat.toDigits 10 (cents / 100) ++ []) = cents := by
        exact_mod_cast hvalue
      rw [← hcast]
      norm_num

/-- The plain text of an amount in cents. -/
def plain_text (cents : Nat) : List Char :=
  Nat.toDigits 10 (cents / 100) ++ if places cents = [] then [] else '.' :: places cents

theorem number_of_plain (cents : Nat) : number_of (plain_text cents) = some (cents / 100 : ℚ) := by
  have hwhole : ∀ c ∈ Nat.toDigits 10 (cents / 100), is_decimal c = true := fun c hc =>
    is_decimal_of_digit (digits_are_digits hc)
  have hplaces : ∀ c ∈ places cents, is_decimal c = true := fun c hc =>
    is_decimal_of_digit (places_digits hc)
  have hsome : Nat.toDigits 10 (cents / 100) ++ places cents ≠ [] :=
    List.append_ne_nil_of_left_ne_nil Nat.toDigits_ne_nil _
  have hvalue := value_of_places cents
  unfold number_of plain_text
  by_cases hempty : places cents = []
  · rw [if_pos hempty, List.append_nil, List.takeWhile_eq_self_iff.mpr hwhole,
      List.dropWhile_eq_nil_iff.mpr hwhole]
    rw [hempty] at hsome hvalue
    simp only
    rw [if_neg hsome]
    exact congrArg some hvalue
  · have hpoint : is_decimal '.' = false := by decide +kernel
    rw [if_neg hempty, List.takeWhile_append_of_pos hwhole, List.dropWhile_append_of_pos hwhole,
      List.takeWhile_cons_of_neg (by rw [hpoint]; decide),
      List.dropWhile_cons_of_neg (by rw [hpoint]; decide), List.append_nil]
    simp only
    rw [List.takeWhile_eq_self_iff.mpr hplaces, List.dropWhile_eq_nil_iff.mpr hplaces,
      if_neg hsome]
    exact congrArg some hvalue

theorem digit_toLower {c : Char} (h : c.isDigit = true) : c.toLower = c := by
  obtain ⟨-, hhigh⟩ := digit_range h
  unfold Char.toLower
  rw [dif_neg]
  rintro ⟨hlow, -⟩
  have hnat : 65 ≤ c.toNat := hlow
  omega

/-- A text that begins with a digit is no word. -/
theorem unsigned_of_digit {c : Char} {cs : List Char} (h : c.isDigit = true) :
    unsigned true (c :: cs) = (number_of (c :: cs)).map .finite := by
  have hne : ∀ mark : Char, mark.isDigit = false → c ≠ mark := fun mark hmark he => by
    rw [he, hmark] at h
    cases h
  unfold unsigned
  simp only [List.map_cons, digit_toLower h]
  rw [if_neg, if_neg, if_neg]
  · simp only [if_true]
  · exact fun he => hne 's' (by decide) (List.cons.inj he.1).1
  · exact fun he => hne 'n' (by decide) (List.cons.inj he.1).1
  · exact fun he => he.elim (fun he => hne 'i' (by decide) (List.cons.inj he).1)
      fun he => hne 'i' (by decide) (List.cons.inj he).1

theorem mem_plain {cents : Nat} {c : Char} (h : c ∈ plain_text cents) :
    c.isDigit = true ∨ c = '.' := by
  unfold plain_text at h
  rcases List.mem_append.mp h with h | h
  · exact .inl (digits_are_digits h)
  · split at h
    · cases h
    · rcases List.mem_cons.mp h with h | h
      · exact .inr h
      · exact .inl (places_digits h)

theorem plain_not_space {cents : Nat} {c : Char} (h : c ∈ plain_text cents) :
    isSpace c = false := by
  rcases mem_plain h with h | rfl
  · exact digit_not_space h
  · decide

theorem decimal_of_plain (cents : Nat) :
    decimal_of (String.ofList (plain_text cents)) = some (.finite (cents / 100)) := by
  have hfilter : (plain_text cents).filter (· ≠ '_') = plain_text cents :=
    List.filter_eq_self.mpr fun c hc => decide_eq_true fun he => by
      rcases mem_plain hc with h | h
      · rw [he] at h
        exact absurd h (by decide)
      · exact absurd (he.symm.trans h) (by decide)
  have hread := number_of_plain cents
  unfold decimal_of
  rw [strip_plain fun c hc => plain_not_space (String.toList_ofList ▸ hc), String.toList_ofList,
    hfilter]
  obtain ⟨c, cs, hdigits⟩ := List.exists_cons_of_ne_nil
    (Nat.toDigits_ne_nil (n := cents / 100) (b := 10))
  have hdigit : c.isDigit = true := digits_are_digits (n := cents / 100) (by rw [hdigits]; simp)
  have hcons : plain_text cents =
      c :: (cs ++ if places cents = [] then [] else '.' :: places cents) := by
    unfold plain_text
    rw [hdigits]
    rfl
  rw [hcons] at hread ⊢
  split
  · next h => exact absurd ((List.cons.inj h).1 ▸ hdigit) (by decide)
  · next h => exact absurd ((List.cons.inj h).1 ▸ hdigit) (by decide)
  · rw [unsigned_of_digit hdigit, hread]
    rfl

theorem roundHalfUp_cast (n : Nat) : roundHalfUp (n : ℚ) = n := by
  refine (roundHalfUp_eq_iff (by positivity)).mpr ⟨?_, ?_⟩
  · push_cast
    linarith
  · push_cast
    linarith

theorem decimal_to_plain_cents (cents : Nat) :
    decimal_to_plain (cents / 100) = String.ofList (plain_text cents) := by
  have hcents : (cents / 100 : ℚ) * 100 = cents := by ring
  unfold decimal_to_plain
  rw [hcents, roundHalfUp_cast, Int.toNat_natCast, plain_cents]
  rfl

theorem quantize_whole_cents {cents : Nat} (h : cents < 10 ^ 28) :
    quantize_cents (.finite (cents / 100)) = some (.finite (cents / 100)) := by
  have hcents : (cents / 100 : ℚ) * 100 = cents := by ring
  unfold quantize_cents
  simp only
  rw [hcents, roundHalfUp_cast, Int.natAbs_natCast, if_pos h]
  rfl

end dr_boz.decimals
