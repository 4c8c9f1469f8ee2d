-- Texts that Python reads and writes: whole numbers, dates, and fields with
-- a mark between them.
import Mathlib.Tactic.IntervalCases
import DrBoz.Py

open dr_boz.py

namespace dr_boz.texts

/-! ## Digits -/

/-- The zeros of the decimal digits of Unicode. The nine digits after each
of them follow it. -/
def DECIMAL_ZEROS : List Nat :=
  [0x30, 0x660, 0x6f0, 0x7c0, 0x966, 0x9e6, 0xa66, 0xae6, 0xb66, 0xbe6, 0xc66, 0xce6, 0xd66, 0xde6,
   0xe50, 0xed0, 0xf20, 0x1040, 0x1090, 0x17e0, 0x1810, 0x1946, 0x19d0, 0x1a80, 0x1a90, 0x1b50,
   0x1bb0, 0x1c40, 0x1c50, 0xa620, 0xa8d0, 0xa900, 0xa9d0, 0xa9f0, 0xaa50, 0xabf0, 0xff10, 0x104a0,
   0x10d30, 0x11066, 0x110f0, 0x11136, 0x111d0, 0x112f0, 0x11450, 0x114d0, 0x11650, 0x116c0,
   0x11730, 0x118e0, 0x11950, 0x11c50, 0x11d50, 0x11da0, 0x16a60, 0x16ac0, 0x16b50, 0x1d7ce,
   0x1d7d8, 0x1d7e2, 0x1d7ec, 0x1d7f6, 0x1e140, 0x1e2f0, 0x1e950, 0x1fbf0]

/-- The value of a decimal digit, of any script. -/
def decimal (c : Char) : Option Nat :=
  (DECIMAL_ZEROS.find? fun z => z ≤ c.toNat && c.toNat ≤ z + 9).map (c.toNat - ·)

/-- The number that a row of digits stands for. -/
def number (digits : List Nat) : Nat := digits.foldl (fun n d => 10 * n + d) 0

/-! ## Whole numbers -/

/-- The digits of a number, with single underscores between them. -/
def parse_digits (cs : List Char) : Option Nat :=
  if (cs.splitOn '_').any (·.isEmpty) then none
  else ((cs.filter (· ≠ '_')).mapM decimal).map number

/-- `int(text)`. A text that is not a number raises. -/
def int_of (text : String) : Option Int :=
  match (strip text).toList with
  | '-' :: cs => (parse_digits cs).map fun (n : Nat) => -(n : Int)
  | '+' :: cs => (parse_digits cs).map Int.ofNat
  | cs => (parse_digits cs).map Int.ofNat

/-- `str(n)` of a whole number. -/
def str_of (n : Int) : List Char :=
  if n < 0 then '-' :: Nat.toDigits 10 n.natAbs else Nat.toDigits 10 n.natAbs

/-- `mark.join(fields)`. -/
def join (mark : Char) (fields : List (List Char)) : String :=
  String.ofList ([mark].intercalate fields)

/-- `text.split(mark)`. -/
def split (mark : Char) (text : String) : List String :=
  (text.toList.splitOn mark).map String.ofList

/-- `text.replace(part, "")`, from the left. -/
def removeAll (part text : List Char) : List Char :=
  go text.length text
where
  go : Nat → List Char → List Char
    | 0, text => text
    | _ + 1, [] => []
    | n + 1, c :: text =>
      if part.isPrefixOf (c :: text) then go n ((c :: text).drop part.length)
      else c :: go n text

example : removeAll "ab".toList "abxab1".toList = "x1".toList := by decide

/-- `part in text`. -/
def contains (part text : String) : Bool :=
  text.toList.tails.any fun rest => part.toList.isPrefixOf rest

/-- `any(keyword in text for keyword in keywords)`. -/
def contains_any (keywords : List String) (text : String) : Bool :=
  keywords.any fun keyword => contains keyword text

/-- `text.lower().endswith(suffix)` of a suffix of small letters. -/
def ends_with (text suffix : String) : Bool := suffix.toList <:+ text.toList.map Char.toLower

/-! ## Dates -/

/-- `now.date().isoformat()`: the day, counted in years that start in March. -/
def iso_date (now : Datetime) : String :=
  let day := now.toNat / 86400000000 + 306
  let era := day / 146097
  let day_of_era := day % 146097
  let year_of_era :=
    (day_of_era - day_of_era / 1460 + day_of_era / 36524 - day_of_era / 146096) / 365
  let day_of_year := day_of_era - (365 * year_of_era + year_of_era / 4 - year_of_era / 100)
  let month := (5 * day_of_year + 2) / 153
  let year := year_of_era + era * 400 + (if month < 10 then 0 else 1)
  let padded := fun (width n : Nat) =>
    let digits := Nat.toDigits 10 n
    List.replicate (width - digits.length) '0' ++ digits
  join '-' [padded 4 year, padded 2 (if month < 10 then month + 3 else month - 9),
    padded 2 (day_of_year - (153 * month + 2) / 5 + 1)]

/-- The first microsecond of 1970. -/
def EPOCH : Datetime := 62135596800000000

/-- `int(now.timestamp())`. -/
def unix_time (now : Datetime) : Int := (now - EPOCH).tdiv 1000000

example : iso_date 63844808400000000 = "2024-02-29" := by decide +kernel

example : int_of " +1_0\u0663 " = some 103 := by decide +kernel

/-! ## What is written is read again -/

theorem digit_range {c : Char} (h : c.isDigit = true) : 48 ≤ c.toNat ∧ c.toNat ≤ 57 := by
  simp only [Char.isDigit, Bool.and_eq_true, decide_eq_true_eq, ge_iff_le,
    UInt32.le_iff_toNat_le] at h
  exact h

theorem decimal_of_digit {c : Char} (h : c.isDigit = true) : decimal c = some (c.toNat - 48) := by
  have hrange := digit_range h
  unfold decimal DECIMAL_ZEROS
  rw [List.find?_cons_of_pos (by simp [hrange.1]; omega)]
  rfl

theorem mapM_decimal {cs : List Char} (h : ∀ c ∈ cs, c.isDigit = true) :
    cs.mapM decimal = some (cs.map (·.toNat - 48)) := by
  induction cs with
  | nil => rfl
  | cons c cs ih =>
    have hc := decimal_of_digit (h c (List.mem_cons_self ..))
    have hcs := ih fun x hx => h x (List.mem_cons_of_mem _ hx)
    simp [List.mapM_cons, hc, hcs]

theorem digits_are_digits {n : Nat} {c : Char} (h : c ∈ Nat.toDigits 10 n) : c.isDigit = true :=
  Nat.isDigit_of_mem_toDigits (by decide) (by decide) h

theorem number_toDigits (n : Nat) : number ((Nat.toDigits 10 n).map (·.toNat - 48)) = n := by
  have h := Nat.ofDigitChars_toDigits (b := 10) (n := n) (by decide) (by decide)
  rw [Nat.ofDigitChars_eq_foldl] at h
  rw [number, List.foldl_map]
  exact h

theorem parse_toDigits (n : Nat) : parse_digits (Nat.toDigits 10 n) = some n := by
  have hnot : '_' ∉ Nat.toDigits 10 n := Nat.underscore_not_in_toDigits
  have hsplit : (Nat.toDigits 10 n).splitOn '_' = [Nat.toDigits 10 n] := by
    have hone : (['_'].intercalate [Nat.toDigits 10 n]).splitOn '_' = [Nat.toDigits 10 n] :=
      List.splitOn_intercalate '_' (by simp) (by simp)
    simpa using hone
  have hfilter : (Nat.toDigits 10 n).filter (· ≠ '_') = Nat.toDigits 10 n :=
    List.filter_eq_self.mpr fun c hc => decide_eq_true fun he => hnot (he ▸ hc)
  unfold parse_digits
  rw [hsplit, hfilter, mapM_decimal fun c hc => digits_are_digits hc]
  simp [Nat.toDigits_ne_nil, number_toDigits]

theorem strip_plain {s : String} (h : ∀ c ∈ s.toList, isSpace c = false) : strip s = s := by
  have hdrop : ∀ l : List Char, (∀ c ∈ l, isSpace c = false) → l.dropWhile isSpace = l := by
    intro l hl
    cases l with
    | nil => rfl
    | cons c l => rw [List.dropWhile_cons_of_neg (by simp [hl c (List.mem_cons_self ..)])]
  unfold strip
  rw [hdrop _ h, hdrop _ (by simpa using h), List.reverse_reverse, String.ofList_toList]

theorem digit_not_space {c : Char} (h : c.isDigit = true) : isSpace c = false := by
  obtain ⟨hlow, hhigh⟩ := digit_range h
  rw [← Char.ofNat_toNat c]
  generalize c.toNat = n at hlow hhigh
  interval_cases n <;> decide

theorem str_of_plain (n : Int) : ∀ c ∈ str_of n, isSpace c = false := by
  intro c hc
  rw [str_of] at hc
  split at hc
  · rcases List.mem_cons.mp hc with rfl | hc
    · decide
    · exact digit_not_space (digits_are_digits hc)
  · exact digit_not_space (digits_are_digits hc)

/-- A number is read back from its text. -/
theorem int_of_str (n : Int) : int_of (String.ofList (str_of n)) = some n := by
  have hplain : ∀ c ∈ (String.ofList (str_of n)).toList, isSpace c = false := by
    rw [String.toList_ofList]
    exact str_of_plain n
  unfold int_of
  rw [strip_plain hplain, String.toList_ofList, str_of]
  by_cases hn : n < 0
  · rw [if_pos hn]
    simp only [parse_toDigits, Option.map_some, Option.some.injEq]
    omega
  · rw [if_neg hn]
    have hdigits := parse_toDigits n.natAbs
    have hall : ∀ c ∈ Nat.toDigits 10 n.natAbs, c.isDigit = true := fun c => digits_are_digits
    generalize Nat.toDigits 10 n.natAbs = ds at hdigits hall
    split
    · exact absurd (hall '-' (List.mem_cons_self ..)) (by decide)
    · exact absurd (hall '+' (List.mem_cons_self ..)) (by decide)
    · simp only [hdigits, Option.map_some, Option.some.injEq, Int.ofNat_eq_natCast]
      omega

/-- The fields are read back when none of them holds the mark. -/
theorem split_join {mark : Char} {fields : List (List Char)} (h : ∀ f ∈ fields, mark ∉ f)
    (hne : fields ≠ []) : split mark (join mark fields) = fields.map String.ofList := by
  unfold split join
  rw [String.toList_ofList, List.splitOn_intercalate mark h hne]

theorem mark_not_in_str {mark : Char} (h : mark.isDigit = false) (hm : mark ≠ '-') (n : Int) :
    mark ∉ str_of n := by
  intro hc
  rw [str_of] at hc
  split at hc
  · rcases List.mem_cons.mp hc with he | hc
    · exact hm he
    · rw [digits_are_digits hc] at h
      cases h
  · rw [digits_are_digits hc] at h
    cases h

end dr_boz.texts
