-- Law of the amounts that a user types: what the two parsers of the bot answer
-- for any text, and what they read of the texts that write an amount.
import DrBoz.InvoicePayloads
import DrBoz.PhoneNumbers
import DrBoz.PlanPrices

open dr_boz.py dr_boz.texts dr_boz.decimals dr_boz.invoice_payloads
open dr_boz.phone_numbers (SPACES mem_spaces space_not_decimal)
open dr_boz.plan_prices (format_toman)

namespace dr_boz.amount_texts

/-! ## Digits of Python -/

/-- The digits that are no decimal digits: superscripts, digits in circles and the like. -/
def OTHER_DIGITS : List (Nat × Nat) :=
  [(0xb2, 0xb3), (0xb9, 0xb9), (0x1369, 0x1371), (0x19da, 0x19da), (0x2070, 0x2070),
   (0x2074, 0x2079), (0x2080, 0x2089), (0x2460, 0x2468), (0x2474, 0x247c), (0x2488, 0x2490),
   (0x24ea, 0x24ea), (0x24f5, 0x24fd), (0x24ff, 0x24ff), (0x2776, 0x277e), (0x2780, 0x2788),
   (0x278a, 0x2792), (0x10a40, 0x10a43), (0x10e60, 0x10e68), (0x11052, 0x1105a),
   (0x1f100, 0x1f10a)]

/-- `c.isdigit()` -/
def is_digit (c : Char) : Bool :=
  is_decimal c || OTHER_DIGITS.any fun (low, high) => low ≤ c.toNat && c.toNat ≤ high

/-- `sys.int_info.default_max_str_digits` -/
def MAX_STR_DIGITS : Nat := 4300

/-- `int(text)` of a text of digits. -/
def int_of_digits (cs : List Char) : Except PyError Nat :=
  if MAX_STR_DIGITS < (cs.takeWhile is_decimal).length then
    .error (.value_error "Exceeds the limit (4300 digits) for integer string conversion")
  else if cs.all is_decimal then .ok (digits_of cs)
  else .error (.value_error "invalid literal for int() with base 10")

/-! ## The parsers -/

/-- `_DIGIT_TRANSLATION` -/
def DIGIT_TRANSLATION : List (Char × Char) := "۰۱۲۳۴۵۶۷۸۹".toList.zip "0123456789".toList

def translate (c : Char) : Char := (DIGIT_TRANSLATION.lookup c).getD c

/-- `replace("٫", ".")` -/
def point (c : Char) : Char := if c = '٫' then '.' else c

/-- The words are taken out, one after the other, and then the blanks. -/
def without (words : List String) (cs : List Char) : List Char :=
  (words.foldl (fun cs word => removeAll word.toList cs) cs).filter (!isSpace ·)

def USD_WORDS : List String := ["$", "usd", "usdt", "دلار"]

def TOMAN_WORDS : List String := ["تومان", "تومن", "irt"]

section
-- `str.lower()`.
variable (lower : List Char → List Char)

/-- What is left of a text in dollars. -/
def normalized_usd (raw : String) : String :=
  .ofList (without ("٬" :: "," :: USD_WORDS) ((lower (raw.toList.map translate)).map point))

def parse_topup_usd_amount (text : Option String) : Except PyError (Option Decimal) :=
  invoice_payloads.parse_topup_usd_amount (normalized_usd lower) text

/-- What is left of a text in Toman. -/
def normalized_toman (raw : String) : List Char :=
  without ("٬" :: "," :: TOMAN_WORDS) (lower (raw.toList.map translate))

def MAX_TOMAN_AMOUNT : Nat := 100000000

def parse_toman_amount (text : Option String) : Except PyError (Option Nat) :=
  let raw := strip (text.getD "")
  if raw = "" then .ok none
  else
    let normalized := normalized_toman lower raw
    if normalized.isEmpty || !(normalized.all is_digit) then .ok none
    else do
      let amount ← int_of_digits normalized
      if amount ≤ 0 ∨ MAX_TOMAN_AMOUNT < amount then return none
      return some amount

end

/-! ## The texts that write an amount -/

/-- The digits of the Latin, the Persian and the Arabic script. -/
def TYPED_DIGITS : List Char := "0123456789۰۱۲۳۴۵۶۷۸۹٠١٢٣٤٥٦٧٨٩".toList

def is_typed (c : Char) : Bool := TYPED_DIGITS.contains c

/-- A separator or a blank between the digits. -/
def is_gap (c : Char) : Bool := c = '٬' || c = ',' || isSpace c

def is_point (c : Char) : Bool := c = '.' || c = '٫'

/-- The text is a word, the characters of a number with gaps among them, and a word. Either word
may be missing, and its letters may be large. -/
structure Typed (words : List String) (before after : String) (number : List Char)
    (text : String) : Prop where
  known : (before = "" ∨ before ∈ words) ∧ (after = "" ∨ after ∈ words)
  parts : ∃ front body back, text.toList = front ++ body ++ back ∧
    front.map Char.toLower = before.toList ∧ body.filter (!is_gap ·) = number ∧
    back.map Char.toLower = after.toList

/-- The digits of a whole number. -/
structure Whole (n : Nat) (number : List Char) : Prop where
  typed : ∀ c ∈ number, is_typed c = true
  value : digits_of number = n

/-- Digits, and digits after a point. -/
structure Pointed (a : Decimal) (number : List Char) : Prop where
  parts : ∃ whole rest fraction, number = whole ++ rest ∧
    (rest = [] ∧ fraction = [] ∨ ∃ mark, is_point mark = true ∧ rest = mark :: fraction) ∧
    (∀ c ∈ whole ++ fraction, is_typed c = true) ∧
    a = digits_of (whole ++ fraction) * (10 : ℚ) ^ (0 - (fraction.length : Int))

/-- A character whose small letter is known: of ASCII, of the Arabic script, or a blank. -/
def is_plain (c : Char) : Bool :=
  c.toNat < 128 || (0x600 ≤ c.toNat && c.toNat < 0x700) || isSpace c

/-- What the documentation says of `str.lower` on such characters. -/
structure Lowers (lower : List Char → List Char) : Prop where
  plain : ∀ cs, (∀ c ∈ cs, is_plain c = true) → lower cs = cs.map Char.toLower

/-! ## Words taken out -/

section
variable {part : List Char}

theorem go_fuel (hpart : part ≠ []) {n m : Nat} {text : List Char} (hn : text.length ≤ n)
    (hm : text.length ≤ m) : removeAll.go part n text = removeAll.go part m text := by
  have hlength := List.length_pos_of_ne_nil hpart
  induction n generalizing m text with
  | zero =>
    obtain rfl := List.length_eq_zero_iff.mp (Nat.le_zero.mp hn)
    cases m <;> rfl
  | succ n ih =>
    cases text with
    | nil => cases m <;> rfl
    | cons c text =>
      rw [List.length_cons] at hn hm
      obtain ⟨m, rfl⟩ : ∃ k, m = k + 1 := ⟨m - 1, by omega⟩
      unfold removeAll.go
      have hdrop : ((c :: text).drop part.length).length ≤ text.length := by
        rw [List.length_drop, List.length_cons]
        omega
      have hrest : removeAll.go part n text = removeAll.go part m text := ih (by omega) (by omega)
      rw [ih (m := m) (hdrop.trans (by omega)) (hdrop.trans (by omega)), hrest]

theorem removeAll_nil : removeAll part [] = [] := rfl

theorem removeAll_cons (hpart : part ≠ []) (c : Char) (text : List Char) :
    removeAll part (c :: text) =
      if part.isPrefixOf (c :: text) then removeAll part ((c :: text).drop part.length)
      else c :: removeAll part text := by
  have hlength := List.length_pos_of_ne_nil hpart
  have hdrop : ((c :: text).drop part.length).length ≤ text.length := by
    rw [List.length_drop, List.length_cons]
    omega
  have hgo : removeAll part (c :: text) =
      if part.isPrefixOf (c :: text) then
        removeAll.go part text.length ((c :: text).drop part.length)
      else c :: removeAll.go part text.length text := rfl
  rw [hgo, go_fuel hpart hdrop le_rfl]
  rfl

/-- A character that is not in the part comes before or after every place where the part is. -/
theorem prefix_before {c : Char} (hc : c ∉ part) {xs ys : List Char} :
    part <+: xs ++ c :: ys ↔ part <+: xs := by
  constructor
  · intro h
    rcases List.prefix_or_prefix_of_prefix h (List.prefix_append xs (c :: ys)) with h' | ⟨zs, rfl⟩
    · exact h'
    · have hzs : zs <+: c :: ys := (List.prefix_append_right_inj xs).mp h
      cases zs with
      | nil => simp
      | cons z zs =>
        have hz : z = c := (List.cons_prefix_cons.mp hzs).1
        exact absurd (List.mem_append_right xs (hz ▸ List.mem_cons_self ..)) hc
  · exact fun h => h.trans (List.prefix_append xs (c :: ys))

/-- Such a character divides the text in two. -/
theorem removeAll_split (hpart : part ≠ []) {c : Char} (hc : c ∉ part) (xs ys : List Char) :
    removeAll part (xs ++ c :: ys) = removeAll part xs ++ c :: removeAll part ys := by
  induction hn : xs.length using Nat.strong_induction_on generalizing xs with
  | _ n ih =>
    have hlength := List.length_pos_of_ne_nil hpart
    cases xs with
    | nil =>
      rw [List.nil_append, removeAll_cons hpart, if_neg, removeAll_nil, List.nil_append]
      intro h
      have hnil : part <+: [] := (prefix_before hc).mp (List.isPrefixOf_iff_prefix.mp h)
      exact hpart (List.prefix_nil.mp hnil)
    | cons x xs =>
      have hcons : x :: xs ++ c :: ys = x :: (xs ++ c :: ys) := rfl
      have hbefore : part <+: x :: xs ++ c :: ys ↔ part <+: x :: xs := prefix_before hc
      rw [hcons, removeAll_cons hpart, removeAll_cons hpart, ← hcons]
      by_cases h : part <+: x :: xs
      · have hle := h.length_le
        rw [if_pos (List.isPrefixOf_iff_prefix.mpr (hbefore.mpr h)),
          if_pos (List.isPrefixOf_iff_prefix.mpr h), List.drop_append_of_le_length hle]
        refine ih _ ?_ _ rfl
        rw [List.length_drop, ← hn]
        have := h.length_le
        omega
      · rw [if_neg fun h' => h (hbefore.mp (List.isPrefixOf_iff_prefix.mp h')),
          if_neg fun h' => h (List.isPrefixOf_iff_prefix.mp h'),
          ih xs.length (by simp [← hn]) xs rfl]
        rfl

/-- So does a row of them. -/
theorem removeAll_around (hpart : part ≠ []) {body : List Char} (hbody : body ≠ [])
    (hc : ∀ c ∈ body, c ∉ part) (xs ys : List Char) :
    removeAll part (xs ++ body ++ ys) = removeAll part xs ++ body ++ removeAll part ys := by
  induction body generalizing xs with
  | nil => exact absurd rfl hbody
  | cons c body ih =>
    have hsplit := removeAll_split hpart (hc c (List.mem_cons_self ..)) xs (body ++ ys)
    rw [List.append_assoc, List.cons_append, hsplit]
    by_cases hempty : body = []
    · rw [hempty, List.nil_append, List.append_assoc, List.singleton_append]
    · have hrest := ih hempty (fun d hd => hc d (List.mem_cons_of_mem _ hd)) []
      rw [List.nil_append, removeAll_nil, List.nil_append] at hrest
      rw [hrest, List.append_assoc, List.cons_append]

end

theorem removeAll_mark (mark : Char) (cs : List Char) :
    removeAll [mark] cs = cs.filter (· ≠ mark) := by
  induction cs with
  | nil => rfl
  | cons c cs ih =>
    rw [removeAll_cons (by simp)]
    by_cases h : c = mark
    · rw [if_pos (by simp [h]), List.filter_cons_of_neg (by simp [h])]
      exact ih
    · rw [if_neg (by simp [Ne.symm h]), List.filter_cons_of_pos (by simp [h]), ih]

/-! ## What is left of a text -/

/-- The words are disjoint from the characters of a number. -/
def OnlyLetters (words : List String) : Prop :=
  ∀ word ∈ words, word.toList ≠ [] ∧ ∀ c ∈ word.toList,
    is_decimal c = false ∧ c ≠ '.' ∧ isSpace c = false

/-- A character that no such word has. -/
def Outside (c : Char) : Prop := is_decimal c = true ∨ c = '.' ∨ isSpace c = true

theorem outside_not_mem {words : List String} (hwords : OnlyLetters words) {word : String}
    (hword : word ∈ words) {c : Char} (hc : Outside c) : c ∉ word.toList := by
  intro hmem
  obtain ⟨hdecimal, hpoint, hspace⟩ := (hwords word hword).2 c hmem
  rcases hc with h | h | h
  · rw [hdecimal] at h
    cases h
  · exact hpoint h
  · rw [hspace] at h
    cases h

theorem taken_around {words : List String} (hwords : OnlyLetters words) {body : List Char}
    (hbody : body ≠ []) (hc : ∀ c ∈ body, Outside c) (xs ys : List Char) :
    words.foldl (fun cs word => removeAll word.toList cs) (xs ++ body ++ ys) =
      words.foldl (fun cs word => removeAll word.toList cs) xs ++ body ++
        words.foldl (fun cs word => removeAll word.toList cs) ys := by
  induction words generalizing xs ys with
  | nil => rfl
  | cons word words ih =>
    have hword : word ∈ word :: words := List.mem_cons_self ..
    simp only [List.foldl_cons]
    rw [removeAll_around (hwords word hword).1 hbody
      (fun c h => outside_not_mem hwords hword (hc c h)),
      ih fun w hw => hwords w (List.mem_cons_of_mem _ hw)]

theorem without_around {words : List String} (hwords : OnlyLetters words) {body : List Char}
    (hbody : body ≠ []) (hc : ∀ c ∈ body, Outside c) (xs ys : List Char) :
    without words (xs ++ body ++ ys) =
      without words xs ++ body.filter (!isSpace ·) ++ without words ys := by
  unfold without
  rw [taken_around hwords hbody hc, List.filter_append, List.filter_append]

theorem without_nil (words : List String) : without words [] = [] := by
  unfold without
  induction words with
  | nil => rfl
  | cons word words ih => exact ih

/-- Blanks at the ends do not count. -/
theorem without_blanks {words : List String} (hwords : OnlyLetters words) {front back : List Char}
    (hfront : ∀ c ∈ front, isSpace c = true) (hback : ∀ c ∈ back, isSpace c = true)
    (cs : List Char) : without words (front ++ cs ++ back) = without words cs := by
  have hnone : ∀ {blanks : List Char}, (∀ c ∈ blanks, isSpace c = true) →
      blanks.filter (!isSpace ·) = [] := by
    intro blanks h
    rw [List.filter_eq_nil_iff]
    intro c hc
    rw [h c hc]
    decide
  have houter : ∀ {blanks : List Char}, (∀ c ∈ blanks, isSpace c = true) →
      ∀ c ∈ blanks, Outside c := fun h c hc => .inr (.inr (h c hc))
  have hone : without words (front ++ (cs ++ back)) = without words (cs ++ back) := by
    by_cases hempty : front = []
    · rw [hempty, List.nil_append]
    · have h := without_around hwords hempty (houter hfront) [] (cs ++ back)
      rw [hnone hfront, without_nil, List.nil_append] at h
      exact h
  rw [List.append_assoc, hone]
  by_cases hempty : back = []
  · rw [hempty, List.append_nil]
  · have h := without_around hwords hempty (houter hback) cs []
    rw [hnone hback, without_nil, List.append_nil, List.append_nil] at h
    simpa using h

/-- The separators are single characters. -/
theorem without_separators (words : List String) (cs : List Char) :
    without ("٬" :: "," :: words) cs =
      without words (cs.filter fun c => !(c = '٬' || c = ',')) := by
  have hfilter : removeAll ",".toList (removeAll "٬".toList cs) =
      cs.filter fun c => !(c = '٬' || c = ',') := by
    have hcomma : ",".toList = [','] := rfl
    have hmark : "٬".toList = ['٬'] := rfl
    rw [hcomma, hmark, removeAll_mark, removeAll_mark, List.filter_filter]
    refine List.filter_congr fun c _ => ?_
    by_cases h : c = '٬' <;> by_cases h' : c = ',' <;> simp [h, h']
  unfold without
  rw [List.foldl_cons, List.foldl_cons, hfilter]

/-- What holds of the characters of a list, one after the other. -/
theorem of_all {cs : List Char} {P : Char → Prop} [DecidablePred P]
    (h : cs.all (fun c => decide (P c)) = true) : ∀ c ∈ cs, P c := fun c hc =>
  of_decide_eq_true (List.all_eq_true.mp h c hc)

theorem letters_of_all {words : List String} (h : ∀ word ∈ words, word.toList ≠ [] ∧
    word.toList.all (fun c => is_decimal c = false ∧ c ≠ '.' ∧ isSpace c = false) = true) :
    OnlyLetters words := fun word hword => ⟨(h word hword).1, of_all (h word hword).2⟩

theorem usd_letters : OnlyLetters ("٬" :: "," :: USD_WORDS) := letters_of_all (by decide)

theorem toman_letters : OnlyLetters ("٬" :: "," :: TOMAN_WORDS) := letters_of_all (by decide)

/-! ## Characters -/

/-- The small letter of a character, with a Latin digit for a Persian one. -/
def small (c : Char) : Char := (translate c).toLower

theorem of_space {P : Char → Prop} (h : ∀ n ∈ SPACES, P (Char.ofNat n)) {c : Char}
    (hc : isSpace c = true) : P c := by
  have hchar := h _ (mem_spaces hc)
  rwa [Char.ofNat_toNat] at hchar

theorem of_typed {P : Char → Prop} [DecidablePred P]
    (h : TYPED_DIGITS.all (fun c => decide (P c)) = true) {c : Char} (hc : is_typed c = true) :
    P c := of_all h c (List.contains_iff_mem.mp hc)

theorem small_space {c : Char} (hc : isSpace c = true) : small c = c :=
  of_space (P := fun c => small c = c) (by decide) hc

theorem plain_space {c : Char} (hc : isSpace c = true) : is_plain (translate c) = true :=
  of_space (P := fun c => is_plain (translate c) = true) (by decide) hc

theorem space_no_mark {c : Char} (hc : isSpace c = true) : c ≠ '٬' ∧ c ≠ ',' ∧ c ≠ '٫' :=
  of_space (P := fun c => c ≠ '٬' ∧ c ≠ ',' ∧ c ≠ '٫') (by decide) hc

theorem typed_digit {c : Char} (hc : is_typed c = true) :
    decimal (small c) = decimal c ∧ is_decimal c = true ∧ is_gap (small c) = false ∧
      is_gap c = false ∧ small c ≠ '٫' ∧ is_plain (translate c) = true :=
  of_typed (P := fun c => decimal (small c) = decimal c ∧ is_decimal c = true ∧
    is_gap (small c) = false ∧ is_gap c = false ∧ small c ≠ '٫' ∧ is_plain (translate c) = true)
    (by decide) hc

def CAPITALS : List Char := "ABCDEFGHIJKLMNOPQRSTUVWXYZ".toList

/-- Only the capital letters of ASCII have other small letters here. -/
theorem toLower_cases (c : Char) : c.toLower = c ∨ c ∈ CAPITALS := by
  by_cases hupper : c.isUpper = true
  · refine .inr ?_
    obtain ⟨hlow, hhigh⟩ := upper_range hupper
    have hall : ∀ i < 26, CAPITALS.contains (Char.ofNat (65 + i)) = true := by decide
    have hmem := List.contains_iff_mem.mp (hall (c.toNat - 65) (by omega))
    have hsum : 65 + (c.toNat - 65) = c.toNat := by omega
    rwa [hsum, Char.ofNat_toNat] at hmem
  · refine .inl ?_
    unfold Char.toLower
    rw [dif_neg]
    rintro ⟨hlow, hhigh⟩
    have hletter : c.val ≥ 'A'.val ∧ c.val ≤ 'Z'.val := ⟨hlow, hhigh⟩
    exact hupper (decide_eq_true hletter)

/-- The letters of the words. -/
def LETTERS : List Char := "$usdtirدلارتومن".toList

theorem small_letter {c : Char} (hc : c.toLower ∈ LETTERS) :
    small c = c.toLower ∧ is_plain (translate c) = true := by
  rcases toLower_cases c with hsame | hcapital
  · rw [hsame] at hc ⊢
    have hall : ∀ c ∈ LETTERS, small c = c ∧ is_plain (translate c) = true := of_all (by decide)
    exact hall c hc
  · have hall : ∀ c ∈ CAPITALS, small c = c.toLower ∧ is_plain (translate c) = true :=
      of_all (by decide)
    exact hall c hcapital

/-- What becomes of a character of the number, or of a gap. -/
structure Reads (f : Char → Char) (c : Char) : Prop where
  gap : is_gap (f c) = is_gap c
  outside : is_gap c = false → Outside (f c)

/-- The word before and the word behind stay apart from the number. -/
theorem without_text {words : List String} (hwords : OnlyLetters ("٬" :: "," :: words))
    {f : Char → Char} {front body back : List Char} (hreads : ∀ c ∈ body, Reads f c)
    (hnumber : body.filter (!is_gap ·) ≠ []) :
    without ("٬" :: "," :: words) ((front ++ body ++ back).map f) =
      without ("٬" :: "," :: words) (front.map f) ++ (body.filter (!is_gap ·)).map f ++
        without ("٬" :: "," :: words) (back.map f) := by
  have hkept : ((body.map f).filter fun c => !(c = '٬' || c = ',')).filter (!isSpace ·) =
      (body.filter (!is_gap ·)).map f := by
    rw [List.filter_filter, List.filter_map]
    refine congrArg (List.map f) (List.filter_congr fun c hc => ?_)
    rw [← (hreads c hc).gap]
    simp [is_gap, Bool.and_comm]
  have hsome : ((body.map f).filter fun c => !(c = '٬' || c = ',')) ≠ [] := by
    intro hnil
    rw [hnil] at hkept
    exact hnumber (List.map_eq_nil_iff.mp hkept.symm)
  have houter : ∀ c ∈ (body.map f).filter fun c => !(c = '٬' || c = ','), Outside c := by
    intro c hc
    obtain ⟨hmem, hmark⟩ := List.mem_filter.mp hc
    obtain ⟨d, hd, rfl⟩ := List.mem_map.mp hmem
    by_cases hgap : is_gap d = true
    · have h := (hreads d hd).gap.trans hgap
      simp only [is_gap, Bool.or_eq_true, decide_eq_true_eq] at h
      simp only [Bool.not_eq_true', Bool.or_eq_false_iff, decide_eq_false_iff_not] at hmark
      rcases h with (h | h) | h
      · exact absurd h hmark.1
      · exact absurd h hmark.2
      · exact .inr (.inr h)
    · exact (hreads d hd).outside (by simpa using hgap)
  rw [without_separators, without_separators, without_separators, List.map_append,
    List.map_append, List.filter_append, List.filter_append,
    without_around (fun w hw => hwords w (by simp [hw])) hsome houter, hkept]

/-! ## Typed texts -/

theorem strip_parts (text : String) : ∃ front back, text.toList =
    front ++ (strip text).toList ++ back ∧ (∀ c ∈ front, isSpace c = true) ∧
      ∀ c ∈ back, isSpace c = true := by
  refine ⟨text.toList.takeWhile isSpace,
    ((text.toList.dropWhile isSpace).reverse.takeWhile isSpace).reverse, ?_,
    fun c => List.mem_takeWhile_imp, fun c hc => List.mem_takeWhile_imp (List.mem_reverse.mp hc)⟩
  unfold strip
  rw [String.toList_ofList, List.append_assoc, ← List.reverse_append,
    List.takeWhile_append_dropWhile, List.reverse_reverse, List.takeWhile_append_dropWhile]

section
variable {lower : List Char → List Char} {text : String}

theorem lower_small (hlower : Lowers lower) {cs : List Char}
    (hplain : ∀ c ∈ cs, is_plain (translate c) = true) :
    lower (cs.map translate) = cs.map small := by
  rw [hlower.plain _ fun c hc => ?_, List.map_map]
  · rfl
  · obtain ⟨d, hd, rfl⟩ := List.mem_map.mp hc
    exact hplain d hd

/-- The blanks that `strip` takes would be gone at the end anyway. -/
theorem without_strip {words : List String} (hwords : OnlyLetters words) {f : Char → Char}
    (hf : ∀ c, isSpace c = true → f c = c) (text : String) :
    without words ((strip text).toList.map f) = without words (text.toList.map f) := by
  obtain ⟨front, back, htext, hfront, hback⟩ := strip_parts text
  have hblank : ∀ {blanks : List Char}, (∀ c ∈ blanks, isSpace c = true) →
      ∀ c ∈ blanks.map f, isSpace c = true := by
    intro blanks h c hc
    obtain ⟨d, hd, rfl⟩ := List.mem_map.mp hc
    rw [hf d (h d hd)]
    exact h d hd
  rw [htext, List.map_append, List.map_append, without_blanks hwords (hblank hfront) (hblank hback)]

theorem mem_of_strip {c : Char} (h : c ∈ (strip text).toList) : c ∈ text.toList := by
  obtain ⟨front, back, htext, -, -⟩ := strip_parts text
  rw [htext]
  exact List.mem_append_left _ (List.mem_append_right _ h)

theorem point_small {c : Char} (hc : isSpace c = true) : point (small c) = c := by
  rw [small_space hc]
  exact if_neg (space_no_mark hc).2.2

theorem usd_left (hlower : Lowers lower)
    (hplain : ∀ c ∈ text.toList, is_plain (translate c) = true) :
    normalized_usd lower (strip text) = .ofList
      (without ("٬" :: "," :: USD_WORDS) (text.toList.map fun c => point (small c))) := by
  unfold normalized_usd
  rw [lower_small hlower fun c hc => hplain c (mem_of_strip hc), List.map_map]
  exact congrArg String.ofList (without_strip usd_letters (fun c hc => point_small hc) text)

theorem toman_left (hlower : Lowers lower)
    (hplain : ∀ c ∈ text.toList, is_plain (translate c) = true) :
    normalized_toman lower (strip text) =
      without ("٬" :: "," :: TOMAN_WORDS) (text.toList.map small) := by
  unfold normalized_toman
  rw [lower_small hlower fun c hc => hplain c (mem_of_strip hc)]
  exact without_strip toman_letters (fun c hc => small_space hc) text

variable {words : List String} {before after : String} {number : List Char}

theorem reads_gap {f : Char → Char} (hf : ∀ c, is_gap c = true → f c = c) {c : Char}
    (hc : is_gap c = true) : Reads f c := by
  refine ⟨by rw [hf c hc], fun h => ?_⟩
  rw [hc] at h
  cases h

theorem word_letters (hletters : ∀ w ∈ words, ∀ c ∈ w.toList, c ∈ LETTERS) {word : String}
    (hword : word = "" ∨ word ∈ words) {cs : List Char} (hcs : cs.map Char.toLower = word.toList)
    {c : Char} (hc : c ∈ cs) : c.toLower ∈ LETTERS := by
  have hmem : c.toLower ∈ word.toList := hcs ▸ List.mem_map_of_mem hc
  rcases hword with rfl | hword
  · exact absurd hmem (by simp)
  · exact hletters word hword _ hmem

theorem gap_same {c : Char} (hc : is_gap c = true) :
    small c = c ∧ point (small c) = c ∧ is_plain (translate c) = true := by
  simp only [is_gap, Bool.or_eq_true, decide_eq_true_eq] at hc
  rcases hc with (rfl | rfl) | hc
  · decide
  · decide
  · exact ⟨small_space hc, point_small hc, plain_space hc⟩

theorem typed_left (hwords : OnlyLetters ("٬" :: "," :: words))
    (hletters : ∀ w ∈ words, ∀ c ∈ w.toList, c ∈ LETTERS) {f : Char → Char}
    (hf : ∀ c, c.toLower ∈ LETTERS → f c = c.toLower) (hgap : ∀ c, is_gap c = true → f c = c)
    (hreads : ∀ c ∈ number, Reads f c) (hnumber : number ≠ [])
    (h : Typed words before after number text) :
    without ("٬" :: "," :: words) (text.toList.map f) =
      without ("٬" :: "," :: words) before.toList ++ number.map f ++
        without ("٬" :: "," :: words) after.toList := by
  obtain ⟨front, body, back, htext, hfront, rfl, hback⟩ := h.parts
  have hword : ∀ {word : String} {cs : List Char}, (word = "" ∨ word ∈ words) →
      cs.map Char.toLower = word.toList → cs.map f = word.toList := by
    intro word cs hword hcs
    rw [← hcs]
    exact List.map_congr_left fun c hc => hf c (word_letters hletters hword hcs hc)
  have hbody : ∀ c ∈ body, Reads f c := by
    intro c hc
    by_cases hone : is_gap c = true
    · exact reads_gap hgap hone
    · exact hreads c (List.mem_filter.mpr ⟨hc, by simpa using hone⟩)
  rw [htext, without_text hwords hbody hnumber, hword h.known.1 hfront, hword h.known.2 hback]

theorem typed_plain (hletters : ∀ w ∈ words, ∀ c ∈ w.toList, c ∈ LETTERS)
    (hnumber : ∀ c ∈ number, is_plain (translate c) = true)
    (h : Typed words before after number text) :
    ∀ c ∈ text.toList, is_plain (translate c) = true := by
  obtain ⟨front, body, back, htext, hfront, rfl, hback⟩ := h.parts
  intro c hc
  rw [htext, List.append_assoc] at hc
  rcases List.mem_append.mp hc with hc | hc
  · exact (small_letter (word_letters hletters h.known.1 hfront hc)).2
  · rcases List.mem_append.mp hc with hc | hc
    · by_cases hone : is_gap c = true
      · exact (gap_same hone).2.2
      · exact hnumber c (List.mem_filter.mpr ⟨hc, by simpa using hone⟩)
    · exact (small_letter (word_letters hletters h.known.2 hback hc)).2

end

/-! ## Amounts in Toman -/

section
variable {lower : List Char → List Char}

/-- `isdigit` lets the text through, and `int` does not. -/
def Unreadable (normalized : List Char) : Prop :=
  normalized.all is_digit = true ∧
    (normalized.all is_decimal = false ∨ MAX_STR_DIGITS < normalized.length)

/-- The parser answers, with nothing or with an amount within its limits. -/
def TomanAnswered (lower : List Char → List Char) (text : Option String) : Prop :=
  ∃ answer, parse_toman_amount lower text = .ok answer ∧
    ∀ amount, answer = some amount → 1 ≤ amount ∧ amount ≤ MAX_TOMAN_AMOUNT

theorem none_answered {β : Type} {P : β → Prop} :
    ∃ answer : Option β, (.ok none : Except PyError (Option β)) = .ok answer ∧
      ∀ amount, answer = some amount → P amount :=
  ⟨none, rfl, fun _ h => by cases h⟩

theorem error_not_answered {β : Type} {P : β → Prop} {e : PyError} :
    ¬∃ answer : Option β, (.error e : Except PyError (Option β)) = .ok answer ∧
      ∀ amount, answer = some amount → P amount := by
  rintro ⟨answer, h, -⟩
  cases h

theorem int_of_decimals {cs : List Char} (h : cs.all is_decimal = true) :
    int_of_digits cs = if MAX_STR_DIGITS < cs.length then
      .error (.value_error "Exceeds the limit (4300 digits) for integer string conversion")
    else .ok (digits_of cs) := by
  unfold int_of_digits
  rw [List.takeWhile_eq_self_iff.mpr (List.all_eq_true.mp h), if_pos h]

theorem int_of_others {cs : List Char} (h : cs.all is_decimal = false) :
    ∃ e, int_of_digits cs = .error e := by
  unfold int_of_digits
  rw [h]
  split
  · exact ⟨_, rfl⟩
  · exact ⟨_, rfl⟩

theorem left_of_nothing (hlower : Lowers lower) : normalized_toman lower "" = [] := by
  have hnil : lower [] = [] := hlower.plain [] (by simp)
  unfold normalized_toman
  rw [String.toList_empty, List.map_nil, hnil, without_nil]

theorem not_unreadable_nil : ¬Unreadable [] := by
  rintro ⟨-, h | h⟩
  · cases h
  · exact absurd h (Nat.not_lt_zero _)

theorem toman_answered_iff (hlower : Lowers lower) (text : Option String) :
    TomanAnswered lower text ↔
      ¬Unreadable (normalized_toman lower (strip (text.getD ""))) := by
  unfold TomanAnswered parse_toman_amount
  simp only
  by_cases hraw : strip (text.getD "") = ""
  · rw [if_pos hraw, hraw, left_of_nothing hlower]
    exact iff_of_true none_answered not_unreadable_nil
  · rw [if_neg hraw]
    generalize normalized_toman lower (strip (text.getD "")) = left
    by_cases hdigits : left.all is_digit = true
    · cases hempty : left.isEmpty
      · rw [hdigits, Bool.not_true, Bool.or_false, if_neg Bool.false_ne_true]
        cases hdecimals : left.all is_decimal
        · obtain ⟨e, he⟩ := int_of_others hdecimals
          rw [he]
          exact iff_of_false error_not_answered fun h => h ⟨hdigits, .inl hdecimals⟩
        · rw [int_of_decimals hdecimals]
          by_cases hlong : MAX_STR_DIGITS < left.length
          · rw [if_pos hlong]
            exact iff_of_false error_not_answered fun h => h ⟨hdigits, .inr hlong⟩
          · rw [if_neg hlong]
            refine iff_of_true ?_ ?_
            · by_cases hlimit : digits_of left ≤ 0 ∨ MAX_TOMAN_AMOUNT < digits_of left
              · exact ⟨none, if_pos hlimit, fun amount h => by cases h⟩
              · refine ⟨some (digits_of left), if_neg hlimit, fun amount h => ?_⟩
                cases h
                omega
            · rintro ⟨-, h | h⟩
              · rw [hdecimals] at h
                cases h
              · exact hlong h
      · rw [List.isEmpty_iff.mp hempty]
        exact iff_of_true none_answered not_unreadable_nil
    · rw [Bool.eq_false_iff.mpr hdigits, Bool.not_false, Bool.or_true, if_pos rfl]
      exact iff_of_true none_answered fun h => hdigits h.1

theorem digits_of_small {number : List Char} (h : ∀ c ∈ number, is_typed c = true)
    {f : Char → Char} (hf : ∀ c, is_typed c = true → f c = small c) :
    digits_of (number.map f) = digits_of number := by
  unfold digits_of
  rw [List.filterMap_map]
  refine congrArg dr_boz.texts.number (List.filterMap_congr fun c hc => ?_)
  rw [Function.comp_apply, hf c (h c hc), (typed_digit (h c hc)).1]

theorem small_decimal {c : Char} (h : is_typed c = true) : is_decimal (small c) = true := by
  have hsame : is_decimal (small c) = is_decimal c := by
    unfold is_decimal
    rw [(typed_digit h).1]
  exact hsame.trans (typed_digit h).2.1

theorem toman_letters_known : ∀ w ∈ TOMAN_WORDS, ∀ c ∈ w.toList, c ∈ LETTERS := by
  have hall : ∀ w ∈ TOMAN_WORDS, w.toList.all (· ∈ LETTERS) = true := by decide
  exact fun w hw => of_all (hall w hw)

theorem toman_words_gone : ∀ w ∈ "" :: TOMAN_WORDS,
    without ("٬" :: "," :: TOMAN_WORDS) w.toList = [] := by
  decide

/-- The limits are far below the number of digits that `int` takes. Only zeros go beyond it. -/
theorem parse_typed_toman (hlower : Lowers lower) {n : Nat} (hmin : 1 ≤ n)
    (hmax : n ≤ MAX_TOMAN_AMOUNT) {before after : String} {number : List Char} {text : String}
    (hn : Whole n number) (h : Typed TOMAN_WORDS before after number text) :
    parse_toman_amount lower (some text) = .ok (some n) ↔ number.length ≤ MAX_STR_DIGITS := by
  have hsome : number ≠ [] := by
    rintro rfl
    have hzero : n = 0 := hn.value.symm
    omega
  have hgone : ∀ {w : String}, (w = "" ∨ w ∈ TOMAN_WORDS) →
      without ("٬" :: "," :: TOMAN_WORDS) w.toList = [] := fun hw =>
    toman_words_gone _ (List.mem_cons.mpr hw)
  have hreads : ∀ c ∈ number, Reads small c := fun c hc =>
    ⟨(typed_digit (hn.typed c hc)).2.2.1.trans (typed_digit (hn.typed c hc)).2.2.2.1.symm,
      fun _ => .inl (small_decimal (hn.typed c hc))⟩
  have hleft : normalized_toman lower (strip text) = number.map small := by
    rw [toman_left hlower (typed_plain toman_letters_known
      (fun c hc => (typed_digit (hn.typed c hc)).2.2.2.2.2) h),
      typed_left toman_letters toman_letters_known (fun c hc => (small_letter hc).1)
        (fun c hc => (gap_same hc).1) hreads hsome h, hgone h.known.1, hgone h.known.2,
      List.nil_append, List.append_nil]
  have hraw : strip text ≠ "" := by
    intro hraw
    rw [hraw, left_of_nothing hlower] at hleft
    exact hsome (List.map_eq_nil_iff.mp hleft.symm)
  have hdecimals : (number.map small).all is_decimal = true := by
    rw [List.all_map, List.all_eq_true]
    exact fun c hc => small_decimal (hn.typed c hc)
  have hdigits : (number.map small).all is_digit = true := by
    rw [List.all_eq_true] at hdecimals ⊢
    intro c hc
    unfold is_digit
    rw [hdecimals c hc, Bool.true_or]
  have hvalue : digits_of (number.map small) = n :=
    (digits_of_small hn.typed fun _ _ => rfl).trans hn.value
  unfold parse_toman_amount
  simp only
  rw [Option.getD_some, if_neg hraw, hleft, hdigits, Bool.not_true, Bool.or_false, if_neg,
    int_of_decimals hdecimals, List.length_map, hvalue]
  · by_cases hlong : MAX_STR_DIGITS < number.length
    · rw [if_pos hlong]
      exact iff_of_false (fun h => by cases h) (Nat.not_le.mpr hlong)
    · rw [if_neg hlong]
      exact iff_of_true (if_neg (by omega)) (Nat.not_lt.mp hlong)
  · rw [List.isEmpty_iff, List.map_eq_nil_iff]
    exact hsome

end

/-- The digits of a number stay, in groups of three. -/
theorem ungrouped {cs : List Char} (h : ∀ c ∈ cs, is_gap c = false) (groups : Nat → Prop)
    [DecidablePred groups] (k : Nat) :
    ((cs.zipIdx k).flatMap fun (c, i) => if groups i then [',', c] else [c]).filter (!is_gap ·) =
      cs := by
  induction cs generalizing k with
  | nil => rfl
  | cons c cs ih =>
    have hc : (!is_gap c) = true := by rw [h c (List.mem_cons_self ..)]; rfl
    have hcomma : (!is_gap ',') = false := by decide
    have hone : (if groups k then [',', c] else [c]).filter (!is_gap ·) = [c] := by
      split
      · simp [hc, hcomma]
      · simp [hc]
    rw [List.zipIdx_cons, List.flatMap_cons, List.filter_append,
      ih (fun d hd => h d (List.mem_cons_of_mem _ hd)), hone]
    rfl

theorem typed_of_digit {c : Char} (h : c.isDigit = true) : is_typed c = true := by
  obtain ⟨hlow, hhigh⟩ := digit_range h
  have hall : ∀ i < 10, is_typed (Char.ofNat (48 + i)) = true := by decide
  have hchar := hall (c.toNat - 48) (by omega)
  have hsum : 48 + (c.toNat - 48) = c.toNat := by omega
  rwa [hsum, Char.ofNat_toNat] at hchar

theorem format_typed (n : Nat) :
    Typed TOMAN_WORDS "" "تومان" (Nat.toDigits 10 n) (format_toman n) := by
  have hgap : ∀ c ∈ Nat.toDigits 10 n, is_gap c = false := fun c hc =>
    (typed_digit (typed_of_digit (digits_are_digits hc))).2.2.2.1
  have hdigits : (toString n).toList = Nat.toDigits 10 n := String.toList_ofList
  have hpositive : ¬(n : Int) < 0 := not_lt.mpr (Int.natCast_nonneg n)
  refine ⟨⟨.inl rfl, .inr (by decide)⟩, [], ((Nat.toDigits 10 n).zipIdx 0).flatMap (fun (c, i) =>
    if i ≠ 0 ∧ ((Nat.toDigits 10 n).length - i) % 3 = 0 then [',', c] else [c]) ++ [' '],
    "تومان".toList, ?_, rfl, ?_, by decide⟩
  · unfold format_toman thousands
    simp only [Int.natAbs_natCast, hdigits, if_neg hpositive]
    simp
  · rw [List.filter_append, ungrouped hgap fun i =>
      i ≠ 0 ∧ ((Nat.toDigits 10 n).length - i) % 3 = 0]
    exact List.append_nil _

theorem whole_toDigits (n : Nat) : Whole n (Nat.toDigits 10 n) :=
  ⟨fun _ hc => typed_of_digit (digits_are_digits hc), digits_of_toDigits n⟩

/-! ## Amounts in dollars -/

section
variable {lower : List Char → List Char}

/-- A number that cannot be compared or not be rounded to cents. -/
def Raising : Option PyDecimal → Prop
  | some .nan | some .signaling_nan | some (.infinity true) => True
  | some (.finite value) => 0 < value ∧ 10 ^ 28 ≤ (roundHalfUp (value * 100)).natAbs
  | none | some (.infinity false) => False

/-- The parser answers, with nothing or with an amount within its limits. -/
def UsdAnswered (lower : List Char → List Char) (text : Option String) : Prop :=
  ∃ answer, parse_topup_usd_amount lower text = .ok answer ∧
    ∀ amount, answer = some amount → MIN_TOPUP_USD_AMOUNT ≤ amount ∧ amount ≤ MAX_TOPUP_USD_AMOUNT

theorem usd_left_of_nothing (hlower : Lowers lower) : normalized_usd lower "" = "" := by
  have hnil : lower [] = [] := hlower.plain [] (by simp)
  unfold normalized_usd
  rw [String.toList_empty, List.map_nil, hnil, List.map_nil, without_nil, String.ofList_nil]

theorem usd_answered_iff (hlower : Lowers lower) (text : Option String) :
    UsdAnswered lower text ↔
      ¬Raising (decimal_of (normalized_usd lower (strip (text.getD "")))) := by
  unfold UsdAnswered parse_topup_usd_amount invoice_payloads.parse_topup_usd_amount
  simp only
  by_cases hraw : strip (text.getD "") = ""
  · have hnone : decimal_of "" = none := by decide
    rw [if_pos hraw, hraw, usd_left_of_nothing hlower, hnone]
    exact iff_of_true none_answered not_false
  · rw [if_neg hraw]
    generalize decimal_of (normalized_usd lower (strip (text.getD ""))) = number
    rcases number with _ | value | positive | _ | _
    · exact iff_of_true none_answered not_false
    · simp only
      by_cases hpositive : value ≤ 0
      · rw [if_pos hpositive]
        exact iff_of_true none_answered fun h => absurd h.1 (not_lt.mpr hpositive)
      · rw [if_neg hpositive]
        unfold quantize_cents
        simp only
        by_cases hdigits : (roundHalfUp (value * 100)).natAbs < 10 ^ 28
        · rw [if_pos hdigits]
          refine iff_of_true ?_ fun h => absurd hdigits (not_lt.mpr h.2)
          simp only
          split
          · exact none_answered
          · next hlimits =>
            refine ⟨_, rfl, fun amount h => ?_⟩
            cases h
            exact ⟨not_lt.mp fun h => hlimits (.inl h), not_lt.mp fun h => hlimits (.inr h)⟩
        · rw [if_neg hdigits]
          exact iff_of_false error_not_answered fun h =>
            h ⟨not_le.mp hpositive, not_lt.mp hdigits⟩
    · cases positive
      · exact iff_of_true none_answered not_false
      · exact iff_of_false error_not_answered (not_not.mpr trivial)
    · exact iff_of_false error_not_answered (not_not.mpr trivial)
    · exact iff_of_false error_not_answered (not_not.mpr trivial)

/-- The digits around the point are read up to a character that is neither. -/
theorem number_of_parts {whole rest fraction tail : List Char}
    (hdecimals : ∀ c ∈ whole ++ fraction, is_decimal c = true)
    (hrest : rest = [] ∧ fraction = [] ∨ rest = '.' :: fraction) (hsome : whole ++ fraction ≠ [])
    (htail : ∀ c ∈ tail.head?, is_decimal c = false ∧ c ≠ '.') :
    number_of (whole ++ (rest ++ tail)) = (exponent tail).bind fun (e : Int) =>
      if tail.isEmpty || in_range (digits_of (whole ++ fraction)) (e - fraction.length) then
        some (digits_of (whole ++ fraction) * (10 : ℚ) ^ (e - fraction.length))
      else none := by
  have hwhole : ∀ c ∈ whole, is_decimal c = true := fun c hc =>
    hdecimals c (List.mem_append_left _ hc)
  have hfraction : ∀ c ∈ fraction, is_decimal c = true := fun c hc =>
    hdecimals c (List.mem_append_right _ hc)
  have hstop : tail.takeWhile is_decimal = [] ∧ tail.dropWhile is_decimal = tail := by
    cases tail with
    | nil => exact ⟨rfl, rfl⟩
    | cons c tail =>
      have hc := (htail c rfl).1
      exact ⟨List.takeWhile_cons_of_neg (by rw [hc]; decide),
        List.dropWhile_cons_of_neg (by rw [hc]; decide)⟩
  unfold number_of
  rw [List.takeWhile_append_of_pos hwhole, List.dropWhile_append_of_pos hwhole]
  rcases hrest with ⟨rfl, rfl⟩ | rfl
  · rw [List.nil_append, hstop.1, hstop.2, List.append_nil]
    rw [List.append_nil] at hsome
    cases tail with
    | nil =>
      simp only [List.append_nil]
      rw [if_neg hsome]
    | cons c tail =>
      have hpoint := (htail c rfl).2
      simp only
      split
      · next h => exact absurd (List.cons.inj h).1 hpoint
      · simp only [List.append_nil]
        rw [if_neg hsome]
  · have hpoint : is_decimal '.' = false := by decide
    rw [List.cons_append, List.takeWhile_cons_of_neg (by rw [hpoint]; decide),
      List.dropWhile_cons_of_neg (by rw [hpoint]; decide), List.append_nil]
    simp only
    rw [List.takeWhile_append_of_pos hfraction, List.dropWhile_append_of_pos hfraction, hstop.1,
      hstop.2, List.append_nil, if_neg hsome]

/-- A text that begins with no sign and with the letter of no word is read as a number. -/
theorem decimal_of_figures {c : Char} {cs : List Char}
    (hplain : ∀ d ∈ c :: cs, isSpace d = false ∧ d ≠ '_')
    (hc : c ≠ '-' ∧ c ≠ '+' ∧ c.toLower ∉ ['i', 'n', 's']) :
    decimal_of (.ofList (c :: cs)) = (number_of (c :: cs)).map .finite := by
  obtain ⟨hminus, hplus, hletter⟩ := hc
  have hword : ∀ {letter : Char} {xs ys : List Char}, letter ∈ ['i', 'n', 's'] →
      c.toLower :: xs ≠ letter :: ys := fun hmem h => hletter ((List.cons.inj h).1 ▸ hmem)
  have hfilter : (c :: cs).filter (· ≠ '_') = c :: cs :=
    List.filter_eq_self.mpr fun d hd => decide_eq_true (hplain d hd).2
  have hspace : ∀ d ∈ (String.ofList (c :: cs)).toList, isSpace d = false := by
    intro d hd
    rw [String.toList_ofList] at hd
    exact (hplain d hd).1
  unfold decimal_of
  rw [strip_plain hspace, String.toList_ofList, hfilter]
  split
  · next h => exact absurd (List.cons.inj h).1 hminus
  · next h => exact absurd (List.cons.inj h).1 hplus
  · unfold unsigned
    simp only [List.map_cons]
    rw [if_neg, if_neg, if_neg]
    · simp only [if_true]
    · exact fun h => hword (by decide) h.1
    · exact fun h => hword (by decide) h.1
    · exact fun h => h.elim (hword (by decide)) (hword (by decide))

/-- The characters of a number, when they are read. -/
theorem figure {c : Char} (h : is_typed c = true ∨ is_point c = true) :
    (isSpace (point (small c)) = false ∧ point (small c) ≠ '_') ∧ point (small c) ≠ '-' ∧
      point (small c) ≠ '+' ∧ (point (small c)).toLower ∉ ['i', 'n', 's'] := by
  rcases h with h | h
  · exact of_typed (P := fun c => (isSpace (point (small c)) = false ∧ point (small c) ≠ '_') ∧
      point (small c) ≠ '-' ∧ point (small c) ≠ '+' ∧ (point (small c)).toLower ∉ ['i', 'n', 's'])
      (by decide) h
  · simp only [is_point, Bool.or_eq_true, decide_eq_true_eq] at h
    rcases h with rfl | rfl
    · decide
    · decide

theorem point_reads {c : Char} (h : is_point c = true) :
    point (small c) = '.' ∧ is_gap c = false ∧ is_plain (translate c) = true := by
  simp only [is_point, Bool.or_eq_true, decide_eq_true_eq] at h
  rcases h with rfl | rfl
  · decide
  · decide

theorem point_of_typed {c : Char} (h : is_typed c = true) : point (small c) = small c :=
  if_neg (typed_digit h).2.2.2.2.1

/-- The letter that stays of a word. -/
def left_of (word : String) : List Char := if word = "usdt" then ['t'] else []

/-- Of `usdt` a letter stays: `usd` is taken out first. -/
theorem usd_words_left : ∀ w ∈ "" :: USD_WORDS,
    without ("٬" :: "," :: USD_WORDS) w.toList = left_of w := by
  decide

theorem left_of_cases (word : String) :
    left_of word = [] ∧ word ≠ "usdt" ∨ left_of word = ['t'] ∧ word = "usdt" := by
  unfold left_of
  split
  · next h => exact .inr ⟨rfl, h⟩
  · next h => exact .inl ⟨rfl, h⟩

theorem usd_letters_known : ∀ w ∈ USD_WORDS, ∀ c ∈ w.toList, c ∈ LETTERS := by
  have hall : ∀ w ∈ USD_WORDS, w.toList.all (· ∈ LETTERS) = true := by decide
  exact fun w hw => of_all (hall w hw)

section
variable {a : Decimal} {number : List Char}

theorem Pointed.chars (ha : Pointed a number) :
    ∀ c ∈ number, is_typed c = true ∨ is_point c = true := by
  obtain ⟨whole, rest, fraction, rfl, hrest, htyped, -⟩ := ha.parts
  intro c hc
  rcases List.mem_append.mp hc with hc | hc
  · exact .inl (htyped c (List.mem_append_left _ hc))
  · rcases hrest with ⟨rfl, -⟩ | ⟨mark, hmark, rfl⟩
    · cases hc
    · rcases List.mem_cons.mp hc with rfl | hc
      · exact .inr hmark
      · exact .inl (htyped c (List.mem_append_right _ hc))

theorem digits_some {ds : List Char} {e : Int} (h : 0 < (digits_of ds : ℚ) * (10 : ℚ) ^ e) :
    ds ≠ [] := by
  rintro rfl
  have hzero : digits_of [] = 0 := rfl
  rw [hzero, Nat.cast_zero, zero_mul] at h
  exact lt_irrefl _ h

theorem Pointed.ne_nil (ha : Pointed a number) (hpositive : 0 < a) : number ≠ [] := by
  obtain ⟨whole, rest, fraction, rfl, hrest, -, rfl⟩ := ha.parts
  have hdigits := digits_some hpositive
  intro hnil
  obtain ⟨rfl, rfl⟩ := List.append_eq_nil_iff.mp hnil
  rcases hrest with ⟨-, rfl⟩ | ⟨mark, -, hcons⟩
  · exact hdigits rfl
  · cases hcons

theorem Pointed.reads (ha : Pointed a number) :
    ∀ c ∈ number, Reads (fun c => point (small c)) c := by
  intro c hc
  rcases ha.chars c hc with h | h
  · have hsame := point_of_typed h
    exact ⟨by rw [hsame, (typed_digit h).2.2.1, (typed_digit h).2.2.2.1],
      fun _ => .inl (by rw [hsame]; exact small_decimal h)⟩
  · have hdot : is_gap '.' = false := by decide
    exact ⟨by rw [(point_reads h).1, (point_reads h).2.1, hdot],
      fun _ => .inr (.inl (point_reads h).1)⟩

/-- What is left of a typed text in dollars. -/
theorem usd_typed_left (hlower : Lowers lower) (hpositive : 0 < a) (ha : Pointed a number)
    {before after text : String} (h : Typed USD_WORDS before after number text) :
    normalized_usd lower (strip text) =
      .ofList (left_of before ++ number.map (fun c => point (small c)) ++ left_of after) := by
  have hplain : ∀ c ∈ number, is_plain (translate c) = true := fun c hc =>
    (ha.chars c hc).elim (fun h => (typed_digit h).2.2.2.2.2) fun h => (point_reads h).2.2
  have hletters : ∀ c : Char, c.toLower ∈ LETTERS → point (small c) = c.toLower := by
    intro c hc
    have hall : ∀ d ∈ LETTERS, point d = d := of_all (by decide)
    rw [(small_letter hc).1, hall _ hc]
  rw [usd_left hlower (typed_plain usd_letters_known hplain h),
    typed_left usd_letters usd_letters_known hletters (fun c hc => (gap_same hc).2.1) ha.reads
      (ha.ne_nil hpositive) h, usd_words_left _ (List.mem_cons.mpr h.known.1),
    usd_words_left _ (List.mem_cons.mpr h.known.2)]

/-- What is read of the characters of an amount between two words. -/
theorem number_between (hpositive : 0 < a) (ha : Pointed a number) (before after : String) :
    number_of (left_of before ++ number.map (fun c => point (small c)) ++ left_of after) =
      if before ≠ "usdt" ∧ after ≠ "usdt" then some a else none := by
  obtain ⟨whole, rest, fraction, rfl, hrest, htyped, rfl⟩ := ha.parts
  have hread : ∀ cs : List Char, (∀ c ∈ cs, is_typed c = true) →
      ∀ c ∈ cs.map (fun c => point (small c)), is_decimal c = true := by
    intro cs hcs c hc
    obtain ⟨d, hd, rfl⟩ := List.mem_map.mp hc
    rw [point_of_typed (hcs d hd)]
    exact small_decimal (hcs d hd)
  have hpoint : rest.map (fun c => point (small c)) = [] ∧
        fraction.map (fun c => point (small c)) = [] ∨
      rest.map (fun c => point (small c)) = '.' :: fraction.map (fun c => point (small c)) := by
    rcases hrest with ⟨rfl, rfl⟩ | ⟨mark, hmark, rfl⟩
    · exact .inl ⟨rfl, rfl⟩
    · exact .inr (by rw [List.map_cons, (point_reads hmark).1])
  have ht : is_decimal 't' = false := by decide
  have htail : ∀ c ∈ (left_of after).head?, is_decimal c = false ∧ c ≠ '.' := by
    rcases left_of_cases after with ⟨hword, -⟩ | ⟨hword, -⟩
    · rw [hword]
      intro c hc
      cases hc
    · rw [hword]
      intro c hc
      cases hc
      exact ⟨ht, by decide⟩
  have hdigits := digits_of_small htyped fun c hc => point_of_typed hc
  have hparts := number_of_parts
    (List.map_append (f := fun c => point (small c)) ▸ hread _ htyped) hpoint
    (by simpa using digits_some hpositive) htail
  rw [← List.map_append, hdigits, List.length_map] at hparts
  rcases left_of_cases before with ⟨hword, hbefore⟩ | ⟨hword, hbefore⟩
  · rw [hword, List.nil_append, List.map_append, List.append_assoc, hparts]
    rcases left_of_cases after with ⟨hword, hafter⟩ | ⟨hword, hafter⟩
    · rw [hword, if_pos ⟨hbefore, hafter⟩]
      rfl
    · rw [hword, if_neg fun h => h.2 hafter]
      rfl
  · rw [hword, if_neg fun h => h.1 hbefore]
    rfl

theorem decimal_between (hpositive : 0 < a) (ha : Pointed a number) (before after : String) :
    decimal_of (.ofList
        (left_of before ++ number.map (fun c => point (small c)) ++ left_of after)) =
      if before ≠ "usdt" ∧ after ≠ "usdt" then some (.finite a) else none := by
  have hread := number_between hpositive ha before after
  have hend : ∀ word : String, ∀ d ∈ left_of word, (isSpace d = false ∧ d ≠ '_') ∧ d ≠ '-' ∧
      d ≠ '+' ∧ d.toLower ∉ ['i', 'n', 's'] := by
    intro word
    rcases left_of_cases word with ⟨hword, -⟩ | ⟨hword, -⟩
    · rw [hword]
      exact fun d hd => absurd hd List.not_mem_nil
    · rw [hword]
      intro d hd
      rw [List.mem_singleton.mp hd]
      decide
  have hfigures : ∀ d ∈ left_of before ++ number.map (fun c => point (small c)) ++ left_of after,
      (isSpace d = false ∧ d ≠ '_') ∧ d ≠ '-' ∧ d ≠ '+' ∧ d.toLower ∉ ['i', 'n', 's'] := by
    intro d hd
    rcases List.mem_append.mp hd with hd | hd
    · rcases List.mem_append.mp hd with hd | hd
      · exact hend before d hd
      · obtain ⟨c, hc, rfl⟩ := List.mem_map.mp hd
        exact figure (ha.chars c hc)
    · exact hend after d hd
  have hsome : left_of before ++ number.map (fun c => point (small c)) ++ left_of after ≠ [] :=
    List.append_ne_nil_of_left_ne_nil
      (List.append_ne_nil_of_right_ne_nil _ (by simpa using ha.ne_nil hpositive)) _
  obtain ⟨c, cs, hcons⟩ := List.exists_cons_of_ne_nil hsome
  rw [hcons] at hread hfigures ⊢
  rw [decimal_of_figures (fun d hd => (hfigures d hd).1) (hfigures c (List.mem_cons_self ..)).2,
    hread]
  split
  · rfl
  · rfl

end

/-- An amount is read unless one of the words is `usdt`. -/
theorem parse_typed_usd (hlower : Lowers lower) {cents : Nat} (hmin : 100 ≤ cents)
    (hmax : cents ≤ 500000) {before after : String} {number : List Char} {text : String}
    (ha : Pointed (cents / 100) number) (h : Typed USD_WORDS before after number text) :
    parse_topup_usd_amount lower (some text) = .ok (some (cents / 100)) ↔
      before ≠ "usdt" ∧ after ≠ "usdt" := by
  have hlow : (100 : ℚ) ≤ cents := by exact_mod_cast hmin
  have hhigh : (cents : ℚ) ≤ 500000 := by exact_mod_cast hmax
  have hpositive : (0 : ℚ) < cents / 100 := by linarith
  have hdecimal : decimal_of (normalized_usd lower (strip text)) = _ :=
    (congrArg decimal_of (usd_typed_left hlower hpositive ha h)).trans
      (decimal_between hpositive ha before after)
  unfold parse_topup_usd_amount invoice_payloads.parse_topup_usd_amount
  simp only
  rw [Option.getD_some]
  by_cases hwords : before ≠ "usdt" ∧ after ≠ "usdt"
  · rw [if_pos hwords] at hdecimal
    have hraw : strip text ≠ "" := by
      intro hraw
      rw [hraw, usd_left_of_nothing hlower] at hdecimal
      have hnone : decimal_of "" = none := by decide
      rw [hnone] at hdecimal
      cases hdecimal
    rw [if_neg hraw, hdecimal]
    simp only
    rw [if_neg (not_le.mpr hpositive), quantize_whole_cents (by omega)]
    refine iff_of_true (if_neg ?_) hwords
    unfold MIN_TOPUP_USD_AMOUNT MAX_TOPUP_USD_AMOUNT
    rintro (hlimit | hlimit)
    · linarith
    · linarith
  · rw [if_neg hwords] at hdecimal
    rw [hdecimal]
    refine iff_of_false (fun h => ?_) hwords
    split at h
    · cases h
    · cases h

end

/-! ## Both parsers -/

/-- The parsers answer any text but one whose digits are no number and one whose number is none
that can be compared and rounded. A formatted amount comes back, and so does a typed one, but for
the word `usdt` and for zeros without end. -/
theorem amounts_are_parsed {lower : List Char → List Char} (hlower : Lowers lower) :
    (∀ text, TomanAnswered lower text ↔
      ¬Unreadable (normalized_toman lower (strip (text.getD "")))) ∧
    (∀ text, UsdAnswered lower text ↔
      ¬Raising (decimal_of (normalized_usd lower (strip (text.getD ""))))) ∧
    (∀ n : Nat, 1 ≤ n → n ≤ MAX_TOMAN_AMOUNT →
      parse_toman_amount lower (some (format_toman n)) = .ok (some n)) ∧
    (∀ n : Nat, 1 ≤ n → n ≤ MAX_TOMAN_AMOUNT → ∀ before after number text, Whole n number →
      Typed TOMAN_WORDS before after number text →
        (parse_toman_amount lower (some text) = .ok (some n) ↔ number.length ≤ MAX_STR_DIGITS)) ∧
    ∀ cents : Nat, MIN_TOPUP_USD_AMOUNT ≤ (cents / 100 : ℚ) →
      (cents / 100 : ℚ) ≤ MAX_TOPUP_USD_AMOUNT → ∀ before after number text,
      Pointed (cents / 100) number → Typed USD_WORDS before after number text →
        (parse_topup_usd_amount lower (some text) = .ok (some (cents / 100)) ↔
          before ≠ "usdt" ∧ after ≠ "usdt") := by
  refine ⟨toman_answered_iff hlower, usd_answered_iff hlower, ?_,
    fun n hmin hmax before after number text => parse_typed_toman hlower hmin hmax, ?_⟩
  · intro n hmin hmax
    have hshort : (Nat.toDigits 10 n).length ≤ MAX_STR_DIGITS := by
      have hlength := (Nat.length_toDigits_le_iff (b := 10) (n := n) (k := 9) (by decide)
        (by decide)).mpr (lt_of_le_of_lt hmax (by decide))
      exact hlength.trans (by decide)
    exact (parse_typed_toman hlower hmin hmax (whole_toDigits n) (format_typed n)).mpr hshort
  · intro cents hmin hmax before after number text
    unfold MIN_TOPUP_USD_AMOUNT at hmin
    unfold MAX_TOPUP_USD_AMOUNT at hmax
    have hlow : 100 ≤ cents := by
      have hcents : (100 : ℚ) ≤ cents := by linarith
      exact_mod_cast hcents
    have hhigh : cents ≤ 500000 := by
      have hcents : (cents : ℚ) ≤ 500000 := by linarith
      exact_mod_cast hcents
    exact parse_typed_usd hlower hlow hhigh

theorem lowers_map : Lowers (·.map Char.toLower) := ⟨fun _ _ => rfl⟩

/-- Twelve and a half dollars, and a hundred and fifty thousand Toman as the bot shows them. -/
theorem shown_and_typed_amounts_come_back :
    parse_toman_amount (·.map Char.toLower) (some (format_toman 150000)) = .ok (some 150000) ∧
      parse_topup_usd_amount (·.map Char.toLower) (some "۱۲٫۵ USD") =
        .ok (some ((1250 : Nat) / 100)) := by
  have h := amounts_are_parsed lowers_map
  have hdigits : digits_of ("۱۲".toList ++ "۵".toList) = 125 := by decide
  refine ⟨h.2.2.1 150000 (by decide) (by decide), ?_⟩
  refine (h.2.2.2.2 1250 ?_ ?_ "" "usd" "۱۲٫۵".toList "۱۲٫۵ USD" ?_ ?_).mpr (by decide)
  · unfold MIN_TOPUP_USD_AMOUNT
    norm_num
  · unfold MAX_TOPUP_USD_AMOUNT
    norm_num
  · refine ⟨"۱۲".toList, "٫۵".toList, "۵".toList, by decide, .inr ⟨'٫', by decide, by decide⟩,
      of_all (by decide), ?_⟩
    have hone : "۵".toList.length = 1 := by decide
    rw [hdigits, hone]
    norm_num
  · exact ⟨⟨.inl rfl, .inr (by decide)⟩, [], "۱۲٫۵ ".toList, "USD".toList, by decide, rfl,
      by decide, by decide⟩

/-- A superscript and a NaN raise, and five Tether dollars are no amount. -/
theorem some_texts_raise_and_usdt_is_not_read :
    ¬TomanAnswered (·.map Char.toLower) (some "²") ∧
      ¬UsdAnswered (·.map Char.toLower) (some "nan") ∧
      Pointed 5 ['5'] ∧ Typed USD_WORDS "" "usdt" ['5'] "5 usdt" ∧
      parse_topup_usd_amount (·.map Char.toLower) (some "5 usdt") = .ok none := by
  have hsuper : parse_toman_amount (·.map Char.toLower) (some "²") =
      .error (.value_error "invalid literal for int() with base 10") := by decide
  have hnan : parse_topup_usd_amount (·.map Char.toLower) (some "nan") =
      .error .invalid_operation := by decide
  have hdigits : digits_of (['5'] ++ []) = 5 := by decide
  refine ⟨?_, ?_, ?_, ?_, by decide⟩
  · rintro ⟨answer, h, -⟩
    rw [hsuper] at h
    cases h
  · rintro ⟨answer, h, -⟩
    rw [hnan] at h
    cases h
  · refine ⟨['5'], [], [], rfl, .inl ⟨rfl, rfl⟩, of_all (by decide), ?_⟩
    rw [hdigits]
    norm_num
  · exact ⟨⟨.inl rfl, .inr (by decide)⟩, [], "5 ".toList, "usdt".toList, by decide, rfl,
      by decide, by decide⟩

end dr_boz.amount_texts
