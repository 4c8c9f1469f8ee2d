-- Law of the invoices of the bot: the three kinds of payloads, with the top-up
-- in dollars and its promo code, from what the user typed to the answer of the
-- bot before the checkout.
import DrBoz.Decimals
import DrBoz.PaymentPayloads
import Mathlib.Data.PNat.Basic

open dr_boz.py dr_boz.texts dr_boz.decimals dr_boz.payment_payloads

namespace dr_boz.invoice_payloads

/-! ## Promo codes -/

def MAX_TOPUP_PROMO_CODE_LEN : Nat := 32

-- `str.upper()`, character by character.
variable (up : Char → List Char)

/-- `(code or "").strip().upper().replace(" ", "")` -/
def normalize_promo_code (code : Option String) : String :=
  String.ofList (((strip (code.getD "")).toList.flatMap up).filter (· ≠ ' '))

/-- The code that a user typed: none, or the empty text for a code that is
refused. `translate` turns digits of other scripts into Latin ones, and `skips`
knows the words for no code. -/
def parse_topup_promo_code (translate : String → String) (skips : String → Bool)
    (text : Option String) : Option String :=
  let raw := strip (text.getD "")
  if raw = "" then none
  else
    let normalized := strip (translate raw)
    if skips normalized then none
    else
      let code := normalize_promo_code up (some normalized)
      if code = "" then none
      else if MAX_TOPUP_PROMO_CODE_LEN < code.length then some ""
      else if '|' ∈ code.toList then some ""
      else some code

/-! ## Amounts and prices -/

def MIN_TOPUP_USD_AMOUNT : Decimal := 1
def MAX_TOPUP_USD_AMOUNT : Decimal := 5000

/-- The amount that a user typed. `clean` takes separators, marks of currency
and blanks out of the text. A NaN raises in the comparison, and infinity and a
number that is too long raise in the rounding. -/
def parse_topup_usd_amount (clean : String → String) (text : Option String) :
    Except PyError (Option Decimal) :=
  let raw := strip (text.getD "")
  if raw = "" then .ok none
  else
    match decimal_of (clean raw) with
    | none | some (.infinity false) => .ok none
    | some .nan | some .signaling_nan | some (.infinity true) => .error .invalid_operation
    | some (.finite value) =>
      if value ≤ 0 then .ok none
      else
        match quantize_cents (.finite value) with
        | some (.finite amount) =>
          if amount < MIN_TOPUP_USD_AMOUNT ∨ MAX_TOPUP_USD_AMOUNT < amount then .ok none
          else .ok (some amount)
        | _ => .error .invalid_operation

/-- The first price above zero among `latest`, `bestSell`, `mark` and
`bestBuy`. Nothing stands for a field that is missing or no number. -/
def extract_positive_rial_price : List (Option PyDecimal) → Except PyError (Option Int)
  | [] => .ok none
  | none :: fields | some (.infinity false) :: fields => extract_positive_rial_price fields
  | some .nan :: _ | some .signaling_nan :: _ | some (.infinity true) :: _ =>
    .error .invalid_operation
  | some (.finite value) :: fields =>
    if 0 < value then (quantizeHalfUp value).map some else extract_positive_rial_price fields

/-- What becomes of the answer of the exchange. -/
def fetch_nobitex_usdt_price_rial (stat : List (Option PyDecimal)) : Except PyError Int := do
  match ← extract_positive_rial_price stat with
  | none => .error (.value_error "usdt rial price is missing in nobitex response")
  | some price =>
    if price = 0 then .error (.value_error "usdt rial price is missing in nobitex response")
    else return price

/-! ## The payload of a top-up in dollars -/

def TOPUP_PAYLOAD_PREFIX : String := "topup"

structure TopupPayload where
  user_id : Int
  usd_amount : Decimal
  total_rial : Int
  usdt_price_rial : Int
  created_at : Int
  promo_code : Option String
deriving DecidableEq

def topup_fields (user_id : Int) (usd_amount : Decimal)
    (total_rial usdt_price_rial created_at : Int) (safe_promo_code : String) : List (List Char) :=
  [TOPUP_PAYLOAD_PREFIX.toList, str_of user_id, (decimal_to_plain usd_amount).toList,
    str_of total_rial, str_of usdt_price_rial, str_of created_at, safe_promo_code.toList]

def build_topup_payload (now : Datetime) (user_id : Int) (usd_amount : Decimal)
    (total_rial usdt_price_rial : Int) (promo_code : Option String) : Except PyError String :=
  let safe_promo_code := normalize_promo_code up promo_code
  if '|' ∈ safe_promo_code.toList then .error (.value_error "invalid promo code for payload")
  else
    fitting (join '|' (topup_fields user_id usd_amount total_rial usdt_price_rial (unix_time now)
      safe_promo_code)) "topup payload is too long"

/-- `promo_code or None` -/
def or_none (text : String) : Option String := if text = "" then none else some text

/-- The checks of the fields, once they are read. A NaN passes the rounding and
raises in the comparison. -/
def checked_topup (user_id : Int) (usd_amount : PyDecimal)
    (total_rial usdt_price_rial created_at : Int) (promo_code : String) :
    Except PyError (Option TopupPayload) :=
  if MAX_TOPUP_PROMO_CODE_LEN < promo_code.length then .ok none
  else if user_id ≤ 0 ∨ total_rial ≤ 0 ∨ usdt_price_rial ≤ 0 ∨ created_at ≤ 0 then .ok none
  else
    match usd_amount with
    | .finite amount =>
      if amount < MIN_TOPUP_USD_AMOUNT ∨ MAX_TOPUP_USD_AMOUNT < amount then .ok none
      else
        .ok (some ⟨user_id, amount, total_rial, usdt_price_rial, created_at, or_none promo_code⟩)
    | _ => .error .invalid_operation

def parse_topup_payload (payload : Option String) : Except PyError (Option TopupPayload) :=
  match split '|' (strip (payload.getD "")) with
  | first :: user_id :: usd_amount :: total_rial :: usdt_price_rial :: created_at :: rest =>
    if first = TOPUP_PAYLOAD_PREFIX ∧ rest.length ≤ 1 then
      match int_of user_id, (decimal_of usd_amount).bind quantize_cents, int_of total_rial,
        int_of usdt_price_rial, int_of created_at with
      | some user_id, some usd_amount, some total_rial, some usdt_price_rial, some created_at =>
        checked_topup user_id usd_amount total_rial usdt_price_rial created_at
          (normalize_promo_code up (some (rest.headD "")))
      | _, _, _, _, _ => .ok none
    else .ok none
  | _ => .ok none

/-! ## Any payload -/

/-- What a payload of one of the three kinds holds. -/
inductive Paid where
  | topup (payload : TopupPayload)
  | subscription (payload : SubscriptionPayload)
  | toman_topup (payload : TomanTopupPayload)
deriving DecidableEq

def parse_payment_payload (payload : Option String) : Except PyError (Option Paid) := do
  match ← parse_topup_payload up payload with
  | some p => return some (.topup p)
  | none =>
    match parse_subscription_payload payload with
    | some p => return some (.subscription p)
    | none => return (parse_toman_topup_payload payload).map .toman_topup

def Paid.total_rial : Paid → Int
  | .topup p => p.total_rial
  | .subscription p => p.total_rial
  | .toman_topup p => p.total_rial

def Paid.user_id : Paid → Int
  | .topup p => p.user_id
  | .subscription p => p.user_id
  | .toman_topup p => p.user_id

/-! ## Before the checkout -/

structure PreCheckoutQuery where
  invoice_payload : Option String
  total_amount : Option Int
  from_user : Option Int

/-- The answer to the platform: nothing, or the message of a refusal. -/
def handle_pre_checkout_query (query : PreCheckoutQuery) : Except PyError (Option String) := do
  match ← parse_payment_payload up query.invoice_payload with
  | none => return some "درخواست پرداخت نامعتبر است."
  | some payload =>
    if intOr0 query.total_amount ≠ payload.total_rial then
      return some "مبلغ پرداخت با فاکتور هماهنگ نیست."
    else if query.from_user ≠ some payload.user_id then
      return some "این فاکتور مخصوص حساب شما نیست."
    else return none

/-! ## Invoices -/

/-- What goes to the platform, and what the payload was made of. -/
structure Invoice where
  payload : String
  amount : Int
  encoded : Paid
deriving DecidableEq

def no_token : PyError := .value_error "BALE_WALLET_PROVIDER_TOKEN is not set"

/-- `payment_due_toman` is what the quote of the top-up asks for. -/
def send_bale_topup_invoice (now : Datetime) (token : String) (user_id : Int)
    (usd_amount : Decimal) (stat : List (Option PyDecimal)) (payment_due_toman : Int)
    (promo_code : Option String) : Except PyError Invoice := do
  if token = "" then .error no_token
  else
  let usdt_price_rial ← fetch_nobitex_usdt_price_rial stat
  let total_rial := max 1 (payment_due_toman * 10)
  let payload ← build_topup_payload up now user_id usd_amount total_rial usdt_price_rial promo_code
  return ⟨payload, total_rial, .topup ⟨user_id, usd_amount, total_rial, usdt_price_rial,
    unix_time now, or_none (normalize_promo_code up promo_code)⟩⟩

def send_bale_subscription_invoice (now : Datetime) (token : String)
    (user_id plan_id payable_toman wallet_payment_toman : Int) : Except PyError Invoice := do
  if token = "" then .error no_token
  else
  let total_toman := max 0 payable_toman
  if total_toman ≤ 0 then
    .error (.value_error "subscription payable amount must be positive")
  else
  let total_rial := total_toman * 10
  let wallet_payment_toman := max 0 wallet_payment_toman
  let payload ← build_subscription_payload now user_id plan_id wallet_payment_toman total_rial
  return ⟨payload, total_rial, .subscription ⟨user_id, plan_id, wallet_payment_toman, total_rial,
    unix_time now⟩⟩

def send_bale_toman_topup_invoice (now : Datetime) (token : String)
    (user_id credit_amount_toman payment_due_toman : Int) : Except PyError Invoice := do
  if token = "" then .error no_token
  else
  let credit_amount := max 0 credit_amount_toman
  let payment_due := max 0 payment_due_toman
  if credit_amount ≤ 0 ∨ payment_due ≤ 0 then
    .error (.value_error "toman topup amount must be positive")
  else
  let total_rial := payment_due * 10
  let payload ← build_toman_topup_payload now user_id credit_amount payment_due total_rial
  return ⟨payload, total_rial, .toman_topup ⟨user_id, credit_amount, payment_due, total_rial,
    unix_time now⟩⟩

/-- What a user asks the bot for. The ids of users and of rows start at 1. -/
inductive Request where
  | topup (user_id : ℕ+) (amount_text promo_text : Option String)
      (stat : List (Option PyDecimal)) (payment_due_toman : Int)
  | subscription (user_id plan_id : ℕ+) (payable_toman wallet_payment_toman : Int)
  | toman_topup (user_id : ℕ+) (credit_amount_toman payment_due_toman : Int)

def Request.user_id : Request → ℕ+
  | .topup user_id .. | .subscription user_id .. | .toman_topup user_id .. => user_id

/-- The invoice that goes out, if the bot takes what the user typed. -/
def Request.send (clean translate : String → String) (skips : String → Bool) (now : Datetime)
    (token : String) : Request → Except PyError (Option Invoice)
  | .topup user_id amount_text promo_text stat payment_due_toman => do
    match ← parse_topup_usd_amount clean amount_text with
    | none => return none
    | some amount_usd =>
      let promo_code := parse_topup_promo_code up translate skips promo_text
      if promo_code = some "" then return none
      else
        (send_bale_topup_invoice up now token user_id amount_usd stat payment_due_toman
          promo_code).map some
  | .subscription user_id plan_id payable_toman wallet_payment_toman =>
    (send_bale_subscription_invoice now token user_id plan_id payable_toman
      wallet_payment_toman).map some
  | .toman_topup user_id credit_amount_toman payment_due_toman =>
    (send_bale_toman_topup_invoice now token user_id credit_amount_toman
      payment_due_toman).map some

/-- The parser of its own kind reads the value, the other two refuse. -/
def ReadAlone (payload : Option String) : Paid → Prop
  | .topup p => parse_topup_payload up payload = .ok (some p) ∧
    parse_subscription_payload payload = none ∧ parse_toman_topup_payload payload = none
  | .subscription p => parse_topup_payload up payload = .ok none ∧
    parse_subscription_payload payload = some p ∧ parse_toman_topup_payload payload = none
  | .toman_topup p => parse_topup_payload up payload = .ok none ∧
    parse_subscription_payload payload = none ∧ parse_toman_topup_payload payload = some p

/-! ## Upper case -/

/-- What `str.upper` does to characters: what it gives stays as it is, and a
character that is no blank gives some, none of them a blank. -/
structure Uppercase : Prop where
  fixed : ∀ c, ∀ d ∈ up c, up d = [d]
  some_left : ∀ c, isSpace c = false → up c ≠ []
  plain : ∀ c, isSpace c = false → ∀ d ∈ up c, isSpace d = false

/-- No blank at either end. -/
structure Trimmed (cs : List Char) : Prop where
  head : ∀ c, cs.head? = some c → isSpace c = false
  last : ∀ c, cs.getLast? = some c → isSpace c = false

theorem strip_trimmed {s : String} (h : Trimmed s.toList) : strip s = s := by
  have hdrop : ∀ cs : List Char, (∀ c, cs.head? = some c → isSpace c = false) →
      cs.dropWhile isSpace = cs := by
    intro cs hcs
    cases cs with
    | nil => rfl
    | cons c cs => rw [List.dropWhile_cons_of_neg (by simp [hcs c rfl])]
  unfold strip
  rw [hdrop _ h.head, hdrop _ fun c hc => h.last c (List.head?_reverse ▸ hc),
    List.reverse_reverse, String.ofList_toList]

theorem trimmed_strip (s : String) : Trimmed (strip s).toList := by
  have hhead : ∀ (cs : List Char) (c : Char), (cs.dropWhile isSpace).head? = some c →
      isSpace c = false := by
    intro cs c hc
    have hnot := List.head?_dropWhile_not isSpace cs
    rw [hc] at hnot
    exact hnot
  unfold strip
  rw [String.toList_ofList]
  refine ⟨fun c hc => ?_, fun c hc => hhead _ c (List.getLast?_reverse ▸ hc)⟩
  obtain ⟨tail, htail⟩ := List.rdropWhile_prefix isSpace (s.toList.dropWhile isSpace)
  refine hhead s.toList c ?_
  rw [← htail]
  change ((s.toList.dropWhile isSpace).rdropWhile isSpace).head? = some c at hc
  rw [List.head?_append, hc]
  rfl

section
variable {up}
variable {cs : List Char}

theorem trimmed_upper (hup : Uppercase up) (h : Trimmed cs) : Trimmed (cs.flatMap up) := by
  refine ⟨fun d hd => ?_, fun d hd => ?_⟩
  · cases cs with
    | nil => cases hd
    | cons c cs =>
      have hc := h.head c rfl
      obtain ⟨e, es, hup_c⟩ := List.exists_cons_of_ne_nil (hup.some_left c hc)
      rw [List.flatMap_cons, hup_c] at hd
      cases hd
      exact hup.plain c hc d (hup_c ▸ List.mem_cons_self ..)
  · rcases List.eq_nil_or_concat' cs with rfl | ⟨es, c, rfl⟩
    · cases hd
    · have hc := h.last c (List.getLast?_concat ..)
      obtain ⟨fs, e, hup_c⟩ :=
        (List.eq_nil_or_concat' (up c)).resolve_left (hup.some_left c hc)
      rw [List.flatMap_append, List.flatMap_singleton, hup_c, ← List.append_assoc,
        List.getLast?_concat] at hd
      cases hd
      exact hup.plain c hc d (by rw [hup_c]; simp)

theorem not_blank {c : Char} (h : isSpace c = false) : c ≠ ' ' := by
  rintro rfl
  exact absurd h (by decide)

theorem trimmed_filter (h : Trimmed cs) : Trimmed (cs.filter (· ≠ ' ')) := by
  refine ⟨fun d hd => ?_, fun d hd => ?_⟩
  · cases cs with
    | nil => cases hd
    | cons c cs =>
      have hc := h.head c rfl
      rw [List.filter_cons_of_pos (by simpa using not_blank hc)] at hd
      cases hd
      exact hc
  · rcases List.eq_nil_or_concat' cs with rfl | ⟨es, c, rfl⟩
    · cases hd
    · have hc := h.last c (List.getLast?_concat ..)
      rw [List.filter_append, List.filter_cons_of_pos (by simpa using not_blank hc),
        List.filter_nil, List.getLast?_concat] at hd
      cases hd
      exact hc

theorem trimmed_normal (hup : Uppercase up) (code : Option String) :
    Trimmed (normalize_promo_code up code).toList := by
  unfold normalize_promo_code
  rw [String.toList_ofList]
  exact trimmed_filter (trimmed_upper hup (trimmed_strip _))

theorem flatMap_fixed (h : ∀ c ∈ cs, up c = [c]) : cs.flatMap up = cs := by
  induction cs with
  | nil => rfl
  | cons c cs ih =>
    rw [List.flatMap_cons, h c (List.mem_cons_self ..),
      ih fun d hd => h d (List.mem_cons_of_mem _ hd), List.singleton_append]

/-- A code that is normal stays as it is. -/
theorem normal_again (hup : Uppercase up) (code : Option String) :
    normalize_promo_code up (some (normalize_promo_code up code)) =
      normalize_promo_code up code := by
  have hfixed : ∀ d ∈ (normalize_promo_code up code).toList, up d = [d] ∧ d ≠ ' ' := by
    intro d hd
    unfold normalize_promo_code at hd
    rw [String.toList_ofList, List.mem_filter, List.mem_flatMap] at hd
    obtain ⟨⟨c, -, hd⟩, hblank⟩ := hd
    exact ⟨hup.fixed c d hd, of_decide_eq_true hblank⟩
  have htrimmed := trimmed_normal hup code
  generalize normalize_promo_code up code = normal at hfixed htrimmed
  unfold normalize_promo_code
  rw [Option.getD_some, strip_trimmed htrimmed, flatMap_fixed fun d hd => (hfixed d hd).1,
    List.filter_eq_self.mpr fun d hd => decide_eq_true (hfixed d hd).2, String.ofList_toList]

end

/-! ## What the bot puts into a payload -/

section
variable {up}
variable {clean translate : String → String} {skips : String → Bool}

theorem amount_in_cents {text : Option String} {amount : Decimal}
    (h : parse_topup_usd_amount clean text = .ok (some amount)) :
    ∃ cents : Nat, amount = cents / 100 ∧ 100 ≤ cents ∧ cents ≤ 500000 := by
  unfold parse_topup_usd_amount at h
  simp only at h
  split at h
  · cases h
  split at h
  · cases h
  · cases h
  · cases h
  · cases h
  · cases h
  next value hvalue =>
  split at h
  · cases h
  split at h
  · next hpositive q hcents =>
    split at h
    · cases h
    next hrange =>
    cases h
    obtain ⟨hmin, hmax⟩ := not_or.mp hrange
    unfold quantize_cents at hcents
    simp only at hcents
    split at hcents
    · cases hcents
      generalize roundHalfUp (value * 100) = cents at hmin hmax
      unfold MIN_TOPUP_USD_AMOUNT at hmin
      unfold MAX_TOPUP_USD_AMOUNT at hmax
      have hlow : (100 : ℚ) ≤ cents := by
        rw [not_lt, le_div_iff₀ (by norm_num)] at hmin
        linarith
      have hhigh : (cents : ℚ) ≤ 500000 := by
        rw [not_lt, div_le_iff₀ (by norm_num)] at hmax
        linarith
      have hlow' : (100 : Int) ≤ cents := by exact_mod_cast hlow
      have hhigh' : cents ≤ (500000 : Int) := by exact_mod_cast hhigh
      obtain ⟨n, rfl⟩ := Int.eq_ofNat_of_zero_le (by omega : 0 ≤ cents)
      exact ⟨n, by push_cast; rfl, by omega, by omega⟩
    · cases hcents
  · cases h

theorem short_code {text : Option String} {code : String}
    (h : parse_topup_promo_code up translate skips text = some code) (hne : code ≠ "") :
    code.length ≤ MAX_TOPUP_PROMO_CODE_LEN ∧ ∃ typed, code = normalize_promo_code up typed := by
  unfold parse_topup_promo_code at h
  simp only at h
  split at h
  · cases h
  split at h
  · cases h
  split at h
  · cases h
  split at h
  · exact absurd (Option.some.inj h).symm hne
  next hshort =>
  split at h
  · exact absurd (Option.some.inj h).symm hne
  have hcode := Option.some.inj h
  rw [← hcode]
  exact ⟨not_lt.mp hshort, _, rfl⟩

/-- The code in the payload is as short as the one that was typed. -/
theorem normal_short (hup : Uppercase up) {text : Option String}
    (h : parse_topup_promo_code up translate skips text ≠ some "") :
    (normalize_promo_code up (parse_topup_promo_code up translate skips text)).length ≤
      MAX_TOPUP_PROMO_CODE_LEN := by
  cases hcode : parse_topup_promo_code up translate skips text with
  | none => exact Nat.zero_le _
  | some code =>
    have hne : code ≠ "" := fun he => h (hcode.trans (congrArg some he))
    obtain ⟨hshort, typed, htyped⟩ := short_code hcode hne
    rw [htyped] at hshort ⊢
    rw [normal_again hup]
    exact hshort

theorem extracted_nonneg {stat : List (Option PyDecimal)} {price : Int}
    (h : extract_positive_rial_price stat = .ok (some price)) : 0 ≤ price := by
  induction stat using extract_positive_rial_price.induct with
  | case1 => cases h
  | case2 fields ih => exact ih h
  | case3 fields ih => exact ih h
  | case4 => cases h
  | case5 => cases h
  | case6 => cases h
  | case7 value fields hvalue =>
    rw [extract_positive_rial_price, if_pos hvalue] at h
    unfold quantizeHalfUp at h
    split at h
    · cases h
      exact roundHalfUp_nonneg hvalue.le
    · cases h
  | case8 value fields hvalue ih =>
    rw [extract_positive_rial_price, if_neg hvalue] at h
    exact ih h

theorem price_positive {stat : List (Option PyDecimal)} {price : Int}
    (h : fetch_nobitex_usdt_price_rial stat = .ok price) : 0 < price := by
  unfold fetch_nobitex_usdt_price_rial at h
  cases hextract : extract_positive_rial_price stat with
  | error e =>
    rw [hextract] at h
    cases h
  | ok found =>
    rw [hextract] at h
    cases found with
    | none => cases h
    | some found =>
      change (if found = 0 then _ else _) = _ at h
      split at h
      · cases h
      next hzero =>
      cases h
      have hnonneg := extracted_nonneg hextract
      omega

end

/-! ## Reading a payload again -/

section
variable {up}
variable {now : Datetime} {user_id total_rial usdt_price_rial created_at : Int} {cents : Nat}
variable {promo : String}

/-- A text that goes on behind a mark ends in the mark, or as what goes on. -/
theorem last_behind_mark {cs ds : List Char}
    (h : ∀ c, ds.getLast? = some c → isSpace c = false) (c : Char)
    (hc : (cs ++ '|' :: ds).getLast? = some c) : isSpace c = false := by
  rw [List.getLast?_append, List.getLast?_cons, Option.some_or] at hc
  cases hlast : ds.getLast? with
  | none =>
    rw [hlast] at hc
    cases hc
    decide
  | some d =>
    rw [hlast] at hc
    cases hc
    exact h d hlast

theorem trimmed_fields (hpromo : Trimmed promo.toList) :
    Trimmed (join '|' (topup_fields user_id (cents / 100) total_rial usdt_price_rial created_at
      promo)).toList := by
  unfold join topup_fields
  rw [String.toList_ofList]
  simp only [List.intercalate, List.intersperse, List.flatten_cons, List.flatten_nil,
    List.append_nil, List.singleton_append]
  refine ⟨fun c hc => ?_, ?_⟩
  · have hfirst : TOPUP_PAYLOAD_PREFIX.toList.head? = some 't' := by decide +kernel
    rw [List.head?_append, hfirst] at hc
    cases hc
    decide
  · exact last_behind_mark <| last_behind_mark <| last_behind_mark <| last_behind_mark <|
      last_behind_mark <| last_behind_mark hpromo.last

theorem split_topup (hpromo : Trimmed promo.toList) (hmark : '|' ∉ promo.toList) :
    split '|' (strip (join '|' (topup_fields user_id (cents / 100) total_rial usdt_price_rial
      created_at promo))) =
      [TOPUP_PAYLOAD_PREFIX, String.ofList (str_of user_id), String.ofList (plain_text cents),
        String.ofList (str_of total_rial), String.ofList (str_of usdt_price_rial),
        String.ofList (str_of created_at), promo] := by
  have hfields : ∀ f ∈ topup_fields user_id (cents / 100) total_rial usdt_price_rial created_at
      promo, '|' ∉ f := by
    intro f hf
    unfold topup_fields at hf
    rw [decimal_to_plain_cents, String.toList_ofList] at hf
    simp only [List.mem_cons, List.not_mem_nil, or_false] at hf
    rcases hf with rfl | rfl | rfl | rfl | rfl | rfl | rfl
    · decide +kernel
    · exact mark_not_in_str (by decide) (by decide) _
    · intro hc
      rcases mem_plain hc with h | h
      · exact absurd h (by decide)
      · exact absurd h (by decide)
    · exact mark_not_in_str (by decide) (by decide) _
    · exact mark_not_in_str (by decide) (by decide) _
    · exact mark_not_in_str (by decide) (by decide) _
    · exact hmark
  rw [strip_trimmed (trimmed_fields hpromo), split_join hfields (by simp [topup_fields])]
  unfold topup_fields
  rw [decimal_to_plain_cents]
  simp only [List.map_cons, List.map_nil, String.ofList_toList]

/-- The payload of a top-up in dollars is of no other kind. -/
theorem topup_alone (hup : Uppercase up) {code : Option String} {text : String}
    (h : build_topup_payload up now user_id (cents / 100) total_rial usdt_price_rial code =
      .ok text) (hshort : (normalize_promo_code up code).length ≤ MAX_TOPUP_PROMO_CODE_LEN)
    (hlow : 100 ≤ cents) (hhigh : cents ≤ 500000) (huser : 0 < user_id) (htotal : 0 < total_rial)
    (hprice : 0 < usdt_price_rial) (hclock : 0 < unix_time now) :
    ReadAlone up (some text) (.topup ⟨user_id, cents / 100, total_rial, usdt_price_rial,
      unix_time now, or_none (normalize_promo_code up code)⟩) := by
  unfold build_topup_payload at h
  simp only at h
  split at h
  · cases h
  next hmark =>
  have hsplit : split '|' (strip (join '|' (topup_fields user_id (cents / 100) total_rial
      usdt_price_rial (unix_time now) (normalize_promo_code up code)))) = _ :=
    split_topup (trimmed_normal hup code) hmark
  rw [← fitting_ok h] at hsplit
  have hnumbers : ∀ other, payload_numbers other (some text) = none := fun other => by
    unfold payload_numbers
    simp only [Option.getD_some]
    rw [hsplit]
    exact if_neg fun h => absurd h.1 (by simp)
  refine ⟨?_, ?_, ?_⟩
  · unfold parse_topup_payload
    rw [Option.getD_some, hsplit]
    simp only [List.length_singleton, le_refl, and_self, if_true, int_of_str, decimal_of_plain,
      Option.bind_some, quantize_whole_cents (by omega : cents < 10 ^ 28), List.headD_cons,
      normal_again hup]
    have hmin : ¬(cents / 100 : ℚ) < 1 := by
      have hcast : (100 : ℚ) ≤ cents := by exact_mod_cast hlow
      rw [not_lt, le_div_iff₀ (by norm_num)]
      linarith
    have hmax : ¬(5000 : ℚ) < cents / 100 := by
      have hcast : (cents : ℚ) ≤ 500000 := by exact_mod_cast hhigh
      rw [not_lt, div_le_iff₀ (by norm_num)]
      linarith
    rw [checked_topup, if_neg (not_lt.mpr hshort), if_neg (by omega)]
    exact if_neg fun h => h.elim hmin hmax
  · unfold parse_subscription_payload
    rw [hnumbers]
  · unfold parse_toman_topup_payload
    rw [hnumbers]

/-- A payload of five numbers is no top-up in dollars. -/
theorem no_topup {first : String} (numbers : List Int)
    (hplain : ∀ c ∈ first.toList, isSpace c = false) (hmark : '|' ∉ first.toList)
    (hne : first ≠ TOPUP_PAYLOAD_PREFIX) :
    parse_topup_payload up (some (payload_text first numbers)) = .ok none := by
  unfold parse_topup_payload
  rw [Option.getD_some, split_payload_text first numbers hplain hmark]
  split
  · next heq =>
    rw [if_neg fun h => hne ((List.cons.inj heq).1.trans h.1)]
  · rfl

theorem subscription_alone {plan_id wallet : Int} {text : String}
    (h : build_subscription_payload now user_id plan_id wallet total_rial = .ok text)
    (hvalid : (⟨user_id, plan_id, max 0 wallet, total_rial, unix_time now⟩ :
      SubscriptionPayload).Valid) :
    ReadAlone up (some text)
      (.subscription ⟨user_id, plan_id, max 0 wallet, total_rial, unix_time now⟩) := by
  have hplain : ∀ c ∈ SUBSCRIPTION_PAYLOAD_PREFIX.toList, isSpace c = false :=
    plain_of_all (by decide +kernel)
  have hmark : '|' ∉ SUBSCRIPTION_PAYLOAD_PREFIX.toList := by decide +kernel
  have hread := numbers_of_text SUBSCRIPTION_PAYLOAD_PREFIX
    [user_id, plan_id, max 0 wallet, total_rial, unix_time now] hplain hmark rfl
  rw [fitting_ok h]
  refine ⟨no_topup _ hplain hmark (by decide), ?_, ?_⟩
  · unfold parse_subscription_payload
    rw [hread, if_pos rfl]
    exact if_pos hvalid
  · unfold parse_toman_topup_payload
    rw [hread, if_neg (by decide)]

theorem toman_topup_alone {credit due : Int} {text : String}
    (h : build_toman_topup_payload now user_id credit due total_rial = .ok text)
    (hvalid : (⟨user_id, max 0 credit, max 0 due, total_rial, unix_time now⟩ :
      TomanTopupPayload).Valid) :
    ReadAlone up (some text)
      (.toman_topup ⟨user_id, max 0 credit, max 0 due, total_rial, unix_time now⟩) := by
  have hplain : ∀ c ∈ TOMAN_TOPUP_PAYLOAD_PREFIX.toList, isSpace c = false :=
    plain_of_all (by decide +kernel)
  have hmark : '|' ∉ TOMAN_TOPUP_PAYLOAD_PREFIX.toList := by decide +kernel
  have hread := numbers_of_text TOMAN_TOPUP_PAYLOAD_PREFIX
    [user_id, max 0 credit, max 0 due, total_rial, unix_time now] hplain hmark rfl
  rw [fitting_ok h]
  refine ⟨no_topup _ hplain hmark (by decide), ?_, ?_⟩
  · unfold parse_subscription_payload
    rw [hread, if_neg (by decide)]
  · unfold parse_toman_topup_payload
    rw [hread, if_pos rfl]
    exact if_pos hvalid

/-! ## The invoices -/

/-- The bot reads the payload of the invoice as it was made, and asks for what
the payload says, from the user it says. -/
structure Readable (up : Char → List Char) (invoice : Invoice) (user_id : Int) : Prop where
  alone : ReadAlone up (some invoice.payload) invoice.encoded
  amount : invoice.amount = invoice.encoded.total_rial
  user : user_id = invoice.encoded.user_id

variable {token : String} {invoice : Invoice}

theorem of_map_some {α : Type} {x : Except PyError α} {a : α} (h : x.map some = .ok (some a)) :
    x = .ok a := by
  cases x with
  | error e => cases h
  | ok b => exact congrArg Except.ok (Option.some.inj (Except.ok.inj h))

theorem sent_topup (hup : Uppercase up) {stat : List (Option PyDecimal)} {due : Int}
    {code : Option String}
    (h : send_bale_topup_invoice up now token user_id (cents / 100) stat due code = .ok invoice)
    (hshort : (normalize_promo_code up code).length ≤ MAX_TOPUP_PROMO_CODE_LEN)
    (hlow : 100 ≤ cents) (hhigh : cents ≤ 500000) (huser : 0 < user_id)
    (hclock : 0 < unix_time now) : Readable up invoice user_id := by
  unfold send_bale_topup_invoice at h
  split at h
  · cases h
  obtain ⟨price, hprice, h⟩ := of_bind_ok h
  obtain ⟨text, hbuilt, h⟩ := of_bind_ok h
  rw [← Except.ok.inj h]
  have htotal : 0 < max 1 (due * 10) := by omega
  exact ⟨topup_alone hup hbuilt hshort hlow hhigh huser htotal (price_positive hprice) hclock,
    rfl, rfl⟩

theorem sent_subscription {plan_id payable wallet : Int}
    (h : send_bale_subscription_invoice now token user_id plan_id payable wallet = .ok invoice)
    (huser : 0 < user_id) (hplan : 0 < plan_id) (hclock : 0 < unix_time now) :
    Readable up invoice user_id := by
  unfold send_bale_subscription_invoice at h
  split at h
  · cases h
  simp only at h
  split at h
  · cases h
  next hpositive =>
  obtain ⟨text, hbuilt, h⟩ := of_bind_ok h
  have htotal : 0 < max 0 payable * 10 := by omega
  have hwallet : max 0 (max 0 wallet) = max 0 wallet := max_eq_right (le_max_left ..)
  have halone : ReadAlone up (some text) _ :=
    subscription_alone hbuilt ⟨huser, hplan, le_max_left .., htotal, hclock⟩
  rw [hwallet] at halone
  rw [← Except.ok.inj h]
  exact ⟨halone, rfl, rfl⟩

theorem sent_toman_topup {credit due : Int}
    (h : send_bale_toman_topup_invoice now token user_id credit due = .ok invoice)
    (huser : 0 < user_id) (hclock : 0 < unix_time now) : Readable up invoice user_id := by
  unfold send_bale_toman_topup_invoice at h
  split at h
  · cases h
  simp only at h
  split at h
  · cases h
  next hpositive =>
  obtain ⟨hcredit, hdue⟩ := not_or.mp hpositive
  obtain ⟨text, hbuilt, h⟩ := of_bind_ok h
  have htotal : 0 < max 0 due * 10 := by omega
  have hcredit' : max 0 (max 0 credit) = max 0 credit := max_eq_right (le_max_left ..)
  have hdue' : max 0 (max 0 due) = max 0 due := max_eq_right (le_max_left ..)
  have halone : ReadAlone up (some text) _ := toman_topup_alone hbuilt
    ⟨huser, hcredit'.symm ▸ not_le.mp hcredit, hdue'.symm ▸ not_le.mp hdue, htotal, hclock⟩
  rw [hcredit', hdue'] at halone
  rw [← Except.ok.inj h]
  exact ⟨halone, rfl, rfl⟩

/-- What is read alone is what the bot finds in the payload. -/
theorem parse_of_alone {payload : Option String} {paid : Paid} (h : ReadAlone up payload paid) :
    parse_payment_payload up payload = .ok (some paid) := by
  unfold parse_payment_payload
  cases paid with
  | topup p =>
    rw [h.1]
    rfl
  | subscription p =>
    rw [h.1, h.2.1]
    rfl
  | toman_topup p =>
    rw [h.1, h.2.1, h.2.2]
    rfl

theorem checkout_of_readable (h : Readable up invoice user_id) :
    handle_pre_checkout_query up ⟨some invoice.payload, some invoice.amount, some user_id⟩ =
      .ok none := by
  unfold handle_pre_checkout_query
  rw [parse_of_alone h.alone]
  have hamount : ¬intOr0 (some invoice.amount) ≠ invoice.encoded.total_rial :=
    not_not.mpr h.amount
  have huser : ¬some user_id ≠ some invoice.encoded.user_id :=
    not_not.mpr (congrArg some h.user)
  exact (if_neg hamount).trans (if_neg huser)

end

/-! ## The law -/

/-- LAW: Whatever invoice the bot sends for what a user typed and asked for,
the parser of its kind reads the values that were put into its payload, the
other two parsers refuse the payload, and the bot agrees to the checkout. -/
theorem an_invoice_is_read_as_it_was_issued (hup : Uppercase up)
    (clean translate : String → String) (skips : String → Bool) (now : Datetime)
    (hclock : 0 < unix_time now) (token : String) (request : Request) (invoice : Invoice)
    (h : request.send up clean translate skips now token = .ok (some invoice)) :
    ReadAlone up (some invoice.payload) invoice.encoded ∧
      handle_pre_checkout_query up ⟨some invoice.payload, some invoice.amount,
        some request.user_id⟩ = .ok none := by
  have hreadable : Readable up invoice request.user_id := by
    cases request with
    | topup user_id amount_text promo_text stat due =>
      unfold Request.send at h
      obtain ⟨amount, hamount, h⟩ := of_bind_ok h
      cases amount with
      | none => cases h
      | some amount =>
        obtain ⟨cents, rfl, hlow, hhigh⟩ := amount_in_cents hamount
        simp only at h
        split at h
        · cases h
        next hcode =>
        exact sent_topup hup (of_map_some h) (normal_short hup hcode) hlow hhigh
          (by exact_mod_cast user_id.pos) hclock
    | subscription user_id plan_id payable wallet =>
      exact sent_subscription (of_map_some h) (by exact_mod_cast user_id.pos)
        (by exact_mod_cast plan_id.pos) hclock
    | toman_topup user_id credit due =>
      exact sent_toman_topup (of_map_some h) (by exact_mod_cast user_id.pos) hclock
  exact ⟨hreadable.alone, checkout_of_readable hreadable⟩

/-- The upper case of the ASCII letters. -/
def ascii_up (c : Char) : List Char :=
  if 97 ≤ c.toNat ∧ c.toNat ≤ 122 then [Char.ofNat (65 + (c.toNat - 97))] else [c]

theorem ascii_uppercase : Uppercase ascii_up := by
  have hletters : ∀ n : Fin 26, ascii_up (Char.ofNat (65 + n.val)) = [Char.ofNat (65 + n.val)] ∧
      isSpace (Char.ofNat (65 + n.val)) = false := by decide +kernel
  have hup : ∀ c, ascii_up c = [c] ∨ ∃ n : Fin 26, ascii_up c = [Char.ofNat (65 + n.val)] := by
    intro c
    unfold ascii_up
    split
    · next h => exact .inr ⟨⟨c.toNat - 97, by omega⟩, rfl⟩
    · exact .inl rfl
  refine ⟨fun c d hd => ?_, fun c hc hnil => ?_, fun c hc d hd => ?_⟩
  · rcases hup c with h | ⟨n, h⟩
    · rw [h, List.mem_singleton] at hd
      rw [hd, h]
    · rw [h, List.mem_singleton] at hd
      rw [hd]
      exact (hletters n).1
  · rcases hup c with h | ⟨n, h⟩
    · exact absurd (h.symm.trans hnil) (List.cons_ne_nil _ _)
    · exact absurd (h.symm.trans hnil) (List.cons_ne_nil _ _)
  · rcases hup c with h | ⟨n, h⟩
    · rw [h, List.mem_singleton] at hd
      rwa [hd]
    · rw [h, List.mem_singleton] at hd
      rw [hd]
      exact (hletters n).2

/-- 12.5 dollars, at 1000000 rial each, with the code `off`. -/
def small_request : Request :=
  .topup 7 (some "12.50") (some " off") [none, some (.finite 1000000)] 1250000

/-- The leap day of 2024. -/
def leap_day : Datetime := 63844808400000000

def small_invoice : Invoice where
  payload := "topup|7|12.5|12500000|1000000|1709211600|OFF"
  amount := 12500000
  encoded := .topup ⟨7, 25 / 2, 12500000, 1000000, 1709211600, some "OFF"⟩

theorem a_small_invoice_is_read :
    ReadAlone ascii_up (some small_invoice.payload) small_invoice.encoded ∧
      handle_pre_checkout_query ascii_up ⟨some small_invoice.payload, some small_invoice.amount,
        some small_request.user_id⟩ = .ok none :=
  an_invoice_is_read_as_it_was_issued ascii_up ascii_uppercase id id (fun _ => false) leap_day
    (by decide +kernel) "t" small_request small_invoice (by decide +kernel)

end dr_boz.invoice_payloads
