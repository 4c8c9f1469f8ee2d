-- Law of the compact form of phone numbers (`normalize_phone_number`): the ways
-- to write one national number come to one form where the digits are Latin and
-- the length tells whether the country code is there.
import DrBoz.BotPhones
import DrBoz.Decimals
import DrBoz.Writers

open keyed_table unit_of_work dr_boz.py dr_boz.texts dr_boz.models dr_boz.accounts
open dr_boz.codex_capacity dr_boz.toman_billing dr_boz.views dr_boz.bot_phones
open dr_boz.subscriptions dr_boz.writers

namespace dr_boz.phone_numbers

/-! ## The profile of a contact -/

/-- `update_contact_profile`. The query that follows sends the row, where the caller commits. -/
def update_contact_profile (user : UserPreference) (phone_number preferred_name : Option String)
    (commit : Bool) : Tx UserPreference := do
  let known := { user with
    phone_number :=
      if phone_number.isSome then normalize_phone_number phone_number else user.phone_number
    preferred_name := match preferred_name with
      | some name => if strip name = "" then none else some (strip name)
      | none => user.preferred_name }
  let marked := mark_onboarding_state known
  Prog.flush (.setUser user marked)
  Prog.publishIf commit
  if commit then refreshed marked else return marked

/-! ## The ways to write a number -/

/-- The digits of a text, of any script. -/
def digit_chars (phone : String) : List Char := phone.toList.filter fun c => (decimal c).isSome

/-- A national number, without the zero before it. -/
structure National (n : List Nat) : Prop where
  digits : ∀ d ∈ n, d < 10
  start : ∃ d rest, n = d :: rest ∧ d ≠ 0

/-- What stands before the number. -/
inductive Lead
  | plus_code | zeros_code | code | zero | bare
deriving DecidableEq

/-- The digits of it. -/
def Lead.digits : Lead → List Nat
  | .plus_code | .code => [9, 8]
  | .zeros_code => [0, 0, 9, 8]
  | .zero => [0]
  | .bare => []

/-- The text writes the number: its digits, in any script, with anything between them that is
no digit. A plus stands for the country code, before all digits. -/
structure Spells (n : List Nat) (lead : Lead) (phone : String) : Prop where
  digits : (digit_chars phone).map (fun c => (decimal c).getD 0) = lead.digits ++ n
  no_plus : lead ≠ .plus_code → '+' ∉ phone.toList
  one_plus : lead = .plus_code → ∃ before rest, phone.toList = before ++ '+' :: rest ∧
    (∀ c ∈ before, decimal c = none) ∧ '+' ∉ rest

/-- The compact form of a national number. -/
def compact (n : List Nat) : String := String.ofList ('+' :: '9' :: '8' :: n.map Nat.digitChar)

/-- The text begins with a plus, blanks apart. -/
def has_plus (phone : String) : Bool := (strip phone).toList.head? = some '+'

/-- The digits are Latin, and the length tells what stands before the number. -/
structure Fits (n : List Nat) (lead : Lead) (phone : String) : Prop where
  latin : ∀ c ∈ digit_chars phone, c.isDigit = true
  code : lead = .code ∨ lead = .plus_code ∧ has_plus phone = false → 9 ≤ n.length
  bare : lead = .bare → n.length ≤ 10

/-! ## The compact form, digit by digit -/

/-- What stands behind the plus. -/
def behind_plus (plus : Bool) (digits : List Char) : List Char :=
  if plus then digits
  else if digits.take 2 = ['0', '0'] ∧ 2 < digits.length then digits.drop 2
  else if digits.head? = some '0' then '9' :: '8' :: digits.tail
  else if digits.length ≤ 10 then '9' :: '8' :: digits
  else digits

/-- The blanks, by their numbers. -/
def SPACES : List Nat :=
  [0x9, 0xA, 0xB, 0xC, 0xD, 0x1C, 0x1D, 0x1E, 0x1F, 0x20, 0x85, 0xA0, 0x1680, 0x2000, 0x2001,
   0x2002, 0x2003, 0x2004, 0x2005, 0x2006, 0x2007, 0x2008, 0x2009, 0x200A, 0x2028, 0x2029, 0x202F,
   0x205F, 0x3000]

theorem mem_spaces {c : Char} (h : isSpace c = true) : c.toNat ∈ SPACES := by
  have hsingle : ([0x20, 0x85, 0xA0, 0x1680, 0x2028, 0x2029, 0x202F, 0x205F, 0x3000] :
      List UInt32).all (fun v => decide (v.toNat ∈ SPACES)) = true := by decide
  have hcontrols : ∀ n ∈ List.range' 0x9 5, n ∈ SPACES := by decide
  have hseparators : ∀ n ∈ List.range' 0x1C 4, n ∈ SPACES := by decide
  have hwidths : ∀ n ∈ List.range' 0x2000 11, n ∈ SPACES := by decide
  simp only [isSpace, Bool.or_eq_true, decide_eq_true_eq, Bool.and_eq_true,
    UInt32.le_iff_toNat_le] at h
  rcases h with ((h | ⟨hlow, hhigh⟩) | ⟨hlow, hhigh⟩) | ⟨hlow, hhigh⟩
  · exact of_decide_eq_true (List.all_eq_true.mp hsingle c.val h)
  · exact hcontrols _ (List.mem_range'_1.mpr ⟨hlow, Nat.lt_succ_of_le hhigh⟩)
  · exact hseparators _ (List.mem_range'_1.mpr ⟨hlow, Nat.lt_succ_of_le hhigh⟩)
  · exact hwidths _ (List.mem_range'_1.mpr ⟨hlow, Nat.lt_succ_of_le hhigh⟩)

theorem space_not_decimal {c : Char} (h : isSpace c = true) : decimal c = none := by
  unfold decimal
  rw [Option.map_eq_none_iff, List.find?_eq_none]
  intro z hz
  have hall : ∀ z ∈ DECIMAL_ZEROS, ∀ n ∈ SPACES, ¬((z ≤ n && n ≤ z + 9) = true) := by decide
  exact hall z hz _ (mem_spaces h)

theorem filter_dropWhile {p q : Char → Bool} (h : ∀ c, p c = true → q c = false)
    (l : List Char) : (l.dropWhile p).filter q = l.filter q := by
  induction l with
  | nil => rfl
  | cons c l ih =>
    by_cases hc : p c = true
    · rw [List.dropWhile_cons_of_pos hc, ih, List.filter_cons_of_neg (by simp [h c hc])]
    · rw [List.dropWhile_cons_of_neg hc]

theorem digit_chars_strip (phone : String) : digit_chars (strip phone) = digit_chars phone := by
  have hspace : ∀ c, isSpace c = true → (decimal c).isSome = false := by
    intro c hc
    rw [space_not_decimal hc]
    rfl
  unfold digit_chars strip
  rw [String.toList_ofList, List.filter_reverse, filter_dropWhile hspace, List.filter_reverse,
    List.reverse_reverse, filter_dropWhile hspace]

theorem normalize_eq (phone : String) : normalize_phone_number (some phone) =
    if digit_chars phone = [] then none
    else some (String.ofList ('+' :: behind_plus (has_plus phone) (digit_chars phone))) := by
  have hdigits : (digits_of (strip phone)).toList = digit_chars phone := by
    rw [← digit_chars_strip]
    exact String.toList_ofList
  have hcode : ∀ cs : List Char,
      "+98" ++ String.ofList cs = String.ofList ('+' :: '9' :: '8' :: cs) := by
    intro cs
    rw [← String.toList_inj]
    simp
  unfold normalize_phone_number behind_plus has_plus
  simp only [Option.getD_some, hdigits, hcode]
  by_cases hnone : digit_chars phone = []
  · rw [if_pos (.inr hnone), if_pos hnone]
  · have hraw : strip phone ≠ "" := by
      intro hraw
      rw [← digit_chars_strip, hraw] at hnone
      exact hnone rfl
    rw [if_neg (not_or.mpr ⟨hraw, hnone⟩), if_neg hnone]
    simp only [decide_eq_true_eq]
    split
    · rfl
    · split
      · rfl
      · split
        · rfl
        · split <;> rfl

/-! ## The form is stable -/

theorem behind_plus_ne_nil {plus : Bool} {digits : List Char} (h : digits ≠ []) :
    behind_plus plus digits ≠ [] := by
  unfold behind_plus
  split
  · exact h
  · split
    · rename_i hzeros
      exact List.ne_nil_of_length_pos (by rw [List.length_drop]; omega)
    · split
      · exact List.cons_ne_nil _ _
      · split
        · exact List.cons_ne_nil _ _
        · exact h

theorem behind_plus_digits {plus : Bool} {digits : List Char}
    (h : ∀ c ∈ digits, (decimal c).isSome = true) :
    ∀ c ∈ behind_plus plus digits, (decimal c).isSome = true := by
  have hcode : ∀ cs : List Char, (∀ c ∈ cs, (decimal c).isSome = true) →
      ∀ c ∈ '9' :: '8' :: cs, (decimal c).isSome = true := by
    intro cs hcs c hc
    rcases List.mem_cons.mp hc with rfl | hc
    · rfl
    · rcases List.mem_cons.mp hc with rfl | hc
      · rfl
      · exact hcs c hc
  unfold behind_plus
  split
  · exact h
  · split
    · exact fun c hc => h c (List.mem_of_mem_drop hc)
    · split
      · exact hcode _ fun c hc => h c (List.mem_of_mem_tail hc)
      · split
        · exact hcode _ h
        · exact h

/-- A plus with digits behind it has its form already. -/
theorem normalize_plus {digits : List Char} (hsome : digits ≠ [])
    (hdigits : ∀ c ∈ digits, (decimal c).isSome = true) :
    normalize_phone_number (some (String.ofList ('+' :: digits))) =
      some (String.ofList ('+' :: digits)) := by
  have hplain : ∀ c ∈ (String.ofList ('+' :: digits)).toList, isSpace c = false := by
    intro c hc
    rw [String.toList_ofList] at hc
    rcases List.mem_cons.mp hc with rfl | hc
    · rfl
    · refine eq_false_of_ne_true fun hspace => ?_
      have hdecimal := hdigits c hc
      rw [space_not_decimal hspace] at hdecimal
      cases hdecimal
  have hchars : digit_chars (String.ofList ('+' :: digits)) = digits := by
    unfold digit_chars
    rw [String.toList_ofList, List.filter_cons_of_neg (by decide)]
    exact List.filter_eq_self.mpr hdigits
  have hplus : has_plus (String.ofList ('+' :: digits)) = true := by
    unfold has_plus
    rw [strip_plain hplain, String.toList_ofList]
    rfl
  rw [normalize_eq, hchars, if_neg hsome, hplus]
  rfl

theorem normalize_idempotent (phone : String) :
    ∀ normalized, normalize_phone_number (some phone) = some normalized →
      normalize_phone_number (some normalized) = some normalized := by
  intro normalized h
  rw [normalize_eq] at h
  by_cases hnone : digit_chars phone = []
  · rw [if_pos hnone] at h
    cases h
  · rw [if_neg hnone] at h
    obtain rfl := Option.some.inj h
    have hdigits : ∀ c ∈ digit_chars phone, (decimal c).isSome = true :=
      fun c hc => (List.mem_filter.mp hc).2
    exact normalize_plus (behind_plus_ne_nil hnone) (behind_plus_digits hdigits)

/-! ## One form for the ways that fit -/

theorem digitChar_decimal {c : Char} (h : c.isDigit = true) :
    Nat.digitChar ((decimal c).getD 0) = c := by
  have hrange := digit_range h
  rw [decimal_of_digit h, Option.getD_some]
  have hself : Char.ofNat c.toNat = c := Char.ofNat_toNat c
  generalize c.toNat = k at hrange hself
  subst hself
  obtain ⟨hlow, hhigh⟩ := hrange
  interval_cases k <;> rfl

theorem latin_digits {cs : List Char} {ds : List Nat} (hlatin : ∀ c ∈ cs, c.isDigit = true)
    (h : cs.map (fun c => (decimal c).getD 0) = ds) : cs = ds.map Nat.digitChar := by
  rw [← h, List.map_map]
  exact ((List.map_congr_left fun c hc => digitChar_decimal (hlatin c hc)).trans
    (List.map_id cs)).symm

/-- Only zeros are taken away. -/
theorem mem_behind_plus {plus : Bool} {digits : List Char} {c : Char} (hc : c ∈ digits)
    (hzero : c ≠ '0') : c ∈ behind_plus plus digits := by
  unfold behind_plus
  split
  · exact hc
  · split
    · rename_i hzeros
      rw [← List.take_append_drop 2 digits, hzeros.1] at hc
      rcases List.mem_append.mp hc with hc | hc
      · simp [hzero] at hc
      · exact hc
    · split
      · rename_i hhead
        cases digits with
        | nil => cases hc
        | cons d digits =>
          obtain rfl := Option.some.inj hhead
          exact List.mem_cons_of_mem _ (List.mem_cons_of_mem _
            ((List.mem_cons.mp hc).resolve_left hzero))
      · split
        · exact List.mem_cons_of_mem _ (List.mem_cons_of_mem _ hc)
        · exact hc

/-- The lead as the length seems to show it, if the text has no plus. -/
def Misread (plus : Bool) (lead : Lead) (length : Nat) : Prop :=
  (lead = .code ∨ lead = .plus_code ∧ plus = false) ∧ length < 9

instance (plus : Bool) (lead : Lead) (length : Nat) : Decidable (Misread plus lead length) :=
  inferInstanceAs (Decidable (_ ∧ _))

theorem behind_code (number : List Char) :
    behind_plus false ('9' :: '8' :: number) =
      if number.length < 9 then '9' :: '8' :: '9' :: '8' :: number else '9' :: '8' :: number := by
  rw [behind_plus, if_neg (by simp), if_neg (by simp), if_neg (by simp)]
  refine if_congr ?_ rfl rfl
  simp only [List.length_cons]
  omega

theorem behind_zeros (number : List Char) :
    behind_plus false ('0' :: '0' :: '9' :: '8' :: number) = '9' :: '8' :: number := by
  rw [behind_plus, if_neg (by simp), if_pos (by simp)]
  rfl

section
variable {number : List Char} {c : Char} (hstart : number.head? = some c) (hc : c ≠ '0')
include hstart hc

theorem behind_zero : behind_plus false ('0' :: number) = '9' :: '8' :: number := by
  obtain ⟨rest, rfl⟩ := List.head?_eq_some_iff.mp hstart
  rw [behind_plus, if_neg (by simp), if_neg (by simp [hc]), if_pos (by simp)]
  rfl

theorem behind_bare : behind_plus false number =
    if number.length ≤ 10 then '9' :: '8' :: number else number := by
  obtain ⟨rest, rfl⟩ := List.head?_eq_some_iff.mp hstart
  rw [behind_plus, if_neg (by simp), if_neg (by simp [hc]), if_neg (by simp [hc])]

/-- What stands behind the plus for Latin digits: the country code, once or twice or not. -/
theorem behind_plus_lead {plus : Bool} {lead : Lead} (hplus : plus = true → lead = .plus_code) :
    behind_plus plus (lead.digits.map Nat.digitChar ++ number) =
      if Misread plus lead number.length then '9' :: '8' :: '9' :: '8' :: number
      else if lead = .bare ∧ 10 < number.length then number
      else '9' :: '8' :: number := by
  have hcode : ∀ lead, lead = .code ∨ lead = .plus_code →
      (if number.length < 9 then '9' :: '8' :: '9' :: '8' :: number else '9' :: '8' :: number) =
        if Misread false lead number.length then '9' :: '8' :: '9' :: '8' :: number
        else if lead = .bare ∧ 10 < number.length then number
        else '9' :: '8' :: number := by
    intro lead hlead
    have hmisread : number.length < 9 ↔ Misread false lead number.length :=
      (and_iff_right (hlead.imp id fun h => ⟨h, rfl⟩)).symm
    have hbare : ¬(lead = .bare ∧ 10 < number.length) := by
      rcases hlead with rfl | rfl <;> exact fun h => Lead.noConfusion h.1
    rw [if_neg hbare]
    exact if_congr hmisread rfl rfl
  have hplain : ∀ plus lead, ¬(lead = Lead.code ∨ lead = .plus_code ∧ plus = false) →
      lead ≠ .bare → (if Misread plus lead number.length then '9' :: '8' :: '9' :: '8' :: number
        else if lead = .bare ∧ 10 < number.length then number
        else '9' :: '8' :: number) = '9' :: '8' :: number := by
    intro plus lead hread hbare
    rw [if_neg fun h => hread h.1, if_neg fun h => hbare h.1]
  cases plus with
  | true =>
    obtain rfl := hplus rfl
    exact (hplain true .plus_code (by simp) (by simp)).symm
  | false =>
    cases lead with
    | plus_code => exact (behind_code number).trans (hcode _ (.inr rfl))
    | zeros_code => exact (behind_zeros number).trans (hplain _ _ (by simp) (by simp)).symm
    | code => exact (behind_code number).trans (hcode _ (.inl rfl))
    | zero => exact (behind_zero hstart hc).trans (hplain _ _ (by simp) (by simp)).symm
    | bare =>
      have hread : ¬Misread false .bare number.length := fun h => by
        rcases h.1 with h | h
        · cases h
        · cases h.1
      rw [if_neg hread]
      refine (behind_bare hstart hc).trans ?_
      by_cases hlength : number.length ≤ 10
      · rw [if_pos hlength, if_neg fun h => not_lt.mpr hlength h.2]
      · rw [if_neg hlength, if_pos ⟨rfl, not_le.mp hlength⟩]

end

section
variable {n : List Nat} {lead : Lead} {phone : String}

theorem has_plus_of_spells (h : Spells n lead phone) (hplus : has_plus phone = true) :
    lead = .plus_code := by
  by_contra hlead
  refine h.no_plus hlead ?_
  have hhead := of_decide_eq_true hplus
  have hmem : '+' ∈ (strip phone).toList := List.mem_of_mem_head? hhead
  unfold strip at hmem
  rw [String.toList_ofList, List.mem_reverse] at hmem
  have hmem := (List.dropWhile_suffix _).subset hmem
  rw [List.mem_reverse] at hmem
  exact (List.dropWhile_suffix _).subset hmem

/-- LAW of one text: it comes to the compact form of its number exactly if it fits. -/
theorem normalize_iff (hn : National n) (h : Spells n lead phone) :
    normalize_phone_number (some phone) = some (compact n) ↔ Fits n lead phone := by
  obtain ⟨d, rest, hdn, hd⟩ := hn.start
  have hstart : (n.map Nat.digitChar).head? = some (Nat.digitChar d) := by
    rw [hdn]
    rfl
  have hzero := decimals.digitChar_ne_zero (hn.digits d (hdn ▸ List.mem_cons_self)) hd
  have hsome : digit_chars phone ≠ [] := by
    intro hnone
    have hdigits := h.digits
    rw [hnone, hdn] at hdigits
    exact absurd hdigits.symm (by simp)
  have hread : ∀ hlatin : ∀ c ∈ digit_chars phone, c.isDigit = true,
      behind_plus (has_plus phone) (digit_chars phone) =
        if Misread (has_plus phone) lead n.length then
          '9' :: '8' :: '9' :: '8' :: n.map Nat.digitChar
        else if lead = .bare ∧ 10 < n.length then n.map Nat.digitChar
        else '9' :: '8' :: n.map Nat.digitChar := by
    intro hlatin
    rw [latin_digits hlatin h.digits, List.map_append,
      behind_plus_lead hstart hzero (has_plus_of_spells h), List.length_map]
  rw [normalize_eq, if_neg hsome, Option.some_inj, compact, String.ofList_inj,
    List.cons_inj_right]
  constructor
  · intro hform
    have hlatin : ∀ c ∈ digit_chars phone, c.isDigit = true := by
      intro c hc
      by_cases hc0 : c = '0'
      · subst hc0
        rfl
      · have hmem : c ∈ behind_plus (has_plus phone) (digit_chars phone) :=
          mem_behind_plus hc hc0
        rw [hform] at hmem
        rcases List.mem_cons.mp hmem with rfl | hmem
        · rfl
        · rcases List.mem_cons.mp hmem with rfl | hmem
          · rfl
          · obtain ⟨d, hd, rfl⟩ := List.mem_map.mp hmem
            exact decimals.digitChar_isDigit (hn.digits d hd)
    rw [hread hlatin] at hform
    have hlength := congrArg List.length hform
    refine ⟨hlatin, fun hcode => not_lt.mp fun hshort => ?_, fun hbare => not_lt.mp fun hlong => ?_⟩
    · rw [if_pos ⟨hcode, hshort⟩] at hlength
      simp only [List.length_cons, List.length_map] at hlength
      omega
    · have hmisread : ¬Misread (has_plus phone) lead n.length := fun hm => by
        have hshort := hm.2
        omega
      rw [if_neg hmisread, if_pos ⟨hbare, hlong⟩] at hlength
      simp only [List.length_cons, List.length_map] at hlength
      omega
  · intro hfits
    rw [hread hfits.latin, if_neg fun hm => not_lt.mpr (hfits.code hm.1) hm.2,
      if_neg fun hb => not_lt.mpr (hfits.bare hb.1) hb.2]

end

/-! ## What is stored -/

/-- Whatever row the account has, it has the number. -/
def HasPhone (a : Nat) (p : Option String) (db : Db) : Prop :=
  ∀ row, db.users.get a = some row → row.phone_number = p

/-- The change leaves the numbers of the accounts, and adds none. -/
def keeps_phones : Change → Prop
  | .setUser o n => n.phone_number = o.phone_number
  | .addUser _ => False
  | _ => True

theorem phone_after_set {a : Nat} {db : Db} {o n row : UserPreference}
    (h : (db.apply (.setUser o n)).users.get a = some row) :
    ∃ old, db.users.get a = some old ∧ row.phone_number =
      if a = n.id then col o.phone_number n.phone_number old.phone_number
      else old.phone_number := by
  have hget := (Table.get_update db.users n.id (UserPreference.merge o n) (fun _ => rfl)
    (fun _ => rfl) a).symm.trans h
  split at hget
  · rename_i hid
    obtain ⟨old, hold, rfl⟩ := Option.map_eq_some_iff.mp hget
    exact ⟨old, hold, (if_pos hid).symm⟩
  · rename_i hid
    exact ⟨row, hget, (if_neg hid).symm⟩

theorem phone_change {a : Nat} {p : Option String} (db : Db) (c : Change) (hc : keeps_phones c)
    (h : HasPhone a p db) : HasPhone a p (db.apply c) := by
  cases c with
  | addUser u => cases hc
  | setUser o n =>
    intro row hrow
    obtain ⟨old, hold, hphone⟩ := phone_after_set hrow
    have hsame : col o.phone_number n.phone_number old.phone_number = old.phone_number := if_pos hc
    rw [hphone, hsame, ite_self]
    exact h old hold
  | setTelegramId id x =>
    intro row hrow
    rcases Table.get_rewrite_cases db.users id ({ · with telegram_user_id := x })
      (fun _ => rfl) a with hget | hget
    · exact h row (hget ▸ hrow)
    · have hrow' := hget.symm.trans hrow
      obtain ⟨old, hold, rfl⟩ := Option.map_eq_some_iff.mp hrow'
      have hphone := h old hold
      split <;> exact hphone
  | addAccount | setAccount | addLedger | addSubscription | setSubscription | deleteSubscription
  | setPool | addConfig | addRedemption | setRedemption | addPaymentRequest | setPaymentRequest
  | addAdminAction | addWallet | setWallet | addCreditLedger | addReferralEvent | addClick
  | setClick | addStarterConfig | setStarterConfig => exact h

theorem welcomes_keep_phones : Welcomes keeps_phones where
  account _ := trivial
  config := trivial
  add _ := trivial
  set _ _ := trivial
  entry _ := trivial
  user _ _ := rfl
  welcomed _ _ := trivial
  starter _ _ _ _ := trivial

theorem subscribes_keep_phones : Subscribes keeps_phones where
  add _ := trivial
  assign _ _ := trivial
  delete _ := trivial
  pool _ _ := trivial

/-- The program ends with the row of the account as it is then. -/
def EndsWith {α : Type} (a : Nat) (id : α → Nat) (x : Tx α) : Prop :=
  ∀ s r s', x.run s = (.ok r, s') → id r = a

theorem EndsWith.after {α β : Type} {a : Nat} {id : β → Nat} {x : Tx α} {f : α → Tx β}
    (h : ∀ v, EndsWith a id (f v)) : EndsWith a id (x >>= f) := by
  intro s r s' hrun
  rw [Prog.run_bind] at hrun
  generalize x.run s = out at hrun
  obtain ⟨_ | v, t⟩ := out
  · cases hrun
  · exact h v t r s' hrun

theorem ends_refreshed (user : UserPreference) : EndsWith user.id (·.id) (refreshed user) := by
  intro s r s' hrun
  unfold refreshed at hrun
  rw [Prog.run_read] at hrun
  cases hrun
  cases hget : s.view.users.get user.id with
  | none => rfl
  | some row => exact (s.view.users.get_eq_some.mp hget).2

/-- The mark of the onboarding leaves the account and its number. -/
theorem mark_keeps (user : UserPreference) : (mark_onboarding_state user).id = user.id ∧
    (mark_onboarding_state user).phone_number = user.phone_number := by
  unfold mark_onboarding_state
  split <;> exact ⟨rfl, rfl⟩

section
variable {db : Db} {s' : Session Db} {r : UserPreference} {phone : String}

theorem update_stores {user : UserPreference} {preferred_name : Option String} {commit : Bool}
    (huser : db.users.get user.id = some user)
    (hrun : (update_contact_profile user (some phone) preferred_name commit).run (.opened db) =
      (.ok r, s')) :
    r.id = user.id ∧ (s'.view.users.get user.id).isSome ∧
      HasPhone user.id (normalize_phone_number (some phone)) s'.view := by
  unfold update_contact_profile at hrun
  simp only [Option.isSome_some, if_true] at hrun
  generalize hknown : ({ user with
    phone_number := normalize_phone_number (some phone)
    preferred_name := _ } : UserPreference) = known at hrun
  have hmark := mark_keeps known
  have hid : (mark_onboarding_state known).id = user.id := by rw [hmark.1, ← hknown]
  have hphone : (mark_onboarding_state known).phone_number =
      normalize_phone_number (some phone) := by rw [hmark.2, ← hknown]
  generalize mark_onboarding_state known = marked at hrun hid hphone
  have hrow : HasPhone user.id (normalize_phone_number (some phone))
      (db.apply (.setUser user marked)) := by
    intro row hrow
    obtain ⟨old, hold, hrow⟩ := phone_after_set hrow
    obtain rfl := Option.some.inj (huser.symm.trans hold)
    rw [hrow, if_pos hid.symm, col_self]
    exact hphone
  have hthere : ((db.apply (.setUser user marked)).users.get user.id).isSome := by
    have hget := Table.get_update db.users marked.id (UserPreference.merge user marked)
      (fun _ => rfl) (fun _ => rfl) user.id
    rw [show (db.apply (.setUser user marked)).users.get user.id = _ from hget, if_pos hid.symm,
      huser]
    rfl
  rw [Prog.run_bind, Prog.run_flush] at hrun
  change Prog.continueWith _ (.ok (), ⟨db, db.apply (.setUser user marked)⟩) = _ at hrun
  rw [Prog.continueWith_ok, Prog.run_bind, Prog.run_publishIf, Prog.continueWith_ok] at hrun
  cases commit with
  | true =>
    have hend := ends_refreshed marked _ _ _ hrun
    rw [if_pos rfl] at hrun
    unfold refreshed at hrun
    rw [Prog.run_read] at hrun
    obtain ⟨-, rfl⟩ := Prod.mk.inj hrun
    exact ⟨hend.trans hid, hthere, hrow⟩
  | false =>
    obtain ⟨hr, rfl⟩ := Prod.mk.inj hrun
    obtain rfl := Except.ok.inj hr
    exact ⟨hid, hthere, hrow⟩

/-- What comes after the row was written ends with it. -/
theorem writes_on {x : Tx UserPreference} {a : Nat} {p : Option String} {s : Session Db}
    (hx : x.Writes keeps_phones) (hends : EndsWith a (·.id) x) (hstored : HasPhone a p s.stored)
    (hview : HasPhone a p s.view) (hrun : x.run s = (.ok r, s')) :
    r.id = a ∧ HasPhone a p s'.view := by
  refine ⟨hends _ _ _ hrun, ?_⟩
  have hkept := (hx.keeps (I := HasPhone a p) phone_change ⟨hstored, hview⟩).2
  rw [hrun] at hkept
  exact hkept

/-- The last part of the function: the row is written and read again. -/
def write_row (user user' : UserPreference) (commit : Bool) : Tx UserPreference := do
  Prog.flush (.setUser user user')
  Prog.publishIf commit
  refreshed user

theorem writes_write_row {user user' : UserPreference} (commit : Bool)
    (hphone : user'.phone_number = user.phone_number) :
    (write_row user user' commit).Writes keeps_phones :=
  (Prog.writes_flush (show keeps_phones (.setUser user user') from hphone)).bind fun _ =>
    (Prog.writes_publishIf _).bind fun _ => Prog.writes_read _

theorem ends_write_row (user user' : UserPreference) (commit : Bool) :
    EndsWith user.id (·.id) (write_row user user' commit) :=
  .after fun _ => .after fun _ => ends_refreshed user

/-- A row that has its old number still gets the new one. -/
theorem write_row_stores {user user' : UserPreference} {commit : Bool} {p : Option String}
    {t : Session Db} (ht : HasPhone user.id user.phone_number t.view) (hself : user.id = user'.id)
    (hphone : user'.phone_number = p) (hrun : (write_row user user' commit).run t = (.ok r, s')) :
    HasPhone r.id p s'.view := by
  have hid : r.id = user.id := ends_write_row user user' commit t r s' hrun
  rw [hid]
  have hset : HasPhone user.id p (t.view.apply (.setUser user user')) := by
    intro row hrow
    obtain ⟨old, hget, hrow⟩ := phone_after_set hrow
    rw [hrow, ht old hget, if_pos hself, col_self]
    exact hphone
  unfold write_row at hrun
  rw [Prog.run_bind, Prog.run_flush] at hrun
  change Prog.continueWith _ (.ok (), _) = _ at hrun
  rw [Prog.continueWith_ok, Prog.run_bind, Prog.run_publishIf, Prog.continueWith_ok] at hrun
  unfold refreshed at hrun
  rw [Prog.run_read] at hrun
  obtain ⟨-, rfl⟩ := Prod.mk.inj hrun
  rw [Session.view_commitIf]
  exact hset

theorem hasPhone_of_row {user : UserPreference} (huser : db.users.get user.id = some user) :
    HasPhone user.id user.phone_number db := by
  intro row hrow
  obtain rfl := Option.some.inj (huser.symm.trans hrow)
  rfl

theorem hasPhone_nextKey (db : Db) (p : Option String) : HasPhone db.users.nextKey p db := by
  intro row hrow
  obtain ⟨hmem, hid⟩ := db.users.get_eq_some.mp hrow
  exact absurd hid (db.users.key_lt_nextKey hmem).ne

theorem hasPhone_added {u : UserPreference} (hu : db.users.Accepts u) :
    HasPhone db.users.nextKey u.phone_number (db.apply (.addUser u)) := by
  intro row hrow
  obtain rfl := Option.some.inj ((Table.get_insert_new hu).symm.trans hrow)
  rfl

theorem normalized_ne_empty {phone : Option String} {p : String}
    (hp : normalize_phone_number phone = some p) : p ≠ "" := by
  intro hempty
  cases phone with
  | none => cases hp
  | some phone =>
    rw [hempty, normalize_eq] at hp
    split at hp
    · cases hp
    · have hlist := congrArg String.toList (Option.some.inj hp)
      rw [String.toList_ofList] at hlist
      cases hlist

theorem create_stores {now : Datetime} {telegram_user_id : Int}
    {first_name username preferred_name : Option String} {admin_telegram_id : Option Int}
    {is_admin commit : Bool} {p : String}
    (hp : normalize_phone_number (some phone) = some p)
    (hrun : (create_or_restore_user now telegram_user_id first_name username (some phone)
      preferred_name admin_telegram_id is_admin commit).run (.opened db) = (.ok r, s')) :
    HasPhone r.id (some p) s'.view := by
  unfold create_or_restore_user at hrun
  rw [Prog.run_bind, Prog.run_read, Prog.continueWith_ok] at hrun
  simp only [hp] at hrun
  generalize hfirst : (Session.opened db).view.users.first _ = found at hrun
  cases found with
  | none =>
    simp only at hrun
    rw [Prog.run_bind, Prog.run_read, Prog.continueWith_ok, Prog.run_bind, Prog.run_flush] at hrun
    generalize (if (is_admin || decide (admin_telegram_id = some telegram_user_id)) = true
      then "active" else "pending_onboarding") = status at hrun
    split at hrun
    · rename_i hadmits
      have haccepts := of_decide_eq_true hadmits
      rw [Prog.continueWith_ok] at hrun
      have hend := writes_on ?_ ?_ (hasPhone_nextKey db _) (hasPhone_added haccepts) hrun
      · exact hend.1 ▸ hend.2
      · refine (writes_starter welcomes_keep_phones _).bind fun _ => ?_
        refine (Prog.writes_read _).bind fun _ => Prog.writes_ite ?_ ?_
        · exact (writes_trial subscribes_keep_phones (fun _ => rfl) (fun _ => trivial) _ _
            _).attempt.bind fun _ => writes_write_row commit (mark_keeps _).2
        · exact writes_write_row commit (mark_keeps _).2
      · refine .after fun _ => .after fun _ => ?_
        split
        · exact .after fun _ => ends_write_row _ _ commit
        · exact ends_write_row _ _ commit
    · cases hrun
  | some user =>
    simp only at hrun
    have hold : HasPhone user.id user.phone_number db :=
      hasPhone_of_row (db.users.get_eq_some.mpr ⟨(Table.first_mem hfirst).1, rfl⟩)
    generalize hknown : restored { user with telegram_user_id := some telegram_user_id } first_name
      username preferred_name (some p) _ = known at hrun
    have htruthy : truthy (some p) = true := by
      simp [truthy, truthyKey, normalized_ne_empty hp]
    have hphone : (mark_onboarding_state known).phone_number = some p := by
      rw [(mark_keeps known).2, ← hknown]
      exact if_pos htruthy
    have hself : user.id = (mark_onboarding_state known).id := by
      rw [(mark_keeps known).1, ← hknown]
      rfl
    split at hrun
    · rw [Prog.run_bind, Prog.run_flush] at hrun
      split at hrun
      · rw [Prog.continueWith_ok] at hrun
        exact write_row_stores (phone_change db (.setTelegramId user.id _) trivial hold) hself
          hphone hrun
      · cases hrun
    · exact write_row_stores hold hself hphone hrun

end

/-! ## What a number finds -/

/-- The number finds the account. -/
def Finds (db : Db) (phone : String) (a : Nat) : Prop :=
  ∃ user, ((get_user_by_phone (some phone)).run (.opened db)).1 = .ok (some user) ∧ user.id = a

/-- Only the account has the number, in any of the three forms that are looked up. -/
def Alone (db : Db) (n : List Nat) (a : Nat) : Prop :=
  ∀ user ∈ db.users.rows, user.id ≠ a →
    user.phone_number.any (fun p => p ∈ phone_candidates (compact n)) = false

theorem singleton_of_nodup {α : Type} {l : List α} {a : α} (hl : l.Nodup) (ha : a ∈ l)
    (hall : ∀ x ∈ l, x = a) : l = [a] := by
  cases l with
  | nil => cases ha
  | cons x rest =>
    obtain rfl := hall x List.mem_cons_self
    cases rest with
    | nil => rfl
    | cons y rest =>
      have hy := hall y (List.mem_cons_of_mem _ List.mem_cons_self)
      exact absurd (hy ▸ List.mem_cons_self) (List.nodup_cons.mp hl).1

/-- A number finds an account that has one of its forms, and nobody else does. -/
theorem finds_iff {db : Db} {phone normalized : String} {a : Nat} {row : UserPreference}
    (hnormal : normalize_phone_number (some phone) = some normalized)
    (hrow : db.users.get a = some row) :
    Finds db phone a ↔
      row.phone_number.any (fun p => p ∈ phone_candidates normalized) = true ∧
      ∀ user ∈ db.users.rows, user.id ≠ a →
        user.phone_number.any (fun p => p ∈ phone_candidates normalized) = false := by
  obtain ⟨hmem, hid⟩ := db.users.get_eq_some.mp hrow
  change row.id = a at hid
  have hfound : ∀ user, found_by_phone db phone = .ok (some user) ↔
      db.users.rows.filter (fun u => u.phone_number.any fun p =>
        p ∈ phone_candidates normalized) = [user] := by
    intro user
    unfold found_by_phone
    rw [hnormal]
    simp only
    generalize db.users.rows.filter _ = found
    rcases found with _ | ⟨u, _ | ⟨v, rest⟩⟩ <;> simp
  unfold Finds
  simp only [run_get_user_by_phone, Session.view_opened, hfound]
  constructor
  · rintro ⟨user, hlist, huser⟩
    have hin : ∀ u, u ∈ db.users.rows ∧ u.phone_number.any (fun p =>
        p ∈ phone_candidates normalized) = true ↔ u = user := by
      intro u
      exact List.mem_filter.symm.trans ((Iff.of_eq (congrArg (u ∈ ·) hlist)).trans
        List.mem_singleton)
    have hsame : row = user :=
      db.users.key_unique hmem ((hin user).mpr rfl).1 (hid.trans huser.symm)
    refine ⟨((hin row).mpr hsame).2, fun u hu hother => eq_false_of_ne_true fun hcandidate => ?_⟩
    exact hother (((hin u).mp ⟨hu, hcandidate⟩) ▸ huser)
  · rintro ⟨hcandidate, hothers⟩
    refine ⟨row, singleton_of_nodup ?_ (List.mem_filter.mpr ⟨hmem, hcandidate⟩) ?_, hid⟩
    · exact (List.Nodup.of_map _ db.users.keys).filter _
    · intro u hu
      obtain ⟨hu, hphone⟩ := List.mem_filter.mp hu
      by_contra hne
      have hother : u.id ≠ a := fun h => hne (db.users.key_unique hu hmem (h.trans hid.symm))
      rw [hothers u hu hother] at hphone
      cases hphone

/-- A compact form is looked up under no other compact form. -/
theorem compact_mem_candidates {cs ds : List Char} :
    String.ofList ('+' :: cs) ∈ phone_candidates (String.ofList ('+' :: ds)) ↔
      String.ofList ('+' :: cs) = String.ofList ('+' :: ds) := by
  constructor
  · intro h
    unfold phone_candidates at h
    rw [List.mem_append, List.mem_cons, List.mem_singleton] at h
    rcases h with (h | h) | h
    · exact h
    · rw [String.ofList_inj, String.toList_ofList] at h
      have hhead := List.head?_dropWhile_not (fun c => decide (c = '+')) ('+' :: ds)
      rw [← h] at hhead
      simp at hhead
    · split at h
      · rw [List.mem_singleton, String.ofList_inj] at h
        cases h
      · cases h
  · intro h
    rw [h]
    exact List.mem_append_left _ List.mem_cons_self

/-! ## The law -/

/-- A call has stored the number with the account. -/
inductive StoredBy : Db → Nat → String → Prop
  | create_or_restore_user {db : Db} {now : Datetime} {telegram_user_id : Int}
      {first_name username preferred_name : Option String} {admin_telegram_id : Option Int}
      {is_admin commit : Bool} {phone : String} {r : UserPreference} {s' : Session Db} :
      (create_or_restore_user now telegram_user_id first_name username (some phone)
        preferred_name admin_telegram_id is_admin commit).run (.opened db) = (.ok r, s') →
      (s'.view.users.get r.id).isSome → StoredBy s'.view r.id phone
  | update_contact_profile {db : Db} {user : UserPreference} {preferred_name : Option String}
      {commit : Bool} {phone : String} {r : UserPreference} {s' : Session Db} :
      db.users.get user.id = some user →
      (update_contact_profile user (some phone) preferred_name commit).run (.opened db) =
        (.ok r, s') → StoredBy s'.view user.id phone

section
variable {n : List Nat} {lead : Lead} {phone : String}

theorem spells_some (hn : National n) (h : Spells n lead phone) :
    ∃ cs, normalize_phone_number (some phone) = some (String.ofList ('+' :: cs)) := by
  rw [normalize_eq, if_neg]
  · exact ⟨_, rfl⟩
  · intro hnone
    obtain ⟨d, rest, rfl, -⟩ := hn.start
    have hdigits := h.digits
    rw [hnone] at hdigits
    exact absurd hdigits.symm (by simp)

theorem StoredBy.row {db : Db} {a : Nat} (hn : National n) (h : Spells n lead phone)
    (hstored : StoredBy db a phone) :
    ∃ row, db.users.get a = some row ∧ row.phone_number = normalize_phone_number (some phone) := by
  obtain ⟨cs, hcs⟩ := spells_some hn h
  cases hstored with
  | create_or_restore_user hrun hthere =>
    obtain ⟨row, hrow⟩ := Option.isSome_iff_exists.mp hthere
    exact ⟨row, hrow, hcs ▸ create_stores hcs hrun row hrow⟩
  | update_contact_profile huser hrun =>
    obtain ⟨-, hthere, hphone⟩ := update_stores huser hrun
    obtain ⟨row, hrow⟩ := Option.isSome_iff_exists.mp hthere
    exact ⟨row, hrow, hphone row hrow⟩

theorem compact_injective {n' : List Nat} (hn : National n) (hn' : National n')
    (h : compact n = compact n') : n = n' := by
  have hchars : n.map Nat.digitChar = n'.map Nat.digitChar := by
    unfold compact at h
    rw [String.ofList_inj] at h
    exact (List.cons.inj (List.cons.inj (List.cons.inj h).2).2).2
  have hback : ∀ m : List Nat, (∀ d ∈ m, d < 10) →
      (m.map Nat.digitChar).map (fun c => (decimal c).getD 0) = m := by
    intro m hm
    rw [List.map_map]
    refine (List.map_congr_left fun d hd => ?_).trans (List.map_id m)
    rw [Function.comp_apply, decimals.decimal_of_digitChar (hm d hd)]
    rfl
  rw [← hback n hn.digits, hchars, hback n' hn'.digits]

end

/-- LAW: The compact form is stable. A text comes to the form of its number exactly if it fits,
and two numbers have two forms. A number that was stored so finds its account for the texts that
fit and for no others, unless somebody else has it too. -/
theorem phone_numbers_have_one_form {n : List Nat} (hn : National n) :
    (∀ phone normalized, normalize_phone_number (some phone) = some normalized →
      normalize_phone_number (some normalized) = some normalized) ∧
    (∀ lead phone, Spells n lead phone →
      (normalize_phone_number (some phone) = some (compact n) ↔ Fits n lead phone)) ∧
    (∀ n' lead lead' phone phone', National n' → Spells n lead phone →
      Spells n' lead' phone' → Fits n lead phone → Fits n' lead' phone' →
      normalize_phone_number (some phone) = normalize_phone_number (some phone') → n = n') ∧
    ∀ db a lead lead' stored phone, Spells n lead stored →
      Spells n lead' phone → StoredBy db a stored →
      (Fits n lead stored → (Finds db phone a ↔ Fits n lead' phone ∧ Alone db n a)) ∧
      (Fits n lead' phone → (Finds db phone a ↔ Fits n lead stored ∧ Alone db n a)) := by
  refine ⟨normalize_idempotent, fun lead phone => normalize_iff hn, ?_, ?_⟩
  · intro n' lead lead' phone phone' hn' h h' hfits hfits' hsame
    rw [(normalize_iff hn h).mpr hfits, (normalize_iff hn' h').mpr hfits'] at hsame
    exact compact_injective hn hn' (Option.some.inj hsame)
  · intro db a lead lead' stored phone hstored hphone hby
    obtain ⟨row, hrow, hnumber⟩ := hby.row hn hstored
    obtain ⟨cs, hcs⟩ := spells_some hn hstored
    obtain ⟨ds, hds⟩ := spells_some hn hphone
    have hiff := finds_iff hds hrow
    rw [hnumber, hcs] at hiff
    have hcandidate : (some (String.ofList ('+' :: cs))).any (fun p =>
        p ∈ phone_candidates (String.ofList ('+' :: ds))) = true ↔
        String.ofList ('+' :: cs) = String.ofList ('+' :: ds) := by
      rw [Option.any_some, decide_eq_true_iff, compact_mem_candidates]
    rw [hcandidate] at hiff
    have hfits := normalize_iff hn hstored
    have hfits' := normalize_iff hn hphone
    rw [hcs, Option.some_inj] at hfits
    rw [hds, Option.some_inj] at hfits'
    unfold Alone
    refine ⟨fun hok => ?_, fun hok => ?_⟩
    · rw [hiff, ← hfits', hfits.mpr hok]
      constructor
      · rintro ⟨hsame, halone⟩
        exact ⟨hsame.symm, hsame ▸ halone⟩
      · rintro ⟨hsame, halone⟩
        exact ⟨hsame.symm, hsame.symm ▸ halone⟩
    · rw [hiff, ← hfits, hfits'.mpr hok]

/-- 912 345 6789 -/
def mobile : List Nat := [9, 1, 2, 3, 4, 5, 6, 7, 8, 9]

theorem national_mobile : National mobile := ⟨by decide, 9, _, rfl, by decide⟩

/-- Written with Persian digits, the number has another form. -/
theorem a_persian_number_has_another_form :
    National mobile ∧ Spells mobile .zero "09123456789" ∧ Spells mobile .zero "۰۹۱۲۳۴۵۶۷۸۹" ∧
      normalize_phone_number (some "09123456789") ≠
        normalize_phone_number (some "۰۹۱۲۳۴۵۶۷۸۹") := by
  refine ⟨national_mobile, ⟨by decide +kernel, fun _ => by decide, fun h => ?_⟩,
    ⟨by decide +kernel, fun _ => by decide, fun h => ?_⟩, by decide +kernel⟩
  · cases h
  · cases h

/-- With Latin digits, both ways come to one form. -/
theorem a_latin_number_has_one_form :
    normalize_phone_number (some "0912 345 6789") =
      normalize_phone_number (some "+98-9123456789") := by
  have hzero : Spells mobile .zero "0912 345 6789" :=
    ⟨by decide +kernel, fun _ => by decide, fun h => by cases h⟩
  have hplus : Spells mobile .plus_code "+98-9123456789" :=
    ⟨by decide +kernel, fun h => absurd rfl h, fun _ => ⟨[], "98-9123456789".toList, by decide,
      (fun c hc => by cases hc), by decide⟩⟩
  rw [((phone_numbers_have_one_form national_mobile).2.1 _ _ hzero).mpr
      ⟨List.all_eq_true.mp (by decide +kernel), by decide, by decide⟩,
    ((phone_numbers_have_one_form national_mobile).2.1 _ _ hplus).mpr
      ⟨List.all_eq_true.mp (by decide +kernel), fun _ => by decide, by decide⟩]

end dr_boz.phone_numbers
