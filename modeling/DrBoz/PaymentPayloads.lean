-- The payload of an invoice: the fields of a purchase or of a top-up in one
-- text. The platform hands it back with the payment, and the bot reads the
-- fields from it. Nothing issues a payload of the third kind, the USD top-up,
-- any more; it has another first field.
import DrBoz.Texts

open dr_boz.py dr_boz.texts

namespace dr_boz.payment_payloads

def SUBSCRIPTION_PAYLOAD_PREFIX : String := "sub"
def TOMAN_TOPUP_PAYLOAD_PREFIX : String := "ttop"

structure SubscriptionPayload where
  user_id : Int
  plan_id : Int
  wallet_payment_toman : Int
  total_rial : Int
  created_at : Int
deriving DecidableEq

structure TomanTopupPayload where
  user_id : Int
  credit_amount_toman : Int
  payment_due_toman : Int
  total_rial : Int
  created_at : Int
deriving DecidableEq

inductive PaymentPayload where
  | subscription (payload : SubscriptionPayload)
  | toman_topup (payload : TomanTopupPayload)
deriving DecidableEq

/-! ## Writing -/

/-- The first field names the kind of the payload. -/
def payload_text (first : String) (numbers : List Int) : String :=
  join '|' (first.toList :: numbers.map str_of)

def fitting (payload message : String) : Except PyError String :=
  if 120 < payload.utf8ByteSize then .error (.value_error message) else .ok payload

def build_subscription_payload (now : Datetime)
    (user_id plan_id wallet_payment_toman total_rial : Int) : Except PyError String :=
  fitting (payload_text SUBSCRIPTION_PAYLOAD_PREFIX
    [user_id, plan_id, max 0 wallet_payment_toman, total_rial, unix_time now])
    "subscription payload is too long"

def build_toman_topup_payload (now : Datetime)
    (user_id credit_amount_toman payment_due_toman total_rial : Int) : Except PyError String :=
  fitting (payload_text TOMAN_TOPUP_PAYLOAD_PREFIX
    [user_id, max 0 credit_amount_toman, max 0 payment_due_toman, total_rial, unix_time now])
    "toman topup payload is too long"

/-! ## Reading -/

/-- The five numbers after the first field. -/
def payload_numbers (first : String) (payload : Option String) : Option (List Int) :=
  let parts := split '|' (strip (payload.getD ""))
  if parts.length = 6 ∧ parts.head? = some first then parts.tail.mapM int_of else none

def SubscriptionPayload.Valid (p : SubscriptionPayload) : Prop :=
  0 < p.user_id ∧ 0 < p.plan_id ∧ 0 ≤ p.wallet_payment_toman ∧ 0 < p.total_rial ∧ 0 < p.created_at

def TomanTopupPayload.Valid (p : TomanTopupPayload) : Prop :=
  0 < p.user_id ∧ 0 < p.credit_amount_toman ∧ 0 < p.payment_due_toman ∧ 0 < p.total_rial ∧
    0 < p.created_at

instance (p : SubscriptionPayload) : Decidable p.Valid :=
  inferInstanceAs (Decidable (_ ∧ _ ∧ _ ∧ _ ∧ _))

instance (p : TomanTopupPayload) : Decidable p.Valid :=
  inferInstanceAs (Decidable (_ ∧ _ ∧ _ ∧ _ ∧ _))

def parse_subscription_payload (payload : Option String) : Option SubscriptionPayload :=
  match payload_numbers SUBSCRIPTION_PAYLOAD_PREFIX payload with
  | some [user_id, plan_id, wallet_payment_toman, total_rial, created_at] =>
    let p : SubscriptionPayload :=
      { user_id, plan_id, wallet_payment_toman, total_rial, created_at }
    if p.Valid then some p else none
  | _ => none

def parse_toman_topup_payload (payload : Option String) : Option TomanTopupPayload :=
  match payload_numbers TOMAN_TOPUP_PAYLOAD_PREFIX payload with
  | some [user_id, credit_amount_toman, payment_due_toman, total_rial, created_at] =>
    let p : TomanTopupPayload :=
      { user_id, credit_amount_toman, payment_due_toman, total_rial, created_at }
    if p.Valid then some p else none
  | _ => none

def parse_payment_payload (payload : Option String) : Option PaymentPayload :=
  match parse_subscription_payload payload with
  | some p => some (.subscription p)
  | none => (parse_toman_topup_payload payload).map .toman_topup

def PaymentPayload.total_rial : PaymentPayload → Int
  | .subscription p => p.total_rial
  | .toman_topup p => p.total_rial

def PaymentPayload.user_id : PaymentPayload → Int
  | .subscription p => p.user_id
  | .toman_topup p => p.user_id

example : parse_payment_payload (some "sub|7|1|0|800000|1700000000") =
    some (.subscription ⟨7, 1, 0, 800000, 1700000000⟩) := by decide +kernel

theorem valid_subscription {text : Option String} {p : SubscriptionPayload}
    (h : parse_subscription_payload text = some p) : p.Valid := by
  unfold parse_subscription_payload at h
  split at h
  · simp only at h
    split_ifs at h with hv
    cases h
    exact hv
  · cases h

theorem valid_topup {text : Option String} {p : TomanTopupPayload}
    (h : parse_toman_topup_payload text = some p) : p.Valid := by
  unfold parse_toman_topup_payload at h
  split at h
  · simp only at h
    split_ifs at h with hv
    cases h
    exact hv
  · cases h

/-! ## A payload is read as it was written -/

theorem mem_intercalate {α : Type} {mark c : α} {ls : List (List α)}
    (h : c ∈ [mark].intercalate ls) : c = mark ∨ ∃ l ∈ ls, c ∈ l := by
  induction ls with
  | nil => simp at h
  | cons l ls ih =>
    cases ls with
    | nil => exact .inr ⟨l, List.mem_cons_self .., by simpa using h⟩
    | cons k ls =>
      rw [List.intercalate_cons_cons] at h
      simp only [List.append_assoc, List.mem_append, List.mem_singleton] at h
      rcases h with h | h | h
      · exact .inr ⟨l, List.mem_cons_self .., h⟩
      · exact .inl h
      · rcases ih h with h | ⟨x, hx, hc⟩
        · exact .inl h
        · exact .inr ⟨x, List.mem_cons_of_mem _ hx, hc⟩

theorem mapM_int_of (ns : List Int) : (ns.map (String.ofList ∘ str_of)).mapM int_of = some ns := by
  induction ns with
  | nil => rfl
  | cons n ns ih => simp [List.mapM_cons, int_of_str, ih]

theorem plain_of_all {text : String} (h : (text.toList.all fun c => !isSpace c) = true) :
    ∀ c ∈ text.toList, isSpace c = false := by
  simpa using h

/-- A first field without blanks and marks leaves the fields apart. -/
theorem split_payload_text (first : String) (numbers : List Int)
    (hplain : ∀ c ∈ first.toList, isSpace c = false) (hmark : '|' ∉ first.toList) :
    split '|' (strip (payload_text first numbers)) =
      first :: numbers.map (String.ofList ∘ str_of) := by
  have hspace : ∀ c ∈ (payload_text first numbers).toList, isSpace c = false := by
    intro c hc
    rw [payload_text, join, String.toList_ofList] at hc
    rcases mem_intercalate hc with rfl | ⟨l, hl, hc⟩
    · decide
    · rcases List.mem_cons.mp hl with rfl | hl
      · exact hplain c hc
      · obtain ⟨n, -, rfl⟩ := List.mem_map.mp hl
        exact str_of_plain n c hc
  have hfields : ∀ f ∈ first.toList :: numbers.map str_of, '|' ∉ f := by
    intro f hf
    rcases List.mem_cons.mp hf with rfl | hf
    · exact hmark
    · obtain ⟨n, -, rfl⟩ := List.mem_map.mp hf
      exact mark_not_in_str (by decide) (by decide) n
  rw [strip_plain hspace, payload_text, split_join hfields (by simp)]
  simp only [List.map_cons, String.ofList_toList, List.map_map]

/-- So the numbers stay readable. -/
theorem numbers_of_text (first : String) (numbers : List Int)
    (hplain : ∀ c ∈ first.toList, isSpace c = false) (hmark : '|' ∉ first.toList)
    (hlen : numbers.length = 5) (other : String) :
    payload_numbers other (some (payload_text first numbers)) =
      if other = first then some numbers else none := by
  unfold payload_numbers
  simp only [Option.getD_some]
  rw [split_payload_text first numbers hplain hmark]
  simp only [List.length_cons, List.length_map,
    hlen, List.head?_cons, List.tail_cons, Option.some.injEq, true_and]
  by_cases h : other = first
  · rw [if_pos h, if_pos h.symm]
    exact mapM_int_of numbers
  · rw [if_neg h, if_neg (Ne.symm h)]

theorem fitting_ok {payload message text : String} (h : fitting payload message = .ok text) :
    text = payload := by
  unfold fitting at h
  split at h
  · cases h
  · exact (Except.ok.inj h).symm

/-- The bot reads a subscription payload as it wrote it, when its fields are
good. -/
theorem parse_built_subscription {now : Datetime} {user_id plan_id wallet total : Int}
    {text : String} (h : build_subscription_payload now user_id plan_id wallet total = .ok text) :
    parse_payment_payload (some text) =
      if (⟨user_id, plan_id, max 0 wallet, total, unix_time now⟩ : SubscriptionPayload).Valid then
        some (.subscription ⟨user_id, plan_id, max 0 wallet, total, unix_time now⟩)
      else none := by
  have hread := numbers_of_text SUBSCRIPTION_PAYLOAD_PREFIX
    [user_id, plan_id, max 0 wallet, total, unix_time now]
    (plain_of_all (by decide +kernel)) (by decide +kernel) rfl
  rw [fitting_ok h]
  unfold parse_payment_payload parse_subscription_payload parse_toman_topup_payload
  rw [hread, hread, if_pos rfl, if_neg (by decide)]
  simp only [Option.map_none]
  split_ifs
  · rfl
  · rfl

end dr_boz.payment_payloads
