-- Law of the cost of a message (`_calculate_cost` of `spending.py`): which
-- prices are taken for a model, when a message costs nothing, and that more
-- tokens never cost less where the provider reports both sides.
import DrBoz.CliLines
import DrBoz.Roundings

open dr_boz.py dr_boz.roundings dr_boz.cli_lines

namespace dr_boz.message_costs

abbrev Text := List Char

/-! ## The model -/

/-- The prices of a model, for a million tokens. -/
abbrev ModelPrice := List (String × PyFloat)

/-- The configuration, in the order of its entries. -/
abbrev Pricing := List (Text × ModelPrice)

structure Usage where
  input_tokens : Option Int := none
  output_tokens : Option Int := none
  total_tokens : Option Int := none

/-- `key in model_id or model_id in key` -/
def matching (model_id key : Text) : Bool :=
  (model_id.tails.any fun rest => key.isPrefixOf rest) ||
    key.tails.any fun rest => model_id.isPrefixOf rest

def model_price (pricing : Pricing) (model_id : Text) : ModelPrice :=
  let own := (pricing.lookup model_id).getD []
  if own.isEmpty then ((pricing.find? fun entry => matching model_id entry.1).map Prod.snd).getD own
  else own

def input_price (price : ModelPrice) : PyFloat := (price.lookup "input").getD 500

def output_price (price : ModelPrice) : PyFloat := (price.lookup "output").getD 1000

/-- The tokens as they are reported, or half of the total each. -/
def reported (usage : Usage) : Int × Int :=
  let input_tokens := usage.input_tokens.getD 0
  let output_tokens := usage.output_tokens.getD 0
  let total_tokens := usage.total_tokens.getD 0
  if input_tokens = 0 ∧ output_tokens = 0 ∧ 0 < total_tokens then
    (total_tokens / 2, total_tokens - total_tokens / 2)
  else (input_tokens, output_tokens)

/-- The tokens of the answer may be estimated from its text. -/
def tokens (usage : Usage) (output_text : Text) : Int × Int :=
  let (input_tokens, output_tokens) := reported usage
  if output_tokens = 0 ∧ output_text ≠ [] then (input_tokens, max 1 (output_text.length / 4))
  else (input_tokens, output_tokens)

/-- `(tokens / 1_000_000) * price` -/
def side_cost (tokens : Int) (price : PyFloat) : PyFloat := f64 (f64 (tokens / 1000000) * price)

/-- The cost of tokens, some of which are there. -/
def cost_of (price : ModelPrice) (tokens : Int × Int) : Int :=
  let total_cost := truncated
    (f64 (side_cost tokens.1 (input_price price) + side_cost tokens.2 (output_price price)))
  if total_cost ≤ 0 then 1 else total_cost

def calculate_cost (pricing : Pricing) (model_id : Text) (usage : Usage) (output_text : Text) :
    Int :=
  let tokens := tokens usage output_text
  if tokens = (0, 0) then 0 else cost_of (model_price pricing model_id) tokens

/-! ## Which prices -/

/-- The prices that are taken for a model: its own, or those of the first entry that matches. -/
inductive Taken (pricing : Pricing) (model_id : Text) : ModelPrice → Prop
  | own (price : ModelPrice) : pricing.lookup model_id = some price → price ≠ [] →
      Taken pricing model_id price
  | first (before after : Pricing) (key : Text) (price : ModelPrice) :
      (pricing.lookup model_id).getD [] = [] → pricing = before ++ (key, price) :: after →
      matching model_id key = true → (∀ entry ∈ before, matching model_id entry.1 = false) →
      Taken pricing model_id price
  | default : (∀ entry ∈ pricing, matching model_id entry.1 = false) → Taken pricing model_id []

/-- Two matching entries have the same prices. -/
def Agree (pricing : Pricing) (model_id : Text) : Prop :=
  ∀ entry ∈ pricing, ∀ other ∈ pricing, matching model_id entry.1 = true →
    matching model_id other.1 = true → entry.2 = other.2

section
variable {pricing : Pricing} {model_id : Text}

theorem model_price_taken (pricing : Pricing) (model_id : Text) :
    Taken pricing model_id (model_price pricing model_id) := by
  unfold model_price
  simp only
  split
  · rename_i hempty
    have hown : (pricing.lookup model_id).getD [] = [] := List.isEmpty_iff.mp hempty
    cases hfound : pricing.find? fun entry => matching model_id entry.1 with
    | none =>
      rw [hown]
      exact .default fun entry hentry =>
        eq_false_of_ne_true (List.find?_eq_none.mp hfound entry hentry)
    | some entry =>
      obtain ⟨hmatching, before, after, hpricing, hbefore⟩ :=
        List.find?_eq_some_iff_append.mp hfound
      exact .first before after entry.1 entry.2 hown hpricing hmatching fun e he => by
        simpa using hbefore e he
  · rename_i hsome
    cases hlookup : pricing.lookup model_id with
    | none =>
      rw [hlookup] at hsome
      exact absurd rfl hsome
    | some price =>
      rw [hlookup] at hsome
      exact .own price hlookup fun hnone => hsome (List.isEmpty_iff.mpr hnone)

theorem lookup_eq_some {pricing : Pricing} (hkeys : (pricing.map Prod.fst).Nodup)
    {price : ModelPrice} : pricing.lookup model_id = some price ↔ (model_id, price) ∈ pricing := by
  induction pricing with
  | nil => simp
  | cons entry pricing ih =>
    obtain ⟨key, first⟩ := entry
    obtain ⟨hnew, hrest⟩ := List.nodup_cons.mp hkeys
    rw [List.lookup_cons, List.mem_cons]
    by_cases hkey : model_id = key
    · subst hkey
      have hnot : (model_id, price) ∉ pricing := fun h =>
        hnew (List.mem_map.mpr ⟨_, h, rfl⟩)
      simp [hnot, eq_comm]
    · rw [beq_false_of_ne hkey]
      simp [hkey, ih hrest]

theorem lookup_perm {pricing' : Pricing} (hkeys : (pricing.map Prod.fst).Nodup)
    (hperm : pricing'.Perm pricing) : pricing'.lookup model_id = pricing.lookup model_id := by
  refine Option.ext fun price => ?_
  rw [lookup_eq_some hkeys, lookup_eq_some ((hperm.map _).nodup_iff.mpr hkeys), hperm.mem_iff]

/-- The order of the entries does not matter where the model has prices of its own, or where the
entries that match agree. -/
theorem model_price_perm {pricing' : Pricing} (hkeys : (pricing.map Prod.fst).Nodup)
    (hperm : pricing'.Perm pricing)
    (h : (pricing.lookup model_id).getD [] ≠ [] ∨ Agree pricing model_id) :
    model_price pricing' model_id = model_price pricing model_id := by
  have hlookup : pricing'.lookup model_id = pricing.lookup model_id :=
    lookup_perm hkeys hperm
  unfold model_price
  rw [hlookup]
  simp only
  split
  · rename_i hempty
    have hagree := h.resolve_left fun hne => hne (List.isEmpty_iff.mp hempty)
    have hmem : ∀ entry, entry ∈ pricing' ↔ entry ∈ pricing := fun _ => hperm.mem_iff
    have hmatches : ∀ {list : Pricing} {entry : Text × ModelPrice},
        (list.find? fun e => matching model_id e.1) = some entry →
          matching model_id entry.1 = true := fun h =>
      List.find?_some (p := fun e : Text × ModelPrice => matching model_id e.1) h
    cases hfound : pricing.find? fun entry => matching model_id entry.1 with
    | none =>
      have hfound' : (pricing'.find? fun entry => matching model_id entry.1) = none :=
        List.find?_eq_none.mpr fun entry hentry =>
          List.find?_eq_none.mp hfound entry ((hmem entry).mp hentry)
      rw [hfound']
    | some entry =>
      have hin := List.mem_of_find?_eq_some hfound
      have hmatching := hmatches hfound
      cases hfound' : pricing'.find? fun entry => matching model_id entry.1 with
      | none =>
        exact absurd hmatching (List.find?_eq_none.mp hfound' entry ((hmem entry).mpr hin))
      | some other =>
        have hin' := (hmem other).mp (List.mem_of_find?_eq_some hfound')
        exact hagree other hin' entry hin (hmatches hfound') hmatching
  · rfl

end

/-! ## When a message costs nothing -/

/-- Neither tokens nor a text are known. -/
def NothingKnown (usage : Usage) (output_text : Text) : Prop :=
  usage.input_tokens.getD 0 = 0 ∧ usage.output_tokens.getD 0 = 0 ∧
    usage.total_tokens.getD 0 ≤ 0 ∧ output_text = []

theorem cost_of_pos (price : ModelPrice) (tokens : Int × Int) : 0 < cost_of price tokens := by
  unfold cost_of
  simp only
  split
  · exact Int.zero_lt_one
  · rename_i hpos
    exact not_le.mp hpos

theorem tokens_zero_iff (usage : Usage) (output_text : Text) :
    tokens usage output_text = (0, 0) ↔ NothingKnown usage output_text := by
  unfold tokens reported NothingKnown
  simp only
  generalize usage.input_tokens.getD 0 = i
  generalize usage.output_tokens.getD 0 = o
  generalize usage.total_tokens.getD 0 = t
  by_cases htotal : i = 0 ∧ o = 0 ∧ 0 < t
  · have hhalf : t - t / 2 ≠ 0 := by omega
    rw [if_pos htotal]
    simp only
    rw [if_neg fun h => hhalf h.1]
    refine iff_of_false (fun h => hhalf (Prod.mk.inj h).2) fun h => ?_
    exact not_le.mpr htotal.2.2 h.2.2.1
  · rw [if_neg htotal]
    simp only
    by_cases htext : o = 0 ∧ output_text ≠ []
    · rw [if_pos htext]
      refine iff_of_false (fun h => ?_) fun h => htext.2 h.2.2.2
      have hpos := le_max_left 1 ((output_text.length : Int) / 4)
      have hzero := (Prod.mk.inj h).2
      omega
    · rw [if_neg htext, Prod.mk.injEq]
      constructor
      · rintro ⟨rfl, rfl⟩
        refine ⟨rfl, rfl, not_lt.mp fun ht => htotal ⟨rfl, rfl, ht⟩, ?_⟩
        by_contra hne
        exact htext ⟨rfl, hne⟩
      · exact fun h => ⟨h.1, h.2.1⟩

theorem calculate_cost_zero_iff (pricing : Pricing) (model_id : Text) (usage : Usage)
    (output_text : Text) : calculate_cost pricing model_id usage output_text = 0 ↔
      NothingKnown usage output_text := by
  have htokens := tokens_zero_iff usage output_text
  unfold calculate_cost
  rw [← htokens]
  by_cases hzero : tokens usage output_text = (0, 0)
  · rw [if_pos hzero]
    exact iff_of_true rfl hzero
  · rw [if_neg hzero]
    exact iff_of_false (cost_of_pos _ _).ne' hzero

/-! ## More tokens -/

/-- Both sides are reported: nothing is estimated. -/
def Reported (usage : Usage) (output_text : Text) : Prop :=
  (usage.input_tokens.getD 0 = 0 → usage.output_tokens.getD 0 = 0 →
    usage.total_tokens.getD 0 ≤ 0) ∧ (usage.output_tokens.getD 0 = 0 → output_text = [])

theorem tokens_reported {usage : Usage} {output_text : Text} (h : Reported usage output_text) :
    tokens usage output_text = (usage.input_tokens.getD 0, usage.output_tokens.getD 0) := by
  have hreported : reported usage = (usage.input_tokens.getD 0, usage.output_tokens.getD 0) := by
    unfold reported
    exact if_neg fun htotal => not_lt.mpr (h.1 htotal.1 htotal.2.1) htotal.2.2
  unfold tokens
  rw [hreported]
  exact if_neg fun htext => htext.2 (h.2 htext.1)

theorem f64_mono {p q : ℚ} (hp : 0 ≤ p) (h : p ≤ q) : f64 p ≤ f64 q :=
  roundSig_mono (by norm_num) (by norm_num) hp h

theorem f64_nonneg {q : ℚ} (hq : 0 ≤ q) : 0 ≤ f64 q := by
  have hzero : f64 0 = 0 := by
    unfold f64 roundSig
    exact if_pos rfl
  exact hzero ▸ f64_mono (le_refl 0) hq

theorem side_cost_mono {n m : Int} {price : PyFloat} (hprice : 0 ≤ price) (hn : 0 ≤ n)
    (h : n ≤ m) : 0 ≤ side_cost n price ∧ side_cost n price ≤ side_cost m price := by
  have hn' : (0 : ℚ) ≤ n / 1000000 := div_nonneg (by exact_mod_cast hn) (by norm_num)
  have hle : (n : ℚ) / 1000000 ≤ m / 1000000 :=
    div_le_div_of_nonneg_right (by exact_mod_cast h) (by norm_num)
  have hshare := f64_nonneg hn'
  have hproduct : 0 ≤ f64 (n / 1000000) * price := mul_nonneg hshare hprice
  exact ⟨f64_nonneg hproduct,
    f64_mono hproduct (mul_le_mul_of_nonneg_right (f64_mono hn' hle) hprice)⟩

theorem truncated_mono {x y : PyFloat} (hx : 0 ≤ x) (h : x ≤ y) : truncated x ≤ truncated y := by
  unfold truncated
  rw [if_pos hx, if_pos (hx.trans h)]
  exact Int.floor_le_floor h

theorem cost_of_mono {price : ModelPrice} (hinput : 0 ≤ input_price price)
    (houtput : 0 ≤ output_price price) {i o i' o' : Int} (hi : 0 ≤ i) (ho : 0 ≤ o) (hii : i ≤ i')
    (hoo : o ≤ o') : cost_of price (i, o) ≤ cost_of price (i', o') := by
  obtain ⟨hin, hin'⟩ := side_cost_mono hinput hi hii
  obtain ⟨hout, hout'⟩ := side_cost_mono houtput ho hoo
  have hsum := add_nonneg hin hout
  have htotal := truncated_mono (f64_nonneg hsum) (f64_mono hsum (add_le_add hin' hout'))
  unfold cost_of
  simp only
  split <;> split <;> omega

/-- LAW: A model has its own prices, or those of the first entry that matches, and the order of
the entries does not matter where it has its own or the entries that match agree. A message
costs nothing exactly if neither tokens nor a text are known. And more tokens never cost less,
where no side is estimated. -/
theorem message_costs_are_well_defined (pricing : Pricing) (model_id : Text) :
    Taken pricing model_id (model_price pricing model_id) ∧
    (∀ pricing' usage output_text, (pricing.map Prod.fst).Nodup → pricing'.Perm pricing →
      (pricing.lookup model_id).getD [] ≠ [] ∨ Agree pricing model_id →
      calculate_cost pricing' model_id usage output_text =
        calculate_cost pricing model_id usage output_text) ∧
    (∀ usage output_text, calculate_cost pricing model_id usage output_text = 0 ↔
      NothingKnown usage output_text) ∧
    ∀ usage usage' output_text, 0 ≤ input_price (model_price pricing model_id) →
      0 ≤ output_price (model_price pricing model_id) →
      0 ≤ usage.input_tokens.getD 0 → 0 ≤ usage.output_tokens.getD 0 →
      usage.input_tokens.getD 0 ≤ usage'.input_tokens.getD 0 →
      usage.output_tokens.getD 0 ≤ usage'.output_tokens.getD 0 →
      Reported usage output_text → Reported usage' output_text →
      calculate_cost pricing model_id usage output_text ≤
        calculate_cost pricing model_id usage' output_text := by
  refine ⟨model_price_taken pricing model_id, ?_, calculate_cost_zero_iff pricing model_id, ?_⟩
  · intro pricing' usage output_text hkeys hperm h
    unfold calculate_cost
    rw [model_price_perm hkeys hperm h]
  · intro usage usage' output_text hinput houtput hi ho hii hoo hreported hreported'
    unfold calculate_cost
    simp only
    rw [tokens_reported hreported, tokens_reported hreported']
    by_cases hzero : (usage.input_tokens.getD 0, usage.output_tokens.getD 0) = ((0, 0) : Int × Int)
    · rw [if_pos hzero]
      split
      · exact le_refl 0
      · exact (cost_of_pos _ _).le
    · have hzero' : (usage'.input_tokens.getD 0, usage'.output_tokens.getD 0) ≠
          ((0, 0) : Int × Int) := by
        intro h
        obtain ⟨hi', ho'⟩ := Prod.mk.inj h
        exact hzero (Prod.ext (by simp only; omega) (by simp only; omega))
      rw [if_neg hzero, if_neg hzero']
      exact cost_of_mono hinput houtput hi ho hii hoo

/-- Prices of an input token only. -/
def priced (price : PyFloat) : ModelPrice := [("input", price), ("output", 0)]

/-- Two names that are parts of the model's name. -/
def two_entries : Pricing := [(['g'], priced 1), (['g', 'p'], priced 2)]

def a_million : Usage := { input_tokens := some 1000000 }

/-- The first entry that matches is taken, though another one matches more of the name. A token
that is reported can cost less than the half of a total, and more tokens can cost less at a
price below zero or from a count below zero. -/
theorem costs_depend_on_order_and_fall :
    calculate_cost two_entries ['g', 'p', 't'] a_million [] = 1 ∧
      calculate_cost two_entries.reverse ['g', 'p', 't'] a_million [] = 2 ∧
      calculate_cost [(['g'], priced 1000)] ['g'] { total_tokens := some 1000000 } [] = 500 ∧
      calculate_cost [(['g'], priced 1000)] ['g']
        { input_tokens := some 1, total_tokens := some 1000000 } [] = 1 ∧
      calculate_cost [(['g'], [("input", 2), ("output", -1)])] ['g'] a_million [] = 2 ∧
      calculate_cost [(['g'], [("input", 2), ("output", -1)])] ['g']
        { a_million with output_tokens := some 1000000 } [] = 1 ∧
      calculate_cost [] ['g'] { input_tokens := some (-1) } [] = 1 ∧
      calculate_cost [] ['g'] { input_tokens := some 0 } [] = 0 := by
  decide +kernel

/-- Two million tokens cost no less than one. -/
theorem two_million_tokens_cost_no_less :
    calculate_cost two_entries ['g', 'p', 't'] a_million [] ≤
      calculate_cost two_entries ['g', 'p', 't'] { input_tokens := some 2000000 } [] :=
  (message_costs_are_well_defined two_entries ['g', 'p', 't']).2.2.2 a_million
    { input_tokens := some 2000000 } [] (by decide +kernel) (by decide +kernel) (by decide)
    (by decide) (by decide) (by decide) ⟨by decide, fun _ => rfl⟩ ⟨by decide, fun _ => rfl⟩

end dr_boz.message_costs
