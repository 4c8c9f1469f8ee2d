-- Law of the two readers of a provider's usage, the one of `usage_metering` and
-- the copy in the bot: from which objects both read the same tokens.
import DrBoz.AmountTexts
import DrBoz.BilledTokens

open dr_boz.amount_texts (int_of_digits is_digit)
open dr_boz.cli_lines dr_boz.py

namespace dr_boz.usage_readers

/-! ## The readers -/

/-- `usage_metering.parse_usage_token` -/
def parse_usage_token : JsonValue → Except ReaderError Int
  | .bool _ => .ok 0
  | .int n => .ok (max 0 n)
  | .float x => .ok (max 0 (truncated x))
  | .infinity | .minus_infinity => .error .overflow_error
  | .nan => .error .value_error
  | .str text =>
    let digits := (strip text).toList
    if !digits.isEmpty && digits.all is_digit then
      match int_of_digits digits with
      | .ok n => .ok n
      | .error _ => .error .value_error
    else .ok 0
  | .null | .list _ | .dict _ => .ok 0

/-- `_parse_usage_token` of the bot -/
def _parse_usage_token : JsonValue → Except ReaderError Int
  | .int n => .ok (max 0 n)
  | .bool b => .ok (if b then 1 else 0)
  | .float x => .ok (max 0 (truncated x))
  | .infinity | .minus_infinity => .error .overflow_error
  | .nan => .error .value_error
  | .null | .str _ | .list _ | .dict _ => .ok 0

/-- A reader has a parser and goes through keys. -/
structure Reader where
  parse : JsonValue → Except ReaderError Int
  input_keys : List String
  output_keys : List String
  total_keys : List String

/-- The first of the keys with something else than zero. -/
def first_tokens (parse : JsonValue → Except ReaderError Int) (usage : Fields) :
    List String → Except ReaderError Int
  | [] => .ok 0
  | key :: keys => do
    let tokens ← parse (usage.get key .null)
    if tokens = 0 then first_tokens parse usage keys else return tokens

def Reader.extract (reader : Reader) : JsonValue → Except ReaderError (Int × Int)
  | .dict usage => do
    let input_tokens ← first_tokens reader.parse usage reader.input_keys
    let output_tokens ← first_tokens reader.parse usage reader.output_keys
    if output_tokens = 0 then
      let total_tokens ← first_tokens reader.parse usage reader.total_keys
      if total_tokens > input_tokens then return (input_tokens, total_tokens - input_tokens)
      else return (input_tokens, output_tokens)
    else return (input_tokens, output_tokens)
  | _ => return (0, 0)

/-- The keys that both know. -/
def INPUT_KEYS : List String := ["prompt_tokens", "input_tokens", "prompt_token_count"]

def OUTPUT_KEYS : List String := ["completion_tokens", "output_tokens", "candidates_token_count"]

def metering : Reader where
  parse := parse_usage_token
  input_keys := INPUT_KEYS ++ ["cached_prompt_tokens"]
  output_keys := OUTPUT_KEYS
  total_keys := ["total_tokens"]

def bot : Reader where
  parse := _parse_usage_token
  input_keys := INPUT_KEYS ++ ["promptTokenCount"]
  output_keys := OUTPUT_KEYS ++ ["candidatesTokenCount"]
  total_keys := ["total_tokens", "totalTokenCount"]

/-- `usage_metering.extract_usage_tokens` -/
def extract_usage_tokens : JsonValue → Except ReaderError (Int × Int) := metering.extract

/-- `_extract_usage_tokens` of the bot -/
def _extract_usage_tokens : JsonValue → Except ReaderError (Int × Int) := bot.extract

/-- The loop over the usages. -/
def Reader.sum (reader : Reader) (usages : List JsonValue) : Except ReaderError (Int × Int) :=
  usages.foldlM (fun total usage => do
    let tokens ← reader.extract usage
    return (total.1 + tokens.1, total.2 + tokens.2)) (0, 0)

def sum_usage_tokens : List JsonValue → Except ReaderError (Int × Int) := metering.sum

def _sum_usage_tokens : List JsonValue → Except ReaderError (Int × Int) := bot.sum

/-! ## What the readers are to answer -/

/-- Where the reader finds no output, the tokens are at least the total that it reads. -/
def Reader.Covers (reader : Reader) (usage : Fields) (tokens : Int × Int) : Prop :=
  first_tokens reader.parse usage reader.output_keys = .ok 0 →
    ∃ total, first_tokens reader.parse usage reader.total_keys = .ok total ∧
      total ≤ tokens.1 + tokens.2

/-- Both return one pair. -/
structure SamePair (usage : JsonValue) (tokens : Int × Int) : Prop where
  metered : extract_usage_tokens usage = .ok tokens
  by_bot : _extract_usage_tokens usage = .ok tokens
  nonneg : 0 ≤ tokens.1 ∧ 0 ≤ tokens.2
  covers : ∀ fields, usage = .dict fields →
    metering.Covers fields tokens ∧ bot.Covers fields tokens

def ReadTheSame (usage : JsonValue) : Prop := ∃ tokens, SamePair usage tokens

/-! ## Kinds of values -/

/-- The texts of digits are counted by the metering only, `True` by the bot only. -/
inductive Kind where
  | zero
  | number (n : Int)
  | truth
  | digits (n : Int)
  | bad_digits
  | unbounded

def number_kind (n : Int) : Kind := if n ≤ 0 then .zero else .number n

def kind : JsonValue → Kind
  | .null | .list _ | .dict _ => .zero
  | .bool b => if b then .truth else .zero
  | .int n => number_kind n
  | .float x => number_kind (truncated x)
  | .infinity | .minus_infinity | .nan => .unbounded
  | .str text =>
    let digits := (strip text).toList
    if !digits.isEmpty && digits.all is_digit then
      match int_of_digits digits with
      | .ok n => if n = 0 then .zero else .digits n
      | .error _ => .bad_digits
    else .zero

/-- What the metering counts. It refuses the other kinds. -/
def Kind.metered : Kind → Option Int
  | .zero | .truth => some 0
  | .number n | .digits n => some n
  | .bad_digits | .unbounded => none

/-- What the bot counts. -/
def Kind.counted : Kind → Option Int
  | .zero | .digits _ | .bad_digits => some 0
  | .truth => some 1
  | .number n => some n
  | .unbounded => none

/-- The first count of the keys that is not zero, if all before it can be counted. -/
def found (count : Kind → Option Int) (usage : Fields) : List String → Option Int
  | [] => some 0
  | key :: keys =>
    match count (kind (usage.get key .null)) with
    | none => none
    | some n => if n = 0 then found count usage keys else some n

/-- What the metering finds in the keys. -/
def Metered (usage : Fields) (keys : List String) (n : Int) : Prop :=
  found Kind.metered usage keys = some n

/-- What the bot finds in the keys. -/
def Counted (usage : Fields) (keys : List String) (n : Int) : Prop :=
  found Kind.counted usage keys = some n

/-- Both find `n`: in the keys that they share, where they stop at one number, or the one that
does not count a text or `True` finds the same further on; or in the keys of their own. -/
inductive ReadAlike (usage : Fields) (of_metering of_bot : List String) : List String → Int → Prop
  | apart {n : Int} : Metered usage of_metering n → Counted usage of_bot n →
    ReadAlike usage of_metering of_bot [] n
  | number {key : String} {shared : List String} {n : Int} :
    kind (usage.get key .null) = .number n → ReadAlike usage of_metering of_bot (key :: shared) n
  | zero {key : String} {shared : List String} {n : Int} : kind (usage.get key .null) = .zero →
    ReadAlike usage of_metering of_bot shared n →
    ReadAlike usage of_metering of_bot (key :: shared) n
  | digits {key : String} {shared : List String} {n : Int} :
    kind (usage.get key .null) = .digits n → Counted usage (shared ++ of_bot) n →
    ReadAlike usage of_metering of_bot (key :: shared) n
  | truth {key : String} {shared : List String} : kind (usage.get key .null) = .truth →
    Metered usage (shared ++ of_metering) 1 →
    ReadAlike usage of_metering of_bot (key :: shared) 1

/-- The output behind `input` tokens is read alike: an output of both, or totals that leave the
same; or what the total of the one leaves is the output that only the other finds. -/
inductive OutputAlike (usage : Fields) (input : Int) : Prop
  | reported {n : Int} : ReadAlike usage [] ["candidatesTokenCount"] OUTPUT_KEYS n → n ≠ 0 →
    OutputAlike usage input
  | totals {n : Int} : ReadAlike usage [] ["candidatesTokenCount"] OUTPUT_KEYS 0 →
    ReadAlike usage [] ["totalTokenCount"] ["total_tokens"] n → OutputAlike usage input
  | small_totals {n k : Int} : ReadAlike usage [] ["candidatesTokenCount"] OUTPUT_KEYS 0 →
    Metered usage metering.total_keys n → n ≤ input → Counted usage bot.total_keys k → k ≤ input →
    OutputAlike usage input
  | left_to_metering {n : Int} : Metered usage metering.output_keys 0 →
    Counted usage bot.output_keys n → n ≠ 0 → Metered usage metering.total_keys (input + n) →
    OutputAlike usage input
  | left_to_bot {n : Int} : Metered usage metering.output_keys n → n ≠ 0 →
    Counted usage bot.output_keys 0 → Counted usage bot.total_keys (input + n) →
    OutputAlike usage input

/-- The input and the output are read alike. -/
def AlikeFields (usage : Fields) : Prop :=
  ∃ input, ReadAlike usage ["cached_prompt_tokens"] ["promptTokenCount"] INPUT_KEYS input ∧
    OutputAlike usage input

/-! ## What is found -/

theorem number_kind_cases (n : Int) :
    (number_kind n = .zero ∧ max 0 n = 0) ∨ (number_kind n = .number (max 0 n) ∧ 0 < max 0 n) := by
  unfold number_kind
  by_cases h : n ≤ 0
  · rw [if_pos h]
    exact .inl ⟨rfl, by omega⟩
  · have hmax : max 0 n = n := by omega
    rw [if_neg h, hmax]
    exact .inr ⟨rfl, by omega⟩

/-- A number and the value of a text of digits are positive. -/
theorem kind_pos {value : JsonValue} {n : Int}
    (h : kind value = .number n ∨ kind value = .digits n) : 0 < n := by
  have hnumber : ∀ k : Int, number_kind k = .number n ∨ number_kind k = .digits n → 0 < n := by
    intro k hk
    rcases number_kind_cases k with ⟨hzero, -⟩ | ⟨hnumber, hpos⟩
    · rw [hzero] at hk
      rcases hk with hk | hk <;> cases hk
    · rw [hnumber] at hk
      rcases hk with hk | hk <;> cases hk
      exact hpos
  cases value with
  | int k => exact hnumber k h
  | float x => exact hnumber _ h
  | bool b => cases b <;> rcases h with h | h <;> cases h
  | str text =>
    simp only [kind] at h
    split at h
    · split at h
      · next k _ =>
        by_cases hk : k = 0
        · rw [if_pos hk] at h
          rcases h with h | h <;> cases h
        · rw [if_neg hk] at h
          rcases h with h | h <;> cases h
          omega
      · rcases h with h | h <;> cases h
    · rcases h with h | h <;> cases h
  | null | infinity | minus_infinity | nan | list _ | dict _ => rcases h with h | h <;> cases h

/-- Numbers are counted by both. -/
theorem number_counts {count : Kind → Option Int} (hzero : count .zero = some 0)
    (hnumber : ∀ n, count (.number n) = some n) (k n : Int) :
    (.ok (max 0 k) : Except ReaderError Int) = .ok n ↔ count (number_kind k) = some n := by
  rcases number_kind_cases k with ⟨hkind, hmax⟩ | ⟨hkind, -⟩
  · rw [hkind, hmax, hzero, Except.ok.injEq, Option.some_inj]
  · rw [hkind, hnumber, Except.ok.injEq, Option.some_inj]

theorem digits_metered (k : Nat) :
    (if k = 0 then Kind.zero else .digits k).metered = some (k : Int) := by
  split
  · next h =>
    rw [h]
    rfl
  · rfl

theorem digits_counted (k : Nat) : (if k = 0 then Kind.zero else .digits k).counted = some 0 := by
  split
  · rfl
  · rfl

theorem parse_usage_token_iff (value : JsonValue) (n : Int) :
    parse_usage_token value = .ok n ↔ (kind value).metered = some n := by
  cases value with
  | int k => exact number_counts rfl (fun _ => rfl) k n
  | float x => exact number_counts rfl (fun _ => rfl) _ n
  | bool b => cases b <;> simp [parse_usage_token, kind, Kind.metered]
  | str text =>
    simp only [parse_usage_token, kind]
    split
    · split
      · rw [digits_metered, Except.ok.injEq, Option.some_inj]
      · simp [Kind.metered]
    · simp [Kind.metered]
  | null | infinity | minus_infinity | nan | list _ | dict _ =>
    simp [parse_usage_token, kind, Kind.metered]

theorem bot_parse_iff (value : JsonValue) (n : Int) :
    _parse_usage_token value = .ok n ↔ (kind value).counted = some n := by
  cases value with
  | int k => exact number_counts rfl (fun _ => rfl) k n
  | float x => exact number_counts rfl (fun _ => rfl) _ n
  | bool b => cases b <;> simp [_parse_usage_token, kind, Kind.counted]
  | str text =>
    simp only [_parse_usage_token, kind]
    split
    · split
      · rw [digits_counted, Except.ok.injEq, Option.some_inj]
      · simp [Kind.counted]
    · simp [Kind.counted]
  | null | infinity | minus_infinity | nan | list _ | dict _ =>
    simp [_parse_usage_token, kind, Kind.counted]

theorem first_tokens_iff {parse : JsonValue → Except ReaderError Int} {count : Kind → Option Int}
    (h : ∀ value n, parse value = .ok n ↔ count (kind value) = some n) (usage : Fields)
    (keys : List String) (n : Int) :
    first_tokens parse usage keys = .ok n ↔ found count usage keys = some n := by
  induction keys with
  | nil =>
    unfold first_tokens found
    rw [Except.ok.injEq, Option.some_inj]
  | cons key keys ih =>
    unfold first_tokens found
    cases hparse : parse (usage.get key .null) with
    | error e =>
      have hnone : count (kind (usage.get key .null)) = none := by
        by_contra hsome
        obtain ⟨m, hm⟩ := Option.ne_none_iff_exists'.mp hsome
        rw [(h _ m).mpr hm] at hparse
        cases hparse
      rw [hnone]
      exact ⟨fun hok => (by cases hok), fun hok => (by cases hok)⟩
    | ok m =>
      rw [(h _ m).mp hparse]
      change (if m = 0 then first_tokens parse usage keys else .ok m) = .ok n ↔
        (if m = 0 then found count usage keys else some m) = some n
      split
      · exact ih
      · rw [Except.ok.injEq, Option.some_inj]

theorem metering_tokens (usage : Fields) (keys : List String) (n : Int) :
    first_tokens metering.parse usage keys = .ok n ↔ Metered usage keys n :=
  first_tokens_iff parse_usage_token_iff usage keys n

theorem bot_tokens (usage : Fields) (keys : List String) (n : Int) :
    first_tokens bot.parse usage keys = .ok n ↔ Counted usage keys n :=
  first_tokens_iff bot_parse_iff usage keys n

theorem found_nonneg {count : Kind → Option Int}
    (h : ∀ value n, count (kind value) = some n → 0 ≤ n) {usage : Fields} {keys : List String}
    {n : Int} (hfound : found count usage keys = some n) : 0 ≤ n := by
  induction keys with
  | nil =>
    cases hfound
    exact le_refl 0
  | cons key keys ih =>
    unfold found at hfound
    split at hfound
    · cases hfound
    · next m hm =>
      split at hfound
      · exact ih hfound
      · cases hfound
        exact h _ _ hm

theorem counts_nonneg {count : Kind → Option Int}
    (hcount : ∀ k n, count k = some n → n = 0 ∨ n = 1 ∨ k = .number n ∨ k = .digits n)
    {usage : Fields} {keys : List String} {n : Int} (h : found count usage keys = some n) :
    0 ≤ n := by
  refine found_nonneg (fun value m hm => ?_) h
  rcases hcount _ m hm with rfl | rfl | hkind | hkind
  · exact le_refl 0
  · exact zero_le_one
  · exact (kind_pos (.inl hkind)).le
  · exact (kind_pos (.inr hkind)).le

theorem metered_nonneg {usage : Fields} {keys : List String} {n : Int}
    (h : Metered usage keys n) : 0 ≤ n := by
  refine counts_nonneg (fun k m hm => ?_) h
  cases k with
  | zero | truth => exact .inl (Option.some.inj hm).symm
  | number _ => exact .inr (.inr (.inl (congrArg _ (Option.some.inj hm))))
  | digits _ => exact .inr (.inr (.inr (congrArg _ (Option.some.inj hm))))
  | bad_digits | unbounded => cases hm

theorem counted_nonneg {usage : Fields} {keys : List String} {n : Int}
    (h : Counted usage keys n) : 0 ≤ n := by
  refine counts_nonneg (fun k m hm => ?_) h
  cases k with
  | zero | digits _ | bad_digits => exact .inl (Option.some.inj hm).symm
  | truth => exact .inr (.inl (Option.some.inj hm).symm)
  | number _ => exact .inr (.inr (.inl (congrArg _ (Option.some.inj hm))))
  | unbounded => cases hm

/-! ## Shared keys -/

/-- Reading alike is finding the same. -/
theorem readAlike_iff (usage : Fields) (of_metering of_bot shared : List String) (n : Int) :
    ReadAlike usage of_metering of_bot shared n ↔
      Metered usage (shared ++ of_metering) n ∧ Counted usage (shared ++ of_bot) n := by
  induction shared with
  | nil =>
    constructor
    · rintro ⟨hmetered, hcounted⟩
      exact ⟨hmetered, hcounted⟩
    · exact fun ⟨hmetered, hcounted⟩ => .apart hmetered hcounted
  | cons key shared ih =>
    unfold Metered Counted at ih ⊢
    simp only [List.cons_append, found]
    constructor
    · intro h
      cases h with
      | number hkind =>
        have hpos := kind_pos (.inl hkind)
        rw [hkind]
        simp only [Kind.metered, Kind.counted, if_neg hpos.ne', and_self]
      | zero hkind hrest =>
        rw [hkind]
        exact ih.mp hrest
      | digits hkind hcounted =>
        have hpos := kind_pos (.inr hkind)
        rw [hkind]
        simp only [Kind.metered, Kind.counted, if_neg hpos.ne', if_true]
        exact ⟨trivial, hcounted⟩
      | truth hkind hmetered =>
        rw [hkind]
        exact ⟨hmetered, rfl⟩
    · rintro ⟨hmetered, hcounted⟩
      cases hkind : kind (usage.get key .null) with
      | zero =>
        rw [hkind] at hmetered hcounted
        exact .zero hkind (ih.mpr ⟨hmetered, hcounted⟩)
      | number k =>
        have hpos := kind_pos (.inl hkind)
        rw [hkind] at hmetered
        simp only [Kind.metered, if_neg hpos.ne', Option.some_inj] at hmetered
        exact .number (hmetered ▸ hkind)
      | truth =>
        rw [hkind] at hmetered hcounted
        simp only [Kind.counted, one_ne_zero, if_false, Option.some_inj] at hcounted
        subst hcounted
        exact .truth hkind hmetered
      | digits k =>
        have hpos := kind_pos (.inr hkind)
        rw [hkind] at hmetered hcounted
        simp only [Kind.metered, if_neg hpos.ne', Option.some_inj] at hmetered
        exact .digits (hmetered ▸ hkind) hcounted
      | bad_digits | unbounded =>
        rw [hkind] at hmetered
        cases hmetered

/-! ## The tokens of a usage -/

/-- The output is what is found, or what the total leaves. -/
theorem extract_iff (reader : Reader) (usage : Fields) (input output : Int) :
    reader.extract (.dict usage) = .ok (input, output) ↔
      first_tokens reader.parse usage reader.input_keys = .ok input ∧
        ((first_tokens reader.parse usage reader.output_keys = .ok output ∧ output ≠ 0) ∨
          (first_tokens reader.parse usage reader.output_keys = .ok 0 ∧
            ∃ total, first_tokens reader.parse usage reader.total_keys = .ok total ∧
              output = max 0 (total - input))) := by
  unfold Reader.extract
  constructor
  · intro h
    obtain ⟨i, hi, h⟩ := of_bind_ok h
    obtain ⟨o, ho, h⟩ := of_bind_ok h
    split at h
    · next hzero =>
      subst hzero
      obtain ⟨total, htotal, h⟩ := of_bind_ok h
      split at h
      · next hmore =>
        cases h
        exact ⟨hi, .inr ⟨ho, total, htotal, by omega⟩⟩
      · next hless =>
        cases h
        exact ⟨hi, .inr ⟨ho, total, htotal, by omega⟩⟩
    · next hsome =>
      cases h
      exact ⟨hi, .inl ⟨ho, hsome⟩⟩
  · rintro ⟨hi, ⟨ho, hsome⟩ | ⟨ho, total, htotal, rfl⟩⟩
    · simp only [hi, ho, bind, Except.bind, if_neg hsome]
      rfl
    · simp only [hi, ho, htotal, bind, Except.bind, if_true]
      split
      · next hmore =>
        have hmax : max 0 (total - input) = total - input := by omega
        rw [hmax]
        rfl
      · next hless =>
        have hmax : max 0 (total - input) = 0 := by omega
        rw [hmax]
        rfl

theorem covers_of_extract {reader : Reader} {usage : Fields} {tokens : Int × Int}
    (h : reader.extract (.dict usage) = .ok tokens) : reader.Covers usage tokens := by
  intro hnone
  obtain ⟨-, ⟨ho, hsome⟩ | ⟨-, total, htotal, houtput⟩⟩ :=
    (extract_iff reader usage tokens.1 tokens.2).mp h
  · rw [hnone, Except.ok.injEq] at ho
    exact absurd ho.symm hsome
  · exact ⟨total, htotal, by omega⟩

theorem nonneg_of_extract {usage : JsonValue} {tokens : Int × Int}
    (h : extract_usage_tokens usage = .ok tokens) : 0 ≤ tokens.1 ∧ 0 ≤ tokens.2 := by
  cases usage with
  | dict usage =>
    obtain ⟨hi, ⟨ho, -⟩ | ⟨-, total, -, houtput⟩⟩ :=
      (extract_iff metering usage tokens.1 tokens.2).mp h
    · exact ⟨metered_nonneg ((metering_tokens _ _ _).mp hi),
        metered_nonneg ((metering_tokens _ _ _).mp ho)⟩
    · exact ⟨metered_nonneg ((metering_tokens _ _ _).mp hi), by omega⟩
  | null | bool _ | int _ | float _ | infinity | minus_infinity | nan | str _ | list _ =>
    cases h
    exact ⟨le_refl 0, le_refl 0⟩

/-- One pair of both has all that it is to have. -/
theorem readTheSame_iff (usage : JsonValue) : ReadTheSame usage ↔
    ∃ tokens, extract_usage_tokens usage = .ok tokens ∧
      _extract_usage_tokens usage = .ok tokens := by
  constructor
  · exact fun ⟨tokens, h⟩ => ⟨tokens, h.metered, h.by_bot⟩
  · rintro ⟨tokens, hmetered, hbot⟩
    refine ⟨tokens, hmetered, hbot, nonneg_of_extract hmetered, ?_⟩
    rintro fields rfl
    exact ⟨covers_of_extract hmetered, covers_of_extract hbot⟩

/-- Of two totals behind one input. -/
theorem outputAlike_of_totals {usage : Fields} {input n k : Int}
    (hout : ReadAlike usage [] ["candidatesTokenCount"] OUTPUT_KEYS 0)
    (hn : Metered usage metering.total_keys n) (hk : Counted usage bot.total_keys k)
    (hleft : max 0 (n - input) = max 0 (k - input)) : OutputAlike usage input := by
  by_cases hsmall : n ≤ input
  · exact .small_totals hout hn hsmall hk (by omega)
  · have hsame : n = k := by omega
    subst hsame
    exact .totals hout ((readAlike_iff _ _ _ _ _).mpr ⟨hn, hk⟩)

/-- The outputs are read alike iff both readers leave one output. -/
theorem outputAlike_iff {usage : Fields} {input : Int} :
    OutputAlike usage input ↔ ∃ output,
      ((Metered usage metering.output_keys output ∧ output ≠ 0) ∨
        (Metered usage metering.output_keys 0 ∧
          ∃ n, Metered usage metering.total_keys n ∧ output = max 0 (n - input))) ∧
      ((Counted usage bot.output_keys output ∧ output ≠ 0) ∨
        (Counted usage bot.output_keys 0 ∧
          ∃ n, Counted usage bot.total_keys n ∧ output = max 0 (n - input))) := by
  have houts : ∀ n, ReadAlike usage [] ["candidatesTokenCount"] OUTPUT_KEYS n ↔
      Metered usage metering.output_keys n ∧ Counted usage bot.output_keys n :=
    readAlike_iff usage [] ["candidatesTokenCount"] OUTPUT_KEYS
  constructor
  · intro h
    cases h with
    | @reported n hout hn =>
      obtain ⟨hm, hb⟩ := (houts n).mp hout
      exact ⟨n, .inl ⟨hm, hn⟩, .inl ⟨hb, hn⟩⟩
    | @totals n hout htotals =>
      obtain ⟨hm, hb⟩ := (houts 0).mp hout
      obtain ⟨hn, hk⟩ := (readAlike_iff _ _ _ _ _).mp htotals
      exact ⟨max 0 (n - input), .inr ⟨hm, n, hn, rfl⟩, .inr ⟨hb, n, hk, rfl⟩⟩
    | @small_totals n k hout hn hle hk hle' =>
      obtain ⟨hm, hb⟩ := (houts 0).mp hout
      exact ⟨0, .inr ⟨hm, n, hn, by omega⟩, .inr ⟨hb, k, hk, by omega⟩⟩
    | @left_to_metering n hm hb hn htotal =>
      have hpos := counted_nonneg hb
      exact ⟨n, .inr ⟨hm, input + n, htotal, by omega⟩, .inl ⟨hb, hn⟩⟩
    | @left_to_bot n hm hn hb htotal =>
      have hpos := metered_nonneg hm
      exact ⟨n, .inl ⟨hm, hn⟩, .inr ⟨hb, input + n, htotal, by omega⟩⟩
  · rintro ⟨output, ⟨hm, hne⟩ | ⟨hm, n, hn, hleft⟩, ⟨hb, hne'⟩ | ⟨hb, k, hk, hleft'⟩⟩
    · exact .reported ((houts output).mpr ⟨hm, hb⟩) hne
    · have htotal : k = input + output := by omega
      exact .left_to_bot hm hne hb (htotal ▸ hk)
    · have htotal : n = input + output := by omega
      exact .left_to_metering hm hb hne' (htotal ▸ hn)
    · exact outputAlike_of_totals ((houts 0).mpr ⟨hm, hb⟩) hn hk (hleft ▸ hleft')

/-! ## The law -/

/-- LAW: both readers return one pair of a usage iff its input and its output
are read alike. -/
theorem usages_are_read_the_same_iff_alike (usage : JsonValue) :
    ReadTheSame usage ↔ ∀ fields, usage = .dict fields → AlikeFields fields := by
  rw [readTheSame_iff]
  cases usage with
  | dict usage =>
    have hinputs : ∀ n,
        ReadAlike usage ["cached_prompt_tokens"] ["promptTokenCount"] INPUT_KEYS n ↔
          Metered usage metering.input_keys n ∧ Counted usage bot.input_keys n :=
      readAlike_iff usage ["cached_prompt_tokens"] ["promptTokenCount"] INPUT_KEYS
    have hdict : (∀ fields, JsonValue.dict usage = .dict fields → AlikeFields fields) ↔
        AlikeFields usage := by
      constructor
      · exact fun h => h usage rfl
      · rintro h fields hsame
        cases hsame
        exact h
    rw [hdict]
    unfold AlikeFields
    constructor
    · rintro ⟨⟨input, output⟩, hm, hb⟩
      have hm' := (extract_iff metering usage input output).mp hm
      have hb' := (extract_iff bot usage input output).mp hb
      simp only [metering_tokens] at hm'
      simp only [bot_tokens] at hb'
      exact ⟨input, (hinputs input).mpr ⟨hm'.1, hb'.1⟩,
        outputAlike_iff.mpr ⟨output, hm'.2, hb'.2⟩⟩
    · rintro ⟨input, hinput, houtput⟩
      obtain ⟨hm, hb⟩ := (hinputs input).mp hinput
      obtain ⟨output, hmo, hbo⟩ := outputAlike_iff.mp houtput
      refine ⟨(input, output), (extract_iff metering usage input output).mpr ?_,
        (extract_iff bot usage input output).mpr ?_⟩
      · simp only [metering_tokens]
        exact ⟨hm, hmo⟩
      · simp only [bot_tokens]
        exact ⟨hb, hbo⟩
  | null | bool _ | int _ | float _ | infinity | minus_infinity | nan | str _ | list _ =>
    exact ⟨fun _ fields h => (by cases h), fun _ => ⟨(0, 0), rfl, rfl⟩⟩

/-- The sums over usages that are read alike are the same. -/
theorem sums_are_the_same {usages : List JsonValue} (h : ∀ usage ∈ usages, ReadTheSame usage) :
    ∃ total, sum_usage_tokens usages = .ok total ∧ _sum_usage_tokens usages = .ok total := by
  unfold sum_usage_tokens _sum_usage_tokens Reader.sum
  generalize ((0, 0) : Int × Int) = start
  induction usages generalizing start with
  | nil => exact ⟨start, rfl, rfl⟩
  | cons usage usages ih =>
    obtain ⟨tokens, hpair⟩ := h usage List.mem_cons_self
    have hmetered : metering.extract usage = .ok tokens := hpair.metered
    have hbot : bot.extract usage = .ok tokens := hpair.by_bot
    simp only [List.foldlM_cons, hmetered, hbot]
    exact ih (fun u hu => h u (List.mem_cons_of_mem _ hu)) (start.1 + tokens.1, start.2 + tokens.2)

/-- A text of digits counts for the metering only. -/
theorem a_text_of_digits_counts_once :
    ¬ReadTheSame (.dict [("prompt_tokens", .str "7"), ("completion_tokens", .int 2)]) := by
  rintro ⟨tokens, h⟩
  have hm : extract_usage_tokens
      (.dict [("prompt_tokens", .str "7"), ("completion_tokens", .int 2)]) = .ok (7, 2) := by decide
  have hb : _extract_usage_tokens
      (.dict [("prompt_tokens", .str "7"), ("completion_tokens", .int 2)]) = .ok (0, 2) := by decide
  have hmetered := hm.symm.trans h.metered
  have hbot := hb.symm.trans h.by_bot
  rw [Except.ok.injEq] at hmetered hbot
  rw [← hmetered] at hbot
  revert hbot
  decide

/-! ## What an answer is billed for -/

theorem parse_billed : _parse_usage_token = billed_tokens.parse_usage_token := by
  funext value
  cases value with
  | null | bool _ | int _ | float _ | infinity | minus_infinity | nan => rfl
  | str _ | list _ | dict _ => rfl

theorem first_tokens_billed (usage : Fields) (keys : List String) :
    first_tokens bot.parse usage keys = billed_tokens.first_tokens usage keys := by
  induction keys with
  | nil => rfl
  | cons key keys ih =>
    unfold first_tokens billed_tokens.first_tokens
    rw [ih, ← parse_billed]
    rfl

theorem extract_billed : _extract_usage_tokens = billed_tokens.extract_usage_tokens := by
  funext usage
  cases usage with
  | dict usage =>
    unfold _extract_usage_tokens Reader.extract billed_tokens.extract_usage_tokens
    simp only [first_tokens_billed]
    rfl
  | null | bool _ | int _ | float _ | infinity | minus_infinity | nan | str _ | list _ => rfl

/-- The sum of the bot is the one that an answer is billed for. -/
theorem sum_billed : _sum_usage_tokens = billed_tokens.sum_usage_tokens := by
  funext usages
  unfold _sum_usage_tokens Reader.sum billed_tokens.sum_usage_tokens billed_tokens.add_usage
  rw [← extract_billed]
  rfl

/-- Over usages that are read alike, the metering sums what an answer is billed for. -/
theorem billed_sum {usages : List JsonValue} (h : ∀ usage ∈ usages, ReadTheSame usage) :
    sum_usage_tokens usages = billed_tokens.sum_usage_tokens usages := by
  obtain ⟨total, hmetered, hbot⟩ := sums_are_the_same h
  rw [hmetered, ← sum_billed, hbot]

end dr_boz.usage_readers
