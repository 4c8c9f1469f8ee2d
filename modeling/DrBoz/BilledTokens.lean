-- Law of the tokens that an answer is billed for: what its usages report, and
-- the estimates that stand in for a report that is missing. Codex is billed
-- for the prompt that the app sent, not for the one of the CLI.
import DrBoz.CliLines
import Mathlib.Data.List.Induction

open dr_boz.py dr_boz.cli_lines

namespace dr_boz.billed_tokens

/-! ## What a usage reports -/

/-- A usage says nothing with a text or `None`. A NaN and infinity raise. -/
def parse_usage_token : JsonValue → Except ReaderError Int
  | .int n => .ok (max 0 n)
  | .bool b => .ok (if b then 1 else 0)
  | .float x => .ok (max 0 (truncated x))
  | .infinity | .minus_infinity => .error .overflow_error
  | .nan => .error .value_error
  | .null | .str _ | .list _ | .dict _ => .ok 0

/-- The first of the keys that says something else than zero. -/
def first_tokens (usage : Fields) : List String → Except ReaderError Int
  | [] => .ok 0
  | key :: keys => do
    let tokens ← parse_usage_token (usage.get key .null)
    if tokens = 0 then first_tokens usage keys else return tokens

def extract_usage_tokens (usage : JsonValue) : Except ReaderError (Int × Int) :=
  match usage with
  | .dict usage => do
    let input_tokens ← first_tokens usage
      ["prompt_tokens", "input_tokens", "prompt_token_count", "promptTokenCount"]
    let output_tokens ← first_tokens usage
      ["completion_tokens", "output_tokens", "candidates_token_count", "candidatesTokenCount"]
    if output_tokens = 0 then
      let total_tokens ← first_tokens usage ["total_tokens", "totalTokenCount"]
      if total_tokens > input_tokens then return (input_tokens, total_tokens - input_tokens)
      else return (input_tokens, output_tokens)
    else return (input_tokens, output_tokens)
  | _ => return (0, 0)

/-- The totals with one usage more. -/
def add_usage (total : Int × Int) (usage : JsonValue) : Except ReaderError (Int × Int) := do
  let tokens ← extract_usage_tokens usage
  return (total.1 + tokens.1, total.2 + tokens.2)

def sum_usage_tokens (usages : List JsonValue) : Except ReaderError (Int × Int) :=
  usages.foldlM add_usage (0, 0)

/-! ## What Codex is billed for -/

structure ProviderUsage where
  input_tokens : Int := 0
  cached_input_tokens : Int := 0
  output_tokens : Int := 0
  reasoning_output_tokens : Int := 0
  total_tokens : Int := 0

/-- The totals of the loop over the usages. -/
structure Logged where
  provider_usage : ProviderUsage := {}
  other_input_tokens : Int := 0
  other_output_tokens : Int := 0
  saw_codex_usage : Bool := false

/-- `usage.get(key) if usage.get(key) is not None else usage.get(other)` -/
def either_field (usage : Fields) (key other : String) : JsonValue :=
  match usage.get key .null with
  | .null => usage.get other .null
  | value => value

def codex_tokens (usage : Fields) : Except ReaderError (Int × Int) := do
  let input_tokens ← coerce (either_field usage "input_tokens" "prompt_tokens")
  let output_tokens ← coerce (either_field usage "output_tokens" "completion_tokens")
  return (input_tokens, output_tokens)

def from_codex_cli (usage : Fields) : Bool :=
  (usage.get "usage_source" .null).is_text "codex_cli"

/-- What a usage of the CLI adds. -/
def add_provider (p : ProviderUsage) (usage : Fields) (tokens : Int × Int) :
    Except ReaderError ProviderUsage := do
  let cached ← coerce (usage.get "cached_input_tokens" .null)
  let reasoning ← coerce (usage.get "reasoning_output_tokens" .null)
  let total ← coerce (usage.get "total_tokens" .null)
  return {
    input_tokens := p.input_tokens + tokens.1
    cached_input_tokens := p.cached_input_tokens + cached
    output_tokens := p.output_tokens + tokens.2
    reasoning_output_tokens := p.reasoning_output_tokens + reasoning
    total_tokens := p.total_tokens + if total = 0 then tokens.1 + tokens.2 else total }

def log_usage (l : Logged) (usage : JsonValue) : Except ReaderError Logged :=
  match usage with
  | .dict usage => do
    let tokens ← codex_tokens usage
    if from_codex_cli usage then
      let provider_usage ← add_provider l.provider_usage usage tokens
      return { l with provider_usage, saw_codex_usage := true }
    else
      return { l with
        other_input_tokens := l.other_input_tokens + tokens.1
        other_output_tokens := l.other_output_tokens + tokens.2 }
  | _ => return l

def log_usages (usage_logs : List JsonValue) : Except ReaderError Logged :=
  usage_logs.foldlM log_usage {}

/-- The tokens that go to the charge, and where they come from. -/
structure Counts where
  input_tokens : Int
  output_tokens : Int
  usage_source : String
deriving DecidableEq

/-- A side of the CLI that reports no output has the default one. -/
def codex_output (l : Logged) (default_output_tokens : Int) : Int :=
  if l.saw_codex_usage ∧ l.provider_usage.output_tokens ≠ 0 then l.provider_usage.output_tokens
  else default_output_tokens

def codex_input (l : Logged) (estimated_app_input_tokens : Int) : Int :=
  if l.saw_codex_usage then
    min l.provider_usage.input_tokens (max 0 estimated_app_input_tokens)
  else max 0 estimated_app_input_tokens

def calculate_codex_billable_usage (usage_logs : List JsonValue)
    (estimated_app_input_tokens default_output_tokens : Int) : Except ReaderError Counts := do
  let l ← log_usages usage_logs
  return {
    input_tokens := codex_input l estimated_app_input_tokens + l.other_input_tokens
    output_tokens := codex_output l default_output_tokens + l.other_output_tokens
    usage_source :=
      if l.saw_codex_usage then "codex_cli_billable_app_input" else "estimated" }

/-! ## What an answer is billed for -/

def CHAT_OUTPUT_TOKEN_ESTIMATE : Int := 900

/-- What the turn knows besides its usages. -/
structure Turn where
  is_codex : Bool
  estimated_in_tokens : Int
  estimated_cost_usd : PyFloat
  full_reply : String

def estimate_text_tokens (text : String) : Int :=
  if text = "" then 1 else max 1 ((text.length + 3) / 4 : Nat)

/-- The estimate of the output. -/
def Turn.reply_tokens (t : Turn) : Int :=
  if t.full_reply = "" then CHAT_OUTPUT_TOKEN_ESTIMATE else estimate_text_tokens t.full_reply

/-- The counts of a turn without Codex. Nothing is estimated for an input that
is missing next to an output. -/
def plain_counts (t : Turn) (input_tokens output_tokens : Int) : Counts :=
  if input_tokens = 0 ∧ output_tokens = 0 ∧ 0 < t.estimated_cost_usd then
    ⟨t.estimated_in_tokens, t.reply_tokens, "estimated"⟩
  else if input_tokens = 0 then ⟨input_tokens, output_tokens, "partial_estimated"⟩
  else if output_tokens = 0 then ⟨input_tokens, t.reply_tokens, "partial_estimated"⟩
  else ⟨input_tokens, output_tokens, "provider_reported"⟩

/-- The counts that `_run_tool_aware_completion` passes to the charge. -/
def usage_counts (t : Turn) (usage_logs : List JsonValue) : Except ReaderError Counts :=
  if t.is_codex then
    calculate_codex_billable_usage usage_logs t.estimated_in_tokens CHAT_OUTPUT_TOKEN_ESTIMATE
  else do
    let (input_tokens, output_tokens) ← sum_usage_tokens usage_logs
    return plain_counts t input_tokens output_tokens

/-! ## The totals -/

theorem first_tokens_nonneg {usage : Fields} {keys : List String} {n : Int}
    (h : first_tokens usage keys = .ok n) : 0 ≤ n := by
  induction keys with
  | nil =>
    cases h
    exact le_refl 0
  | cons key keys ih =>
    obtain ⟨tokens, htokens, h⟩ := of_bind_ok h
    split at h
    · exact ih h
    · cases h
      unfold parse_usage_token at htokens
      split at htokens
      · cases htokens
        exact le_max_left ..
      · cases htokens
        split <;> decide
      · cases htokens
        exact le_max_left ..
      · cases htokens
      · cases htokens
      · cases htokens
      all_goals
        cases htokens
        exact le_refl 0

theorem extract_nonneg {usage : JsonValue} {tokens : Int × Int}
    (h : extract_usage_tokens usage = .ok tokens) : 0 ≤ tokens.1 ∧ 0 ≤ tokens.2 := by
  unfold extract_usage_tokens at h
  split at h
  · obtain ⟨input, hinput, h⟩ := of_bind_ok h
    obtain ⟨output, houtput, h⟩ := of_bind_ok h
    have hin := first_tokens_nonneg hinput
    have hout := first_tokens_nonneg houtput
    split at h
    · obtain ⟨total, htotal, h⟩ := of_bind_ok h
      split at h
      · next hmore =>
        cases h
        exact ⟨hin, by dsimp only; omega⟩
      · cases h
        exact ⟨hin, hout⟩
    · cases h
      exact ⟨hin, hout⟩
  · cases h
    exact ⟨le_refl 0, le_refl 0⟩

/-- One usage more leaves the totals, or raises them. -/
theorem add_usage_grows {total total' : Int × Int} {usage : JsonValue}
    (h : add_usage total usage = .ok total') : total.1 ≤ total'.1 ∧ total.2 ≤ total'.2 := by
  obtain ⟨tokens, htokens, h⟩ := of_bind_ok h
  obtain ⟨hin, hout⟩ := extract_nonneg htokens
  cases h
  exact ⟨by dsimp only; omega, by dsimp only; omega⟩

theorem sum_append {usages : List JsonValue} {added : JsonValue} {total : Int × Int}
    (h : sum_usage_tokens (usages ++ [added]) = .ok total) :
    ∃ before, sum_usage_tokens usages = .ok before ∧ add_usage before added = .ok total :=
  of_foldlM_concat_ok h

theorem sum_nonneg {usages : List JsonValue} {total : Int × Int}
    (h : sum_usage_tokens usages = .ok total) : 0 ≤ total.1 ∧ 0 ≤ total.2 := by
  induction usages using List.reverseRecOn generalizing total with
  | nil =>
    cases h
    exact ⟨le_refl 0, le_refl 0⟩
  | append_singleton usages added ih =>
    obtain ⟨before, hbefore, hadd⟩ := sum_append h
    obtain ⟨hin, hout⟩ := ih hbefore
    obtain ⟨hin', hout'⟩ := add_usage_grows hadd
    exact ⟨hin.trans hin', hout.trans hout'⟩

/-! ## A turn without Codex -/

/-- What holds of the counts, for the tokens that are reported. -/
structure PlainCounts (t : Turn) (input output : Int) (c : Counts) : Prop where
  output_pos : 0 < input ∨ 0 < output ∨ 0 < t.estimated_cost_usd → 0 < c.output_tokens
  input_pos : 0 < input ∨ output = 0 ∧ 0 < t.estimated_cost_usd → 0 < c.input_tokens
  free : input = 0 → output = 0 → t.estimated_cost_usd ≤ 0 →
    c.input_tokens = 0 ∧ c.output_tokens = 0
  reported : input ≤ c.input_tokens ∧ output ≤ c.output_tokens
  kept : (0 < input → c.input_tokens = input) ∧ (0 < output → c.output_tokens = output)

theorem reply_tokens_pos (t : Turn) : 0 < t.reply_tokens := by
  unfold Turn.reply_tokens estimate_text_tokens
  split
  · decide
  · omega

theorem plain_counts_hold (t : Turn) {input output : Int} (hestimate : 0 < t.estimated_in_tokens)
    (hin : 0 ≤ input) (hout : 0 ≤ output) :
    PlainCounts t input output (plain_counts t input output) := by
  have hreply := reply_tokens_pos t
  unfold plain_counts
  split
  · next h =>
    obtain ⟨rfl, rfl, hcost⟩ := h
    exact ⟨fun _ => hreply, fun _ => hestimate, fun _ _ hfree => absurd hcost (not_lt.mpr hfree),
      ⟨hestimate.le, hreply.le⟩, fun h => absurd h (lt_irrefl 0), fun h => absurd h (lt_irrefl 0)⟩
  · next hsome =>
    split
    · next hzero =>
      subst hzero
      have hnone : output = 0 → ¬0 < t.estimated_cost_usd := fun h hcost => hsome ⟨rfl, h, hcost⟩
      refine ⟨fun h => ?_, fun h => ?_, fun _ h _ => ⟨rfl, h⟩, ⟨le_refl _, le_refl _⟩,
        fun _ => rfl, fun _ => rfl⟩
      · rcases h with h | h | h
        · exact absurd h (lt_irrefl 0)
        · exact h
        · exact lt_of_le_of_ne hout fun he => hnone he.symm h
      · rcases h with h | ⟨h, hcost⟩
        · exact absurd h (lt_irrefl 0)
        · exact absurd hcost (hnone h)
    · next hne =>
      have hpos : 0 < input := lt_of_le_of_ne hin (Ne.symm hne)
      split
      · next hzero =>
        subst hzero
        exact ⟨fun _ => hreply, fun _ => hpos, fun h => absurd h hne, ⟨le_refl _, hreply.le⟩,
          fun _ => rfl, fun h => absurd h (lt_irrefl 0)⟩
      · next hne' =>
        have hpos' : 0 < output := lt_of_le_of_ne hout (Ne.symm hne')
        exact ⟨fun _ => hpos', fun _ => hpos, fun h => absurd h hne, ⟨le_refl _, le_refl _⟩,
          fun _ => rfl, fun _ => rfl⟩

/-! ## A turn with Codex -/

/-- No count of the usage is below zero. -/
def NotNegative (usage : JsonValue) : Prop :=
  ∀ fields tokens, usage = .dict fields → codex_tokens fields = .ok tokens →
    0 ≤ tokens.1 ∧ 0 ≤ tokens.2

def is_codex_cli : JsonValue → Bool
  | .dict fields => from_codex_cli fields
  | _ => false

/-- What one usage does to the totals: it adds its tokens on its own side. -/
inductive Adds (l l' : Logged) (usage : JsonValue) : Prop where
  | nothing (same : l' = l)
  | codex (fields : Fields) (input output : Int) (is_dict : usage = .dict fields)
      (cli : from_codex_cli fields = true) (tokens : codex_tokens fields = .ok (input, output))
      (saw : l'.saw_codex_usage = true)
      (provider_input : l'.provider_usage.input_tokens = l.provider_usage.input_tokens + input)
      (provider_output : l'.provider_usage.output_tokens = l.provider_usage.output_tokens + output)
      (others : l'.other_input_tokens = l.other_input_tokens ∧
        l'.other_output_tokens = l.other_output_tokens)
  | other (fields : Fields) (input output : Int) (is_dict : usage = .dict fields)
      (cli : from_codex_cli fields = false) (tokens : codex_tokens fields = .ok (input, output))
      (saw : l'.saw_codex_usage = l.saw_codex_usage)
      (provider : l'.provider_usage = l.provider_usage)
      (others : l'.other_input_tokens = l.other_input_tokens + input ∧
        l'.other_output_tokens = l.other_output_tokens + output)

theorem log_usage_adds {l l' : Logged} {usage : JsonValue} (h : log_usage l usage = .ok l') :
    Adds l l' usage := by
  unfold log_usage at h
  split at h
  · next fields =>
    obtain ⟨⟨input, output⟩, htokens, h⟩ := of_bind_ok h
    split at h
    · next hcli =>
      obtain ⟨p, hp, h⟩ := of_bind_ok h
      obtain ⟨cached, -, hp⟩ := of_bind_ok hp
      obtain ⟨reasoning, -, hp⟩ := of_bind_ok hp
      obtain ⟨total, -, hp⟩ := of_bind_ok hp
      cases hp
      cases h
      exact .codex fields input output rfl hcli htokens rfl rfl rfl ⟨rfl, rfl⟩
    · next hcli =>
      cases h
      exact .other fields input output rfl (Bool.eq_false_iff.mpr hcli) htokens rfl rfl ⟨rfl, rfl⟩
  · cases h
    exact .nothing rfl

theorem log_append {usages : List JsonValue} {added : JsonValue} {l : Logged}
    (h : log_usages (usages ++ [added]) = .ok l) :
    ∃ before, log_usages usages = .ok before ∧ log_usage before added = .ok l :=
  of_foldlM_concat_ok h

/-- No total is below zero, and without a usage of the CLI its totals are zero. -/
structure Sound (l : Logged) : Prop where
  provider_input : 0 ≤ l.provider_usage.input_tokens
  provider_output : 0 ≤ l.provider_usage.output_tokens
  other_input : 0 ≤ l.other_input_tokens
  other_output : 0 ≤ l.other_output_tokens
  unseen : l.saw_codex_usage = false → l.provider_usage.output_tokens = 0

theorem Adds.sound {l l' : Logged} {usage : JsonValue} (h : Adds l l' usage)
    (hu : NotNegative usage) (hl : Sound l) : Sound l' := by
  obtain ⟨hpin, hpout, hoin, hoout, hunseen⟩ := hl
  cases h with
  | nothing same =>
    rw [same]
    exact ⟨hpin, hpout, hoin, hoout, hunseen⟩
  | codex fields input output is_dict cli tokens saw pin pout others =>
    obtain ⟨hin, hout⟩ := hu fields _ is_dict tokens
    dsimp only at hin hout
    refine ⟨?_, ?_, ?_, ?_, fun h => ?_⟩
    · omega
    · omega
    · rw [others.1]
      exact hoin
    · rw [others.2]
      exact hoout
    · rw [saw] at h
      cases h
  | other fields input output is_dict cli tokens saw provider others =>
    obtain ⟨hin, hout⟩ := hu fields _ is_dict tokens
    dsimp only at hin hout
    refine ⟨?_, ?_, ?_, ?_, fun h => ?_⟩
    · rw [provider]
      exact hpin
    · rw [provider]
      exact hpout
    · omega
    · omega
    · rw [provider]
      exact hunseen (saw ▸ h)

theorem log_sound {usages : List JsonValue} {l : Logged} (h : log_usages usages = .ok l)
    (hu : ∀ u ∈ usages, NotNegative u) : Sound l := by
  induction usages using List.reverseRecOn generalizing l with
  | nil =>
    cases h
    exact ⟨le_refl 0, le_refl 0, le_refl 0, le_refl 0, fun _ => rfl⟩
  | append_singleton usages added ih =>
    obtain ⟨before, hbefore, hadd⟩ := log_append h
    have hsound := ih hbefore fun u hu' => hu u (List.mem_append_left _ hu')
    exact (log_usage_adds hadd).sound (hu added (by simp)) hsound

/-- The counts for the totals of the loop. -/
def codex_counts (t : Turn) (l : Logged) (c : Counts) : Prop :=
  c.input_tokens = codex_input l t.estimated_in_tokens + l.other_input_tokens ∧
    c.output_tokens = codex_output l CHAT_OUTPUT_TOKEN_ESTIMATE + l.other_output_tokens

/-- What holds of the counts of a turn with Codex. -/
structure CodexCounts (t : Turn) (usages : List JsonValue) (l : Logged) (c : Counts) : Prop where
  input_cap : c.input_tokens ≤ t.estimated_in_tokens + l.other_input_tokens
  output_cap : c.output_tokens ≤
    (if l.provider_usage.output_tokens ≠ 0 then l.provider_usage.output_tokens
      else CHAT_OUTPUT_TOKEN_ESTIMATE) + l.other_output_tokens
  output_pos : (∀ u ∈ usages, NotNegative u) → 0 < c.output_tokens
  input_pos : (∀ u ∈ usages, NotNegative u) →
    l.saw_codex_usage = false ∨ 0 < l.provider_usage.input_tokens ∨ 0 < l.other_input_tokens →
    0 < c.input_tokens

theorem codex_input_le (l : Logged) {estimate : Int} (h : 0 < estimate) :
    codex_input l estimate ≤ estimate := by
  unfold codex_input
  split <;> omega

/-- Before the CLI has reported, its output is not there. -/
theorem unseen_output {usages : List JsonValue} {l : Logged} (h : log_usages usages = .ok l)
    (hunseen : l.saw_codex_usage = false) : l.provider_usage.output_tokens = 0 := by
  induction usages using List.reverseRecOn generalizing l with
  | nil =>
    cases h
    rfl
  | append_singleton usages added ih =>
    obtain ⟨before, hbefore, hadd⟩ := log_append h
    cases log_usage_adds hadd with
    | nothing same => exact same ▸ ih hbefore (same ▸ hunseen)
    | codex fields input output is_dict cli tokens saw pin pout others =>
      rw [saw] at hunseen
      cases hunseen
    | other fields input output is_dict cli tokens saw provider others =>
      rw [provider]
      exact ih hbefore (saw ▸ hunseen)

theorem codex_counts_hold {t : Turn} {usages : List JsonValue} {l : Logged} {c : Counts}
    (hestimate : 0 < t.estimated_in_tokens) (h : log_usages usages = .ok l)
    (hc : codex_counts t l c) : CodexCounts t usages l c := by
  obtain ⟨hin, hout⟩ := hc
  refine ⟨?_, ?_, fun hu => ?_, fun hu hsome => ?_⟩
  · have hle := codex_input_le l hestimate
    omega
  · rw [hout]
    unfold codex_output
    by_cases hsaw : l.saw_codex_usage = true
    · simp only [hsaw, true_and]
      exact le_refl _
    · have hzero := unseen_output h (Bool.eq_false_iff.mpr hsaw)
      rw [if_neg fun h => hsaw h.1, if_neg (not_not.mpr hzero)]
  · obtain ⟨-, hpout, -, hoout, -⟩ := log_sound h hu
    have hpos : 0 < codex_output l CHAT_OUTPUT_TOKEN_ESTIMATE := by
      unfold codex_output
      split
      · next hreported => exact lt_of_le_of_ne hpout (Ne.symm hreported.2)
      · decide
    omega
  · obtain ⟨hpin, -, hoin, -, -⟩ := log_sound h hu
    have hnonneg : 0 ≤ codex_input l t.estimated_in_tokens := by
      unfold codex_input
      split <;> omega
    rcases hsome with hunseen | hprovider | hother
    · have hall : codex_input l t.estimated_in_tokens = max 0 t.estimated_in_tokens := by
        unfold codex_input
        rw [hunseen]
        exact if_neg Bool.false_ne_true
      omega
    · have hpos : 0 < codex_input l t.estimated_in_tokens := by
        unfold codex_input
        split <;> omega
      omega
    · omega

/-- A side whose estimate is not replaced does not fall. -/
theorem codex_counts_grow {t : Turn} {l l' : Logged} {added : JsonValue} {c d : Counts}
    (hunseen : l.saw_codex_usage = false → l.provider_usage.output_tokens = 0)
    (hadd : Adds l l' added) (hadded : NotNegative added) (hc : codex_counts t l c)
    (hd : codex_counts t l' d) :
    (l.saw_codex_usage = true ∨ is_codex_cli added = false → c.input_tokens ≤ d.input_tokens) ∧
      (0 < l.provider_usage.output_tokens ∨ is_codex_cli added = false →
        c.output_tokens ≤ d.output_tokens) := by
  obtain ⟨hcin, hcout⟩ := hc
  obtain ⟨hdin, hdout⟩ := hd
  cases hadd with
  | nothing same =>
    subst same
    exact ⟨fun _ => by omega, fun _ => by omega⟩
  | codex fields input output is_dict cli tokens saw pin pout others =>
    obtain ⟨hin, hout⟩ := hadded fields _ is_dict tokens
    dsimp only at hin hout
    have hcli : is_codex_cli added = true := by
      rw [is_dict]
      exact cli
    refine ⟨fun h => ?_, fun h => ?_⟩
    · have hsaw := h.resolve_right (by rw [hcli]; decide)
      have hle : codex_input l t.estimated_in_tokens ≤ codex_input l' t.estimated_in_tokens := by
        unfold codex_input
        rw [if_pos hsaw, if_pos saw, pin]
        omega
      omega
    · have hpos := h.resolve_right (by rw [hcli]; decide)
      have hsaw : l.saw_codex_usage = true := by
        by_contra hnot
        have hzero := hunseen (Bool.eq_false_iff.mpr hnot)
        omega
      have hle : codex_output l CHAT_OUTPUT_TOKEN_ESTIMATE ≤
          codex_output l' CHAT_OUTPUT_TOKEN_ESTIMATE := by
        unfold codex_output
        rw [if_pos ⟨hsaw, by omega⟩, if_pos ⟨saw, by omega⟩, pout]
        omega
      omega
  | other fields input output is_dict cli tokens saw provider others =>
    obtain ⟨hin, hout⟩ := hadded fields _ is_dict tokens
    dsimp only at hin hout
    have hinput : codex_input l' t.estimated_in_tokens = codex_input l t.estimated_in_tokens := by
      unfold codex_input
      rw [saw, provider]
    have houtput : codex_output l' CHAT_OUTPUT_TOKEN_ESTIMATE =
        codex_output l CHAT_OUTPUT_TOKEN_ESTIMATE := by
      unfold codex_output
      rw [saw, provider]
    exact ⟨fun _ => by omega, fun _ => by omega⟩

/-! ## The law -/

/-- The counts of a turn, for the totals of its usages. -/
inductive Counted (t : Turn) (usages : List JsonValue) (c : Counts) : Prop where
  | plain (input output : Int) (kind : t.is_codex = false)
      (total : sum_usage_tokens usages = .ok (input, output))
      (counts : PlainCounts t input output c)
  | codex (l : Logged) (kind : t.is_codex = true) (total : log_usages usages = .ok l)
      (counts : CodexCounts t usages l c)

/-- A usage more lowers a count only by putting a report in the place of an
estimate. -/
inductive NeverLowered (t : Turn) (usages : List JsonValue) (added : JsonValue) (c d : Counts) :
    Prop where
  | plain (input output : Int) (kind : t.is_codex = false)
      (total : sum_usage_tokens usages = .ok (input, output))
      (grows : (0 < input → c.input_tokens ≤ d.input_tokens) ∧
        (0 < output → c.output_tokens ≤ d.output_tokens))
  | codex (l : Logged) (kind : t.is_codex = true) (total : log_usages usages = .ok l)
      (grows : NotNegative added →
        (l.saw_codex_usage = true ∨ is_codex_cli added = false →
          c.input_tokens ≤ d.input_tokens) ∧
        (0 < l.provider_usage.output_tokens ∨ is_codex_cli added = false →
          c.output_tokens ≤ d.output_tokens))

theorem counts_codex {t : Turn} {usages : List JsonValue} {c : Counts} (hkind : t.is_codex = true)
    (h : usage_counts t usages = .ok c) : ∃ l, log_usages usages = .ok l ∧ codex_counts t l c := by
  unfold usage_counts at h
  rw [if_pos hkind] at h
  obtain ⟨l, hl, h⟩ := of_bind_ok h
  cases h
  exact ⟨l, hl, rfl, rfl⟩

theorem counts_plain {t : Turn} {usages : List JsonValue} {c : Counts} (hkind : t.is_codex = false)
    (h : usage_counts t usages = .ok c) :
    ∃ total, sum_usage_tokens usages = .ok total ∧ c = plain_counts t total.1 total.2 := by
  unfold usage_counts at h
  rw [if_neg (by rw [hkind]; decide)] at h
  obtain ⟨total, htotal, h⟩ := of_bind_ok h
  cases h
  exact ⟨total, htotal, rfl⟩

/-- LAW: The output is billed as positive unless nothing at all is reported and
the answer costs nothing. The input is billed as positive when it is reported,
or nothing is and the answer costs something. Codex is billed for at most the
prompt of the app and what other calls report. One usage more never lowers a
side that is reported already. -/
theorem a_side_is_billed_as_reported_or_estimated (t : Turn)
    (hestimate : 0 < t.estimated_in_tokens) (usages : List JsonValue) (c : Counts)
    (hc : usage_counts t usages = .ok c) :
    Counted t usages c ∧ ∀ added d, usage_counts t (usages ++ [added]) = .ok d →
      NeverLowered t usages added c d := by
  cases hkind : t.is_codex with
  | true =>
    obtain ⟨l, hl, hcounts⟩ := counts_codex hkind hc
    refine ⟨.codex l hkind hl (codex_counts_hold hestimate hl hcounts), fun added d hd => ?_⟩
    obtain ⟨l', hl', hcounts'⟩ := counts_codex hkind hd
    obtain ⟨before, hbefore, hadd⟩ := log_append hl'
    cases hl.symm.trans hbefore
    exact .codex l hkind hl fun hadded =>
      codex_counts_grow (unseen_output hl) (log_usage_adds hadd) hadded hcounts hcounts'
  | false =>
    obtain ⟨⟨input, output⟩, htotal, rfl⟩ := counts_plain hkind hc
    obtain ⟨hin, hout⟩ := sum_nonneg htotal
    have hcounts := plain_counts_hold t hestimate hin hout
    refine ⟨.plain input output hkind htotal hcounts, fun added d hd => ?_⟩
    obtain ⟨⟨input', output'⟩, htotal', rfl⟩ := counts_plain hkind hd
    obtain ⟨hin', hout'⟩ := sum_nonneg htotal'
    have hcounts' := plain_counts_hold t hestimate hin' hout'
    obtain ⟨before, hbefore, hadd⟩ := sum_append htotal'
    cases htotal.symm.trans hbefore
    obtain ⟨hmore, hmore'⟩ := add_usage_grows hadd
    refine .plain input output hkind htotal ⟨fun hpos => ?_, fun hpos => ?_⟩
    · rw [hcounts.kept.1 hpos]
      exact hmore.trans hcounts'.reported.1
    · rw [hcounts.kept.2 hpos]
      exact hmore'.trans hcounts'.reported.2

/-- An answer of nine characters to a prompt of ten tokens. -/
def small_turn : Turn where
  is_codex := false
  estimated_in_tokens := 10
  estimated_cost_usd := 1
  full_reply := "An answer"

def small_usage : JsonValue := .dict [("prompt_tokens", .int 5), ("completion_tokens", .int 4)]

theorem a_small_turn_is_counted :
    ∃ c, usage_counts small_turn [small_usage] = .ok c ∧ Counted small_turn [small_usage] c :=
  ⟨⟨5, 4, "provider_reported"⟩, by decide +kernel,
    (a_side_is_billed_as_reported_or_estimated small_turn (by decide) [small_usage] _
      (by decide +kernel)).1⟩

/-- What the counts would be if no usage ever lowered them and no side was
zero. -/
def NoSideIsZero (t : Turn) (usages : List JsonValue) (added : JsonValue) : Prop :=
  ∀ c d, usage_counts t usages = .ok c → usage_counts t (usages ++ [added]) = .ok d →
    (0 < c.input_tokens ∧ 0 < c.output_tokens) ∧
      c.input_tokens ≤ d.input_tokens ∧ c.output_tokens ≤ d.output_tokens

/-- The report of five tokens takes the place of the estimate of ten. And an
answer that costs nothing is billed as zero tokens when nothing is reported. -/
theorem a_report_replaces_the_estimate :
    ¬NoSideIsZero small_turn [] small_usage ∧
      ¬NoSideIsZero { small_turn with estimated_cost_usd := 0 } [] small_usage := by
  refine ⟨fun h => ?_, fun h => ?_⟩
  · have hfalls := h ⟨10, 3, "estimated"⟩ ⟨5, 4, "provider_reported"⟩ (by decide +kernel)
      (by decide +kernel)
    exact absurd hfalls.2.1 (by decide)
  · have hzero := h ⟨0, 0, "partial_estimated"⟩ ⟨5, 4, "provider_reported"⟩ (by decide +kernel)
      (by decide +kernel)
    exact absurd hzero.1.1 (by decide)

end dr_boz.billed_tokens
