-- Law of `_chunk_text` of the bot: how a text is cut into messages, and when
-- no message is blank.
import DrBoz.FinalResponses

open dr_boz.final_responses (Text)
open dr_boz.py (isSpace)

namespace dr_boz.text_chunks

/-! ## The loop -/

/-- `remaining.rfind("\n", 0, limit)` -/
def rfind_newline (limit : Nat) (remaining : Text) : Option Nat :=
  let after := ((remaining.take limit).reverse.takeWhile (· ≠ '\n')).length
  if after < (remaining.take limit).length then some ((remaining.take limit).length - after - 1)
  else none

/-- Where a turn cuts. No text is so long that `limit * 0.5` would be rounded. -/
def cut (limit : Nat) (remaining : Text) : Nat :=
  match rfind_newline limit remaining with
  | some i => if i < limit / 2 then limit else i
  | none => limit

/-- `remaining[:cut].rstrip()` -/
def chunk (limit : Nat) (remaining : Text) : Text :=
  (remaining.take (cut limit remaining)).rdropWhile isSpace

/-- `remaining[cut:].lstrip("\n")` -/
def behind (limit : Nat) (remaining : Text) : Text :=
  (remaining.drop (cut limit remaining)).dropWhile (· = '\n')

/-- The `while` loop and the chunk behind it. Nothing stands for more than `turns` turns. -/
def chunk_loop (limit : Nat) : Nat → Text → Option (List Text)
  | 0, _ => none
  | turns + 1, remaining =>
    if remaining.length > limit then
      (chunk_loop limit turns (behind limit remaining)).map (chunk limit remaining :: ·)
    else some (if remaining.isEmpty then [] else [remaining])

def _chunk_text (turns : Nat) (text : Text) (limit : Nat) : Option (List Text) :=
  if text.length ≤ limit then some [text] else chunk_loop limit turns text

/-! ## What the messages are to be -/

def Blank (text : Text) : Prop := ∀ c ∈ text, isSpace c = true

def visible (text : Text) : Text := text.filter (!isSpace ·)

structure Chunked (limit : Nat) (text : Text) (chunks : List Text) : Prop where
  sizes : ∀ c ∈ chunks, 1 ≤ c.length ∧ c.length ≤ limit
  not_blank : ∀ c ∈ chunks, ¬Blank c
  kept : visible chunks.flatten = visible text

/-- The loop ends, whatever turns it may take above the length of the text, and with such
chunks. -/
def ChunksWell (limit : Nat) (text : Text) : Prop :=
  ∃ chunks, (∀ turns, text.length < turns → _chunk_text turns text limit = some chunks) ∧
    Chunked limit text chunks

/-- Before each turn something stands before its cut, and what is not cut any more is empty or
not blank. -/
inductive Fits (limit : Nat) : Text → Prop
  | rest {text : Text} : text.length ≤ limit → (text ≠ [] → ¬Blank text) → Fits limit text
  | turn {text : Text} : limit < text.length → ¬Blank (text.take (cut limit text)) →
    Fits limit (behind limit text) → Fits limit text

/-! ## One turn -/

section
variable {limit : Nat} {text : Text}

theorem rfind_newline_lt {i : Nat} (h : rfind_newline limit text = some i) : i < limit := by
  unfold rfind_newline at h
  simp only [Option.ite_none_right_eq_some, Option.some.injEq] at h
  obtain ⟨hafter, rfl⟩ := h
  have hlength := List.length_take_le limit text
  omega

/-- A cut is behind the middle of what a message may have. -/
theorem cut_bounds (limit : Nat) (text : Text) :
    limit / 2 ≤ cut limit text ∧ cut limit text ≤ limit := by
  unfold cut
  split
  · next i hi =>
    have hlt := rfind_newline_lt hi
    split <;> omega
  · omega

theorem behind_shorter (hlimit : 2 ≤ limit) (hlong : limit < text.length) :
    (behind limit text).length < text.length := by
  have hcut := (cut_bounds limit text).1
  have hdrop := (List.dropWhile_suffix (l := text.drop (cut limit text)) (· = '\n')).length_le
  rw [List.length_drop] at hdrop
  unfold behind
  omega

theorem chunk_length (limit : Nat) (text : Text) : (chunk limit text).length ≤ limit := by
  have hstrip := (List.rdropWhile_prefix isSpace (text.take (cut limit text))).length_le
  have hcut := (cut_bounds limit text).2
  have htake := List.length_take_le (cut limit text) text
  unfold chunk
  omega

theorem visible_append (a b : Text) : visible (a ++ b) = visible a ++ visible b :=
  List.filter_append a b

theorem visible_eq_nil : visible text = [] ↔ Blank text := by
  unfold visible Blank
  rw [List.filter_eq_nil_iff]
  simp only [Bool.not_eq_true', Bool.not_eq_false]

theorem visible_dropWhile {p : Char → Bool} (h : ∀ c, p c = true → isSpace c = true) (text : Text) :
    visible (text.dropWhile p) = visible text := by
  induction text with
  | nil => rfl
  | cons c text ih =>
    by_cases hc : p c = true
    · rw [List.dropWhile_cons_of_pos hc, ih]
      unfold visible
      rw [List.filter_cons_of_neg (by rw [h c hc]; decide)]
    · rw [List.dropWhile_cons_of_neg hc]

theorem visible_reverse (text : Text) : visible text.reverse = (visible text).reverse :=
  List.filter_reverse

theorem visible_rstrip (text : Text) : visible (text.rdropWhile isSpace) = visible text := by
  unfold List.rdropWhile
  rw [visible_reverse, visible_dropWhile (fun _ hc => hc), visible_reverse, List.reverse_reverse]

/-- The chunk of a turn and what is behind it have the characters of the text. -/
theorem visible_turn (limit : Nat) (text : Text) :
    visible (chunk limit text) ++ visible (behind limit text) = visible text := by
  have hnewline : ∀ c, decide (c = '\n') = true → isSpace c = true := fun c hc => by
    rw [of_decide_eq_true hc]
    decide
  unfold chunk behind
  rw [visible_rstrip, visible_dropWhile hnewline, ← visible_append, List.take_append_drop]

theorem blank_chunk : Blank (chunk limit text) ↔ Blank (text.take (cut limit text)) := by
  rw [← visible_eq_nil, ← visible_eq_nil]
  unfold chunk
  rw [visible_rstrip]

theorem length_pos_of_not_blank (h : ¬Blank text) : 1 ≤ text.length := by
  cases text with
  | nil => exact absurd (fun c hc => absurd hc List.not_mem_nil) h
  | cons c text => exact Nat.succ_le_succ (Nat.zero_le _)

theorem fits_short (h : text.length ≤ limit) :
    Fits limit text ↔ (text ≠ [] → ¬Blank text) := by
  constructor
  · intro hfits
    cases hfits with
    | rest _ hrest => exact hrest
    | turn hlong _ _ => omega
  · exact Fits.rest h

theorem fits_long (h : limit < text.length) :
    Fits limit text ↔ ¬Blank (text.take (cut limit text)) ∧ Fits limit (behind limit text) := by
  constructor
  · intro hfits
    cases hfits with
    | rest hshort _ => omega
    | turn _ hcut hbehind => exact ⟨hcut, hbehind⟩
  · exact fun ⟨hcut, hbehind⟩ => Fits.turn h hcut hbehind

/-! ## All turns -/

/-- What the loop makes of a text. -/
structure Runs (limit : Nat) (text : Text) (chunks : List Text) : Prop where
  ends : ∀ turns, text.length < turns → chunk_loop limit turns text = some chunks
  short : ∀ c ∈ chunks, c.length ≤ limit
  kept : visible chunks.flatten = visible text
  not_blank : (∀ c ∈ chunks, ¬Blank c) ↔ Fits limit text

theorem runs_short (h : text.length ≤ limit) :
    Runs limit text (if text.isEmpty then [] else [text]) where
  ends turns hturns := by
    obtain ⟨turns, rfl⟩ := Nat.exists_eq_add_one.mpr (Nat.zero_lt_of_lt hturns)
    unfold chunk_loop
    rw [if_neg (by omega)]
  short := by
    cases text with
    | nil => exact fun c hc => absurd hc List.not_mem_nil
    | cons a text => exact fun c hc => List.mem_singleton.mp hc ▸ h
  kept := by
    cases text with
    | nil => rfl
    | cons a text => exact congrArg visible (List.append_nil (a :: text))
  not_blank := by
    rw [fits_short h]
    cases text with
    | nil => exact ⟨fun _ hne => absurd rfl hne, fun _ c hc => absurd hc List.not_mem_nil⟩
    | cons a text =>
      exact ⟨fun hall _ => hall _ (List.mem_singleton.mpr rfl),
        fun hrest c hc => List.mem_singleton.mp hc ▸ hrest (List.cons_ne_nil a text)⟩

/-- One turn more. -/
theorem Runs.turn {chunks : List Text} (hlimit : 2 ≤ limit) (hlong : limit < text.length)
    (h : Runs limit (behind limit text) chunks) :
    Runs limit text (chunk limit text :: chunks) where
  ends turns hturns := by
    obtain ⟨turns, rfl⟩ := Nat.exists_eq_add_one.mpr (Nat.zero_lt_of_lt hturns)
    have hshorter := behind_shorter hlimit hlong
    unfold chunk_loop
    rw [if_pos hlong, h.ends turns (by omega)]
    rfl
  short := List.forall_mem_cons.mpr ⟨chunk_length limit text, h.short⟩
  kept := by
    rw [List.flatten_cons, visible_append, h.kept, visible_turn]
  not_blank := by
    rw [fits_long hlong, ← h.not_blank, ← blank_chunk, List.forall_mem_cons]

/-- The loop ends on every text: each turn leaves less of it. -/
theorem exists_runs (hlimit : 2 ≤ limit) (text : Text) : ∃ chunks, Runs limit text chunks := by
  induction hlength : text.length using Nat.strong_induction_on generalizing text with
  | _ n ih =>
    by_cases hlong : limit < text.length
    · obtain ⟨chunks, hruns⟩ :=
        ih _ (hlength ▸ behind_shorter hlimit hlong) (behind limit text) rfl
      exact ⟨_, hruns.turn hlimit hlong⟩
    · exact ⟨_, runs_short (Nat.le_of_not_lt hlong)⟩

/-! ## The law -/

end

end dr_boz.text_chunks
