-- Regular expressions as a backtracking engine reads them: what an expression
-- can take at a place, in the order in which the engine tries it. The first of
-- these is the match, and the matches of a text are looked for from the left.
import DrBoz.Lib.Cuts

namespace regexes

/-! ## Expressions -/

/-- An expression. `most` and `fewest` are `p*` and `p*?` for a class of characters,
`edge` looks at the two characters beside a place, and `finish` is `$` of a whole text. -/
inductive Regex where
  | empty
  | lit (c : Char)
  | one (p : Char → Bool)
  | seq (a b : Regex)
  | alt (a b : Regex)
  | most (p : Char → Bool)
  | fewest (p : Char → Bool)
  | edge (ok : Option Char → Option Char → Bool)
  | finish

/-- A place in a text: the character before it and the text after it. -/
abbrev Place := Option Char × List Char

def one_from (p : Char → Bool) : List Char → List Place
  | [] => []
  | c :: text => if p c then [(some c, text)] else []

def most_from (p : Char → Bool) : Option Char → List Char → List Place
  | prev, [] => [(prev, [])]
  | prev, c :: text =>
    if p c then most_from p (some c) text ++ [(prev, c :: text)] else [(prev, c :: text)]

def fewest_from (p : Char → Bool) : Option Char → List Char → List Place
  | prev, [] => [(prev, [])]
  | prev, c :: text => (prev, c :: text) :: if p c then fewest_from p (some c) text else []

namespace Regex

/-- The places where the expression can end from a place, as the engine tries them. -/
def rests : Regex → Option Char → List Char → List Place
  | empty, prev, text => [(prev, text)]
  | lit c, _, text => one_from (· == c) text
  | one p, _, text => one_from p text
  | seq a b, prev, text => (a.rests prev text).flatMap fun place => b.rests place.1 place.2
  | alt a b, prev, text => a.rests prev text ++ b.rests prev text
  | most p, prev, text => most_from p prev text
  | fewest p, prev, text => fewest_from p prev text
  | edge ok, prev, text => if ok prev text.head? then [(prev, text)] else []
  | finish, prev, text => if text = [] ∨ text = ['\n'] then [(prev, text)] else []

/-- How many characters the match at a place takes, or 0. -/
def taken (r : Regex) (prev : Option Char) (text : List Char) : Nat :=
  match r.rests prev text with
  | [] => 0
  | place :: _ => text.length - place.2.length

/-- `r.fullmatch(text)` -/
def Whole (r : Regex) (text : List Char) : Prop := ∃ prev, (prev, []) ∈ r.rests none text

def found_from (r : Regex) : Option Char → List Char → Bool
  | _, [] => false
  | prev, c :: text => r.taken prev (c :: text) != 0 || found_from r (some c) text

/-- The expression takes something somewhere in the text. -/
def found (r : Regex) (text : List Char) : Bool := r.found_from none text

/-- The fewest characters that the expression takes. -/
def width : Regex → Nat
  | lit _ | one _ => 1
  | seq a b => a.width + b.width
  | alt a b => min a.width b.width
  | _ => 0

/-- The characters that all that the expression takes begins with. -/
def opening : Regex → List Char
  | lit c => [c]
  | seq (lit c) b => c :: b.opening
  | _ => []

/-- The expression begins with a character, whatever is before it. -/
def starts : Regex → Bool
  | lit _ | one _ => true
  | seq a _ => a.starts
  | alt a b => a.starts && b.starts
  | _ => false

/-- `$` of the whole text is not in the expression. -/
def short_sighted : Regex → Bool
  | seq a b | alt a b => a.short_sighted && b.short_sighted
  | finish => false
  | _ => true

/-- The expression ends with a character, and looks no further. -/
def ends : Regex → Bool
  | lit _ | one _ => true
  | seq a b => a.short_sighted && b.ends
  | alt a b => a.ends && b.ends
  | _ => false

/-- One after another. -/
def in_order : List Regex → Regex
  | [] => empty
  | [r] => r
  | r :: rs => seq r (in_order rs)

/-- `(?:..|..)` -/
def any_of : List Regex → Regex
  | [] => empty
  | [r] => r
  | r :: rs => alt r (any_of rs)

/-- `(?:..)?` -/
def optional (r : Regex) : Regex := alt r empty

/-- `p+` -/
def some_of (p : Char → Bool) : Regex := seq (one p) (most p)

def exactly (text : String) : Regex := in_order (text.toList.map lit)

/-- `c{n,}` -/
def at_least (c : Char) : Nat → Regex
  | 0 => most (· == c)
  | n + 1 => seq (lit c) (at_least c n)

/-- `p+$` -/
def at_the_end (p : Char → Bool) : Regex := seq (some_of p) finish

/-! ## What is taken -/

/-- The character before a place, after `m` is taken from there. -/
def after (prev : Option Char) (m : List Char) : Option Char := m.getLast?.or prev

theorem mem_one_from {p : Char → Bool} {text s : List Char} {q : Option Char} :
    (q, s) ∈ one_from p text ↔ ∃ c, text = c :: s ∧ p c = true ∧ q = some c := by
  cases text with
  | nil => simp [one_from]
  | cons c text =>
    by_cases hc : p c = true
    · simp only [one_from, if_pos hc, List.mem_singleton, Prod.mk.injEq, List.cons.injEq]
      constructor
      · rintro ⟨rfl, rfl⟩
        exact ⟨c, ⟨rfl, rfl⟩, hc, rfl⟩
      · rintro ⟨d, ⟨rfl, rfl⟩, -, rfl⟩
        exact ⟨rfl, rfl⟩
    · simp only [one_from, if_neg hc, List.not_mem_nil, List.cons.injEq, false_iff]
      rintro ⟨d, ⟨rfl, rfl⟩, hd, -⟩
      exact hc hd

theorem after_cons (prev : Option Char) (c : Char) (m : List Char) :
    after prev (c :: m) = after (some c) m := by
  cases m with
  | nil => rfl
  | cons d m =>
    rw [after, after, List.getLast?_cons_cons, List.getLast?_eq_some_getLast (by simp)]
    rfl

theorem mem_most_from {p : Char → Bool} {text s : List Char} {prev q : Option Char} :
    (q, s) ∈ most_from p prev text ↔
      ∃ m, text = m ++ s ∧ (∀ c ∈ m, p c = true) ∧ q = after prev m := by
  induction text generalizing prev with
  | nil =>
    simp only [most_from, List.mem_singleton, Prod.mk.injEq]
    constructor
    · rintro ⟨rfl, rfl⟩
      exact ⟨[], rfl, by simp, rfl⟩
    · rintro ⟨m, hm, -, rfl⟩
      obtain ⟨rfl, rfl⟩ := List.append_eq_nil_iff.mp hm.symm
      exact ⟨rfl, rfl⟩
  | cons c text ih =>
    have hstay : (q, s) = (prev, c :: text) ↔ s = c :: text ∧ q = after prev [] := by
      rw [Prod.mk.injEq, and_comm]
      rfl
    by_cases hc : p c = true
    · rw [most_from, if_pos hc, List.mem_append, ih, List.mem_singleton, hstay]
      constructor
      · rintro (⟨m, rfl, hm, rfl⟩ | ⟨rfl, rfl⟩)
        · exact ⟨c :: m, rfl, by simpa [hc] using hm, (after_cons prev c m).symm⟩
        · exact ⟨[], rfl, by simp, rfl⟩
      · rintro ⟨m, hm, hall, rfl⟩
        cases m with
        | nil => exact Or.inr ⟨hm.symm, rfl⟩
        | cons d m =>
          obtain ⟨rfl, rfl⟩ := List.cons.inj hm
          exact Or.inl ⟨m, rfl, fun x hx => hall x (by simp [hx]), after_cons prev c m⟩
    · rw [most_from, if_neg hc, List.mem_singleton, hstay]
      constructor
      · rintro ⟨rfl, rfl⟩
        exact ⟨[], rfl, by simp, rfl⟩
      · rintro ⟨m, hm, hall, rfl⟩
        cases m with
        | nil => exact ⟨hm.symm, rfl⟩
        | cons d m =>
          obtain ⟨rfl, rfl⟩ := List.cons.inj hm
          exact absurd (hall c (by simp)) hc

/-- The lazy engine tries the same places, in the other order. -/
theorem fewest_from_eq (p : Char → Bool) (prev : Option Char) (text : List Char) :
    fewest_from p prev text = (most_from p prev text).reverse := by
  induction text generalizing prev with
  | nil => rfl
  | cons c text ih =>
    by_cases hc : p c = true
    · rw [fewest_from, most_from, if_pos hc, if_pos hc, ih, List.reverse_append]
      rfl
    · rw [fewest_from, most_from, if_neg hc, if_neg hc]
      rfl

theorem mem_fewest_from {p : Char → Bool} {text s : List Char} {prev q : Option Char} :
    (q, s) ∈ fewest_from p prev text ↔
      ∃ m, text = m ++ s ∧ (∀ c ∈ m, p c = true) ∧ q = after prev m := by
  rw [fewest_from_eq, List.mem_reverse, mem_most_from]

/-- Where nothing is taken, the place stays. -/
theorem mem_stay {b : Prop} [Decidable b] {place found : Place}
    (h : found ∈ if b then [place] else []) : b ∧ found = place := by
  by_cases hb : b
  · rw [if_pos hb] at h
    exact ⟨hb, List.mem_singleton.mp h⟩
  · rw [if_neg hb] at h
    exact absurd h List.not_mem_nil

theorem opening_seq_lit (c : Char) (b : Regex) : (seq (lit c) b).opening = c :: b.opening := rfl

/-- A place that is reached leaves the text after some of its characters, which are as
many as the expression takes at least and begin with its opening. -/
theorem rests_split {r : Regex} {prev q : Option Char} {text s : List Char}
    (h : (q, s) ∈ r.rests prev text) :
    ∃ m, text = m ++ s ∧ r.width ≤ m.length ∧ r.opening <+: m := by
  induction r generalizing prev q text s with
  | empty =>
    obtain ⟨rfl, rfl⟩ := Prod.mk.inj (List.mem_singleton.mp h)
    exact ⟨[], rfl, le_rfl, List.nil_prefix⟩
  | lit c =>
    obtain ⟨d, rfl, hd, -⟩ := mem_one_from.mp h
    rw [eq_of_beq hd]
    exact ⟨[c], rfl, le_rfl, List.prefix_rfl⟩
  | one p =>
    obtain ⟨d, rfl, -, -⟩ := mem_one_from.mp h
    exact ⟨[d], rfl, le_rfl, List.nil_prefix⟩
  | seq a b iha ihb =>
    obtain ⟨⟨q', s'⟩, ha, hb⟩ := List.mem_flatMap.mp h
    obtain ⟨m, rfl, hm, hopen⟩ := iha ha
    obtain ⟨n, rfl, hn, hopen'⟩ := ihb hb
    refine ⟨m ++ n, (List.append_assoc m n s).symm, ?_, ?_⟩
    · simp only [width, List.length_append]
      omega
    · cases a with
      | lit c =>
        obtain ⟨d, hd, hc, -⟩ := mem_one_from.mp ha
        have hlen : m = [d] := List.append_cancel_right hd
        rw [hlen, eq_of_beq hc, opening_seq_lit]
        exact (List.prefix_cons_inj c).mpr hopen'
      | _ => exact List.nil_prefix
  | alt a b iha ihb =>
    rcases List.mem_append.mp h with ha | hb
    · obtain ⟨m, rfl, hm, -⟩ := iha ha
      exact ⟨m, rfl, (min_le_left _ _).trans hm, List.nil_prefix⟩
    · obtain ⟨m, rfl, hm, -⟩ := ihb hb
      exact ⟨m, rfl, (min_le_right _ _).trans hm, List.nil_prefix⟩
  | most p =>
    obtain ⟨m, rfl, -, -⟩ := mem_most_from.mp h
    exact ⟨m, rfl, Nat.zero_le _, List.nil_prefix⟩
  | fewest p =>
    obtain ⟨m, rfl, -, -⟩ := mem_fewest_from.mp h
    exact ⟨m, rfl, Nat.zero_le _, List.nil_prefix⟩
  | edge ok =>
    obtain ⟨rfl, rfl⟩ := Prod.mk.inj (mem_stay h).2
    exact ⟨[], rfl, le_rfl, List.nil_prefix⟩
  | finish =>
    obtain ⟨rfl, rfl⟩ := Prod.mk.inj (mem_stay h).2
    exact ⟨[], rfl, le_rfl, List.nil_prefix⟩

theorem taken_pos {r : Regex} {prev : Option Char} {text : List Char} {place : Place}
    (hwidth : 0 < r.width) (h : place ∈ r.rests prev text) : 0 < r.taken prev text := by
  cases hrests : r.rests prev text with
  | nil =>
    rw [hrests] at h
    exact absurd h List.not_mem_nil
  | cons best others =>
    obtain ⟨q, s⟩ := best
    obtain ⟨m, rfl, hm, -⟩ := rests_split (show (q, s) ∈ r.rests prev text by simp [hrests])
    simp only [taken, hrests, List.length_append]
    omega

theorem taken_split {r : Regex} {prev : Option Char} {text : List Char} {n : Nat}
    (h : r.taken prev text = n + 1) :
    ∃ m s, text = m ++ s ∧ m.length = n + 1 ∧ r.width ≤ n + 1 ∧ r.opening <+: m := by
  cases hrests : r.rests prev text with
  | nil => simp [taken, hrests] at h
  | cons best others =>
    obtain ⟨q, s⟩ := best
    obtain ⟨m, rfl, hm, hopen⟩ := rests_split (show (q, s) ∈ r.rests prev text by simp [hrests])
    have hlen : m.length = n + 1 := by
      simp only [taken, hrests, List.length_append] at h
      omega
    exact ⟨m, s, rfl, hlen, hlen ▸ hm, hopen⟩

/-! ## A match at another place -/

theorem rests_of_starts {r : Regex} (hr : r.starts = true) (prev prev' : Option Char)
    (text : List Char) : r.rests prev text = r.rests prev' text := by
  induction r generalizing prev prev' text with
  | lit c => rfl
  | one p => rfl
  | seq a b iha ihb => rw [rests, rests, iha hr prev prev']
  | alt a b iha ihb =>
    obtain ⟨ha, hb⟩ := Bool.and_eq_true_iff.mp hr
    rw [rests, rests, iha ha prev prev', ihb hb prev prev']
  | empty | most | fewest | edge | finish => cases hr

theorem width_of_ends {r : Regex} (hr : r.ends = true) : 0 < r.width := by
  induction r with
  | lit c => exact Nat.one_pos
  | one p => exact Nat.one_pos
  | seq a b iha ihb => exact Nat.add_pos_right _ (ihb (Bool.and_eq_true_iff.mp hr).2)
  | alt a b iha ihb =>
    obtain ⟨ha, hb⟩ := Bool.and_eq_true_iff.mp hr
    exact lt_min (iha ha) (ihb hb)
  | empty | most | fewest | edge | finish => cases hr

theorem short_sighted_of_ends {r : Regex} (hr : r.ends = true) : r.short_sighted = true := by
  induction r with
  | lit c => rfl
  | one p => rfl
  | seq a b iha ihb =>
    obtain ⟨ha, hb⟩ := Bool.and_eq_true_iff.mp hr
    exact Bool.and_eq_true_iff.mpr ⟨ha, ihb hb⟩
  | alt a b iha ihb =>
    obtain ⟨ha, hb⟩ := Bool.and_eq_true_iff.mp hr
    exact Bool.and_eq_true_iff.mpr ⟨iha ha, ihb hb⟩
  | empty | most | fewest | edge | finish => cases hr

/-- What is taken before a character, or by an expression that ends with one, is taken there too
when the text goes on longer: only `$` sees more than the next character. -/
theorem rests_before {r : Regex} (hr : r.short_sighted = true) {prev q : Option Char}
    {text s : List Char} (h : (q, s) ∈ r.rests prev text) (hs : s ≠ [] ∨ r.ends = true)
    (more : List Char) : (q, s ++ more) ∈ r.rests prev (text ++ more) := by
  induction r generalizing prev q text s with
  | empty =>
    obtain ⟨rfl, rfl⟩ := Prod.mk.inj (List.mem_singleton.mp h)
    exact List.mem_singleton.mpr rfl
  | lit d =>
    obtain ⟨e, rfl, he, rfl⟩ := mem_one_from.mp h
    exact mem_one_from.mpr ⟨e, rfl, he, rfl⟩
  | one p =>
    obtain ⟨e, rfl, he, rfl⟩ := mem_one_from.mp h
    exact mem_one_from.mpr ⟨e, rfl, he, rfl⟩
  | seq a b iha ihb =>
    obtain ⟨hra, hrb⟩ := Bool.and_eq_true_iff.mp hr
    have hsb : s ≠ [] ∨ b.ends = true := hs.imp_right fun h => (Bool.and_eq_true_iff.mp h).2
    obtain ⟨⟨q', s'⟩, ha, hb⟩ := List.mem_flatMap.mp h
    -- The second part begins before a character, which it takes or leaves.
    have hs' : s' ≠ [] := by
      obtain ⟨m, rfl, hm, -⟩ := rests_split hb
      rcases hsb with hne | hends
      · exact List.append_ne_nil_of_right_ne_nil _ hne
      · refine List.append_ne_nil_of_left_ne_nil (List.length_pos_iff.mp ?_) _
        exact (width_of_ends hends).trans_le hm
    exact List.mem_flatMap.mpr ⟨(q', s' ++ more), iha hra ha (.inl hs'), ihb hrb hb hsb⟩
  | alt a b iha ihb =>
    obtain ⟨hra, hrb⟩ := Bool.and_eq_true_iff.mp hr
    rcases List.mem_append.mp h with ha | hb
    · exact List.mem_append_left _
        (iha hra ha (hs.imp_right fun h => (Bool.and_eq_true_iff.mp h).1))
    · exact List.mem_append_right _
        (ihb hrb hb (hs.imp_right fun h => (Bool.and_eq_true_iff.mp h).2))
  | most p =>
    obtain ⟨m, rfl, hall, rfl⟩ := mem_most_from.mp h
    exact mem_most_from.mpr ⟨m, by simp, hall, rfl⟩
  | fewest p =>
    obtain ⟨m, rfl, hall, rfl⟩ := mem_fewest_from.mp h
    exact mem_fewest_from.mpr ⟨m, by simp, hall, rfl⟩
  | edge ok =>
    obtain ⟨hok, hplace⟩ := mem_stay h
    obtain ⟨rfl, rfl⟩ := Prod.mk.inj hplace
    obtain ⟨c, s, rfl⟩ := List.exists_cons_of_ne_nil (hs.resolve_right fun h => by cases h)
    rw [rests, if_pos (show ok q (c :: s ++ more).head? = true from hok)]
    exact List.mem_singleton.mpr rfl
  | finish => cases hr

/-- An expression that ends with a character takes the same whatever comes after it. -/
theorem rests_append {r : Regex} (hr : r.ends = true) {prev q : Option Char} {text s : List Char}
    (h : (q, s) ∈ r.rests prev text) (more : List Char) :
    (q, s ++ more) ∈ r.rests prev (text ++ more) :=
  rests_before (short_sighted_of_ends hr) h (.inr hr) more

/-- What the expression matches as a whole it matches in the middle of a text. -/
theorem Whole.taken_pos {r : Regex} {m : List Char} (hstarts : r.starts = true)
    (hends : r.ends = true) (h : r.Whole m) (prev : Option Char) (more : List Char) :
    0 < r.taken prev (m ++ more) := by
  obtain ⟨q, hq⟩ := h
  have hrests : (q, more) ∈ r.rests prev (m ++ more) := by
    rw [rests_of_starts hstarts prev none]
    exact rests_append hends hq more
  exact Regex.taken_pos (width_of_ends hends) hrests

theorem Whole.ne_nil {r : Regex} {m : List Char} (hends : r.ends = true) (h : r.Whole m) :
    m ≠ [] := by
  rintro rfl
  obtain ⟨q, hq⟩ := h
  obtain ⟨m, hm, hwidth, -⟩ := rests_split hq
  have hnil : m = [] := (List.append_eq_nil_iff.mp hm.symm).1
  have hpos := width_of_ends hends
  rw [hnil, List.length_nil] at hwidth
  omega

theorem found_of_whole {r : Regex} {m : List Char} (hstarts : r.starts = true)
    (hends : r.ends = true) (h : r.Whole m) (prev : Option Char) (start more : List Char) :
    r.found_from prev (start ++ (m ++ more)) = true := by
  induction start generalizing prev with
  | nil =>
    have htaken := h.taken_pos hstarts hends prev more
    cases m with
    | nil => exact absurd rfl (h.ne_nil hends)
    | cons c m =>
      rw [List.nil_append, List.cons_append, found_from, Bool.or_eq_true]
      left
      simpa using htaken.ne'
  | cons c start ih =>
    rw [List.cons_append, found_from, ih, Bool.or_true]

/-- A text in which nothing is found has no piece that the expression matches. -/
theorem not_whole_of_not_found {r : Regex} {text m : List Char} (hstarts : r.starts = true)
    (hends : r.ends = true) (h : r.found text = false) (hm : m <:+: text) : ¬ r.Whole m := by
  obtain ⟨start, more, rfl⟩ := hm
  intro hwhole
  rw [found, List.append_assoc, found_of_whole hstarts hends hwhole] at h
  cases h

end Regex

/-! ## Replacing -/

/-- A replacement that only shortens: what is put in the place of a match is how the match
begins. -/
structure Pass where
  pattern : Regex
  repl : List Char
  shorter : repl.length < pattern.width := by decide
  kept : repl <+: pattern.opening := by decide

namespace Pass

/-- `re.sub(pattern, "", ..)` -/
def removal (pattern : Regex) (h : 0 < pattern.width := by exact Nat.le_of_ble_eq_true rfl) :
    Pass where
  pattern := pattern
  repl := []
  shorter := h
  kept := List.nil_prefix

variable (p : Pass)

def sub_from : Nat → Option Char → List Char → List Char
  | _, _, [] => []
  | skip + 1, _, c :: text => sub_from skip (some c) text
  | 0, prev, c :: text =>
    match p.pattern.taken prev (c :: text) with
    | 0 => c :: sub_from 0 (some c) text
    | n + 1 => p.repl ++ sub_from n (some c) text

/-- `pattern.sub(repl, text)` -/
def sub (text : List Char) : List Char := p.sub_from 0 none text

theorem sub_from_of_taken {prev : Option Char} {c : Char} {text : List Char} {n : Nat}
    (h : p.pattern.taken prev (c :: text) = n + 1) :
    p.sub_from 0 prev (c :: text) = p.repl ++ p.sub_from n (some c) text := by
  rw [sub_from, h]

theorem sub_from_of_not_taken {prev : Option Char} {c : Char} {text : List Char}
    (h : p.pattern.taken prev (c :: text) = 0) :
    p.sub_from 0 prev (c :: text) = c :: p.sub_from 0 (some c) text := by
  rw [sub_from, h]

theorem sub_from_length_le (skip : Nat) (prev : Option Char) (text : List Char) :
    (p.sub_from skip prev text).length ≤ text.length - skip := by
  induction text generalizing skip prev with
  | nil => cases skip <;> exact Nat.zero_le _
  | cons c text ih =>
    cases skip with
    | succ skip =>
      rw [List.length_cons, Nat.add_sub_add_right]
      exact ih skip (some c)
    | zero =>
      cases h : p.pattern.taken prev (c :: text) with
      | zero =>
        rw [sub_from_of_not_taken p h, List.length_cons, List.length_cons]
        have := ih 0 (some c)
        omega
      | succ n =>
        obtain ⟨m, s, htext, hm, hwidth, -⟩ := Regex.taken_split h
        have hlen : text.length + 1 = m.length + s.length := by
          rw [← List.length_cons, htext, List.length_append]
        have hshorter := p.shorter
        have hrest := ih n (some c)
        rw [sub_from_of_taken p h, List.length_append, List.length_cons]
        omega

/-- A text in which nothing is found stays as it is. -/
theorem sub_from_of_not_found {prev : Option Char} {text : List Char}
    (h : p.pattern.found_from prev text = false) : p.sub_from 0 prev text = text := by
  induction text generalizing prev with
  | nil => rfl
  | cons c text ih =>
    rw [Regex.found_from, Bool.or_eq_false_iff, bne_eq_false_iff_eq] at h
    rw [sub_from_of_not_taken p h.1, ih h.2]

/-- A text in which something is found gets shorter. -/
theorem sub_from_of_found {prev : Option Char} {text : List Char}
    (h : p.pattern.found_from prev text = true) :
    (p.sub_from 0 prev text).length < text.length := by
  induction text generalizing prev with
  | nil => cases h
  | cons c text ih =>
    cases htaken : p.pattern.taken prev (c :: text) with
    | zero =>
      rw [Regex.found_from, htaken] at h
      rw [sub_from_of_not_taken p htaken, List.length_cons, List.length_cons]
      exact Nat.add_lt_add_right (ih h) 1
    | succ n =>
      obtain ⟨m, s, htext, hm, hwidth, -⟩ := Regex.taken_split htaken
      have hlen : text.length + 1 = m.length + s.length := by
        rw [← List.length_cons, htext, List.length_append]
      have hshorter := p.shorter
      have hrest := p.sub_from_length_le n (some c) text
      rw [sub_from_of_taken p htaken, List.length_append, List.length_cons]
      omega

theorem sub_eq_self_iff {text : List Char} :
    p.sub text = text ↔ p.pattern.found text = false := by
  constructor
  · intro h
    by_contra hfound
    have hlt := p.sub_from_of_found (Bool.not_eq_false _ ▸ hfound)
    rw [show p.sub_from 0 none text = text from h] at hlt
    exact Nat.lt_irrefl _ hlt
  · exact p.sub_from_of_not_found

/-! ## Replacing in a text with marks -/

variable {α : Type} (letter : α → Char)

/-- As `sub_from`, for letters that carry marks: what is put in is taken from the match. -/
def cut_from : Nat → Option Char → List α → List α
  | _, _, [] => []
  | skip + 1, _, x :: text => cut_from skip (some (letter x)) text
  | 0, prev, x :: text =>
    match p.pattern.taken prev ((x :: text).map letter) with
    | 0 => x :: cut_from 0 (some (letter x)) text
    | n + 1 => (x :: text).take p.repl.length ++ cut_from n (some (letter x)) text

theorem cut_from_of_taken {prev : Option Char} {x : α} {text : List α} {n : Nat}
    (h : p.pattern.taken prev ((x :: text).map letter) = n + 1) :
    p.cut_from letter 0 prev (x :: text) =
      (x :: text).take p.repl.length ++ p.cut_from letter n (some (letter x)) text := by
  rw [cut_from, h]

theorem cut_from_of_not_taken {prev : Option Char} {x : α} {text : List α}
    (h : p.pattern.taken prev ((x :: text).map letter) = 0) :
    p.cut_from letter 0 prev (x :: text) = x :: p.cut_from letter 0 (some (letter x)) text := by
  rw [cut_from, h]

theorem cut_from_natural (skip : Nat) (prev : Option Char) (text : List α) :
    (p.cut_from letter skip prev text).map letter =
      p.cut_from id skip prev (text.map letter) := by
  induction text generalizing skip prev with
  | nil => cases skip <;> rfl
  | cons x text ih =>
    cases skip with
    | succ skip => exact ih skip _
    | zero =>
      have hid : ((x :: text).map letter).map id = (x :: text).map letter := List.map_id _
      cases h : p.pattern.taken prev ((x :: text).map letter) with
      | zero =>
        rw [cut_from_of_not_taken p letter h, List.map_cons, ih]
        exact (cut_from_of_not_taken p id (hid ▸ h)).symm
      | succ n =>
        rw [cut_from_of_taken p letter h, List.map_append, ih, List.map_take]
        exact (cut_from_of_taken p id (hid ▸ h)).symm

theorem cut_from_sublist (skip : Nat) (prev : Option Char) (text : List α) :
    (p.cut_from letter skip prev text).Sublist (text.drop skip) := by
  induction text generalizing skip prev with
  | nil => cases skip <;> exact List.Sublist.refl _
  | cons x text ih =>
    cases skip with
    | succ skip => exact ih skip _
    | zero =>
      cases h : p.pattern.taken prev ((x :: text).map letter) with
      | zero =>
        rw [cut_from_of_not_taken p letter h]
        exact (ih 0 _).cons_cons x
      | succ n =>
        obtain ⟨m, s, htext, hm, hwidth, -⟩ := Regex.taken_split h
        have hle : p.repl.length ≤ n + 1 := (p.shorter.trans_le hwidth).le
        rw [cut_from_of_taken p letter h, List.drop_zero]
        have hparts : ((x :: text).take p.repl.length ++
            p.cut_from letter n (some (letter x)) text).Sublist
              ((x :: text).take (n + 1) ++ text.drop n) :=
          (List.take_sublist_take_left hle).append (ih n (some (letter x)))
        have hall : (x :: text).take (n + 1) ++ text.drop n = x :: text :=
          List.take_append_drop (n + 1) (x :: text)
        rwa [hall] at hparts

/-- Without marks a cut is a replacement. -/
theorem cut_from_id (skip : Nat) (prev : Option Char) (text : List Char) :
    p.cut_from id skip prev text = p.sub_from skip prev text := by
  induction text generalizing skip prev with
  | nil => cases skip <;> rfl
  | cons c text ih =>
    cases skip with
    | succ skip => exact ih skip _
    | zero =>
      have hid : (c :: text).map id = c :: text := List.map_id _
      cases h : p.pattern.taken prev (c :: text) with
      | zero =>
        rw [cut_from_of_not_taken p id (hid.symm ▸ h), sub_from_of_not_taken p h, ih]
        rfl
      | succ n =>
        obtain ⟨m, s, htext, hm, -, hopen⟩ := Regex.taken_split h
        have hrepl : p.repl <+: c :: text := by
          rw [htext]
          exact (p.kept.trans hopen).trans (List.prefix_append m s)
        rw [cut_from_of_taken p id (hid.symm ▸ h), sub_from_of_taken p h, ih,
          ← List.prefix_iff_eq_take.mp hrepl]
        rfl

/-- The cut that a replacement makes. -/
def cut : cuts.Cut Char where
  on letter text := p.cut_from letter 0 none text
  natural letter text := p.cut_from_natural letter 0 none text
  sublist letter text := p.cut_from_sublist letter 0 none text

theorem cut_on_id (text : List Char) : p.cut.on id text = p.sub text :=
  p.cut_from_id 0 none text

/-- A removal takes the first letter of a piece that its pattern takes something of. -/
theorem cut_from_takes (hrepl : p.repl = []) (skip : Nat) (prev : Option Char)
    (start rest : List α) (e : α)
    (h : ∀ prev, 0 < p.pattern.taken prev ((e :: rest).map letter)) :
    (p.cut_from letter skip prev (start ++ e :: rest)).Sublist (start ++ rest) := by
  have hdrop : ∀ skip prev, (p.cut_from letter skip prev rest).Sublist rest := fun skip prev =>
    (p.cut_from_sublist letter skip prev rest).trans (List.drop_sublist skip rest)
  induction start generalizing skip prev with
  | nil =>
    cases skip with
    | succ skip => exact hdrop skip _
    | zero =>
      obtain ⟨n, hn⟩ := Nat.exists_eq_add_of_lt (h prev)
      rw [Nat.zero_add] at hn
      rw [List.nil_append, List.nil_append, cut_from_of_taken p letter hn, hrepl]
      exact hdrop n _
  | cons x start ih =>
    cases skip with
    | succ skip => exact (ih skip _).cons x
    | zero =>
      cases htaken : p.pattern.taken prev ((x :: (start ++ e :: rest)).map letter) with
      | zero =>
        rw [List.cons_append, cut_from_of_not_taken p letter htaken]
        exact (ih 0 _).cons_cons x
      | succ n =>
        rw [List.cons_append, cut_from_of_taken p letter htaken, hrepl]
        exact (ih n _).cons x

/-- A removal breaks whatever its pattern matches as a whole. -/
theorem cut_breaks (hrepl : p.repl = []) (hstarts : p.pattern.starts = true)
    (hends : p.pattern.ends = true) :
    p.cut.Breaks p.pattern.Whole := by
  intro α letter start m more e hwhole
  refine p.cut_from_takes letter hrepl 0 none start (m ++ more) e fun prev => ?_
  have htaken := hwhole.taken_pos hstarts hends prev (more.map letter)
  rwa [← List.map_append, List.cons_append] at htaken

end Pass

/-! ## Runs of a character -/

/-- How often `c` stands at the head of the text. -/
def run_length (c : Char) (text : List Char) : Nat := (text.takeWhile (· == c)).length

theorem run_length_cons_self (c : Char) (text : List Char) :
    run_length c (c :: text) = run_length c text + 1 := by
  simp [run_length]

theorem run_length_cons_ne {c d : Char} (h : d ≠ c) (text : List Char) :
    run_length c (d :: text) = 0 := by
  simp [run_length, h]

theorem most_from_head (p : Char → Bool) (prev : Option Char) (text : List Char) :
    ∃ q others, most_from p prev text = (q, text.dropWhile p) :: others := by
  induction text generalizing prev with
  | nil => exact ⟨prev, [], rfl⟩
  | cons c text ih =>
    by_cases hc : p c = true
    · obtain ⟨q, others, h⟩ := ih (some c)
      exact ⟨q, others ++ [(prev, c :: text)], by
        rw [most_from, if_pos hc, h, List.dropWhile_cons_of_pos hc, List.cons_append]⟩
    · exact ⟨prev, [], by rw [most_from, if_neg hc, List.dropWhile_cons_of_neg hc]⟩

theorem rests_at_least (c : Char) (n : Nat) (prev : Option Char) (text : List Char) :
    if n ≤ run_length c text then
      ∃ q others, (Regex.at_least c n).rests prev text = (q, text.dropWhile (· == c)) :: others
    else (Regex.at_least c n).rests prev text = [] := by
  induction n generalizing prev text with
  | zero =>
    rw [if_pos (Nat.zero_le _)]
    exact most_from_head _ prev text
  | succ n ih =>
    cases text with
    | nil => rfl
    | cons d text =>
      by_cases hd : d = c
      · subst hd
        have hone : (Regex.at_least d (n + 1)).rests prev (d :: text) =
            (Regex.at_least d n).rests (some d) text := by
          simp [Regex.at_least, Regex.rests, one_from]
        have hdrop : (d :: text).dropWhile (· == d) = text.dropWhile (· == d) :=
          List.dropWhile_cons_of_pos (beq_self_eq_true d)
        rw [hone, run_length_cons_self, hdrop]
        simp only [Nat.add_le_add_iff_right]
        exact ih (some d) text
      · rw [run_length_cons_ne hd, if_neg (Nat.not_succ_le_zero n)]
        simp [Regex.at_least, Regex.rests, one_from, hd]

/-- A run that is long enough is taken as a whole. -/
theorem taken_at_least (c : Char) (n : Nat) (prev : Option Char) (text : List Char) :
    (Regex.at_least c n).taken prev text =
      if n ≤ run_length c text then run_length c text else 0 := by
  have hrests := rests_at_least c n prev text
  by_cases h : n ≤ run_length c text
  · rw [if_pos h] at hrests ⊢
    obtain ⟨q, others, hrests⟩ := hrests
    have hlen := congrArg List.length (List.takeWhile_append_dropWhile (p := (· == c)) (l := text))
    rw [List.length_append] at hlen
    simp only [Regex.taken, hrests, run_length]
    omega
  · rw [if_neg h] at hrests ⊢
    simp only [Regex.taken, hrests]

/-- Runs of `c` cut to `k`, with `n` of a run behind already. -/
def squeezed_from (c : Char) (k : Nat) : Nat → List Char → List Char
  | _, [] => []
  | n, d :: text =>
    if d = c then
      if n < k then d :: squeezed_from c k (n + 1) text else squeezed_from c k n text
    else d :: squeezed_from c k 0 text

/-- The text with runs of more than `k` of a character cut to `k`. -/
def squeezed (c : Char) (k : Nat) (text : List Char) : List Char := squeezed_from c k 0 text

theorem squeezed_from_full (c : Char) (k : Nat) (text : List Char) :
    squeezed_from c k k (c :: text) = squeezed_from c k k text := by
  rw [squeezed_from, if_pos rfl, if_neg (Nat.lt_irrefl k)]

theorem squeezed_from_other {c d : Char} (h : d ≠ c) (k n : Nat) (text : List Char) :
    squeezed_from c k n (d :: text) = d :: squeezed_from c k 0 text := by
  rw [squeezed_from, if_neg h]

theorem squeezed_head? {c : Char} {k : Nat} (hk : 0 < k) (text : List Char) :
    (squeezed c k text).head? = text.head? := by
  cases text with
  | nil => rfl
  | cons d text =>
    by_cases hd : d = c
    · rw [squeezed, squeezed_from, if_pos hd, if_pos hk]
      rfl
    · rw [squeezed, squeezed_from_other hd]
      rfl

theorem squeezed_from_concat {c d : Char} (h : d ≠ c) (k n : Nat) (text : List Char) :
    squeezed_from c k n (text ++ [d]) = squeezed_from c k n text ++ [d] := by
  induction text generalizing n with
  | nil => exact squeezed_from_other h k n []
  | cons e text ih =>
    rw [List.cons_append, squeezed_from, squeezed_from, ih, ih, ih]
    split_ifs <;> rfl

/-- What a long run leaves before it is full. -/
theorem squeezed_from_long {c : Char} {k n : Nat} {text : List Char} (hn : n ≤ k)
    (hk : k ≤ n + run_length c text) :
    squeezed_from c k n text = List.replicate (k - n) c ++ squeezed_from c k k text := by
  induction text generalizing n with
  | nil =>
    obtain rfl : n = k := le_antisymm hn hk
    rw [Nat.sub_self]
    rfl
  | cons d text ih =>
    rcases hn.eq_or_lt with rfl | hlt
    · rw [Nat.sub_self]
      rfl
    · by_cases hd : d = c
      · subst hd
        rw [run_length_cons_self] at hk
        obtain ⟨j, hj⟩ := Nat.exists_eq_add_of_lt hlt
        rw [squeezed_from, if_pos rfl, if_pos hlt, ih (by omega) (by omega), squeezed_from_full,
          show k - n = k - (n + 1) + 1 by omega, List.replicate_succ, List.cons_append]
      · rw [run_length_cons_ne hd] at hk
        omega

/-- Replacing each run of more than `k` by `k` squeezes the text. In a run that is taken the
rest is skipped, and in a short one the places behind the first are not taken either. -/
theorem sub_from_at_least {p : Pass} {c : Char} {k : Nat}
    (hpattern : p.pattern = Regex.at_least c (k + 1)) (hrepl : p.repl = List.replicate k c)
    (text : List Char) :
    (∀ prev, p.sub_from (run_length c text) prev text = squeezed_from c k k text) ∧
      ∀ prev n, n = 0 ∨ n + run_length c text ≤ k →
        p.sub_from 0 prev text = squeezed_from c k n text := by
  have htaken : ∀ prev text, p.pattern.taken prev text =
      if k + 1 ≤ run_length c text then run_length c text else 0 := by
    rw [hpattern]
    exact taken_at_least c (k + 1)
  induction text with
  | nil => exact ⟨fun prev => rfl, fun prev n _ => rfl⟩
  | cons d text ih =>
    obtain ⟨ihskip, ih⟩ := ih
    by_cases hd : d = c
    · subst hd
      constructor
      · intro prev
        rw [run_length_cons_self, squeezed_from_full]
        exact ihskip (some d)
      · intro prev n hn
        rw [run_length_cons_self] at hn
        by_cases hlong : k + 1 ≤ run_length d (d :: text)
        · have hmatch : p.pattern.taken prev (d :: text) = run_length d text + 1 := by
            rw [htaken, if_pos hlong, run_length_cons_self]
          rw [run_length_cons_self] at hlong
          obtain rfl : n = 0 := by omega
          rw [p.sub_from_of_taken hmatch, hrepl, ihskip,
            squeezed_from_long (Nat.zero_le k) (by rw [run_length_cons_self]; omega),
            squeezed_from_full, Nat.sub_zero]
        · have hmatch : p.pattern.taken prev (d :: text) = 0 := by rw [htaken, if_neg hlong]
          rw [run_length_cons_self] at hlong
          rw [p.sub_from_of_not_taken hmatch, squeezed_from, if_pos rfl, if_pos (by omega),
            ih (some d) (n + 1) (by omega)]
    · have hmatch : ∀ prev, p.pattern.taken prev (d :: text) = 0 := by
        intro prev
        rw [htaken, run_length_cons_ne hd, if_neg (Nat.not_succ_le_zero k)]
      have hstep : ∀ prev n, p.sub_from 0 prev (d :: text) = squeezed_from c k n (d :: text) := by
        intro prev n
        rw [p.sub_from_of_not_taken (hmatch prev), squeezed_from_other hd,
          ih (some d) 0 (Or.inl rfl)]
      exact ⟨fun prev => by rw [run_length_cons_ne hd]; exact hstep prev k,
        fun prev n _ => hstep prev n⟩

theorem sub_at_least {p : Pass} {c : Char} {k : Nat}
    (hpattern : p.pattern = Regex.at_least c (k + 1)) (hrepl : p.repl = List.replicate k c)
    (text : List Char) : p.sub text = squeezed c k text :=
  (sub_from_at_least hpattern hrepl text).2 none 0 (Or.inl rfl)

/-! ## The end of the text -/

/-- What is taken at the end of a text that ends with no newline goes to the end. -/
theorem mem_rests_at_the_end {p : Char → Bool} {prev q : Option Char} {text s : List Char}
    (hlast : text.getLast? ≠ some '\n') (h : (q, s) ∈ (Regex.at_the_end p).rests prev text) :
    s = [] ∧ text ≠ [] ∧ ∀ c ∈ text, p c = true := by
  obtain ⟨⟨q', s'⟩, hsome, hfinish⟩ := List.mem_flatMap.mp h
  obtain ⟨⟨q'', s''⟩, hone, hmost⟩ := List.mem_flatMap.mp hsome
  obtain ⟨c, rfl, hc, rfl⟩ := Regex.mem_one_from.mp hone
  obtain ⟨m, hm, hall, rfl⟩ := Regex.mem_most_from.mp hmost
  obtain ⟨hend, hplace⟩ := Regex.mem_stay hfinish
  obtain ⟨rfl, rfl⟩ := Prod.mk.inj hplace
  change s'' = m ++ s at hm
  change s = [] ∨ s = ['\n'] at hend
  rcases hend with hend | hend
  · rw [hend, List.append_nil] at hm
    subst hm
    exact ⟨hend, List.cons_ne_nil c s'', by simpa [hc] using hall⟩
  · subst hm hend
    rw [← List.cons_append, List.getLast?_concat] at hlast
    exact absurd rfl hlast

theorem rests_at_the_end {p : Char → Bool} {text : List Char} (hne : text ≠ [])
    (hall : ∀ c ∈ text, p c = true) (prev : Option Char) :
    (Regex.after prev text, []) ∈ (Regex.at_the_end p).rests prev text := by
  cases text with
  | nil => exact absurd rfl hne
  | cons c text =>
    have hrest : ∀ d ∈ text, p d = true := fun d hd => hall d (by simp [hd])
    have hone : (some c, text) ∈ (Regex.one p).rests prev (c :: text) :=
      Regex.mem_one_from.mpr ⟨c, rfl, hall c (by simp), rfl⟩
    have hmost : (Regex.after (some c) text, []) ∈ (Regex.most p).rests (some c) text :=
      Regex.mem_most_from.mpr ⟨text, (List.append_nil text).symm, hrest, rfl⟩
    rw [Regex.after_cons]
    refine List.mem_flatMap.mpr ⟨(Regex.after (some c) text, []),
      List.mem_flatMap.mpr ⟨(some c, text), hone, hmost⟩, ?_⟩
    simp [Regex.rests]

theorem taken_at_the_end {p : Char → Bool} {prev : Option Char} {text : List Char}
    (hlast : text.getLast? ≠ some '\n') :
    (Regex.at_the_end p).taken prev text = if text.all p then text.length else 0 := by
  by_cases hall : text.all p = true
  · rw [if_pos hall]
    rw [List.all_eq_true] at hall
    cases hrests : (Regex.at_the_end p).rests prev text with
    | nil =>
      have hnil : text = [] := by
        by_contra hne
        have hmem := rests_at_the_end hne hall prev
        rw [hrests] at hmem
        exact absurd hmem List.not_mem_nil
      rw [Regex.taken, hrests, hnil, List.length_nil]
    | cons place others =>
      obtain ⟨q, s⟩ := place
      have hs : s = [] :=
        (mem_rests_at_the_end hlast (hrests ▸ List.mem_cons_self : (q, s) ∈ _)).1
      simp only [Regex.taken, hrests, hs, List.length_nil, Nat.sub_zero]
  · rw [if_neg hall]
    cases hrests : (Regex.at_the_end p).rests prev text with
    | nil => simp [Regex.taken, hrests]
    | cons place others =>
      obtain ⟨q, s⟩ := place
      have hmem := mem_rests_at_the_end hlast (hrests ▸ List.mem_cons_self : (q, s) ∈ _)
      exact absurd (List.all_eq_true.mpr hmem.2.2) hall

theorem rdropWhile_cons {q : Char → Bool} {c : Char} {text : List Char}
    (h : ¬ (c :: text).all q = true) :
    (c :: text).rdropWhile q = c :: text.rdropWhile q := by
  rw [List.rdropWhile, List.rdropWhile, List.reverse_cons, List.dropWhile_append]
  by_cases hnil : text.reverse.dropWhile q = []
  · have htext : ∀ d ∈ text, q d = true := by simpa using hnil
    have hc : ¬ q c = true := fun hc => h (by simpa [hc] using htext)
    rw [hnil, List.dropWhile_cons_of_neg hc]
    rfl
  · rw [if_neg (by simpa using hnil), List.reverse_append]
    rfl

/-- Removing a class of characters at the end of a text that ends with no newline. -/
theorem sub_from_at_the_end {p : Pass} {q : Char → Bool}
    (hpattern : p.pattern = Regex.at_the_end q) (hrepl : p.repl = []) {text : List Char}
    (hlast : text.getLast? ≠ some '\n') (prev : Option Char) :
    p.sub_from 0 prev text = text.rdropWhile q := by
  induction text generalizing prev with
  | nil => rfl
  | cons c text ih =>
    have htaken : p.pattern.taken prev (c :: text) =
        if (c :: text).all q then (c :: text).length else 0 := by
      rw [hpattern]
      exact taken_at_the_end hlast
    by_cases hall : (c :: text).all q = true
    · rw [if_pos hall, List.length_cons] at htaken
      have hlen := p.sub_from_length_le text.length (some c) text
      rw [Nat.sub_self, Nat.le_zero, List.length_eq_zero_iff] at hlen
      rw [p.sub_from_of_taken htaken, hrepl, hlen]
      exact (List.rdropWhile_eq_nil_iff.mpr (List.all_eq_true.mp hall)).symm
    · rw [if_neg hall] at htaken
      have hlast' : text.getLast? ≠ some '\n' := by
        cases text with
        | nil => simp
        | cons d text => rwa [List.getLast?_cons_cons] at hlast
      rw [p.sub_from_of_not_taken htaken, ih hlast', rdropWhile_cons hall]

end regexes
