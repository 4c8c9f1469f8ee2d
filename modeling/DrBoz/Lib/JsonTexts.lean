-- JSON texts as a strict reader takes them: a value from the front of a text,
-- with what is left behind it. What a value becomes is up to whoever builds
-- from it. Whatever the reader takes is balanced: outside of its texts every
-- brace has its partner.
import Mathlib.Data.List.TakeWhile

namespace json_texts

/-! ## Letters -/

/-- A text: code points, a surrogate without its pair among them. -/
abbrev Text := List Nat

abbrev QUOTE : Nat := 34
abbrev BACKSLASH : Nat := 92
abbrev OPEN : Nat := 123
abbrev CLOSE : Nat := 125
abbrev OPEN_LIST : Nat := 91
abbrev CLOSE_LIST : Nat := 93
abbrev COMMA : Nat := 44
abbrev COLON : Nat := 58

def is_blank (c : Nat) : Bool := c = 32 || c = 9 || c = 10 || c = 13

def is_digit (c : Nat) : Bool := 48 ≤ c && c ≤ 57

def skip_blanks (text : Text) : Text := text.dropWhile is_blank

/-! ## Texts between quotes -/

/-- What stands for one code point. Only two escaped halves of a pair are joined. -/
inductive Piece where
  | raw (c : Nat)
  | escaped (c : Nat)

def Piece.code : Piece → Nat
  | raw c | escaped c => c

def hex_digit (c : Nat) : Option Nat :=
  if 48 ≤ c ∧ c ≤ 57 then some (c - 48)
  else if 97 ≤ c ∧ c ≤ 102 then some (c - 87)
  else if 65 ≤ c ∧ c ≤ 70 then some (c - 55)
  else none

def hex4 (a b c d : Nat) : Option Nat := do
  let a ← hex_digit a
  let b ← hex_digit b
  let c ← hex_digit c
  let d ← hex_digit d
  return ((a * 16 + b) * 16 + c) * 16 + d

/-- The letter behind a backslash, other than `u`. -/
def escape (c : Nat) : Option Nat :=
  if c = QUOTE ∨ c = BACKSLASH ∨ c = 47 then some c
  else if c = 98 then some 8
  else if c = 102 then some 12
  else if c = 110 then some 10
  else if c = 114 then some 13
  else if c = 116 then some 9
  else none

def joined : List Piece → Text
  | .escaped high :: .escaped low :: pieces =>
    if 0xD800 ≤ high ∧ high ≤ 0xDBFF ∧ 0xDC00 ≤ low ∧ low ≤ 0xDFFF then
      (0x10000 + (high - 0xD800) * 0x400 + (low - 0xDC00)) :: joined pieces
    else high :: joined (.escaped low :: pieces)
  | p :: pieces => p.code :: joined pieces
  | [] => []

/-- The text up to its closing quote, and what is behind it. -/
def read_pieces : Text → Option (List Piece × Text)
  | [] => none
  | c :: text =>
    if c = QUOTE then some ([], text)
    else if c = BACKSLASH then
      match text with
      | [] => none
      | e :: text =>
        if e = 117 then
          match text with
          | a :: b :: c :: d :: text => do
            let code ← hex4 a b c d
            let (pieces, rest) ← read_pieces text
            return (.escaped code :: pieces, rest)
          | _ => none
        else do
          let code ← escape e
          let (pieces, rest) ← read_pieces text
          return (.raw code :: pieces, rest)
    else if c < 32 then none
    else do
      let (pieces, rest) ← read_pieces text
      return (.raw c :: pieces, rest)

/-! ## Numbers -/

def digits (text : Text) : Text × Text := (text.takeWhile is_digit, text.dropWhile is_digit)

def minus (text : Text) : Text × Text :=
  match text with
  | 45 :: rest => ([45], rest)
  | _ => ([], text)

/-- The part behind the point, when a digit follows the point. -/
def fraction (text : Text) : Text × Text :=
  match text with
  | 46 :: rest =>
    if (digits rest).1.isEmpty then ([], text) else (46 :: (digits rest).1, (digits rest).2)
  | _ => ([], text)

def signed_digits (text : Text) : Text × Text :=
  match text with
  | c :: rest =>
    if c = 43 ∨ c = 45 then (c :: (digits rest).1, (digits rest).2) else digits text
  | [] => ([], [])

def exponent (text : Text) : Text × Text :=
  match text with
  | c :: rest =>
    if (c = 101 ∨ c = 69) ∧ (signed_digits rest).1.any is_digit then
      (c :: (signed_digits rest).1, (signed_digits rest).2)
    else ([], text)
  | [] => ([], [])

/-- The digits before the point: a zero stands alone. -/
def whole (text : Text) : Option (Text × Text) :=
  match text with
  | 48 :: rest => some ([48], rest)
  | c :: _ => if is_digit c then some (digits text) else none
  | [] => none

def number (text : Text) : Option (Text × Text) := do
  let (sign, rest) := minus text
  let (front, rest) ← whole rest
  let (point, rest) := fraction rest
  let (power, rest) := exponent rest
  return (sign ++ front ++ point ++ power, rest)

/-! ## Values -/

/-- What is built from the parts of a value, and the two ways to fail. -/
structure Builder (ε α : Type) where
  null : α
  bool (b : Bool) : α
  number (literal : Text) : Except ε α
  nan : α
  infinity : α
  minus_infinity : α
  str (text : Text) : α
  list (items : List α) : α
  dict (fields : List (Text × α)) : α
  invalid : ε
  too_deep : ε

variable {ε α : Type}

/-- The words that stand for values. -/
def Builder.words (b : Builder ε α) : List (Text × α) :=
  [([110, 117, 108, 108], b.null), ([116, 114, 117, 101], b.bool true),
    ([102, 97, 108, 115, 101], b.bool false), ([78, 97, 78], b.nan),
    ([73, 110, 102, 105, 110, 105, 116, 121], b.infinity),
    ([45, 73, 110, 102, 105, 110, 105, 116, 121], b.minus_infinity)]

section
variable {β : Type} (b : Builder ε α) (part : Text → Except ε (β × Text)) (close : Nat)

/-- Parts between commas, up to the bracket that closes. Each turn takes letters,
so that as many turns as the text has letters are enough. -/
def read_parts : Nat → Text → Except ε (List β × Text)
  | 0, _ => .error b.invalid
  | turns + 1, text => do
    let (value, rest) ← part text
    match skip_blanks rest with
    | c :: rest =>
      if c = close then .ok ([value], rest)
      else if c = COMMA then do
        let (values, rest) ← read_parts turns (skip_blanks rest)
        .ok (value :: values, rest)
      else .error b.invalid
    | [] => .error b.invalid

/-- What is built of the parts behind the bracket that opens. -/
def read_enclosed (built : List β → α) (text : Text) : Except ε (α × Text) :=
  match skip_blanks text with
  | c :: rest =>
    if c = close then .ok (built [], rest)
    else do
      let (values, rest) ← read_parts b part close text.length (c :: rest)
      .ok (built values, rest)
  | [] => .error b.invalid

end

section
variable (b : Builder ε α) (inside : Text → Except ε (α × Text))

def read_field (text : Text) : Except ε ((Text × α) × Text) :=
  match text with
  | c :: rest =>
    if c = QUOTE then
      match read_pieces rest with
      | some (pieces, rest) =>
        match skip_blanks rest with
        | c :: rest =>
          if c = COLON then do
            let (value, rest) ← inside (skip_blanks rest)
            .ok ((joined pieces, value), rest)
          else .error b.invalid
        | [] => .error b.invalid
      | none => .error b.invalid
    else .error b.invalid
  | [] => .error b.invalid

def read_list : Text → Except ε (α × Text) := read_enclosed b inside CLOSE_LIST b.list

def read_dict : Text → Except ε (α × Text) :=
  read_enclosed b (read_field b inside) CLOSE b.dict

end

/-- A word or a number. -/
def read_plain (b : Builder ε α) (text : Text) : Except ε (α × Text) :=
  match b.words.find? fun word => word.1.isPrefixOf text with
  | some word => .ok (word.2, text.drop word.1.length)
  | none =>
    match number text with
    | some (literal, rest) => do
      let value ← b.number literal
      .ok (value, rest)
    | none => .error b.invalid

/-- A value. `inside` reads what stands in a list or an object, where that may
go one deeper. -/
def read_from (b : Builder ε α) (inside : Option (Text → Except ε (α × Text))) (text : Text) :
    Except ε (α × Text) :=
  match text with
  | c :: rest =>
    if c = QUOTE then
      match read_pieces rest with
      | some (pieces, rest) => .ok (b.str (joined pieces), rest)
      | none => .error b.invalid
    else if c = OPEN then
      match inside with
      | some inside => read_dict b inside rest
      | none => .error b.too_deep
    else if c = OPEN_LIST then
      match inside with
      | some inside => read_list b inside rest
      | none => .error b.too_deep
    else read_plain b text
  | [] => .error b.invalid

/-- The value at the front of a text, with at most so many lists and objects
inside one another. -/
def read_value (b : Builder ε α) : Nat → Text → Except ε (α × Text)
  | 0 => read_from b none
  | depth + 1 => read_from b (some (read_value b depth))

/-- The value that a whole text is, blanks around it aside. -/
def loads (b : Builder ε α) (depth : Nat) (text : Text) : Except ε α := do
  let (value, rest) ← read_value b depth (skip_blanks text)
  if skip_blanks rest = [] then .ok value else .error b.invalid

/-! ## What the reader takes -/

/-- A text between quotes: a backslash takes the next letter with it. -/
inductive Quoted : Text → Prop where
  | nil : Quoted []
  | letter {c : Nat} {body : Text} (hquote : c ≠ QUOTE) (hescape : c ≠ BACKSLASH)
      (hbody : Quoted body) : Quoted (c :: body)
  | escape (c : Nat) {body : Text} (hbody : Quoted body) : Quoted (BACKSLASH :: c :: body)

/-- A letter that opens and closes nothing. -/
def Plain (c : Nat) : Prop := c ≠ QUOTE ∧ c ≠ OPEN ∧ c ≠ CLOSE

/-- Outside of what is quoted, every brace has its partner. -/
inductive Balanced : Text → Prop where
  | nil : Balanced []
  | plain {c : Nat} {text : Text} (hc : Plain c) (htext : Balanced text) : Balanced (c :: text)
  | quoted {body text : Text} (hbody : Quoted body) (htext : Balanced text) :
      Balanced (QUOTE :: (body ++ QUOTE :: text))
  | braces {inner text : Text} (hinner : Balanced inner) (htext : Balanced text) :
      Balanced (OPEN :: (inner ++ CLOSE :: text))

theorem Balanced.append {u v : Text} (hu : Balanced u) (hv : Balanced v) : Balanced (u ++ v) := by
  induction hu with
  | nil => exact hv
  | plain hc _ ih => exact .plain hc ih
  | quoted hbody _ ih => simpa using Balanced.quoted hbody ih
  | braces hinner _ _ ih => simpa using Balanced.braces hinner ih

theorem balanced_of_plain {text : Text} (h : ∀ c ∈ text, Plain c) : Balanced text := by
  induction text with
  | nil => exact .nil
  | cons c text ih =>
    exact .plain (h c List.mem_cons_self) (ih fun d hd => h d (List.mem_cons_of_mem _ hd))

/-- What is taken from the front of a text: a balanced part of it. -/
def Takes (text rest : Text) : Prop := ∃ taken, text = taken ++ rest ∧ Balanced taken

theorem Takes.nothing (text : Text) : Takes text text := ⟨[], rfl, .nil⟩

theorem Takes.trans {a b c : Text} (hab : Takes a b) (hbc : Takes b c) : Takes a c := by
  obtain ⟨u, rfl, hu⟩ := hab
  obtain ⟨v, rfl, hv⟩ := hbc
  exact ⟨u ++ v, (List.append_assoc u v c).symm, hu.append hv⟩

theorem Takes.plain {c : Nat} {text rest : Text} (hc : Plain c) (h : Takes text rest) :
    Takes (c :: text) rest := by
  obtain ⟨taken, rfl, htaken⟩ := h
  exact ⟨c :: taken, rfl, .plain hc htaken⟩

theorem takes_plain {taken rest : Text} (h : ∀ c ∈ taken, Plain c) : Takes (taken ++ rest) rest :=
  ⟨taken, rfl, balanced_of_plain h⟩

theorem plain_of_blank {c : Nat} (h : is_blank c = true) : Plain c := by
  simp only [is_blank, Bool.or_eq_true, decide_eq_true_eq] at h
  unfold Plain QUOTE OPEN CLOSE
  omega

theorem plain_of_digit {c : Nat} (h : is_digit c = true) : Plain c := by
  simp only [is_digit, Bool.and_eq_true, decide_eq_true_eq] at h
  unfold Plain QUOTE OPEN CLOSE
  omega

theorem takes_while {p : Nat → Bool} (hp : ∀ c, p c = true → Plain c) (text : Text) :
    Takes text (text.dropWhile p) := by
  refine ⟨text.takeWhile p, List.takeWhile_append_dropWhile.symm, balanced_of_plain ?_⟩
  exact fun c hc => hp c (List.mem_takeWhile_imp hc)

theorem takes_blanks (text : Text) : Takes text (skip_blanks text) :=
  takes_while (fun _ => plain_of_blank) text

theorem hex_digit_letter {c n : Nat} (h : hex_digit c = some n) : c ≠ QUOTE ∧ c ≠ BACKSLASH := by
  unfold hex_digit at h
  unfold QUOTE BACKSLASH
  split_ifs at h <;> omega

theorem hex4_letters {a b c d n : Nat} (h : hex4 a b c d = some n) {body : Text}
    (hbody : Quoted body) : Quoted (a :: b :: c :: d :: body) := by
  unfold hex4 at h
  simp only [Option.bind_eq_bind, Option.bind_eq_some_iff] at h
  obtain ⟨_, ha, _, hb, _, hc, _, hd, _⟩ := h
  have ha := hex_digit_letter ha
  have hb := hex_digit_letter hb
  have hc := hex_digit_letter hc
  have hd := hex_digit_letter hd
  exact .letter ha.1 ha.2 (.letter hb.1 hb.2 (.letter hc.1 hc.2 (.letter hd.1 hd.2 hbody)))

theorem read_pieces_takes {text rest : Text} {pieces : List Piece}
    (h : read_pieces text = some (pieces, rest)) :
    ∃ body, text = body ++ QUOTE :: rest ∧ Quoted body := by
  induction text using read_pieces.induct generalizing pieces with
  | case1 => cases h
  | case2 text =>
    rw [read_pieces.eq_def] at h
    cases h
    exact ⟨[], rfl, .nil⟩
  | case3 => cases h
  | case4 a b c d text _ ih =>
    rw [read_pieces.eq_def] at h
    simp only [BACKSLASH, QUOTE, Nat.reduceEqDiff, if_false, if_true, Option.bind_eq_bind,
      Option.bind_eq_some_iff] at h
    obtain ⟨code, hcode, ⟨found, left⟩, hread, h⟩ := h
    cases h
    obtain ⟨body, rfl, hbody⟩ := ih hread
    exact ⟨BACKSLASH :: 117 :: a :: b :: c :: d :: body, rfl, .escape _ (hex4_letters hcode hbody)⟩
  | case5 text =>
    rw [read_pieces.eq_def] at h
    simp only [BACKSLASH, QUOTE, Nat.reduceEqDiff, if_false, if_true] at h
    cases h
  | case6 e text hother _ ih =>
    rw [read_pieces.eq_def] at h
    simp only [BACKSLASH, QUOTE, Nat.reduceEqDiff, if_false, if_true, if_neg hother,
      Option.bind_eq_bind, Option.bind_eq_some_iff] at h
    obtain ⟨code, _, ⟨found, left⟩, hread, h⟩ := h
    cases h
    obtain ⟨body, rfl, hbody⟩ := ih hread
    exact ⟨BACKSLASH :: e :: body, rfl, .escape e hbody⟩
  | case7 c text hquote hescape hcontrol =>
    rw [read_pieces.eq_def] at h
    simp only [if_neg hquote, if_neg hescape, if_pos hcontrol] at h
    cases h
  | case8 c text hquote hescape hcontrol ih =>
    rw [read_pieces.eq_def] at h
    simp only [if_neg hquote, if_neg hescape, if_neg hcontrol, Option.bind_eq_bind,
      Option.bind_eq_some_iff] at h
    obtain ⟨⟨found, left⟩, hread, h⟩ := h
    cases h
    obtain ⟨body, rfl, hbody⟩ := ih hread
    exact ⟨c :: body, rfl, .letter hquote hescape hbody⟩

theorem digits_takes (text : Text) : Takes text (digits text).2 :=
  takes_while (fun _ => plain_of_digit) text

theorem plain_of_ne {c : Nat} (h : c ≠ 34 ∧ c ≠ 123 ∧ c ≠ 125) : Plain c := h

theorem fraction_takes (text : Text) : Takes text (fraction text).2 := by
  unfold fraction
  split
  · split
    · exact .nothing _
    · exact (digits_takes _).plain (plain_of_ne (by decide))
  · exact .nothing _

theorem signed_digits_takes (text : Text) : Takes text (signed_digits text).2 := by
  unfold signed_digits
  split
  · split
    · exact (digits_takes _).plain (plain_of_ne (by omega))
    · exact digits_takes _
  · exact .nothing _

theorem exponent_takes (text : Text) : Takes text (exponent text).2 := by
  unfold exponent
  split
  · split
    · exact (signed_digits_takes _).plain (plain_of_ne (by omega))
    · exact .nothing _
  · exact .nothing _

theorem whole_takes {text : Text} {parts : Text × Text} (h : whole text = some parts) :
    Takes text parts.2 := by
  unfold whole at h
  split at h
  · cases h
    exact (Takes.nothing _).plain (plain_of_ne (by decide))
  · split at h
    · cases h
      exact digits_takes _
    · cases h
  · cases h

theorem minus_takes (text : Text) : Takes text (minus text).2 := by
  unfold minus
  split
  · exact (Takes.nothing _).plain (plain_of_ne (by decide))
  · exact .nothing _

theorem number_takes {text : Text} {parts : Text × Text} (h : number text = some parts) :
    Takes text parts.2 := by
  unfold number at h
  simp only [Option.bind_eq_bind, Option.bind_eq_some_iff] at h
  obtain ⟨front, hfront, h⟩ := h
  cases h
  have hfront := (minus_takes text).trans (whole_takes hfront)
  exact (hfront.trans (fraction_takes _)).trans (exponent_takes _)

section
variable {ε α : Type} {b : Builder ε α}

theorem words_plain {word : Text × α} (h : word ∈ b.words) : ∀ c ∈ word.1, Plain c := by
  have hall : ∀ word ∈ b.words, (word.1.all fun c => c ≠ 34 && c ≠ 123 && c ≠ 125) = true := by
    simp [Builder.words]
  intro c hc
  have hplain := List.all_eq_true.mp (hall word h) c hc
  simp only [ne_eq, decide_not, Bool.and_eq_true, Bool.not_eq_true', decide_eq_false_iff_not]
    at hplain
  exact plain_of_ne ⟨hplain.1.1, hplain.1.2, hplain.2⟩

theorem read_plain_takes {text rest : Text} {value : α}
    (h : read_plain b text = .ok (value, rest)) : Takes text rest := by
  unfold read_plain at h
  cases hfind : b.words.find? fun word => word.1.isPrefixOf text with
  | some word =>
    rw [hfind] at h
    cases h
    have hword := List.find?_some hfind
    obtain ⟨behind, rfl⟩ := List.isPrefixOf_iff_prefix.mp hword
    rw [List.drop_left]
    exact takes_plain (words_plain (List.mem_of_find?_eq_some hfind))
  | none =>
    rw [hfind] at h
    dsimp only at h
    cases hnumber : number text with
    | none =>
      rw [hnumber] at h
      cases h
    | some parts =>
      rw [hnumber] at h
      dsimp only at h
      cases hvalue : b.number parts.1 with
      | error e =>
        rw [hvalue] at h
        cases h
      | ok found =>
        rw [hvalue] at h
        cases h
        exact number_takes hnumber

theorem takes_quoted {text rest : Text} {pieces : List Piece}
    (h : read_pieces text = some (pieces, rest)) : Takes (QUOTE :: text) rest := by
  obtain ⟨body, rfl, hbody⟩ := read_pieces_takes h
  exact ⟨QUOTE :: (body ++ [QUOTE]), by simp, .quoted hbody .nil⟩

/-- Whatever a reader reads is balanced. -/
def TakesAll {β : Type} (inside : Text → Except ε (β × Text)) : Prop :=
  ∀ text value rest, inside text = .ok (value, rest) → Takes text rest

theorem of_bind_ok {β γ : Type} {x : Except ε β} {f : β → Except ε γ} {r : γ}
    (h : (x >>= f) = .ok r) : ∃ a, x = .ok a ∧ f a = .ok r := by
  cases x with
  | error e => cases h
  | ok a => exact ⟨a, rfl, h⟩

theorem takes_comma {text rest : Text} {c : Nat} (hc : c = COMMA)
    (h : Takes (skip_blanks text) rest) : Takes (c :: text) rest := by
  subst hc
  exact ((takes_blanks text).trans h).plain (plain_of_ne (by decide))

section
variable {β : Type} {part : Text → Except ε (β × Text)} {close : Nat}

/-- The parts, up to the bracket. -/
theorem read_parts_takes (hpart : TakesAll part) {turns : Nat} {text rest : Text}
    {values : List β} (h : read_parts b part close turns text = .ok (values, rest)) :
    Takes text (close :: rest) := by
  induction turns generalizing text values with
  | zero => cases h
  | succ turns ih =>
    obtain ⟨⟨value, left⟩, hvalue, h⟩ := of_bind_ok h
    refine (hpart _ _ _ hvalue).trans ((takes_blanks left).trans ?_)
    dsimp only at h
    cases hleft : skip_blanks left with
    | nil =>
      rw [hleft] at h
      cases h
    | cons c left =>
      rw [hleft] at h
      dsimp only at h
      split_ifs at h with hclose hcomma
      · cases h
        rw [hclose]
        exact Takes.nothing _
      · obtain ⟨⟨found, behind⟩, hmore, h⟩ := of_bind_ok h
        cases h
        exact takes_comma hcomma (ih hmore)

theorem read_enclosed_takes (hpart : TakesAll part) {built : List β → α} {text rest : Text}
    {value : α} (h : read_enclosed b part close built text = .ok (value, rest)) :
    Takes text (close :: rest) := by
  unfold read_enclosed at h
  refine (takes_blanks text).trans ?_
  cases htext : skip_blanks text with
  | nil =>
    rw [htext] at h
    cases h
  | cons c left =>
    rw [htext] at h
    dsimp only at h
    split_ifs at h with hclose
    · cases h
      rw [hclose]
      exact Takes.nothing _
    · obtain ⟨⟨values, behind⟩, hparts, h⟩ := of_bind_ok h
      cases h
      exact read_parts_takes hpart hparts

end

variable {inside : Text → Except ε (α × Text)}

theorem read_field_takes (hinside : TakesAll inside) : TakesAll (read_field b inside) := by
  intro text field rest h
  unfold read_field at h
  split at h
  · rename_i c text
    split_ifs at h with hquote
    cases hpieces : read_pieces text with
    | none =>
      rw [hpieces] at h
      cases h
    | some read =>
      obtain ⟨pieces, left⟩ := read
      rw [hpieces] at h
      dsimp only at h
      subst hquote
      refine (takes_quoted hpieces).trans ((takes_blanks left).trans ?_)
      cases hleft : skip_blanks left with
      | nil =>
        rw [hleft] at h
        cases h
      | cons c left =>
        rw [hleft] at h
        dsimp only at h
        split_ifs at h with hcolon
        obtain ⟨⟨value, behind⟩, hvalue, h⟩ := of_bind_ok h
        cases h
        exact ((takes_blanks left).trans (hinside _ _ _ hvalue)).plain
          (plain_of_ne (by rw [hcolon]; decide))
  · cases h

theorem read_list_takes (hinside : TakesAll inside) {text rest : Text} {value : α}
    (h : read_list b inside text = .ok (value, rest)) : Takes text rest :=
  (read_enclosed_takes hinside h).trans
    ((Takes.nothing rest).plain (plain_of_ne (by decide)))

theorem read_dict_takes (hinside : TakesAll inside) {text rest : Text} {value : α}
    (h : read_dict b inside text = .ok (value, rest)) : Takes text (CLOSE :: rest) :=
  read_enclosed_takes (read_field_takes hinside) h

theorem read_from_takes {inside : Option (Text → Except ε (α × Text))}
    (hinside : ∀ read ∈ inside, TakesAll read) : TakesAll (read_from b inside) := by
  intro text value rest h
  unfold read_from at h
  split at h
  · rename_i c text
    split_ifs at h with hquote hopen hlist
    · cases hpieces : read_pieces text with
      | none =>
        rw [hpieces] at h
        cases h
      | some read =>
        rw [hpieces] at h
        cases h
        rw [hquote]
        exact takes_quoted hpieces
    · cases inside with
      | none => cases h
      | some read =>
        obtain ⟨inner, rfl, hinner⟩ := read_dict_takes (hinside read rfl) h
        rw [hopen]
        exact ⟨OPEN :: (inner ++ [CLOSE]), by simp, .braces hinner .nil⟩
    · cases inside with
      | none => cases h
      | some read =>
        exact (read_list_takes (hinside read rfl) h).plain (plain_of_ne (by rw [hlist]; decide))
    · exact read_plain_takes h
  · cases h

/-- What is read as a value is a balanced part of the text. -/
theorem read_value_takes (b : Builder ε α) (depth : Nat) : TakesAll (read_value b depth) := by
  induction depth with
  | zero => exact read_from_takes fun _ h => nomatch h
  | succ depth ih =>
    refine read_from_takes fun read h => ?_
    cases h
    exact ih

/-- An object is read up to the partner of its brace. -/
theorem object_takes {depth : Nat} {text rest : Text} {value : α}
    (h : read_value b depth (OPEN :: text) = .ok (value, rest)) :
    ∃ inner, text = inner ++ CLOSE :: rest ∧ Balanced inner := by
  cases depth with
  | zero => cases h
  | succ depth => exact read_dict_takes (read_value_takes b depth) h

end

end json_texts
