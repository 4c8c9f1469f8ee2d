-- Law of `_chunk_text` of `rag`: how a text is cut at the ends of sentences
-- into chunks that repeat some words, and when a chunk is blank or a character
-- too long.
import DrBoz.Lib.Words
import DrBoz.RagPipeline
import Mathlib.Data.List.Chain

open dr_boz.py (isSpace)
open dr_boz.rag_pipeline (SENTENCE_ENDS)
open separated (Bare IsWord joined trim)

namespace dr_boz.rag_chunks

/-! ## The function -/

abbrev Text := List Char

def is_end (c : Char) : Bool := SENTENCE_ENDS.contains c

/-- `re.split` at the blanks behind the end of a sentence: with the sentence so far, and whether
the blanks of a match go on. -/
def split_from (skipping : Bool) (sentence : Text) : Text → List Text
  | [] => [sentence]
  | c :: rest =>
    if skipping && isSpace c then split_from true sentence rest
    else if isSpace c && sentence.getLast?.any is_end then sentence :: split_from true [] rest
    else split_from false (sentence ++ [c]) rest

def re_split (text : Text) : List Text := split_from false [] text

/-- `text.strip()` -/
def strip (text : Text) : Text := trim isSpace text

/-- `text.split()` -/
def split_words (text : Text) : List Text := separated.words isSpace text

/-- `" ".join(parts)` -/
def join (parts : List Text) : Text := joined ' ' parts

/-- `words[-overlap//4:] if len(words) > overlap//4 else []`. The division rounds `-overlap`
down. -/
def overlap_words (overlap : Nat) (words : List Text) : List Text :=
  if words.length > overlap / 4 then
    if overlap = 0 then words else words.drop (words.length - (overlap + 3) / 4)
  else []

section
variable (chunk_size overlap : Nat)

/-- The loop over the sentences and the chunk behind it. -/
def chunk_loop (current_chunk : Text) : List Text → List Text
  | [] => if (strip current_chunk).isEmpty then [] else [strip current_chunk]
  | sentence :: sentences =>
    if decide (current_chunk.length + sentence.length > chunk_size) && !current_chunk.isEmpty then
      strip current_chunk ::
        chunk_loop (join (overlap_words overlap (split_words current_chunk)) ++ ' ' :: sentence)
          sentences
    else
      chunk_loop (if current_chunk.isEmpty then sentence else current_chunk ++ ' ' :: sentence)
        sentences

/-- The second loop, from `start` on. Nothing stands for more than `turns` turns. -/
def windows (text : Text) : Nat → Nat → Option (List Text)
  | 0, _ => none
  | turns + 1, start =>
    if start < text.length then
      (windows text turns (start + chunk_size - overlap)).map
        ((text.drop start).take chunk_size :: ·)
    else some []

def _chunk_text (turns : Nat) (text : Text) : Option (List Text) :=
  let chunks := chunk_loop chunk_size overlap [] (re_split text)
  (if chunks.isEmpty then windows chunk_size overlap text turns 0 else some chunks).map
    fun chunks => chunks.filter (!·.isEmpty)

/-! ## What the chunks are to be -/

/-- The repeated words at the beginning of a chunk, with the blank behind them. -/
def lead (repeated : List Text) : Text := if repeated.isEmpty then [] else join repeated ++ [' ']

/-- A chunk is at most `chunk_size` characters behind the words that it repeats, unless it ends
with one sentence that is longer. -/
def Sized (text : Text) (repeated : List Text) (chunk : Text) : Prop :=
  chunk.length ≤ chunk_size + (lead repeated).length ∨
    ∃ sentence ∈ re_split text, chunk_size < (strip sentence).length ∧ strip sentence <:+ chunk

/-- Each chunk begins with the words that it repeats of the one before it. -/
def Linked (text : Text) : List Text → List Text → Prop
  | _, [] => True
  | repeated, chunk :: chunks =>
    (repeated <+: split_words chunk ∧ Sized chunk_size text repeated chunk) ∧
      Linked text (overlap_words overlap (split_words chunk)) chunks

/-- The words of the chunks without those that are repeated. -/
def new_words : List Text → List Text → List Text
  | _, [] => []
  | repeated, chunk :: chunks =>
    (split_words chunk).drop repeated.length ++
      new_words (overlap_words overlap (split_words chunk)) chunks

def Blank (text : Text) : Prop := separated.Blank isSpace text

structure Chunked (text : Text) (chunks : List Text) : Prop where
  not_blank : ∀ chunk ∈ chunks, ¬Blank chunk
  linked : Linked chunk_size overlap text [] chunks
  kept : new_words overlap [] chunks = split_words text

/-- The function ends, whatever turns it may take above the length of the text, and with such
chunks. -/
def ChunksWell (text : Text) : Prop :=
  ∃ chunks, (∀ turns, text.length < turns →
    _chunk_text chunk_size overlap turns text = some chunks) ∧
      Chunked chunk_size overlap text chunks

end

/-- One character too long, and no blank at an end. -/
def Exceeds (chunk_size : Nat) (text : Text) : Prop :=
  text.length = chunk_size + 1 ∧ strip text = text

/-- A blank text is empty, or its first line is longer than a chunk and not all of it. Some
sentences at the beginning, with the blanks between them, are not one character too long. -/
structure Fits (chunk_size : Nat) (text : Text) : Prop where
  blank : Blank text → text = [] ∨ ∃ line rest, text = line ++ '\n' :: rest ∧ '\n' ∉ line ∧
    rest ≠ [] ∧ chunk_size ≤ line.length
  first_chunk : ∀ n, 2 ≤ n → n ≤ (re_split text).length →
    ¬Exceeds chunk_size (join ((re_split text).take n))

/-! ## Sentences -/

/-- No blank follows the end of a sentence. -/
def Whole (sentence : Text) : Prop :=
  sentence.IsChain fun a b => ¬(is_end a = true ∧ isSpace b = true)

/-- A sentence behind the first one begins with no blank. -/
def Begins (sentence : Text) : Prop := ∀ c, sentence.head? = some c → isSpace c = false

section
variable {skipping : Bool} {sentence text : Text}

theorem split_words_sentences (hskip : skipping = true → sentence = []) (rest : Text) :
    ((split_from skipping sentence rest).map split_words).flatten =
      split_words (sentence ++ rest) := by
  induction rest generalizing skipping sentence with
  | nil =>
    rw [split_from, List.append_nil]
    exact List.append_nil _
  | cons c rest ih =>
    unfold split_from
    by_cases hc : isSpace c = true
    · by_cases hskipping : skipping = true
      · have hnil := hskip hskipping
        subst hnil
        rw [if_pos (by rw [hskipping, hc]; rfl), ih (fun _ => rfl)]
        exact (separated.words_cons hc rest).symm
      · rw [if_neg (by simp [hskipping])]
        split
        · rw [List.map_cons, List.flatten_cons, ih (fun _ => rfl)]
          exact (separated.words_append_cons hc sentence rest).symm
        · rw [ih (fun h => absurd h Bool.false_ne_true), List.append_assoc]
          rfl
    · rw [if_neg (by simp [hc]), if_neg (by simp [hc]),
        ih (fun h => absurd h Bool.false_ne_true), List.append_assoc]
      rfl

/-- The words of the sentences are those of the text. -/
theorem split_words_re_split (text : Text) :
    ((re_split text).map split_words).flatten = split_words text :=
  split_words_sentences (fun h => absurd h Bool.false_ne_true) text

theorem split_from_ne_nil (skipping : Bool) (sentence rest : Text) :
    split_from skipping sentence rest ≠ [] := by
  induction rest generalizing skipping sentence with
  | nil => exact List.cons_ne_nil _ _
  | cons c rest ih =>
    unfold split_from
    split
    · exact ih _ _
    · split
      · exact List.cons_ne_nil _ _
      · exact ih _ _

theorem whole_of_mem (hsentence : Whole sentence) (rest : Text) :
    ∀ part ∈ split_from skipping sentence rest, Whole part := by
  induction rest generalizing skipping sentence with
  | nil => exact fun part hpart => List.mem_singleton.mp hpart ▸ hsentence
  | cons c rest ih =>
    unfold split_from
    split
    · exact ih hsentence
    · split
      · exact List.forall_mem_cons.mpr ⟨hsentence, ih List.isChain_nil⟩
      · next hend =>
        refine ih (List.isChain_append.mpr ⟨hsentence, List.isChain_singleton c, ?_⟩)
        rintro a ha b hb ⟨hmark, hspace⟩
        rw [List.head?_cons, Option.mem_some_iff] at hb
        subst hb
        rw [Option.mem_def] at ha
        exact hend (by rw [hspace, ha]; simpa using hmark)

theorem Whole.strip (h : Whole sentence) : Whole (strip sentence) := by
  obtain ⟨before, behind, hsplit⟩ := @separated.trim_isInfix _ isSpace sentence
  rw [← hsplit] at h
  exact h.left_of_append.right_of_append

/-- Only the last sentence may be without its end. -/
theorem ends_of_more {rest first second : Text} {more : List Text}
    (h : split_from skipping sentence rest = first :: second :: more) :
    first.getLast?.any is_end = true := by
  induction rest generalizing skipping sentence with
  | nil => cases h
  | cons c rest ih =>
    unfold split_from at h
    split at h
    · exact ih h
    · split at h
      · next hend =>
        rw [List.cons.injEq] at h
        rw [← h.1]
        exact (Bool.and_eq_true _ _ ▸ hend).2
      · exact ih h

/-- The first part goes on from the sentence so far. -/
theorem split_from_head (sentence rest : Text) : ∃ first more,
    split_from false sentence rest = first :: more ∧ sentence <+: first := by
  induction rest generalizing sentence with
  | nil => exact ⟨sentence, [], rfl, List.prefix_rfl⟩
  | cons c rest ih =>
    unfold split_from
    rw [if_neg (by simp)]
    split
    · exact ⟨_, _, rfl, List.prefix_rfl⟩
    · obtain ⟨first, more, hsplit, hfirst⟩ := ih (sentence ++ [c])
      exact ⟨first, more, hsplit, (List.prefix_append _ _).trans hfirst⟩

theorem begins_of_tail (rest : Text) :
    (∀ sentence, ∀ part ∈ (split_from false sentence rest).tail, Begins part) ∧
      ∀ part ∈ split_from true [] rest, Begins part := by
  induction rest with
  | nil =>
    refine ⟨fun sentence part hpart => absurd hpart List.not_mem_nil, fun part hpart => ?_⟩
    rw [List.mem_singleton.mp hpart]
    exact fun c hc => by cases hc
  | cons c rest ih =>
    constructor
    · intro sentence
      unfold split_from
      rw [if_neg (by simp)]
      split
      · exact ih.2
      · exact ih.1 _
    · unfold split_from
      by_cases hc : isSpace c = true
      · rw [if_pos (by simp [hc])]
        exact ih.2
      · rw [if_neg (by simp [hc]), if_neg (by simp [hc])]
        obtain ⟨first, more, hsplit, hfirst⟩ := split_from_head ([] ++ [c]) rest
        have htail := ih.1 ([] ++ [c])
        rw [hsplit] at htail ⊢
        refine List.forall_mem_cons.mpr ⟨fun d hd => ?_, htail⟩
        obtain ⟨end_of, rfl⟩ := hfirst
        cases hd
        exact Bool.eq_false_iff.mpr hc

end

/-! ## The words of the chunks -/

section
variable {chunk_size overlap : Nat} {text : Text}

theorem split_words_strip (t : Text) : split_words (strip t) = split_words t :=
  separated.words_trim isSpace t

theorem overlap_words_nil (overlap : Nat) : overlap_words overlap [] = [] :=
  if_neg (Nat.not_lt_zero _)

theorem isWord_of_mem_overlap {parts : List Text} (h : ∀ word ∈ parts, IsWord isSpace word) :
    ∀ word ∈ overlap_words overlap parts, IsWord isSpace word := by
  unfold overlap_words
  split
  · split
    · exact h
    · exact fun word hword => h word (List.mem_of_mem_drop hword)
  · exact fun word hword => absurd hword List.not_mem_nil

/-- The next chunk begins with the words that are repeated. -/
theorem split_words_next (t sentence : Text) :
    split_words (join (overlap_words overlap (split_words t)) ++ ' ' :: sentence) =
      overlap_words overlap (split_words t) ++ split_words sentence := by
  have hwords : ∀ word ∈ overlap_words overlap (split_words t), IsWord isSpace word :=
    isWord_of_mem_overlap fun word hword => separated.isWord_of_mem hword
  unfold join
  rw [split_words, separated.words_append_cons (by decide),
    separated.words_joined (by decide) hwords]
  rfl

theorem split_words_more (t sentence : Text) :
    split_words (if t.isEmpty then sentence else t ++ ' ' :: sentence) =
      split_words t ++ split_words sentence := by
  cases t with
  | nil => rfl
  | cons c t => exact separated.words_append_cons (by decide) (c :: t) sentence

theorem split_words_of_strip {t : Text} (h : (strip t).isEmpty = true) : split_words t = [] := by
  rw [← split_words_strip, List.isEmpty_iff.mp h]
  exact separated.words_nil

/-- The loop keeps the words, each chunk without the ones that it repeats. -/
theorem loop_kept {repeated : List Text} {current : Text} (h : repeated <+: split_words current)
    (sentences : List Text) :
    new_words overlap repeated
        ((chunk_loop chunk_size overlap current sentences).filter (!·.isEmpty)) =
      (split_words current).drop repeated.length ++ (sentences.map split_words).flatten := by
  induction sentences generalizing repeated current with
  | nil =>
    unfold chunk_loop
    split
    · next hblank =>
      rw [split_words_of_strip hblank, List.drop_nil]
      rfl
    · next hsome =>
      rw [List.filter_cons_of_pos (by simpa using hsome), List.filter_nil]
      simp only [new_words, split_words_strip]
      rfl
  | cons sentence sentences ih =>
    unfold chunk_loop
    split
    · have hnext := @ih (overlap_words overlap (split_words current))
        (join (overlap_words overlap (split_words current)) ++ ' ' :: sentence)
        (by rw [split_words_next]; exact List.prefix_append _ _)
      rw [split_words_next, List.drop_left] at hnext
      by_cases hblank : (strip current).isEmpty = true
      · -- The chunk is blank: it repeats nothing, and nothing is repeated of it.
        have hnil := split_words_of_strip hblank
        rw [hnil, List.prefix_nil] at h
        subst h
        rw [List.filter_cons_of_neg (by simpa using hblank)]
        rw [hnil, overlap_words_nil] at hnext
        rw [hnil, overlap_words_nil, hnext]
        rfl
      · rw [List.filter_cons_of_pos (by simpa using hblank)]
        simp only [new_words, split_words_strip]
        rw [hnext]
        rfl
    · rw [ih (by rw [split_words_more]; exact h.trans (List.prefix_append _ _)), split_words_more,
        List.drop_append_of_le_length h.length_le, List.append_assoc]
      rfl

/-! ## The lengths of the chunks -/

/-- Something stands before the first sentence of a chunk. -/
def Later (repeated : List Text) (current : Text) : Prop :=
  repeated ≠ [] ∨ current.head? = some ' '

theorem strip_append_strip {sentence : Text} (h : Begins sentence) (before : Text) :
    strip (before ++ sentence) = strip (before ++ strip sentence) := by
  have hstrip : strip sentence = sentence.rdropWhile isSpace := by
    unfold strip trim
    rw [separated.dropWhile_eq_self h]
  have hblank : separated.Blank isSpace (sentence.rtakeWhile isSpace) := fun c hc =>
    List.mem_rtakeWhile_imp hc
  have hsplit : sentence = strip sentence ++ sentence.rtakeWhile isSpace := by
    rw [hstrip, List.rdropWhile_append_rtakeWhile]
  calc strip (before ++ sentence)
      = strip (before ++ strip sentence ++ sentence.rtakeWhile isSpace) := by
        rw [List.append_assoc, ← hsplit]
    _ = strip (before ++ strip sentence) := separated.trim_append_blank hblank _

theorem strip_cons_space (t : Text) : strip (' ' :: t) = strip t :=
  @separated.trim_blank_append _ isSpace [' '] (fun _ hc => List.mem_singleton.mp hc ▸ rfl) t

theorem strip_length (t : Text) : (strip t).length ≤ t.length := separated.trim_length isSpace t

/-- A chunk with one sentence is short, or the sentence is long. -/
theorem sized_next {sentence : Text} (hin : sentence ∈ re_split text) (hbegins : Begins sentence)
    (repeated : List Text) :
    Sized chunk_size text repeated (strip (join repeated ++ ' ' :: sentence)) := by
  have happend : join repeated ++ ' ' :: sentence = (join repeated ++ [' ']) ++ sentence := by simp
  rw [happend, strip_append_strip hbegins]
  by_cases hlong : chunk_size < (strip sentence).length
  · exact .inr ⟨sentence, hin, hlong, separated.suffix_trim _ (separated.bare_trim _ _)⟩
  · refine .inl ?_
    unfold lead
    by_cases hnone : repeated.isEmpty = true
    · rw [if_pos hnone, List.isEmpty_iff.mp hnone]
      have hstrip := strip_length (strip sentence)
      change (strip (' ' :: strip sentence)).length ≤ chunk_size + 0
      rw [strip_cons_space]
      omega
    · rw [if_neg hnone]
      have hstrip := strip_length (join repeated ++ [' '] ++ strip sentence)
      rw [List.length_append] at hstrip
      omega

/-- A chunk that was short enough for its last sentence is short, when it is not the first. -/
theorem sized_fit {repeated : List Text} {current : Text} (hlater : Later repeated current)
    (h : current.length ≤ chunk_size + 1) : Sized chunk_size text repeated (strip current) := by
  refine .inl ?_
  rcases hlater with hne | hhead
  · have hlead : 1 ≤ (lead repeated).length := by
      unfold lead
      rw [if_neg (by simpa using hne), List.length_append]
      exact Nat.le_add_left _ _
    have hstrip := strip_length current
    omega
  · obtain ⟨rest, rfl⟩ := List.head?_eq_some_iff.mp hhead
    have hstrip := strip_length rest
    rw [strip_cons_space]
    rw [List.length_cons] at h
    omega

/-- What a chunk gives on to the next one. -/
theorem linked_cons {repeated : List Text} {current : Text} {chunks : List Text}
    (hrepeat : repeated <+: split_words current)
    (hsized : Sized chunk_size text repeated (strip current))
    (hnext : Linked chunk_size overlap text (overlap_words overlap (split_words current))
      (chunks.filter (!·.isEmpty))) :
    Linked chunk_size overlap text repeated ((strip current :: chunks).filter (!·.isEmpty)) := by
  by_cases hblank : (strip current).isEmpty = true
  · have hnil := split_words_of_strip hblank
    rw [hnil, List.prefix_nil] at hrepeat
    rw [hnil, overlap_words_nil] at hnext
    rw [List.filter_cons_of_neg (by simpa using hblank), hrepeat]
    exact hnext
  · rw [List.filter_cons_of_pos (by simpa using hblank)]
    refine ⟨⟨?_, hsized⟩, ?_⟩
    · rw [split_words_strip]
      exact hrepeat
    · rw [split_words_strip]
      exact hnext

theorem linked_last {repeated : List Text} {current : Text}
    (hrepeat : repeated <+: split_words current)
    (hsized : Sized chunk_size text repeated (strip current)) :
    Linked chunk_size overlap text repeated
      ((chunk_loop chunk_size overlap current []).filter (!·.isEmpty)) := by
  unfold chunk_loop
  split
  · exact trivial
  · exact linked_cons hrepeat hsized trivial

/-- The chunks behind the first one are as long as they are to be. -/
theorem loop_linked {repeated : List Text} {current : Text}
    (hrepeat : repeated <+: split_words current) (hlater : Later repeated current)
    (hsized : Sized chunk_size text repeated (strip current)) {sentences : List Text}
    (hin : ∀ sentence ∈ sentences, sentence ∈ re_split text ∧ Begins sentence) :
    Linked chunk_size overlap text repeated
      ((chunk_loop chunk_size overlap current sentences).filter (!·.isEmpty)) := by
  induction sentences generalizing repeated current with
  | nil => exact linked_last hrepeat hsized
  | cons sentence sentences ih =>
    obtain ⟨⟨hsentence, hbegins⟩, hrest⟩ := List.forall_mem_cons.mp hin
    unfold chunk_loop
    split
    · refine linked_cons hrepeat hsized (ih ?_ ?_ (sized_next hsentence hbegins _) hrest)
      · rw [split_words_next]
        exact List.prefix_append _ _
      · cases overlap_words overlap (split_words current) with
        | nil => exact .inr rfl
        | cons word parts => exact .inl (List.cons_ne_nil word parts)
    · next hfits =>
      have hne : current.isEmpty = false := by
        cases current with
        | cons c current => rfl
        | nil =>
          rcases hlater with hne | hhead
          · exact absurd (List.prefix_nil.mp hrepeat) hne
          · cases hhead
      have hlength : current.length + sentence.length ≤ chunk_size := by
        simpa [hne] using hfits
      have hgoes : Later repeated (if current.isEmpty then sentence
          else current ++ ' ' :: sentence) := by
        rw [hne]
        refine hlater.imp_right fun hhead => ?_
        obtain ⟨rest, rfl⟩ := List.head?_eq_some_iff.mp hhead
        rfl
      refine ih ?_ hgoes (sized_fit hgoes ?_) hrest
      · rw [split_words_more]
        exact hrepeat.trans (List.prefix_append _ _)
      · rw [hne]
        simp only [Bool.false_eq_true, if_false, List.length_append, List.length_cons]
        omega

/-! ## The first chunk -/

theorem join_concat {done : List Text} (h : done ≠ []) (sentence : Text) :
    join (done ++ [sentence]) = join done ++ ' ' :: sentence :=
  separated.joined_concat ' ' h sentence

theorem ne_nil_of_join {done : List Text} (h : join done ≠ []) : done ≠ [] := by
  rintro rfl
  exact h rfl

/-- What the loop has in hand when a sentence fits. -/
theorem join_more {done : List Text} (h : join done ≠ []) (sentence : Text) :
    (if (join done).isEmpty then sentence else join done ++ ' ' :: sentence) =
      join (done ++ [sentence]) := by
  rw [if_neg (by simpa using h), join_concat (ne_nil_of_join h)]

theorem join_more_ne_nil {done : List Text} (h : join done ≠ []) (sentence : Text) :
    join (done ++ [sentence]) ≠ [] := by
  rw [join_concat (ne_nil_of_join h)]
  simp

/-- While no beginning is one character too long, the first chunk is as long as it is to be. -/
theorem loop_first {done rest : List Text} (hall : done ++ rest = re_split text)
    (hdone : join done ≠ []) (hsized : Sized chunk_size text [] (strip (join done)))
    (hfirst : ∀ n, 2 ≤ n → n ≤ (re_split text).length →
      ¬Exceeds chunk_size (join ((re_split text).take n)))
    (hbegins : ∀ sentence ∈ rest, Begins sentence) :
    Linked chunk_size overlap text []
      ((chunk_loop chunk_size overlap (join done) rest).filter (!·.isEmpty)) := by
  induction rest generalizing done with
  | nil => exact linked_last List.nil_prefix hsized
  | cons sentence rest ih =>
    have hin : ∀ s ∈ sentence :: rest, s ∈ re_split text ∧ Begins s := fun s hs =>
      ⟨hall ▸ List.mem_append_right _ hs, hbegins s hs⟩
    obtain ⟨⟨hsentence, hbegin⟩, hrest⟩ := List.forall_mem_cons.mp hin
    unfold chunk_loop
    split
    · refine linked_cons List.nil_prefix hsized
        (loop_linked ?_ ?_ (sized_next hsentence hbegin _) hrest)
      · rw [split_words_next]
        exact List.prefix_append _ _
      · cases overlap_words overlap (split_words (join done)) with
        | nil => exact .inr rfl
        | cons word parts => exact .inl (List.cons_ne_nil word parts)
    · next hfits =>
      have hlength : (join done).length + sentence.length ≤ chunk_size := by
        simpa [hdone] using hfits
      have hall' : (done ++ [sentence]) ++ rest = re_split text := by
        rw [List.append_assoc]
        exact hall
      rw [join_more hdone]
      refine ih hall' (join_more_ne_nil hdone sentence) ?_ fun s hs => (hrest s hs).2
      have hconcat := join_concat (ne_nil_of_join hdone) sentence
      have hnext : (join (done ++ [sentence])).length ≤ chunk_size + 1 := by
        rw [hconcat, List.length_append, List.length_cons]
        omega
      have hstrip := strip_length (join (done ++ [sentence]))
      refine .inl (Nat.le_of_not_lt fun hlong => ?_)
      have hlead : (lead []).length = 0 := rfl
      have hsame : strip (join (done ++ [sentence])) = join (done ++ [sentence]) :=
        (separated.trim_isInfix).eq_of_length (by
          change (strip _).length = _
          omega)
      have htake : (re_split text).take (done.length + 1) = done ++ [sentence] := by
        rw [← hall']
        exact List.take_left' (by simp)
      have hpos := List.length_pos_iff.mpr (ne_nil_of_join hdone)
      refine hfirst (done.length + 1) (by omega) ?_ ?_
      · rw [← hall', List.length_append, List.length_append, List.length_singleton]
        omega
      · rw [htake]
        exact ⟨by rw [← hsame]; omega, hsame⟩

/-- A beginning that is one character too long becomes the first chunk. -/
theorem loop_exceeds {done rest : List Text} {k : Nat} (hdone : join done ≠ [])
    (h : Exceeds chunk_size (join (done ++ rest.take k))) : ∃ more,
      chunk_loop chunk_size overlap (join done) rest = join (done ++ rest.take k) :: more := by
  have hend : ∀ done : List Text, join done ≠ [] → Exceeds chunk_size (join done) →
      ∀ rest, ∃ more, chunk_loop chunk_size overlap (join done) rest = join done :: more := by
    intro done hdone h rest
    cases rest with
    | nil =>
      unfold chunk_loop
      rw [h.2, if_neg (by simpa using hdone)]
      exact ⟨[], rfl⟩
    | cons sentence rest =>
      unfold chunk_loop
      rw [h.2, if_pos (by simp [h.1, hdone]; omega)]
      exact ⟨_, rfl⟩
  induction rest generalizing done k with
  | nil =>
    rw [List.take_nil, List.append_nil] at h ⊢
    exact hend done hdone h []
  | cons sentence rest ih =>
    cases k with
    | zero =>
      rw [List.take_zero, List.append_nil] at h ⊢
      exact hend done hdone h _
    | succ k =>
      have htake : done ++ (sentence :: rest).take (k + 1) =
          (done ++ [sentence]) ++ rest.take k := by simp
      rw [htake] at h ⊢
      have hconcat := join_concat (ne_nil_of_join hdone) sentence
      have hrepeat : join (done ++ [sentence]) <+: join ((done ++ [sentence]) ++ rest.take k) :=
        separated.joined_prefix_append (by simp) _
      have hlength := hrepeat.length_le
      rw [h.1, hconcat, List.length_append, List.length_cons] at hlength
      unfold chunk_loop
      rw [if_neg (by simp; intro hlong; omega), join_more hdone]
      exact ih (join_more_ne_nil hdone sentence) h

/-- Two sentences in a chunk are no single sentence. -/
theorem not_sized_of_exceeds {n : Nat} (hn : 2 ≤ n) (hle : n ≤ (re_split text).length)
    (h : Exceeds chunk_size (join ((re_split text).take n))) :
    ¬Sized chunk_size text [] (join ((re_split text).take n)) := by
  rintro (hshort | ⟨sentence, hsentence, hlong, hsuffix⟩)
  · rw [h.1] at hshort
    exact absurd hshort (by change ¬(chunk_size + 1 ≤ chunk_size + 0); omega)
  · have hlength := hsuffix.length_le
    have hsame : strip sentence = join ((re_split text).take n) :=
      hsuffix.eq_of_length (by rw [h.1] at hlength ⊢; omega)
    have hwhole := (whole_of_mem List.isChain_nil text sentence hsentence).strip
    match hsplit : re_split text, hle with
    | first :: second :: more, _ =>
      have hend := ends_of_more hsplit
      have htake : (first :: second :: more).take n = first :: second :: more.take (n - 2) := by
        obtain ⟨k, rfl⟩ := Nat.exists_eq_add_of_le hn
        rw [Nat.add_comm 2 k, Nat.add_sub_cancel]
        rfl
      rw [hsame, hsplit, htake, join, separated.joined_cons _ _ (List.cons_ne_nil _ _)] at hwhole
      cases hmark : first.getLast? with
      | none =>
        rw [hmark] at hend
        cases hend
      | some mark =>
        rw [hmark] at hend
        exact (List.isChain_append.mp hwhole).2.2 mark hmark ' ' rfl ⟨hend, by decide⟩
    | [_], hle => exact absurd (Nat.le_trans hn hle) (Nat.not_succ_le_self 1)
    | [], hle => exact absurd (Nat.le_trans hn hle) (Nat.not_succ_le_zero 1)

/-! ## Blank texts -/

theorem end_of_space {c : Char} (h : isSpace c = true) (hne : c ≠ '\n') : is_end c = false := by
  by_contra hend
  have hmem : c ∈ SENTENCE_ENDS :=
    List.contains_iff_mem.mp (Bool.eq_true_of_not_eq_false hend)
  have hall : ∀ c ∈ SENTENCE_ENDS, isSpace c = true → c = '\n' := fun c hc =>
    of_decide_eq_true (List.all_eq_true.mp (by decide :
      SENTENCE_ENDS.all (fun c => decide (isSpace c = true → c = '\n')) = true) c hc)
  exact hne (hall c hmem h)

/-- A line without an end in it is taken as it is. -/
theorem split_from_line {sentence line : Text} (h : ∀ c ∈ sentence ++ line, is_end c = false)
    (rest : Text) : split_from false sentence (line ++ rest) =
      split_from false (sentence ++ line) rest := by
  induction line generalizing sentence with
  | nil => rw [List.nil_append, List.append_nil]
  | cons c line ih =>
    have hlast : sentence.getLast?.any is_end = false := by
      cases hsome : sentence.getLast? with
      | none => rfl
      | some d => exact h d (List.mem_append_left _ (List.mem_of_getLast? hsome))
    rw [List.cons_append, split_from, if_neg (by simp), if_neg (by simp [hlast]),
      ih (by simpa using h), List.append_assoc]
    rfl

theorem split_from_blank {rest : Text} (h : Blank rest) : split_from true [] rest = [[]] := by
  induction rest with
  | nil => rfl
  | cons c rest ih =>
    obtain ⟨hc, hrest⟩ := List.forall_mem_cons.mp h
    rw [split_from, if_pos (by simp [hc]), ih hrest]

/-- A blank text is one sentence, or its first line and nothing behind it. -/
theorem re_split_blank {line rest : Text} (hblank : Blank (line ++ rest)) (hline : '\n' ∉ line) :
    re_split line = [line] ∧ re_split (line ++ '\n' :: rest) =
      if rest.isEmpty then [line ++ ['\n']] else [line ++ ['\n'], []] := by
  have hends : ∀ c ∈ [] ++ line, is_end c = false := fun c hc =>
    end_of_space (hblank c (List.mem_append_left _ hc)) fun he => hline (he ▸ hc)
  have hlast : line.getLast?.any is_end = false := by
    cases hsome : line.getLast? with
    | none => rfl
    | some d => exact hends d (List.mem_of_getLast? hsome)
  constructor
  · have hsplit := split_from_line hends []
    rw [List.append_nil] at hsplit
    exact hsplit
  · have hsplit : re_split (line ++ '\n' :: rest) = split_from false (line ++ ['\n']) rest := by
      unfold re_split
      rw [split_from_line hends, List.nil_append, split_from, if_neg (by simp),
        if_neg (by simp [hlast])]
    rw [hsplit]
    cases rest with
    | nil => rfl
    | cons c rest =>
      have hc : isSpace c = true := hblank c (List.mem_append_right _ List.mem_cons_self)
      have hrest : Blank rest := fun d hd =>
        hblank d (List.mem_append_right _ (List.mem_cons_of_mem _ hd))
      have hmark : (line ++ ['\n']).getLast?.any is_end = true := by
        rw [List.getLast?_concat]
        rfl
      rw [split_from, if_neg (by simp), if_pos (by rw [hc, hmark]; rfl), split_from_blank hrest]
      rfl

theorem strip_blank {t : Text} (h : Blank t) : (strip t).isEmpty = true :=
  List.isEmpty_iff.mpr (separated.trim_eq_nil_iff.mpr h)

theorem loop_one (first : Text) (sentences : List Text) :
    chunk_loop chunk_size overlap [] (first :: sentences) =
      chunk_loop chunk_size overlap first sentences := by
  rw [chunk_loop, if_neg (by simp)]
  rfl

/-- A blank text leaves a chunk in the loop, an empty one, iff its first line is too long. -/
theorem blank_loop_iff (hblank : Blank text) :
    chunk_loop chunk_size overlap [] (re_split text) ≠ [] ↔ ∃ line rest,
      text = line ++ '\n' :: rest ∧ '\n' ∉ line ∧ rest ≠ [] ∧ chunk_size ≤ line.length := by
  have hone : ∀ t, Blank t → chunk_loop chunk_size overlap [] [t] = [] := fun t ht => by
    rw [loop_one, chunk_loop, if_pos (strip_blank ht)]
  have htwo : ∀ line : Text, Blank line →
      (chunk_loop chunk_size overlap [] [line ++ ['\n'], []] ≠ [] ↔ chunk_size ≤ line.length) := by
    intro line hline
    rw [loop_one, chunk_loop]
    split
    · next hlong =>
      refine iff_of_true (List.cons_ne_nil _ _) ?_
      simp at hlong
      omega
    · next hshort =>
      refine iff_of_false (not_not.mpr ?_) ?_
      · rw [chunk_loop, if_pos (strip_blank ?_)]
        intro c hc
        have hne : (line ++ ['\n']).isEmpty = false := by cases line <;> rfl
        rw [hne, if_neg Bool.false_ne_true] at hc
        rcases List.mem_append.mp hc with hc | hc
        · rcases List.mem_append.mp hc with hc | hc
          · exact hline c hc
          · exact List.mem_singleton.mp hc ▸ rfl
        · exact List.mem_singleton.mp hc ▸ rfl
      · simp at hshort
        omega
  constructor
  · intro hloop
    by_cases hnewline : '\n' ∈ text
    · obtain ⟨line, rest, rfl, hline⟩ := List.eq_append_cons_of_mem hnewline
      have hparts : Blank (line ++ rest) := fun c hc =>
        hblank c ((List.mem_append.mp hc).elim (List.mem_append_left _) fun hc =>
          List.mem_append_right _ (List.mem_cons_of_mem _ hc))
      rw [(re_split_blank hparts hline).2] at hloop
      by_cases hrest : rest.isEmpty = true
      · rw [if_pos hrest] at hloop
        refine absurd (hone _ fun c hc => ?_) hloop
        rcases List.mem_append.mp hc with hc | hc
        · exact hparts c (List.mem_append_left _ hc)
        · exact List.mem_singleton.mp hc ▸ rfl
      · rw [if_neg hrest] at hloop
        exact ⟨line, rest, rfl, hline, by simpa using hrest,
          (htwo line fun c hc => hparts c (List.mem_append_left _ hc)).mp hloop⟩
    · have hsplit := (@re_split_blank text [] (by rwa [List.append_nil]) hnewline).1
      rw [hsplit] at hloop
      exact absurd (hone text hblank) hloop
  · rintro ⟨line, rest, rfl, hline, hrest, hlong⟩
    have hparts : Blank (line ++ rest) := fun c hc =>
      hblank c ((List.mem_append.mp hc).elim (List.mem_append_left _) fun hc =>
        List.mem_append_right _ (List.mem_cons_of_mem _ hc))
    rw [(re_split_blank hparts hline).2, if_neg (by simpa using hrest)]
    exact (htwo line fun c hc => hparts c (List.mem_append_left _ hc)).mpr hlong

/-! ## All chunks -/

theorem mem_loop {current : Text} {sentences : List Text} {chunk : Text}
    (h : chunk ∈ chunk_loop chunk_size overlap current sentences) : ∃ t, chunk = strip t := by
  induction sentences generalizing current with
  | nil =>
    unfold chunk_loop at h
    split at h
    · cases h
    · exact ⟨current, List.mem_singleton.mp h⟩
  | cons sentence sentences ih =>
    unfold chunk_loop at h
    split at h
    · rcases List.mem_cons.mp h with rfl | hrest
      · exact ⟨current, rfl⟩
      · exact ih hrest
    · exact ih h

/-- What the loop leaves is not blank, when it is not empty. -/
theorem loop_not_blank {current : Text} {sentences : List Text} : ∀ chunk ∈
    (chunk_loop chunk_size overlap current sentences).filter (!·.isEmpty), ¬Blank chunk := by
  intro chunk hchunk hblank
  obtain ⟨hloop, hne⟩ := List.mem_filter.mp hchunk
  obtain ⟨t, rfl⟩ := mem_loop hloop
  have hnil : trim isSpace (trim isSpace t) = [] := separated.trim_eq_nil_iff.mpr hblank
  rw [separated.trim_eq_self (separated.bare_trim isSpace t)] at hnil
  simp [strip, hnil] at hne

theorem chunk_text_of_loop (h : chunk_loop chunk_size overlap [] (re_split text) ≠ [])
    (turns : Nat) : _chunk_text chunk_size overlap turns text =
      some ((chunk_loop chunk_size overlap [] (re_split text)).filter (!·.isEmpty)) := by
  unfold _chunk_text
  simp only [if_neg (show ¬_ from fun hempty => h (List.isEmpty_iff.mp hempty))]
  rfl

/-- A blank text for which the loop leaves nothing is cut into blank windows. -/
theorem not_chunksWell_of_blank (hsize : 0 < chunk_size) (hne : text ≠ []) (hblank : Blank text)
    (hloop : chunk_loop chunk_size overlap [] (re_split text) = []) :
    ¬ChunksWell chunk_size overlap text := by
  rintro ⟨chunks, hends, hwell⟩
  have hrun := hends (text.length + 1) (Nat.lt_succ_self _)
  have hpos := List.length_pos_iff.mpr hne
  unfold _chunk_text at hrun
  simp only [hloop, List.isEmpty_nil, if_true] at hrun
  rw [windows, if_pos hpos] at hrun
  cases hrest : windows chunk_size overlap text text.length (0 + chunk_size - overlap) with
  | none =>
    rw [hrest] at hrun
    cases hrun
  | some more =>
    rw [hrest] at hrun
    simp only [Option.map_some, Option.some.injEq] at hrun
    have htake : (text.drop 0).take chunk_size ≠ [] := by
      rw [List.drop_zero, ← List.length_pos_iff, List.length_take]
      omega
    refine hwell.not_blank ((text.drop 0).take chunk_size) ?_ fun c hc => ?_
    · rw [← hrun]
      exact List.mem_filter.mpr ⟨List.mem_cons_self, by simpa using htake⟩
    · exact hblank c (List.mem_of_mem_drop (List.mem_of_mem_take hc))

theorem blank_of_loop (hloop : chunk_loop chunk_size overlap [] (re_split text) = []) :
    Blank text := by
  have hkept := @loop_kept chunk_size overlap [] [] List.nil_prefix (re_split text)
  rw [hloop, split_words_re_split] at hkept
  exact separated.words_eq_nil_iff.mp hkept.symm

theorem first_ne_nil (hne : text ≠ []) {first : Text} {more : List Text}
    (h : re_split text = first :: more) : first ≠ [] := by
  obtain ⟨c, rest, rfl⟩ := List.exists_cons_of_ne_nil hne
  have hstep : re_split (c :: rest) = split_from false [c] rest := by
    unfold re_split
    rw [split_from, if_neg (by simp), if_neg (by simp)]
    rfl
  obtain ⟨first', more', hsplit, hrepeat⟩ := split_from_head [c] rest
  rw [← hstep, h, List.cons.injEq] at hsplit
  rw [hsplit.1]
  rintro rfl
  exact List.cons_ne_nil c [] (List.prefix_nil.mp hrepeat)

/-- The chunks of the loop are long and linked as they are to be iff no beginning of sentences is
one character longer than a chunk. -/
theorem loop_linked_iff (htext : text ≠ []) : Linked chunk_size overlap text []
      ((chunk_loop chunk_size overlap [] (re_split text)).filter (!·.isEmpty)) ↔
    ∀ n, 2 ≤ n → n ≤ (re_split text).length →
      ¬Exceeds chunk_size (join ((re_split text).take n)) := by
  obtain ⟨first, more, hsplit⟩ := List.exists_cons_of_ne_nil (split_from_ne_nil false [] text)
  have hsplit : re_split text = first :: more := hsplit
  have hjoin : join [first] = first := separated.joined_singleton ' ' first
  have hfirst : join [first] ≠ [] := hjoin.symm ▸ first_ne_nil htext hsplit
  have hstart : chunk_loop chunk_size overlap [] (re_split text) =
      chunk_loop chunk_size overlap (join [first]) more := by
    rw [hsplit, loop_one, hjoin]
  constructor
  · intro hlinked n hn hle hexceeds
    have hnot := not_sized_of_exceeds hn hle hexceeds
    have htake : (re_split text).take n = [first] ++ more.take (n - 1) := by
      obtain ⟨k, rfl⟩ := Nat.exists_eq_add_of_le hn
      rw [hsplit, Nat.add_comm 2 k]
      rfl
    rw [htake] at hexceeds hnot
    obtain ⟨rest, hrest⟩ := @loop_exceeds chunk_size overlap [first] more (n - 1) hfirst hexceeds
    have hne : join ([first] ++ more.take (n - 1)) ≠ [] := by
      rw [← List.length_pos_iff, hexceeds.1]
      exact Nat.succ_pos _
    rw [hstart, hrest, List.filter_cons_of_pos (by simpa using hne)] at hlinked
    exact hnot hlinked.1.2
  · intro hfits
    have hall : [first] ++ more = re_split text := hsplit.symm
    have hbegins := (begins_of_tail text).1 []
    rw [hstart]
    refine loop_first hall hfirst ?_ hfits fun sentence hsentence => ?_
    · rw [hjoin]
      by_cases hlong : chunk_size < (strip first).length
      · exact .inr ⟨first, hall ▸ List.mem_cons_self, hlong, List.suffix_rfl⟩
      · exact .inl (Nat.le_of_not_lt hlong)
    · refine hbegins sentence ?_
      change sentence ∈ (re_split text).tail
      rw [hsplit]
      exact hsentence

/-! ## The law -/

/-- LAW: the chunks of a text lose no word, are not blank and are as long as
they are to be iff the text is not blank without a long first line, and no
beginning of sentences is one character longer than a chunk. -/
theorem rag_chunks_well_iff_fits (h : overlap < chunk_size) :
    ChunksWell chunk_size overlap text ↔ Fits chunk_size text := by
  by_cases hloop : chunk_loop chunk_size overlap [] (re_split text) = []
  · have hblank := blank_of_loop hloop
    by_cases htext : text = []
    · subst htext
      refine iff_of_true ⟨[], fun turns hturns => ?_, ?_, trivial, rfl⟩ ⟨fun _ => .inl rfl, ?_⟩
      · obtain ⟨turns, rfl⟩ := Nat.exists_eq_add_one.mpr (Nat.zero_lt_of_lt hturns)
        rfl
      · exact fun chunk hchunk => absurd hchunk List.not_mem_nil
      · exact fun n hn hle => absurd (Nat.le_trans hn hle) (by decide)
    · refine iff_of_false (not_chunksWell_of_blank (Nat.zero_lt_of_lt h) htext hblank hloop) ?_
      intro hfits
      rcases hfits.blank hblank with hnil | hline
      · exact htext hnil
      · exact (blank_loop_iff hblank).mpr hline hloop
  · have hchunks := chunk_text_of_loop hloop
    have htext : text ≠ [] := by
      rintro rfl
      exact hloop rfl
    have hkept : new_words overlap [] ((chunk_loop chunk_size overlap [] (re_split text)).filter
        (!·.isEmpty)) = split_words text := by
      rw [loop_kept List.nil_prefix, split_words_re_split]
      rfl
    constructor
    · rintro ⟨chunks, hends, hwell⟩
      have hsame := hends _ (Nat.lt_succ_self _)
      rw [hchunks, Option.some.injEq] at hsame
      exact ⟨fun hblank => .inr ((blank_loop_iff hblank).mp hloop),
        (loop_linked_iff htext).mp (hsame ▸ hwell.linked)⟩
    · intro hfits
      exact ⟨_, fun turns _ => hchunks turns, loop_not_blank,
        (loop_linked_iff htext).mpr hfits.first_chunk, hkept⟩

end

/-- Two sentences in one chunk. -/
theorem two_sentences_are_one_chunk : 4 < 20 ∧
    (ChunksWell 20 4 "Ab c. De.".toList ↔ Fits 20 "Ab c. De.".toList) :=
  ⟨by decide, rag_chunks_well_iff_fits (by decide)⟩

/-- With chunks of 6 characters, seven characters are a chunk. -/
theorem a_blank_is_not_counted : ¬ChunksWell 6 1 "Ab. Cd.".toList := by
  rintro ⟨chunks, hends, hwell⟩
  have hchunks : _chunk_text 6 1 8 "Ab. Cd.".toList = some ["Ab. Cd.".toList] := by decide
  rw [hends 8 (by decide), Option.some.injEq] at hchunks
  subst hchunks
  rcases hwell.linked.1.2 with hshort | ⟨sentence, hsentence, hlong, -⟩
  · revert hshort
    decide
  · have hall : ∀ sentence ∈ re_split "Ab. Cd.".toList, ¬6 < (strip sentence).length := by
      have hsplit : re_split "Ab. Cd.".toList = ["Ab.".toList, "Cd.".toList] := by decide
      rw [hsplit]
      intro sentence hsentence
      rcases List.mem_cons.mp hsentence with rfl | hsentence
      · decide
      · rw [List.mem_singleton.mp hsentence]
        decide
    exact hall sentence hsentence hlong

/-! ## The chunks of the pipeline

It cuts with the sizes that are the defaults. -/

theorem toList_strip (s : String) : (py.strip s).toList = strip s.toList := by
  unfold py.strip
  rw [String.toList_ofList]
  rfl

theorem toList_words (s : String) :
    (rag_pipeline.words s).map String.toList = split_words s.toList := by
  have hinverse : String.toList ∘ String.ofList = id := funext fun _ => String.toList_ofList
  unfold rag_pipeline.words split_words separated.words
  rw [List.map_map, hinverse, List.map_id]
  exact List.filter_congr fun word _ => by cases word <;> rfl

theorem any_ends (sentence : Text) :
    (SENTENCE_ENDS.any fun mark => decide (sentence.getLast? = some mark)) =
      sentence.getLast?.any is_end := by
  cases sentence.getLast? with
  | none => rfl
  | some d =>
    change _ = SENTENCE_ENDS.contains d
    rw [List.contains_eq_any_beq]
    refine congrArg (SENTENCE_ENDS.any ·) (funext fun mark => ?_)
    exact Bool.eq_iff_iff.mpr (by rw [decide_eq_true_iff, Option.some_inj, beq_iff_eq])

/-- The blanks behind a sentence are dropped at once. -/
theorem split_from_dropWhile (rest : Text) :
    split_from true [] rest = split_from false [] (rest.dropWhile isSpace) := by
  induction rest with
  | nil => rfl
  | cons c rest ih =>
    by_cases hc : isSpace c = true
    · rw [split_from, if_pos (by simp [hc]), ih, List.dropWhile_cons_of_pos hc]
    · rw [List.dropWhile_cons_of_neg hc, split_from, if_neg (by simp [hc]), if_neg (by simp [hc]),
        split_from, if_neg (by simp), if_neg (by simp [hc])]

theorem toList_split_sentences (sentence rest : Text) :
    (rag_pipeline.split_sentences sentence rest).map String.toList =
      split_from false sentence rest := by
  induction sentence, rest using rag_pipeline.split_sentences.induct with
  | case1 sentence =>
    unfold rag_pipeline.split_sentences
    rw [List.map_singleton, String.toList_ofList]
    rfl
  | case2 sentence c rest hend ih =>
    rw [rag_pipeline.split_sentences, if_pos hend, List.map_cons, String.toList_ofList, ih,
      ← split_from_dropWhile]
    rw [any_ends] at hend
    rw [split_from, if_neg (by simp), if_pos hend]
  | case3 sentence c rest hend ih =>
    rw [rag_pipeline.split_sentences, if_neg hend, ih]
    rw [any_ends] at hend
    rw [split_from, if_neg (by simp), if_neg hend]

theorem overlap_words_map (words : List String) :
    (if words.length > 200 / 4 then words.drop (words.length - 200 / 4) else []).map String.toList =
      overlap_words 200 (words.map String.toList) := by
  unfold overlap_words
  rw [List.length_map, if_neg (by decide : ¬(200 = 0)), ← List.map_drop]
  split
  · rfl
  · rfl

theorem isEmpty_toList (s : String) : s.toList.isEmpty = decide (s = "") := by
  rw [Bool.eq_iff_iff, List.isEmpty_iff, String.toList_eq_nil_iff, decide_eq_true_iff]

/-- The chunks that are complete stand in front of those of the loop. -/
theorem toList_chunk_loop (sentences chunks : List String) (current_chunk : String) :
    (let state := sentences.foldl rag_pipeline.add_sentence (chunks, current_chunk)
     if py.strip state.2 ≠ "" then state.1 ++ [py.strip state.2] else state.1).map
        String.toList =
      chunks.map String.toList ++
        chunk_loop 800 200 current_chunk.toList (sentences.map String.toList) := by
  induction sentences generalizing chunks current_chunk with
  | nil =>
    change (if py.strip current_chunk ≠ "" then _ else chunks).map String.toList = _ ++
      chunk_loop 800 200 current_chunk.toList []
    rw [chunk_loop, ← toList_strip, isEmpty_toList]
    by_cases hempty : py.strip current_chunk = ""
    · simp [hempty]
    · simp [hempty]
  | cons sentence sentences ih =>
    have hboth : (decide (current_chunk.toList.length + sentence.toList.length > 800) &&
        !current_chunk.toList.isEmpty) = true ↔
          current_chunk.length + sentence.length > 800 ∧ current_chunk ≠ "" := by
      rw [isEmpty_toList, String.length_toList, String.length_toList]
      simp
    rw [List.foldl_cons, List.map_cons, chunk_loop]
    by_cases hlong : current_chunk.length + sentence.length > 800 ∧ current_chunk ≠ ""
    · have hadd : rag_pipeline.add_sentence (chunks, current_chunk) sentence = _ :=
        if_pos hlong
      rw [hadd, ih, if_pos (hboth.mpr hlong), List.map_append, List.append_assoc,
        ← toList_strip, ← toList_words, ← overlap_words_map, String.toList_append,
        String.toList_append, String.toList_intercalate, List.append_assoc]
      rfl
    · have hadd : rag_pipeline.add_sentence (chunks, current_chunk) sentence = _ :=
        if_neg hlong
      rw [hadd, ih, if_neg (mt hboth.mp hlong), isEmpty_toList]
      by_cases hempty : current_chunk = ""
      · simp [hempty]
      · simp [hempty]

theorem toList_windows (text : Text) (turns start : Nat) (h : text.length - start < turns) :
    windows 800 200 text turns start =
      some ((rag_pipeline.windows text start).map String.toList) := by
  induction turns generalizing start with
  | zero => exact absurd h (Nat.not_lt_zero _)
  | succ turns ih =>
    unfold windows rag_pipeline.windows
    split
    · rw [ih _ (by omega), Option.map_some, List.map_cons, String.toList_ofList]
      rfl
    · rfl

theorem filter_empty (chunks : List String) :
    (chunks.map String.toList).filter (!·.isEmpty) =
      (chunks.filter (· ≠ "")).map String.toList := by
  rw [List.filter_map]
  refine congrArg _ (List.filter_congr fun chunk _ => ?_)
  rw [Function.comp_apply, isEmpty_toList, decide_not]

/-- The chunks of both definitions are the same texts. -/
theorem chunk_text_pipeline {turns : Nat} (text : String) (h : text.toList.length < turns) :
    _chunk_text 800 200 turns text.toList =
      some ((rag_pipeline._chunk_text text).map String.toList) := by
  have hloop := toList_chunk_loop (rag_pipeline.split_sentences [] text.toList) [] ""
  rw [toList_split_sentences, List.map_nil, List.nil_append, String.toList_empty] at hloop
  unfold _chunk_text rag_pipeline._chunk_text re_split
  rw [← hloop]
  generalize (rag_pipeline.split_sentences [] text.toList).foldl
    rag_pipeline.add_sentence ([], "") = state
  obtain ⟨chunks, current_chunk⟩ := state
  dsimp only
  generalize (if py.strip current_chunk ≠ "" then chunks ++ [py.strip current_chunk]
    else chunks) = kept
  cases kept with
  | nil =>
    rw [if_pos rfl]
    change (windows 800 200 text.toList turns 0).map _ = _
    rw [toList_windows _ _ _ h, Option.map_some, filter_empty]
  | cons chunk kept =>
    rw [if_neg (List.cons_ne_nil _ _), ← filter_empty]
    rfl

/-- What the function is to do with its defaults, of the chunks that are put on the queue. -/
theorem chunksWell_pipeline (text : String) : ChunksWell 800 200 text.toList ↔
    Chunked 800 200 text.toList ((rag_pipeline._chunk_text text).map String.toList) := by
  constructor
  · rintro ⟨chunks, hends, hchunked⟩
    have hsame := (hends _ (Nat.lt_succ_self _)).symm.trans
      (chunk_text_pipeline text (Nat.lt_succ_self _))
    rwa [Option.some_inj.mp hsame] at hchunked
  · intro hchunked
    exact ⟨_, fun turns h => chunk_text_pipeline text h, hchunked⟩

end dr_boz.rag_chunks
