-- Law of the placeholders in a prompt (prompt_service.py): when each of them is
-- replaced by its own value, and which files are opened for that.
import DrBoz.Lib.TextSplits
import DrBoz.Lib.PosixPaths
import Mathlib.Data.List.Infix

open text_scan posix_paths

namespace dr_boz.prompt_placeholders

/-! ## What the service reads -/

/-- What is around one call: the date of today, the texts of the skills and tools that are
allowed, the working directory, and what is at a path from there (a file with its text, or with
the error on reading it). -/
structure World where
  today : List Char
  skills_text : List Char
  tools_text : List Char
  cwd : List Name
  files : Path → Option (Except (List Char) (List Char))

section
variable (world : World)

/-- `os.path.basename(os.getcwd()) == "backend"` -/
def in_backend : Bool := world.cwd.getLast? = some "backend".toList

def paths_to_try (path : Path) : List Path :=
  path :: if in_backend world then [join "..".toList path] else []

/-- The file that is opened for a path. -/
def opened (path : Path) : Option Path :=
  (paths_to_try world path).find? fun p => (world.files p).isSome

def read_file_safe (path : Path) : Option (List Char) :=
  match opened world path with
  | none => none
  | some p =>
    match world.files p with
    | none => none
    | some (.ok text) => some text
    | some (.error e) =>
      some ("[Error reading file ".toList ++ p ++ ": ".toList ++ e ++ "]".toList)

/-! ## The placeholders -/

/-- `[a-zA-Z0-9_\-\.\/]` -/
def is_name (c : Char) : Bool := c.isAlphanum || ['_', '-', '.', '/'].contains c

/-- `@([a-zA-Z0-9_\-\.\/]+)` -/
def MENTION : Pattern (List Char) := after_literal ['@'] (run_of is_name)

def KEYWORDS : List (List Char) := ["skills".toList, "today".toList, "tools".toList]

/-- The placeholder of a match: a keyword loses the mark that ends its sentence. -/
def placeholder_of (name : List Char) : List Char :=
  if (['.', ',', '?'].map some).contains name.getLast? && KEYWORDS.contains name.dropLast then
    name.dropLast
  else name

/-- What a placeholder stands for, if it does. -/
def value (placeholder : List Char) : Option (List Char) :=
  if placeholder = "today".toList then some world.today
  else if placeholder = "skills".toList then some world.skills_text
  else if placeholder = "tools".toList then some world.tools_text
  else read_file_safe world placeholder

/-! ## The function -/

/-- The dict of the values in order of insertion, and the files that were opened for it. -/
structure Resolved where
  resolved_map : List (List Char × List Char)
  opened_files : List Path

/-- One turn of the loop over the matches. -/
def resolve_step (state : Resolved) (m : Match (List Char × List Char)) : Resolved :=
  let placeholder := placeholder_of m.captured.2
  let full_placeholder := '@' :: placeholder
  if (state.resolved_map.map Prod.fst).contains full_placeholder then state
  else
    let files :=
      if KEYWORDS.contains placeholder then [] else (opened world placeholder).toList
    let entries := (value world placeholder).toList.map fun val => (full_placeholder, val)
    ⟨state.resolved_map ++ entries, state.opened_files ++ files⟩

def resolved (content : List Char) : Resolved :=
  (finditer (with_text MENTION) content).foldl (resolve_step world) ⟨[], []⟩

def resolve_prompt (content : List Char) : List Char :=
  if content = [] then []
  else (resolved world content).resolved_map.foldl (fun text entry =>
    replace entry.1 entry.2 text) content

/-! ## What it is to do -/

/-- A content is made of text and of slots for placeholders. -/
inductive Chunk where
  | text (chars : List Char)
  | slot (placeholder : List Char)

/-- A match is a slot, and the mark behind a keyword is text. -/
def chunks_of : Piece (List Char) → List Chunk
  | .between chars => [.text chars]
  | .matched _ name => [.slot (placeholder_of name), .text (name.drop (placeholder_of name).length)]

def chunks (content : List Char) : List Chunk := (split MENTION content).flatMap chunks_of

/-- The slot with its own value, or as it stands if it has none. -/
def filled : Chunk → List Char
  | .text chars => chars
  | .slot placeholder => (value world placeholder).getD ('@' :: placeholder)

/-- Every slot of the content is replaced by its own value, all at once. -/
def simultaneous (content : List Char) : List Char := (chunks content).flatMap (filled world)

/-- The directories of the prompts: the working directory, and one level up in `backend/`. -/
def prompt_directories : List (List Name) :=
  world.cwd :: if in_backend world then [world.cwd.dropLast] else []

def InPromptDirectory (path : Path) : Prop :=
  ∃ dir ∈ prompt_directories world, Inside dir (location world.cwd path)

/-- The prompt is what it is to be, and no other files were opened for it. -/
structure Resolves (content : List Char) : Prop where
  text : resolve_prompt world content = simultaneous world content
  files : ∀ path ∈ (resolved world content).opened_files, InPromptDirectory world path

/-! ## When nothing gets in the way -/

/-- What stands for a chunk when the entries so far are replaced. -/
def written (entries : List (List Char × List Char)) : Chunk → List Char
  | .text chars => chars
  | .slot placeholder => (entries.lookup ('@' :: placeholder)).getD ('@' :: placeholder)

/-- The full placeholder of a slot. -/
def Chunk.key : Chunk → Option (List Char)
  | .text _ => none
  | .slot placeholder => some ('@' :: placeholder)

/-- The placeholder `p` begins nowhere in `part`, with `rest` behind it. -/
def apart (p part rest : List Char) : Bool :=
  part.tails.all fun tail => tail.isEmpty || !p.isPrefixOf (tail ++ rest)

/-- When the entries so far are replaced, `p` begins at its own slots only. -/
def only_at_slots (entries : List (List Char × List Char)) (p : List Char) : List Chunk → Bool
  | [] => true
  | chunk :: rest =>
    (chunk.key == some p || apart p (written entries chunk) (rest.flatMap (written entries))) &&
      only_at_slots entries p rest

/-- Each entry finds its own slots only when its turn comes. -/
def in_turn (chunks : List Chunk) :
    List (List Char × List Char) → List (List Char × List Char) → Bool
  | _, [] => true
  | entries, entry :: later =>
    only_at_slots entries entry.1 chunks && in_turn chunks (entries ++ [entry]) later

/-- No placeholder is the beginning of a longer word of the prompt, and none is in a text that was
put in before its turn, alone or with what is beside it. -/
def Undisturbed (content : List Char) : Prop :=
  in_turn (chunks content) [] (resolved world content).resolved_map = true

/-- The files that the content names are in the directories of the prompts. -/
def NamesPrompts (content : List Char) : Prop :=
  ∀ m ∈ finditer (with_text MENTION) content, ∀ path,
    KEYWORDS.contains (placeholder_of m.captured.2) = false →
      opened world (placeholder_of m.captured.2) = some path → InPromptDirectory world path

end

/-! ## Replacing in turn -/

theorem passes_of_apart {p part rest : List Char} (h : apart p part rest = true) :
    Passes (ends p) part rest := by
  intro before after hsplit hne a n hfound
  have htail : after ∈ part.tails := (List.mem_tails _ _).mpr ⟨before, hsplit.symm⟩
  have hno := List.all_eq_true.mp h after htail
  rw [Bool.or_eq_true, List.isEmpty_iff, Bool.not_eq_true'] at hno
  rcases hno with hno | hno
  · exact hne hno
  · have hprefix := List.isPrefixOf_iff_prefix.mpr (ends_iff.mp hfound).1
    rw [hno] at hprefix
    cases hprefix

theorem lookup_of_not_mem {entries : List (List Char × List Char)} {p : List Char}
    (h : p ∉ entries.map Prod.fst) : entries.lookup p = none := by
  rw [List.lookup_eq_none_iff]
  intro entry hentry
  rw [bne_iff_ne]
  rintro rfl
  exact h (List.mem_map_of_mem hentry)

/-- One replacement fills the slots of its placeholder, if nothing else has it. -/
theorem replace_slots {entries : List (List Char × List Char)} {p v : List Char}
    (hnew : p ∉ entries.map Prod.fst) {chunks : List Chunk}
    (h : only_at_slots entries p chunks = true) :
    replace p v (chunks.flatMap (written entries)) =
      chunks.flatMap (written (entries ++ [(p, v)])) := by
  induction chunks with
  | nil => exact replace_nil p v
  | cons chunk rest ih =>
    rw [only_at_slots, Bool.and_eq_true, Bool.or_eq_true, beq_iff_eq] at h
    obtain ⟨hhead, hrest⟩ := h
    rw [List.flatMap_cons, List.flatMap_cons, ← ih hrest]
    by_cases hkey : chunk.key = some p
    · cases chunk with
      | text chars => cases hkey
      | slot placeholder =>
        cases hkey
        have hnone := lookup_of_not_mem hnew
        have hbefore : written entries (.slot placeholder) = '@' :: placeholder := by
          rw [written, hnone]
          rfl
        have hafter : written (entries ++ [('@' :: placeholder, v)]) (.slot placeholder) = v := by
          rw [written, List.lookup_append, hnone, List.lookup_cons, beq_self_eq_true]
          rfl
        rw [hbefore, hafter, replace_match v _ (List.cons_ne_nil _ _)]
    · have hpasses := passes_of_apart (hhead.resolve_left hkey)
      rw [replace_passes hpasses]
      congr 1
      cases chunk with
      | text chars => rfl
      | slot placeholder =>
        have hother : (('@' :: placeholder) == p) = false := by
          rw [beq_eq_false_iff_ne]
          rintro rfl
          exact hkey rfl
        rw [written, written, List.lookup_append, List.lookup_cons, hother]
        exact congrArg (Option.getD · _) (Option.or_none).symm

/-- All replacements, one after the other. -/
theorem replace_in_turn {chunks : List Chunk} (later entries : List (List Char × List Char))
    (hnodup : ((entries ++ later).map Prod.fst).Nodup)
    (h : in_turn chunks entries later = true) :
    later.foldl (fun text entry => replace entry.1 entry.2 text)
      (chunks.flatMap (written entries)) = chunks.flatMap (written (entries ++ later)) := by
  induction later generalizing entries with
  | nil => rw [List.append_nil, List.foldl_nil]
  | cons entry later ih =>
    rw [in_turn, Bool.and_eq_true] at h
    obtain ⟨hslots, hlater⟩ := h
    have hnew : entry.1 ∉ entries.map Prod.fst := by
      rw [List.map_append, List.map_cons] at hnodup
      intro hmem
      exact (List.nodup_append.mp hnodup).2.2 _ hmem _ List.mem_cons_self rfl
    rw [List.foldl_cons, replace_slots hnew hslots]
    have hnext := ih (entries ++ [entry]) (by rwa [List.append_assoc]) hlater
    rwa [List.append_assoc] at hnext

/-! ## The loop over the matches -/

section
variable {world : World}

/-- What the loop has after the placeholders in `seen`. -/
structure Collected (world : World) (seen : List (List Char)) (state : Resolved) : Prop where
  nodup : (state.resolved_map.map Prod.fst).Nodup
  values : ∀ placeholder, state.resolved_map.lookup ('@' :: placeholder) =
    if placeholder ∈ seen then value world placeholder else none
  files : ∀ path, path ∈ state.opened_files ↔ ∃ placeholder ∈ seen,
    KEYWORDS.contains placeholder = false ∧ opened world placeholder = some path

theorem mem_keys {entries : List (List Char × List Char)} {p : List Char}
    (h : p ∈ entries.map Prod.fst) : (entries.lookup p).isSome = true := by
  rw [← Option.ne_none_iff_isSome]
  intro hnone
  obtain ⟨entry, hentry, rfl⟩ := List.mem_map.mp h
  have hne := List.lookup_eq_none_iff.mp hnone entry hentry
  rw [bne_self_eq_false] at hne
  cases hne

theorem resolve_step_collects {seen : List (List Char)} {state : Resolved}
    (h : Collected world seen state) (m : Match (List Char × List Char)) :
    Collected world (seen ++ [placeholder_of m.captured.2]) (resolve_step world state m) := by
  unfold resolve_step
  generalize placeholder_of m.captured.2 = placeholder
  dsimp only
  split
  · rename_i hkey
    have hseen : placeholder ∈ seen := by
      have hsome := mem_keys (List.contains_iff_mem.mp hkey)
      rw [h.values] at hsome
      by_contra hno
      rw [if_neg hno] at hsome
      cases hsome
    have hsame : ∀ q, q ∈ seen ++ [placeholder] ↔ q ∈ seen := by
      intro q
      rw [List.mem_append, List.mem_singleton]
      exact ⟨fun hq => hq.elim id fun heq => heq ▸ hseen, .inl⟩
    exact ⟨h.nodup, fun q => by simp only [hsame, h.values q],
      fun path => by simp only [hsame, h.files path]⟩
  · rename_i hcontains
    have hkey := mt List.contains_iff_mem.mpr hcontains
    refine ⟨?_, fun q => ?_, fun path => ?_⟩
    · cases hvalue : value world placeholder with
      | none => simpa [hvalue] using h.nodup
      | some val =>
        rw [Option.toList_some, List.map_cons, List.map_nil, List.map_append, List.nodup_append]
        refine ⟨h.nodup, by simp, ?_⟩
        rintro key hmem _ hlast rfl
        rw [List.map_cons, List.map_nil, List.mem_singleton] at hlast
        rw [hlast] at hmem
        exact hkey hmem
    · rw [List.lookup_append, h.values q]
      by_cases hq : q = placeholder
      · subst hq
        have hnone := h.values q
        rw [lookup_of_not_mem hkey] at hnone
        rw [← hnone, Option.none_or, if_pos (List.mem_append_right _ List.mem_cons_self)]
        cases value world q with
        | none => rfl
        | some val =>
          rw [Option.toList_some, List.map_cons, List.lookup_cons, beq_self_eq_true]
      · have hother : (('@' :: q) == ('@' :: placeholder)) = false := by
          rw [beq_eq_false_iff_ne, ne_eq, List.cons.injEq]
          exact fun heq => hq heq.2
        have hentries : ((value world placeholder).toList.map fun val =>
            ('@' :: placeholder, val)).lookup ('@' :: q) = none := by
          cases value world placeholder with
          | none => rfl
          | some val =>
            rw [Option.toList_some, List.map_cons, List.lookup_cons, hother]
            rfl
        rw [hentries, Option.or_none]
        simp only [List.mem_append, List.mem_singleton, hq, or_false]
    · rw [List.mem_append, h.files path]
      constructor
      · rintro (⟨q, hq, hopened⟩ | hpath)
        · exact ⟨q, List.mem_append_left _ hq, hopened⟩
        · split at hpath
          · cases hpath
          · rename_i hkeyword
            exact ⟨placeholder, List.mem_append_right _ List.mem_cons_self,
              Bool.eq_false_iff.mpr hkeyword, Option.mem_toList.mp hpath⟩
      · rintro ⟨q, hq, hkeyword, hopened⟩
        rcases List.mem_append.mp hq with hq | hq
        · exact .inl ⟨q, hq, hkeyword, hopened⟩
        · rw [List.mem_singleton] at hq
          subst hq
          rw [hkeyword, if_neg Bool.false_ne_true]
          exact .inr (Option.mem_toList.mpr hopened)

theorem resolve_loop_collects (found : List (Match (List Char × List Char)))
    {seen : List (List Char)} {state : Resolved} (h : Collected world seen state) :
    Collected world (seen ++ found.map fun m => placeholder_of m.captured.2)
      (found.foldl (resolve_step world) state) := by
  induction found generalizing seen state with
  | nil => rwa [List.map_nil, List.append_nil]
  | cons m found ih =>
    have hnext := ih (resolve_step_collects h m)
    rwa [List.append_assoc] at hnext

theorem resolved_collects (content : List Char) :
    Collected world ((finditer (with_text MENTION) content).map fun m =>
      placeholder_of m.captured.2) (resolved world content) := by
  have hnone : Collected world [] ⟨[], []⟩ := ⟨List.nodup_nil, fun _ => rfl, fun path => by simp⟩
  exact resolve_loop_collects _ hnone

end

/-! ## The slots of a content -/

theorem fits_MENTION : Fits MENTION := fits_after_literal _ (fits_run_of _)

theorem placeholder_prefix (name : List Char) :
    placeholder_of name ++ name.drop (placeholder_of name).length = name := by
  have hprefix : placeholder_of name <+: name := by
    unfold placeholder_of
    split
    · exact List.dropLast_prefix name
    · exact List.prefix_refl name
  exact (List.prefix_append_drop hprefix).symm

/-- The whole match is the mark and its name. -/
theorem mention_taken {taken rest name : List Char}
    (h : MENTION (taken ++ rest) = some (name, taken.length)) : taken = '@' :: name := by
  obtain ⟨more, rfl, hmore⟩ := after_literal_taken h
  obtain ⟨hname, -, hlength⟩ := run_of_iff.mp hmore
  have hprefix : name <+: more ++ rest := hname ▸ List.takeWhile_prefix is_name
  have hmore : name <+: more :=
    List.prefix_of_prefix_length_le hprefix (List.prefix_append more rest) hlength.ge
  rw [hmore.eq_of_length hlength.symm]
  rfl

/-- Before anything is replaced, the chunks are the content. -/
theorem chunks_written (content : List Char) : (chunks content).flatMap (written []) = content := by
  have hsplit := split_pieces fits_MENTION content
  unfold chunks
  generalize split MENTION content = pieces at hsplit
  induction hsplit with
  | last hfree =>
    rw [List.flatMap_cons, List.flatMap_nil, List.append_nil]
    exact List.append_nil _
  | @more before taken rest name pieces hbefore hne hmatch hrest ih =>
    have htaken : (chunks_of (.matched taken name)).flatMap (written []) = taken := by
      rw [mention_taken hmatch]
      have hname := placeholder_prefix name
      simp only [chunks_of, List.flatMap_cons, List.flatMap_nil, List.append_nil, written]
      exact congrArg ('@' :: ·) hname
    rw [List.flatMap_cons, List.flatMap_cons, List.flatMap_append, List.flatMap_append, ih, htaken]
    congr 1
    exact List.append_nil _

theorem slot_is_mentioned {content placeholder : List Char}
    (h : Chunk.slot placeholder ∈ chunks content) :
    placeholder ∈ (finditer (with_text MENTION) content).map fun m =>
      placeholder_of m.captured.2 := by
  obtain ⟨piece, hpiece, hchunk⟩ := List.mem_flatMap.mp h
  cases piece with
  | between chars =>
    cases List.mem_singleton.mp hchunk
  | matched taken name =>
    rcases List.mem_cons.mp hchunk with heq | hchunk
    · cases heq
      have hname : name ∈ (split MENTION content).filterMap Piece.captured :=
        List.mem_filterMap.mpr ⟨_, hpiece, rfl⟩
      rw [split, cut_at_captured] at hname
      obtain ⟨m, hm, rfl⟩ := List.mem_map.mp hname
      exact List.mem_map.mpr ⟨m, hm, rfl⟩
    · cases List.mem_singleton.mp hchunk

/-! ## The law -/

section
variable (world : World)

theorem opened_is_file {world : World} {path p : Path} (h : opened world path = some p) :
    (world.files p).isSome = true := by
  have hfound := List.find?_some h
  exact hfound

/-- When all are replaced, every slot has its own value. -/
theorem written_resolved (content : List Char) :
    (chunks content).flatMap (written (resolved world content).resolved_map) =
      simultaneous world content := by
  unfold simultaneous
  refine List.flatMap_congr fun chunk hchunk => ?_
  cases chunk with
  | text chars => rfl
  | slot placeholder =>
    rw [written, filled, (resolved_collects content).values, if_pos (slot_is_mentioned hchunk)]

theorem resolve_prompt_eq (content : List Char) :
    resolve_prompt world content = (resolved world content).resolved_map.foldl
      (fun text entry => replace entry.1 entry.2 text) ((chunks content).flatMap (written [])) := by
  rw [chunks_written, resolve_prompt]
  split
  · rename_i hempty
    rw [hempty]
    rfl
  · rfl

theorem opened_files_iff (content : List Char) :
    (∀ path ∈ (resolved world content).opened_files, InPromptDirectory world path) ↔
      NamesPrompts world content := by
  have hcollected := @resolved_collects world content
  constructor
  · intro h m hm path hkeyword hopened
    exact h path ((hcollected.files path).mpr
      ⟨_, List.mem_map.mpr ⟨m, hm, rfl⟩, hkeyword, hopened⟩)
  · intro h path hpath
    obtain ⟨placeholder, hseen, hkeyword, hopened⟩ := (hcollected.files path).mp hpath
    obtain ⟨m, hm, rfl⟩ := List.mem_map.mp hseen
    exact h m hm path hkeyword hopened

theorem text_is_simultaneous {content : List Char} (h : Undisturbed world content) :
    resolve_prompt world content = simultaneous world content := by
  rw [resolve_prompt_eq]
  have hturn := replace_in_turn (resolved world content).resolved_map []
    (resolved_collects content).nodup h
  rw [hturn]
  exact written_resolved world content

/-- LAW: every placeholder is replaced by its own value, and only files of the prompts are opened,
when no placeholder gets in the way of another or of a text that was put in and the content names
no other files. Where it names others, they are opened. -/
theorem placeholders_are_replaced (content : List Char) :
    (Undisturbed world content ∧ NamesPrompts world content → Resolves world content) ∧
      (Resolves world content → NamesPrompts world content) :=
  ⟨fun h => ⟨text_is_simultaneous world h.1, (opened_files_iff world content).mpr h.2⟩,
    fun h => (opened_files_iff world content).mp h.files⟩

end

/-- A world with one file, on one day. -/
def ONE_FILE : World where
  today := "2026-11-19".toList
  skills_text := "No active skills available.".toList
  tools_text := "No active tools available.".toList
  cwd := ["srv".toList, "backend".toList]
  files := fun path => if path = "rules.md".toList then some (.ok "Be short.".toList) else none

/-- The one file is in a directory of the prompts. -/
theorem one_file_names_prompts (content : List Char) : NamesPrompts ONE_FILE content := by
  intro m _ path _ hopened
  have hfile := opened_is_file hopened
  by_cases hpath : path = "rules.md".toList
  · rw [hpath]
    exact ⟨ONE_FILE.cwd, List.mem_cons_self, by decide, by decide⟩
  · have hnone : ONE_FILE.files path = none := if_neg hpath
    rw [hnone] at hfile
    cases hfile

/-- Two keywords, a file, and a name that stands for nothing. -/
theorem a_prompt_is_resolved :
    Resolves ONE_FILE "It is @today. @rules.md for @you: @tools".toList := by
  have hturn : Undisturbed ONE_FILE "It is @today. @rules.md for @you: @tools".toList := by
    unfold Undisturbed
    decide
  exact (placeholders_are_replaced ONE_FILE _).1 ⟨hturn, one_file_names_prompts _⟩

/-- A word that begins with a placeholder is changed. -/
theorem a_longer_word_is_changed :
    ¬Resolves ONE_FILE "It is @today, ask @todays".toList := by
  intro h
  exact absurd h.text (by decide)

end dr_boz.prompt_placeholders
