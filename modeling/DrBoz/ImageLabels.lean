-- Law of the image labels of a Codex prompt: the labels name the files that go
-- with it, one for one and at their places. The labels count the image items of
-- the messages in the prompt, and the files are those that can be saved in any
-- message.
import DrBoz.CodexRuns
import DrBoz.LearningOnboarding
import Mathlib.Data.List.Nodup

open dr_boz.py dr_boz.cli_lines dr_boz.codex_prompts dr_boz.codex_completions dr_boz.codex_runs
open dr_boz.learning_onboarding (not_blank strip_not_blank)

namespace dr_boz.image_labels

/-- The labels for some places, from a number on. -/
def labels_from : (image_index : Nat) → List Place → List (Nat × Place)
  | _, [] => []
  | image_index, place :: places =>
    (image_index + 1, place) :: labels_from (image_index + 1) places

/-- The labels of a run are `[Image 1]`, .., one for each of its files, and each
label stands where the image of its file stood. -/
def Labelled (run : Run) : Prop :=
  run.prompt.labels = labels_from 0 (run.image_files.map ImageFile.place)

/-- An item is saved to a file. -/
def saved (lib : Library) (place : Place) (item : JsonValue) : Bool :=
  match image_of_item lib place item with
  | .ok (some _) => true
  | _ => false

/-- The images in the prompt are those that are saved: no image of a message in it
is skipped, and no other message has one that is saved. -/
def Matching (lib : Library) (s : Server) (messages : List Fields) : Prop :=
  ∀ place item, (place, item) ∈ (placed messages).flatMap items_of →
    (saved lib place item = true ↔ is_image item = true ∧ place.message ∈
      (messages_for_prompt (s.chat.bind Chat.codex_thread_id) (placed messages)).map Prod.fst)

/-! ## Lists with keys -/

section
variable {α β : Type} {key : α → β} {xs ys : List α}

/-- Two filters of a list keep the same keys only if they keep the same elements. -/
theorem filter_keys_eq_iff {p q : α → Bool} (h : (xs.map key).Nodup) :
    (xs.filter p).map key = (xs.filter q).map key ↔ ∀ x ∈ xs, p x = q x := by
  constructor
  · intro hsame x hx
    have hiff : ∀ r r' : α → Bool, (xs.filter r).map key = (xs.filter r').map key →
        r x = true → r' x = true := by
      intro r r' hr hp
      have hmem : key x ∈ (xs.filter r).map key :=
        List.mem_map_of_mem (List.mem_filter.mpr ⟨hx, hp⟩)
      rw [hr] at hmem
      obtain ⟨y, hy, hkey⟩ := List.mem_map.mp hmem
      obtain ⟨hy, hq⟩ := List.mem_filter.mp hy
      exact List.inj_on_of_nodup_map h hy hx hkey ▸ hq
    exact Bool.eq_iff_iff.mpr ⟨hiff p q hsame, hiff q p hsame.symm⟩
  · intro hsame
    rw [List.filter_congr hsame]

/-- A part of a list is the list filtered by the keys of the part. -/
theorem sublist_eq_filter [DecidableEq β] (h : (ys.map key).Nodup) (hsub : xs.Sublist ys) :
    xs = ys.filter fun y => decide (key y ∈ xs.map key) := by
  induction hsub with
  | slnil => rfl
  | @cons xs ys y hsub ih =>
    rw [List.map_cons, List.nodup_cons] at h
    have hnot : key y ∉ xs.map key := fun hmem => h.1 ((hsub.map key).mem hmem)
    rw [List.filter_cons_of_neg (by simpa using hnot)]
    exact ih h.2
  | @cons_cons xs ys y hsub ih =>
    rw [List.map_cons, List.nodup_cons] at h
    rw [List.filter_cons_of_pos (by simp)]
    congr 1
    refine (ih h.2).trans (List.filter_congr ?_)
    intro z hz
    have hne : key z ≠ key y := fun hkey => h.1 (hkey ▸ List.mem_map_of_mem hz)
    simp [hne]

end

/-! ## The labels of a prompt -/

/-- The places of the images among some items. -/
def image_places (items : List (Place × JsonValue)) : List Place :=
  (items.filter fun x => is_image x.2).map Prod.fst

theorem labels_from_append : ∀ (xs ys : List Place) (n : Nat),
    labels_from n (xs ++ ys) = labels_from n xs ++ labels_from (n + xs.length) ys := by
  intro xs ys
  induction xs with
  | nil =>
    intro n
    rfl
  | cons x xs ih =>
    intro n
    rw [List.cons_append, labels_from, labels_from, ih, List.cons_append, List.length_cons,
      Nat.add_right_comm, Nat.add_assoc]

theorem labels_from_injective : ∀ (xs ys : List Place) (n : Nat),
    labels_from n xs = labels_from n ys → xs = ys := by
  intro xs
  induction xs with
  | nil =>
    intro ys n h
    cases ys with
    | nil => rfl
    | cons y ys => cases h
  | cons x xs ih =>
    intro ys n h
    cases ys with
    | nil => cases h
    | cons y ys =>
      rw [labels_from, labels_from, List.cons.injEq, Prod.mk.injEq] at h
      rw [h.1.2, ih ys (n + 1) h.2]

variable {lib : Library}

/-- The labels among some parts. -/
def labels_of (parts : List Part) : List (Nat × Place) := parts.filterMap Part.label?

theorem is_text_unique {v : JsonValue} {a b : String} (ha : v.is_text a = true)
    (hb : v.is_text b = true) : a = b := by
  cases v with
  | str text =>
    rw [JsonValue.is_text, decide_eq_true_eq] at ha hb
    exact ha.symm.trans hb
  | _ => cases ha

theorem text_parts_image (n : Nat) (place : Place) {item : JsonValue} (h : is_image item = true)
    (items : List (Place × JsonValue)) :
    text_parts lib n ((place, item) :: items) =
      (.label (n + 1) place :: (text_parts lib (n + 1) items).1,
        (text_parts lib (n + 1) items).2) := by
  cases item with
  | dict fields =>
    have htext : ¬(Fields.get fields "type" .null).is_text "text" = true := by
      intro htext
      exact absurd (is_text_unique h htext) (by decide)
    rw [text_parts, if_neg htext, if_pos h]
  | _ => cases h

theorem text_parts_other (n : Nat) (place : Place) {item : JsonValue} (h : is_image item ≠ true)
    (items : List (Place × JsonValue)) :
    ∃ said, labels_of said = [] ∧ text_parts lib n ((place, item) :: items) =
      (said ++ (text_parts lib n items).1, (text_parts lib n items).2) := by
  cases item with
  | dict fields =>
    by_cases htext : (Fields.get fields "type" .null).is_text "text" = true
    · refine ⟨[.said (str_of lib ((Fields.get fields "text" .null).or (.str "")))], rfl, ?_⟩
      rw [text_parts, if_pos htext]
      rfl
    · refine ⟨[], rfl, ?_⟩
      rw [text_parts, if_neg htext, if_neg h]
      rfl
  | _ => exact ⟨[], rfl, rfl⟩

/-- Each image gets the next label, and the others none. -/
theorem text_parts_labels : ∀ (items : List (Place × JsonValue)) (n : Nat),
    labels_of (text_parts lib n items).1 = labels_from n (image_places items) ∧
      (text_parts lib n items).2 = n + (image_places items).length := by
  intro items
  induction items with
  | nil =>
    intro n
    exact ⟨rfl, rfl⟩
  | cons x items ih =>
    intro n
    obtain ⟨place, item⟩ := x
    by_cases himage : is_image item = true
    · have hplaces : image_places ((place, item) :: items) = place :: image_places items := by
        unfold image_places
        rw [List.filter_cons, if_pos himage, List.map_cons]
      obtain ⟨hlabels, hlast⟩ := ih (n + 1)
      rw [hplaces, labels_from, List.length_cons, text_parts_image n place himage, ← hlabels, hlast]
      exact ⟨rfl, by omega⟩
    · have hplaces : image_places ((place, item) :: items) = image_places items := by
        unfold image_places
        rw [List.filter_cons, if_neg himage]
      obtain ⟨said, hsaid, hparts⟩ := @text_parts_other lib n place item himage items
      obtain ⟨hlabels, hlast⟩ := ih n
      rw [hplaces, hparts, ← hlabels, ← hlast]
      refine ⟨?_, rfl⟩
      unfold labels_of at hsaid ⊢
      rw [List.filterMap_append, hsaid, List.nil_append]

theorem content_parts_labels (message : Placed) (n : Nat) :
    labels_of (content_parts lib n message).1 = labels_from n (image_places (items_of message)) ∧
      (content_parts lib n message).2 = n + (image_places (items_of message)).length := by
  unfold content_parts
  cases hcontent : message.2.get "content" .null with
  | list items => exact text_parts_labels (items_of message) n
  | _ =>
    have hnone : items_of message = [] := by
      unfold items_of
      rw [hcontent]
    rw [hnone]
    exact ⟨rfl, rfl⟩

theorem intercalate_merge (sep a b : String) (xs : List String) :
    sep.intercalate (a :: b :: xs) = sep.intercalate ((a ++ sep ++ b) :: xs) := rfl

theorem mem_intercalate_head {sep : String} {c : Char} : ∀ (xs : List String) (x : String),
    c ∈ x.toList → c ∈ (sep.intercalate (x :: xs)).toList := by
  intro xs
  induction xs with
  | nil =>
    intro x hc
    exact hc
  | cons y xs ih =>
    intro x hc
    rw [intercalate_merge]
    exact ih _ (by simp [hc])

/-- A character of a text is in what the text is joined into. -/
theorem mem_intercalate {sep : String} {c : Char} {x : String} (hc : c ∈ x.toList) :
    ∀ (xs : List String) (first : String), x ∈ first :: xs →
      c ∈ (sep.intercalate (first :: xs)).toList := by
  intro xs
  induction xs with
  | nil =>
    intro first hx
    rw [List.mem_singleton.mp hx] at hc
    exact hc
  | cons y xs ih =>
    intro first hx
    rw [intercalate_merge]
    rcases List.mem_cons.mp hx with rfl | hx
    · exact mem_intercalate_head xs _ (by simp [hc])
    · rcases List.mem_cons.mp hx with rfl | hx
      · exact mem_intercalate_head xs _ (by simp [hc])
      · exact ih _ (List.mem_cons_of_mem _ hx)

/-- A paragraph with a label is shown. -/
theorem labelled_shown (p : Paragraph) (h : labels_of p.parts ≠ []) : strip p.text ≠ "" := by
  obtain ⟨label, hlabel⟩ := List.exists_mem_of_ne_nil _ h
  obtain ⟨part, hpart, hnumber⟩ := List.mem_filterMap.mp hlabel
  have hmark : '[' ∈ part.text.toList := by
    cases part with
    | said text => cases hnumber
    | label number place =>
      unfold Part.text image_label
      simp
  have htext : part.text ∈ (p.parts.map Part.text).filter (· ≠ "") := by
    refine List.mem_filter.mpr ⟨List.mem_map_of_mem hpart, decide_eq_true ?_⟩
    intro hempty
    rw [hempty] at hmark
    cases hmark
  have hshown : '[' ∈ p.text.toList := by
    unfold Paragraph.text
    cases htexts : (p.parts.map Part.text).filter (· ≠ "") with
    | nil =>
      rw [htexts] at htext
      cases htext
    | cons first texts => exact mem_intercalate hmark texts first (htexts ▸ htext)
  refine strip_not_blank ?_
  unfold not_blank
  exact List.any_eq_true.mpr ⟨'[', hshown, by decide⟩

theorem paragraphs_labels : ∀ (messages : List Placed) (n : Nat),
    (paragraphs lib n messages).flatMap (fun p => labels_of p.parts) =
      labels_from n (image_places (messages.flatMap items_of)) := by
  intro messages
  induction messages with
  | nil =>
    intro n
    rfl
  | cons message messages ih =>
    intro n
    obtain ⟨hlabels, hlast⟩ := @content_parts_labels lib message n
    have hplaces : image_places ((message :: messages).flatMap items_of) =
        image_places (items_of message) ++ image_places (messages.flatMap items_of) := by
      unfold image_places
      rw [List.flatMap_cons, List.filter_append, List.map_append]
    rw [paragraphs, List.flatMap_cons, ih, hlabels, hlast, hplaces, labels_from_append]

/-- The labels of a prompt stand for the images of its messages. -/
theorem prompt_labels (messages : List Placed) :
    (messages_to_codex_prompt lib messages).labels =
      labels_from 0 (image_places (messages.flatMap items_of)) := by
  rw [← paragraphs_labels]
  unfold messages_to_codex_prompt
  simp only
  induction paragraphs lib 0 messages with
  | nil => rfl
  | cons p ps ih =>
    rw [List.filter_cons, List.flatMap_cons, ← ih]
    split
    · rw [List.flatMap_cons]
      rfl
    · rename_i hnot
      have hnone : labels_of p.parts = [] := by
        by_contra hlabel
        exact hnot (decide_eq_true (labelled_shown p hlabel))
      rw [hnone, List.nil_append]

/-! ## The files of a call -/

theorem image_of_url_place {place : Place} {url : String} {file : ImageFile}
    (h : image_of_url lib place url = some file) : file.place = place := by
  unfold image_of_url at h
  split at h
  · simp only at h
    split at h
    · cases h
    · split at h
      · obtain ⟨image_bytes, _, rfl⟩ := Option.map_eq_some_iff.mp h
        rfl
      · cases h
  · cases h

theorem image_of_place {place : Place} {url : JsonValue} {file : ImageFile}
    (h : image_of lib place url = .ok (some file)) : file.place = place := by
  unfold image_of at h
  split at h
  · exact image_of_url_place (Except.ok.inj h)
  · split at h
    · cases h
    · cases h

theorem image_of_item_place {place : Place} {item : JsonValue} {file : ImageFile}
    (h : image_of_item lib place item = .ok (some file)) : file.place = place := by
  unfold image_of_item at h
  split at h
  · split at h
    · split at h
      · exact image_of_place h
      · exact image_of_place h
      · cases h
    · cases h
  · cases h

/-- The places of the items that are saved. -/
def saved_places (lib : Library) (items : List (Place × JsonValue)) : List Place :=
  (items.filter fun x => saved lib x.1 x.2).map Prod.fst

theorem files_places : ∀ (items : List (Place × JsonValue)) (images : List (Option ImageFile)),
    items.mapM (fun x => image_of_item lib x.1 x.2) = .ok images →
      (images.filterMap id).map ImageFile.place = saved_places lib items := by
  intro items
  induction items with
  | nil =>
    intro images h
    cases h
    rfl
  | cons x items ih =>
    intro images h
    rw [List.mapM_cons] at h
    unfold saved_places
    rw [List.filter_cons]
    cases hitem : image_of_item lib x.1 x.2 with
    | error e =>
      rw [hitem] at h
      cases h
    | ok image =>
      cases hitems : items.mapM fun x => image_of_item lib x.1 x.2 with
      | error e =>
        rw [hitem, hitems] at h
        cases h
      | ok rest =>
        rw [hitem, hitems] at h
        cases h
        have hrest := ih rest hitems
        unfold saved_places at hrest
        cases image with
        | none =>
          have hsaved : saved lib x.1 x.2 = false := by
            unfold saved
            rw [hitem]
          rw [hsaved, if_neg Bool.false_ne_true, ← hrest]
          rfl
        | some file =>
          have hsaved : saved lib x.1 x.2 = true := by
            unfold saved
            rw [hitem]
          rw [hsaved, if_pos rfl, List.map_cons, ← hrest, ← image_of_item_place hitem]
          rfl

/-! ## The places of a call -/

theorem placed_numbers (messages : List Fields) : ((placed messages).map Prod.fst).Nodup := by
  have hnumbers : (placed messages).map Prod.fst = List.range messages.length := by
    unfold placed
    rw [List.map_map, List.range_eq_range', ← List.zipIdx_map_snd 0 messages]
    rfl
  rw [hnumbers]
  exact List.nodup_range

theorem items_message {message : Placed} {x : Place × JsonValue} (h : x ∈ items_of message) :
    x.1.message = message.1 := by
  unfold items_of at h
  split at h
  · obtain ⟨_, _, rfl⟩ := List.mem_map.mp h
    rfl
  · cases h

theorem items_nodup (message : Placed) : ((items_of message).map Prod.fst).Nodup := by
  unfold items_of
  split
  · rename_i items _
    have hplaces : items.zipIdx.map (fun found => (⟨message.1, found.2⟩ : Place)) =
        (List.range items.length).map fun i => ⟨message.1, i⟩ := by
      rw [List.range_eq_range', ← List.zipIdx_map_snd 0 items, List.map_map]
      rfl
    have hnodup : (items.zipIdx.map fun found => (⟨message.1, found.2⟩ : Place)).Nodup := by
      rw [hplaces]
      exact List.nodup_range.map fun i j hij => (Place.mk.inj hij).2
    rw [List.map_map]
    exact hnodup
  · exact List.nodup_nil

/-- No two items of a call have the same place. -/
theorem places_nodup : ∀ messages : List Placed, (messages.map Prod.fst).Nodup →
    ((messages.flatMap items_of).map Prod.fst).Nodup := by
  intro messages
  induction messages with
  | nil =>
    intro _
    exact List.nodup_nil
  | cons message messages ih =>
    intro h
    rw [List.map_cons, List.nodup_cons] at h
    rw [List.flatMap_cons, List.map_append]
    refine (items_nodup message).append (ih h.2) ?_
    intro place hfirst hlater
    obtain ⟨x, hx, rfl⟩ := List.mem_map.mp hfirst
    obtain ⟨y, hy, hkey⟩ := List.mem_map.mp hlater
    obtain ⟨other, hother, hy⟩ := List.mem_flatMap.mp hy
    refine h.1 (List.mem_map.mpr ⟨other, hother, ?_⟩)
    rw [← items_message hy, hkey, items_message hx]

theorem sent_sublist (thread_id : Option String) (messages : List Placed) :
    (messages_for_prompt thread_id messages).Sublist messages := by
  unfold messages_for_prompt
  split
  · split
    · rename_i m hm
      exact List.singleton_sublist.mpr (List.mem_of_mem_filter (List.mem_of_getLast? hm))
    · cases hm : messages.getLast? with
      | none => exact List.nil_sublist messages
      | some m => exact List.singleton_sublist.mpr (List.mem_of_getLast? hm)
  · exact List.filter_sublist

/-- The images of some of the messages, among those of all. -/
theorem image_places_filter (keep : Nat → Bool) : ∀ messages : List Placed,
    image_places ((messages.filter fun m => keep m.1).flatMap items_of) =
      ((messages.flatMap items_of).filter fun x => is_image x.2 && keep x.1.message).map
        Prod.fst := by
  intro messages
  induction messages with
  | nil => rfl
  | cons message messages ih =>
    have hfirst : (items_of message).filter (fun x => is_image x.2 && keep x.1.message) =
        if keep message.1 then (items_of message).filter fun x => is_image x.2 else [] := by
      split
      · rename_i hkeep
        refine List.filter_congr ?_
        intro x hx
        rw [items_message hx, hkeep, Bool.and_true]
      · rename_i hkeep
        refine List.filter_eq_nil_iff.mpr ?_
        intro x hx
        rw [items_message hx, Bool.eq_false_iff.mpr hkeep, Bool.and_false]
        exact Bool.false_ne_true
    rw [List.flatMap_cons, List.filter_append, List.map_append, ← ih, hfirst, List.filter_cons]
    split
    · unfold image_places
      rw [List.flatMap_cons, List.filter_append, List.map_append]
    · rfl

theorem extracted_places {messages : List Placed} {files : List ImageFile}
    (h : extract_images_from_messages lib messages = .ok files) :
    files.map ImageFile.place = saved_places lib (messages.flatMap items_of) := by
  unfold extract_images_from_messages at h
  cases hitems : (messages.flatMap items_of).mapM fun x => image_of_item lib x.1 x.2 with
  | error e =>
    rw [hitems] at h
    cases h
  | ok images =>
    rw [hitems] at h
    cases h
    exact files_places _ _ hitems

/-- The first run is labelled exactly when the images match. -/
theorem first_run_labelled {s : Server} {messages : List Fields} {p : Prepared} (run : Run)
    (h : prepare lib s messages = .ok p) (hprompt : run.prompt = p.prompt)
    (hfiles : run.image_files = p.image_files) :
    Labelled run ↔ Matching lib s messages := by
  obtain ⟨hlabels, hextract⟩ := prepare_parts h
  unfold Labelled Matching
  rw [hprompt, hfiles, hlabels, prompt_labels, extracted_places hextract]
  generalize hsent : messages_for_prompt (s.chat.bind Chat.codex_thread_id) (placed messages) = sent
  have hnumbers := placed_numbers messages
  have hsub : sent.Sublist (placed messages) := hsent ▸ sent_sublist _ _
  have hplaces : image_places (sent.flatMap items_of) =
      (((placed messages).flatMap items_of).filter fun x =>
        is_image x.2 && decide (x.1.message ∈ sent.map Prod.fst)).map Prod.fst := by
    conv_lhs => rw [sublist_eq_filter hnumbers hsub]
    exact image_places_filter (fun n => decide (n ∈ sent.map Prod.fst)) (placed messages)
  have hiff : ∀ xs ys : List Place, labels_from 0 xs = labels_from 0 ys ↔ xs = ys :=
    fun xs ys => ⟨labels_from_injective xs ys 0, congrArg _⟩
  rw [hiff, hplaces, saved_places, filter_keys_eq_iff (places_nodup _ hnumbers)]
  constructor
  · intro hsame place item hitem
    rw [← hsame (place, item) hitem, Bool.and_eq_true, decide_eq_true_eq]
  · intro hmatching x hx
    rw [Bool.eq_iff_iff, Bool.and_eq_true, decide_eq_true_eq]
    exact (hmatching x.1 x.2 hx).symm

/-! ## The law -/

/-- LAW: in each run of a call the labels of the prompt name the files, one for one
and at their places, exactly when the images in the prompt are those that are saved. -/
theorem labels_name_the_files_iff (lib : Library) (s : Server) (heap : Heap)
    (messages : List Nat) :
    (∀ run ∈ (request_codex_completion lib s heap messages).runs, Labelled run) ↔
      ∀ account p after sent, Opened lib s heap messages account p →
        llm_messages lib s heap messages = .ok (after, sent) → Matching lib s sent := by
  constructor
  · intro hlabelled account p after sent hopened hmessages
    obtain ⟨later, hruns, _⟩ := opened_runs hopened
    obtain ⟨after', sent', hmessages', hprepare, _⟩ := opened_request hopened
    rw [hmessages] at hmessages'
    cases hmessages'
    rw [hruns] at hlabelled
    exact (first_run_labelled _ hprepare rfl rfl).mp (hlabelled _ List.mem_cons_self)
  · intro hmatching run hrun
    by_cases hopens : ∃ account p, Opened lib s heap messages account p
    · obtain ⟨account, p, hopened⟩ := hopens
      obtain ⟨later, hruns, hlater⟩ := opened_runs hopened
      obtain ⟨after, sent, hmessages, hprepare, _⟩ := opened_request hopened
      rw [hruns] at hrun
      rcases List.mem_cons.mp hrun with rfl | hrun
      · exact (first_run_labelled _ hprepare rfl rfl).mpr
          (hmatching account p after sent hopened hmessages)
      · unfold Labelled
        rw [(hlater run hrun).labels, (hlater run hrun).image_files]
        rfl
    · have hidle := closed_idle fun account p hopened => hopens ⟨account, p, hopened⟩
      rw [hidle.runs] at hrun
      cases hrun

/-- A URL of the web and an image in the message: two labels, and one file. -/
def two_images : Fields :=
  message_of "user" (.list [
    .dict [("type", .str "image_url"),
      ("image_url", .dict [("url", .str "https://example.com/a.png")])],
    .dict [("type", .str "image_url"),
      ("image_url", .dict [("url", .str "data:image/png;base64,TWFu")])]])

theorem a_web_image_has_no_file :
    ∃ run ∈ (request_codex_completion answering_library answering_server [two_images] [0]).runs,
      run.prompt.labels = [(1, ⟨1, 0⟩), (2, ⟨1, 1⟩)] ∧
      run.image_files = [⟨".png", [77, 97, 110], ⟨1, 1⟩⟩] ∧ ¬Labelled run := by
  refine ⟨_, List.mem_cons_self, rfl, rfl, ?_⟩
  unfold Labelled
  decide

end dr_boz.image_labels
