-- Law of the skills in the directories of the Codex accounts
-- (`admin_skills_routes.py`, `codex_skill_sync.py`): whatever names the uploads
-- bring and whatever happened to the directories, an admin's action leaves in
-- each account the skills that are active, as they were uploaded, and no others.
import DrBoz.Py
import DrBoz.Lib.Runs
import DrBoz.Lib.Words
import DrBoz.FileTags

open runs dr_boz.py dr_boz.file_tags

namespace dr_boz.account_skills

abbrev Name := List Char

/-! ## Directories of skills -/

/-- A letter that `SKILL_DIR_SAFE_RE` leaves alone. -/
def is_safe (c : Char) : Bool := c.isAlphanum || ['.', '_', '-'].contains c

/-- `SKILL_DIR_SAFE_RE.sub("_", name)`. `inside` says that the letter before was replaced. -/
def sub_safe_re : Bool → Name → Name
  | _, [] => []
  | inside, c :: name =>
    if is_safe c then c :: sub_safe_re false name
    else if inside then sub_safe_re true name
    else '_' :: sub_safe_re true name

def is_edge (c : Char) : Bool := ['.', '_', '-'].contains c

def _safe_skill_dir_name (name : Name) : Name :=
  let safe_name := separated.trim is_edge (sub_safe_re false (separated.trim isSpace name))
  if safe_name.isEmpty then ['s', 'k', 'i', 'l', 'l'] else safe_name

/-- `folder_name`, then `f"{folder_name}_{counter}"` -/
def numbered (folder_name : Name) (counter : Nat) : Name :=
  if counter = 0 then folder_name else folder_name ++ '_' :: Nat.toDigits 10 counter

/-- The first name that is free among the entries of the upload directory. As many
turns as there are entries, and one more, are enough. -/
def _unique_skill_dir (entries : List Name) (folder_name : Name) : Name :=
  (((List.range (entries.length + 1)).map (numbered folder_name)).find?
    (!entries.contains ·)).getD folder_name

/-! ## Tables and accounts -/

structure Skill where
  id : Nat
  name : Name
  /-- The name of the directory in `UPLOAD_DIR`. -/
  file_path : Option Name
  is_active : Bool

variable {γ : Type}

/-- An entry of a directory: a directory with what it holds, or a file. -/
inductive Entry (γ : Type) where
  | dir (content : γ)
  | file

abbrev Directory (γ : Type) := Name → Option (Entry γ)

structure Account (γ : Type) where
  /-- `codex_home` is set. -/
  has_home : Bool
  skills : Directory γ

structure State (γ : Type) where
  skills : List Skill
  uploads : List (Name × γ)
  accounts : List (Account γ)

def is_hidden (name : Name) : Bool := name.head? = some '.'

def is_dir : Option (Entry γ) → Bool
  | some (.dir _) => true
  | _ => false

/-- The upload of a skill, if its directory is there. -/
def upload_of (uploads : List (Name × γ)) (skill : Skill) : Option (Name × γ) :=
  skill.file_path.bind fun name => uploads.find? fun upload => upload.1 = name

/-- One turn of the loop over the active skills. A file of that name is not
replaced: `rmtree` raises, and the error is printed. -/
def sync_one (uploads : List (Name × γ)) (skills_dir : Directory γ) (skill : Skill) :
    Directory γ :=
  match upload_of uploads skill with
  | none => skills_dir
  | some (name, content) =>
    match skills_dir name with
    | some .file => skills_dir
    | _ => fun n => if n = name then some (.dir content) else skills_dir n

/-- `active_skill_dirs` -/
def active_skill_dirs (uploads : List (Name × γ)) (active_skills : List Skill) : List Name :=
  active_skills.filterMap fun skill => (upload_of uploads skill).map Prod.fst

def sync_codex_account_skills (uploads : List (Name × γ)) (active_skills : List Skill)
    (skills_dir : Directory γ) : Directory γ :=
  let synced := active_skills.foldl (sync_one uploads) skills_dir
  fun name =>
    if is_dir (skills_dir name) && !is_hidden name &&
        !(active_skill_dirs uploads active_skills).contains name then none
    else synced name

def sync_account (uploads : List (Name × γ)) (active_skills : List Skill) (account : Account γ) :
    Account γ :=
  if account.has_home then
    { account with skills := sync_codex_account_skills uploads active_skills account.skills }
  else account

def active_skills (s : State γ) : List Skill := s.skills.filter (·.is_active)

def sync_all_codex_accounts (s : State γ) : State γ :=
  { s with accounts := s.accounts.map (sync_account s.uploads (active_skills s)) }

/-! ## The actions of the admin -/

def remove_dir (uploads : List (Name × γ)) (file_path : Option Name) : List (Name × γ) :=
  uploads.filter fun upload => some upload.1 ≠ file_path

def next_id (skills : List Skill) : Nat := (skills.map (·.id)).foldr max 0 + 1

/-- What happens. `busy` are the other entries of the upload directory at that time. -/
inductive Event (γ : Type) where
  | upload_skill (name : Name) (content : γ) (busy : List Name)
  | update_skill (id : Nat) (name : Option Name) (is_active : Option Bool)
  | delete_skill (id : Nat)
  | meanwhile (accounts : List (Account γ))

/-- `upload_skill` of an archive that can be read, up to the sync. -/
def upload_skill (s : State γ) (name : Name) (content : γ) (busy : List Name) : State γ :=
  let skill_dir := _unique_skill_dir (busy ++ s.uploads.map Prod.fst) (_safe_skill_dir_name name)
  let uploads := s.uploads ++ [(skill_dir, content)]
  match s.skills.find? fun skill => skill.name = name with
  | some existing_skill =>
    { s with
      uploads := remove_dir uploads existing_skill.file_path
      skills := s.skills.map fun skill =>
        if skill.id = existing_skill.id then { skill with file_path := some skill_dir } else skill }
  | none =>
    { s with
      uploads
      skills := s.skills ++ [⟨next_id s.skills, name, some skill_dir, true⟩] }

def updated (skill : Skill) (name : Option Name) (is_active : Option Bool) : Skill :=
  { skill with name := name.getD skill.name, is_active := is_active.getD skill.is_active }

/-- The unique column lets the new name in. -/
def lets_in (s : State γ) (id : Nat) (name : Option Name) : Bool :=
  s.skills.all fun skill => skill.id = id || some skill.name != name

/-- The action of an event, when it gets as far as the sync. -/
def action (s : State γ) : Event γ → Option (State γ)
  | .upload_skill name content busy => some (upload_skill s name content busy)
  | .update_skill id name is_active =>
    if s.skills.any (·.id = id) && lets_in s id name then
      some { s with skills := s.skills.map fun skill =>
        if skill.id = id then updated skill name is_active else skill }
    else none
  | .delete_skill id =>
    (s.skills.find? (·.id = id)).map fun skill =>
      { s with
        uploads := remove_dir s.uploads skill.file_path
        skills := s.skills.filter (·.id ≠ id) }
  | .meanwhile _ => none

def step (s : State γ) (e : Event γ) : State γ :=
  match action s e, e with
  | some t, _ => sync_all_codex_accounts t
  | none, .meanwhile accounts => { s with accounts }
  | none, _ => s

/-! ## The names of the directories -/

/-- The name of a directory in the skills of an account that can be seen: it is
made of safe letters, so it leads nowhere else. -/
def Visible (name : Name) : Prop :=
  name ≠ [] ∧ is_hidden name = false ∧ ∀ c ∈ name, is_safe c = true

theorem sub_safe_re_safe (inside : Bool) (name : Name) :
    ∀ c ∈ sub_safe_re inside name, is_safe c = true := by
  induction name generalizing inside with
  | nil => exact List.forall_mem_nil _
  | cons c name ih =>
    unfold sub_safe_re
    by_cases hsafe : is_safe c = true
    · rw [if_pos hsafe]
      exact List.forall_mem_cons.mpr ⟨hsafe, ih false⟩
    · rw [if_neg hsafe]
      cases inside with
      | true => exact ih true
      | false => exact List.forall_mem_cons.mpr ⟨by decide, ih true⟩

theorem not_edge_visible {c : Char} {name : Name} (hc : is_edge c = false) :
    is_hidden (c :: name) = false := by
  have hne : c ≠ '.' := by
    rintro rfl
    revert hc
    decide
  simp [is_hidden, hne]

theorem safe_skill_dir_name_visible (name : Name) : Visible (_safe_skill_dir_name name) := by
  unfold _safe_skill_dir_name
  dsimp only
  split_ifs with hempty
  · exact ⟨List.cons_ne_nil _ _, rfl, List.all_eq_true.mp rfl⟩
  · have hsafe := sub_safe_re_safe false (separated.trim isSpace name)
    have hbare := separated.bare_trim is_edge (sub_safe_re false (separated.trim isSpace name))
    refine ⟨fun hnil => hempty (by rw [hnil]; rfl), ?_,
      fun c hc => hsafe c (separated.trim_subset hc)⟩
    cases htrim : separated.trim is_edge (sub_safe_re false (separated.trim isSpace name)) with
    | nil => rfl
    | cons c rest => exact not_edge_visible (hbare.1 c (by rw [htrim]; rfl))

theorem digit_is_safe {n : Nat} {c : Char} (hc : c ∈ Nat.toDigits 10 n) : is_safe c = true := by
  have hdigit : c.isDigit = true := Nat.isDigit_of_mem_toDigits (by decide) (by decide) hc
  simp [is_safe, Char.isAlphanum, hdigit]

theorem numbered_visible {folder_name : Name} (h : Visible folder_name) (counter : Nat) :
    Visible (numbered folder_name counter) := by
  unfold numbered
  split_ifs with hzero
  · exact h
  · obtain ⟨hne, hhidden, hsafe⟩ := h
    refine ⟨by simp, ?_, ?_⟩
    · unfold is_hidden at *
      rwa [List.head?_append_of_ne_nil _ hne]
    · refine List.forall_mem_append.mpr ⟨hsafe, List.forall_mem_cons.mpr ⟨by decide, ?_⟩⟩
      exact fun c hc => digit_is_safe hc

theorem numbered_injective (folder_name : Name) : (numbered folder_name).Injective := by
  intro m n h
  have hlong : ∀ k : Nat, folder_name ≠ folder_name ++ '_' :: Nat.toDigits 10 k := by
    intro k hk
    simpa using congrArg List.length hk
  unfold numbered at h
  split_ifs at h with hm hn hn
  · rw [hm, hn]
  · exact absurd h (hlong n)
  · exact absurd h.symm (hlong m)
  · have hdigits := (List.cons.inj (List.append_cancel_left h)).2
    rw [← number_digits m, ← number_digits n, hdigits]

/-- More names are tried than there are entries, so one of them is free. -/
theorem unique_skill_dir_spec (entries : List Name) (folder_name : Name) :
    _unique_skill_dir entries folder_name ∉ entries ∧
      ∃ counter, _unique_skill_dir entries folder_name = numbered folder_name counter := by
  unfold _unique_skill_dir
  cases hfind : ((List.range (entries.length + 1)).map (numbered folder_name)).find?
      (!entries.contains ·) with
  | some name =>
    obtain ⟨counter, -, hname⟩ := List.mem_map.mp (List.mem_of_find?_eq_some hfind)
    exact ⟨by simpa using List.find?_some hfind, counter, hname.symm⟩
  | none =>
    have hall : (List.range (entries.length + 1)).map (numbered folder_name) ⊆ entries := by
      intro name hname
      simpa using List.find?_eq_none.mp hfind name hname
    have hnodup : ((List.range (entries.length + 1)).map (numbered folder_name)).Nodup :=
      List.nodup_range.map (numbered_injective folder_name)
    have hlength := hnodup.length_le_of_subset hall
    rw [List.length_map, List.length_range] at hlength
    omega

theorem unique_skill_dir_visible (entries : List Name) (name : Name) :
    Visible (_unique_skill_dir entries (_safe_skill_dir_name name)) := by
  obtain ⟨-, counter, hcounter⟩ := unique_skill_dir_spec entries (_safe_skill_dir_name name)
  rw [hcounter]
  exact numbered_visible (safe_skill_dir_name_visible name) counter

/-! ## What the admin offers -/

/-- A skill as the admin knows it: no directories, only what was uploaded last. -/
structure Offered (γ : Type) where
  id : Nat
  name : Name
  content : γ
  is_active : Bool

/-- What an event does to the skills that are offered. -/
def offers (c : List (Offered γ)) : Event γ → List (Offered γ)
  | .upload_skill name content _ =>
    match c.find? fun o => o.name = name with
    | some existing => c.map fun o => if o.id = existing.id then { o with content } else o
    | none => c ++ [⟨(c.map (·.id)).foldr max 0 + 1, name, content, true⟩]
  | .update_skill id name is_active =>
    if c.any (·.id = id) && c.all (fun o => o.id = id || some o.name != name) then
      c.map fun o =>
        if o.id = id then
          { o with name := name.getD o.name, is_active := is_active.getD o.is_active }
        else o
    else c
  | .delete_skill id => c.filter (·.id ≠ id)
  | .meanwhile _ => c

/-- The directory has the active ones of the skills, each in the place that is its
own, and no other directory that can be seen. A file in such a place stays. -/
def Shows (c : List (Offered γ)) (place : Nat → Name) (skills : Directory γ) : Prop :=
  ∀ name, is_hidden name = false → skills name ≠ some .file → ∀ content,
    skills name = some (.dir content) ↔
      ∃ o ∈ c, o.is_active = true ∧ place o.id = name ∧ o.content = content

/-! ## The rows and the uploads -/

/-- A skill with the directory of its upload. -/
structure Stored (γ : Type) where
  id : Nat
  name : Name
  dir : Name
  content : γ
  is_active : Bool

namespace Stored

def skill (r : Stored γ) : Skill := ⟨r.id, r.name, some r.dir, r.is_active⟩

def offered (r : Stored γ) : Offered γ := ⟨r.id, r.name, r.content, r.is_active⟩

/-- Two skills have different ids and directories. -/
def Apart (r₁ r₂ : Stored γ) : Prop := r₁.id ≠ r₂.id ∧ r₁.dir ≠ r₂.dir

end Stored

/-- The rows are the table, and each has its directory among the uploads. -/
structure Holds (s : State γ) (rows : List (Stored γ)) : Prop where
  table : s.skills = rows.map Stored.skill
  apart : rows.Pairwise Stored.Apart
  names : (s.uploads.map Prod.fst).Nodup
  uploaded : ∀ r ∈ rows, (r.dir, r.content) ∈ s.uploads
  visible : ∀ r ∈ rows, Visible r.dir

variable {s : State γ} {rows : List (Stored γ)}

theorem find_named (rows : List (Stored γ)) (name : Name) :
    (rows.map Stored.skill).find? (fun skill => skill.name = name) =
      (rows.find? fun r => r.name = name).map Stored.skill :=
  List.find?_map

theorem find_offered (rows : List (Stored γ)) (name : Name) :
    (rows.map Stored.offered).find? (fun o => o.name = name) =
      (rows.find? fun r => r.name = name).map Stored.offered :=
  List.find?_map

theorem mem_remove_dir {uploads : List (Name × γ)} {dir : Name} {upload : Name × γ} :
    upload ∈ remove_dir uploads (some dir) ↔ upload ∈ uploads ∧ upload.1 ≠ dir := by
  simp [remove_dir]

theorem remove_dir_names {uploads : List (Name × γ)} (h : (uploads.map Prod.fst).Nodup)
    (dir : Name) : ((remove_dir uploads (some dir)).map Prod.fst).Nodup :=
  h.sublist (List.filter_sublist.map _)

/-- The rows of the same id are one row. -/
theorem Holds.eq_of_id (h : Holds s rows) {r₁ r₂ : Stored γ} (h₁ : r₁ ∈ rows) (h₂ : r₂ ∈ rows)
    (hid : r₁.id = r₂.id) : r₁ = r₂ := by
  have hids : (rows.map Stored.id).Nodup :=
    List.pairwise_map.mpr (h.apart.imp fun hapart => hapart.1)
  exact List.inj_on_of_nodup_map hids h₁ h₂ hid

theorem Holds.dir_ne (h : Holds s rows) {r₁ r₂ : Stored γ} (h₁ : r₁ ∈ rows) (h₂ : r₂ ∈ rows)
    (hid : r₁.id ≠ r₂.id) : r₁.dir ≠ r₂.dir := by
  have hdirs : (rows.map Stored.dir).Nodup :=
    List.pairwise_map.mpr (h.apart.imp fun hapart => hapart.2)
  exact fun hdir => hid (congrArg Stored.id (List.inj_on_of_nodup_map hdirs h₁ h₂ hdir))

/-- A new directory is not one that a row has. -/
theorem Holds.dir_free (h : Holds s rows) {dir : Name} (hdir : dir ∉ s.uploads.map Prod.fst)
    {r : Stored γ} (hr : r ∈ rows) : dir ≠ r.dir := by
  rintro rfl
  exact hdir (List.mem_map_of_mem (h.uploaded r hr))

theorem Holds.names_concat (h : Holds s rows) {dir : Name} (hdir : dir ∉ s.uploads.map Prod.fst)
    (content : γ) : ((s.uploads ++ [(dir, content)]).map Prod.fst).Nodup := by
  rw [List.map_append, List.map_singleton]
  exact List.nodup_append'.mpr
    ⟨h.names, List.nodup_singleton _, List.disjoint_singleton.mpr hdir⟩

/-- What is shown of rows that are changed in place. -/
theorem map_shown {β : Type} {show_row : Stored γ → β} {f : Stored γ → Stored γ} {g : β → β}
    (h : ∀ r, show_row (f r) = g (show_row r)) (rows : List (Stored γ)) :
    (rows.map f).map show_row = (rows.map show_row).map g := by
  rw [List.map_map, List.map_map]
  exact List.map_congr_left fun r _ => h r

/-! ### A new upload of a skill -/

def Stored.replaced (id : Nat) (dir : Name) (content : γ) (r : Stored γ) : Stored γ :=
  if r.id = id then { r with dir, content } else r

theorem Stored.replaced_id (id : Nat) (dir : Name) (content : γ) (r : Stored γ) :
    (r.replaced id dir content).id = r.id := by
  unfold Stored.replaced
  split_ifs <;> rfl

theorem Holds.replaced (h : Holds s rows) {r₀ : Stored γ} (hr₀ : r₀ ∈ rows) {dir : Name}
    (hdir : dir ∉ s.uploads.map Prod.fst) (hvisible : Visible dir) (content : γ) :
    Holds { s with
        uploads := remove_dir (s.uploads ++ [(dir, content)]) (some r₀.dir)
        skills := s.skills.map fun skill =>
          if skill.id = r₀.id then { skill with file_path := some dir } else skill }
      (rows.map (Stored.replaced r₀.id dir content)) where
  table := by
    rw [h.table]
    exact (map_shown (fun r => apply_ite Stored.skill _ _ _) rows).symm
  apart := by
    refine List.pairwise_map.mpr (h.apart.imp_of_mem ?_)
    intro r₁ r₂ h₁ h₂ hapart
    refine ⟨by simpa only [Stored.replaced_id] using hapart.1, ?_⟩
    unfold Stored.replaced
    split_ifs with hid₁ hid₂ hid₂
    · exact absurd (hid₁.trans hid₂.symm) hapart.1
    · exact h.dir_free hdir h₂
    · exact (h.dir_free hdir h₁).symm
    · exact hapart.2
  names := remove_dir_names (h.names_concat hdir content) _
  uploaded := by
    refine List.forall_mem_map.mpr fun r hr => mem_remove_dir.mpr ?_
    unfold Stored.replaced
    split_ifs with hid
    · exact ⟨List.mem_append_right _ (List.mem_singleton.mpr rfl), h.dir_free hdir hr₀⟩
    · exact ⟨List.mem_append_left _ (h.uploaded r hr), h.dir_ne hr hr₀ hid⟩
  visible := by
    refine List.forall_mem_map.mpr fun r hr => ?_
    unfold Stored.replaced
    split_ifs
    · exact hvisible
    · exact h.visible r hr

theorem offered_replaced (id : Nat) (dir : Name) (content : γ) (rows : List (Stored γ)) :
    (rows.map (Stored.replaced id dir content)).map Stored.offered =
      (rows.map Stored.offered).map fun o => if o.id = id then { o with content } else o := by
  refine map_shown (fun r => ?_) rows
  exact apply_ite Stored.offered _ _ _

/-! ### The first upload of a skill -/

theorem lt_next_id {skills : List Skill} {skill : Skill} (h : skill ∈ skills) :
    skill.id < next_id skills := by
  have hle : ∀ ids : List Nat, ∀ id ∈ ids, id ≤ ids.foldr max 0 := by
    intro ids
    induction ids with
    | nil => exact List.forall_mem_nil _
    | cons id ids ih =>
      refine List.forall_mem_cons.mpr ⟨le_max_left _ _, fun i hi => ?_⟩
      exact (ih i hi).trans (le_max_right _ _)
  exact Nat.lt_succ_of_le (hle _ _ (List.mem_map_of_mem h))

theorem Holds.added (h : Holds s rows) {dir : Name} (hdir : dir ∉ s.uploads.map Prod.fst)
    (hvisible : Visible dir) (name : Name) (content : γ) :
    Holds { s with
        uploads := s.uploads ++ [(dir, content)]
        skills := s.skills ++ [⟨next_id s.skills, name, some dir, true⟩] }
      (rows ++ [⟨next_id s.skills, name, dir, content, true⟩]) where
  table := by
    rw [h.table, List.map_append]
    rfl
  apart := by
    refine List.pairwise_append.mpr ⟨h.apart, List.pairwise_singleton _ _, fun r hr r' hr' => ?_⟩
    obtain rfl := List.mem_singleton.mp hr'
    refine ⟨?_, (h.dir_free hdir hr).symm⟩
    have hskill : r.skill ∈ s.skills := by
      rw [h.table]
      exact List.mem_map_of_mem hr
    exact (lt_next_id hskill).ne
  names := h.names_concat hdir content
  uploaded := by
    refine List.forall_mem_append.mpr
      ⟨fun r hr => List.mem_append_left _ (h.uploaded r hr), fun r hr => ?_⟩
    obtain rfl := List.mem_singleton.mp hr
    exact List.mem_append_right _ (List.mem_singleton.mpr rfl)
  visible := by
    refine List.forall_mem_append.mpr ⟨h.visible, fun r hr => ?_⟩
    obtain rfl := List.mem_singleton.mp hr
    exact hvisible

theorem Holds.uploads_of (h : Holds s rows) (name : Name) (content : γ) (busy : List Name) :
    ∃ rows', Holds (upload_skill s name content busy) rows' ∧ rows'.map Stored.offered =
      offers (rows.map Stored.offered) (.upload_skill name content busy) := by
  have hspec := unique_skill_dir_spec (busy ++ s.uploads.map Prod.fst) (_safe_skill_dir_name name)
  have hfree := fun hdir => hspec.1 (List.mem_append_right busy hdir)
  have hvisible := unique_skill_dir_visible (busy ++ s.uploads.map Prod.fst) name
  unfold upload_skill offers
  dsimp only
  rw [find_offered]
  cases hfind : rows.find? (fun r => r.name = name) with
  | some r₀ =>
    have hskill : s.skills.find? (fun skill => skill.name = name) = some r₀.skill := by
      rw [h.table, find_named, hfind]
      rfl
    rw [hskill]
    exact ⟨_, h.replaced (List.mem_of_find?_eq_some hfind) hfree hvisible content,
      offered_replaced _ _ _ rows⟩
  | none =>
    have hskill : s.skills.find? (fun skill => skill.name = name) = none := by
      rw [h.table, find_named, hfind]
      rfl
    rw [hskill]
    refine ⟨_, h.added hfree hvisible name content, ?_⟩
    rw [List.map_append, h.table, next_id, List.map_map, Option.map_none, List.map_map]
    rfl

/-! ### Changes and deletions -/

def Stored.changed (id : Nat) (name : Option Name) (is_active : Option Bool) (r : Stored γ) :
    Stored γ :=
  if r.id = id then
    { r with name := name.getD r.name, is_active := is_active.getD r.is_active }
  else r

theorem changed_keeps (id : Nat) (name : Option Name) (is_active : Option Bool) (r : Stored γ) :
    (r.changed id name is_active).id = r.id ∧ (r.changed id name is_active).dir = r.dir ∧
      (r.changed id name is_active).content = r.content := by
  unfold Stored.changed
  split_ifs <;> exact ⟨rfl, rfl, rfl⟩

theorem Holds.changed (h : Holds s rows) (id : Nat) (name : Option Name)
    (is_active : Option Bool) :
    Holds { s with skills := s.skills.map fun skill =>
        if skill.id = id then updated skill name is_active else skill }
      (rows.map (Stored.changed id name is_active)) where
  table := by
    rw [h.table]
    exact (map_shown (fun r => apply_ite Stored.skill _ _ _) rows).symm
  apart := by
    refine List.pairwise_map.mpr (h.apart.imp fun hapart => ?_)
    unfold Stored.Apart at *
    simpa only [(changed_keeps ..).1, (changed_keeps ..).2.1] using hapart
  names := h.names
  uploaded := by
    refine List.forall_mem_map.mpr fun r hr => ?_
    obtain ⟨-, hdir, hcontent⟩ := changed_keeps id name is_active r
    rw [hdir, hcontent]
    exact h.uploaded r hr
  visible := by
    refine List.forall_mem_map.mpr fun r hr => ?_
    rw [(changed_keeps ..).2.1]
    exact h.visible r hr

theorem offered_changed (id : Nat) (name : Option Name) (is_active : Option Bool)
    (rows : List (Stored γ)) :
    (rows.map (Stored.changed id name is_active)).map Stored.offered =
      (rows.map Stored.offered).map fun o =>
        if o.id = id then
          { o with name := name.getD o.name, is_active := is_active.getD o.is_active }
        else o := by
  refine map_shown (fun r => ?_) rows
  exact apply_ite Stored.offered _ _ _

/-- The table and the skills that are offered let in the same names. -/
theorem Holds.lets_in_eq (h : Holds s rows) (id : Nat) (name : Option Name) :
    (s.skills.any (·.id = id) && lets_in s id name) =
      ((rows.map Stored.offered).any (·.id = id) &&
        (rows.map Stored.offered).all fun o => o.id = id || some o.name != name) := by
  unfold lets_in
  rw [h.table, List.any_map, List.any_map, List.all_map, List.all_map]
  rfl

theorem Holds.deleted (h : Holds s rows) {r₀ : Stored γ} (hr₀ : r₀ ∈ rows) :
    Holds { s with
        uploads := remove_dir s.uploads (some r₀.dir)
        skills := s.skills.filter (·.id ≠ r₀.id) }
      (rows.filter (·.id ≠ r₀.id)) where
  table := by
    rw [h.table, List.filter_map]
    rfl
  apart := h.apart.filter _
  names := remove_dir_names h.names _
  uploaded := by
    intro r hr
    obtain ⟨hr, hid⟩ := List.mem_filter.mp hr
    exact mem_remove_dir.mpr ⟨h.uploaded r hr, h.dir_ne hr hr₀ (by simpa using hid)⟩
  visible := fun r hr => h.visible r (List.mem_of_mem_filter hr)

theorem offered_deleted (id : Nat) (rows : List (Stored γ)) :
    (rows.filter (·.id ≠ id)).map Stored.offered =
      (rows.map Stored.offered).filter (·.id ≠ id) := by
  rw [List.filter_map]
  rfl

theorem offered_other {rows : List (Stored γ)} {id : Nat} (h : ∀ r ∈ rows, r.id ≠ id) :
    (rows.map Stored.offered).filter (·.id ≠ id) = rows.map Stored.offered := by
  refine List.filter_eq_self.mpr (List.forall_mem_map.mpr fun r hr => ?_)
  exact decide_eq_true (h r hr)

/-! ## What a step does -/

/-- The step lemma: an action, or none, does to the table and to the uploads what
it does to the skills that are offered. -/
theorem holds_action (h : Holds s rows) (e : Event γ) :
    ∃ rows', Holds ((action s e).getD s) rows' ∧
      rows'.map Stored.offered = offers (rows.map Stored.offered) e := by
  cases e with
  | upload_skill name content busy => exact h.uploads_of name content busy
  | update_skill id name is_active =>
    unfold action offers
    dsimp only
    rw [h.lets_in_eq]
    split_ifs
    · exact ⟨_, h.changed id name is_active, offered_changed _ _ _ rows⟩
    · exact ⟨_, h, rfl⟩
  | delete_skill id =>
    unfold action offers
    dsimp only
    have hfind : s.skills.find? (·.id = id) = (rows.find? (·.id = id)).map Stored.skill := by
      rw [h.table]
      exact List.find?_map
    cases hrow : rows.find? (·.id = id) with
    | none =>
      rw [hfind, hrow]
      refine ⟨rows, h, (offered_other fun r hr => ?_).symm⟩
      simpa using List.find?_eq_none.mp hrow r hr
    | some r₀ =>
      rw [hfind, hrow]
      obtain rfl : r₀.id = id := by simpa using List.find?_some hrow
      exact ⟨_, h.deleted (List.mem_of_find?_eq_some hrow), offered_deleted _ rows⟩
  | meanwhile accounts => exact ⟨rows, h, rfl⟩

/-- The accounts are no part of it. -/
theorem Holds.of_eq {t : State γ} (h : Holds s rows) (hskills : t.skills = s.skills)
    (huploads : t.uploads = s.uploads) : Holds t rows where
  table := hskills.trans h.table
  apart := h.apart
  names := huploads ▸ h.names
  uploaded := huploads ▸ h.uploaded
  visible := h.visible

/-- An action that goes through is followed by the sync. -/
theorem step_of_action {t : State γ} {e : Event γ} (h : action s e = some t) :
    step s e = sync_all_codex_accounts t := by
  unfold step
  rw [h]

theorem holds_step (h : Holds s rows) (e : Event γ) :
    ∃ rows', Holds (step s e) rows' ∧
      rows'.map Stored.offered = offers (rows.map Stored.offered) e := by
  obtain ⟨rows', hrows', hoffers⟩ := holds_action h e
  refine ⟨rows', ?_, hoffers⟩
  cases haction : action s e with
  | some t =>
    rw [haction] at hrows'
    rw [step_of_action haction]
    exact hrows'.of_eq rfl rfl
  | none =>
    rw [haction] at hrows'
    unfold step
    rw [haction]
    cases e <;> exact hrows'.of_eq rfl rfl

/-- Before the first upload. -/
def start (accounts : List (Account γ)) : State γ := ⟨[], [], accounts⟩

theorem holds_start (accounts : List (Account γ)) : Holds (start accounts) [] where
  table := rfl
  apart := List.Pairwise.nil
  names := List.nodup_nil
  uploaded := List.forall_mem_nil _
  visible := List.forall_mem_nil _

/-- The run lemma. -/
theorem holds_after (h : Holds s rows) (es : List (Event γ)) :
    ∃ rows', Holds (after step s es) rows' ∧
      rows'.map Stored.offered = es.foldl offers (rows.map Stored.offered) := by
  induction es generalizing s rows with
  | nil => exact ⟨rows, h, rfl⟩
  | cons e es ih =>
    obtain ⟨rows₁, h₁, hoffers₁⟩ := holds_step h e
    obtain ⟨rows₂, h₂, hoffers₂⟩ := ih h₁
    exact ⟨rows₂, h₂, by rw [hoffers₂, hoffers₁]; rfl⟩

/-! ## The sync of an account -/

theorem Holds.upload_of_row (h : Holds s rows) {r : Stored γ} (hr : r ∈ rows) :
    upload_of s.uploads r.skill = some (r.dir, r.content) := by
  have hmem := h.uploaded r hr
  change s.uploads.find? (fun upload => upload.1 = r.dir) = some (r.dir, r.content)
  cases hfind : s.uploads.find? (fun upload => upload.1 = r.dir) with
  | none => simpa using List.find?_eq_none.mp hfind _ hmem
  | some upload =>
    have hname : upload.1 = r.dir := by simpa using List.find?_some hfind
    rw [List.inj_on_of_nodup_map h.names (List.mem_of_find?_eq_some hfind) hmem hname]

section
variable {uploads : List (Name × γ)} {skills_dir : Directory γ} {r : Stored γ}
  (hupload : upload_of uploads r.skill = some (r.dir, r.content))
include hupload

theorem sync_one_other {name : Name} (hname : name ≠ r.dir) :
    sync_one uploads skills_dir r.skill name = skills_dir name := by
  unfold sync_one
  rw [hupload]
  dsimp only
  rcases skills_dir r.dir with _ | content | _
  · exact if_neg hname
  · exact if_neg hname
  · rfl

theorem sync_one_own (hfile : skills_dir r.dir ≠ some .file) :
    sync_one uploads skills_dir r.skill r.dir = some (.dir r.content) := by
  unfold sync_one
  rw [hupload]
  dsimp only
  rcases hentry : skills_dir r.dir with _ | content | _
  · exact if_pos rfl
  · exact if_pos rfl
  · exact absurd hentry hfile

/-- A file stays what it is. -/
theorem sync_one_file {name : Name} (hfile : skills_dir name = some .file) :
    sync_one uploads skills_dir r.skill name = some .file := by
  by_cases hname : name = r.dir
  · subst hname
    unfold sync_one
    rw [hupload]
    dsimp only
    rw [hfile]
    exact hfile
  · rw [sync_one_other hupload hname, hfile]

end

section
variable {uploads : List (Name × γ)} {active : List (Stored γ)}
  (huploads : ∀ r ∈ active, upload_of uploads r.skill = some (r.dir, r.content))
include huploads

theorem synced_other {name : Name} (hname : ∀ r ∈ active, r.dir ≠ name)
    (skills_dir : Directory γ) :
    (active.map Stored.skill).foldl (sync_one uploads) skills_dir name = skills_dir name := by
  induction active generalizing skills_dir with
  | nil => rfl
  | cons r active ih =>
    obtain ⟨hr, hactive⟩ := List.forall_mem_cons.mp huploads
    obtain ⟨hrname, hname⟩ := List.forall_mem_cons.mp hname
    rw [List.map_cons, List.foldl_cons, ih hactive hname]
    exact sync_one_other hr hrname.symm

theorem synced_file {name : Name} (skills_dir : Directory γ)
    (hfile : skills_dir name = some .file) :
    (active.map Stored.skill).foldl (sync_one uploads) skills_dir name = some .file := by
  induction active generalizing skills_dir with
  | nil => exact hfile
  | cons r active ih =>
    obtain ⟨hr, hactive⟩ := List.forall_mem_cons.mp huploads
    rw [List.map_cons, List.foldl_cons]
    exact ih hactive _ (sync_one_file hr hfile)

/-- A skill is written in its turn, and no later turn is at its directory. -/
theorem synced_own (happart : active.Pairwise Stored.Apart) {r : Stored γ} (hr : r ∈ active)
    (skills_dir : Directory γ) (hfile : skills_dir r.dir ≠ some .file) :
    (active.map Stored.skill).foldl (sync_one uploads) skills_dir r.dir =
      some (.dir r.content) := by
  induction active generalizing skills_dir with
  | nil => cases hr
  | cons r₀ active ih =>
    obtain ⟨hr₀, hactive⟩ := List.forall_mem_cons.mp huploads
    obtain ⟨hfirst, happart⟩ := List.pairwise_cons.mp happart
    rw [List.map_cons, List.foldl_cons]
    rcases List.mem_cons.mp hr with rfl | hr
    · rw [synced_other hactive fun r' hr' => (hfirst r' hr').2.symm]
      exact sync_one_own hr₀ hfile
    · refine ih hactive happart hr _ ?_
      rwa [sync_one_other hr₀ (hfirst r hr).2.symm]

theorem active_skill_dirs_eq :
    active_skill_dirs uploads (active.map Stored.skill) = active.map Stored.dir := by
  induction active with
  | nil => rfl
  | cons r active ih =>
    obtain ⟨hr, hactive⟩ := List.forall_mem_cons.mp huploads
    unfold active_skill_dirs at *
    rw [List.map_cons, List.filterMap_cons_some (b := r.dir), ih hactive, List.map_cons]
    rw [hr]
    rfl

/-- The spec of the sync, at a name that can be seen and has no file. -/
theorem sync_account_skills_spec (happart : active.Pairwise Stored.Apart)
    (skills_dir : Directory γ) {name : Name} (hvisible : is_hidden name = false)
    (hfile : sync_codex_account_skills uploads (active.map Stored.skill) skills_dir name ≠
      some .file) (content : γ) :
    sync_codex_account_skills uploads (active.map Stored.skill) skills_dir name =
        some (.dir content) ↔ ∃ r ∈ active, r.dir = name ∧ r.content = content := by
  unfold sync_codex_account_skills at *
  rw [active_skill_dirs_eq huploads, hvisible] at *
  by_cases hname : name ∈ active.map Stored.dir
  · obtain ⟨r, hr, rfl⟩ := List.mem_map.mp hname
    rw [if_neg (by simp [hname])] at *
    have hbefore : skills_dir r.dir ≠ some .file :=
      fun hbefore => hfile (synced_file huploads skills_dir hbefore)
    rw [synced_own huploads happart hr skills_dir hbefore]
    constructor
    · rintro heq
      cases heq
      exact ⟨r, hr, rfl, rfl⟩
    · rintro ⟨r', hr', hdir, rfl⟩
      have hdirs : (active.map Stored.dir).Nodup :=
        List.pairwise_map.mpr (happart.imp fun hapart => hapart.2)
      rw [List.inj_on_of_nodup_map hdirs hr' hr hdir]
  · have hnone : ∀ r ∈ active, r.dir ≠ name :=
      fun r hr hdir => hname (List.mem_map.mpr ⟨r, hr, hdir⟩)
    rw [synced_other huploads hnone] at *
    constructor
    · intro heq
      rw [heq] at hfile
      split_ifs at heq with hdir
      · rw [heq] at hdir
        exact absurd (by simp [is_dir, hname]) hdir
    · rintro ⟨r, hr, hdir, -⟩
      exact absurd hdir (hnone r hr)

end

/-! ## The law -/

theorem Holds.active (h : Holds s rows) :
    active_skills s = (rows.filter (·.is_active)).map Stored.skill := by
  unfold active_skills
  rw [h.table, List.filter_map]
  rfl

/-- The place of a skill in the accounts. -/
def place_in (rows : List (Stored γ)) (id : Nat) : Name :=
  ((rows.find? (·.id = id)).map Stored.dir).getD []

theorem Holds.place_of_row (h : Holds s rows) {r : Stored γ} (hr : r ∈ rows) :
    place_in rows r.id = r.dir := by
  unfold place_in
  cases hfind : rows.find? (·.id = r.id) with
  | none => simpa using List.find?_eq_none.mp hfind r hr
  | some r' =>
    have hid : r'.id = r.id := by simpa using List.find?_some hfind
    rw [h.eq_of_id (List.mem_of_find?_eq_some hfind) hr hid]
    rfl

theorem Holds.shows (h : Holds s rows) (skills_dir : Directory γ) :
    Shows (rows.map Stored.offered) (place_in rows)
      (sync_codex_account_skills s.uploads (active_skills s) skills_dir) := by
  intro name hvisible hfile content
  have huploads : ∀ r ∈ rows.filter (·.is_active),
      upload_of s.uploads r.skill = some (r.dir, r.content) :=
    fun r hr => h.upload_of_row (List.mem_of_mem_filter hr)
  rw [h.active] at *
  rw [sync_account_skills_spec huploads (h.apart.filter _) skills_dir hvisible hfile content]
  constructor
  · rintro ⟨r, hr, hdir, hcontent⟩
    obtain ⟨hr, hactive⟩ := List.mem_filter.mp hr
    exact ⟨r.offered, List.mem_map_of_mem hr, hactive, (h.place_of_row hr).trans hdir, hcontent⟩
  · rintro ⟨o, ho, hactive, hplace, hcontent⟩
    obtain ⟨r, hr, rfl⟩ := List.mem_map.mp ho
    exact ⟨r, List.mem_filter.mpr ⟨hr, hactive⟩, (h.place_of_row hr).symm.trans hplace, hcontent⟩

/-- The places are apart from each other, and they can be seen. -/
theorem Holds.places (h : Holds s rows) :
    (∀ o₁ ∈ rows.map Stored.offered, ∀ o₂ ∈ rows.map Stored.offered,
        place_in rows o₁.id = place_in rows o₂.id → o₁ = o₂) ∧
      ∀ o ∈ rows.map Stored.offered, Visible (place_in rows o.id) := by
  constructor
  · refine List.forall_mem_map.mpr fun r₁ h₁ => List.forall_mem_map.mpr fun r₂ h₂ hplace => ?_
    by_cases hid : r₁.id = r₂.id
    · rw [h.eq_of_id h₁ h₂ hid]
    · refine absurd ?_ (h.dir_ne h₁ h₂ hid)
      rw [← h.place_of_row h₁, ← h.place_of_row h₂]
      exact hplace
  · refine List.forall_mem_map.mpr fun r hr => ?_
    have hvisible := h.visible r hr
    rw [← h.place_of_row hr] at hvisible
    exact hvisible

/-- Whatever was uploaded, changed and deleted, and whatever happened to the
directories meanwhile: after an action of the admin, each account with a home has
the active skills in places of their own, as they were uploaded last, and no others. -/
theorem accounts_show_what_is_offered (accounts : List (Account γ)) (es : List (Event γ))
    (e : Event γ) (h : (action (after step (start accounts) es) e).isSome = true) :
    ∃ place : Nat → Name,
      (∀ o₁ ∈ (es ++ [e]).foldl offers [], ∀ o₂ ∈ (es ++ [e]).foldl offers [],
        place o₁.id = place o₂.id → o₁ = o₂) ∧
      (∀ o ∈ (es ++ [e]).foldl offers [], Visible (place o.id)) ∧
      ∀ account ∈ (after step (start accounts) (es ++ [e])).accounts, account.has_home = true →
        Shows ((es ++ [e]).foldl offers []) place account.skills := by
  obtain ⟨rows, hrows, hoffers⟩ := holds_after (holds_start accounts) es
  obtain ⟨rows', hrows', hoffers'⟩ := holds_action hrows e
  obtain ⟨t, ht⟩ := Option.isSome_iff_exists.mp h
  rw [ht, Option.getD_some] at hrows'
  rw [List.foldl_append, List.foldl_cons, List.foldl_nil]
  rw [hoffers] at hoffers'
  change rows'.map Stored.offered = offers (es.foldl offers []) e at hoffers'
  rw [← hoffers', after_append, after_cons, after_nil, step_of_action ht]
  refine ⟨place_in rows', hrows'.places.1, hrows'.places.2, ?_⟩
  intro account haccount hhome
  obtain ⟨account, -, rfl⟩ := List.mem_map.mp haccount
  unfold sync_account at *
  split_ifs at * with hbefore
  · exact hrows'.shows account.skills
  · exact absurd hhome hbefore

/-- An upload, a file in an account, and a second upload of the skill. -/
theorem accounts_show_what_is_offered_replaced :
    let es : List (Event Nat) :=
      [.upload_skill ['a', '/'] 1 [], .meanwhile [⟨true, fun _ => none⟩]]
    let e : Event Nat := .upload_skill ['a', '/'] 2 [['x']]
    (action (after step (start []) es) e).isSome = true ∧
      ∃ place : Nat → Name, ∀ account ∈ (after step (start []) (es ++ [e])).accounts,
        account.has_home = true → Shows [⟨1, ['a', '/'], 2, true⟩] place account.skills := by
  refine ⟨rfl, ?_⟩
  obtain ⟨place, -, -, haccounts⟩ := accounts_show_what_is_offered []
    [.upload_skill ['a', '/'] 1 [], .meanwhile [⟨true, fun _ => none⟩]]
    (.upload_skill ['a', '/'] 2 [['x']]) rfl
  exact ⟨place, haccounts⟩

end dr_boz.account_skills
