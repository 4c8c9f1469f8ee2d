-- Tables of rows with a surrogate key and at most one unique column. A table
-- carries the proofs that no two rows share a key and that no two rows share
-- a value of the unique column, where NULL counts as no value.
import Mathlib.Data.List.MinMax
import Mathlib.Data.List.Nodup

namespace keyed_table

/-- A row type with a surrogate key and one unique column. A type with no
unique column takes `Empty` for `υ`. -/
class Row (α : Type) (υ : outParam Type) where
  key : α → Nat
  setKey : α → Nat → α
  unique : α → Option υ
  key_setKey : ∀ a n, key (setKey a n) = n
  unique_setKey : ∀ a n, unique (setKey a n) = unique a

open Row

/-- The rows of a table, in the order in which they were inserted. -/
structure Table (α : Type) {υ : Type} [Row α υ] where
  rows : List α
  keys : (rows.map key).Nodup
  uniques : (rows.filterMap unique).Nodup

namespace Table

variable {α υ : Type} [Row α υ]

@[ext]
theorem ext {t u : Table α} (h : t.rows = u.rows) : t = u := by
  cases t; cases u; cases h; rfl

instance [DecidableEq α] : DecidableEq (Table α) := fun t u =>
  decidable_of_iff (t.rows = u.rows) ⟨ext, fun h => h ▸ rfl⟩

def empty : Table α := ⟨[], List.nodup_nil, List.nodup_nil⟩

/-- The key that the next inserted row gets: one more than the largest key. -/
def nextKey (t : Table α) : Nat := (t.rows.map key).foldr max 0 + 1

theorem key_lt_nextKey (t : Table α) {r : α} (h : r ∈ t.rows) : key r < t.nextKey := by
  unfold nextKey
  have hm : key r ∈ t.rows.map key := List.mem_map_of_mem h
  generalize t.rows.map key = ks at hm
  induction ks with
  | nil => cases hm
  | cons k ks ih =>
    simp only [List.foldr_cons]
    rcases List.mem_cons.mp hm with rfl | hm
    · omega
    · have := ih hm
      omega

/-! ## The operations -/

/-- The unique column lets the row in. -/
def Accepts (t : Table α) (a : α) : Prop := ∀ u, unique a = some u → ∀ r ∈ t.rows, unique r ≠ some u

instance [DecidableEq υ] (t : Table α) (a : α) : Decidable (t.Accepts a) :=
  match h : unique a with
  | none => isTrue fun u hu => by rw [h] at hu; cases hu
  | some v => decidable_of_iff (∀ r ∈ t.rows, unique r ≠ some v)
      ⟨fun hv u hu => by rw [h] at hu; cases hu; exact hv, fun hv => hv v h⟩

/-- Inserts the row under the next key. A row that the unique column keeps
out changes nothing. -/
def insert [DecidableEq υ] (t : Table α) (a : α) : Table α :=
  if h : t.Accepts a then
    { rows := t.rows ++ [setKey a t.nextKey]
      keys := by
        rw [List.map_append, List.nodup_append]
        refine ⟨t.keys, by simp, ?_⟩
        intro k hk k' hk' he
        obtain ⟨r, hr, rfl⟩ := List.mem_map.mp hk
        simp only [List.map_cons, List.map_nil, List.mem_singleton, key_setKey] at hk'
        have := t.key_lt_nextKey hr
        omega
      uniques := by
        rw [List.filterMap_append, List.nodup_append]
        refine ⟨t.uniques, ?_, ?_⟩
        · cases hu : unique a <;> simp [unique_setKey, hu]
        · intro u hu u' hu' he
          obtain ⟨r, hr, hru⟩ := List.mem_filterMap.mp hu
          cases hua : unique a with
          | none => simp [unique_setKey, hua] at hu'
          | some v =>
            simp only [List.filterMap_cons, unique_setKey, hua, List.filterMap_nil,
              List.mem_singleton] at hu'
            exact h v hua r hr (by rw [hru, he, hu']) }
  else t

/-- Rewrites the row with key `k`. The rewrite keeps the key and the unique
column. -/
def update (t : Table α) (k : Nat) (f : α → α) (hk : ∀ r, key (f r) = key r)
    (hu : ∀ r, unique (f r) = unique r) : Table α where
  rows := t.rows.map (fun r => if key r = k then f r else r)
  keys := by
    rw [List.map_map]
    convert t.keys using 2
    funext r
    simp only [Function.comp]
    split
    · exact hk r
    · rfl
  uniques := by
    rw [List.filterMap_map]
    convert t.uniques using 1
    refine List.filterMap_congr fun r _ => ?_
    simp only [Function.comp]
    split
    · exact hu r
    · rfl

/-- A rewrite of the row with key `k` leaves the unique column unique. -/
def Rewrites (t : Table α) (k : Nat) (f : α → α) : Prop :=
  ((t.rows.map fun r => if key r = k then f r else r).filterMap unique).Nodup

instance [DecidableEq υ] (t : Table α) (k : Nat) (f : α → α) : Decidable (t.Rewrites k f) :=
  inferInstanceAs (Decidable (List.Nodup _))

/-- Rewrites the row with key `k`, its unique column included. A rewrite to a
value that another row has changes nothing. -/
def rewrite [DecidableEq υ] (t : Table α) (k : Nat) (f : α → α) (hk : ∀ r, key (f r) = key r) :
    Table α :=
  if h : t.Rewrites k f then
    { rows := t.rows.map fun r => if key r = k then f r else r
      keys := by
        rw [List.map_map]
        convert t.keys using 2
        funext r
        simp only [Function.comp]
        split
        · exact hk r
        · rfl
      uniques := h }
  else t

/-- Puts the row in the place of the row with its key and its unique column. -/
def put [DecidableEq υ] (t : Table α) (r : α) : Table α where
  rows := t.rows.map (fun x => if key x = key r ∧ unique x = unique r then r else x)
  keys := by
    rw [List.map_map]
    convert t.keys using 2
    funext x
    simp only [Function.comp]
    split
    · rename_i h; exact h.1.symm
    · rfl
  uniques := by
    rw [List.filterMap_map]
    convert t.uniques using 1
    refine List.filterMap_congr fun x _ => ?_
    simp only [Function.comp]
    split
    · rename_i h; exact h.2.symm
    · rfl

def delete (t : Table α) (k : Nat) : Table α where
  rows := t.rows.filter (fun r => key r ≠ k)
  keys := t.keys.sublist (List.filter_sublist.map key)
  uniques := t.uniques.sublist (List.filter_sublist.filterMap unique)

/-- The row with key `k`. -/
def get (t : Table α) (k : Nat) : Option α := t.rows.find? (fun r => key r = k)

/-- The first row, in table order, that a query selects. -/
def first (t : Table α) (p : α → Bool) : Option α := t.rows.find? p

/-- The selected row with the lowest key. -/
def lowest (t : Table α) (p : α → Bool) : Option α := (t.rows.filter p).argmin key

/-- The number of rows that a query selects. -/
def count (t : Table α) (p : α → Bool) : Nat := t.rows.countP p

/-! ## What the operations keep -/

theorem rows_insert [DecidableEq υ] {t : Table α} {a : α} (h : t.Accepts a) :
    (t.insert a).rows = t.rows ++ [setKey a t.nextKey] := by
  unfold insert; rw [dif_pos h]

@[simp] theorem rows_update (t : Table α) (k : Nat) (f : α → α) (hk hu) :
    (t.update k f hk hu).rows = t.rows.map (fun r => if key r = k then f r else r) := rfl

@[simp] theorem rows_delete (t : Table α) (k : Nat) :
    (t.delete k).rows = t.rows.filter (fun r => key r ≠ k) := rfl

theorem key_unique (t : Table α) {r s : α} (hr : r ∈ t.rows) (hs : s ∈ t.rows)
    (h : key r = key s) : r = s := List.inj_on_of_nodup_map t.keys hr hs h

/-- Two rows with one value of the unique column are one row. -/
theorem row_of_unique (t : Table α) {r s : α} (hr : r ∈ t.rows) (hs : s ∈ t.rows) {v : υ}
    (hrv : unique r = some v) (hsv : unique s = some v) : r = s := by
  have uniques := t.uniques
  generalize t.rows = rows at hr hs uniques
  induction rows with
  | nil => cases hr
  | cons x xs ih =>
    have hmem : ∀ y ∈ xs, unique y = some v → v ∈ xs.filterMap unique :=
      fun y hy hyv => List.mem_filterMap.mpr ⟨y, hy, hyv⟩
    have hx : unique x = some v → v ∉ xs.filterMap unique := by
      intro hxv
      rw [List.filterMap_cons, hxv] at uniques
      exact (List.nodup_cons.mp uniques).1
    have hxs : (xs.filterMap unique).Nodup := by
      rw [List.filterMap_cons] at uniques
      split at uniques
      · exact uniques
      · exact (List.nodup_cons.mp uniques).2
    rcases List.mem_cons.mp hr with hrx | hr'
    · rcases List.mem_cons.mp hs with hsx | hs'
      · exact hrx.trans hsx.symm
      · exact absurd (hmem s hs' hsv) (hx (hrx ▸ hrv))
    · rcases List.mem_cons.mp hs with hsx | hs'
      · exact absurd (hmem r hr' hrv) (hx (hsx ▸ hsv))
      · exact ih hr' hs' hxs

theorem get_eq_some (t : Table α) {k : Nat} {r : α} :
    t.get k = some r ↔ r ∈ t.rows ∧ key r = k := by
  unfold get
  constructor
  · intro h
    exact ⟨List.mem_of_find?_eq_some h, by simpa using List.find?_some h⟩
  · rintro ⟨hr, rfl⟩
    cases hf : t.rows.find? (fun s => key s = key r) with
    | none => simpa using List.find?_eq_none.mp hf r hr
    | some s =>
      have hs : key s = key r := by simpa using List.find?_some hf
      rw [t.key_unique (List.mem_of_find?_eq_some hf) hr hs]

/-- A change that keeps the keys is found where the row was. -/
theorem find_map {f : α → α} (hf : ∀ r, key (f r) = key r) (rows : List α) (j : Nat) :
    (rows.map f).find? (fun r => decide (key r = j)) =
      (rows.find? fun r => decide (key r = j)).map f := by
  have hp : ((fun r : α => decide (key r = j)) ∘ f) = fun r => decide (key r = j) := by
    funext r
    rw [Function.comp_apply, hf r]
  rw [List.find?_map, hp]

theorem key_if {k : Nat} {f : α → α} (hf : ∀ r, key (f r) = key r) (r : α) :
    key (if key r = k then f r else r) = key r := by
  split
  · exact hf r
  · rfl

theorem get_update (t : Table α) (k : Nat) (f : α → α) (hk hu) (j : Nat) :
    (t.update k f hk hu).get j = if j = k then (t.get j).map f else t.get j := by
  unfold get
  rw [rows_update, find_map (key_if hk)]
  cases h : t.rows.find? fun r => decide (key r = j) with
  | none => simp
  | some r =>
    have hr : key r = j := by simpa using List.find?_some h
    by_cases hj : j = k
    · simp [hj ▸ hr, hj]
    · simp [hr, hj]

/-- A rewrite touches the row with its key, or it changes nothing. -/
theorem get_rewrite_cases [DecidableEq υ] (t : Table α) (k : Nat) (f : α → α)
    (hk : ∀ r, key (f r) = key r) (j : Nat) :
    (t.rewrite k f hk).get j = t.get j ∨
      (t.rewrite k f hk).get j = (t.get j).map fun r => if j = k then f r else r := by
  unfold rewrite
  split
  · right
    unfold get
    rw [find_map (key_if hk)]
    cases h : t.rows.find? fun r => decide (key r = j) with
    | none => rfl
    | some r =>
      have hr : key r = j := by simpa using List.find?_some h
      simp only [Option.map_some, hr]
  · exact .inl rfl

theorem first_mem {t : Table α} {p : α → Bool} {r : α} (h : t.first p = some r) :
    r ∈ t.rows ∧ p r = true := ⟨List.mem_of_find?_eq_some h, List.find?_some h⟩

theorem first_eq_none {t : Table α} {p : α → Bool} :
    t.first p = none ↔ ∀ r ∈ t.rows, p r = false := by
  simp [first]

theorem accepts_of_no_unique {t : Table α} {a : α} (h : unique a = none) : t.Accepts a := by
  intro u hu
  rw [h] at hu
  cases hu

theorem first_insert_none [DecidableEq υ] {t : Table α} {a : α} (ha : t.Accepts a) {p : α → Bool}
    (h : t.first p = none) (hp : p (setKey a t.nextKey) = true) :
    (t.insert a).first p = some (setKey a t.nextKey) := by
  unfold first at h ⊢
  rw [rows_insert ha, List.find?_append, h, Option.none_or, List.find?_cons_of_pos hp]

theorem first_insert_some [DecidableEq υ] {t : Table α} {a o : α} {p : α → Bool}
    (h : t.first p = some o) : (t.insert a).first p = some o := by
  unfold insert
  split
  · unfold first at h ⊢
    rw [List.find?_append, h, Option.some_or]
  · exact h

/-- A query finds what it found before the insertion, or the new row. -/
theorem first_insert_cases [DecidableEq υ] (t : Table α) (a : α) (p : α → Bool) :
    (t.insert a).first p = t.first p ∨
      t.first p = none ∧ p (setKey a t.nextKey) = true ∧
        (t.insert a).first p = some (setKey a t.nextKey) := by
  by_cases ha : t.Accepts a
  · cases h : t.first p with
    | some o => exact .inl (first_insert_some h)
    | none =>
      by_cases hp : p (setKey a t.nextKey) = true
      · exact .inr ⟨rfl, hp, first_insert_none ha h hp⟩
      · left
        unfold first at h ⊢
        rw [rows_insert ha, List.find?_append, h, Option.none_or, List.find?_cons_of_neg hp,
          List.find?_nil]
  · left
    unfold insert
    rw [dif_neg ha]

theorem get_insert_new [DecidableEq υ] {t : Table α} {a : α} (ha : t.Accepts a) :
    (t.insert a).get t.nextKey = some (setKey a t.nextKey) := by
  rw [get_eq_some, rows_insert ha]
  exact ⟨by simp, key_setKey _ _⟩

theorem get_insert_some [DecidableEq υ] {t : Table α} {a o : α} {k : Nat}
    (h : t.get k = some o) : (t.insert a).get k = some o := first_insert_some h

theorem mem_insert_of_mem [DecidableEq υ] {t : Table α} {a x : α} (h : x ∈ t.rows) :
    x ∈ (t.insert a).rows := by
  unfold insert
  split
  · exact List.mem_append_left _ h
  · exact h

/-- An update leaves the keys. -/
theorem keys_update (t : Table α) (k : Nat) (f : α → α) (hk : ∀ r, key (f r) = key r) (hu) :
    (t.update k f hk hu).rows.map key = t.rows.map key := by
  rw [rows_update, List.map_map]
  refine List.map_congr_left fun r _ => ?_
  simp only [Function.comp]
  split
  · exact hk r
  · rfl

theorem keys_rewrite [DecidableEq υ] (t : Table α) (k : Nat) (f : α → α)
    (hk : ∀ r, key (f r) = key r) : (t.rewrite k f hk).rows.map key = t.rows.map key := by
  unfold rewrite
  split
  · simp only [List.map_map]
    refine List.map_congr_left fun r _ => ?_
    simp only [Function.comp]
    split
    · exact hk r
    · rfl
  · rfl

/-- A row that was inserted and deleted again leaves no trace. -/
theorem delete_insert [DecidableEq υ] {t : Table α} {a : α} (ha : t.Accepts a) :
    (t.insert a).delete t.nextKey = t := by
  ext1
  rw [rows_delete, rows_insert ha, List.filter_append]
  have hne : ∀ r ∈ t.rows, key r ≠ t.nextKey := fun r hr => (t.key_lt_nextKey hr).ne
  simpa [key_setKey] using hne

/-! ## A row put in its place -/

section put
variable {t : Table α} {o r : α}

/-- The new row may stand in the place of the old one. -/
def Replaces (r o : α) : Prop := key r = key o ∧ unique r = unique o

theorem Replaces.refl (o : α) : Replaces o o := ⟨rfl, rfl⟩

/-- A table around the row with a given key: no other row has this key. -/
theorem rows_split {k : Nat} (h : t.get k = some o) :
    ∃ l₁ l₂, t.rows = l₁ ++ o :: l₂ ∧ (∀ x ∈ l₁, key x ≠ k) ∧ ∀ x ∈ l₂, key x ≠ k := by
  obtain ⟨ho, rfl⟩ := t.get_eq_some.mp h
  obtain ⟨l₁, l₂, hl⟩ := List.append_of_mem ho
  have hn := t.keys
  rw [hl, List.map_append, List.map_cons, List.nodup_append, List.nodup_cons] at hn
  obtain ⟨_, ⟨h2, _⟩, h3⟩ := hn
  refine ⟨l₁, l₂, hl, ?_, ?_⟩
  · intro x hx he
    exact h3 _ (List.mem_map_of_mem hx) _ (by simp) he
  · intro x hx he
    exact h2 (he ▸ List.mem_map_of_mem hx)

theorem map_away (f : α → α) {k : Nat} {l : List α} (h : ∀ x ∈ l, key x ≠ k)
    (hf : ∀ x, key x ≠ k → f x = x) : l.map f = l := by
  conv_rhs => rw [← List.map_id l]
  exact List.map_congr_left fun x hx => hf x (h x hx)

variable [DecidableEq υ]

/-- The one place that `put` writes to. -/
theorem rows_put (h : t.get (key o) = some o) (hr : Replaces r o) :
    ∃ l₁ l₂, t.rows = l₁ ++ o :: l₂ ∧ (t.put r).rows = l₁ ++ r :: l₂ ∧
      (∀ x ∈ l₁, key x ≠ key o) ∧ ∀ x ∈ l₂, key x ≠ key o := by
  obtain ⟨l₁, l₂, hl, h1, h2⟩ := rows_split h
  have hf : ∀ x, key x ≠ key o →
      (if key x = key r ∧ unique x = unique r then r else x) = x := by
    intro x hx
    rw [if_neg (fun hc => hx (hc.1.trans hr.1))]
  refine ⟨l₁, l₂, hl, ?_, h1, h2⟩
  simp only [put, hl, List.map_append, List.map_cons]
  rw [map_away _ h1 hf, map_away _ h2 hf, if_pos ⟨hr.1.symm, hr.2.symm⟩]

/-- An update of one row puts the rewritten row in its place. -/
theorem update_eq_put {k : Nat} {f : α → α} (hk hu) (h : t.get k = some o) (hf : f o = r) :
    t.update k f hk hu = t.put r := by
  obtain ⟨ho, rfl⟩ := t.get_eq_some.mp h
  have hr : Replaces r o := ⟨hf ▸ hk o, hf ▸ hu o⟩
  obtain ⟨l₁, l₂, hl, hp, h1, h2⟩ := rows_put h hr
  ext1
  have hg : ∀ x, key x ≠ key o → (if key x = key o then f x else x) = x :=
    fun x hx => if_neg hx
  rw [hp, rows_update, hl, List.map_append, List.map_cons, map_away _ h1 hg, map_away _ h2 hg,
    if_pos rfl, hf]

theorem get_put_self (h : t.get (key o) = some o) (hr : Replaces r o) :
    (t.put r).get (key r) = some r := by
  obtain ⟨l₁, l₂, -, hp, -, -⟩ := rows_put h hr
  rw [get_eq_some, hp]
  exact ⟨by simp, rfl⟩

theorem mem_put (h : t.get (key o) = some o) (hr : Replaces r o) {x : α} :
    x ∈ (t.put r).rows ↔ x = r ∨ x ∈ t.rows ∧ key x ≠ key o := by
  obtain ⟨l₁, l₂, hl, hp, h1, h2⟩ := rows_put h hr
  rw [hp, hl]
  simp only [List.mem_append, List.mem_cons]
  constructor
  · rintro (hx | rfl | hx)
    · exact .inr ⟨.inl hx, h1 x hx⟩
    · exact .inl rfl
    · exact .inr ⟨.inr (.inr hx), h2 x hx⟩
  · rintro (rfl | ⟨hx | rfl | hx, hn⟩)
    · exact .inr (.inl rfl)
    · exact .inl hx
    · exact absurd rfl hn
    · exact .inr (.inr hx)

theorem get_put_ne (h : t.get (key o) = some o) (hr : Replaces r o) {k : Nat} (hk : k ≠ key o) :
    (t.put r).get k = t.get k := by
  obtain ⟨l₁, l₂, hl, hp, h1, h2⟩ := rows_put h hr
  unfold get
  rw [hp, hl, List.find?_append, List.find?_append, List.find?_cons_of_neg, List.find?_cons_of_neg]
  · simpa using hk.symm
  · simpa [hr.1] using hk.symm

theorem put_self (h : t.get (key o) = some o) : t.put o = t := by
  obtain ⟨l₁, l₂, hl, hp, -, -⟩ := rows_put h (Replaces.refl o)
  ext1
  rw [hp, hl]

theorem put_put {q : α} (hq : Replaces q r) : (t.put r).put q = t.put q := by
  ext1
  simp only [put, List.map_map]
  refine List.map_congr_left fun x _ => ?_
  simp only [Function.comp]
  by_cases hx : key x = key r ∧ unique x = unique r
  · rw [if_pos hx, if_pos ⟨hq.1.symm, hq.2.symm⟩,
      if_pos ⟨hx.1.trans hq.1.symm, hx.2.trans hq.2.symm⟩]
  · rw [if_neg hx]

/-- A row put in the place of the row inserted last. -/
theorem put_insert {a b : α} (ha : t.Accepts a) (hb : t.Accepts b) (hu : unique b = unique a) :
    (t.insert a).put (setKey b t.nextKey) = t.insert b := by
  ext1
  have hold : ∀ x ∈ t.rows,
      (if key x = key (setKey b t.nextKey) ∧ unique x = unique (setKey b t.nextKey) then
        setKey b t.nextKey else x) = x := by
    intro x hx
    have hne := (t.key_lt_nextKey hx).ne
    rw [if_neg]
    rw [key_setKey]
    exact fun h => hne h.1
  simp only [put, rows_insert ha, rows_insert hb, List.map_append, List.map_cons, List.map_nil]
  rw [if_pos ⟨by rw [key_setKey, key_setKey], by rw [unique_setKey, unique_setKey, hu]⟩]
  congr 1
  conv_rhs => rw [← List.map_id t.rows]
  exact List.map_congr_left hold

/-- The first row that a query selects stays the first one when the query
selects its new form as well. -/
theorem first_put {p : α → Bool} (h : t.first p = some o) (hr : Replaces r o) (hp : p r = true) :
    (t.put r).first p = some r := by
  have ho := first_mem h
  obtain ⟨l₁, l₂, hl, hput, h1, h2⟩ := rows_put (t.get_eq_some.mpr ⟨ho.1, rfl⟩) hr
  unfold first at h ⊢
  rw [hl, List.find?_append] at h
  have hn : l₁.find? p = none := by
    cases hf : l₁.find? p with
    | none => rfl
    | some x =>
      rw [hf, Option.some_or] at h
      cases h
      exact absurd rfl (h1 o (List.mem_of_find?_eq_some hf))
  rw [hput, List.find?_append, hn, Option.none_or, List.find?_cons_of_pos hp]

/-- A query that selects neither the old row nor the new one. -/
theorem first_put_of_not {p : α → Bool} (h : t.get (key o) = some o) (hr : Replaces r o)
    (ho : ¬p o = true) (hp : ¬p r = true) : (t.put r).first p = t.first p := by
  obtain ⟨l₁, l₂, hl, hput, -, -⟩ := rows_put h hr
  unfold first
  rw [hput, hl, List.find?_append, List.find?_append, List.find?_cons_of_neg hp,
    List.find?_cons_of_neg ho]

/-- A count changes by what the new row adds and the old row took. -/
theorem count_put (h : t.get (key o) = some o) (hr : Replaces r o) (p : α → Bool) :
    (t.put r).count p + (if p o then 1 else 0) = t.count p + (if p r then 1 else 0) := by
  obtain ⟨l₁, l₂, hl, hp, -, -⟩ := rows_put h hr
  unfold count
  rw [hp, hl]
  simp only [List.countP_append, List.countP_cons]
  omega

end put

/-! ## Counts of an inserted row -/

theorem count_insert [DecidableEq υ] {t : Table α} {a : α} (h : t.Accepts a) (p : α → Bool) :
    (t.insert a).count p = t.count p + if p (setKey a t.nextKey) then 1 else 0 := by
  unfold count
  rw [rows_insert h, List.countP_append, List.countP_singleton]

/-- A query that selects one key only selects one row at most. -/
theorem count_le_one {t : Table α} {p : α → Bool} {k : Nat}
    (h : ∀ r ∈ t.rows, p r = true → key r = k) : t.count p ≤ 1 := by
  have hkeys := List.nodup_iff_count_le_one.mp t.keys k
  rw [List.count, List.countP_map] at hkeys
  refine le_trans (List.countP_mono_left fun r hr hp => ?_) hkeys
  simpa using h r hr hp

theorem count_le_count {t : Table α} {p q : α → Bool} (h : ∀ r ∈ t.rows, p r = true → q r = true) :
    t.count p ≤ t.count q := List.countP_mono_left h

end Table
end keyed_table
