-- Law of the usage metadata of a Codex account: `merge_codex_usage_metadata`
-- builds new dictionaries beside the old ones, and the counters in them are
-- the sums over the runs.
import DrBoz.AccountSelection
import DrBoz.AmountTexts

open dr_boz.account_selection (coerce_int)
open dr_boz.amount_texts (MAX_STR_DIGITS)
open dr_boz.cli_lines dr_boz.decimals dr_boz.py

namespace dr_boz.usage_metadata

/-! ## Dictionaries in memory -/

/-- A value is data, or the address of a dictionary. -/
inductive Val where
  | data (value : JsonValue)
  | ref (address : Nat)

abbrev Object := List (String × Val)

/-- The dictionaries, in the order in which they were made. -/
abbrev Heap := List Object

/-- `o.get(key)` -/
def item : Object → String → Val
  | [], _ => .data .null
  | (name, value) :: rest, key => if name = key then value else item rest key

/-- `o[key] = value` -/
def set_item : Object → String → Val → Object
  | [], key, value => [(key, value)]
  | (name, old) :: rest, key, value =>
    if name = key then (key, value) :: rest else (name, old) :: set_item rest key value

def get_at (h : Heap) (address : Nat) (key : String) : Val := item (h.getD address []) key

def set_at (h : Heap) (address : Nat) (key : String) (value : Val) : Heap :=
  h.set address (set_item (h.getD address []) key value)

/-- A new dictionary with the items. -/
def new_dict (h : Heap) (items : Object) : Nat × Heap := (h.length, h ++ [items])

/-- `dict(value or {})`. The function writes no other values there than dictionaries. -/
def dict_of (h : Heap) : Val → Except PyError (Nat × Heap)
  | .ref address => .ok (new_dict h (h.getD address []))
  | .data value => if value.truthy then .error .type_error else .ok (new_dict h [])

/-! ## The function -/

/-- `int()` refuses a text with too many digits. -/
def _coerce_int : Val → Except PyError Int
  | .data (.str text) =>
    if MAX_STR_DIGITS < (text.toList.filter is_decimal).length then .ok 0
    else coerce_int (.str text)
  | .data value => coerce_int value
  | .ref _ => .ok 0

def token_keys : List String :=
  ["input_tokens", "cached_input_tokens", "output_tokens", "reasoning_output_tokens",
    "total_tokens"]

/-- `o[key] = _coerce_int(o.get(key)) + n` -/
def bump (h : Heap) (address : Nat) (key : String) (n : Int) : Except PyError Heap := do
  let old ← _coerce_int (get_at h address key)
  return set_at h address key (.data (.int (old + n)))

/-- The usage of a run, its model, and the time at which it is merged. -/
structure Run where
  run_usage : Fields
  model_name : String
  at_time : String

def Run.count (run : Run) (key : String) : Except PyError Int :=
  _coerce_int (.data (run.run_usage.get key .null))

/-- One turn of the loop over the keys. -/
def add_tokens (run : Run) (usage model_usage : Nat) (h : Heap) (key : String) :
    Except PyError Heap := do
  let value ← run.count key
  let h ← bump h usage key value
  bump h model_usage key value

def merge_codex_usage_metadata (h : Heap) (metadata : Val) (run : Run) :
    Except PyError (Nat × Heap) := do
  let (next_metadata, h) ← dict_of h metadata
  let (usage, h) ← dict_of h (get_at h next_metadata "usage")
  let (by_model, h) ← dict_of h (get_at h usage "by_model")
  let (model_usage, h) ← dict_of h (get_at h by_model run.model_name)
  let h ← bump h usage "request_count" 1
  let h ← bump h model_usage "request_count" 1
  let h ← token_keys.foldlM (add_tokens run usage model_usage) h
  let counts ← token_keys.mapM run.count
  let (last_run, h) := new_dict h ([("model", .data (.str run.model_name)),
    ("at", .data (.str run.at_time))] ++ token_keys.zip (counts.map fun n => .data (.int n)))
  let h := set_at h usage "last_run" (.ref last_run)
  let h := set_at h by_model run.model_name (.ref model_usage)
  let h := set_at h usage "by_model" (.ref by_model)
  let h := set_at h next_metadata "usage" (.ref usage)
  return (next_metadata, h)

/-- A call takes what the last one returned. -/
def merge_next (last : Val × Heap) (run : Run) : Except PyError (Val × Heap) := do
  let (next_metadata, h) ← merge_codex_usage_metadata last.2 last.1 run
  return (.ref next_metadata, h)

def merge_all (h : Heap) (metadata : Val) (runs : List Run) : Except PyError (Val × Heap) :=
  runs.foldlM merge_next (metadata, h)

/-! ## What the metadata are to say -/

/-- The dictionary that a value is. -/
def object_of (h : Heap) : Val → Object
  | .ref address => h.getD address []
  | .data _ => []

def number : Val → Int
  | .data (.int n) => n
  | _ => 0

def usage_of (h : Heap) (metadata : Val) : Object :=
  object_of h (item (object_of h metadata) "usage")

def by_model_of (h : Heap) (metadata : Val) : Object :=
  object_of h (item (usage_of h metadata) "by_model")

def model_counter (h : Heap) (key : String) (model : Val) : Int :=
  number (item (object_of h model) key)

/-- What a run adds to a counter. -/
def Run.adds (run : Run) (key : String) : Int :=
  if key = "request_count" then 1 else ((run.count key).toOption).getD 0

def COUNTERS : List String := "request_count" :: token_keys

/-- The counters of the metadata are those of the runs. A counter that is missing is 0. -/
structure Consistent (h : Heap) (metadata : Val) (runs : List Run) : Prop where
  over_runs : ∀ key ∈ token_keys,
    number (item (usage_of h metadata) key) = (runs.map fun run => run.adds key).sum
  over_models : ∀ key ∈ token_keys, number (item (usage_of h metadata) key) =
    ((by_model_of h metadata).map fun entry => model_counter h key entry.2).sum
  requests : number (item (usage_of h metadata) "request_count") = runs.length
  requests_of : ∀ name,
    model_counter h "request_count" (item (by_model_of h metadata) name) =
      ((runs.filter fun run => run.model_name = name).length : Int)

/-- All calls return. The metadata are consistent, and no call changes a dictionary that was
there before it. -/
structure MergesWell (h : Heap) (metadata : Val) (runs : List Run) : Prop where
  consistent : ∃ metadata' h', merge_all h metadata runs = .ok (metadata', h') ∧
    Consistent h' metadata' runs
  unmodified : ∀ before run after, runs = before ++ run :: after →
    ∃ given h' next h'', merge_all h metadata before = .ok (given, h') ∧
      merge_codex_usage_metadata h' given run = .ok (next, h'') ∧ h' <+: h''

/-- `None` or an empty dictionary -/
def Empty (h : Heap) (metadata : Val) : Prop :=
  metadata = .data .null ∨ ∃ address, metadata = .ref address ∧ h[address]? = some []

/-- No counter of the run is infinite. -/
def Run.Finite (run : Run) : Prop :=
  ∀ key ∈ token_keys, run.run_usage.get key .null ≠ .infinity ∧
    run.run_usage.get key .null ≠ .minus_infinity

/-! ## Items -/

section
variable {o : Object} {key other : String} {value : Val}

@[simp] theorem item_set_item (o : Object) (key : String) (value : Val) :
    item (set_item o key value) key = value := by
  induction o with
  | nil => exact if_pos rfl
  | cons entry rest ih =>
    unfold set_item
    by_cases hname : entry.1 = key
    · rw [if_pos hname]
      exact if_pos rfl
    · rw [if_neg hname]
      unfold item
      rw [if_neg hname, ih]

theorem item_set_item_ne (h : key ≠ other) : item (set_item o key value) other = item o other := by
  induction o with
  | nil => exact if_neg h
  | cons entry rest ih =>
    unfold set_item
    by_cases hname : entry.1 = key
    · rw [if_pos hname]
      unfold item
      rw [if_neg h, if_neg (hname ▸ h)]
    · rw [if_neg hname]
      unfold item
      rw [ih]

theorem mem_set_item {entry : String × Val} (h : entry ∈ set_item o key value) :
    entry ∈ o ∨ entry = (key, value) := by
  induction o with
  | nil => exact .inr (List.mem_singleton.mp h)
  | cons first rest ih =>
    unfold set_item at h
    split at h
    · rcases List.mem_cons.mp h with hfirst | hrest
      · exact .inr hfirst
      · exact .inl (List.mem_cons_of_mem _ hrest)
    · rcases List.mem_cons.mp h with hfirst | hrest
      · exact .inl (hfirst ▸ List.mem_cons_self)
      · exact (ih hrest).imp_left (List.mem_cons_of_mem _)

/-- An item that is not there is `None`. -/
theorem item_cases (o : Object) (key : String) :
    item o key = .data .null ∨ ∃ entry ∈ o, item o key = entry.2 := by
  induction o with
  | nil => exact .inl rfl
  | cons first rest ih =>
    unfold item
    split
    · exact .inr ⟨first, List.mem_cons_self, rfl⟩
    · exact ih.imp_right fun ⟨entry, hentry, hitem⟩ =>
        ⟨entry, List.mem_cons_of_mem _ hentry, hitem⟩

/-- A sum over the items changes by the one that is set. -/
theorem sum_set_item {f : Val → Int} (hf : f (.data .null) = 0) (o : Object) (key : String)
    (value : Val) : ((set_item o key value).map fun entry => f entry.2).sum =
      (o.map fun entry => f entry.2).sum + (f value - f (item o key)) := by
  induction o with
  | nil =>
    simp only [set_item, item, List.map_cons, List.map_nil, List.sum_cons, List.sum_nil, hf]
    omega
  | cons first rest ih =>
    unfold set_item item
    split
    · simp only [List.map_cons, List.sum_cons]
      omega
    · simp only [List.map_cons, List.sum_cons, ih]
      omega

end

/-! ## Counters -/

/-- A counter that is written by the function, or is missing. -/
def IsCount (value : Val) : Prop := value = .data .null ∨ ∃ n, value = .data (.int n)

theorem coerce_of_isCount {value : Val} (h : IsCount value) :
    _coerce_int value = .ok (number value) := by
  rcases h with rfl | ⟨n, rfl⟩ <;> rfl

def bumped (n : String → Int) (o : Object) (key : String) : Object :=
  set_item o key (.data (.int (number (item o key) + n key)))

section
variable {n : String → Int} {o : Object} {key : String} {keys : List String}

theorem isCount_bumped (h : IsCount (item o key)) (other : String) :
    IsCount (item (bumped n o other) key) := by
  by_cases hkey : other = key
  · subst hkey
    rw [bumped, item_set_item]
    exact .inr ⟨_, rfl⟩
  · rw [bumped, item_set_item_ne hkey]
    exact h

theorem item_bumped_of_not_mem (h : key ∉ keys) :
    item (keys.foldl (bumped n) o) key = item o key := by
  induction keys generalizing o with
  | nil => rfl
  | cons first rest ih =>
    rw [List.mem_cons, not_or] at h
    rw [List.foldl_cons, ih h.2, bumped, item_set_item_ne (Ne.symm h.1)]

theorem item_bumped_of_mem (hnodup : keys.Nodup) (h : key ∈ keys) :
    item (keys.foldl (bumped n) o) key = .data (.int (number (item o key) + n key)) := by
  induction keys generalizing o with
  | nil => cases h
  | cons first rest ih =>
    obtain ⟨hfirst, hrest⟩ := List.nodup_cons.mp hnodup
    rw [List.foldl_cons]
    rcases List.mem_cons.mp h with rfl | hmem
    · rw [item_bumped_of_not_mem hfirst, bumped, item_set_item]
    · have hne : first ≠ key := fun he => hfirst (he ▸ hmem)
      rw [ih hrest hmem, bumped, item_set_item_ne hne]

end

/-! ## The counters of a run -/

section
variable {run : Run} {key : String}

theorem count_ok_iff : (∃ n, run.count key = .ok n) ↔ run.run_usage.get key .null ≠ .infinity ∧
    run.run_usage.get key .null ≠ .minus_infinity := by
  unfold Run.count
  cases run.run_usage.get key .null with
  | infinity | minus_infinity => simp [_coerce_int, coerce_int]
  | str text =>
    refine iff_of_true ?_ (by simp)
    simp only [_coerce_int]
    split
    · exact ⟨0, rfl⟩
    · exact ⟨_, rfl⟩
  | null | nan | bool _ | int _ | float _ | list _ | dict _ =>
    simp [_coerce_int, coerce_int]

theorem count_eq_adds (hfinite : run.Finite) (h : key ∈ token_keys) :
    run.count key = .ok (run.adds key) := by
  obtain ⟨n, hn⟩ := count_ok_iff.mpr (hfinite key h)
  have hne : key ≠ "request_count" := fun he => absurd (he ▸ h) (by decide)
  unfold Run.adds
  rw [if_neg hne, hn]
  rfl

end

/-! ## One call -/

/-- `None`, or a dictionary that is there. -/
def Valid (h : Heap) (value : Val) : Prop :=
  value = .data .null ∨ ∃ address, value = .ref address ∧ address < h.length

section
variable {h new : Heap} {value : Val}

theorem Valid.append (hvalid : Valid h value) (new : Heap) : Valid (h ++ new) value := by
  refine hvalid.imp_right fun ⟨address, haddress, hlt⟩ => ⟨address, haddress, ?_⟩
  rw [List.length_append]
  omega

/-- New dictionaries leave the old ones. -/
theorem object_of_append (hvalid : Valid h value) (new : Heap) :
    object_of (h ++ new) value = object_of h value := by
  rcases hvalid with rfl | ⟨address, rfl, hlt⟩
  · rfl
  · unfold object_of
    simp only [List.getD_eq_getElem?_getD, List.getElem?_append_left hlt]

theorem dict_of_eq (hvalid : Valid h value) : dict_of h value =
    .ok (h.length, h ++ [object_of h value]) := by
  rcases hvalid with rfl | ⟨address, rfl, hlt⟩ <;> rfl

theorem dict_of_new (hvalid : Valid h value) (new : Heap) : dict_of (h ++ new) value =
    .ok (h.length + new.length, h ++ (new ++ [object_of h value])) := by
  rw [dict_of_eq (hvalid.append new), object_of_append hvalid, List.length_append,
    List.append_assoc]

theorem getD_new (h new : Heap) (i : Nat) :
    (h ++ new).getD (h.length + i) [] = new.getD i [] := by
  simp only [List.getD_eq_getElem?_getD, List.getElem?_append_right (Nat.le_add_right _ _),
    Nat.add_sub_cancel_left]

theorem get_at_new (h new : Heap) (i : Nat) (key : String) :
    get_at (h ++ new) (h.length + i) key = item (new.getD i []) key := by
  unfold get_at
  rw [getD_new]

theorem set_at_new (h new : Heap) (i : Nat) (key : String) (value : Val) :
    set_at (h ++ new) (h.length + i) key value =
      h ++ new.set i (set_item (new.getD i []) key value) := by
  unfold set_at
  rw [getD_new, List.set_append_right _ _ (Nat.le_add_right _ _), Nat.add_sub_cancel_left]

theorem bump_new {i : Nat} {key : String} (n : String → Int)
    (hcount : IsCount (item (new.getD i []) key)) :
    bump (h ++ new) (h.length + i) key (n key) =
      .ok (h ++ new.set i (bumped n (new.getD i []) key)) := by
  unfold bump
  rw [get_at_new, coerce_of_isCount hcount]
  exact congrArg Except.ok (set_at_new h new i key _)

end

/-- The counters of a dictionary are numbers, or missing. -/
def Counting (o : Object) : Prop := ∀ key ∈ COUNTERS, IsCount (item o key)

def raised (run : Run) (o : Object) : Object := COUNTERS.foldl (bumped run.adds) o

section
variable {run : Run} {o : Object} {key : String}

theorem Counting.bumped (hcounting : Counting o) (n : String → Int) (other : String) :
    Counting (bumped n o other) := fun key hkey => isCount_bumped (hcounting key hkey) other

theorem item_raised (hkey : key ∈ COUNTERS) :
    item (raised run o) key = .data (.int (number (item o key) + run.adds key)) :=
  item_bumped_of_mem (by decide) hkey

theorem counting_raised (run : Run) (o : Object) : Counting (raised run o) :=
  fun _ hkey => .inr ⟨_, item_raised hkey⟩

/-- The loop over the keys raises the counters of the usage and of the model. -/
theorem add_tokens_all (hfinite : run.Finite) (h : Heap) (a b : Object) {keys : List String}
    (hkeys : ∀ key ∈ keys, key ∈ token_keys) {u m : Object} (hu : Counting u) (hm : Counting m) :
    keys.foldlM (add_tokens run (h.length + 1) (h.length + 3)) (h ++ [a, u, b, m]) =
      .ok (h ++ [a, keys.foldl (bumped run.adds) u, b, keys.foldl (bumped run.adds) m]) := by
  induction keys generalizing u m with
  | nil => rfl
  | cons key keys ih =>
    obtain ⟨hkey, hrest⟩ := List.forall_mem_cons.mp hkeys
    have hcounter : key ∈ COUNTERS := List.mem_cons_of_mem _ hkey
    have hturn : add_tokens run (h.length + 1) (h.length + 3) (h ++ [a, u, b, m]) key =
        .ok (h ++ [a, bumped run.adds u key, b, bumped run.adds m key]) := by
      unfold add_tokens
      rw [count_eq_adds hfinite hkey]
      change bump (h ++ [a, u, b, m]) (h.length + 1) key (run.adds key) >>= _ = _
      rw [@bump_new h [a, u, b, m] 1 key run.adds (hu key hcounter)]
      change bump (h ++ [a, bumped run.adds u key, b, m]) (h.length + 3) key (run.adds key) = _
      rw [@bump_new h [a, bumped run.adds u key, b, m] 3 key run.adds (hm key hcounter)]
      rfl
    rw [List.foldlM_cons, hturn]
    exact ih hrest (hu.bumped _ key) (hm.bumped _ key)

theorem count_mapM (hfinite : run.Finite) {keys : List String}
    (hkeys : ∀ key ∈ keys, key ∈ token_keys) :
    keys.mapM run.count = .ok (keys.map run.adds) := by
  induction keys with
  | nil => rfl
  | cons key keys ih =>
    obtain ⟨hkey, hrest⟩ := List.forall_mem_cons.mp hkeys
    rw [List.mapM_cons, count_eq_adds hfinite hkey, ih hrest]
    rfl

/-- The references between the new dictionaries. -/
theorem references_eq (h : Heap) (a u b m last_run : Object) (name : String) :
    set_at (set_at (set_at (set_at (h ++ [a, u, b, m] ++ [last_run]) (h.length + 1) "last_run"
      (.ref (h.length + 4))) (h.length + 2) name (.ref (h.length + 3))) (h.length + 1) "by_model"
      (.ref (h.length + 2))) h.length "usage" (.ref (h.length + 1)) =
    h ++ [set_item a "usage" (.ref (h.length + 1)),
      set_item (set_item u "last_run" (.ref (h.length + 4))) "by_model" (.ref (h.length + 2)),
      set_item b name (.ref (h.length + 3)), m, last_run] := by
  have hset : ∀ (new : Heap) (key : String) (value : Val), set_at (h ++ new) h.length key value =
      h ++ new.set 0 (set_item (new.getD 0 []) key value) := fun new => set_at_new h new 0
  rw [List.append_assoc, set_at_new, set_at_new, set_at_new, hset]
  rfl

/-- What is kept of the last run. -/
def last_run_of (run : Run) : Object :=
  [("model", .data (.str run.model_name)), ("at", .data (.str run.at_time))] ++
    token_keys.zip ((token_keys.map run.adds).map fun n => .data (.int n))

/-- The call of a run that is finite: five dictionaries behind the old ones. -/
theorem merge_eq (hfinite : run.Finite) {h : Heap} {metadata : Val} (hmetadata : Valid h metadata)
    (husage : Valid h (item (object_of h metadata) "usage"))
    (hmodels : Valid h (item (usage_of h metadata) "by_model"))
    (hmodel : Valid h (item (by_model_of h metadata) run.model_name))
    (hu : Counting (usage_of h metadata))
    (hm : Counting (object_of h (item (by_model_of h metadata) run.model_name))) :
    merge_codex_usage_metadata h metadata run = .ok (h.length, h ++
      [set_item (object_of h metadata) "usage" (.ref (h.length + 1)),
        set_item (set_item (raised run (usage_of h metadata)) "last_run" (.ref (h.length + 4)))
          "by_model" (.ref (h.length + 2)),
        set_item (by_model_of h metadata) run.model_name (.ref (h.length + 3)),
        raised run (object_of h (item (by_model_of h metadata) run.model_name)),
        last_run_of run]) := by
  generalize hA : object_of h metadata = A at husage
  generalize hU : usage_of h metadata = U at hmodels hu
  generalize hB : by_model_of h metadata = B at hmodel hm
  generalize hM : object_of h (item B run.model_name) = M at hm
  have hU' : object_of h (item A "usage") = U := by rw [← hU, ← hA]; rfl
  have hB' : object_of h (item U "by_model") = B := by rw [← hB, ← hU]; rfl
  have hcount : "request_count" ∈ COUNTERS := List.mem_cons_self
  have hone : run.adds "request_count" = 1 := if_pos rfl
  have hdict1 : dict_of (h ++ [A]) (get_at (h ++ [A]) h.length "usage") =
      .ok (h.length + 1, h ++ [A, U]) := by
    have hget : get_at (h ++ [A]) h.length "usage" = item A "usage" := get_at_new h [A] 0 _
    rw [hget, ← hU']
    exact dict_of_new husage [A]
  have hdict2 : dict_of (h ++ [A, U]) (get_at (h ++ [A, U]) (h.length + 1) "by_model") =
      .ok (h.length + 2, h ++ [A, U, B]) := by
    rw [get_at_new h [A, U] 1, ← hB']
    exact dict_of_new hmodels [A, U]
  have hdict3 : dict_of (h ++ [A, U, B]) (get_at (h ++ [A, U, B]) (h.length + 2) run.model_name) =
      .ok (h.length + 3, h ++ [A, U, B, M]) := by
    rw [get_at_new h [A, U, B] 2, ← hM]
    exact dict_of_new hmodel [A, U, B]
  have hbump1 : bump (h ++ [A, U, B, M]) (h.length + 1) "request_count" 1 =
      .ok (h ++ [A, bumped run.adds U "request_count", B, M]) := by
    rw [← hone]
    exact @bump_new h [A, U, B, M] 1 _ run.adds (hu _ hcount)
  have hbump2 : bump (h ++ [A, bumped run.adds U "request_count", B, M]) (h.length + 3)
      "request_count" 1 = .ok (h ++ [A, bumped run.adds U "request_count", B,
        bumped run.adds M "request_count"]) := by
    rw [← hone]
    exact @bump_new h [A, bumped run.adds U "request_count", B, M] 3 _ run.adds (hm _ hcount)
  have hloop := add_tokens_all hfinite h A B (fun key hkey => hkey)
    (hu.bumped run.adds "request_count") (hm.bumped run.adds "request_count")
  have hcounts : token_keys.mapM run.count = .ok (token_keys.map run.adds) :=
    count_mapM hfinite fun key hkey => hkey
  unfold merge_codex_usage_metadata
  rw [dict_of_eq hmetadata, hA]
  simp only [bind, Except.bind, hdict1, hdict2, hdict3, hbump1, hbump2, hloop, hcounts, new_dict]
  rw [List.length_append]
  exact congrArg (fun memory => Except.ok (h.length, memory)) (references_eq h A _ B _ _ _)

/-- A call that returns is the one of a run that is finite. -/
theorem finite_of_merge {h : Heap} {metadata : Val} {result : Nat × Heap}
    (hmerge : merge_codex_usage_metadata h metadata run = .ok result) : run.Finite := by
  unfold merge_codex_usage_metadata at hmerge
  obtain ⟨_, -, hmerge⟩ := of_bind_ok hmerge
  obtain ⟨_, -, hmerge⟩ := of_bind_ok hmerge
  obtain ⟨_, -, hmerge⟩ := of_bind_ok hmerge
  obtain ⟨_, -, hmerge⟩ := of_bind_ok hmerge
  obtain ⟨_, -, hmerge⟩ := of_bind_ok hmerge
  obtain ⟨_, -, hmerge⟩ := of_bind_ok hmerge
  obtain ⟨_, -, hmerge⟩ := of_bind_ok hmerge
  obtain ⟨counts, hcounts, -⟩ := of_bind_ok hmerge
  have hall : ∀ (keys : List String) (counts : List Int), keys.mapM run.count = .ok counts →
      ∀ key ∈ keys, ∃ n, run.count key = .ok n := by
    intro keys
    induction keys with
    | nil => exact fun _ _ key hkey => absurd hkey List.not_mem_nil
    | cons first keys ih =>
      intro counts hcounts
      rw [List.mapM_cons] at hcounts
      obtain ⟨n, hn, hcounts⟩ := of_bind_ok hcounts
      obtain ⟨rest, hrest, -⟩ := of_bind_ok hcounts
      exact List.forall_mem_cons.mpr ⟨⟨n, hn⟩, ih rest hrest⟩
  exact fun key hkey => count_ok_iff.mp (hall token_keys counts hcounts key hkey)

end

/-! ## All calls -/

/-- The invariant of the calls: what `Consistent` says of the counters, for the number of the
requests too, and that all is as the function writes it. -/
structure Kept (h : Heap) (metadata : Val) (runs : List Run) : Prop where
  valid : Valid h metadata
  usage_valid : Valid h (item (object_of h metadata) "usage")
  by_model_valid : Valid h (item (usage_of h metadata) "by_model")
  models_valid : ∀ entry ∈ by_model_of h metadata, Valid h entry.2
  counting : Counting (usage_of h metadata)
  models_counting : ∀ entry ∈ by_model_of h metadata, Counting (object_of h entry.2)
  over_runs : ∀ key ∈ COUNTERS,
    number (item (usage_of h metadata) key) = (runs.map fun run => run.adds key).sum
  over_models : ∀ key ∈ COUNTERS,
    ((by_model_of h metadata).map fun entry => model_counter h key entry.2).sum =
      (runs.map fun run => run.adds key).sum
  of_model : ∀ key ∈ COUNTERS, ∀ name, model_counter h key (item (by_model_of h metadata) name) =
    ((runs.filter fun run => run.model_name = name).map fun run => run.adds key).sum

section
variable {h : Heap} {metadata : Val} {runs : List Run} {run : Run}

theorem counting_nil : Counting [] := fun _ _ => .inl rfl

theorem kept_of_empty (hempty : Empty h metadata) : Kept h metadata [] := by
  have hobject : object_of h metadata = [] ∧ Valid h metadata := by
    rcases hempty with rfl | ⟨address, rfl, hobject⟩
    · exact ⟨rfl, .inl rfl⟩
    · obtain ⟨hlt, -⟩ := List.getElem?_eq_some_iff.mp hobject
      refine ⟨?_, .inr ⟨address, rfl, hlt⟩⟩
      change h.getD address [] = []
      rw [List.getD_eq_getElem?_getD, hobject]
      rfl
  have husage : usage_of h metadata = [] := by
    unfold usage_of
    rw [hobject.1]
    rfl
  have hmodels : by_model_of h metadata = [] := by
    unfold by_model_of
    rw [husage]
    rfl
  refine ⟨hobject.2, ?_, ?_, ?_, ?_, ?_, ?_, ?_, ?_⟩
  · rw [hobject.1]
    exact .inl rfl
  · rw [husage]
    exact .inl rfl
  · rw [hmodels]
    exact fun entry hentry => absurd hentry List.not_mem_nil
  · rw [husage]
    exact counting_nil
  · rw [hmodels]
    exact fun entry hentry => absurd hentry List.not_mem_nil
  · rw [husage]
    exact fun key _ => rfl
  · rw [hmodels]
    exact fun key _ => rfl
  · rw [hmodels]
    exact fun key _ name => rfl

theorem Kept.model_valid (hkept : Kept h metadata runs) (name : String) :
    Valid h (item (by_model_of h metadata) name) := by
  rcases item_cases (by_model_of h metadata) name with hnone | ⟨entry, hentry, hitem⟩
  · exact .inl hnone
  · rw [hitem]
    exact hkept.models_valid entry hentry

theorem Kept.model_counting (hkept : Kept h metadata runs) (name : String) :
    Counting (object_of h (item (by_model_of h metadata) name)) := by
  rcases item_cases (by_model_of h metadata) name with hnone | ⟨entry, hentry, hitem⟩
  · rw [hnone]
    exact counting_nil
  · rw [hitem]
    exact hkept.models_counting entry hentry

theorem model_counter_append (hvalid : Valid h metadata) (new : Heap) (key : String) :
    model_counter (h ++ new) key metadata = model_counter h key metadata := by
  unfold model_counter
  rw [object_of_append hvalid]

theorem sum_concat (f : Run → Int) (runs : List Run) (run : Run) :
    ((runs ++ [run]).map f).sum = (runs.map f).sum + f run := by
  rw [List.map_append, List.sum_append, List.map_singleton, List.sum_singleton]

theorem sum_ones (runs : List Run) :
    (runs.map fun run => run.adds "request_count").sum = runs.length := by
  induction runs with
  | nil => rfl
  | cons run runs ih =>
    have hone : run.adds "request_count" = 1 := if_pos rfl
    rw [List.map_cons, List.sum_cons, ih, hone, List.length_cons]
    omega

/-- What a call leaves for the next one: the dictionaries that were there, counters with what the
run adds, and a new dictionary of its model. -/
structure Merged (run : Run) (h h' : Heap) (metadata metadata' : Val) : Prop where
  old : h <+: h'
  valid : Valid h' metadata'
  usage_valid : Valid h' (item (object_of h' metadata') "usage")
  by_model_valid : Valid h' (item (usage_of h' metadata') "by_model")
  counter : ∀ key ∈ COUNTERS, item (usage_of h' metadata') key =
    .data (.int (number (item (usage_of h metadata) key) + run.adds key))
  models : ∃ model, Valid h' model ∧
    by_model_of h' metadata' = set_item (by_model_of h metadata) run.model_name model ∧
    object_of h' model = raised run (object_of h (item (by_model_of h metadata) run.model_name))

theorem merged_of_new (run : Run) (h : Heap) (metadata : Val) (last_run : Object) :
    Merged run h (h ++
      [set_item (object_of h metadata) "usage" (.ref (h.length + 1)),
        set_item (set_item (raised run (usage_of h metadata)) "last_run" (.ref (h.length + 4)))
          "by_model" (.ref (h.length + 2)),
        set_item (by_model_of h metadata) run.model_name (.ref (h.length + 3)),
        raised run (object_of h (item (by_model_of h metadata) run.model_name)), last_run])
      metadata (.ref h.length) := by
  generalize object_of h metadata = A
  generalize hU : usage_of h metadata = U
  generalize hB : by_model_of h metadata = B
  generalize hM : object_of h (item B run.model_name) = M
  generalize hnew : [set_item A "usage" (.ref (h.length + 1)),
    set_item (set_item (raised run U) "last_run" (.ref (h.length + 4))) "by_model"
      (.ref (h.length + 2)),
    set_item B run.model_name (.ref (h.length + 3)), raised run M, last_run] = new
  have hobject : ∀ i, object_of (h ++ new) (.ref (h.length + i)) = new.getD i [] := getD_new h new
  have hlength : new.length = 5 := by rw [← hnew]; rfl
  have hvalid : ∀ i < 5, Valid (h ++ new) (.ref (h.length + i)) := fun i hi =>
    .inr ⟨_, rfl, by rw [List.length_append]; omega⟩
  have hmetadata : object_of (h ++ new) (.ref h.length) =
      set_item A "usage" (.ref (h.length + 1)) := (hobject 0).trans (by rw [← hnew]; rfl)
  have hitem : item (object_of (h ++ new) (.ref h.length)) "usage" = .ref (h.length + 1) := by
    rw [hmetadata, item_set_item]
  have husage : usage_of (h ++ new) (.ref h.length) =
      set_item (set_item (raised run U) "last_run" (.ref (h.length + 4))) "by_model"
        (.ref (h.length + 2)) := by
    unfold usage_of
    rw [hitem, hobject, ← hnew]
    rfl
  have hitem_models : item (usage_of (h ++ new) (.ref h.length)) "by_model" =
      .ref (h.length + 2) := by
    rw [husage, item_set_item]
  refine ⟨List.prefix_append _ _, hvalid 0 (by decide), hitem ▸ hvalid 1 (by decide),
    hitem_models ▸ hvalid 2 (by decide), fun key hkey => ?_,
    .ref (h.length + 3), hvalid 3 (by decide), ?_, ?_⟩
  · have hnot : "by_model" ≠ key ∧ "last_run" ≠ key :=
      ⟨fun he => absurd (he ▸ hkey) (by decide), fun he => absurd (he ▸ hkey) (by decide)⟩
    rw [husage, item_set_item_ne hnot.1, item_set_item_ne hnot.2, item_raised hkey, hU]
  · unfold by_model_of at hB ⊢
    rw [hitem_models, hobject, ← hnew, hB]
    rfl
  · rw [hobject, ← hnew, hB, hM]
    rfl

/-- The dictionaries behind a call say what those before it said and what the run adds. -/
theorem Kept.merged {h' : Heap} {metadata' : Val} (hkept : Kept h metadata runs)
    (hmerged : Merged run h h' metadata metadata') : Kept h' metadata' (runs ++ [run]) := by
  obtain ⟨new, rfl⟩ := hmerged.old
  obtain ⟨model, hmodel, hby_model, hraised⟩ := hmerged.models
  have hnew : ∀ key ∈ COUNTERS, model_counter (h ++ new) key model =
      model_counter h key (item (by_model_of h metadata) run.model_name) + run.adds key := by
    intro key hkey
    unfold model_counter
    rw [hraised, item_raised hkey]
    rfl
  have hold : ∀ name key, model_counter (h ++ new) key (item (by_model_of h metadata) name) =
      model_counter h key (item (by_model_of h metadata) name) := fun name key =>
    model_counter_append (hkept.model_valid name) new key
  refine ⟨hmerged.valid, hmerged.usage_valid, hmerged.by_model_valid, ?_,
    fun key hkey => .inr ⟨_, hmerged.counter key hkey⟩, ?_, ?_, ?_, ?_⟩
  · rw [hby_model]
    intro entry hentry
    rcases mem_set_item hentry with hin | rfl
    · exact (hkept.models_valid entry hin).append new
    · exact hmodel
  · rw [hby_model]
    intro entry hentry
    rcases mem_set_item hentry with hin | rfl
    · rw [object_of_append (hkept.models_valid entry hin)]
      exact hkept.models_counting entry hin
    · rw [hraised]
      exact counting_raised run _
  · intro key hkey
    rw [hmerged.counter key hkey, sum_concat, ← hkept.over_runs key hkey]
    rfl
  · intro key hkey
    have hsum : ((by_model_of h metadata).map fun entry =>
        model_counter (h ++ new) key entry.2).sum =
          ((by_model_of h metadata).map fun entry => model_counter h key entry.2).sum :=
      congrArg List.sum (List.map_congr_left fun entry hentry =>
        model_counter_append (hkept.models_valid entry hentry) new key)
    rw [hby_model, sum_set_item rfl, hsum, hkept.over_models key hkey, hnew key hkey, hold,
      sum_concat]
    omega
  · intro key hkey name
    rw [hby_model, List.filter_append]
    by_cases hname : run.model_name = name
    · rw [← hname, item_set_item, hnew key hkey, hkept.of_model key hkey,
        List.filter_cons_of_pos (by simp), List.filter_nil, sum_concat]
    · rw [item_set_item_ne hname, hold, hkept.of_model key hkey,
        List.filter_cons_of_neg (by simpa using hname), List.filter_nil, List.append_nil]

/-- A call with a finite run returns, leaves the old dictionaries and keeps the invariant. -/
theorem merge_keeps (hkept : Kept h metadata runs) (hfinite : run.Finite) :
    ∃ next h', merge_codex_usage_metadata h metadata run = .ok (next, h') ∧ h <+: h' ∧
      Kept h' (.ref next) (runs ++ [run]) :=
  ⟨_, _, merge_eq hfinite hkept.valid hkept.usage_valid hkept.by_model_valid
    (hkept.model_valid run.model_name) hkept.counting (hkept.model_counting run.model_name),
    List.prefix_append _ _, hkept.merged (merged_of_new run h metadata _)⟩

theorem merge_all_keeps (hkept : Kept h metadata runs) {more : List Run}
    (hfinite : ∀ run ∈ more, run.Finite) : ∃ metadata' h',
      merge_all h metadata more = .ok (metadata', h') ∧ Kept h' metadata' (runs ++ more) := by
  induction more generalizing h metadata runs with
  | nil => exact ⟨metadata, h, rfl, (List.append_nil runs).symm ▸ hkept⟩
  | cons run more ih =>
    obtain ⟨hrun, hmore⟩ := List.forall_mem_cons.mp hfinite
    obtain ⟨next, h', hmerge, -, hnext⟩ := merge_keeps hkept hrun
    obtain ⟨metadata', h'', hall, hkept'⟩ := ih hnext hmore
    refine ⟨metadata', h'', ?_, List.append_cons runs run more ▸ hkept'⟩
    have hfirst : merge_next (metadata, h) run = .ok (.ref next, h') := by
      unfold merge_next
      rw [hmerge]
      rfl
    unfold merge_all at hall ⊢
    rw [List.foldlM_cons, hfirst]
    exact hall

theorem Kept.consistent (hkept : Kept h metadata runs) : Consistent h metadata runs where
  over_runs key hkey := hkept.over_runs key (List.mem_cons_of_mem _ hkey)
  over_models key hkey := by
    have hcounter : key ∈ COUNTERS := List.mem_cons_of_mem _ hkey
    rw [hkept.over_runs key hcounter, hkept.over_models key hcounter]
  requests := by
    rw [hkept.over_runs _ List.mem_cons_self]
    exact sum_ones runs
  requests_of name := by
    rw [hkept.of_model _ List.mem_cons_self]
    exact sum_ones _

/-! ## The law -/

/-- LAW: from empty metadata, all calls return, sum up the counters and change
no dictionary that was there iff no counter of a run is infinite. -/
theorem usage_metadata_merge_well_iff_finite (hempty : Empty h metadata) :
    MergesWell h metadata runs ↔ ∀ run ∈ runs, run.Finite := by
  constructor
  · intro hwell run hrun
    obtain ⟨before, after, hruns⟩ := List.append_of_mem hrun
    obtain ⟨given, h', next, h'', -, hmerge, -⟩ := hwell.unmodified before run after hruns
    exact finite_of_merge hmerge
  · intro hfinite
    refine ⟨?_, ?_⟩
    · obtain ⟨metadata', h', hall, hkept⟩ := merge_all_keeps (kept_of_empty hempty) hfinite
      exact ⟨metadata', h', hall, hkept.consistent⟩
    · rintro before run after rfl
      obtain ⟨hbefore, hrest⟩ := List.forall_mem_append.mp hfinite
      obtain ⟨given, h', hall, hkept⟩ := merge_all_keeps (kept_of_empty hempty) hbefore
      obtain ⟨next, h'', hmerge, hprefix, -⟩ :=
        merge_keeps hkept (hrest run List.mem_cons_self)
      exact ⟨given, h', next, h'', hall, hmerge, hprefix⟩

end

/-- A run with a counter in the JSON text `1e999`. -/
def an_infinite_run : Run := ⟨[("input_tokens", .infinity)], "gpt-5", "2026-01-01T00:00:00"⟩

/-- A run with a malformed counter. -/
def a_finite_run : Run :=
  ⟨[("input_tokens", .int 7), ("output_tokens", .str "many")], "usage", "2026-01-01T00:00:00"⟩

/-- A malformed counter and the name of a key as a model do no harm. -/
theorem a_malformed_counter_is_merged : Empty [[]] (.ref 0) ∧
    (MergesWell [[]] (.ref 0) [a_finite_run, a_finite_run] ↔
      ∀ run ∈ [a_finite_run, a_finite_run], run.Finite) :=
  have hempty : Empty [[]] (.ref 0) := .inr ⟨0, rfl, rfl⟩
  ⟨hempty, usage_metadata_merge_well_iff_finite hempty⟩

/-- Infinity ends the call with an error. -/
theorem an_infinite_counter_raises : Empty [] (.data .null) ∧
    ¬MergesWell [] (.data .null) [an_infinite_run] := by
  refine ⟨.inl rfl, fun hwell => ?_⟩
  obtain ⟨metadata', h', hall, -⟩ := hwell.consistent
  have herror : merge_all [] (.data .null) [an_infinite_run] = .error .overflow_error := by rfl
  rw [herror] at hall
  cases hall

end dr_boz.usage_metadata
