-- Law of the tool requests that a model writes as JSON objects into its answer:
-- the scan of the braces finds the end of every object that can be read, so
-- that the objects of an answer are taken one after another.
import DrBoz.AppServer
import DrBoz.ChatTools
import DrBoz.Lib.JsonTexts
import Mathlib.Data.List.DropRight

open dr_boz.py hiding Json
open dr_boz.app_server json_texts

namespace dr_boz.json_tool_requests

/-! ## Values -/

/-- Which exception `json.loads` raises. -/
inductive LoadError where
  | value_error
  | recursion_error
deriving DecidableEq

/-- `d[key] = value` -/
def set_item (fields : List (PyText × Json)) (item : PyText × Json) : List (PyText × Json) :=
  if fields.any fun field => field.1 = item.1 then
    fields.map fun field => if field.1 = item.1 then item else field
  else fields ++ [item]

/-- The number that a row of digits stands for. -/
def number_of (digits : PyText) : Nat := digits.foldl (fun n d => 10 * n + (d - 48)) 0

/-- `float(literal)` of a literal of JSON: digits, digits behind the point, and a power of ten. -/
def float_of (literal : PyText) : Json :=
  let (sign, rest) := minus literal
  let (front, rest) := digits rest
  let (point, rest) := fraction rest
  let (power, _) := signed_digits rest.tail
  let exponent : Int :=
    if power.head? = some 45 then -number_of power.tail
    else number_of (power.dropWhile fun c => c = 43)
  let behind := point.tail
  let size : PyFloat :=
    f64 (number_of (front ++ behind) * (10 : ℚ) ^ (exponent - behind.length))
  if 2 ^ 1024 ≤ size then (if sign.isEmpty then .infinity else .minus_infinity)
  else .float (if sign.isEmpty then size else -size)

/-- Python refuses to read a whole number of more digits. -/
def MAX_INT_DIGITS : Nat := 4300

def number_value (literal : PyText) : Except LoadError Json :=
  if literal.any fun c => c = 46 || c = 101 || c = 69 then .ok (float_of literal)
  else
    let (sign, front) := minus literal
    if MAX_INT_DIGITS < front.length then .error .value_error
    else .ok (.int (if sign.isEmpty then number_of front else -number_of front))

/-- What `json.loads` makes of the parts of a text. -/
def values : Builder LoadError Json where
  null := .null
  bool := .bool
  number := number_value
  nan := .nan
  infinity := .infinity
  minus_infinity := .minus_infinity
  str := .str
  list := .list
  dict fields := .dict (fields.foldl set_item [])
  invalid := .value_error
  too_deep := .recursion_error

/-! ## Requests -/

/-- The blanks of `str.strip`. -/
def is_space (c : Nat) : Bool :=
  c ∈ [0x20, 0x85, 0xA0, 0x1680, 0x2028, 0x2029, 0x202F, 0x205F, 0x3000] ||
    (0x9 ≤ c && c ≤ 0xD) || (0x1C ≤ c && c ≤ 0x1F) || (0x2000 ≤ c && c ≤ 0x200A)

def strip_text (t : PyText) : PyText := (t.dropWhile is_space).rdropWhile is_space

def is_builtin (name : PyText) : Bool := chat_tools.BUILTIN_TOOLS.any fun tool => text tool = name

def _CODEX_TOOL_ALIASES : List (PyText × PyText) :=
  [("search_web", "web_search"), ("google_search", "web_search"), ("web_searching", "web_search"),
    ("image_generation", "image_generator"), ("generate_image", "image_generator"),
    ("search_documents", "search_project"), ("document_search", "search_project"),
    ("list_files", "list_project_files"), ("generate_pdf", "pdf_generator")].map
    fun pair => (text pair.1, text pair.2)

def _CODEX_TOOL_ARG_ALIASES (tool_name : PyText) : List (PyText × PyText) :=
  if tool_name = text "read_skill" then [(text "name", text "skill_name")]
  else if tool_name = text "read_skill_file" then
    [(text "name", text "skill_name"), (text "path", text "relative_path")]
  else []

structure ToolRequest where
  name : PyText
  arguments : List (PyText × Json)

section
-- `str` of a value that is no text.
variable (str_of_value : Json → PyText)

def _normalize_codex_tool_name (name : Json) : PyText :=
  let raw := strip_text (if name.truthy then
    match name with
    | .str t => t
    | name => str_of_value name
  else [])
  ((_CODEX_TOOL_ALIASES.find? fun pair => pair.1 = raw).map Prod.snd).getD raw

/-- `normalized[target] = normalized.pop(source)`, where only the source is there. -/
def rename (normalized : List (PyText × Json)) (pair : PyText × PyText) : List (PyText × Json) :=
  match normalized.find? fun field => field.1 = pair.1 with
  | some field =>
    if normalized.any fun field => field.1 = pair.2 then normalized
    else (normalized.filter fun field => field.1 ≠ pair.1) ++ [(pair.2, field.2)]
  | none => normalized

def _normalize_codex_tool_arguments (tool_name : PyText) (arguments : Json) :
    List (PyText × Json) :=
  (_CODEX_TOOL_ARG_ALIASES tool_name).foldl rename
    (match arguments with
    | .dict fields => fields
    | _ => [])

/-- The objects of a payload that may be requests. -/
def candidates (payload : List (PyText × Json)) : List (List (PyText × Json)) :=
  (if (get payload "name").truthy then [payload] else []) ++
  (match get payload "tool_call" with
  | .dict fields => [fields]
  | _ => []) ++
  (match get payload "tool_calls" with
  | .list items => items.filterMap fun item => match item with
    | .dict fields => some fields
    | _ => none
  | _ => []) ++
  payload.filterMap fun field => match field.2 with
    | .dict fields =>
      if is_builtin field.1 then
        some [(text "name", .str field.1), (text "arguments", .dict fields)]
      else none
    | _ => none

def _codex_tool_request_from_payload (payload : Json) : List ToolRequest :=
  match payload with
  | .dict payload => (candidates payload).filterMap fun candidate =>
    let name := _normalize_codex_tool_name str_of_value (get candidate "name")
    if is_builtin name then
      some ⟨name, _normalize_codex_tool_arguments name (get candidate "arguments")⟩
    else none
  | _ => []

/-! ## The scan -/

/-- The loop of `_find_json_object_end`. -/
def scan (depth : Int) (in_string escape : Bool) (index : Nat) : PyText → Option Nat
  | [] => none
  | c :: rest =>
    if in_string then
      if escape then scan depth true false (index + 1) rest
      else if c = BACKSLASH then scan depth true true (index + 1) rest
      else if c = QUOTE then scan depth false escape (index + 1) rest
      else scan depth true escape (index + 1) rest
    else if c = QUOTE then scan depth true escape (index + 1) rest
    else if c = OPEN then scan (depth + 1) false escape (index + 1) rest
    else if c = CLOSE then
      if depth - 1 = 0 then some (index + 1) else scan (depth - 1) false escape (index + 1) rest
    else scan depth false escape (index + 1) rest

def _find_json_object_end (content : PyText) (start : Nat) : Option Nat :=
  scan 0 false false start (content.drop start)

/-- What is left of the content from `search_from` on; the first `skip` letters
of it belong to an object that is dealt with. -/
def requests_from (limit : Nat) : Nat → PyText → Except LoadError (List ToolRequest)
  | _, [] => .ok []
  | skip + 1, _ :: content => requests_from limit skip content
  | 0, c :: content =>
    if c = OPEN then
      match _find_json_object_end (c :: content) 0 with
      | none => .ok []
      | some length =>
        match loads values limit ((c :: content).take length) with
        | .error .recursion_error => .error .recursion_error
        | .error .value_error => requests_from limit 0 content
        | .ok payload =>
          match _codex_tool_request_from_payload str_of_value payload with
          | [] => requests_from limit 0 content
          | extracted => do
            let requests ← requests_from limit (length - 1) content
            .ok (extracted ++ requests)
    else requests_from limit 0 content

/-- `limit` is how many objects and lists Python reads inside one another. -/
def _extract_json_codex_tool_requests (limit : Nat) (content : PyText) :
    Except LoadError (List ToolRequest) :=
  requests_from str_of_value limit 0 content

end

/-! ## The end of an object -/

theorem scan_quoted {body : PyText} (h : Quoted body) (depth : Int) (index : Nat) (rest : PyText) :
    scan depth true false index (body ++ QUOTE :: rest) =
      scan depth false false (index + body.length + 1) rest := by
  induction h generalizing index with
  | nil => simp [scan]
  | letter hquote hescape _ ih =>
    rw [List.cons_append, scan]
    simp only [if_true, Bool.false_eq_true, if_false, if_neg hescape, if_neg hquote]
    rw [ih, List.length_cons]
    congr 1
    omega
  | escape c _ ih =>
    rw [List.cons_append, List.cons_append, scan]
    simp only [if_true, Bool.false_eq_true, if_false]
    rw [scan]
    simp only [if_true]
    rw [ih, List.length_cons, List.length_cons]
    congr 1
    omega

/-- Inside an object the scan passes over all that is balanced. -/
theorem scan_balanced {inner : PyText} (h : Balanced inner) {depth : Int} (hdepth : 0 < depth)
    (index : Nat) (rest : PyText) :
    scan depth false false index (inner ++ rest) =
      scan depth false false (index + inner.length) rest := by
  induction h generalizing depth index rest with
  | nil => rfl
  | plain hc _ ih =>
    rw [List.cons_append, scan]
    simp only [Bool.false_eq_true, if_false, if_neg hc.1, if_neg hc.2.1, if_neg hc.2.2]
    rw [ih hdepth, List.length_cons]
    congr 1
    omega
  | quoted hbody _ ih =>
    rw [List.cons_append, scan]
    simp only [Bool.false_eq_true, if_false, if_true]
    rw [List.append_assoc, List.cons_append, scan_quoted hbody, ih hdepth]
    simp only [List.length_cons, List.length_append]
    congr 1
    omega
  | braces _ _ ihinner ih =>
    rw [List.cons_append, scan]
    simp only [Bool.false_eq_true, if_false, if_true, OPEN, QUOTE, Nat.reduceEqDiff]
    rw [List.append_assoc, List.cons_append, ihinner (by omega), scan]
    simp only [Bool.false_eq_true, if_false, if_true, OPEN, QUOTE, CLOSE, Nat.reduceEqDiff]
    rw [if_neg (by omega), add_sub_cancel_right, ih hdepth]
    simp only [List.length_cons, List.length_append]
    congr 1
    omega

/-- From the brace of an object that can be read, the scan goes to its end. -/
theorem scan_object {limit : Nat} {text rest : PyText} {payload : Json}
    (h : read_value values limit (OPEN :: text) = .ok (payload, rest)) :
    ∃ inner, text = inner ++ CLOSE :: rest ∧ ∀ index behind,
      scan 0 false false index (OPEN :: (inner ++ CLOSE :: behind)) =
        some (index + inner.length + 2) := by
  obtain ⟨inner, rfl, hinner⟩ := object_takes h
  refine ⟨inner, rfl, fun index behind => ?_⟩
  rw [scan]
  simp only [Bool.false_eq_true, if_false, if_true, OPEN, QUOTE, Nat.reduceEqDiff]
  rw [scan_balanced hinner (by omega), scan]
  simp only [Bool.false_eq_true, if_false, OPEN, QUOTE, CLOSE, Nat.reduceEqDiff, if_true]
  rw [if_pos (by omega)]
  congr 1
  omega

/-- LAW: Wherever in a text an object stands that `json.loads` can read, with any texts, blanks,
escapes and numbers in it and with anything behind it, the count of the braces ends exactly at the
end of the object. -/
theorem the_scan_ends_where_the_object_ends {limit start : Nat} {content rest : PyText}
    {payload : Json} (hopen : (content.drop start).head? = some OPEN)
    (hread : read_value values limit (content.drop start) = .ok (payload, rest)) :
    _find_json_object_end content start = some (content.length - rest.length) := by
  have hlength : (content.drop start).length = content.length - start := List.length_drop
  unfold _find_json_object_end
  cases htext : content.drop start with
  | nil =>
    rw [htext] at hopen
    cases hopen
  | cons c text =>
    rw [htext] at hopen hread hlength
    cases hopen
    obtain ⟨inner, rfl, hscan⟩ := scan_object hread
    rw [hscan]
    simp only [List.length_cons, List.length_append] at hlength
    congr 1
    omega

/-! ## One object after another -/

section
variable {str_of_value : Json → PyText} {limit : Nat}

theorem requests_from_skip (taken rest : PyText) :
    requests_from str_of_value limit taken.length (taken ++ rest) =
      requests_from str_of_value limit 0 rest := by
  induction taken with
  | nil => rfl
  | cons c taken ih => exact ih

theorem requests_from_gap {gap : PyText} (h : OPEN ∉ gap) (rest : PyText) :
    requests_from str_of_value limit 0 (gap ++ rest) =
      requests_from str_of_value limit 0 rest := by
  induction gap with
  | nil => rfl
  | cons c gap ih =>
    rw [List.mem_cons, not_or] at h
    rw [List.cons_append, requests_from, if_neg (Ne.symm h.1)]
    exact ih h.2

/-- An object of an answer and what stands before it. -/
structure Part where
  gap : PyText
  object : PyText
  payload : Json

def Part.content (p : Part) : PyText := p.gap ++ p.object

variable (str_of_value limit) in
/-- The object can be read and asks for a tool, and before it no other object begins. -/
structure Part.Proper (p : Part) : Prop where
  gap : OPEN ∉ p.gap
  opens : p.object.head? = some OPEN
  reads : read_value values limit p.object = .ok (p.payload, [])
  asks : _codex_tool_request_from_payload str_of_value p.payload ≠ []

theorem loads_object {text : PyText} {payload : Json}
    (h : read_value values limit (OPEN :: text) = .ok (payload, [])) :
    loads values limit (OPEN :: text) = .ok payload := by
  have hblanks : skip_blanks (OPEN :: text) = OPEN :: text := rfl
  unfold loads
  rw [hblanks, h]
  rfl

theorem requests_from_part {p : Part} (h : p.Proper str_of_value limit) (rest : PyText) :
    requests_from str_of_value limit 0 (p.content ++ rest) =
      (requests_from str_of_value limit 0 rest).map
        (_codex_tool_request_from_payload str_of_value p.payload ++ ·) := by
  obtain ⟨gap, object, payload⟩ := p
  obtain ⟨hgap, hopens, hreads, hasks⟩ := h
  dsimp only at hgap hopens hreads hasks
  cases object with
  | nil => cases hopens
  | cons c object =>
    cases hopens
    obtain ⟨inner, rfl, hscan⟩ := scan_object hreads
    unfold Part.content
    dsimp only
    rw [List.append_assoc, requests_from_gap hgap]
    have hend : _find_json_object_end (OPEN :: (inner ++ [CLOSE]) ++ rest) 0 =
        some (OPEN :: (inner ++ [CLOSE])).length := by
      have hends := hscan 0 rest
      unfold _find_json_object_end
      simpa [Nat.add_assoc] using hends
    have htake : (OPEN :: (inner ++ [CLOSE]) ++ rest).take (OPEN :: (inner ++ [CLOSE])).length =
        OPEN :: (inner ++ [CLOSE]) := List.take_left
    rw [List.cons_append] at hend htake ⊢
    rw [requests_from, if_pos rfl, hend]
    dsimp only
    rw [htake, loads_object hreads]
    dsimp only
    cases hfound : _codex_tool_request_from_payload str_of_value payload with
    | nil => exact absurd hfound hasks
    | cons first others =>
      dsimp only
      rw [List.length_cons, Nat.add_sub_cancel, requests_from_skip]
      cases requests_from str_of_value limit 0 rest <;> rfl

/-- LAW: An answer that is any row of objects that `json.loads` can read and that ask for tools,
with any text without braces before, between and behind them, is read as the requests of all these
objects, in their order, none lost, doubled or mixed with the text around it. -/
theorem the_objects_of_an_answer_are_its_requests {parts : List Part} {tail : PyText}
    (hparts : ∀ p ∈ parts, p.Proper str_of_value limit) (htail : OPEN ∉ tail) :
    _extract_json_codex_tool_requests str_of_value limit (parts.flatMap Part.content ++ tail) =
      .ok (parts.flatMap fun p => _codex_tool_request_from_payload str_of_value p.payload) := by
  unfold _extract_json_codex_tool_requests
  induction parts with
  | nil =>
    rw [List.flatMap_nil, List.nil_append, ← List.append_nil tail]
    exact requests_from_gap htail []
  | cons p parts ih =>
    rw [List.flatMap_cons, List.append_assoc,
      requests_from_part (hparts p List.mem_cons_self),
      ih fun q hq => hparts q (List.mem_cons_of_mem _ hq)]
    rfl

/-- A request whose argument is a brace and an escaped quote: `{"web_search": {"query": "}\""}}`. -/
def a_request : PyText :=
  [123, 34, 119, 101, 98, 95, 115, 101, 97, 114, 99, 104, 34, 58, 32, 123, 34, 113, 117, 101,
    114, 121, 34, 58, 32, 34, 125, 92, 34, 34, 125, 125]

def its_payload : Json :=
  .dict [([119, 101, 98, 95, 115, 101, 97, 114, 99, 104],
    .dict [([113, 117, 101, 114, 121], .str [125, 34])])]

theorem the_objects_of_an_answer_are_its_requests_one :
    _extract_json_codex_tool_requests (fun _ => []) 2
        ([⟨[79, 75, 34, 125], a_request, its_payload⟩].flatMap Part.content ++ []) =
      .ok ([⟨[79, 75, 34, 125], a_request, its_payload⟩].flatMap fun (p : Part) =>
        _codex_tool_request_from_payload (fun _ => []) p.payload) := by
  refine the_objects_of_an_answer_are_its_requests (fun p hp => ?_) List.not_mem_nil
  rw [List.mem_singleton.mp hp]
  exact {
    gap := by decide
    opens := rfl
    reads := rfl
    asks := List.ne_nil_of_length_pos (by decide +kernel) }

theorem the_scan_ends_where_the_object_ends_one :
    _find_json_object_end ([79, 75] ++ a_request ++ [125]) 2 = some 34 :=
  the_scan_ends_where_the_object_ends rfl
    (show read_value values 2 _ = .ok (its_payload, [125]) from rfl)

end

end dr_boz.json_tool_requests
