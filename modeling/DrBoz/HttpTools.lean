-- Law of the HTTP tools (llm.py): where the arguments of a call go, from the
-- placeholders of the url to the query or the body.
import DrBoz.AppServer
import DrBoz.CliLines
import DrBoz.Lib.TextSplits
import DrBoz.Lib.PosixPaths
import Mathlib.Data.List.TakeWhile

open text_scan dr_boz.cli_lines dr_boz.app_server
open dr_boz.py hiding Json

namespace dr_boz.http_tools

/-! ## The configuration of a tool -/

inductive HttpToolError where
  | calculator (message : String)
  | unicode_encode
  | overflow

/-- A float that `float(timeout)` gives. -/
inductive Seconds where
  | finite (q : PyFloat)
  | infinity
  | minus_infinity
  | nan

/-- `float(timeout)` raises a `TypeError` or `ValueError`, or an `OverflowError`. -/
inductive FloatError where
  | refused
  | overflow

/-- Functions of Python on values: `str(value)` of a configuration and of an argument,
`text.upper()`, and `float(value)`, which can refuse a value or overflow. -/
structure Python where
  str : JsonValue → String
  text_of : Json → PyText
  upper : String → String
  float : JsonValue → Except FloatError Seconds

def METHODS : List String := ["GET", "POST", "PUT", "PATCH", "DELETE", "HEAD", "OPTIONS"]

structure HttpToolConfig where
  method : String
  url : String
  headers : List (String × String)
  timeout_seconds : Seconds

/-- `headers[key] = value` -/
def put (headers : List (String × String)) (key value : String) : List (String × String) :=
  if headers.any (fun header => header.1 = key) then
    headers.map fun header => if header.1 = key then (key, value) else header
  else headers ++ [(key, value)]

section
variable (python : Python)

/-- One turn of the loop over `raw_headers.items()`. -/
def header_step (headers : List (String × String)) (item : String × JsonValue) :
    List (String × String) :=
  let normalized_key := strip item.1
  match item.2 with
  | .null => headers
  | value => if normalized_key = "" then headers else put headers normalized_key (python.str value)

def headers_of : JsonValue → Except HttpToolError (List (String × String))
  | .null => .ok []
  | .dict raw_headers => .ok (raw_headers.foldl (header_step python) [])
  | _ => .error (.calculator "HTTP tool headers must be an object")

/-- The timeout is above 0 and at most 120. A `nan` is neither `<= 0` nor `> 120`. -/
def in_range : Seconds → Bool
  | .finite q => !(q ≤ 0 || 120 < q)
  | .nan => true
  | _ => false

def timeout_of : JsonValue → Except HttpToolError Seconds
  | .null => .ok (.finite 30)
  | timeout =>
    match python.float timeout with
    | .error .refused => .error (.calculator "HTTP tool timeout_seconds must be numeric")
    | .error .overflow => .error .overflow
    | .ok timeout_value =>
      if in_range timeout_value then .ok timeout_value
      else .error (.calculator "HTTP tool timeout_seconds must be between 0 and 120")

def normalize_http_tool_config : JsonValue → Except HttpToolError HttpToolConfig
  | .dict raw_config =>
    let get (key : String) : JsonValue := Fields.get raw_config key .null
    let method := python.upper (strip (python.str ((get "method").or (.str "GET"))))
    let url := strip (python.str ((get "url").or (.str "")))
    if !METHODS.contains method then
      .error (.calculator
        "HTTP tool method must be one of GET/POST/PUT/PATCH/DELETE/HEAD/OPTIONS")
    else if url = "" then .error (.calculator "HTTP tool url is required")
    else if !(["http://", "https://"].any fun start => start.toList.isPrefixOf url.toList) then
      .error (.calculator "HTTP tool url must start with http:// or https://")
    else
      (headers_of python (get "headers")).bind fun headers =>
        (timeout_of python (get "timeout_seconds")).bind fun timeout_value =>
          .ok ⟨method, url, headers, timeout_value⟩
  | _ => .error (.calculator "HTTP tool implementation_config must be an object")

/-! ## The arguments in the url -/

abbrev Arguments := List (PyText × Json)

/-- The bytes of a code point in UTF-8. -/
def utf8 (c : Nat) : List Nat :=
  if c < 0x80 then [c]
  else if c < 0x800 then [0xC0 + c / 64, 0x80 + c % 64]
  else if c < 0x10000 then [0xE0 + c / 4096, 0x80 + c / 64 % 64, 0x80 + c % 64]
  else [0xF0 + c / 262144, 0x80 + c / 4096 % 64, 0x80 + c / 64 % 64, 0x80 + c % 64]

def hex (n : Nat) : Char := if n < 10 then Char.ofNat (48 + n) else Char.ofNat (55 + n)

/-- The characters that `quote` leaves as they are. -/
def unreserved (c : Char) : Bool := c.isAlphanum || ['_', '.', '-', '~'].contains c

def quote_byte (b : Nat) : List Char :=
  if unreserved (Char.ofNat b) then [Char.ofNat b] else ['%', hex (b / 16 % 16), hex (b % 16)]

def percent (t : PyText) : List Char := (t.flatMap utf8).flatMap quote_byte

/-- `quote(text, safe="")` -/
def quote (t : PyText) : Except HttpToolError (List Char) :=
  if encodes_text t then .ok (percent t) else .error .unicode_encode

/-- `[a-zA-Z0-9_]` -/
def is_key (c : Char) : Bool := c.isAlphanum || c == '_'

/-- `\{([a-zA-Z0-9_]+)\}` -/
def PLACEHOLDER : Pattern (List Char) := after_literal ['{'] (group_run is_key ['}'])

def key_of (name : List Char) : PyText := name.map Char.toNat

/-- The value of a key, if it is there. -/
def argument (arguments : Arguments) (name : List Char) : Option Json :=
  ((arguments.find? fun field => field.1 = key_of name).map Prod.snd)

/-- `_replace`: what stands in the place of a placeholder. -/
def replace_placeholder (arguments : Arguments) (name : List Char) :
    Except HttpToolError (List Char) :=
  match argument arguments name with
  | none =>
    .error (.calculator ("Missing required URL path parameter: " ++ String.ofList name))
  | some value =>
    if value.is_none then
      .error (.calculator ("URL path parameter cannot be null: " ++ String.ofList name))
    else quote (python.text_of value)

def replace_piece (arguments : Arguments) : Piece (List Char) →
    Except HttpToolError (List Char)
  | .between text => .ok text
  | .matched _ name => replace_placeholder python arguments name

/-- The names of the placeholders of a text. -/
def placeholders (text : List Char) : List (List Char) :=
  (split PLACEHOLDER text).filterMap Piece.captured

def inject_http_path_params (url_template : List Char) (arguments : Arguments) :
    Except HttpToolError (List Char × Arguments) :=
  ((split PLACEHOLDER url_template).mapM (replace_piece python arguments)).bind fun outputs =>
    let used_keys := (placeholders url_template).map key_of
    .ok (outputs.flatten, arguments.filter fun field => !used_keys.contains field.1)

/-! ## The request -/

def normalize_tool_arguments : Json → Except HttpToolError Arguments
  | .null => .ok []
  | .dict arguments => .ok arguments
  | _ => .error (.calculator "Tool arguments must be a JSON object")

/-- What the client of httpx is called with. -/
structure Call where
  method : String
  url : List Char
  headers : List (String × String)
  timeout_seconds : Seconds
  params : Option Arguments
  json : Option Arguments

/-- The methods whose arguments go into the query. -/
def QUERY_METHODS : List String := ["GET", "DELETE", "HEAD", "OPTIONS"]

/-- The arguments that are left go into the query or into the body. -/
def call_of (config : HttpToolConfig) (url : List Char) (remaining_arguments : Arguments) : Call :=
  let in_query := QUERY_METHODS.contains config.method
  { method := config.method
    url := url
    headers := config.headers
    timeout_seconds := config.timeout_seconds
    params := if in_query then some remaining_arguments else none
    json := if in_query then none else some remaining_arguments }

/-- The call of the client, or the error before it. -/
def run_http_tool (arguments : Json) (implementation_config : JsonValue) :
    Except HttpToolError Call :=
  (normalize_tool_arguments arguments).bind fun normalized_arguments =>
    (normalize_http_tool_config python implementation_config).bind fun config =>
      (inject_http_path_params python config.url.toList normalized_arguments).bind fun injected =>
        .ok (call_of config injected.1 injected.2)

/-! ## The parts of a url -/

/-- What is behind the first `c`. -/
def behind (c : Char) (url : List Char) : Option (List Char) :=
  (url.dropWhile (· != c)).tail?

def fragment (url : List Char) : Option (List Char) := behind '#' url

def query (url : List Char) : Option (List Char) := behind '?' (url.takeWhile (· != '#'))

/-- Scheme, authority and path, cut at the slashes. -/
def segments (url : List Char) : List (List Char) :=
  ((url.takeWhile (· != '#')).takeWhile (· != '?')).splitOn '/'

def is_dots (segment : List Char) : Bool := segment = ['.'] || segment = ['.', '.']

/-- One segment of a path: `.` stays where it is and `..` goes up. -/
def dots_step (output : List (List Char)) (segment : List Char) : List (List Char) :=
  if segment = ['.'] then output
  else if segment = ['.', '.'] then output.dropLast
  else output ++ [segment]

/-- The segments that are left when the dot segments are resolved, as for every url. -/
def remove_dot_segments (path : List (List Char)) : List (List Char) :=
  let output := path.foldl dots_step []
  if path.getLast?.any is_dots then output ++ [[]] else output

/-- The segments of the path, behind the scheme and the authority. -/
def path_segments (url : List Char) : List (List Char) :=
  remove_dot_segments ((segments url).drop 3)

/-! ## What a request is to have -/

/-- A placeholder with the percent-encoding of its argument. -/
def fill_name (arguments : Arguments) (name : List Char) : List Char :=
  percent (python.text_of ((argument arguments name).getD .null))

/-- A text with its placeholders filled. -/
def fill (arguments : Arguments) (text : List Char) : List Char :=
  sub PLACEHOLDER (fill_name python arguments) text

/-- There is an argument for the placeholder, and it is not `None`. -/
def given (arguments : Arguments) (name : List Char) : Bool :=
  !((argument arguments name).getD .null).is_none

/-- Every argument has its place in the call, and the url has the parts of its template. -/
structure Sent (config : HttpToolConfig) (arguments : Arguments) (call : Call) : Prop where
  method : call.method = config.method
  given : ∀ name ∈ placeholders config.url.toList, given arguments name = true
  url : call.url = fill python arguments config.url.toList
  path : path_segments call.url =
    (path_segments config.url.toList).map (fill python arguments)
  query : query call.url = (query config.url.toList).map (fill python arguments)
  fragment : fragment call.url = (fragment config.url.toList).map (fill python arguments)
  others : call.params.getD [] ++ call.json.getD [] =
    arguments.filter fun field => !((placeholders config.url.toList).map key_of).contains field.1
  place : call.params.isSome = QUERY_METHODS.contains config.method ∧
    call.json.isSome = !QUERY_METHODS.contains config.method

/-- A request has its arguments, or it is refused as a calculation is. -/
def Right (config : HttpToolConfig) (arguments : Arguments) :
    Except HttpToolError Call → Prop
  | .ok call => Sent python config arguments call
  | .error e => ∃ message, e = .calculator message

/-- The values of the placeholders can be encoded, up to the first that is not given. -/
def encodes_in_turn (arguments : Arguments) : List (List Char) → Bool
  | [] => true
  | name :: names =>
    !given arguments name ||
      (encodes_text (python.text_of ((argument arguments name).getD .null)) &&
        encodes_in_turn arguments names)

/-- No segment of the path becomes `.` or `..` when its placeholders are filled. -/
def KeepsSegments (template : List Char) (arguments : Arguments) : Prop :=
  ∀ segment ∈ (segments template).drop 3,
    is_dots (fill python arguments segment) = true → is_dots segment = true

structure Fine (template : List Char) (arguments : Arguments) : Prop where
  encodes : encodes_in_turn python arguments (placeholders template) = true
  segments : (∀ name ∈ placeholders template, given arguments name = true) →
    KeepsSegments python template arguments

end

/-! ## What `quote` writes -/

theorem hex_is_plain : ∀ n < 16, unreserved (hex n) = true := by
  decide

theorem marks_are_other {c : Char} (hc : c ∈ ['/', '?', '#']) :
    unreserved c = false ∧ c ≠ '%' ∧ is_key c = false ∧ '}' ≠ c ∧ '{' ≠ c := by
  simp only [List.mem_cons, List.not_mem_nil, or_false] at hc
  rcases hc with rfl | rfl | rfl
  · decide
  · decide
  · decide

theorem hex_not_mark {c : Char} (hc : c ∈ ['/', '?', '#']) (n : Nat) (hn : n < 16) :
    hex n ≠ c := by
  rintro rfl
  have hother := (marks_are_other hc).1
  rw [hex_is_plain n hn] at hother
  cases hother

/-- No slash, no question mark and no number sign comes out of `quote`. -/
theorem mark_not_in_percent {c : Char} (hc : c ∈ ['/', '?', '#']) (t : PyText) :
    c ∉ percent t := by
  intro hmem
  obtain ⟨b, -, hbyte⟩ := List.mem_flatMap.mp hmem
  obtain ⟨hreserved, hpercent, -⟩ := marks_are_other hc
  unfold quote_byte at hbyte
  split at hbyte
  · rename_i hplain
    rw [List.mem_singleton] at hbyte
    rw [← hbyte, hreserved] at hplain
    cases hplain
  · rcases List.mem_cons.mp hbyte with heq | hbyte
    · exact hpercent heq
    · rcases List.mem_cons.mp hbyte with heq | hbyte
      · exact hex_not_mark hc _ (Nat.mod_lt _ (by decide)) heq.symm
      · rw [List.mem_singleton] at hbyte
        exact hex_not_mark hc _ (Nat.mod_lt _ (by decide)) hbyte.symm

theorem fits_PLACEHOLDER : Fits PLACEHOLDER := fits_after_literal _ (fits_group_run _ _)

theorem stops_PLACEHOLDER {c : Char} (hc : c ∈ ['/', '?', '#']) : Stops PLACEHOLDER c := by
  obtain ⟨-, -, hkey, hclosing, hopening⟩ := marks_are_other hc
  exact stops_after_literal hopening (stops_group_run hkey hclosing)

/-! ## The parts of a filled url -/

section
variable {python : Python} {arguments : Arguments}

theorem fill_mark {c : Char} (hc : c ∈ ['/', '?', '#']) (before rest : List Char) :
    fill python arguments (before ++ c :: rest) =
      fill python arguments before ++ c :: fill python arguments rest :=
  sub_stop fits_PLACEHOLDER (stops_PLACEHOLDER hc) _ before rest

theorem mark_not_in_fill {c : Char} (hc : c ∈ ['/', '?', '#']) {text : List Char} (h : c ∉ text) :
    c ∉ fill python arguments text :=
  not_mem_sub fits_PLACEHOLDER (fun _ => mark_not_in_percent hc _) h

theorem takeWhile_mark {c : Char} {before : List Char} (h : c ∉ before) (rest : List Char) :
    (before ++ c :: rest).takeWhile (· != c) = before ∧
      (before ++ c :: rest).dropWhile (· != c) = c :: rest := by
  have hbefore : ∀ d ∈ before, (d != c) = true := by
    intro d hd
    rw [bne_iff_ne]
    rintro rfl
    exact h hd
  constructor
  · rw [List.takeWhile_append_of_pos hbefore, List.takeWhile_cons, bne_self_eq_false]
    exact List.append_nil _
  · rw [List.dropWhile_append_of_pos hbefore, List.dropWhile_cons, bne_self_eq_false]
    rfl

theorem no_mark {c : Char} {text : List Char} (h : c ∉ text) :
    text.takeWhile (· != c) = text ∧ text.dropWhile (· != c) = [] := by
  have htext : ∀ d ∈ text, (d != c) = true := by
    intro d hd
    rw [bne_iff_ne]
    rintro rfl
    exact h hd
  exact ⟨List.takeWhile_eq_self_iff.mpr htext, List.dropWhile_eq_nil_iff.mpr htext⟩

/-- A filled text is cut at a mark where the text is. -/
theorem fill_cut {c : Char} (hc : c ∈ ['/', '?', '#']) (text : List Char) :
    (fill python arguments text).takeWhile (· != c) =
        fill python arguments (text.takeWhile (· != c)) ∧
      behind c (fill python arguments text) =
        (behind c text).map (fill python arguments) := by
  unfold behind
  by_cases hmem : c ∈ text
  · obtain ⟨before, rest, rfl, hbefore⟩ := List.eq_append_cons_of_mem hmem
    rw [fill_mark hc, (takeWhile_mark hbefore rest).1, (takeWhile_mark hbefore rest).2,
      (takeWhile_mark (mark_not_in_fill hc hbefore) _).1,
      (takeWhile_mark (mark_not_in_fill hc hbefore) _).2]
    exact ⟨rfl, rfl⟩
  · rw [(no_mark hmem).1, (no_mark hmem).2, (no_mark (mark_not_in_fill hc hmem)).1,
      (no_mark (mark_not_in_fill hc hmem)).2]
    exact ⟨rfl, rfl⟩

theorem fill_fragment (url : List Char) :
    fragment (fill python arguments url) = (fragment url).map (fill python arguments) :=
  (fill_cut (by decide) url).2

theorem fill_query (url : List Char) :
    query (fill python arguments url) = (query url).map (fill python arguments) := by
  unfold query
  rw [(fill_cut (by decide) url).1]
  exact (fill_cut (by decide) _).2

theorem fill_segments (url : List Char) :
    segments (fill python arguments url) = (segments url).map (fill python arguments) := by
  unfold segments
  rw [(fill_cut (by decide) url).1, (fill_cut (by decide) _).1]
  generalize (url.takeWhile (· != '#')).takeWhile (· != '?') = main
  have hjoin : ['/'].intercalate (main.splitOn '/') = main := List.intercalate_splitOn '/'
  have hslash : ∀ part ∈ main.splitOn '/', '/' ∉ part := posix_paths.parts_no_slash main
  have hne : main.splitOn '/' ≠ [] := List.splitOn_ne_nil _ _
  generalize main.splitOn '/' = names at hjoin hslash hne
  rw [← hjoin]
  have hfill : fill python arguments (['/'].intercalate names) =
      ['/'].intercalate (names.map (fill python arguments)) :=
    sub_intercalate fits_PLACEHOLDER (stops_PLACEHOLDER (by decide)) _ names
  rw [hfill]
  refine posix_paths.parts_intercalate (fun name hname => ?_) (by simpa using hne)
  obtain ⟨part, hpart, rfl⟩ := List.mem_map.mp hname
  exact mark_not_in_fill (by decide) (hslash part hpart)

/-! ## Dot segments -/

theorem dots_fold_map {f : List Char → List Char} (path output : List (List Char))
    (hdots : ∀ segment ∈ path, is_dots (f segment) = true → is_dots segment = true)
    (hsame : ∀ segment, is_dots segment = true → f segment = segment) :
    (path.map f).foldl dots_step (output.map f) = (path.foldl dots_step output).map f := by
  induction path generalizing output with
  | nil => rfl
  | cons segment path ih =>
    rw [List.map_cons, List.foldl_cons, List.foldl_cons,
      ← ih _ (fun next hnext => hdots next (List.mem_cons_of_mem _ hnext))]
    congr 1
    by_cases hsegment : is_dots segment = true
    · rw [hsame segment hsegment]
      unfold dots_step
      split
      · rfl
      · split
        · rw [List.map_dropLast]
        · rename_i hone htwo
          rw [is_dots, Bool.or_eq_true, decide_eq_true_iff, decide_eq_true_iff] at hsegment
          exact absurd hsegment (not_or.mpr ⟨hone, htwo⟩)
    · have hfilled := mt (hdots segment List.mem_cons_self) hsegment
      rw [is_dots, Bool.or_eq_true, decide_eq_true_iff, decide_eq_true_iff, not_or]
        at hsegment hfilled
      rw [dots_step, if_neg hfilled.1, if_neg hfilled.2, dots_step, if_neg hsegment.1,
        if_neg hsegment.2, List.map_append]
      rfl

/-- Dots are resolved in the filled path as in the path, if they are at the same places. -/
theorem remove_dots_map {f : List Char → List Char} {path : List (List Char)}
    (hdots : ∀ segment ∈ path, is_dots (f segment) = true → is_dots segment = true)
    (hsame : ∀ segment, is_dots segment = true → f segment = segment) (hnil : f [] = []) :
    remove_dot_segments (path.map f) = (remove_dot_segments path).map f := by
  have hfold := dots_fold_map path [] hdots hsame
  rw [List.map_nil] at hfold
  have hlast : (path.map f).getLast?.any is_dots = path.getLast?.any is_dots := by
    rw [List.getLast?_map]
    cases hend : path.getLast? with
    | none => rfl
    | some segment =>
      have hmem := List.mem_of_getLast? hend
      rw [Option.map_some, Option.any_some, Option.any_some, Bool.eq_iff_iff]
      refine ⟨hdots segment hmem, fun hsegment => ?_⟩
      rw [hsame segment hsegment]
      exact hsegment
  unfold remove_dot_segments
  dsimp only
  rw [hfold, hlast]
  split
  · rw [List.map_append, List.map_cons, List.map_nil, hnil]
  · rfl

/-- No dots are left. -/
theorem dots_fold_clean {path output : List (List Char)}
    (houtput : ∀ segment ∈ output, is_dots segment = false) :
    ∀ segment ∈ path.foldl dots_step output, is_dots segment = false := by
  induction path generalizing output with
  | nil => exact houtput
  | cons next path ih =>
    refine ih fun segment hsegment => ?_
    unfold dots_step at hsegment
    split at hsegment
    · exact houtput segment hsegment
    · split at hsegment
      · exact houtput segment ((List.dropLast_sublist _).subset hsegment)
      · rename_i hone htwo
        rcases List.mem_append.mp hsegment with hold | hnew
        · exact houtput segment hold
        · rw [List.mem_singleton.mp hnew, is_dots, Bool.or_eq_false_iff, decide_eq_false_iff_not,
            decide_eq_false_iff_not]
          exact ⟨hone, htwo⟩

theorem remove_dots_clean (path : List (List Char)) :
    ∀ segment ∈ remove_dot_segments path, is_dots segment = false := by
  intro segment hsegment
  have hclean := @dots_fold_clean path [] (fun _ h => absurd h List.not_mem_nil)
  unfold remove_dot_segments at hsegment
  dsimp only at hsegment
  split at hsegment
  · rcases List.mem_append.mp hsegment with hold | hnew
    · exact hclean segment hold
    · rw [List.mem_singleton.mp hnew]
      rfl
  · exact hclean segment hsegment

/-- A path without dots stays as it is. -/
theorem remove_dots_plain {path : List (List Char)}
    (h : ∀ segment ∈ path, is_dots segment = false) : remove_dot_segments path = path := by
  have hfold : ∀ output, path.foldl dots_step output = output ++ path := by
    induction path with
    | nil => exact fun output => (List.append_nil output).symm
    | cons next path ih =>
      intro output
      have hnext := h next List.mem_cons_self
      rw [is_dots, Bool.or_eq_false_iff, decide_eq_false_iff_not, decide_eq_false_iff_not] at hnext
      rw [List.foldl_cons, ih (fun segment hsegment => h segment (List.mem_cons_of_mem _ hsegment)),
        dots_step, if_neg hnext.1, if_neg hnext.2, List.append_assoc]
      rfl
  have hlast : path.getLast?.any is_dots = false := by
    cases hend : path.getLast? with
    | none => rfl
    | some segment => exact h segment (List.mem_of_getLast? hend)
  unfold remove_dot_segments
  dsimp only
  rw [hfold, hlast, List.nil_append]
  rfl

end

/-! ## The call and its errors -/

section
variable {python : Python} {arguments : Arguments}

/-- What a piece of the template becomes. -/
def filled_piece (python : Python) (arguments : Arguments) (piece : Piece (List Char)) :
    List Char :=
  piece.rendered (fill_name python arguments)

theorem replace_placeholder_cases (name : List Char) :
    (given arguments name = true ∧
        encodes_text (python.text_of ((argument arguments name).getD .null)) = true ∧
        replace_placeholder python arguments name = .ok (fill_name python arguments name)) ∨
      (given arguments name = true ∧
        encodes_text (python.text_of ((argument arguments name).getD .null)) = false ∧
        replace_placeholder python arguments name = .error .unicode_encode) ∨
      (given arguments name = false ∧
        ∃ message, replace_placeholder python arguments name = .error (.calculator message)) := by
  unfold replace_placeholder given fill_name
  cases argument arguments name with
  | none => exact .inr (.inr ⟨rfl, _, rfl⟩)
  | some value =>
    dsimp only [Option.getD_some]
    cases value.is_none with
    | true => exact .inr (.inr ⟨rfl, _, rfl⟩)
    | false =>
      unfold quote
      cases encodes_text (python.text_of value) with
      | true => exact .inl ⟨rfl, rfl, rfl⟩
      | false => exact .inr (.inl ⟨rfl, rfl, rfl⟩)

/-- The pieces are replaced from the left up to the first error. -/
theorem replace_pieces_cases (pieces : List (Piece (List Char))) :
    (encodes_in_turn python arguments (pieces.filterMap Piece.captured) = true ∧
        (∀ name ∈ pieces.filterMap Piece.captured, given arguments name = true) ∧
        pieces.mapM (replace_piece python arguments) =
          .ok (pieces.map (filled_piece python arguments))) ∨
      (encodes_in_turn python arguments (pieces.filterMap Piece.captured) = true ∧
        (∃ name ∈ pieces.filterMap Piece.captured, given arguments name = false) ∧
        ∃ message, pieces.mapM (replace_piece python arguments) =
          .error (.calculator message)) ∨
      (encodes_in_turn python arguments (pieces.filterMap Piece.captured) = false ∧
        pieces.mapM (replace_piece python arguments) = .error .unicode_encode) := by
  induction pieces with
  | nil => exact .inl ⟨rfl, fun _ h => absurd h List.not_mem_nil, rfl⟩
  | cons piece pieces ih =>
    cases piece with
    | between text =>
      have hnames : (Piece.between text :: pieces).filterMap Piece.captured =
          pieces.filterMap Piece.captured := rfl
      rw [hnames, List.mapM_cons]
      rcases ih with ⟨hturn, hall, hmap⟩ | ⟨hturn, hnot, message, hmap⟩ | ⟨hturn, hmap⟩
      · exact .inl ⟨hturn, hall, by rw [hmap]; rfl⟩
      · exact .inr (.inl ⟨hturn, hnot, message, by rw [hmap]; rfl⟩)
      · exact .inr (.inr ⟨hturn, by rw [hmap]; rfl⟩)
    | matched taken name =>
      have hnames : (Piece.matched taken name :: pieces).filterMap Piece.captured =
          name :: pieces.filterMap Piece.captured := rfl
      have hpiece : replace_piece python arguments (.matched taken name) =
          replace_placeholder python arguments name := rfl
      rw [hnames, List.mapM_cons, hpiece, encodes_in_turn]
      rcases @replace_placeholder_cases python arguments name with
        ⟨hgiven, hencodes, hout⟩ | ⟨hgiven, hencodes, hout⟩ | ⟨hmissing, message, hout⟩
      · rw [hgiven, hencodes, hout]
        rcases ih with ⟨hturn, hall, hmap⟩ | ⟨hturn, hnot, message, hmap⟩ | ⟨hturn, hmap⟩
        · refine .inl ⟨hturn, ?_, by rw [hmap]; rfl⟩
          rintro next (_ | ⟨_, hnext⟩)
          · exact hgiven
          · exact hall next hnext
        · obtain ⟨missing, hmem, hmissing⟩ := hnot
          exact .inr (.inl ⟨hturn, ⟨missing, List.mem_cons_of_mem _ hmem, hmissing⟩, message,
            by rw [hmap]; rfl⟩)
        · exact .inr (.inr ⟨hturn, by rw [hmap]; rfl⟩)
      · rw [hgiven, hencodes, hout]
        exact .inr (.inr ⟨rfl, rfl⟩)
      · rw [hmissing, hout]
        exact .inr (.inl ⟨rfl, ⟨name, List.mem_cons_self, hmissing⟩, message, rfl⟩)

/-- What the tool does once its configuration is read. -/
theorem run_cases {implementation_config : JsonValue} {config : HttpToolConfig}
    (hconfig : normalize_http_tool_config python implementation_config = .ok config) :
    (encodes_in_turn python arguments (placeholders config.url.toList) = true ∧
        (∀ name ∈ placeholders config.url.toList, given arguments name = true) ∧
        ∃ call, run_http_tool python (.dict arguments) implementation_config = .ok call ∧
          call.method = config.method ∧ call.url = fill python arguments config.url.toList ∧
          call.params.getD [] ++ call.json.getD [] = arguments.filter (fun field =>
            !((placeholders config.url.toList).map key_of).contains field.1) ∧
          call.params.isSome = QUERY_METHODS.contains config.method ∧
          call.json.isSome = !QUERY_METHODS.contains config.method) ∨
      (encodes_in_turn python arguments (placeholders config.url.toList) = true ∧
        (∃ name ∈ placeholders config.url.toList, given arguments name = false) ∧
        ∃ message, run_http_tool python (.dict arguments) implementation_config =
          .error (.calculator message)) ∨
      (encodes_in_turn python arguments (placeholders config.url.toList) = false ∧
        run_http_tool python (.dict arguments) implementation_config =
          .error .unicode_encode) := by
  have hrun : run_http_tool python (.dict arguments) implementation_config =
      (inject_http_path_params python config.url.toList arguments).bind fun injected =>
        .ok (call_of config injected.1 injected.2) := by
    rw [run_http_tool, hconfig]
    rfl
  rw [hrun, inject_http_path_params]
  have hpieces := @replace_pieces_cases python arguments (split PLACEHOLDER config.url.toList)
  rcases hpieces with ⟨hturn, hall, hmap⟩ | ⟨hturn, hnot, message, hmap⟩ | ⟨hturn, hmap⟩
  · refine .inl ⟨hturn, hall, ?_⟩
    have hurl : ((split PLACEHOLDER config.url.toList).map
        (filled_piece python arguments)).flatten = fill python arguments config.url.toList := by
      rw [fill, sub, List.flatMap_def]
      rfl
    rw [hmap]
    refine ⟨_, rfl, rfl, hurl, ?_⟩
    unfold call_of
    dsimp only
    cases QUERY_METHODS.contains config.method with
    | true => exact ⟨List.append_nil _, rfl, rfl⟩
    | false => exact ⟨rfl, rfl, rfl⟩
  · exact .inr (.inl ⟨hturn, hnot, message, by rw [hmap]; rfl⟩)
  · exact .inr (.inr ⟨hturn, by rw [hmap]; rfl⟩)

end

/-! ## The law -/

section
variable {python : Python} {arguments : Arguments}

theorem fill_dots {segment : List Char} (h : is_dots segment = true) :
    fill python arguments segment = segment := by
  rw [is_dots, Bool.or_eq_true, decide_eq_true_iff, decide_eq_true_iff] at h
  rcases h with rfl | rfl
  · rfl
  · rfl

theorem fill_path (url : List Char) :
    path_segments (fill python arguments url) =
      remove_dot_segments (((segments url).drop 3).map (fill python arguments)) := by
  rw [path_segments, fill_segments, List.map_drop]

/-- LAW: every argument has its place in the request, or the call is refused, exactly when the
values of the placeholders can be encoded and none makes a segment of the path into dots. (With
dots of its own the path of a template can hide such a segment.) -/
theorem arguments_are_sent {implementation_config : JsonValue} {config : HttpToolConfig}
    (hconfig : normalize_http_tool_config python implementation_config = .ok config) :
    (Fine python config.url.toList arguments → Right python config arguments
        (run_http_tool python (.dict arguments) implementation_config)) ∧
      ((∀ segment ∈ (segments config.url.toList).drop 3, is_dots segment = false) →
        Right python config arguments
          (run_http_tool python (.dict arguments) implementation_config) →
        Fine python config.url.toList arguments) := by
  rcases @run_cases python arguments implementation_config config hconfig with
    ⟨hturn, hall, call, hcall, hmethod, hurl, hothers, hplace⟩ |
    ⟨hturn, hnot, message, hcall⟩ | ⟨hturn, hcall⟩
  · rw [hcall]
    constructor
    · intro hfine
      have hpath : path_segments call.url =
          (path_segments config.url.toList).map (fill python arguments) := by
        rw [hurl, fill_path]
        exact remove_dots_map (hfine.segments hall) (fun _ => fill_dots) rfl
      exact ⟨hmethod, hall, hurl, hpath, by rw [hurl, fill_query], by rw [hurl, fill_fragment],
        hothers, hplace⟩
    · intro hown hsent
      refine ⟨hturn, fun _ segment hsegment hdots => ?_⟩
      have hpath := hsent.path
      rw [hurl, fill_path, path_segments, remove_dots_plain hown] at hpath
      have hclean := remove_dots_clean
        (((segments config.url.toList).drop 3).map (fill python arguments))
      rw [hpath] at hclean
      rw [hclean _ (List.mem_map_of_mem hsegment)] at hdots
      cases hdots
  · rw [hcall]
    refine ⟨fun _ => ⟨message, rfl⟩, fun _ _ => ⟨hturn, fun hall => ?_⟩⟩
    obtain ⟨name, hname, hmissing⟩ := hnot
    rw [hall name hname] at hmissing
    cases hmissing
  · rw [hcall]
    constructor
    · intro hfine
      rw [hfine.encodes] at hturn
      cases hturn
    · rintro - ⟨message, hmessage⟩
      cases hmessage

end

/-- Python for texts alone. -/
def TEXTS : Python where
  str
    | .str text => text
    | _ => ""
  text_of := str_of fun _ => ""
  upper := id
  float := fun _ => .error .refused

def FILE_TOOL : JsonValue := .dict [("url", .str "https://api.test/files/{name}/info")]

def FILE_CONFIG : HttpToolConfig :=
  ⟨"GET", "https://api.test/files/{name}/info", [], .finite 30⟩

/-- A name with a slash and a blank, and one argument more. -/
theorem a_name_is_sent :
    Right TEXTS FILE_CONFIG [(text "name", .str (text "a/b c")), (text "page", .int 2)]
      (run_http_tool TEXTS (.dict [(text "name", .str (text "a/b c")), (text "page", .int 2)])
        FILE_TOOL) := by
  have hconfig : normalize_http_tool_config TEXTS FILE_TOOL = .ok FILE_CONFIG := rfl
  refine (arguments_are_sent hconfig).1 ⟨by decide, fun _ => ?_⟩
  unfold KeepsSegments
  decide

/-- A name of two dots takes a segment from the path, and a name that cannot be encoded is not
refused as it is to be. -/
theorem a_name_is_lost :
    normalize_http_tool_config TEXTS FILE_TOOL = .ok FILE_CONFIG ∧
      ¬Right TEXTS FILE_CONFIG [(text "name", .str (text ".."))]
        (run_http_tool TEXTS (.dict [(text "name", .str (text ".."))]) FILE_TOOL) ∧
      ¬Right TEXTS FILE_CONFIG [(text "name", .str [0xD800])]
        (run_http_tool TEXTS (.dict [(text "name", .str [0xD800])]) FILE_TOOL) := by
  refine ⟨rfl, fun hsent => ?_, fun hrefused => ?_⟩
  · have hpath := hsent.path
    revert hpath
    decide
  · have hcall : run_http_tool TEXTS (.dict [(text "name", .str [0xD800])]) FILE_TOOL =
        .error .unicode_encode := rfl
    rw [hcall] at hrefused
    obtain ⟨message, hmessage⟩ := hrefused
    cases hmessage

end dr_boz.http_tools
