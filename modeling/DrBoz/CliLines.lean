-- The lines that the CLI writes to stdout, as the reader of the Codex proxy
-- takes them (`_read_stdout` of `codex_proxy.py`): any JSON object, the text
-- and the tokens that it finds in it, and the values on which it dies. On the
-- other lines it reads what the events of the proxy say.
import DrBoz.CodexProxy
import DrBoz.Texts

open dr_boz.py dr_boz.codex_proxy

namespace dr_boz.cli_lines

/-! ## JSON values -/

/-- A value that `json.loads` gives, with the three numbers that only Python
reads. -/
inductive JsonValue where
  | null
  | bool (b : Bool)
  | int (n : Int)
  | float (x : PyFloat)
  | infinity
  | minus_infinity
  | nan
  | str (text : String)
  | list (items : List JsonValue)
  | dict (fields : List (String × JsonValue))

abbrev Fields := List (String × JsonValue)

def JsonValue.truthy : JsonValue → Bool
  | .null => false
  | .bool b => b
  | .int n => n ≠ 0
  | .float x => x ≠ 0
  | .infinity | .minus_infinity | .nan => true
  | .str text => text ≠ ""
  | .list items => !items.isEmpty
  | .dict fields => !fields.isEmpty

/-- `a or b` -/
def JsonValue.or (a b : JsonValue) : JsonValue := if a.truthy then a else b

/-- `event.get(key, default)` -/
def Fields.get (event : Fields) (key : String) (default : JsonValue) : JsonValue :=
  ((event.find? fun field => field.1 = key).map Prod.snd).getD default

/-- `fields[key] = value` -/
def set_field (fields : Fields) (key : String) (value : JsonValue) : Fields :=
  if fields.any (fun field => field.1 = key) then
    fields.map fun field => if field.1 = key then (key, value) else field
  else fields ++ [(key, value)]

theorem get_set_field (fields : Fields) (key : String) (value default : JsonValue) :
    (set_field fields key value).get key default = value := by
  unfold set_field Fields.get
  split
  · rename_i hany
    obtain ⟨field, hfield, hkey⟩ := List.any_eq_true.mp hany
    cases hfind : (fields.map fun field =>
        if field.1 = key then (key, value) else field).find? fun field => field.1 = key with
    | none =>
      rw [List.find?_eq_none] at hfind
      exact absurd (hfind _ (List.mem_map_of_mem hfield)) (by simp [of_decide_eq_true hkey])
    | some found =>
      have hfound := List.find?_some hfind
      obtain ⟨old, -, rfl⟩ := List.mem_map.mp (List.mem_of_find?_eq_some hfind)
      by_cases hold : old.1 = key
      · simp [hold]
      · simp [hold] at hfound
  · rename_i hany
    have hnone : fields.find? (fun field => field.1 = key) = none := by
      rw [List.find?_eq_none]
      intro field hfield hkey
      exact hany (List.any_eq_true.mpr ⟨field, hfield, hkey⟩)
    simp [List.find?_append, hnone]

theorem find_map_other (fields : Fields) {key other : String} (value : JsonValue)
    (h : other ≠ key) :
    (fields.map fun field => if field.1 = key then (key, value) else field).find?
      (fun field => field.1 = other) = fields.find? fun field => field.1 = other := by
  induction fields with
  | nil => rfl
  | cons field fields ih =>
    rw [List.map_cons, List.find?_cons, List.find?_cons, ih]
    by_cases hkey : field.1 = key
    · have hfield : field.1 ≠ other := fun hother => h (hother.symm.trans hkey)
      simp [hkey, hkey ▸ hfield]
    · rw [if_neg hkey]

theorem get_set_field_other (fields : Fields) {key other : String} (value default : JsonValue)
    (h : other ≠ key) :
    (set_field fields key value).get other default = fields.get other default := by
  unfold set_field Fields.get
  split
  · rw [find_map_other fields value h]
  · rw [List.find?_append]
    simp [h.symm]

/-- `value == text` -/
def JsonValue.is_text (value : JsonValue) (text : String) : Bool :=
  match value with
  | .str s => s = text
  | _ => false

/-! ## Reading a line -/

/-- What ends the reader of stdout. -/
inductive ReaderError where
  | value_error
  | recursion_error
  | type_error
  | overflow_error
deriving DecidableEq, Repr

/-- `value in {"agent_message", "message"}`: a list or a dictionary has no hash. -/
def among_messages : JsonValue → Except ReaderError Bool
  | .list _ | .dict _ => .error .type_error
  | .str text => .ok (text ∈ MESSAGE_TYPES)
  | _ => .ok false

/-- `fields.get("content") or fields.get("text") or ""` -/
def own_content (fields : Fields) : JsonValue :=
  ((fields.get "content" .null).or (fields.get "text" .null)).or (.str "")

/-- The content of a message that is a dictionary. -/
def content_in (message : JsonValue) : JsonValue :=
  match message with
  | .dict message => own_content message
  | _ => .str ""

def message_content (event : Fields) : JsonValue :=
  content_in (((event.get "message" .null).or (event.get "msg" .null)).or (.dict []))

def item_content (event : Fields) (content : JsonValue) : Except ReaderError JsonValue :=
  match event.get "item" .null with
  | .dict item => do
    if ← among_messages (Fields.get item "type" .null) then return own_content item
    else return content
  | _ => return content

def found_content (event : Fields) : Except ReaderError JsonValue := do
  let event_type := event.get "type" (.str "")
  let content := message_content event
  if content.truthy then return content
  else
  let content ← do
    if ← among_messages event_type then pure (own_content event) else pure content
  if content.truthy then return content
  else if event_type.is_text "item.completed" then item_content event content
  else return content

/-- The text that goes to the client. -/
def said (content : JsonValue) : Option String :=
  match content with
  | .str text => if strip text = "" then none else some text
  | _ => none

/-- `int(x)` of a float -/
def truncated (x : PyFloat) : Int := if 0 ≤ x then ⌊x⌋ else ⌈x⌉

/-- `_coerce`: `int(v or 0)`, and 0 for what raises a `TypeError` or a
`ValueError`. Infinity raises another error. -/
def coerce (v : JsonValue) : Except ReaderError Int :=
  match v.or (.int 0) with
  | .int n => .ok n
  | .bool b => .ok (if b then 1 else 0)
  | .float x => .ok (truncated x)
  | .infinity | .minus_infinity => .error .overflow_error
  | .str text => .ok ((texts.int_of text).getD 0)
  | .null | .nan | .list _ | .dict _ => .ok 0

/-- The tokens of an event that reports them. -/
def reported (event : Fields) : Except ReaderError (Option (Int × Int)) :=
  if (event.get "type" (.str "")).is_text "turn.completed" then
    match event.get "usage" .null with
    | .dict usage => do
      let input_tokens ← coerce (Fields.get usage "input_tokens" .null)
      let output_tokens ← coerce (Fields.get usage "output_tokens" .null)
      return some (input_tokens, output_tokens)
    | _ => return none
  else return none

/-- A line of stdout: too long for `readline`, no JSON object, an object that is
nested too deeply for `json.loads`, or an event. -/
inductive StdoutLine where
  | overlong
  | skipped
  | nested
  | event (fields : Fields)

/-- What a line leaves: a text for the client, and tokens or an exception. The
text goes out before the tokens are read. -/
structure Reading where
  said : Option String := none
  usage : Except ReaderError (Option (Int × Int)) := .ok none

def read_line : StdoutLine → Reading
  | .overlong => { usage := .error .value_error }
  | .skipped => {}
  | .nested => { usage := .error .recursion_error }
  | .event fields =>
    match found_content fields with
    | .error e => { usage := .error e }
    | .ok content => { said := said content, usage := reported fields }

/-- The line does not end the reader. -/
def StdoutLine.readable (line : StdoutLine) : Bool :=
  match (read_line line).usage with
  | .ok _ => true
  | .error _ => false

/-! ## Many lines -/

/-- The texts of the lines for the client. -/
def texts_of (lines : List StdoutLine) : List String :=
  lines.filterMap fun line => (read_line line).said

/-- The tokens after a line. -/
def Reading.tokens (r : Reading) (usage : Int × Int) : Int × Int :=
  match r.usage with
  | .ok reported => reported.getD usage
  | .error _ => usage

/-- The tokens of the last line that reports some. -/
def tokens_of (lines : List StdoutLine) : Int × Int :=
  lines.foldl (fun usage line => (read_line line).tokens usage) (0, 0)

theorem texts_append (read : List StdoutLine) (line : StdoutLine) :
    texts_of (read ++ [line]) = texts_of read ++ (read_line line).said.toList := by
  unfold texts_of
  rw [List.filterMap_append]
  cases h : (read_line line).said with
  | none => simp [h]
  | some text => simp [h]

/-! ## The events as the proxy reads them -/

/-- A field as the reader looks at it. -/
def value_of (v : JsonValue) : Value :=
  match v with
  | .str text => if text = "" then .falsy else .str text
  | v => if v.truthy then .other else .falsy

def part_of (v : JsonValue) : Part :=
  match v with
  | .dict message =>
    if message.isEmpty then .falsy
    else .dict (value_of (Fields.get message "content" .null))
      (value_of (Fields.get message "text" .null))
  | v => if v.truthy then .other else .falsy

/-- A type that is no text is none of the types that are asked for. -/
def type_of (v : JsonValue) : String :=
  match v with
  | .str text => text
  | _ => ""

def item_of (v : JsonValue) : Option Item :=
  match v with
  | .dict item => some
    { type := type_of (Fields.get item "type" .null)
      content := value_of (Fields.get item "content" .null)
      text := value_of (Fields.get item "text" .null) }
  | _ => none

def tokens_reported (v : JsonValue) : Option (Int × Int) :=
  match v with
  | .dict usage =>
    match coerce (Fields.get usage "input_tokens" .null),
        coerce (Fields.get usage "output_tokens" .null) with
    | .ok input_tokens, .ok output_tokens => some (input_tokens, output_tokens)
    | _, _ => none
  | _ => none

def event_of (event : Fields) : CliEvent where
  type := type_of (event.get "type" (.str ""))
  message := part_of (event.get "message" .null)
  msg := part_of (event.get "msg" .null)
  content := value_of (event.get "content" .null)
  text := value_of (event.get "text" .null)
  item := item_of (event.get "item" .null)
  usage := tokens_reported (event.get "usage" .null)

def StdoutLine.cli_event : StdoutLine → Option CliEvent
  | .event fields => some (event_of fields)
  | _ => none

theorem truthy_value (v : JsonValue) : (value_of v).truthy = v.truthy := by
  cases v with
  | str text =>
    by_cases h : text = "" <;> simp [value_of, JsonValue.truthy, Value.truthy, h]
  | null | bool | int | float | infinity | minus_infinity | nan | list | dict =>
    simp only [value_of]
    split
    · rename_i h
      rw [h]
      rfl
    · rename_i h
      rw [Bool.not_eq_true] at h
      rw [h]
      rfl

theorem value_or (a b : JsonValue) : value_of (a.or b) = (value_of a).or (value_of b) := by
  unfold JsonValue.or Value.or
  rw [truthy_value]
  split
  · rfl
  · rfl

theorem value_falsy {v : JsonValue} (h : v.truthy = false) : value_of v = .falsy := by
  cases v with
  | str text =>
    have hempty : text = "" := by simpa [JsonValue.truthy] using h
    rw [hempty]
    rfl
  | null | bool | int | float | infinity | minus_infinity | nan | list | dict =>
    simp only [value_of, h]
    rfl

theorem value_own (fields : Fields) :
    value_of (own_content fields) = (value_of (fields.get "content" .null)).or
      (value_of (fields.get "text" .null)) := by
  unfold own_content
  by_cases h : ((fields.get "content" .null).or (fields.get "text" .null)).truthy = true
  · rw [JsonValue.or, if_pos h, value_or]
  · rw [JsonValue.or, if_neg h, ← value_or]
    rw [Bool.not_eq_true] at h
    rw [value_falsy h]
    rfl

theorem part_falsy (v : JsonValue) : part_of v = .falsy ↔ v.truthy = false := by
  cases v with
  | dict fields => cases fields <;> simp [part_of, JsonValue.truthy]
  | null | bool | int | float | infinity | minus_infinity | nan | str | list =>
    simp only [part_of]
    split
    · rename_i h
      simp [h]
    · rename_i h
      simp [Bool.not_eq_true _ |>.mp h]

theorem value_content_in (v : JsonValue) :
    value_of (content_in (v.or (.dict []))) = (part_of v).content := by
  by_cases h : v.truthy = true
  · rw [JsonValue.or, if_pos h]
    cases v with
    | dict fields =>
      have hne : fields.isEmpty = false := by simpa [JsonValue.truthy] using h
      rw [content_in, value_own, part_of, hne]
      rfl
    | null | bool | int | float | infinity | minus_infinity | nan | str | list =>
      simp only [part_of, h, if_true]
      rfl
  · rw [Bool.not_eq_true] at h
    rw [(part_falsy v).mpr h, JsonValue.or, h]
    rfl

theorem value_message (event : Fields) :
    value_of (message_content event) =
      (if (event_of event).message = .falsy then (event_of event).msg
        else (event_of event).message).content := by
  have hfalsy : (event_of event).message = .falsy ↔ (event.get "message" .null).truthy = false :=
    part_falsy _
  unfold message_content
  rw [value_content_in, JsonValue.or]
  by_cases h : (event.get "message" .null).truthy = true
  · rw [if_pos h, if_neg]
    · rfl
    · intro hm
      rw [hfalsy.mp hm] at h
      cases h
  · rw [if_neg h, if_pos (hfalsy.mpr (Bool.not_eq_true _ |>.mp h))]
    rfl

theorem among_iff {v : JsonValue} {b : Bool} (h : among_messages v = .ok b) :
    b = true ↔ type_of v ∈ MESSAGE_TYPES := by
  cases v with
  | str text =>
    cases h
    exact decide_eq_true_iff
  | list | dict => cases h
  | null | bool | int | float | infinity | minus_infinity | nan =>
    cases h
    simp [type_of, MESSAGE_TYPES]

theorem is_text_iff {v : JsonValue} {text : String} (h : text ≠ "") :
    v.is_text text = true ↔ type_of v = text := by
  cases v with
  | str s => exact decide_eq_true_iff
  | null | bool | int | float | infinity | minus_infinity | nan | list | dict =>
    simp [JsonValue.is_text, type_of, h.symm]

/-- What an item gives, as the proxy reads it. -/
def item_said (item : Option Item) (content : Value) : Value :=
  match item with
  | some item => if item.type ∈ MESSAGE_TYPES then item.content.or item.text else content
  | none => content

theorem item_cli {event : Fields} {content v : JsonValue} (h : item_content event content = .ok v) :
    value_of v = item_said (event_of event).item (value_of content) := by
  have hitem : (event_of event).item = item_of (event.get "item" .null) := rfl
  rw [hitem]
  unfold item_content at h
  cases hget : event.get "item" .null with
  | dict item =>
    rw [hget] at h
    change (among_messages (Fields.get item "type" .null) >>= fun b =>
      if b then pure (own_content item) else pure content) = .ok v at h
    cases hamong : among_messages (Fields.get item "type" .null) with
    | error e =>
      rw [hamong] at h
      cases h
    | ok b =>
      have hiff := among_iff hamong
      rw [hamong] at h
      simp only [item_of, item_said]
      cases b with
      | true =>
        cases h
        rw [if_pos (hiff.mp rfl), value_own]
      | false =>
        cases h
        rw [if_neg fun hmem => Bool.false_ne_true (hiff.mpr hmem)]
  | null | bool | int | float | infinity | minus_infinity | nan | str | list =>
    rw [hget] at h
    cases h
    rfl

theorem found_content_eq (event : CliEvent) :
    event.found_content =
      let content := (if event.message = .falsy then event.msg else event.message).content
      let content := if content.truthy = false ∧ event.type ∈ MESSAGE_TYPES
        then event.content.or event.text else content
      if content.truthy = false ∧ event.type = "item.completed" then item_said event.item content
      else content := rfl

/-- The step after the fields of the event itself. -/
theorem completed_cli {event : Fields} {content v : JsonValue}
    (h : (if content.truthy then (.ok content : Except ReaderError JsonValue)
      else if (event.get "type" (.str "")).is_text "item.completed" then item_content event content
      else .ok content) = .ok v) :
    value_of v =
      if (value_of content).truthy = false ∧ (event_of event).type = "item.completed" then
        item_said (event_of event).item (value_of content)
      else value_of content := by
  have hcompleted : (event.get "type" (.str "")).is_text "item.completed" = true ↔
      (event_of event).type = "item.completed" := is_text_iff (by decide)
  rw [truthy_value]
  by_cases htruthy : content.truthy = true
  · rw [if_pos htruthy] at h
    cases h
    rw [if_neg fun hfalse => Bool.false_ne_true (hfalse.1.symm.trans htruthy)]
  · rw [if_neg htruthy] at h
    rw [Bool.not_eq_true] at htruthy
    by_cases hitem : (event.get "type" (.str "")).is_text "item.completed" = true
    · rw [if_pos hitem] at h
      rw [if_pos ⟨htruthy, hcompleted.mp hitem⟩]
      exact item_cli h
    · rw [if_neg hitem] at h
      cases h
      rw [if_neg fun hboth => hitem (hcompleted.mpr hboth.2)]

/-- The reader finds what the proxy finds in the event. -/
theorem found_cli {event : Fields} {v : JsonValue} (h : found_content event = .ok v) :
    value_of v = (event_of event).found_content := by
  have hown : value_of (own_content event) =
      (event_of event).content.or (event_of event).text := value_own event
  rw [found_content_eq]
  simp only [← value_message event, truthy_value]
  unfold found_content at h
  by_cases htruthy : (message_content event).truthy = true
  · rw [if_pos htruthy] at h
    cases h
    simp only [htruthy, truthy_value, reduceCtorEq, false_and, if_false]
  · rw [if_neg htruthy] at h
    rw [Bool.not_eq_true] at htruthy
    cases hamong : among_messages (event.get "type" (.str "")) with
    | error e =>
      rw [hamong] at h
      cases h
    | ok b =>
      have hiff : b = true ↔ (event_of event).type ∈ MESSAGE_TYPES := among_iff hamong
      rw [hamong] at h
      cases b with
      | true =>
        have hsecond : (if (message_content event).truthy = false ∧
            (event_of event).type ∈ MESSAGE_TYPES then
              (event_of event).content.or (event_of event).text
            else value_of (message_content event)) = value_of (own_content event) := by
          rw [if_pos ⟨htruthy, hiff.mp rfl⟩, hown]
        rw [hsecond]
        exact completed_cli h
      | false =>
        have hsecond : (if (message_content event).truthy = false ∧
            (event_of event).type ∈ MESSAGE_TYPES then
              (event_of event).content.or (event_of event).text
            else value_of (message_content event)) = value_of (message_content event) :=
          if_neg fun hboth => Bool.false_ne_true (hiff.mpr hboth.2)
        rw [hsecond]
        exact completed_cli h

theorem said_cli {event : Fields} {v : JsonValue} (h : found_content event = .ok v) :
    said v = (event_of event).said := by
  unfold CliEvent.said
  rw [← found_cli h]
  cases v with
  | str text =>
    by_cases hempty : text = ""
    · subst hempty
      decide
    · simp only [said, value_of, if_neg hempty]
  | null | bool | int | float | infinity | minus_infinity | nan | list | dict =>
    simp only [said, value_of]
    generalize JsonValue.truthy _ = b
    cases b <;> rfl

/-- The tokens of a readable event are those of the proxy. -/
theorem reported_cli {event : Fields} {usage : Option (Int × Int)} (h : reported event = .ok usage)
    (before : Int × Int) :
    usage.getD before =
      if (event_of event).type = "turn.completed" then (event_of event).usage.getD before
      else before := by
  have htype : (event.get "type" (.str "")).is_text "turn.completed" = true ↔
      (event_of event).type = "turn.completed" := is_text_iff (by decide)
  have husage : (event_of event).usage = tokens_reported (event.get "usage" .null) := rfl
  unfold reported at h
  by_cases hturn : (event.get "type" (.str "")).is_text "turn.completed" = true
  · rw [if_pos hturn] at h
    rw [if_pos (htype.mp hturn), husage]
    cases hget : event.get "usage" .null with
    | dict fields =>
      rw [hget] at h
      simp only [tokens_reported]
      cases hinput : coerce (Fields.get fields "input_tokens" .null) with
      | error e =>
        simp only [hinput] at h
        cases h
      | ok input_tokens =>
        cases houtput : coerce (Fields.get fields "output_tokens" .null) with
        | error e =>
          simp only [hinput, houtput] at h
          cases h
        | ok output_tokens =>
          simp only [hinput, houtput] at h
          cases h
          rfl
    | null | bool | int | float | infinity | minus_infinity | nan | str | list =>
      rw [hget] at h
      cases h
      rfl
  · rw [if_neg hturn] at h
    cases h
    rw [if_neg fun hcompleted => hturn (htype.mpr hcompleted)]
    rfl

/-! ## The lines as the proxy reads them -/

def events_of (lines : List StdoutLine) : List CliEvent := lines.filterMap StdoutLine.cli_event

theorem line_said {line : StdoutLine} (h : line.readable = true) :
    (read_line line).said = line.cli_event.bind CliEvent.said := by
  cases line with
  | overlong => cases h
  | nested => cases h
  | skipped => rfl
  | event fields =>
    unfold StdoutLine.readable at h
    simp only [read_line] at h ⊢
    cases hfound : found_content fields with
    | error e =>
      rw [hfound] at h
      cases h
    | ok content => exact said_cli hfound

theorem line_tokens {line : StdoutLine} (h : line.readable = true) (before : Int × Int) :
    (read_line line).tokens before =
      line.cli_event.elim before fun event =>
        if event.type = "turn.completed" then event.usage.getD before else before := by
  cases line with
  | overlong => cases h
  | nested => cases h
  | skipped => rfl
  | event fields =>
    unfold StdoutLine.readable at h
    unfold Reading.tokens
    simp only [read_line] at h ⊢
    cases hfound : found_content fields with
    | error e =>
      rw [hfound] at h
      cases h
    | ok content =>
      rw [hfound] at h
      simp only at h ⊢
      cases hreported : reported fields with
      | error e =>
        rw [hreported] at h
        cases h
      | ok usage => exact reported_cli hreported before

/-- Lines that the reader survives have the texts and the tokens of their events. -/
theorem texts_events {lines : List StdoutLine} (h : ∀ line ∈ lines, line.readable = true) :
    texts_of lines = (events_of lines).filterMap CliEvent.said := by
  unfold texts_of events_of
  rw [List.filterMap_filterMap]
  exact List.filterMap_congr fun line hline => line_said (h line hline)

theorem tokens_events {lines : List StdoutLine} (h : ∀ line ∈ lines, line.readable = true) :
    tokens_of lines = total_usage (events_of lines) := by
  unfold tokens_of total_usage events_of
  generalize ((0, 0) : Int × Int) = before
  induction lines generalizing before with
  | nil => rfl
  | cons line lines ih =>
    rw [List.foldl_cons, line_tokens (h line List.mem_cons_self), List.filterMap_cons]
    have hrest := fun x hx => h x (List.mem_cons_of_mem _ hx)
    cases line.cli_event with
    | none => exact ih hrest before
    | some event => exact ih hrest _

end dr_boz.cli_lines
