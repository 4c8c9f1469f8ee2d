-- The prompt of a Codex run and its image files (`messages_to_codex_prompt` and
-- `_extract_images_from_messages` of `codex_runtime.py`). A label and a file
-- both keep the place of the item that they were made of.
import DrBoz.CliLines

open dr_boz.py dr_boz.cli_lines

namespace dr_boz.codex_prompts

/-! ## What is raised, and what the library does -/

/-- An `LLMProviderError`, or another exception by its text. -/
inductive Raised where
  | llm_provider_error (message code : String) (provider_message : Option String)
  | exception (text : String)
deriving DecidableEq, Repr

/-- The place of an item: the number of its message, and its number there. -/
structure Place where
  message : Nat
  item : Nat
deriving DecidableEq, Repr

/-- A message with its number in `llm_messages`. -/
abbrev Placed := Nat × Fields

/-- `str` of what is no text, `json.dumps`, the characters of `\w`, and the
images whose temporary file can be written. -/
structure Library where
  repr : JsonValue → String
  dumps : JsonValue → String
  is_word : Char → Bool
  writes : Place → Bool

/-- `type(value).__name__` -/
def type_name : JsonValue → String
  | .null => "NoneType"
  | .bool _ => "bool"
  | .int _ => "int"
  | .float _ | .infinity | .minus_infinity | .nan => "float"
  | .str _ => "str"
  | .list _ => "list"
  | .dict _ => "dict"

variable (lib : Library)

/-- `str(value)` -/
def str_of : JsonValue → String
  | .str text => text
  | value => lib.repr value

/-- The items of the contents that are lists, each with its place. -/
def items_of (message : Placed) : List (Place × JsonValue) :=
  match message.2.get "content" .null with
  | .list items => items.zipIdx.map fun (item, i) => (⟨message.1, i⟩, item)
  | _ => []

/-- `item.get("type") == "image_url"` of a dictionary. -/
def is_image : JsonValue → Bool
  | .dict item => (Fields.get item "type" .null).is_text "image_url"
  | _ => false

/-! ## The prompt -/

def image_label (image_index : Nat) : String :=
  "[Image " ++ String.ofList (texts.str_of image_index) ++ "]"

/-- A part of the text of a message. A label has its number and its place. -/
inductive Part where
  | said (text : String)
  | label (number : Nat) (place : Place)
deriving DecidableEq, Repr

def Part.text : Part → String
  | .said text => text
  | .label number _ => image_label number

def Part.label? : Part → Option (Nat × Place)
  | .said _ => none
  | .label number place => some (number, place)

/-- `text_parts` of a list of contents, and `image_index` after it. -/
def text_parts : (image_index : Nat) → List (Place × JsonValue) → List Part × Nat
  | image_index, [] => ([], image_index)
  | image_index, (place, .dict item) :: items =>
    if (Fields.get item "type" .null).is_text "text" then
      let (parts, image_index) := text_parts image_index items
      (.said (str_of lib ((Fields.get item "text" .null).or (.str ""))) :: parts, image_index)
    else if is_image (.dict item) then
      let (parts, last) := text_parts (image_index + 1) items
      (.label (image_index + 1) place :: parts, last)
    else text_parts image_index items
  | image_index, _ :: items => text_parts image_index items

/-- What a message says in the prompt. -/
structure Paragraph where
  role : String
  parts : List Part
deriving DecidableEq, Repr

/-- A content that is no list has one part, without a label. -/
def content_parts (image_index : Nat) (message : Placed) : List Part × Nat :=
  match message.2.get "content" .null with
  | .str text => ([.said text], image_index)
  | .list _ => text_parts lib image_index (items_of message)
  | content => ([.said (lib.dumps content)], image_index)

def paragraphs : (image_index : Nat) → List Placed → List Paragraph
  | _, [] => []
  | image_index, message :: messages =>
    let role := str_of lib ((message.2.get "role" .null).or (.str "user"))
    let (parts, image_index) := content_parts lib image_index message
    ⟨role, parts⟩ :: paragraphs image_index messages

/-- The parts that are not empty, in lines. -/
def Paragraph.text (p : Paragraph) : String :=
  "\n".intercalate ((p.parts.map Part.text).filter (· ≠ ""))

/-- A prompt for a run, the labels in it, and the messages that it was made of. -/
structure Prompt where
  text : String
  labels : List (Nat × Place) := []
  messages : List Placed := []

/-- `messages_to_codex_prompt`. A message without a text is not shown. -/
def messages_to_codex_prompt (messages : List Placed) : Prompt :=
  let shown := (paragraphs lib 0 messages).filter fun p => strip p.text ≠ ""
  { text := strip ("\n\n".intercalate (shown.map fun p => p.role ++ ":\n" ++ strip p.text))
    labels := shown.flatMap fun p => p.parts.filterMap Part.label?
    messages }

/-! ## The image files -/

/-- The digits of base 64. -/
def sextet (c : Char) : Option Nat :=
  if 'A' ≤ c ∧ c ≤ 'Z' then some (c.toNat - 65)
  else if 'a' ≤ c ∧ c ≤ 'z' then some (c.toNat - 71)
  else if '0' ≤ c ∧ c ≤ '9' then some (c.toNat + 4)
  else if c = '+' then some 62
  else if c = '/' then some 63
  else none

/-- `binascii.a2b_base64`: what is no digit is skipped, and the padding ends it. -/
def a2b_base64 : (quad_pos leftchar pads : Nat) → List Char → Option (List Nat)
  | quad_pos, _, _, [] => if quad_pos = 0 then some [] else none
  | quad_pos, leftchar, pads, c :: cs =>
    if c = '=' then
      if quad_pos < 2 then a2b_base64 quad_pos leftchar pads cs
      else if 4 ≤ quad_pos + (pads + 1) then some []
      else a2b_base64 quad_pos leftchar (pads + 1) cs
    else
      match sextet c, quad_pos with
      | none, _ => a2b_base64 quad_pos leftchar pads cs
      | some n, 0 => a2b_base64 1 n 0 cs
      | some n, 1 => (a2b_base64 2 (n % 16) 0 cs).map ((leftchar * 4 + n / 16) :: ·)
      | some n, 2 => (a2b_base64 3 (n % 4) 0 cs).map ((leftchar * 16 + n / 4) :: ·)
      | some n, _ => (a2b_base64 0 0 0 cs).map ((leftchar * 64 + n) :: ·)

/-- `base64.b64decode` of a text, which has to be ASCII. -/
def b64decode (text : List Char) : Option (List Nat) :=
  if text.all fun c => c.toNat < 128 then a2b_base64 0 0 0 text else none

example : b64decode "TWFu TQ==".toList = some [77, 97, 110, 77] := by decide
example : b64decode "TWFuT".toList = none := by decide

/-- `ext_map.get(mime_type, ".jpg")`, of the type that `header` starts with. -/
def extension (header : List Char) : String :=
  let start := "data:image/".toList
  if start.isPrefixOf header then
    let subtype := String.ofList ((header.drop start.length).takeWhile lib.is_word)
    if subtype = "png" then ".png"
    else if subtype = "webp" then ".webp"
    else if subtype = "gif" then ".gif"
    else ".jpg"
  else ".jpg"

/-- A temporary file with an image. -/
structure ImageFile where
  suffix : String
  image_bytes : List Nat
  place : Place
deriving DecidableEq, Repr

/-- The file for a URL: only for a `data:` URL that can be decoded. -/
def image_of_url (place : Place) (url : String) : Option ImageFile :=
  if "data:".toList.isPrefixOf url.toList then
    let header := url.toList.takeWhile (· ≠ ',')
    let b64_data := (url.toList.dropWhile (· ≠ ',')).drop 1
    if b64_data = [] then none
    else if lib.writes place then
      (b64decode b64_data).map fun image_bytes => ⟨extension lib header, image_bytes, place⟩
    else none
  else none

/-- `if not url: continue` and what follows. -/
def image_of (place : Place) (url : JsonValue) : Except Raised (Option ImageFile) :=
  match url with
  | .str text => .ok (image_of_url lib place text)
  | value =>
    if value.truthy then
      .error (.exception ("'" ++ type_name value ++ "' object has no attribute 'startswith'"))
    else .ok none

/-- The file for an item of a content. -/
def image_of_item (place : Place) (item : JsonValue) : Except Raised (Option ImageFile) :=
  match item with
  | .dict fields =>
    if is_image item then
      match Fields.get fields "image_url" (.dict []) with
      | .dict image_url => image_of lib place (Fields.get image_url "url" (.str ""))
      | .str url => image_of lib place (.str url)
      | _ => .ok none
    else .ok none
  | _ => .ok none

/-- `_extract_images_from_messages` -/
def extract_images_from_messages (messages : List Placed) : Except Raised (List ImageFile) := do
  let images ← (messages.flatMap items_of).mapM fun (place, item) => image_of_item lib place item
  return images.filterMap id

end dr_boz.codex_prompts
