-- Law of the client of the Codex app server (`codex_app_server.py`): requests
-- that wait for an answer, lines of any kind that come in, and the answers to
-- the requests of the server. The handlers of a turn never wait, so a line is
-- dealt with in one piece.
import DrBoz.Lib.Runs
import DrBoz.Texts
import Mathlib.Data.List.Nodup

open runs dr_boz.py dr_boz.texts

namespace dr_boz.app_server

/-! ## JSON values -/

/-- A text of Python: code points, a surrogate without its pair among them. -/
abbrev PyText := List Nat

def text (s : String) : PyText := s.toList.map Char.toNat

def surrogate (c : Nat) : Bool := decide (0xD800 ≤ c ∧ c ≤ 0xDFFF)

/-- `t.encode("utf-8")` goes through. -/
def encodes_text (t : PyText) : Bool := t.all fun c => !surrogate c

/-- A value that `json.loads` gives. -/
inductive Json where
  | null
  | bool (b : Bool)
  | int (n : Int)
  | float (x : PyFloat)
  | infinity
  | minus_infinity
  | nan
  | str (t : PyText)
  | list (items : List Json)
  | dict (fields : List (PyText × Json))

def Json.is_none : Json → Bool
  | .null => true
  | _ => false

def Json.truthy : Json → Bool
  | .null => false
  | .bool b => b
  | .int n => n ≠ 0
  | .float x => x ≠ 0
  | .infinity | .minus_infinity | .nan => true
  | .str t => !t.isEmpty
  | .list items => !items.isEmpty
  | .dict fields => !fields.isEmpty

/-- `envelope.get(key)` -/
def get (envelope : List (PyText × Json)) (key : String) : Json :=
  ((envelope.find? fun field => field.1 = text key).map Prod.snd).getD .null

mutual
/-- `json.dumps(value, ensure_ascii=False).encode("utf-8")` goes through. -/
def Json.encodes : Json → Bool
  | .str t => encodes_text t
  | .list items => encodes_items items
  | .dict fields => encodes_fields fields
  | _ => true

def encodes_items : List Json → Bool
  | [] => true
  | v :: items => v.encodes && encodes_items items

def encodes_fields : List (PyText × Json) → Bool
  | [] => true
  | (key, v) :: fields => encodes_text key && v.encodes && encodes_fields fields
end

/-! ## Requests of the server -/

structure ErrorObject where
  code : Int
  message : PyText

/-- The answer to a request, as the code fills it in. -/
structure Response where
  id : Json
  result : Option Json := none
  error : Option ErrorObject := none

def Response.encodes (r : Response) : Bool :=
  r.id.encodes && r.result.all Json.encodes && r.error.all fun e => encodes_text e.message

/-- What a handler gives: a value, or the text of its exception. -/
abbrev Handled := Except PyText Json

def type_name : Json → String
  | .null => "NoneType"
  | .bool _ => "bool"
  | .int _ => "int"
  | .float _ | .infinity | .minus_infinity | .nan => "float"
  | .str _ => "str"
  | .list _ => "list"
  | .dict _ => "dict"

/-- `method.lower()`, as far as letters of ASCII come out of it. -/
def lower (t : PyText) : PyText := t.map fun c => if 65 ≤ c ∧ c ≤ 90 then c + 32 else c

def mentions (part : String) (t : PyText) : Bool :=
  (lower t).tails.any fun rest => (text part).isPrefixOf rest

def accept : Json := .dict [(text "decision", .str (text "accept"))]

def go_on : Json := .dict [(text "text", .str (text "continue"))]

/-- The handler of a turn (`on_request` of `start_turn`). -/
def on_request : Json → Handled
  | .str method =>
    if mentions "requestapproval" method then .ok accept
    else if mentions "requestuserinput" method then .ok go_on
    else .ok .null
  | method => .error (text ("'" ++ type_name method ++ "' object has no attribute 'lower'"))

/-- `str(value)`. What `repr` makes of the others has no surrogate. -/
def str_of (repr : Json → String) : Json → PyText
  | .str t => t
  | v => text (repr v)

/-- The loop over the handlers, one for each turn that is going on. -/
def respond (repr : Json → String) (id method : Json) : Nat → Response
  | 0 =>
    { id, error := some ⟨-32601, text "Method not found: " ++ str_of repr method⟩ }
  | turns + 1 =>
    match on_request method with
    | .error message => { id, error := some ⟨-32000, message⟩ }
    | .ok value =>
      if value.is_none then respond repr id method turns else { id, result := some value }

/-! ## The client -/

/-- What `json.loads` does with a text: it gives a value, it raises its own
error, or it raises another one (a text that is nested too deeply, a number with
too many digits). -/
inductive Loaded where
  | value (v : Json)
  | decode_error
  | other_error

/-- A line of the server: one that is too long for `readline`, or a text. -/
inductive Line where
  | overlong
  | text (t : PyText)

/-- The calls of the standard library that the reader makes on a line. -/
structure Library where
  strip : PyText → PyText
  loads : PyText → Loaded
  repr : Json → String

inductive Reader where
  | reading
  | cancelled
  | ended
deriving DecidableEq

/-- Why a future is done. The flush of the reader says "disconnected" in any
case. It comes with the end of the stream, after `close`, or when the reader has
died of an exception. -/
inductive Cause where
  | response (id : PyText) (failed : Bool)
  | timeout (n : Nat)
  | disconnected
  | closed
  | reader_died
deriving DecidableEq

/-- A request is known by its number. Its timer is there as long as it is
pending. -/
structure Client where
  counter : Nat := 0
  pending : List Nat := []
  completed : List (Nat × Cause) := []
  written : List Response := []
  turns : Nat := 0
  reader : Reader := .reading
  closed : Bool := false
  connected : Bool := true

/-- `f"rpc-{counter}"` -/
def rpc (n : Nat) : PyText := text "rpc-" ++ (texts.str_of n).map Char.toNat

/-- `set_result` or `set_exception`, unless the future is done. -/
def Client.complete (w : Client) (n : Nat) (cause : Cause) : Client :=
  if n ∈ w.completed.map Prod.fst then w else { w with completed := w.completed ++ [(n, cause)] }

/-- All that is pending is rejected. -/
def Client.flush (w : Client) (cause : Cause) : Client :=
  { w.pending.foldl (fun w n => w.complete n cause) w with pending := [] }

/-- The reader ends, and its `finally` flushes. -/
def Client.reader_ends (w : Client) (cause : Cause) : Client :=
  { w.flush cause with reader := .ended }

/-- `_write` of an answer, whether it goes through. -/
def Client.writes (w : Client) (r : Response) : Bool := w.connected && r.encodes

/-- `str(msg_id)`: only a text can be the id of a request. -/
def response_id : Json → Option PyText
  | .str t => some t
  | _ => none

/-- The response to a request of ours. -/
def Client.responded (w : Client) (envelope : List (PyText × Json)) : Client :=
  match w.pending.find? fun n => response_id (get envelope "id") = some (rpc n) with
  | none => w
  | some n =>
    { w with pending := w.pending.erase n }.complete n
      (.response (rpc n) (get envelope "error").truthy)

/-- `_dispatch`. Without an id, and without a method, there is nothing to do
here: the handlers of notifications are caught. -/
def Client.dispatch (L : Library) (w : Client) : Json → Client
  | .dict envelope =>
    let id := get envelope "id"
    let method := get envelope "method"
    if id.is_none then w
    else if method.is_none then w.responded envelope
    else
      let r := respond L.repr id method w.turns
      if w.writes r then { w with written := w.written ++ [r] } else w.reader_ends .reader_died
  | _ => w.reader_ends .reader_died

/-- One turn of `_read_loop`. -/
def Client.read (L : Library) (w : Client) : Line → Client
  | .overlong => w.reader_ends .reader_died
  | .text t =>
    let line := L.strip t
    if line = [] then w
    else
      match L.loads line with
      | .value v => w.dispatch L v
      | .decode_error => w
      | .other_error => w.reader_ends .reader_died

inductive Event where
  | request
  | timeout (n : Nat)
  | line (l : Line)
  | eof
  | close
  | reader_stops
  | killed
  | turn_begins
  | turn_ends

/-- A request is pending whether or not its line can be written. The end of
`close` comes after the end of the reader. -/
def step (L : Library) (w : Client) : Event → Client
  | .request => { w with counter := w.counter + 1, pending := w.pending ++ [w.counter + 1] }
  | .timeout n =>
    if n ∈ w.pending then { w with pending := w.pending.erase n }.complete n (.timeout n) else w
  | .line l => if w.reader = .reading then w.read L l else w
  | .eof => if w.reader = .reading then w.reader_ends .disconnected else w
  | .close =>
    if w.closed then w
    else
      { w.flush .closed with
        closed := true
        reader := if w.reader = .reading then .cancelled else w.reader }
  | .reader_stops => if w.reader = .cancelled then w.reader_ends .disconnected else w
  | .killed => if w.closed ∧ w.reader = .ended then { w with connected := false } else w
  | .turn_begins => { w with turns := w.turns + 1 }
  | .turn_ends => { w with turns := w.turns - 1 }

/-! ## What is wanted -/

/-- The future of a request is done by its own response, by its own timeout, or
when the connection is gone. -/
def Cause.rightful (n : Nat) : Cause → Prop
  | .response id _ => id = rpc n
  | .timeout k => k = n
  | .disconnected | .closed => True
  | .reader_died => False

/-- The id and the method of a request of the server. -/
def asks (L : Library) : Line → Option (Json × Json)
  | .overlong => none
  | .text t =>
    if L.strip t = [] then none
    else
      match L.loads (L.strip t) with
      | .value (.dict envelope) =>
        if (get envelope "id").is_none || (get envelope "method").is_none then none
        else some (get envelope "id", get envelope "method")
      | _ => none

/-- What a line should do, when the reader gets it: the reader goes on, and a
request is answered once, with a result or with an error. -/
structure LineDealtWith (L : Library) (w : Client) (l : Line) : Prop where
  reads_on : (step L w (.line l)).reader = .reading
  answered : ∀ id method, asks L l = some (id, method) →
    ∃ r : Response, (step L w (.line l)).written = w.written ++ [r] ∧ r.id = id ∧
      (r.result.isSome = !r.error.isSome)
  unasked : asks L l = none → (step L w (.line l)).written = w.written

/-- What a step should do. -/
structure Disciplined (L : Library) (w : Client) (e : Event) : Prop where
  once : ((step L w e).completed.map Prod.fst).Nodup
  rightful : ∀ n cause, (n, cause) ∈ (step L w e).completed → (n, cause) ∉ w.completed →
    cause.rightful n
  line : ∀ l, e = .line l → w.reader = .reading → LineDealtWith L w l

/-- A handler of a turn takes the request. -/
def takes (turns : Nat) (method : Json) : Bool :=
  turns ≠ 0 && match method with
    | .str t => mentions "requestapproval" t || mentions "requestuserinput" t
    | _ => true

/-- What the client can read on from: a blank line, a line that `json.loads`
rejects as no JSON, or an object. The id of a request has no lone surrogate, and
neither has a method that no handler takes. -/
def FitLine (L : Library) (w : Client) : Line → Prop
  | .overlong => False
  | .text t =>
    L.strip t = [] ∨ L.loads (L.strip t) = .decode_error ∨
      (∃ envelope, L.loads (L.strip t) = .value (.dict envelope)) ∧
        ∀ id method, asks L (.text t) = some (id, method) →
          id.encodes = true ∧
            (takes w.turns method = true ∨ encodes_text (str_of L.repr method) = true)

/-- Each line that the reader gets is fit. -/
def Fit (L : Library) (w : Client) : Event → Prop
  | .line l => w.reader = .reading → FitLine L w l
  | _ => True

/-! ## Answers -/

theorem char_encodes (c : Char) : surrogate c.toNat = false := by
  have hvalid : c.toNat < 0xD800 ∨ 0xDFFF < c.toNat ∧ c.toNat < 0x110000 := c.valid
  unfold surrogate
  rw [decide_eq_false_iff_not]
  omega

theorem text_encodes (s : String) : encodes_text (text s) = true := by
  unfold encodes_text text
  rw [List.all_map, List.all_eq_true]
  intro c _
  simp [char_encodes c]

theorem append_encodes (t u : PyText) :
    encodes_text (t ++ u) = (encodes_text t && encodes_text u) := List.all_append

theorem single_encodes (key value : String) :
    (Json.dict [(text key, .str (text value))]).encodes = true := by
  simp [Json.encodes, encodes_fields, text_encodes]

/-- The handler of a turn takes an approval or a question, and no other text. -/
theorem on_request_text (t : PyText) :
    ((mentions "requestapproval" t || mentions "requestuserinput" t) = true ∧
      ∃ v, on_request (.str t) = .ok v ∧ v.is_none = false ∧ v.encodes = true) ∨
    ((mentions "requestapproval" t || mentions "requestuserinput" t) = false ∧
      on_request (.str t) = .ok .null) := by
  by_cases ha : mentions "requestapproval" t = true
  · exact .inl ⟨by simp [ha], accept, if_pos ha, rfl, single_encodes _ _⟩
  · by_cases hu : mentions "requestuserinput" t = true
    · refine .inl ⟨by simp [hu], go_on, ?_, rfl, single_encodes _ _⟩
      exact (if_neg ha).trans (if_pos hu)
    · exact .inr ⟨by simp [ha, hu], (if_neg ha).trans (if_neg hu)⟩

/-- A method that is no text has no `lower`. -/
theorem on_request_other {method : Json} (h : ∀ t, method ≠ .str t) :
    (∃ s : String, on_request method = .error (text s)) ∧
      ∀ turns, takes (turns + 1) method = true := by
  cases method with
  | str t => exact absurd rfl (h t)
  | null | bool _ | int _ | float _ | infinity | minus_infinity | nan | list _ | dict _ =>
    exact ⟨⟨_, rfl⟩, fun _ => rfl⟩

/-- An answer has a result or an error, and the id of its request. -/
theorem respond_answers (repr : Json → String) (id method : Json) (turns : Nat) :
    (respond repr id method turns).id = id ∧
      (respond repr id method turns).result.isSome =
        !(respond repr id method turns).error.isSome := by
  induction turns with
  | zero => exact ⟨rfl, rfl⟩
  | succ turns ih =>
    unfold respond
    cases on_request method with
    | error message => exact ⟨rfl, rfl⟩
    | ok value =>
      simp only
      split
      · exact ih
      · exact ⟨rfl, rfl⟩

/-- What can be written is decided by the id, and by a method that comes back in
the error. -/
theorem respond_encodes (repr : Json → String) (id method : Json) (turns : Nat) :
    (respond repr id method turns).encodes =
      (id.encodes && (takes turns method || encodes_text (str_of repr method))) := by
  induction turns with
  | zero =>
    unfold respond Response.encodes takes
    simp [append_encodes, text_encodes]
  | succ turns ih =>
    by_cases hstr : ∃ t, method = .str t
    · obtain ⟨t, rfl⟩ := hstr
      rcases on_request_text t with ⟨ht, v, hv, hsome, hencodes⟩ | ⟨ht, hnone⟩
      · simp [respond, hv, hsome, takes, ht, Response.encodes, hencodes]
      · have hpass : ∀ n, takes n (.str t) = false := fun n => by simp [takes, ht]
        rw [hpass] at ih ⊢
        rw [← ih]
        simp [respond, hnone, Json.is_none]
    · obtain ⟨⟨message, hraised⟩, htakes⟩ := on_request_other fun t ht => hstr ⟨t, ht⟩
      simp [respond, hraised, htakes turns, Response.encodes, text_encodes]

/-! ## Futures -/

variable {L : Library} {w : Client}

theorem mem_complete {n : Nat} {cause : Cause} {x : Nat × Cause}
    (h : x ∈ (w.complete n cause).completed) : x ∈ w.completed ∨ x = (n, cause) := by
  unfold Client.complete at h
  split at h
  · exact .inl h
  · rcases List.mem_append.mp h with h | h
    · exact .inl h
    · exact .inr (List.mem_singleton.mp h)

theorem complete_once (h : (w.completed.map Prod.fst).Nodup) (n : Nat) (cause : Cause) :
    ((w.complete n cause).completed.map Prod.fst).Nodup := by
  unfold Client.complete
  split
  · exact h
  · next hn =>
    rw [List.map_append, List.map_singleton, List.nodup_append]
    refine ⟨h, List.nodup_singleton n, fun a ha b hb hab => ?_⟩
    have hbn : b = n := List.mem_singleton.mp hb
    rw [hab, hbn] at ha
    exact hn ha

/-- What a future that is done leaves alone. -/
theorem complete_frame (n : Nat) (cause : Cause) :
    w.complete n cause = { w with completed := (w.complete n cause).completed } := by
  unfold Client.complete
  split <;> rfl

theorem fold_complete (ns : List Nat) (cause : Cause) (w : Client) :
    ((w.completed.map Prod.fst).Nodup →
        ((ns.foldl (fun w n => w.complete n cause) w).completed.map Prod.fst).Nodup) ∧
      ∀ x ∈ (ns.foldl (fun w n => w.complete n cause) w).completed,
        x ∈ w.completed ∨ x.2 = cause := by
  induction ns generalizing w with
  | nil => exact ⟨id, fun x hx => .inl hx⟩
  | cons n ns ih =>
    obtain ⟨honce, hmem⟩ := ih (w.complete n cause)
    rw [List.foldl_cons]
    refine ⟨fun h => honce (complete_once h n cause), fun x hx => ?_⟩
    rcases hmem x hx with hx | hx
    · rcases mem_complete hx with hx | rfl
      · exact .inl hx
      · exact .inr rfl
    · exact .inr hx

theorem flush_once (h : (w.completed.map Prod.fst).Nodup) (cause : Cause) :
    ((w.flush cause).completed.map Prod.fst).Nodup := (fold_complete w.pending cause w).1 h

theorem mem_flush {cause : Cause} {x : Nat × Cause} (h : x ∈ (w.flush cause).completed) :
    x ∈ w.completed ∨ x.2 = cause := (fold_complete w.pending cause w).2 x h

/-! ## Lines -/

/-- What holds in every state: a future is done once, and the process is there
as long as the reader reads. -/
structure Sound (w : Client) : Prop where
  once : (w.completed.map Prod.fst).Nodup
  connected : w.reader = .reading → w.connected = true

/-- A response of the server settles one future at most, by its own id. -/
theorem responded_rightful {envelope : List (PyText × Json)} {n : Nat} {cause : Cause}
    (h : (n, cause) ∈ (w.responded envelope).completed) (hnew : (n, cause) ∉ w.completed) :
    cause.rightful n := by
  unfold Client.responded at h
  cases hfind : w.pending.find? fun n => response_id (get envelope "id") = some (rpc n) with
  | none =>
    rw [hfind] at h
    exact absurd h hnew
  | some k =>
    rw [hfind] at h
    rcases mem_complete h with h | h
    · exact absurd h hnew
    · cases h
      rfl

theorem responded_frame (envelope : List (PyText × Json)) :
    (w.responded envelope).reader = w.reader ∧ (w.responded envelope).written = w.written ∧
      (w.responded envelope).connected = w.connected ∧
      ((w.completed.map Prod.fst).Nodup →
        ((w.responded envelope).completed.map Prod.fst).Nodup) := by
  unfold Client.responded
  cases w.pending.find? fun n => response_id (get envelope "id") = some (rpc n) with
  | none => exact ⟨rfl, rfl, rfl, id⟩
  | some k =>
    refine ⟨?_, ?_, ?_, fun h => ?_⟩
    · simp only
      rw [complete_frame]
    · simp only
      rw [complete_frame]
    · simp only
      rw [complete_frame]
    · exact complete_once (w := { w with pending := w.pending.erase k }) h k _

theorem ends_sound (h : Sound w) (cause : Cause) : Sound (w.reader_ends cause) :=
  ⟨flush_once h.once cause, nofun⟩

/-- A line leaves the client sound, whatever it is. -/
theorem read_sound (h : Sound w) (l : Line) : Sound (w.read L l) := by
  cases l with
  | overlong => exact ends_sound h _
  | text t =>
    unfold Client.read
    simp only
    split
    · exact h
    · cases L.loads (L.strip t) with
      | decode_error => exact h
      | other_error => exact ends_sound h _
      | value v =>
        cases v with
        | dict envelope =>
          obtain ⟨hreader, -, hconn, honce⟩ := responded_frame (w := w) envelope
          simp only [Client.dispatch]
          split
          · exact h
          · split
            · exact ⟨honce h.once, fun hr => by rw [hconn]; exact h.connected (hreader ▸ hr)⟩
            · split
              · exact ⟨h.once, h.connected⟩
              · exact ends_sound h _
        | null | bool _ | int _ | float _ | infinity | minus_infinity | nan | str _ | list _ =>
          exact ends_sound h _

theorem step_sound (h : Sound w) (e : Event) : Sound (step L w e) := by
  cases e with
  | request => exact ⟨h.once, h.connected⟩
  | timeout n =>
    simp only [step]
    split
    · refine ⟨complete_once (w := { w with pending := w.pending.erase n }) h.once n _, ?_⟩
      rw [complete_frame]
      exact h.connected
    · exact h
  | line l =>
    simp only [step]
    split
    · exact read_sound h l
    · exact h
  | eof | reader_stops =>
    simp only [step]
    split
    · exact ends_sound h _
    · exact h
  | close =>
    simp only [step]
    split
    · exact h
    · refine ⟨flush_once h.once _, fun hr => ?_⟩
      simp only at hr
      split at hr
      · cases hr
      · next hreading => exact absurd hr hreading
  | killed =>
    simp only [step]
    split
    · next hend => exact ⟨h.once, fun hr => by rw [hend.2] at hr; cases hr⟩
    · exact h
  | turn_begins | turn_ends => exact ⟨h.once, h.connected⟩

/-- A line that leaves the client as it is, and asks nothing. -/
theorem idle_dealt {l : Line} (hr : w.reader = .reading) (hread : w.read L l = w)
    (hasks : asks L l = none) : LineDealtWith L w l := by
  have hstep : step L w (.line l) = w.read L l := if_pos hr
  refine ⟨by rw [hstep, hread, hr], fun id method ha => ?_, fun _ => by rw [hstep, hread]⟩
  rw [hasks] at ha
  cases ha

/-- What a line asks, when it is an object. -/
theorem asks_object {t : PyText} {envelope : List (PyText × Json)} (hblank : L.strip t ≠ [])
    (hvalue : L.loads (L.strip t) = .value (.dict envelope)) :
    asks L (.text t) =
      if (get envelope "id").is_none || (get envelope "method").is_none then none
      else some (get envelope "id", get envelope "method") := by
  simp only [asks, if_neg hblank, hvalue]

theorem read_object {t : PyText} {envelope : List (PyText × Json)} (hblank : L.strip t ≠ [])
    (hvalue : L.loads (L.strip t) = .value (.dict envelope)) :
    w.read L (.text t) = w.dispatch L (.dict envelope) := by
  simp only [Client.read, if_neg hblank, hvalue]

/-- An answer is written when its id and its text can be. -/
theorem writes_iff (h : Sound w) (hr : w.reader = .reading) (id method : Json) :
    w.writes (respond L.repr id method w.turns) = true ↔
      id.encodes = true ∧
        (takes w.turns method = true ∨ encodes_text (str_of L.repr method) = true) := by
  unfold Client.writes
  rw [h.connected hr, Bool.true_and, respond_encodes, Bool.and_eq_true, Bool.or_eq_true]

/-- An object is dealt with when the answer that it asks for can be written. -/
theorem object_dealt (h : Sound w) (hr : w.reader = .reading) {t : PyText}
    {envelope : List (PyText × Json)} (hblank : L.strip t ≠ [])
    (hvalue : L.loads (L.strip t) = .value (.dict envelope))
    (hcan : ∀ id method, asks L (.text t) = some (id, method) → id.encodes = true ∧
      (takes w.turns method = true ∨ encodes_text (str_of L.repr method) = true)) :
    LineDealtWith L w (.text t) := by
  have hstep : step L w (.line (.text t)) = w.dispatch L (.dict envelope) := by
    rw [← read_object hblank hvalue]
    exact if_pos hr
  have hasks := asks_object hblank hvalue
  by_cases hid : (get envelope "id").is_none = true
  · have hdispatch : w.dispatch L (.dict envelope) = w := if_pos hid
    rw [hid, Bool.true_or, if_pos rfl] at hasks
    exact idle_dealt hr ((read_object hblank hvalue).trans hdispatch) hasks
  · by_cases hmethod : (get envelope "method").is_none = true
    · have hdispatch : w.dispatch L (.dict envelope) = w.responded envelope :=
        (if_neg hid).trans (if_pos hmethod)
      rw [hmethod, Bool.or_true, if_pos rfl] at hasks
      obtain ⟨hreader, hwritten, -, -⟩ := responded_frame (w := w) envelope
      refine ⟨by rw [hstep, hdispatch, hreader, hr], fun id method ha => ?_, fun _ => ?_⟩
      · rw [hasks] at ha
        cases ha
      · rw [hstep, hdispatch, hwritten]
    · have hsome : asks L (.text t) = some (get envelope "id", get envelope "method") := by
        rw [hasks]
        exact if_neg (by simp [hid, hmethod])
      have hwrites := (writes_iff (L := L) h hr _ _).mpr (hcan _ _ hsome)
      have hdispatch : w.dispatch L (.dict envelope) = { w with
          written := w.written ++
            [respond L.repr (get envelope "id") (get envelope "method") w.turns] } :=
        (if_neg hid).trans ((if_neg hmethod).trans (if_pos hwrites))
      refine ⟨by rw [hstep, hdispatch, hr], fun id method ha => ?_, fun hnone => ?_⟩
      · rw [hsome] at ha
        cases ha
        obtain ⟨hid, hone⟩ := respond_answers L.repr (get envelope "id") (get envelope "method")
          w.turns
        exact ⟨_, by rw [hstep, hdispatch], hid, hone⟩
      · rw [hsome] at hnone
        cases hnone

/-- A fit line is dealt with. -/
theorem fit_dealt (h : Sound w) (hr : w.reader = .reading) {l : Line} (hfit : FitLine L w l) :
    LineDealtWith L w l := by
  cases l with
  | overlong => exact hfit.elim
  | text t =>
    by_cases hblank : L.strip t = []
    · exact idle_dealt hr (if_pos hblank) (if_pos hblank)
    · rcases hfit with hblank' | hjson | ⟨⟨envelope, hvalue⟩, hcan⟩
      · exact absurd hblank' hblank
      · exact idle_dealt hr (by simp [Client.read, hjson]) (by simp [asks, hjson])
      · exact object_dealt h hr hblank hvalue hcan

/-- After a line that is not fit, the reader has ended. -/
theorem unfit_ends (h : Sound w) (hr : w.reader = .reading) {l : Line}
    (hunfit : ¬FitLine L w l) : (step L w (.line l)).reader = .ended := by
  have hstep : step L w (.line l) = w.read L l := if_pos hr
  rw [hstep]
  cases l with
  | overlong => rfl
  | text t =>
    have hblank : L.strip t ≠ [] := fun hb => hunfit (.inl hb)
    cases hvalue : L.loads (L.strip t) with
    | decode_error => exact absurd (.inr (.inl hvalue)) hunfit
    | other_error => simp only [Client.read, if_neg hblank, hvalue, Client.reader_ends]
    | value v =>
      cases v with
      | dict envelope =>
        rw [read_object hblank hvalue]
        have hasks := asks_object hblank hvalue
        have hcannot : ¬∀ id method, asks L (.text t) = some (id, method) → id.encodes = true ∧
            (takes w.turns method = true ∨ encodes_text (str_of L.repr method) = true) :=
          fun hcan => hunfit (.inr (.inr ⟨⟨envelope, hvalue⟩, hcan⟩))
        by_cases hquiet :
            ((get envelope "id").is_none || (get envelope "method").is_none) = true
        · refine absurd (fun id method ha => ?_) hcannot
          rw [hasks, if_pos hquiet] at ha
          cases ha
        · rw [Bool.not_eq_true, Bool.or_eq_false_iff] at hquiet
          have hwrites : ¬w.writes (respond L.repr (get envelope "id") (get envelope "method")
              w.turns) = true := by
            intro hwrites
            refine hcannot fun id method ha => ?_
            rw [hasks, if_neg (by simp [hquiet])] at ha
            cases ha
            exact (writes_iff (L := L) h hr _ _).mp hwrites
          have hdispatch : w.dispatch L (.dict envelope) = w.reader_ends .reader_died :=
            (if_neg (by simp [hquiet])).trans
              ((if_neg (by simp [hquiet])).trans (if_neg hwrites))
          rw [hdispatch]
          rfl
      | null | bool _ | int _ | float _ | infinity | minus_infinity | nan | str _ | list _ =>
        simp only [Client.read, if_neg hblank, hvalue, Client.dispatch, Client.reader_ends]

/-! ## The law -/

/-- A fit line settles a future by its own response only. -/
theorem line_rightful {l : Line} (h : Sound w) (hr : w.reader = .reading) (hfit : FitLine L w l)
    {n : Nat} {cause : Cause} (hmem : (n, cause) ∈ (step L w (.line l)).completed)
    (hnew : (n, cause) ∉ w.completed) : cause.rightful n := by
  have hstep : step L w (.line l) = w.read L l := if_pos hr
  rw [hstep] at hmem
  cases l with
  | overlong => exact hfit.elim
  | text t =>
    by_cases hblank : L.strip t = []
    · have hread : w.read L (.text t) = w := if_pos hblank
      rw [hread] at hmem
      exact absurd hmem hnew
    · rcases hfit with hblank' | hjson | ⟨⟨envelope, hvalue⟩, hcan⟩
      · exact absurd hblank' hblank
      · have hread : w.read L (.text t) = w := by simp [Client.read, hjson]
        rw [hread] at hmem
        exact absurd hmem hnew
      · rw [read_object hblank hvalue] at hmem
        simp only [Client.dispatch] at hmem
        split at hmem
        · exact absurd hmem hnew
        · next hid =>
          split at hmem
          · exact responded_rightful hmem hnew
          · next hmethod =>
            have hsome : asks L (.text t) = some (get envelope "id", get envelope "method") := by
              rw [asks_object hblank hvalue]
              exact if_neg (by simp [hid, hmethod])
            rw [if_pos ((writes_iff (L := L) h hr _ _).mpr (hcan _ _ hsome))] at hmem
            exact absurd hmem hnew

theorem disciplined_iff (h : Sound w) (e : Event) : Disciplined L w e ↔ Fit L w e := by
  constructor
  · intro hd
    cases e with
    | line l =>
      intro hr
      by_contra hunfit
      have hon := (hd.line l rfl hr).reads_on
      rw [unfit_ends h hr hunfit] at hon
      cases hon
    | request | timeout _ | eof | close | reader_stops | killed | turn_begins | turn_ends =>
      trivial
  · intro hfit
    refine ⟨(step_sound h e).once, fun n cause hmem hnew => ?_, fun l he hr => ?_⟩
    · cases e with
      | line l =>
        by_cases hr : w.reader = .reading
        · exact line_rightful h hr (hfit hr) hmem hnew
        · have hstep : step L w (.line l) = w := if_neg hr
          rw [hstep] at hmem
          exact absurd hmem hnew
      | timeout k =>
        simp only [step] at hmem
        split at hmem
        · rcases mem_complete hmem with hmem | hmem
          · exact absurd hmem hnew
          · cases hmem
            rfl
        · exact absurd hmem hnew
      | eof | reader_stops =>
        simp only [step] at hmem
        split at hmem
        · rcases mem_flush hmem with hmem | hcause
          · exact absurd hmem hnew
          · rw [show cause = _ from hcause]
            trivial
        · exact absurd hmem hnew
      | close =>
        simp only [step] at hmem
        split at hmem
        · exact absurd hmem hnew
        · rcases mem_flush hmem with hmem | hcause
          · exact absurd hmem hnew
          · rw [show cause = _ from hcause]
            trivial
      | killed =>
        simp only [step] at hmem
        split at hmem
        · exact absurd hmem hnew
        · exact absurd hmem hnew
      | request | turn_begins | turn_ends => exact absurd hmem hnew
    · subst he
      exact fit_dealt h hr (hfit hr)

/-- LAW: in every run of requests, timeouts, lines of any kind, the end of the
stream and `close`, in any order, each step is disciplined, if and only if each
line that the reader gets is fit. -/
theorem the_client_is_disciplined_iff_each_line_is_fit (L : Library) (es : List Event) :
    Each (step L) (Disciplined L) {} es ↔ Each (step L) (Fit L) {} es :=
  each_congr (I := Sound) (fun _ e hw => step_sound hw e) (fun _ e hw => disciplined_iff hw e)
    (show Sound {} from ⟨List.nodup_nil, fun _ => rfl⟩) es

/-- A library that finds an empty array in every line. -/
def arrays : Library where
  strip t := t
  loads _ := .value (.list [])
  repr _ := ""

/-- The line is `[]`, which has no `get`: the reader dies, and rejects the request
that waits for its response. -/
theorem an_array_ends_the_reading :
    ¬Each (step arrays) (Disciplined arrays) {} [.request, .line (.text [91, 93])] := by
  rw [the_client_is_disciplined_iff_each_line_is_fit]
  rintro ⟨-, hline, -⟩
  rcases hline rfl with hblank | hjson | ⟨⟨envelope, hvalue⟩, -⟩
  · cases hblank
  · cases hjson
  · cases hvalue

end dr_boz.app_server
