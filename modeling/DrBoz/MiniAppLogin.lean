-- Law of the login of the mini apps, by the `initData` that Telegram or Bale
-- hands to the page: which signature the verifiers compute, where the login
-- looks for the age of the data, and what the platforms document.
import DrBoz.BillingIdentity
import Mathlib.Data.List.Sort

open dr_boz.py dr_boz.cli_lines dr_boz.billing_identity

namespace dr_boz.mini_app_login

/-! ## The fields -/

abbrev Text := List Char

/-- A dictionary of texts, in the order in which its keys came. -/
abbrev Parsed := List (Text × Text)

/-- `parsed[key] = value` -/
def set_item (parsed : Parsed) (field : Text × Text) : Parsed :=
  if parsed.any fun old => old.1 = field.1 then
    parsed.map fun old => if old.1 = field.1 then field else old
  else parsed ++ [field]

def get (parsed : Parsed) (key : String) : Option Text :=
  (parsed.find? fun field => field.1 = key.toList).map Prod.snd

/-- What is left after `parsed.pop(key, None)`. -/
def pop (parsed : Parsed) (key : String) : Parsed :=
  parsed.filter fun field => field.1 ≠ key.toList

/-- `pair.split('=', 1)`, for a pair with a `=` in it. -/
def key_and_value (pair : Text) : Option (Text × Text) :=
  if '=' ∈ pair then some (pair.takeWhile (· ≠ '='), (pair.dropWhile (· ≠ '=')).tail) else none

def parse (init_data : Text) : Parsed :=
  ((init_data.splitOn '&').filterMap key_and_value).foldl set_item []

/-- The order of texts, by the code points. -/
def precedes (a b : Text) : Bool := List.lex a b fun x y => decide (x.toNat < y.toNat)

/-- `sorted(parsed.items())`. No key is there twice. -/
def sorted (parsed : Parsed) : Parsed :=
  parsed.insertionSort fun a b => precedes b.1 a.1 = false

/-- `'\n'.join(f'{k}={v}' for k, v in sorted(parsed.items()))` -/
def data_check_string (parsed : Parsed) : Text :=
  ['\n'].intercalate ((sorted parsed).map fun field => field.1 ++ '=' :: field.2)

/-! ## The verifiers -/

/-- The functions of the standard library that the login calls: the bytes of
`sha256(data).digest()` and of `hmac.new(key, message, sha256).digest()`,
`unquote`, `json.loads` (nothing where it raises) and `str`. -/
structure Library where
  sha256 : List UInt8 → List UInt8
  hmac : List UInt8 → List UInt8 → List UInt8
  unquote : Text → Text
  loads : Text → Option JsonValue
  str_of : JsonValue → String

def hexdigest (digest : List UInt8) : Text :=
  digest.flatMap fun byte => [Nat.digitChar (byte.toNat / 16), Nat.digitChar (byte.toNat % 16)]

/-- `text.encode()` -/
def encode (text : Text) : List UInt8 := text.flatMap String.utf8EncodeChar

/-- `hmac.new(secret_key, message.encode('utf-8'), hashlib.sha256).hexdigest()` -/
def Library.signature (lib : Library) (secret_key : List UInt8) (message : Text) : Text :=
  hexdigest (lib.hmac secret_key (encode message))

/-- `'id' in user`. A number, a truth value and `None` raise. -/
def id_in : JsonValue → Option Bool
  | .dict fields => some (fields.any fun field => field.1 = "id")
  | .list items => some (items.any (·.is_text "id"))
  | .str text => some (text.toList.tails.any ("id".toList.isPrefixOf ·))
  | _ => none

/-- What the signature of the code is over: all fields but two. -/
def checked_fields (init_data : Text) : Parsed := pop (pop (parse init_data) "hash") "signature"

def verify_init_data (lib : Library) (init_data bot_token : Text) : Option JsonValue :=
  let received_hash := (get (parse init_data) "hash").getD []
  if received_hash = [] then none
  else
    let parsed := checked_fields init_data
    let secret_key := lib.sha256 (encode bot_token)
    let computed_hash := lib.signature secret_key (data_check_string parsed)
    if computed_hash ≠ received_hash then none
    else
      match lib.loads (lib.unquote ((get parsed "user").getD "\x7b\x7d".toList)) with
      | none => none
      | some user => if id_in user = some true then some user else none

def verify_telegram_init_data := verify_init_data

def verify_bale_init_data := verify_init_data

/-! ## The users -/

/-- A user, with `oauth[provider]['sub']`. -/
structure User where
  id : String
  name : String
  email : String
  sub : Provider → Option String

structure HTTPException where
  status_code : Nat
  detail : String
deriving DecidableEq, Repr

/-- What a client gets for an exception that nobody catches. -/
def server_error : HTTPException := ⟨500, "Internal Server Error"⟩

def get_user_by_oauth_sub (users : List User) (provider : Provider) (sub : String) : Option User :=
  users.find? fun user => user.sub provider = some sub

/-- `UserModel` takes a text or `None` as the name of a new user. -/
def username_fits : JsonValue → Bool
  | .null | .str _ => true
  | _ => false

/-- The row that a first login writes. -/
def new_user (provider : Provider) (sub name id : String) : User where
  id := id
  name := name
  email := provider.name ++ "_" ++ sub ++ "@drboz.local"
  sub := fun p => if p = provider then some sub else none

/-- A user who is there keeps the row. `id` is what `uuid4` draws. -/
def get_or_create_user_by_oauth (users : List User) (provider : Provider) (sub name : String)
    (username : JsonValue) (id : String) : Except HTTPException (User × List User) :=
  match get_user_by_oauth_sub users provider sub with
  | some user => .ok (user, users)
  | none =>
    if username_fits username then
      let user := new_user provider sub name id
      .ok (user, users ++ [user])
    else .error server_error

/-! ## The routes -/

/-- `f'{first_name} {last_name}'.strip() or f'User_{id}'` -/
def display_name (lib : Library) (user_data : Fields) : String :=
  let first_name := lib.str_of (user_data.get "first_name" (.str ""))
  let last_name := lib.str_of (user_data.get "last_name" (.str ""))
  let name := strip (first_name ++ " " ++ last_name)
  if name = "" then "User_" ++ lib.str_of (user_data.get "id" .null) else name

/-- The check of the age that only the route of Telegram has. It looks for
`auth_date` among the fields of the user. -/
def check_age (now : Int) (user_data : Fields) : Except HTTPException Unit :=
  let auth_date := user_data.get "auth_date" (.int 0)
  if auth_date.truthy then
    match int_of_value auth_date with
    | .error _ => .error server_error
    | .ok n => if now - n > 86400 then .error ⟨401, "initData is too old (max 24h)"⟩ else .ok ()
  else .ok ()

/-- What both routes do after the verifier. Values that are no dictionary have
no `get`. -/
def login (lib : Library) (provider : Provider) (users : List User) (new_id : String)
    (invalid : HTTPException) (check : Fields → Except HTTPException Unit)
    (user_data : Option JsonValue) : Except HTTPException (User × List User) :=
  match user_data with
  | none => .error invalid
  | some (.dict user_data) => do
    check user_data
    get_or_create_user_by_oauth users provider (lib.str_of (Fields.get user_data "id" .null))
      (display_name lib user_data) (Fields.get user_data "username" .null) new_id
  | some _ => .error server_error

/-- A token that is not there counts as the empty one. -/
def telegram_miniapp_login (lib : Library) (bot_token : Text) (now : Int) (users : List User)
    (new_id : String) (init_data : Text) : Except HTTPException (User × List User) :=
  if bot_token = [] then .error ⟨503, "Telegram bot token not configured"⟩
  else
    login lib .telegram users new_id ⟨401, "Invalid Telegram initData"⟩ (check_age now)
      (verify_telegram_init_data lib init_data bot_token)

def bale_miniapp_login (lib : Library) (bot_token : Text) (_now : Int) (users : List User)
    (new_id : String) (init_data : Text) : Except HTTPException (User × List User) :=
  if bot_token = [] then .error ⟨503, "Bale bot token not configured"⟩
  else
    login lib .bale users new_id ⟨401, "Invalid Bale initData"⟩ (fun _ => .ok ())
      (verify_bale_init_data lib init_data bot_token)

def miniapp_login : Provider → Library → Text → Int → List User → String → Text →
    Except HTTPException (User × List User)
  | .telegram => telegram_miniapp_login
  | .bale => bale_miniapp_login

/-! ## What the platforms document -/

/-- All fields but the hash, with their values decoded. -/
def documented_fields (lib : Library) (init_data : Text) : Parsed :=
  (pop (parse init_data) "hash").map fun field => (field.1, lib.unquote field.2)

def documented_key (lib : Library) (bot_token : Text) : List UInt8 :=
  lib.hmac (encode "WebAppData".toList) (encode bot_token)

/-- The hash is the signature of the platform. -/
def Genuine (lib : Library) (bot_token init_data : Text) : Prop :=
  get (parse init_data) "hash" = some (lib.signature (documented_key lib bot_token)
    (data_check_string (documented_fields lib init_data)))

instance (lib : Library) (bot_token init_data : Text) :
    Decidable (Genuine lib bot_token init_data) := inferInstanceAs (Decidable (_ = _))

/-- The time in `auth_date` is at most 24 hours ago. -/
def Fresh (lib : Library) (now : Int) (init_data : Text) : Prop :=
  ∃ text n, get (parse init_data) "auth_date" = some text ∧
    texts.int_of (String.ofList (lib.unquote text)) = some n ∧ now - n ≤ 86400

/-- What a mini-app login should be: it succeeds for genuine and fresh data, for
no other, and lets in the user whose id is in the field `user`. -/
structure LoginIsRight (lib : Library) (bot_token : Text) (provider : Provider) (now : Int)
    (users : List User) (new_id : String) (init_data : Text) : Prop where
  exactly : (∃ r, miniapp_login provider lib bot_token now users new_id init_data = .ok r) ↔
    Genuine lib bot_token init_data ∧ Fresh lib now init_data
  user : ∀ user after,
    miniapp_login provider lib bot_token now users new_id init_data = .ok (user, after) →
    ∃ text data, get (parse init_data) "user" = some text ∧
      lib.loads (lib.unquote text) = some (.dict data) ∧
      user.sub provider = some (lib.str_of (Fields.get data "id" .null))

/-! ## What the code accepts -/

/-- The hash is signed with the hash of the token, over the values as they
came, and the field `user` is a dictionary with an id. -/
structure Signed (lib : Library) (bot_token init_data : Text) (user : Fields) : Prop where
  hash : get (parse init_data) "hash" = some (lib.signature (lib.sha256 (encode bot_token))
    (data_check_string (checked_fields init_data)))
  hash_is_there : get (parse init_data) "hash" ≠ some []
  loads : lib.loads (lib.unquote ((get (checked_fields init_data) "user").getD "\x7b\x7d".toList)) =
    some (.dict user)
  id : id_in (.dict user) = some true

/-- The route has a token, finds no old `auth_date` in the user, and finds the
user or can make one. -/
structure Admitted (lib : Library) (bot_token : Text) (provider : Provider) (now : Int)
    (users : List User) (user : Fields) : Prop where
  token : bot_token ≠ []
  age : provider = .telegram → check_age now user = .ok ()
  known : (get_user_by_oauth_sub users provider
      (lib.str_of (Fields.get user "id" .null))).isSome = true ∨
    username_fits (Fields.get user "username" .null) = true

section
variable {lib : Library} {bot_token init_data : Text} {provider : Provider} {now : Int}
variable {users : List User} {new_id : String} {user : Fields}

theorem verify_eq_dict :
    verify_init_data lib init_data bot_token = some (.dict user) ↔
      Signed lib bot_token init_data user := by
  unfold verify_init_data
  dsimp only
  constructor
  · intro h
    split at h
    · cases h
    next hthere =>
    split at h
    · cases h
    next hsame =>
    split at h
    · cases h
    next value hloads =>
    split at h
    · next hid =>
      cases h
      cases hget : get (parse init_data) "hash" with
      | none => exact absurd (congrArg (Option.getD · []) hget) hthere
      | some received =>
        rw [hget] at hthere hsame
        refine ⟨hget.trans (congrArg some (not_not.mp hsame).symm), fun h => ?_, hloads, hid⟩
        exact hthere (Option.some.inj (hget.symm.trans h))
    · cases h
  · rintro ⟨hhash, hthere, hloads, hid⟩
    rw [hhash] at hthere ⊢
    rw [Option.getD_some, if_neg (fun h => hthere (congrArg some h)),
      if_neg (not_not.mpr rfl), hloads]
    exact if_pos hid

theorem get_or_create_ok {sub name : String} {username : JsonValue} :
    (∃ r, get_or_create_user_by_oauth users provider sub name username new_id = .ok r) ↔
      (get_user_by_oauth_sub users provider sub).isSome = true ∨ username_fits username = true := by
  unfold get_or_create_user_by_oauth
  cases get_user_by_oauth_sub users provider sub with
  | some user => exact ⟨fun _ => .inl rfl, fun _ => ⟨_, rfl⟩⟩
  | none =>
    by_cases hfits : username_fits username = true
    · exact ⟨fun _ => .inr hfits, fun _ => ⟨_, if_pos hfits⟩⟩
    · refine ⟨fun ⟨r, hr⟩ => ?_, fun h => (h.resolve_left Bool.false_ne_true |> hfits).elim⟩
      exact nomatch (if_neg hfits).symm.trans hr

theorem login_eq_dict {invalid : HTTPException} {check : Fields → Except HTTPException Unit}
    {user_data : Option JsonValue} {r : User × List User}
    (h : login lib provider users new_id invalid check user_data = .ok r) :
    ∃ data, user_data = some (.dict data) ∧ check data = .ok () ∧
      get_or_create_user_by_oauth users provider (lib.str_of (Fields.get data "id" .null))
        (display_name lib data) (Fields.get data "username" .null) new_id = .ok r := by
  unfold login at h
  split at h
  · cases h
  · next data =>
    refine ⟨data, rfl, ?_⟩
    cases hcheck : check data with
    | error e =>
      rw [hcheck] at h
      cases h
    | ok u =>
      rw [hcheck] at h
      exact ⟨rfl, h⟩
  · cases h

/-- A route is the login behind its own token and its own check. -/
theorem miniapp_login_eq_dict {r : User × List User}
    (h : miniapp_login provider lib bot_token now users new_id init_data = .ok r) :
    ∃ data, Signed lib bot_token init_data data ∧ bot_token ≠ [] ∧
      (provider = .telegram → check_age now data = .ok ()) ∧
      get_or_create_user_by_oauth users provider (lib.str_of (Fields.get data "id" .null))
        (display_name lib data) (Fields.get data "username" .null) new_id = .ok r := by
  cases provider with
  | telegram =>
    change telegram_miniapp_login lib bot_token now users new_id init_data = .ok r at h
    unfold telegram_miniapp_login at h
    split at h
    · cases h
    next htoken =>
    obtain ⟨data, hdata, hcheck, hfound⟩ := login_eq_dict h
    exact ⟨data, verify_eq_dict.mp hdata, htoken, fun _ => hcheck, hfound⟩
  | bale =>
    change bale_miniapp_login lib bot_token now users new_id init_data = .ok r at h
    unfold bale_miniapp_login at h
    split at h
    · cases h
    next htoken =>
    obtain ⟨data, hdata, -, hfound⟩ := login_eq_dict h
    exact ⟨data, verify_eq_dict.mp hdata, htoken, fun hother => absurd hother (by decide), hfound⟩

theorem miniapp_login_ok :
    (∃ r, miniapp_login provider lib bot_token now users new_id init_data = .ok r) ↔
      ∃ data, Signed lib bot_token init_data data ∧
        Admitted lib bot_token provider now users data := by
  constructor
  · rintro ⟨r, hr⟩
    obtain ⟨data, hsigned, htoken, hage, hfound⟩ := miniapp_login_eq_dict hr
    exact ⟨data, hsigned, htoken, hage, get_or_create_ok.mp ⟨r, hfound⟩⟩
  · rintro ⟨data, hsigned, htoken, hage, hknown⟩
    have hverified := verify_eq_dict.mpr hsigned
    have hfound : ∃ r, get_or_create_user_by_oauth users provider
        (lib.str_of (Fields.get data "id" .null)) (display_name lib data)
        (Fields.get data "username" .null) new_id = .ok r := get_or_create_ok.mpr hknown
    obtain ⟨r, hr⟩ := hfound
    refine ⟨r, ?_⟩
    cases provider with
    | telegram =>
      change telegram_miniapp_login lib bot_token now users new_id init_data = .ok r
      rw [telegram_miniapp_login, if_neg htoken, verify_telegram_init_data, hverified]
      change (check_age now data >>= fun _ => _) = _
      rw [hage rfl]
      exact hr
    | bale =>
      change bale_miniapp_login lib bot_token now users new_id init_data = .ok r
      rw [bale_miniapp_login, if_neg htoken, verify_bale_init_data, hverified]
      exact hr

end

/-! ## The signatures -/

theorem digitChar_inj {m n : Nat} (hm : m < 16) (hn : n < 16)
    (h : Nat.digitChar m = Nat.digitChar n) : m = n := by
  have hfin : ∀ a b : Fin 16, Nat.digitChar a = Nat.digitChar b → a = b := by decide +kernel
  exact Fin.mk.inj (hfin ⟨m, hm⟩ ⟨n, hn⟩ h)

theorem hexdigest_inj {a b : List UInt8} (h : hexdigest a = hexdigest b) : a = b := by
  unfold hexdigest at h
  induction a generalizing b with
  | nil =>
    cases b with
    | nil => rfl
    | cons y b => cases h
  | cons x a ih =>
    cases b with
    | nil => cases h
    | cons y b =>
      simp only [List.flatMap_cons, List.cons_append, List.nil_append, List.cons.injEq] at h
      obtain ⟨hhigh, hlow, hrest⟩ := h
      have hx := x.toNat_lt
      have hy := y.toNat_lt
      have hdiv := digitChar_inj (by omega) (by omega) hhigh
      have hmod := digitChar_inj (by omega) (by omega) hlow
      have hxy : x = y := UInt8.toNat.inj (by omega)
      rw [hxy, ih hrest]

/-- HMAC-SHA256 as a function of its key that is injective, and the two keys of
the token: its own hash, and its signature under `WebAppData`. -/
structure Keyed (lib : Library) (bot_token : Text) : Prop where
  injective : ∀ key key' message message', lib.hmac key message = lib.hmac key' message' →
    key = key' ∧ message = message'
  apart : lib.sha256 (encode bot_token) ≠ documented_key lib bot_token

theorem not_genuine_of_signed {lib : Library} {bot_token init_data : Text} {user : Fields}
    (hkeyed : Keyed lib bot_token) (h : Signed lib bot_token init_data user) :
    ¬Genuine lib bot_token init_data := by
  intro hgenuine
  have hsame := Option.some.inj (h.hash.symm.trans hgenuine)
  exact hkeyed.apart (hkeyed.injective _ _ _ _ (hexdigest_inj hsame)).1

/-! ## The law -/

/-- LAW: A login is right exactly when nobody is let in and nobody should be:
the data is not signed by the rule of the code for a user whom the route
admits, and is not both genuine and fresh. Data that is signed as the platforms
document is never let in. -/
theorem a_login_is_right_iff_nobody_may_come (lib : Library) (bot_token : Text)
    (hkeyed : Keyed lib bot_token) (provider : Provider) (now : Int) (users : List User)
    (new_id : String) (init_data : Text) :
    LoginIsRight lib bot_token provider now users new_id init_data ↔
      (¬∃ user, Signed lib bot_token init_data user ∧
        Admitted lib bot_token provider now users user) ∧
      ¬(Genuine lib bot_token init_data ∧ Fresh lib now init_data) := by
  constructor
  · rintro ⟨hexactly, -⟩
    rw [miniapp_login_ok] at hexactly
    have hnobody : ¬∃ user, Signed lib bot_token init_data user ∧
        Admitted lib bot_token provider now users user := by
      rintro ⟨user, hsigned, hadmitted⟩
      have hgenuine := (hexactly.mp ⟨user, hsigned, hadmitted⟩).1
      exact not_genuine_of_signed hkeyed hsigned hgenuine
    exact ⟨hnobody, fun hright => hnobody (hexactly.mpr hright)⟩
  · rintro ⟨hnobody, hnot⟩
    have hrefused : ¬∃ r, miniapp_login provider lib bot_token now users new_id init_data =
        .ok r := fun h => hnobody (miniapp_login_ok.mp h)
    exact ⟨⟨fun h => (hrefused h).elim, fun h => (hnot h).elim⟩,
      fun user after h => (hrefused ⟨_, h⟩).elim⟩

/-- A pair of texts, with a mark in front of each byte of the first one. -/
def paired (key message : List UInt8) : List UInt8 :=
  key.flatMap (fun byte => [1, byte]) ++ 0 :: message

def unquote_ascii : List Char → List Char
  | '%' :: '2' :: '2' :: text => '"' :: unquote_ascii text
  | '%' :: '3' :: 'A' :: text => ':' :: unquote_ascii text
  | '%' :: '7' :: 'B' :: text => '\x7b' :: unquote_ascii text
  | '%' :: '7' :: 'D' :: text => '\x7d' :: unquote_ascii text
  | c :: text => c :: unquote_ascii text
  | [] => []

/-- A library that signs with pairs, and reads the one user below. -/
def pairing : Library where
  sha256 := id
  hmac := paired
  unquote := unquote_ascii
  loads text := if text = "\x7b\"id\":1\x7d".toList then some (.dict [("id", .int 1)]) else none
  str_of _ := "1"

theorem paired_inj {key key' message message' : List UInt8}
    (h : paired key message = paired key' message') : key = key' ∧ message = message' := by
  unfold paired at h
  induction key generalizing key' with
  | nil =>
    cases key' with
    | nil => exact ⟨rfl, (List.cons.inj h).2⟩
    | cons y key' => exact absurd (List.cons.inj h).1 (by decide)
  | cons x key ih =>
    cases key' with
    | nil => exact absurd (List.cons.inj h).1 (by decide)
    | cons y key' =>
      simp only [List.flatMap_cons, List.cons_append, List.nil_append, List.cons.injEq] at h
      obtain ⟨-, hbyte, hrest⟩ := h
      obtain ⟨hkey, hmessage⟩ := ih hrest
      exact ⟨by rw [hbyte, hkey], hmessage⟩

def token : Text := "7:key".toList

theorem pairing_keyed : Keyed pairing token :=
  ⟨fun _ _ _ _ => paired_inj, by decide +kernel⟩

def unsigned_data : Text := "user=%7B%22id%22%3A1%7D&auth_date=1000".toList

/-- What the platform hands to the page. -/
def genuine_data : Text :=
  unsigned_data ++ "&hash=".toList ++ pairing.signature (documented_key pairing token)
    (data_check_string (documented_fields pairing unsigned_data))

/-- Genuine data, 1000 seconds old, is refused. -/
theorem a_genuine_login_is_refused :
    Keyed pairing token ∧
      ¬LoginIsRight pairing token .telegram 2000 [] "a" genuine_data := by
  refine ⟨pairing_keyed, fun h => ?_⟩
  have hgenuine : Genuine pairing token genuine_data := by decide +kernel
  have hfresh : Fresh pairing 2000 genuine_data :=
    ⟨"1000".toList, 1000, by decide +kernel, by decide +kernel, by decide⟩
  obtain ⟨r, hr⟩ := h.exactly.mpr ⟨hgenuine, hfresh⟩
  have hrefused : (miniapp_login .telegram pairing token 2000 [] "a" genuine_data).isOk =
      false := by decide +kernel
  rw [hr] at hrefused
  exact Bool.noConfusion hrefused

/-- Data without a hash lets nobody in, and should not. -/
theorem unsigned_data_is_refused :
    LoginIsRight pairing token .telegram 2000 [] "a" unsigned_data := by
  refine (a_login_is_right_iff_nobody_may_come pairing token pairing_keyed .telegram 2000 []
    "a" unsigned_data).mpr ⟨?_, fun h => ?_⟩
  · rintro ⟨user, hsigned, -⟩
    exact absurd hsigned.hash (by decide +kernel)
  · exact absurd h.1 (by decide +kernel)

end dr_boz.mini_app_login
