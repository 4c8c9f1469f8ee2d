-- Law of the ids under which `spending.py` bills the users of Open WebUI: a
-- linked account gives its number, whatever its provider, and a user without
-- one gets a number from the MD5 of the user id.
import DrBoz.CliLines
import DrBoz.Md5

open dr_boz.cli_lines dr_boz.md5

namespace dr_boz.billing_identity

/-! ## The tracking id -/

inductive IntError where
  | value_error
  | type_error
  | overflow_error
deriving DecidableEq, Repr

/-- `int(value)` of a value that JSON can hold. -/
def int_of_value : JsonValue → Except IntError Int
  | .int n => .ok n
  | .bool b => .ok (if b then 1 else 0)
  | .float x => .ok (truncated x)
  | .infinity | .minus_infinity => .error .overflow_error
  | .nan => .error .value_error
  | .str text =>
    match texts.int_of text with
    | some n => .ok n
    | none => .error .value_error
  | .null | .list _ | .dict _ => .error .type_error

/-- `int(h, 16)` of the first five bytes, which are ten hex digits. -/
def first_ten_digits (digest : List UInt8) : Nat :=
  (digest.take 5).foldl (fun n byte => 256 * n + byte.toNat) 0

def synthetic_era_id (user_id : String) : Int :=
  9000000000 + (first_ten_digits (digest_of user_id.toUTF8.toList) % 1000000000 : Nat)

/-- What the data of one provider gives: a number, nothing, or an exception
that ends the search. -/
inductive Linked where
  | number (n : Int)
  | nothing
  | raises
deriving DecidableEq, Repr

/-- `provider_data['sub']` of an account. -/
def sub_of (provider_data : JsonValue) : Option JsonValue :=
  match provider_data with
  | .dict fields => (fields.find? fun field => field.1 = "sub").map Prod.snd
  | _ => none

/-- A text and a list can hold `'sub'`, but not under a key. In the other
values there is no search at all. -/
def linked (provider_data : JsonValue) : Linked :=
  if provider_data.truthy then
    match provider_data with
    | .dict _ =>
      match sub_of provider_data with
      | none => .nothing
      | some sub =>
        match int_of_value sub with
        | .ok n => .number n
        | .error .overflow_error => .raises
        | .error _ => .nothing
    | .str _ | .list _ => .nothing
    | _ => .raises
  else .nothing

inductive Provider where
  | telegram
  | bale
deriving DecidableEq, Repr

def Provider.name : Provider → String
  | .telegram => "telegram"
  | .bale => "bale"

structure User where
  id : String
  oauth : Option Fields

def User.data (user : User) (provider : Provider) : JsonValue :=
  Fields.get (user.oauth.getD []) provider.name .null

/-- The first usable link of the user, and its provider. -/
def User.link (user : User) : Option (Provider × Int) :=
  match linked (user.data .telegram) with
  | .number n => some (.telegram, n)
  | .raises => none
  | .nothing =>
    match linked (user.data .bale) with
    | .number n => some (.bale, n)
    | _ => none

/-- `user` is what `get_user_by_id` finds under the id. -/
def get_era_tracking_id (user_id : String) (user : Option User) : Int :=
  match user with
  | none => synthetic_era_id user_id
  | some user =>
    match user.link with
    | some (_, n) => n
    | none => synthetic_era_id user_id

/-- The id under which an existing user is billed. -/
def User.tracking_id (user : User) : Int := get_era_tracking_id user.id (some user)

/-! ## Who may share an id -/

/-- Both users are linked to one account of one provider. -/
def LinkedAlike (u v : User) : Prop :=
  ∃ provider sub n, sub_of (u.data provider) = some sub ∧ sub_of (v.data provider) = some sub ∧
    int_of_value sub = .ok n

/-- No two people share an id. -/
def Separate (u v : User) : Prop := u.tracking_id = v.tracking_id → LinkedAlike u v

/-- How two users come to one number. -/
inductive Clash (u v : User) : Prop where
  | links (p q : Provider) (n : Int) (hu : u.link = some (p, n)) (hv : v.link = some (q, n))
  | link_and_hash (p : Provider) (n : Int) (hu : u.link = some (p, n)) (hv : v.link = none)
      (hn : n = 9000000000 + (first_ten_digits (digest_of v.id.toUTF8.toList) % 1000000000 : Nat))
  | hash_and_link (p : Provider) (n : Int) (hu : u.link = none) (hv : v.link = some (p, n))
      (hn : n = 9000000000 + (first_ten_digits (digest_of u.id.toUTF8.toList) % 1000000000 : Nat))
  | hashes (hu : u.link = none) (hv : v.link = none)
      (hd : first_ten_digits (digest_of u.id.toUTF8.toList) % 1000000000 =
        first_ten_digits (digest_of v.id.toUTF8.toList) % 1000000000)

section
variable {u v : User}

theorem tracking_link {p : Provider} {n : Int} (h : u.link = some (p, n)) : u.tracking_id = n := by
  simp only [User.tracking_id, get_era_tracking_id, h]

theorem tracking_hash (h : u.link = none) : u.tracking_id = synthetic_era_id u.id := by
  simp only [User.tracking_id, get_era_tracking_id, h]

theorem synthetic_inj {a b : String} :
    synthetic_era_id a = synthetic_era_id b ↔
      first_ten_digits (digest_of a.toUTF8.toList) % 1000000000 =
        first_ten_digits (digest_of b.toUTF8.toList) % 1000000000 := by
  unfold synthetic_era_id
  omega

theorem same_id_iff_clash (u v : User) : u.tracking_id = v.tracking_id ↔ Clash u v := by
  constructor
  · intro h
    cases hu : u.link with
    | some link =>
      obtain ⟨p, n⟩ := link
      rw [tracking_link hu] at h
      cases hv : v.link with
      | some link =>
        obtain ⟨q, m⟩ := link
        rw [tracking_link hv] at h
        exact .links p q n hu (h ▸ hv)
      | none =>
        rw [tracking_hash hv] at h
        exact .link_and_hash p n hu hv h
    | none =>
      rw [tracking_hash hu] at h
      cases hv : v.link with
      | some link =>
        obtain ⟨q, m⟩ := link
        rw [tracking_link hv] at h
        exact .hash_and_link q m hu hv h.symm
      | none =>
        rw [tracking_hash hv] at h
        exact .hashes hu hv (synthetic_inj.mp h)
  · intro h
    cases h with
    | links p q n hu hv => rw [tracking_link hu, tracking_link hv]
    | link_and_hash p n hu hv hn =>
      rw [tracking_link hu, tracking_hash hv]
      exact hn
    | hash_and_link p n hu hv hn =>
      rw [tracking_hash hu, tracking_link hv]
      exact hn.symm
    | hashes hu hv hd =>
      rw [tracking_hash hu, tracking_hash hv]
      exact synthetic_inj.mpr hd

end

/-- Sara is linked to the Telegram account 123456, and Reza to the Bale account
123456. -/
def sara : User := ⟨"sara", some [("telegram", .dict [("sub", .str "123456")])]⟩

def reza : User := ⟨"reza", some [("bale", .dict [("sub", .str "123456")])]⟩

end dr_boz.billing_identity
