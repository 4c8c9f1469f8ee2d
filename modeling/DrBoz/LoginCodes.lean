-- Law of the codes that log a user in: the auth codes of the bot in Redis,
-- which Open WebUI redeems, and the link codes of the account service in their
-- table. Both look a code up first and void it in a later step, without
-- another look at it.
import DrBoz.Lib.Tickets
import DrBoz.Py
import Mathlib.Logic.Function.Basic

open runs tickets dr_boz.py

namespace dr_boz.login_codes

/-! ## Auth codes -/

/-- The payload of an auth code, of which the id of the user and the provider
are looked at again. `issue` numbers the codes. -/
structure Entry where
  issue : Nat
  provider : String
  sub : Int
  expires : Int
deriving DecidableEq, Repr

abbrev Redis := String → Option Entry

def auth_key (code : String) : String := "auth:code:" ++ code

def AUTH_CODE_TTL : Int := 300

structure AuthCodeForm where
  code : String
  provider : String
deriving DecidableEq, Repr

-- `str.upper()`, whatever it does.
variable (upper : String → String)

/-- The checks of `verify_bot_auth_code` in front of its delete. A key that has
expired is gone. -/
def find_auth_code (redis : Redis) (clock : Int) (form : AuthCodeForm) : Option (Nat × String) :=
  let code := upper (strip form.code)
  if form.provider ≠ "telegram" ∧ form.provider ≠ "bale" then none
  else
    match redis (auth_key code) with
    | none => none
    | some entry =>
      if entry.expires ≤ clock then none
      else if entry.provider ≠ form.provider then none
      else some (entry.issue, code)

/-- `cmd_get_login_code` sets the key, whatever is there, and
`verify_bot_auth_code` deletes it. -/
def auth_codes : Office Redis String Int Unit AuthCodeForm where
  lifetime _ := AUTH_CODE_TTL
  empty _ := none
  replaces _ _ _ := []
  issue redis _ n t :=
    some (Function.update redis (auth_key t.code) (some ⟨n, "bale", t.account, t.expires⟩))
  find := find_auth_code upper
  void redis _ code := Function.update redis (auth_key code) none
  holds redis n := ∃ key entry, redis key = some entry ∧ entry.issue = n

def EntryOf (ts : List (Ticket String Int)) (key : String) (entry : Entry) : Prop :=
  ∃ t, ts[entry.issue]? = some t ∧ key = auth_key t.code ∧ entry.sub = t.account ∧
    entry.expires = t.expires

def RedisFollows (redis : Redis) (ts : List (Ticket String Int)) : Prop :=
  ∀ key entry, redis key = some entry → EntryOf ts key entry

theorem auth_key_inj {a b : String} (h : auth_key a = auth_key b) : a = b := by
  have hlist := congrArg String.toList h
  unfold auth_key at hlist
  rw [String.toList_append, String.toList_append] at hlist
  exact String.toList_inj.mp (List.append_cancel_left hlist)

/-- What is under a key after another one was set or deleted. -/
theorem update_some {redis : Redis} {key k : String} {value : Option Entry} {entry : Entry}
    (h : Function.update redis key value k = some entry) :
    k = key ∧ value = some entry ∨ k ≠ key ∧ redis k = some entry := by
  by_cases hk : k = key
  · subst hk
    rw [Function.update_self] at h
    exact .inl ⟨rfl, h⟩
  · rw [Function.update_of_ne hk] at h
    exact .inr ⟨hk, h⟩

theorem lawful_auth_codes : Lawful (auth_codes upper) RedisFollows where
  empty _ _ h := nomatch h
  issue := by
    intro redis ts rows t redis' hfollows hissue key entry hentry
    cases hissue
    rcases update_some hentry with ⟨rfl, hnew⟩ | ⟨-, hold⟩
    · cases hnew
      exact ⟨t, List.getElem?_concat_length, rfl, rfl, rfl⟩
    · obtain ⟨u, hu, hrest⟩ := hfollows key entry hold
      exact ⟨u, getElem?_grown hu t, hrest⟩
  void := by
    intro redis ts n code hfollows key entry hentry
    rcases update_some hentry with ⟨-, hnone⟩ | ⟨-, hold⟩
    · cases hnone
    · exact hfollows key entry hold
  find := by
    intro redis ts clock form n code hfollows hfind
    change find_auth_code upper redis clock form = _ at hfind
    unfold find_auth_code at hfind
    dsimp only at hfind
    split at hfind
    · cases hfind
    · split at hfind
      · cases hfind
      · rename_i entry hentry
        split at hfind
        · cases hfind
        · rename_i hlive
          split at hfind
          · cases hfind
          · cases hfind
            obtain ⟨t, ht, hkey, -, hexpires⟩ := hfollows _ entry hentry
            exact ⟨t, ht, (auth_key_inj hkey).symm, hexpires ▸ not_le.mp hlive⟩
  issue_holds := by
    rintro redis ts rows t redis' m hfollows hissue ⟨key, entry, hentry, rfl⟩
    cases hissue
    rcases update_some hentry with ⟨-, hnew⟩ | ⟨-, hold⟩
    · cases hnew
      exact .inl rfl
    · exact .inr ⟨key, entry, hold, rfl⟩
  void_gone := by
    rintro redis ts n t hfollows ht ⟨key, entry, hentry, rfl⟩
    rcases update_some hentry with ⟨-, hnone⟩ | ⟨hne, hold⟩
    · cases hnone
    · obtain ⟨u, hu, hkey, -⟩ := hfollows key entry hold
      rw [ht] at hu
      cases hu
      exact hne hkey
  void_holds := by
    rintro redis n code m ⟨key, entry, hentry, rfl⟩
    rcases update_some hentry with ⟨-, hnone⟩ | ⟨-, hold⟩
    · cases hnone
    · exact ⟨key, entry, hold, rfl⟩

/-! ## Link codes -/

/-- A row of `link_codes`. Its id is its place. -/
structure LinkCode where
  code : String
  user_preference_id : Nat
  expires_at : Int
  used : Bool
deriving DecidableEq, Repr

/-- The route of the account service, and the command of the bot. -/
inductive Issuer where
  | create_link_code
  | cmd_link
deriving DecidableEq, Repr

def LinkCode.live (clock : Int) (row : LinkCode) : Bool :=
  !row.used && decide (clock < row.expires_at)

/-- The unused codes of a user that are still in time, by their places. -/
def existing_codes (rows : List LinkCode) (clock : Int) (user_preference_id : Nat) : List Nat :=
  rows.findIdxs fun row => decide (row.user_preference_id = user_preference_id) && row.live clock

def mark_used (ids : List Nat) (rows : List LinkCode) : List LinkCode :=
  rows.mapIdx fun i row => if i ∈ ids then { row with used := true } else row

def link_codes : Office (List LinkCode) String Nat Issuer String where
  lifetime
    | .create_link_code => 300
    | .cmd_link => 120
  empty := []
  replaces := existing_codes
  -- The column of the code is unique, whether the codes in it are used or not.
  issue rows existing _ t :=
    if rows.any fun row => row.code = t.code then none
    else some (mark_used existing rows ++ [⟨t.code, t.account, t.expires, false⟩])
  find rows clock code :=
    (rows.findIdx? fun row => row.code = code && row.live clock).map fun i => (i, code)
  void rows n _ := rows.modify n fun row => { row with used := true }
  holds rows n := ∃ row, rows[n]? = some row ∧ row.used = false

def LinkCode.IsTicket (row : LinkCode) (t : Ticket String Nat) : Prop :=
  row.code = t.code ∧ row.user_preference_id = t.account ∧ row.expires_at = t.expires

structure RowsFollow (rows : List LinkCode) (ts : List (Ticket String Nat)) : Prop where
  length : rows.length = ts.length
  row : ∀ (i : Nat) (row : LinkCode), rows[i]? = some row → ∃ t, ts[i]? = some t ∧ row.IsTicket t

/-- Rows that a creation marks keep all but their flag. -/
theorem mark_used_getElem? {existing : List Nat} {rows : List LinkCode} {n : Nat} {row : LinkCode}
    (h : (mark_used existing rows)[n]? = some row) :
    ∃ old, rows[n]? = some old ∧ (row = old ∨ row = { old with used := true }) := by
  unfold mark_used at h
  rw [List.getElem?_mapIdx] at h
  obtain ⟨old, hold, rfl⟩ := Option.map_eq_some_iff.mp h
  refine ⟨old, hold, ?_⟩
  split
  · exact .inr rfl
  · exact .inl rfl

theorem modify_getElem? {rows : List LinkCode} {n m : Nat} {row : LinkCode}
    (h : (rows.modify n fun row => { row with used := true })[m]? = some row) :
    ∃ old, rows[m]? = some old ∧ row = if n = m then { old with used := true } else old := by
  rw [List.getElem?_modify] at h
  obtain ⟨old, hold, rfl⟩ := Option.map_eq_some_iff.mp h
  refine ⟨old, hold, ?_⟩
  split
  · rfl
  · rfl

/-- A row with the flag set is still the row of its ticket. -/
theorem rows_kept {rows rows' : List LinkCode} {ts : List (Ticket String Nat)}
    (h : RowsFollow rows ts) (hlength : rows'.length = rows.length)
    (hrows : ∀ (i : Nat) (row : LinkCode), rows'[i]? = some row → ∃ old, rows[i]? = some old ∧
      (row = old ∨ row = { old with used := true })) : RowsFollow rows' ts := by
  refine ⟨hlength.trans h.length, fun i row hrow => ?_⟩
  obtain ⟨old, hold, hsame⟩ := hrows i row hrow
  obtain ⟨t, ht, hticket⟩ := h.row i old hold
  rcases hsame with rfl | rfl
  · exact ⟨t, ht, hticket⟩
  · exact ⟨t, ht, hticket⟩

theorem rows_marked {rows : List LinkCode} {ts : List (Ticket String Nat)}
    (h : RowsFollow rows ts) (existing : List Nat) : RowsFollow (mark_used existing rows) ts :=
  rows_kept h List.length_mapIdx fun _ _ => mark_used_getElem?

/-- A creation that is let in adds its row, and its code is new. -/
theorem link_issue {rows rows' : List LinkCode} {existing : List Nat} {n : Nat}
    {t : Ticket String Nat} (h : link_codes.issue rows existing n t = some rows') :
    rows' = mark_used existing rows ++ [⟨t.code, t.account, t.expires, false⟩] ∧
      ∀ row ∈ rows, row.code ≠ t.code := by
  change (if rows.any fun row => row.code = t.code then none
    else some (mark_used existing rows ++ [⟨t.code, t.account, t.expires, false⟩])) = _ at h
  split at h
  · cases h
  · rename_i hnew
    cases h
    refine ⟨rfl, fun row hrow hcode => hnew ?_⟩
    exact List.any_eq_true.mpr ⟨row, hrow, decide_eq_true hcode⟩

theorem lawful_link_codes : Lawful link_codes RowsFollow where
  empty := ⟨rfl, fun _ _ h => nomatch h⟩
  issue := by
    intro rows ts existing t rows' hfollows hissue
    obtain ⟨rfl, -⟩ := link_issue hissue
    have hmarked := rows_marked hfollows existing
    refine ⟨by rw [List.length_append, List.length_append, hmarked.length]; rfl, ?_⟩
    intro i row hrow
    by_cases hi : i < (mark_used existing rows).length
    · rw [List.getElem?_append_left hi] at hrow
      obtain ⟨u, hu, hticket⟩ := hmarked.row i row hrow
      exact ⟨u, getElem?_grown hu t, hticket⟩
    · have hlast : i = (mark_used existing rows).length := by
        have hlt := (List.getElem?_eq_some_iff.mp hrow).1
        rw [List.length_append, List.length_singleton] at hlt
        omega
      subst hlast
      rw [List.getElem?_concat_length] at hrow
      cases hrow
      exact ⟨t, by rw [hmarked.length, List.getElem?_concat_length], rfl, rfl, rfl⟩
  void := by
    intro rows ts n code hfollows
    refine rows_kept hfollows (List.length_modify _ _ _) fun i row hrow => ?_
    obtain ⟨old, hold, rfl⟩ := modify_getElem? hrow
    refine ⟨old, hold, ?_⟩
    split
    · exact .inr rfl
    · exact .inl rfl
  find := by
    intro rows ts clock code n c hfollows hfind
    obtain ⟨i, hi, heq⟩ := Option.map_eq_some_iff.mp hfind
    cases heq
    obtain ⟨hlt, hrow, -⟩ := List.findIdx?_eq_some_iff_getElem.mp hi
    rw [Bool.and_eq_true, LinkCode.live, Bool.and_eq_true] at hrow
    obtain ⟨hcode, -, hlive⟩ := hrow
    obtain ⟨t, ht, hticket⟩ := hfollows.row n rows[n] (List.getElem?_eq_getElem hlt)
    refine ⟨t, ht, ?_, ?_⟩
    · rw [← hticket.1]
      exact of_decide_eq_true hcode
    · rw [← hticket.2.2]
      exact of_decide_eq_true hlive
  issue_holds := by
    rintro rows ts existing t rows' m hfollows hissue ⟨row, hrow, hunused⟩
    obtain ⟨rfl, -⟩ := link_issue hissue
    have hmarked := rows_marked hfollows existing
    by_cases hm : m < (mark_used existing rows).length
    · rw [List.getElem?_append_left hm] at hrow
      obtain ⟨old, hold, rfl | rfl⟩ := mark_used_getElem? hrow
      · exact .inr ⟨row, hold, hunused⟩
      · cases hunused
    · left
      have hlt := (List.getElem?_eq_some_iff.mp hrow).1
      rw [List.length_append, List.length_singleton] at hlt
      have hlength := hmarked.length
      omega
  void_gone := by
    rintro rows ts n t hfollows ht ⟨row, hrow, hunused⟩
    obtain ⟨old, hold, rfl⟩ := modify_getElem? hrow
    rw [if_pos rfl] at hunused
    cases hunused
  void_holds := by
    rintro rows n code m ⟨row, hrow, hunused⟩
    obtain ⟨old, hold, rfl⟩ := modify_getElem? hrow
    split at hunused
    · cases hunused
    · exact ⟨old, hold, hunused⟩

/-- No link code is out twice: a code that is let in is new. -/
theorem link_code_fresh {s : State (List LinkCode) String Nat Issuer}
    (h : RowsFollow s.store s.issues) (i : Nat) (code : String) :
    Fit link_codes s (.create i code) := by
  intro issuer account existing hi hissue t ht hcode
  obtain ⟨rows', hrows⟩ := Option.ne_none_iff_exists'.mp hissue
  obtain ⟨-, hnew⟩ := link_issue hrows
  obtain ⟨k, hk⟩ := List.mem_iff_getElem?.mp ht
  have hlt : k < s.store.length := by
    rw [h.length]
    exact (List.getElem?_eq_some_iff.mp hk).1
  obtain ⟨u, hu, hticket⟩ := h.row k s.store[k] (List.getElem?_eq_getElem hlt)
  rw [hk] at hu
  cases hu
  exact absurd (hticket.1.trans hcode) (hnew _ (List.getElem_mem hlt))

/-! ## The law -/

/-- A link code that is voided is unused, as its lookup has found it. -/
def StillFinds (s : State (List LinkCode) String Nat Issuer) (e : Event String Nat Issuer String) :
    Prop :=
  ∀ i, e = .redeem i → Fit link_codes s e

/-- LAW: In every interleaving, each auth code and each link code opens one
session at most, in its time and for its account alone, when each void still
finds the code of its lookup and no auth code is drawn that is out for another
user. -/
theorem each_code_opens_one_session (auth : List (Event String Int Unit AuthCodeForm))
    (link : List (Event String Nat Issuer String))
    (hauth : Each (step (auth_codes upper)) (Fit (auth_codes upper)) (start (auth_codes upper))
      auth)
    (hlink : Each (step link_codes) StillFinds (start link_codes) link) :
    Safe (after (step (auth_codes upper)) (start (auth_codes upper)) auth) ∧
      Safe (after (step link_codes) (start link_codes) link) := by
  constructor
  · exact safe_run (lawful_auth_codes upper) (fun _ _ _ hfit => hfit) hauth
  · refine safe_run lawful_link_codes (fun s e hfollows hfinds => ?_) hlink
    cases e with
    | tick n => trivial
    | ask issuer account => trivial
    | look form => trivial
    | create i code => exact link_code_fresh hfollows i code
    | redeem i => exact hfinds i rfl

/-- `str.upper()` of a text in ASCII. -/
def ascii_upper (text : String) : String := String.ofList (text.toList.map Char.toUpper)

/-- User 7 gets the code A1B2C3D4 and user 9 the link code 123456, and each is
redeemed. -/
def auth_run : List (Event String Int Unit AuthCodeForm) :=
  [.ask () 7, .create 0 "A1B2C3D4", .tick 60, .look ⟨"A1B2C3D4", "bale"⟩, .redeem 0]

def link_run : List (Event String Nat Issuer String) :=
  [.ask .create_link_code 9, .create 0 "123456", .tick 60, .look "123456", .redeem 0]

theorem two_codes_open_one_session_each :
    Safe (after (step (auth_codes ascii_upper)) (start (auth_codes ascii_upper)) auth_run) ∧
      Safe (after (step link_codes) (start link_codes) link_run) := by
  refine each_code_opens_one_session ascii_upper auth_run link_run ?_ ?_
  · refine ⟨trivial, ?_, trivial, trivial, ?_, trivial⟩
    · intro issuer account rows hi hissue t ht
      cases ht
    · intro found hfound
      cases hfound
      exact ⟨"auth:code:A1B2C3D4", ⟨0, "bale", 7, 300⟩, by decide, rfl⟩
  · have hother : ∀ s e, (∀ i, e ≠ Event.redeem i) → StillFinds s e :=
      fun s e hne i hi => absurd hi (hne i)
    refine ⟨hother _ _ ?_, hother _ _ ?_, hother _ _ ?_, hother _ _ ?_, ?_, trivial⟩
    · exact fun i h => nomatch h
    · exact fun i h => nomatch h
    · exact fun i h => nomatch h
    · exact fun i h => nomatch h
    · intro i hi found hfound
      cases hfound
      exact ⟨⟨"123456", 9, 300, false⟩, by decide, rfl⟩

/-- Two clients that look one code up before either voids it both get a
session. And user 8, who draws the code of user 7, has a session opened under
it. -/
theorem a_code_opens_two_sessions :
    ¬Safe (after (step (auth_codes ascii_upper)) (start (auth_codes ascii_upper))
      [.ask () 7, .create 0 "A1B2C3D4", .look ⟨"A1B2C3D4", "bale"⟩, .look ⟨"A1B2C3D4", "bale"⟩,
        .redeem 0, .redeem 1]) ∧
    ¬Safe (after (step link_codes) (start link_codes)
      [.ask .cmd_link 9, .create 0 "123456", .look "123456", .look "123456", .redeem 0,
        .redeem 1]) ∧
    ¬Safe (after (step (auth_codes ascii_upper)) (start (auth_codes ascii_upper))
      [.ask () 7, .create 0 "A1B2C3D4", .ask () 8, .create 1 "A1B2C3D4",
        .look ⟨"A1B2C3D4", "bale"⟩, .redeem 0]) := by
  refine ⟨fun h => ?_, fun h => ?_, fun h => ?_⟩
  · have honce := h.once
    revert honce
    decide
  · have honce := h.once
    revert honce
    decide
  · have hown := h.own ⟨1, 0⟩ (by decide) ⟨"A1B2C3D4", 8, 0, 300⟩ ⟨"A1B2C3D4", 7, 0, 300⟩
      (by decide) (by decide) rfl (by decide) (by decide)
    revert hown
    decide

end dr_boz.login_codes
