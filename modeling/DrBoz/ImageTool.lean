-- The image tool (`run_image_generator_tool` of `llm.py`) on its two paths:
-- `execute_tool_call` with the chat of the user, and the agent's tool
-- `image_generator`, which knows no chat. The debit is committed before the
-- provider is asked, and nothing gives it back.
import DrBoz.PromoCodes
import DrBoz.Views

open keyed_table unit_of_work dr_boz.py dr_boz.models dr_boz.codex_capacity dr_boz.toman_billing
open dr_boz.promo_codes dr_boz.views

namespace dr_boz.image_tool

/-! ## The debit -/

def debit (user : UserPreference) (amount_minor : Int) (entry_type : String)
    (reason : Option String) (metadata : Dict) (commit : Bool) :
    Tx (WalletResult × UserPreference) := do
  if user.is_admin = some true then
    let balance ← get_balance_minor user
    return ({ ok := true, balance_minor := balance, balance_usd := minor_to_usd balance,
              reason := some "admin_bypass" }, user)
  else
  apply_credit_delta user (-amount_minor.natAbs) entry_type reason metadata false commit

def debit_usd (user : UserPreference) (amount_usd : PyFloat) (entry_type : String)
    (reason : Option String) (metadata : Dict) (commit : Bool) :
    Tx (WalletResult × UserPreference) := do
  let amount_minor ← Prog.lift (usd_to_minor amount_usd)
  debit user amount_minor entry_type reason metadata commit

/-! ## What the provider gives -/

/-- An entry of `images`: one whose url cannot be read raises, else its data may be saved. -/
inductive Image where
  | malformed (error : String)
  | url (img_url : String) (saved : Option String)
deriving DecidableEq, Repr

/-- The answer of the provider: a timeout, a lost connection, a body that is no JSON or has
another shape all raise. -/
inductive Reply where
  | raised (error : String)
  | http_status (status_code : Nat) (text : String)
  | no_choices
  | message (content : Option String) (images : List Image)
deriving DecidableEq, Repr

/-- The result with `"ok": True`. -/
structure Generated where
  saved_image_paths : List String
  text_content : String
  markdown : String
deriving DecidableEq, Repr

/-- The paths and the markdown of the images from the number `img_idx` on. -/
def save_images (img_idx : Nat) : List Image → Except String (List String × List String)
  | [] => .ok ([], [])
  | .malformed error :: _ => .error ("Failed to call OpenRouter API: " ++ error)
  | .url img_url saved :: images => do
    let (paths, parts) ← save_images (img_idx + 1) images
    if "data:image/".toList <+: img_url.toList then
      return (saved.toList ++ paths,
        ("![Generated Image " ++ toString (img_idx + 1) ++ "](" ++ img_url ++ ")") :: parts)
    else return (paths, parts)

/-- What the tool makes of the answer. -/
def image_reply : Reply → Except String Generated
  | .raised error => .error ("Failed to call OpenRouter API: " ++ error)
  | .http_status status_code text =>
    .error ("OpenRouter API returned HTTP " ++ toString status_code ++ ": " ++ text)
  | .no_choices => .error "No response choices from OpenRouter."
  | .message content images => do
    let reply_content := content.getD ""
    let (paths, parts) ← save_images 0 images
    let markdown_parts := if reply_content = "" then parts else reply_content :: parts
    return ⟨paths, reply_content, "\\n\\n".intercalate markdown_parts⟩

/-- The answer gives at least one image that is saved. -/
def Reply.delivers (reply : Reply) : Bool :=
  match image_reply reply with
  | .ok generated => generated.saved_image_paths ≠ []
  | .error _ => false

/-! ## The tool -/

structure Chat where
  id : Int
  user_preference_id : Option Nat
deriving DecidableEq

/-- What the tool finds outside of the store: whether `OPENROUTER_API_KEY` is set, the chats,
and the answer of the provider. -/
structure World where
  api_key : Bool
  chats : List Chat
  reply : Reply

/-- `base_cost * 1.5` -/
def TOTAL_CHARGE : PyFloat := f64 (f64 (4 / 100) * (3 / 2))

def INSUFFICIENT : String :=
  "موجودی حساب شما برای ساخت این عکس کافی نیست. لطفاً حساب خود را شارژ کنید."

/-- Charges the user of the chat, if there is one: an error, if the wallet refuses. -/
def charge_user (world : World) (chat_id : Option Int) : Tx (Option String) := do
  if chat_id.getD 0 = 0 then return none
  else
  match world.chats.find? (fun chat => some chat.id = chat_id) with
  | none => return none
  | some chat =>
    match chat.user_preference_id with
    | none => return none
    | some 0 => return none
    | some user_id =>
      let user ← Prog.read fun db => db.users.get user_id
      match user with
      | none => return none
      | some user =>
        let (wallet_result, _) ← debit_usd user TOTAL_CHARGE "image_generation"
          (some "Image generation via OpenRouter") [] true
        return if wallet_result.ok then none else some INSUFFICIENT

def run_image_generator_tool (world : World) (chat_id : Option Int) (prompt : Option String) :
    Tx (Except String Generated) := do
  if prompt.getD "" = "" then return .error "prompt is required"
  else if world.api_key = false then
    return .error ("OPENROUTER_API_KEY is not configured in the environment variables (.env). "
      ++ "Please set it to use this tool.")
  else
  let refused ← charge_user world chat_id
  match refused with
  | some error => return .error error
  | none => return image_reply world.reply

/-- `execute_tool_call` of the image tool: the row of the call is committed before and after,
and an exception goes on. -/
def execute_tool_call (world : World) (chat_id : Int) (prompt : Option String) :
    Tx (Except String Generated) := do
  Prog.publish
  let result ← Prog.attempt (run_image_generator_tool world (some chat_id) prompt)
  Prog.publish
  Prog.lift result

/-- The agent's tool, which passes no chat. -/
def image_generator (world : World) (prompt : String) : Tx (Except String Generated) :=
  run_image_generator_tool world none (some prompt)

/-! ## Balances -/

/-- The balance of a user in millionths of a dollar, as `get_balance_minor` gives it. -/
def usd_balance (user_id : Nat) (db : Db) : Int :=
  match db.wallets.first fun w => w.user_id = user_id with
  | some wallet => max 0 (intOr0 wallet.available_minor)
  | none =>
    match db.users.get user_id with
    | none => 0
    | some user =>
      match usd_to_minor (user.credit_balance_usd.getD 0) with
      | .ok minor => max 0 minor
      | .error _ => 0

/-- The price of an image in millionths of a dollar. -/
def PRICE : Int := 60000

theorem usd_to_minor_total_charge : usd_to_minor TOTAL_CHARGE = .ok PRICE := by decide +kernel

/-! ## What the debit does -/

/-- A balance that is too large for the decimals raises. -/
theorem usd_to_minor_error {amount : PyFloat} {e : PyError} (h : usd_to_minor amount = .error e) :
    e = .invalid_operation := by
  unfold usd_to_minor quantizeHalfUp at h
  split at h
  · cases h
  · cases h
    rfl

/-- The wallet that is made for a user. -/
def new_wallet (user_id : Nat) (minor : Int) : Wallet :=
  { user_id, balance_minor := some minor, available_minor := some minor }

/-- A user without a wallet can get one. -/
theorem accepts_new_wallet {db : Db} {user_id : Nat}
    (h : db.wallets.first (fun w => w.user_id = user_id) = none) (minor : Int) :
    db.wallets.Accepts (new_wallet user_id minor) := by
  intro u hu w hw hwu
  have hnone := Table.first_eq_none.mp h w hw
  simp only [decide_eq_false_iff_not] at hnone
  have hid : some w.user_id = some u := hwu
  have hid' : some user_id = some u := hu
  exact hnone (Option.some.inj (hid.trans hid'.symm))

/-- The wallet that a session finds or makes has the balance of the user. -/
theorem wallet_run {user : UserPreference} (stored : Db) {db : Db}
    (huser : db.users.get user.id = some user) :
    (∃ wallet db', (get_or_create_wallet user).run ⟨stored, db⟩ = (.ok wallet, ⟨stored, db'⟩) ∧
      db'.wallets.first (fun w => w.user_id = user.id) = some wallet ∧
      max 0 (intOr0 wallet.available_minor) = usd_balance user.id db) ∨
    (get_or_create_wallet user).run ⟨stored, db⟩ = (.error .invalid_operation, ⟨stored, db⟩) ∧
      usd_balance user.id db = 0 := by
  unfold get_or_create_wallet
  rw [Prog.run_bind, Prog.run_read, Prog.continueWith_ok]
  rcases hfirst : db.wallets.first fun w => w.user_id = user.id with _ | wallet
  · have hbalance : usd_balance user.id db =
        match usd_to_minor (user.credit_balance_usd.getD 0) with
        | .ok minor => max 0 minor
        | .error _ => 0 := by
      unfold usd_balance
      rw [hfirst, huser]
    simp only [Prog.run_bind]
    rcases hminor : usd_to_minor (user.credit_balance_usd.getD 0) with e | minor
    · rw [hminor] at hbalance
      rw [usd_to_minor_error hminor]
      exact Or.inr ⟨by simp, hbalance⟩
    · rw [hminor] at hbalance
      left
      have haccepts := accepts_new_wallet hfirst minor
      have hadmits : Store.admits db (Change.addWallet (new_wallet user.id minor)) = true :=
        decide_eq_true haccepts
      refine ⟨{ new_wallet user.id minor with id := db.wallets.nextKey },
        db.apply (.addWallet (new_wallet user.id minor)), ?_, ?_, hbalance.symm⟩
      · simp only [Prog.run_lift_ok, Prog.continueWith_ok, Prog.run_bind, Prog.run_read,
          Prog.run_flush]
        exact if_pos hadmits ▸ rfl
      · exact Table.first_insert_none haccepts hfirst (decide_eq_true rfl)
  · left
    refine ⟨wallet, db, ?_, hfirst, ?_⟩
    · simp
    · unfold usd_balance
      rw [hfirst]

/-- A session that has a wallet for the user finds it again. -/
theorem wallet_found {user : UserPreference} {wallet : Wallet} {stored db : Db}
    (h : db.wallets.first (fun w => w.user_id = user.id) = some wallet) :
    (get_or_create_wallet user).run ⟨stored, db⟩ = (.ok wallet, ⟨stored, db⟩) := by
  unfold get_or_create_wallet
  rw [Prog.run_bind, Prog.run_read, Prog.continueWith_ok, h]
  rfl

/-- The balance of the user after the writes of a delta. -/
theorem usd_balance_after {user user' : UserPreference} {db : Db} {wallet wallet' : Wallet}
    {entry : CreditLedgerEntry}
    (h : db.wallets.first (fun w => w.user_id = user.id) = some wallet)
    (hid : wallet'.id = wallet.id) (huser : wallet'.user_id = wallet.user_id)
    (hmerge : Wallet.merge wallet wallet' wallet = wallet') :
    usd_balance user.id (Store.apply (Store.apply (Store.apply db (.addCreditLedger entry))
        (.setWallet wallet wallet')) (.setUser user user')) =
      max 0 (intOr0 wallet'.available_minor) := by
  have hmem := Table.first_mem h
  have hget : db.wallets.get wallet'.id = some wallet := by
    rw [hid]
    exact db.wallets.get_eq_some.mpr ⟨hmem.1, rfl⟩
  have hput : db.wallets.update wallet'.id (Wallet.merge wallet wallet') (fun _ => rfl)
      (fun _ => rfl) = db.wallets.put wallet' := Table.update_eq_put _ _ hget hmerge
  have hfirst : (db.wallets.put wallet').first (fun w => w.user_id = user.id) = some wallet' :=
    Table.first_put h ⟨hid, congrArg some huser⟩ (by
      have hfound := hmem.2
      simp only [decide_eq_true_eq] at hfound ⊢
      rw [huser, hfound])
  unfold usd_balance
  simp only [Store.apply, Db.apply, hput, hfirst]

/-- What a charge of the price does: the price is taken, or the charge is refused and the
balance stays. -/
def Charges (user_id : Nat) (db : Db) {α : Type} (ok : α → Bool)
    (r : Except PyError α × Session Db) : Prop :=
  (PRICE ≤ usd_balance user_id db ∧ (∃ a, r.1 = .ok a ∧ ok a = true) ∧
      usd_balance user_id r.2.view = usd_balance user_id db - PRICE) ∨
    (usd_balance user_id db < PRICE ∧ (∀ a, r.1 = .ok a → ok a = false) ∧
      r.1 ≠ .error (Store.conflict Db) ∧ usd_balance user_id r.2.view = usd_balance user_id db)

theorem debit_run {user : UserPreference} (stored : Db) {db : Db}
    (huser : db.users.get user.id = some user) (hadmin : user.is_admin ≠ some true)
    (entry_type : String) (reason : Option String) (metadata : Dict) :
    Charges user.id db (fun p => p.1.ok)
      ((debit user PRICE entry_type reason metadata true).run ⟨stored, db⟩) := by
  unfold debit
  rw [if_neg hadmin]
  unfold apply_credit_delta get_balance_minor
  simp only [Prog.run_bind]
  rcases wallet_run stored huser with
    ⟨wallet, db1, hrun, hfirst, hbalance⟩ | ⟨hrun, hzero⟩
  · have hsame : usd_balance user.id db1 = usd_balance user.id db := by
      rw [← hbalance]
      unfold usd_balance
      rw [hfirst]
    have hprice : -(PRICE.natAbs : Int) = -60000 := rfl
    simp only [hrun, Prog.continueWith_ok, Prog.run_pure, hbalance, hprice]
    by_cases hcovered : PRICE ≤ usd_balance user.id db
    · have hnot : ¬(usd_balance user.id db + -60000 < 0) := by
        unfold PRICE at hcovered
        omega
      rw [if_neg fun h => hnot h.2.2.1]
      have hkeyless : ∀ e : CreditLedgerEntry, e.idempotency_key = none →
          decide (db1.credit_ledger.Accepts e) = true := fun e he =>
        decide_eq_true (Table.accepts_of_no_unique he)
      simp only [Prog.run_bind, wallet_found hfirst, Prog.continueWith_ok, Prog.run_read,
        Prog.run_flush, Store.admits, Db.admits, hkeyless, if_true, Prog.run_publishIf,
        Session.commitIf, Session.commit, Prog.run_pure]
      refine Or.inl ⟨hcovered, ⟨_, rfl, rfl⟩, ?_⟩
      refine Eq.trans (usd_balance_after hfirst ?_ ?_ ?_) ?_
      · rfl
      · rfl
      · simp only [Wallet.merge, col_self]
      · simp only [intOr0, Option.getD_some]
        unfold PRICE
        omega
    · have hshort : usd_balance user.id db + -60000 < 0 := by
        unfold PRICE at hcovered
        omega
      rw [if_pos ⟨by omega, trivial, hshort, hadmin⟩]
      refine Or.inr ⟨by omega, ?_, ?_, hsame⟩
      · intro p hp
        cases hp
        rfl
      · intro hconflict
        cases hconflict
  · simp only [hrun, Prog.continueWith_error]
    refine Or.inr ⟨?_, ?_, ?_, rfl⟩
    · rw [hzero]
      decide
    · intro p hp
      cases hp
    · intro hconflict
      cases hconflict

/-- A charge whose result is only translated. -/
theorem Charges.map {user_id : Nat} {db : Db} {α β : Type} {ok : α → Bool} {ok' : β → Bool}
    {r : Except PyError α × Session Db} {f : α → β} (h : Charges user_id db ok r)
    (hf : ∀ a, ok' (f a) = ok a) :
    Charges user_id db ok' (Prog.continueWith (fun a => (pure (f a) : Tx β)) r) := by
  obtain ⟨x, s⟩ := r
  rcases h with ⟨hcovered, ⟨a, ha, hok⟩, hbalance⟩ | ⟨hshort, hno, hraised, hbalance⟩
  · cases ha
    exact Or.inl ⟨hcovered, ⟨f a, rfl, (hf a).trans hok⟩, hbalance⟩
  · refine Or.inr ⟨hshort, ?_, ?_, ?_⟩
    · intro b hb
      rcases x with e | a
      · cases hb
      · cases hb
        exact (hf a).trans (hno a rfl)
    · rcases x with e | a
      · intro hconflict
        have he : e = Store.conflict Db := Except.error.inj hconflict
        exact hraised (congrArg Except.error he)
      · intro hconflict
        cases hconflict
    · rcases x with e | a
      · exact hbalance
      · exact hbalance

/-- The chat that the tool is called for belongs to the user. -/
def ChatOf (world : World) (chat_id : Int) (user_id : Nat) : Prop :=
  chat_id ≠ 0 ∧ user_id ≠ 0 ∧
    ∃ chat, world.chats.find? (fun chat => some chat.id = some chat_id) = some chat ∧
      chat.user_preference_id = some user_id

theorem charge_user_run {world : World} {chat_id : Int} {user : UserPreference} (stored : Db)
    {db : Db} (huser : db.users.get user.id = some user) (hadmin : user.is_admin ≠ some true)
    (hchat : ChatOf world chat_id user.id) :
    Charges user.id db Option.isNone ((charge_user world (some chat_id)).run ⟨stored, db⟩) := by
  obtain ⟨hid, huid, chat, hfind, hpref⟩ := hchat
  unfold charge_user
  simp only [Option.getD_some, if_neg hid, hfind, hpref]
  rcases hn : user.id with _ | n
  · exact absurd hn huid
  · rw [← hn]
    simp only [Prog.run_bind, Prog.run_read, Prog.continueWith_ok, huser]
    have hdebit := debit_run stored huser hadmin "image_generation"
      (some "Image generation via OpenRouter") []
    unfold debit_usd
    simp only [usd_to_minor_total_charge, Prog.run_bind, Prog.run_lift_ok, Prog.continueWith_ok]
    refine hdebit.map (f := fun p => if p.1.ok = true then none else some INSUFFICIENT) ?_
    intro p
    cases p.1.ok
    · rfl
    · rfl

/-! ## Paid and delivered -/

/-- The tool returns ok with at least one saved image. -/
def Delivered (result : Except PyError (Except String Generated)) : Bool :=
  match result with
  | .ok (.ok generated) => generated.saved_image_paths ≠ []
  | _ => false

/-- The balance falls by the price if an image is delivered, and stays otherwise. -/
def PaidIffDelivered (user_id : Nat) (db : Db)
    (run : Except PyError (Except String Generated) × Session Db) : Prop :=
  usd_balance user_id run.2.stored =
    usd_balance user_id db - if Delivered run.1 = true then PRICE else 0

/-- The prompt and the key are there, so that the provider may be asked. -/
def Asked (world : World) (prompt : Option String) : Prop :=
  prompt.getD "" ≠ "" ∧ world.api_key = true

/-- Before the charge, the tool only checks its prompt and the key. -/
theorem tool_unasked {world : World} {prompt : Option String} (h : ¬Asked world prompt)
    (chat_id : Option Int) (s : Session Db) :
    ∃ e, (run_image_generator_tool world chat_id prompt).run s = (.ok (.error e), s) := by
  unfold run_image_generator_tool
  split
  · exact ⟨_, rfl⟩
  · rename_i hprompt
    split
    · exact ⟨_, rfl⟩
    · rename_i hkey
      exact absurd ⟨hprompt, by simpa using hkey⟩ h

/-- A tool that is asked charges the user and gives what the provider gave. -/
theorem tool_asked {world : World} {prompt : Option String} (h : Asked world prompt)
    (chat_id : Option Int) (s : Session Db) :
    (run_image_generator_tool world chat_id prompt).run s =
      Prog.continueWith (fun refused => match refused with
        | some error => pure (.error error)
        | none => pure (image_reply world.reply)) ((charge_user world chat_id).run s) := by
  unfold run_image_generator_tool
  rw [if_neg h.1, if_neg (by simp [h.2]), Prog.run_bind]

theorem delivered_reply (reply : Reply) : Delivered (.ok (image_reply reply)) = reply.delivers := by
  unfold Delivered Reply.delivers
  cases image_reply reply with
  | error => rfl
  | ok generated => rfl

theorem price_ne_zero : PRICE ≠ 0 := by decide

/-- With a chat: the price is taken from a covered balance, delivered or not. -/
theorem chat_path_iff {world : World} {chat_id : Int} {prompt : Option String}
    {user : UserPreference} {db : Db} (huser : db.users.get user.id = some user)
    (hadmin : user.is_admin ≠ some true) (hchat : ChatOf world chat_id user.id) :
    PaidIffDelivered user.id db ((execute_tool_call world chat_id prompt).run (.opened db)) ↔
      (Asked world prompt → PRICE ≤ usd_balance user.id db → world.reply.delivers = true) := by
  have hrun : ∀ {result : Except PyError (Except String Generated)} {view : Db},
      (∃ stored, (run_image_generator_tool world (some chat_id) prompt).run (.opened db) =
        (result, ⟨stored, view⟩)) → result ≠ .error (Store.conflict Db) →
      (execute_tool_call world chat_id prompt).run (.opened db) = (result, .opened view) := by
    rintro result view ⟨stored, hrun⟩ hraised
    unfold execute_tool_call
    simp only [Prog.run_bind, Prog.run_publish, Prog.continueWith_ok]
    have hopened : (Session.opened db).commit = .opened db := rfl
    rw [hopened, Prog.run_attempt (by rw [hrun]; exact hraised), hrun]
    cases result with
    | error e => rfl
    | ok a => rfl
  unfold PaidIffDelivered
  by_cases hasked : Asked world prompt
  · have hcharge := charge_user_run db huser hadmin hchat
    have htool := tool_asked hasked (some chat_id) (.opened db)
    change Charges user.id db Option.isNone
      ((charge_user world (some chat_id)).run (.opened db)) at hcharge
    rcases hr : (charge_user world (some chat_id)).run (.opened db) with ⟨x, s⟩
    rw [hr] at hcharge htool
    rcases hcharge with ⟨hcovered, ⟨refused, hx, hnone⟩, hbalance⟩ |
      ⟨hshort, hno, hraised, hbalance⟩
    · -- The charge went through: the answer of the provider decides.
      cases hx
      rw [Option.isNone_iff_eq_none] at hnone
      subst hnone
      have hrun' := @hrun (.ok (image_reply world.reply)) s.view ⟨s.stored, htool⟩ (by simp)
      simp only [hrun', delivered_reply, Session.stored_opened, hbalance, hasked, hcovered,
        true_implies]
      cases world.reply.delivers
      · have hprice := price_ne_zero
        simp only [Bool.false_eq_true, if_false, iff_false]
        omega
      · simp
    · -- The charge was refused, or the balance could not be computed.
      have hout : ¬PRICE ≤ usd_balance user.id db := by omega
      have hstays : ∀ result : Except PyError (Except String Generated),
          Delivered result = false → result ≠ .error (Store.conflict Db) →
          (run_image_generator_tool world (some chat_id) prompt).run (.opened db) = (result, s) →
          usd_balance user.id
              ((execute_tool_call world chat_id prompt).run (.opened db)).2.stored =
            usd_balance user.id db - if Delivered ((execute_tool_call world chat_id prompt).run
              (.opened db)).1 = true then PRICE else 0 := by
        intro result hdelivered hresult htool
        rw [hrun ⟨s.stored, htool⟩ hresult, hdelivered]
        simp [hbalance]
      simp only [hout, false_implies, implies_true, iff_true]
      rcases x with e | refused
      · exact hstays (.error e) rfl (fun h => hraised (congrArg Except.error (Except.error.inj h)))
          htool
      · have hsome := hno refused rfl
        rcases refused with _ | error
        · cases hsome
        · exact hstays (.ok (.error error)) rfl (fun h => nomatch h) htool
  · obtain ⟨e, htool⟩ := tool_unasked hasked (some chat_id) (.opened db)
    rw [hrun ⟨db, htool⟩ (by simp)]
    simp [Delivered, hasked, Session.opened]

/-- Without a chat nothing is charged. -/
theorem agent_path_iff (world : World) (prompt : String) (user_id : Nat) (db : Db) :
    PaidIffDelivered user_id db ((image_generator world prompt).run (.opened db)) ↔
      (Asked world (some prompt) → world.reply.delivers = false) := by
  unfold PaidIffDelivered image_generator
  by_cases hasked : Asked world (some prompt)
  · have hfree : (charge_user world none).run (.opened db) = (.ok none, .opened db) := rfl
    rw [tool_asked hasked none (.opened db), hfree]
    simp only [Prog.continueWith_ok, Prog.run_pure, delivered_reply, Session.stored_opened, hasked,
      true_implies]
    cases world.reply.delivers
    · simp
    · have hprice := price_ne_zero
      simp only [if_true, Bool.true_eq_false, iff_false]
      omega
  · obtain ⟨e, htool⟩ := tool_unasked hasked none (.opened db)
    rw [htool]
    simp [Delivered, hasked, Session.opened]

/-- LAW: With the chat of a user, an image is paid exactly when it is delivered if the provider
delivers whenever the balance covers the price. On the agent's path it is so only where nothing
is delivered. -/
theorem an_image_is_paid_when_delivered_iff {world : World} {chat_id : Int} {prompt : Option String}
    {user : UserPreference} {db : Db} (huser : db.users.get user.id = some user)
    (hadmin : user.is_admin ≠ some true) (hchat : ChatOf world chat_id user.id) (text : String) :
    (PaidIffDelivered user.id db ((execute_tool_call world chat_id prompt).run (.opened db)) ↔
      (Asked world prompt → PRICE ≤ usd_balance user.id db → world.reply.delivers = true)) ∧
    (PaidIffDelivered user.id db ((image_generator world text).run (.opened db)) ↔
      (Asked world (some text) → world.reply.delivers = false)) :=
  ⟨chat_path_iff huser hadmin hchat, agent_path_iff world text user.id db⟩

/-- A user with a dollar. -/
def painter : UserPreference := { id := 1, credit_balance_usd := some 1 }

def studio : Db := { Db.empty with users := Table.empty.insert painter }

/-- A provider that draws one image. -/
def drawing : World :=
  ⟨true, [⟨7, some 1⟩], .message none [.url "data:image/png;base64,AA==" (some "/srv/1.png")]⟩

/-- A provider that does not answer in time. -/
def silent : World := ⟨true, [⟨7, some 1⟩], .raised "timed out"⟩

/-- A timeout is paid for, and an image on the agent's path is not. -/
theorem a_timeout_is_paid_and_an_image_is_not :
    ¬PaidIffDelivered 1 studio ((execute_tool_call silent 7 (some "a cat")).run (.opened studio)) ∧
      ¬PaidIffDelivered 1 studio ((image_generator drawing "a cat").run (.opened studio)) := by
  unfold PaidIffDelivered
  decide +kernel

/-- An image for a chat is paid, and a timeout on the agent's path is free. -/
theorem an_image_for_a_chat_is_paid :
    PaidIffDelivered 1 studio
        ((execute_tool_call drawing 7 (some "a cat")).run (.opened studio)) ∧
      PaidIffDelivered 1 studio ((image_generator silent "a cat").run (.opened studio)) :=
  ⟨(@an_image_is_paid_when_delivered_iff drawing 7 (some "a cat") painter studio
      (by decide +kernel) (by decide) ⟨by decide, by decide, ⟨7, some 1⟩, rfl, rfl⟩
      "a cat").1.mpr fun _ _ => by decide +kernel,
    (@an_image_is_paid_when_delivered_iff silent 7 none painter studio
      (by decide +kernel) (by decide) ⟨by decide, by decide, ⟨7, some 1⟩, rfl, rfl⟩
      "a cat").2.mpr fun _ => rfl⟩

end dr_boz.image_tool
