-- Law of the receipts for payments by card: the bot asks for a picture of the
-- receipt, keeps the amount with the user, and makes a payment request of the
-- picture. What it keeps is a set of flags that many handlers clear, and the
-- handlers take turns. Waits in a row between two uses of the flags are one.
import DrBoz.Lib.Coroutines
import DrBoz.Models
import DrBoz.Texts

open runs coroutines dr_boz.py dr_boz.models

namespace dr_boz.receipts

/-! ## The data of a user -/

structure Quote where
  credit_amount_toman : Int
  normal_payment_toman : Int
  payment_due_toman : Int
  discount_toman : Int
  discount_applied : Bool
deriving DecidableEq

/-- `context.user_data`. A flag that is missing is off. -/
structure UserData where
  asking_name : Bool := false
  account_set_name_return : Bool := false
  awaiting_toman_topup_amount : Bool := false
  awaiting_account_promo_code : Bool := false
  awaiting_card_receipt : Bool := false
  awaiting_subscription_card_receipt : Bool := false
  awaiting_card_to_card_amount : Bool := false
  awaiting_topup_amount : Bool := false
  awaiting_topup_promo_code : Bool := false
  pending_toman_topup_quote : Option Quote := none
  pending_card_amount_toman : Option Int := none
  pending_subscription_plan_id : Option Nat := none
  pending_subscription_amount_toman : Option Int := none
  pending_topup_usd_amount : Option String := none
deriving DecidableEq

/-- The keys of `TRANSIENT_FLAGS` go. -/
def clear_transient_flags (d : UserData) : UserData :=
  { d with
    asking_name := false
    account_set_name_return := false
    awaiting_toman_topup_amount := false
    awaiting_card_receipt := false
    awaiting_account_promo_code := false
    pending_card_amount_toman := none
    awaiting_subscription_card_receipt := false
    pending_subscription_plan_id := none
    pending_subscription_amount_toman := none }

def clear_pending_inputs (d : UserData) : UserData :=
  { d with pending_toman_topup_quote := none, pending_card_amount_toman := none }

def reset_ephemeral_state (clear_pending : Bool) (d : UserData) : UserData :=
  if clear_pending then clear_pending_inputs (clear_transient_flags d)
  else clear_transient_flags d

/-- The modes that a handler of the bot begins. -/
inductive Mode where
  | asking_name
  | awaiting_toman_topup_amount
  | awaiting_account_promo_code
  | awaiting_card_receipt
  | awaiting_subscription_card_receipt
  | awaiting_topup_promo_code
deriving DecidableEq

def Mode.set (d : UserData) : Mode → UserData
  | .asking_name => { d with asking_name := true }
  | .awaiting_toman_topup_amount => { d with awaiting_toman_topup_amount := true }
  | .awaiting_account_promo_code => { d with awaiting_account_promo_code := true }
  | .awaiting_card_receipt => { d with awaiting_card_receipt := true }
  | .awaiting_subscription_card_receipt => { d with awaiting_subscription_card_receipt := true }
  | .awaiting_topup_promo_code => { d with awaiting_topup_promo_code := true }

def begin_mode (mode : Mode) (d : UserData) : UserData := mode.set (reset_ephemeral_state true d)

/-! ## Handlers -/

/-- What the handlers share. -/
structure Bot where
  user_data : Int → UserData
  requests : List PaymentRequest := []

def Bot.edit (uid : Int) (f : UserData → UserData) (b : Bot) : Bot :=
  { b with user_data := Function.update b.user_data uid (f (b.user_data uid)) }

/-- How a user stands with the account: blocked, ready, or still to give the
phone number or the name. -/
inductive Standing where
  | blocked
  | completed
  | pending (need_phone need_name : Bool)
deriving DecidableEq

/-- What became of a phone number that was sent. -/
inductive PhoneOutcome where
  | refused
  | needs_name
  | saved
deriving DecidableEq

/-- What comes back from a wait. Each wait reads what it asked for. -/
structure Answer where
  raised : Bool := false
  claimed : Bool := true
  user_id : Nat := 1
  standing : Standing := .completed
  needs_phone : Bool := false
  phone : PhoneOutcome := .saved
  redeemed : Bool := true
  quote : Quote := ⟨0, 0, 0, 0, false⟩
  card_listed : Bool := true
  plan : Option (Option Int) := some none
  config_price : Int := 0

abbrev Handler := Coroutine Bot Answer

/-- A wait that ends the handler when it raises. -/
def heard : Handler Answer := do
  let a ← Coroutine.answer
  if a.raised then .failed else pure a

/-- The rest of a handler, which leaves the data of the users alone. -/
def goes_on : Handler Unit := do
  let _ ← heard
  pure ()

def change_data (uid : Int) (f : UserData → UserData) : Handler Unit := .edit (Bot.edit uid f)

def user_data (uid : Int) : Handler UserData := do
  let b ← Coroutine.shared
  pure (b.user_data uid)

/-- The settings of the bot, and what it reads out of texts. -/
structure Setup where
  is_bale_platform : Bool
  wallet_provider_token : Bool
  ADMIN_ID : Int
  phone_text : String → Bool
  phone_of : String → String
  parse_toman_amount : String → Option Int
  parse_topup_usd_amount : Option String → Option ℚ
  decimal_to_plain : ℚ → String
  normalize_promo_code : String → String
  parse_topup_promo_code : String → Option String

variable (S : Setup)

/-- `_ensure_onboarding_or_prompt`, whether the handler may go on. -/
def ensure_onboarding_or_prompt (uid : Int) : Standing → Handler Bool
  | .blocked => do
    goes_on
    pure false
  | .completed => pure true
  | .pending need_phone need_name => do
    if need_name && !need_phone then
      change_data uid (begin_mode .asking_name)
    else
      change_data uid fun d => { reset_ephemeral_state false d with asking_name := false }
    goes_on
    pure false

/-- The user is looked up, and the rest is for a user who has the account. -/
def gated (uid : Int) (rest : Handler Unit) : Handler Unit := do
  let a ← heard
  if ← ensure_onboarding_or_prompt uid a.standing then rest else pure ()

def claimed (rest : Handler Unit) : Handler Unit := do
  let a ← heard
  if a.claimed then rest else pure ()

def cmd_start (uid : Int) : Handler Unit := do
  change_data uid (reset_ephemeral_state true)
  goes_on

def cmd_account (uid : Int) : Handler Unit := claimed (gated uid goes_on)

def cmd_toman_topup (uid : Int) : Handler Unit :=
  gated uid do
    goes_on
    change_data uid (begin_mode .awaiting_toman_topup_amount)

def cmd_topup (uid : Int) : Handler Unit := cmd_toman_topup uid

def open_app_or_referral (uid : Int) : Handler Unit := gated uid goes_on

def admin_panel (uid : Int) : Handler Unit := do
  change_data uid (reset_ephemeral_state true)
  goes_on

def back_to_main (uid : Int) : Handler Unit := do
  change_data uid (reset_ephemeral_state true)
  goes_on

/-- The handlers that leave the data of the users alone. -/
def elsewhere (_uid : Int) : Handler Unit := goes_on

/-! ## A payment by card -/

def handle_topup_method_bale (uid : Int) : Handler Unit := do
  if !S.is_bale_platform then goes_on
  else if !S.wallet_provider_token then goes_on
  else
    let d ← user_data uid
    match d.pending_toman_topup_quote with
    | none => goes_on
    | some _ =>
      goes_on
      let invoice ← Coroutine.answer
      if invoice.raised then goes_on
      else
        change_data uid (reset_ephemeral_state true)
        goes_on

def handle_topup_method_card (uid : Int) : Handler Unit := do
  let d ← user_data uid
  match d.pending_toman_topup_quote with
  | none => goes_on
  | some quote_data =>
    let _ ← Coroutine.answer -- the message may be gone already
    let methods ← heard
    if !methods.card_listed then goes_on
    else
      change_data uid (begin_mode .awaiting_card_receipt)
      change_data uid fun d =>
        { d with pending_card_amount_toman := some quote_data.payment_due_toman }
      goes_on

/-- `int(plan.monthly_price_toman or config.monthly_price_toman or 0)`. -/
def plan_price (own : Option Int) (config_price : Int) : Int :=
  if own.getD 0 ≠ 0 then own.getD 0 else config_price

def start_subscription_card_payment (uid : Int) (plan_id : Nat) : Handler Unit := do
  if !S.is_bale_platform then goes_on
  else
    let _ ← Coroutine.answer
    let found ← heard
    if !found.card_listed then goes_on
    else
      match found.plan with
      | none => goes_on
      | some own =>
        goes_on
        change_data uid (begin_mode .awaiting_subscription_card_receipt)
        change_data uid fun d =>
          { d with
            pending_subscription_plan_id := some plan_id
            pending_subscription_amount_toman := some (plan_price own found.config_price) }
        goes_on

/-! ## A receipt -/

structure Photo where
  file_unique_id : String

structure Document where
  file_unique_id : String
  file_name : Option String

/-- What a receipt is for: the plan of a subscription, and the amount. -/
structure Due where
  plan_id : Option Nat
  amount_toman : Int
deriving DecidableEq

def Due.payment_type (due : Due) : String := if due.plan_id.isSome then "subscription" else "topup"

/-- `pending_card_amount_toman`, where 0 is as good as nothing. -/
def card_due (d : UserData) : Option Due :=
  match d.pending_card_amount_toman with
  | none => none
  | some amount => if amount = 0 then none else some ⟨none, amount⟩

/-- The pending plan and its amount, where 0 is as good as nothing. -/
def subscription_due (d : UserData) : Option Due :=
  match d.pending_subscription_plan_id, d.pending_subscription_amount_toman with
  | some plan_id, some amount =>
    if plan_id = 0 ∨ amount = 0 then none else some ⟨some plan_id, amount⟩
  | _, _ => none

/-- What the four handlers of a receipt do alike. The file has a path unless
its name cannot be read, and the name is read together with the download. -/
def take_receipt (uid : Int) (due : UserData → Option Due) (drop : UserData → UserData)
    (path : Option String) (caption : String) : Handler Unit := do
  let d ← user_data uid
  match due d with
  | none =>
    change_data uid drop
    goes_on
  | some due =>
    goes_on
    match path with
    | none => goes_on
    | some receipt_path =>
      let download ← Coroutine.answer
      if download.raised then goes_on
      else
        let stored ← heard
        Coroutine.edit fun b => { b with
          requests := b.requests ++ [{
            user_id := stored.user_id
            amount_toman := due.amount_toman
            receipt_image_path := receipt_path
            description := if caption = "" then none else some caption
            status := some "pending"
            payment_type := some due.payment_type
            plan_id := due.plan_id }] }
        change_data uid (reset_ephemeral_state true)
        goes_on

def Photo.path (photo : Photo) : String := "uploads/receipts/" ++ photo.file_unique_id ++ ".jpg"

/-- A document without a name raises. -/
def Document.path (doc : Document) : Option String :=
  doc.file_name.map fun name =>
    "uploads/receipts/" ++ doc.file_unique_id ++ "." ++
      if '.' ∈ name.toList then (texts.split '.' name).getLastD "" else "jpg"

def drop_card (d : UserData) : UserData := { d with awaiting_card_receipt := false }

def drop_subscription (d : UserData) : UserData :=
  { d with awaiting_subscription_card_receipt := false }

def handle_card_receipt_photo (uid : Int) (photo : Photo) (caption : String) : Handler Unit :=
  take_receipt uid card_due drop_card (some photo.path) caption

def handle_card_receipt_as_document (uid : Int) (doc : Document) (caption : String) :
    Handler Unit :=
  take_receipt uid card_due drop_card doc.path caption

def handle_subscription_receipt_photo (uid : Int) (photo : Photo) (caption : String) :
    Handler Unit :=
  take_receipt uid subscription_due drop_subscription (some photo.path) caption

def handle_subscription_receipt_as_document (uid : Int) (doc : Document) (caption : String) :
    Handler Unit :=
  take_receipt uid subscription_due drop_subscription doc.path caption

/-! ## Updates -/

/-- A button. The early ones are handled before the update is claimed. -/
inductive Button where
  | early
  | sub_pay_card (plan_id : Option Nat)
  | cancel_main
  | share_contact_request
  | just_name
  | account_set_name
  | account_promo_start
  | toman_topup_start
  | topup_method_bale
  | topup_method_card
  | other
deriving DecidableEq

/-- A message, with the command that the platform finds in front of a text. -/
inductive Message where
  | text (command : Option String) (text : String)
  | photo (photo : Photo) (caption : String)
  | document (doc : Document) (caption : String)
  | contact (user_id : Option Int) (phone_number : String)
  | successful_payment
  | other

inductive Update where
  | message (uid : Int) (group : Bool) (message : Message)
  | callback_query (uid : Int) (data : Button)
  | pre_checkout_query (uid : Int)
  | other (uid : Int)

def Update.uid : Update → Int
  | message uid _ _ | callback_query uid _ | pre_checkout_query uid | other uid => uid

/-- What a button does behind the claim and the account. -/
def press (uid : Int) : Button → Handler Unit
  | .account_set_name => do
    change_data uid (begin_mode .asking_name)
    change_data uid fun d => { d with account_set_name_return := true }
    goes_on
  | .account_promo_start => do
    change_data uid (begin_mode .awaiting_account_promo_code)
    goes_on
  | .toman_topup_start => cmd_toman_topup uid
  | .topup_method_bale => handle_topup_method_bale S uid
  | .topup_method_card => handle_topup_method_card uid
  | _ => goes_on

def button_callback (uid : Int) : Button → Handler Unit
  | .early => goes_on
  | .sub_pay_card none => .failed
  | .sub_pay_card (some plan_id) => start_subscription_card_payment S uid plan_id
  | data => do
    let _ ← Coroutine.answer
    claimed do
      if data = .cancel_main then
        change_data uid (reset_ephemeral_state true)
        goes_on
      else if uid ≠ S.ADMIN_ID ∧ data ≠ .share_contact_request ∧ data ≠ .just_name then
        gated uid (press S uid data)
      else press S uid data

def save_phone_onboarding_and_reply (uid : Int) (raw_phone : String) : Handler Unit := do
  if S.phone_of raw_phone = "" then goes_on
  else
    let saved ← heard
    match saved.phone with
    | .refused | .saved => goes_on
    | .needs_name =>
      change_data uid (begin_mode .asking_name)
      goes_on

def handle_contact (uid : Int) (user_id : Option Int) (phone_number : String) : Handler Unit :=
  claimed do
    let sender := user_id.getD 0
    if sender ≠ 0 ∧ sender ≠ uid ∧ !S.is_bale_platform then goes_on
    else save_phone_onboarding_and_reply S uid phone_number

/-! ## Messages -/

def CANCEL_TEXT : String := "❌ لغو"

def NAVIGATION_TEXTS : List String :=
  ["💎 اشتراک‌ها", "💰 افزایش شارژ", "👤 حساب کاربری", "🎁 دعوت دوستان", "🚀 باز کردن دکتر بز",
    "🔧 مدیریت", "👥 یوزرها", "📋 درخواست‌های پرداخت", "🔙 منوی اصلی", "📞 پشتیبانی"]

def is_navigation_or_command (text : String) : Bool :=
  text ≠ "" && ((strip text) ∈ NAVIGATION_TEXTS || (strip text).toList.head? = some '/')

/-- A text for the name. -/
def name_entry (uid : Int) (normalized : String) : Handler Unit := do
  if normalized = "" then goes_on
  else
    change_data uid fun d => { d with account_set_name_return := false }
    goes_on
    change_data uid fun d => { d with asking_name := false }
    goes_on

def promo_code_entry (uid : Int) (normalized : String) : Handler Unit := do
  if S.normalize_promo_code normalized = "" then goes_on
  else
    gated uid do
      let redemption ← heard
      if redemption.redeemed then
        change_data uid (reset_ephemeral_state true)
        goes_on
      else goes_on

def topup_amount_entry (uid : Int) (normalized : String) : Handler Unit := do
  match S.parse_toman_amount normalized with
  | none => goes_on
  | some _ =>
    gated uid do
      let quoted ← heard
      change_data uid fun d => { d with pending_toman_topup_quote := some quoted.quote }
      goes_on

/-- The amount is set before the mode begins, which clears it. -/
def card_to_card_entry (uid : Int) (normalized : String) : Handler Unit := do
  match S.parse_toman_amount normalized with
  | none => goes_on
  | some amount_toman =>
    change_data uid fun d => { d with pending_card_amount_toman := some amount_toman }
    change_data uid (begin_mode .awaiting_card_receipt)
    goes_on

def usd_amount_entry (uid : Int) (normalized : String) : Handler Unit := do
  if !S.is_bale_platform then
    change_data uid fun d => { d with awaiting_topup_amount := false }
    goes_on
  else
    gated uid do
      match S.parse_topup_usd_amount (some normalized) with
      | none => goes_on
      | some amount_usd =>
        change_data uid (begin_mode .awaiting_topup_promo_code)
        change_data uid fun d =>
          { d with pending_topup_usd_amount := some (S.decimal_to_plain amount_usd) }
        goes_on

def topup_promo_entry (uid : Int) (normalized : String) : Handler Unit := do
  if !S.is_bale_platform then
    change_data uid (reset_ephemeral_state true)
    goes_on
  else
    let d ← user_data uid
    match S.parse_topup_usd_amount d.pending_topup_usd_amount with
    | none =>
      change_data uid (reset_ephemeral_state true)
      goes_on
    | some _ =>
      if S.parse_topup_promo_code normalized = some "" then goes_on
      else
        let invoice ← Coroutine.answer
        if invoice.raised then goes_on
        else if ← ensure_onboarding_or_prompt uid invoice.standing then
          let sent ← Coroutine.answer
          if sent.raised then goes_on
          else
            change_data uid (reset_ephemeral_state true)
            goes_on
        else pure ()

/-- The part of `handle_message` that asks for a mode, in the order of the
source. -/
def by_mode (uid : Int) (message : Message) (normalized : String) : Handler Unit := do
  let d ← user_data uid
  if d.awaiting_account_promo_code then promo_code_entry S uid normalized
  else if d.awaiting_toman_topup_amount then topup_amount_entry S uid normalized
  else if d.awaiting_card_to_card_amount then card_to_card_entry S uid normalized
  else if d.awaiting_card_receipt then
    match message with
    | .photo photo caption => handle_card_receipt_photo uid photo caption
    | .document doc caption => handle_card_receipt_as_document uid doc caption
    | _ => goes_on
  else if d.awaiting_subscription_card_receipt then
    match message with
    | .photo photo caption => handle_subscription_receipt_photo uid photo caption
    | .document doc caption => handle_subscription_receipt_as_document uid doc caption
    | _ => goes_on
  else if d.awaiting_topup_amount then usd_amount_entry S uid normalized
  else if d.awaiting_topup_promo_code then topup_promo_entry S uid normalized
  else goes_on

def Message.content : Message → String
  | .text _ content => content
  | _ => ""

def handle_message (uid : Int) (group : Bool) (message : Message) : Handler Unit :=
  claimed do
    let normalized := strip message.content
    if group then goes_on
    else if normalized = CANCEL_TEXT then
      change_data uid (reset_ephemeral_state true)
      goes_on
    else if is_navigation_or_command normalized then
      change_data uid (reset_ephemeral_state true)
    else
      let d ← user_data uid
      if d.asking_name then name_entry uid normalized
      else if S.phone_text normalized then
        let user ← heard
        if user.needs_phone then save_phone_onboarding_and_reply S uid normalized
        else by_mode S uid message normalized
      else by_mode S uid message normalized

/-! ## The handlers of the bot -/

abbrev Registered := Update → Option (Handler Unit)

def command (name : String) (callback : Int → Handler Unit) : Registered
  | .message uid _ (.text (some c) _) => if c = name then some (callback uid) else none
  | _ => none

/-- `filters.Regex` with the whole text, which may end with a new line. -/
def menu (label : String) (callback : Int → Handler Unit) : Registered
  | .message uid _ (.text _ text) =>
    if text = label ∨ text = label ++ "\n" then some (callback uid) else none
  | _ => none

/-- The handlers of `run_bot`, in the order in which they are added. -/
def handlers : List Registered :=
  [command "start" cmd_start,
    command "account" cmd_account,
    command "plans" elsewhere,
    command "topup" cmd_topup,
    command "link" elsewhere,
    command "support" elsewhere,
    command "login" elsewhere,
    fun
      | .callback_query uid data => some (button_callback S uid data)
      | _ => none,
    fun
      | .pre_checkout_query uid => some (elsewhere uid)
      | _ => none,
    fun
      | .message uid _ (.contact user_id phone) => some (handle_contact S uid user_id phone)
      | _ => none,
    menu "👤 حساب کاربری" cmd_account,
    menu "💎 اشتراک‌ها" elsewhere,
    menu "💰 افزایش شارژ" cmd_toman_topup,
    menu "🎁 دعوت دوستان" open_app_or_referral,
    menu "📞 پشتیبانی" elsewhere,
    menu "🚀 باز کردن دکتر بز" elsewhere,
    menu "🔑 ورود به وب" elsewhere,
    menu "🔧 مدیریت" admin_panel,
    menu "👥 یوزرها" elsewhere,
    menu "📋 درخواست‌های پرداخت" elsewhere,
    menu "🔙 منوی اصلی" back_to_main,
    fun
      | .message uid _ .successful_payment => some (elsewhere uid)
      | _ => none,
    fun
      | .message uid group (.text none text) =>
        some (handle_message S uid group (.text none text))
      | _ => none]

/-- The first handler that takes the update. -/
def dispatch (u : Update) : Option (Handler Unit) := (handlers S).findSome? (· u)

/-! ## Runs -/

/-- The handlers at work, with the last input of each user. -/
structure World where
  loop : Loop Bot Answer
  last : Int → Option Update := fun _ => none

inductive Event where
  | arrives (u : Update)
  | resumes (i : Nat) (a : Answer)

/-- An update that no handler takes is dropped. -/
def step (w : World) : Event → World
  | .arrives u =>
    { loop := ((dispatch S u).map fun h => w.loop.start h).getD w.loop
      last := Function.update w.last u.uid (some u) }
  | .resumes i a => { w with loop := w.loop.resume i a }

/-- The bot before the first update. -/
def started (requests : List PaymentRequest) : World where
  loop := ⟨⟨fun _ => {}, requests⟩, []⟩

/-! ## What is wanted -/

/-- No receipt flag is set without the amount (and the plan) that it needs. -/
structure Amounts (d : UserData) : Prop where
  card : d.awaiting_card_receipt = true → d.pending_card_amount_toman.isSome = true
  subscription : d.awaiting_subscription_card_receipt = true →
    d.pending_subscription_plan_id.isSome = true ∧
      d.pending_subscription_amount_toman.isSome = true

/-- What the bot has asked a receipt for, when the last input of the user was
the choice to pay it by card. -/
def asked (w : World) (uid : Int) : Option Due :=
  let d := w.loop.state.user_data uid
  match w.last uid with
  | some (.callback_query _ .topup_method_card) =>
    if d.awaiting_card_receipt then
      d.pending_card_amount_toman.map fun amount => ⟨none, amount⟩
    else none
  | some (.callback_query _ (.sub_pay_card (some plan_id))) =>
    if d.awaiting_subscription_card_receipt ∧ d.pending_subscription_plan_id = some plan_id then
      d.pending_subscription_amount_toman.map fun amount => ⟨some plan_id, amount⟩
    else none
  | _ => none

/-- A photo or a document. -/
def Update.is_receipt : Update → Bool
  | .message _ _ (.photo _ _) => true
  | .message _ _ (.document _ _) => true
  | _ => false

/-- The payment requests once the update is handled to its end and nobody comes
in between. -/
def recorded (w : World) (u : Update) (a : Answer) : List PaymentRequest :=
  (((dispatch S u).getD (pure ())).alone a w.loop.state).2.requests

/-- A receipt that was asked for is kept, when nothing fails on the way. -/
def Recorded (w : World) (u : Update) (due : Due) : Prop :=
  ∀ a : Answer, a.raised = false → a.claimed = true → ∃ r : PaymentRequest,
    recorded S w u a = w.loop.state.requests ++ [r] ∧ r.user_id = a.user_id ∧
      r.amount_toman = due.amount_toman ∧ r.plan_id = due.plan_id ∧ r.status = some "pending"

/-- What the step should do. -/
structure NoReceiptLost (w : World) (e : Event) : Prop where
  amounts : ∀ uid, Amounts ((step S w e).loop.state.user_data uid)
  recorded : ∀ u due, e = .arrives u → u.is_receipt = true → asked w u.uid = some due →
    Recorded S w u due

/-- No photo or document comes when the bot has just asked for one. -/
def NoReceiptSent (w : World) : Event → Prop
  | .arrives u => u.is_receipt = true → asked w u.uid = none
  | .resumes _ _ => True

/-! ## What every handler keeps -/

/-- The amounts are there, and nobody is asked for an amount to send from card
to card. -/
structure Sound (d : UserData) : Prop extends Amounts d where
  no_card_to_card : d.awaiting_card_to_card_amount = false

def AllSound (b : Bot) : Prop := ∀ uid, Sound (b.user_data uid)

/-- A flag that is off needs nothing. -/
theorem off {p : Prop} (h : false = true) : p := (Bool.false_ne_true h).elim

theorem sound_reset {d : UserData} (h : Sound d) (clear_pending : Bool) :
    Sound (reset_ephemeral_state clear_pending d) := by
  cases clear_pending <;> exact ⟨⟨off, off⟩, h.no_card_to_card⟩

/-- The modes that need no amount. -/
theorem sound_begin {d : UserData} (h : Sound d) {mode : Mode}
    (hcard : mode ≠ .awaiting_card_receipt)
    (hsub : mode ≠ .awaiting_subscription_card_receipt) : Sound (begin_mode mode d) := by
  obtain ⟨⟨hc, hs⟩, hn⟩ := sound_reset h true
  cases mode with
  | awaiting_card_receipt => exact absurd rfl hcard
  | awaiting_subscription_card_receipt => exact absurd rfl hsub
  | asking_name | awaiting_toman_topup_amount | awaiting_account_promo_code
  | awaiting_topup_promo_code => exact ⟨⟨hc, hs⟩, hn⟩

theorem allSound_edit {b : Bot} (h : AllSound b) {uid : Int} {f : UserData → UserData}
    (hf : Sound (f (b.user_data uid))) : AllSound (b.edit uid f) := by
  intro other
  unfold Bot.edit
  by_cases hother : other = uid
  · subst hother
    simpa using hf
  · simpa [Function.update_of_ne hother] using h other

/-! ### The parts of a handler -/

variable {S} {uid : Int}

theorem heard_wp {Q : Answer → Bot → Prop} {b : Bot} (hb : AllSound b)
    (h : ∀ a t, AllSound t → Q a t) : (heard : Handler Answer).wp AllSound Q b := by
  unfold heard
  rw [Coroutine.wp_bind]
  refine ⟨hb, fun a t ht => ?_⟩
  change Coroutine.wp AllSound Q (if a.raised then .failed else pure a) t
  split
  · exact ht
  · exact h a t ht

theorem goes_on_keeps : goes_on.Keeps AllSound := by
  intro b hb
  unfold goes_on
  rw [Coroutine.wp_bind]
  exact heard_wp hb fun _ _ ht => ht

/-- A handler that ends in a sound state goes on with the rest. -/
theorem keeps_bind {α γ : Type} {c : Handler α} {k : α → Handler γ} (hc : c.Keeps AllSound)
    (hk : ∀ a, (k a).Keeps AllSound) : (c >>= k).Keeps AllSound := by
  intro b hb
  rw [Coroutine.wp_bind]
  exact Coroutine.wp.mono (fun a t ht => hk a t ht) (hc b hb)

theorem keeps_heard {γ : Type} {k : Answer → Handler γ} (hk : ∀ a, (k a).Keeps AllSound) :
    (heard >>= k).Keeps AllSound :=
  keeps_bind (fun _ hb => heard_wp hb fun _ _ ht => ht) hk

theorem keeps_answer {γ : Type} {k : Answer → Handler γ} (hk : ∀ a, (k a).Keeps AllSound) :
    (Coroutine.answer >>= k).Keeps AllSound :=
  keeps_bind (fun _ hb => ⟨hb, fun _ _ ht => ht⟩) hk

theorem keeps_ite {γ : Type} {p : Prop} [Decidable p] {x y : Handler γ} (hx : x.Keeps AllSound)
    (hy : y.Keeps AllSound) : (if p then x else y).Keeps AllSound := by
  split
  · exact hx
  · exact hy

/-- A change that is sound on its own. -/
theorem keeps_change {f : UserData → UserData} (hf : ∀ d, Sound d → Sound (f d)) {γ : Type}
    {k : Unit → Handler γ} (hk : (k ()).Keeps AllSound) :
    (change_data uid f >>= k).Keeps AllSound :=
  keeps_bind (fun _ hb => allSound_edit hb (hf _ (hb uid))) fun _ => hk

/-- Two changes without a wait in between. -/
theorem keeps_changes {f g : UserData → UserData} (hfg : ∀ d, Sound d → Sound (g (f d)))
    {γ : Type} {k : Unit → Handler γ} (hk : (k ()).Keeps AllSound) :
    (change_data uid f >>= fun _ => change_data uid g >>= k).Keeps AllSound := by
  intro b hb
  have hboth : (b.edit uid f).edit uid g = b.edit uid fun d => g (f d) := by
    simp [Bot.edit]
  have hafter : AllSound ((b.edit uid f).edit uid g) := by
    rw [hboth]
    exact allSound_edit hb (hfg _ (hb uid))
  exact hk _ hafter

theorem keeps_user_data {γ : Type} {k : UserData → Handler γ}
    (hk : ∀ d, Sound d → (k d).Keeps AllSound) : (user_data uid >>= k).Keeps AllSound :=
  fun b hb => hk _ (hb uid) b hb

theorem keeps_pure {γ : Type} (a : γ) : (pure a : Handler γ).Keeps AllSound := fun _ hb => hb

theorem keeps_goes_on {γ : Type} {k : Unit → Handler γ} (hk : (k ()).Keeps AllSound) :
    (goes_on >>= k).Keeps AllSound :=
  keeps_bind goes_on_keeps fun _ => hk

theorem reset_keeps {clear_pending : Bool} {γ : Type} {k : Unit → Handler γ}
    (hk : (k ()).Keeps AllSound) :
    (change_data uid (reset_ephemeral_state clear_pending) >>= k).Keeps AllSound :=
  keeps_change (fun _ h => sound_reset h clear_pending) hk

theorem begin_keeps {mode : Mode} (hcard : mode ≠ .awaiting_card_receipt)
    (hsub : mode ≠ .awaiting_subscription_card_receipt) {γ : Type} {k : Unit → Handler γ}
    (hk : (k ()).Keeps AllSound) : (change_data uid (begin_mode mode) >>= k).Keeps AllSound :=
  keeps_change (fun _ h => sound_begin h hcard hsub) hk

/-! ### The handlers -/

theorem ensure_keeps (user : Standing) : (ensure_onboarding_or_prompt uid user).Keeps AllSound := by
  cases user with
  | blocked => exact keeps_goes_on (keeps_pure false)
  | completed => exact keeps_pure true
  | pending need_phone need_name =>
    unfold ensure_onboarding_or_prompt
    refine keeps_ite (begin_keeps (by decide) (by decide) ?_) (keeps_change ?_ ?_)
    · exact keeps_goes_on (keeps_pure false)
    · intro d h
      obtain ⟨⟨hc, hs⟩, hn⟩ := sound_reset h false
      exact ⟨⟨hc, hs⟩, hn⟩
    · exact keeps_goes_on (keeps_pure false)

theorem gated_keeps {rest : Handler Unit} (h : rest.Keeps AllSound) :
    (gated uid rest).Keeps AllSound :=
  keeps_heard fun a => keeps_bind (ensure_keeps a.standing) fun _ => keeps_ite h (keeps_pure ())

theorem claimed_keeps {rest : Handler Unit} (h : rest.Keeps AllSound) :
    (claimed rest).Keeps AllSound :=
  keeps_heard fun _ => keeps_ite h (keeps_pure ())

theorem cmd_toman_topup_keeps : (cmd_toman_topup uid).Keeps AllSound :=
  gated_keeps (keeps_goes_on fun _ hb =>
    allSound_edit hb (sound_begin (hb uid) (by decide) (by decide)))

theorem reset_and_go_keeps :
    (do change_data uid (reset_ephemeral_state true); goes_on).Keeps AllSound :=
  reset_keeps goes_on_keeps

theorem topup_method_bale_keeps : (handle_topup_method_bale S uid).Keeps AllSound := by
  unfold handle_topup_method_bale
  refine keeps_ite goes_on_keeps (keeps_ite goes_on_keeps (keeps_user_data fun d _ => ?_))
  cases d.pending_toman_topup_quote with
  | none => exact goes_on_keeps
  | some q =>
    exact keeps_goes_on (keeps_answer fun _ => keeps_ite goes_on_keeps reset_and_go_keeps)

/-- The choice of the card sets the amount right after the mode has begun. -/
theorem topup_method_card_keeps : (handle_topup_method_card uid).Keeps AllSound := by
  unfold handle_topup_method_card
  refine keeps_user_data fun d _ => ?_
  cases d.pending_toman_topup_quote with
  | none => exact goes_on_keeps
  | some q =>
    refine keeps_answer fun _ => keeps_heard fun methods => keeps_ite goes_on_keeps ?_
    refine keeps_changes (fun e he => ?_) goes_on_keeps
    exact ⟨⟨fun _ => rfl, off⟩, he.no_card_to_card⟩

theorem subscription_card_keeps (plan_id : Nat) :
    (start_subscription_card_payment S uid plan_id).Keeps AllSound := by
  unfold start_subscription_card_payment
  refine keeps_ite goes_on_keeps (keeps_answer fun _ => keeps_heard fun found => ?_)
  refine keeps_ite goes_on_keeps ?_
  cases found.plan with
  | none => exact goes_on_keeps
  | some own =>
    refine keeps_goes_on (keeps_changes (fun e he => ?_) goes_on_keeps)
    exact ⟨⟨off, fun _ => ⟨rfl, rfl⟩⟩, he.no_card_to_card⟩

/-- A receipt clears the flag together with the amount, or the flag alone. -/
theorem take_receipt_keeps {due : UserData → Option Due} {drop : UserData → UserData}
    (hdrop : ∀ d, Sound d → Sound (drop d)) (path : Option String) (caption : String) :
    (take_receipt uid due drop path caption).Keeps AllSound := by
  unfold take_receipt
  refine keeps_user_data fun d _ => ?_
  cases due d with
  | none => exact keeps_change hdrop goes_on_keeps
  | some due =>
    refine keeps_goes_on ?_
    cases path with
    | none => exact goes_on_keeps
    | some receipt_path =>
      refine keeps_answer fun _ => keeps_ite goes_on_keeps (keeps_heard fun stored => ?_)
      exact keeps_bind (fun _ hb => hb) fun _ => reset_and_go_keeps

theorem drop_card_sound {d : UserData} (h : Sound d) : Sound (drop_card d) :=
  ⟨⟨off, h.subscription⟩, h.no_card_to_card⟩

theorem drop_subscription_sound {d : UserData} (h : Sound d) : Sound (drop_subscription d) :=
  ⟨⟨h.card, off⟩, h.no_card_to_card⟩

theorem press_keeps (data : Button) : (press S uid data).Keeps AllSound := by
  cases data with
  | account_set_name =>
    refine keeps_changes (fun d h => ?_) goes_on_keeps
    obtain ⟨⟨hc, hs⟩, hn⟩ : Sound (begin_mode .asking_name d) :=
      sound_begin h (by decide) (by decide)
    exact ⟨⟨hc, hs⟩, hn⟩
  | account_promo_start => exact begin_keeps (by decide) (by decide) goes_on_keeps
  | toman_topup_start => exact cmd_toman_topup_keeps
  | topup_method_bale => exact topup_method_bale_keeps
  | topup_method_card => exact topup_method_card_keeps
  | early | sub_pay_card _ | cancel_main | share_contact_request | just_name | other =>
    exact goes_on_keeps

theorem behind_claim_keeps (data : Button) :
    (do
      let _ ← Coroutine.answer
      claimed do
        if data = .cancel_main then
          change_data uid (reset_ephemeral_state true)
          goes_on
        else if uid ≠ S.ADMIN_ID ∧ data ≠ .share_contact_request ∧ data ≠ .just_name then
          gated uid (press S uid data)
        else press S uid data : Handler Unit).Keeps AllSound := by
  refine keeps_answer fun _ => claimed_keeps (keeps_ite reset_and_go_keeps ?_)
  exact keeps_ite (gated_keeps (press_keeps data)) (press_keeps data)

theorem button_callback_keeps (data : Button) : (button_callback S uid data).Keeps AllSound := by
  cases data with
  | early => exact goes_on_keeps
  | sub_pay_card plan_id =>
    cases plan_id with
    | none => exact fun _ hb => hb
    | some plan_id => exact subscription_card_keeps plan_id
  | cancel_main => exact behind_claim_keeps .cancel_main
  | share_contact_request => exact behind_claim_keeps .share_contact_request
  | just_name => exact behind_claim_keeps .just_name
  | account_set_name => exact behind_claim_keeps .account_set_name
  | account_promo_start => exact behind_claim_keeps .account_promo_start
  | toman_topup_start => exact behind_claim_keeps .toman_topup_start
  | topup_method_bale => exact behind_claim_keeps .topup_method_bale
  | topup_method_card => exact behind_claim_keeps .topup_method_card
  | other => exact behind_claim_keeps .other

theorem save_phone_keeps (raw_phone : String) :
    (save_phone_onboarding_and_reply S uid raw_phone).Keeps AllSound := by
  unfold save_phone_onboarding_and_reply
  refine keeps_ite goes_on_keeps (keeps_heard fun saved => ?_)
  cases saved.phone with
  | refused | saved => exact goes_on_keeps
  | needs_name => exact begin_keeps (by decide) (by decide) goes_on_keeps

theorem contact_keeps (user_id : Option Int) (phone_number : String) :
    (handle_contact S uid user_id phone_number).Keeps AllSound :=
  claimed_keeps (keeps_ite goes_on_keeps (save_phone_keeps phone_number))

/-! ### The modes of a message -/

theorem name_entry_keeps (text : String) : (name_entry uid text).Keeps AllSound := by
  unfold name_entry
  refine keeps_ite goes_on_keeps (keeps_change ?_ (keeps_goes_on (keeps_change ?_ goes_on_keeps)))
  · exact fun d h => ⟨⟨h.card, h.subscription⟩, h.no_card_to_card⟩
  · exact fun d h => ⟨⟨h.card, h.subscription⟩, h.no_card_to_card⟩

theorem promo_code_entry_keeps (text : String) : (promo_code_entry S uid text).Keeps AllSound :=
  keeps_ite goes_on_keeps
    (gated_keeps (keeps_heard fun _ => keeps_ite reset_and_go_keeps goes_on_keeps))

theorem topup_amount_entry_keeps (text : String) :
    (topup_amount_entry S uid text).Keeps AllSound := by
  unfold topup_amount_entry
  cases S.parse_toman_amount text with
  | none => exact goes_on_keeps
  | some amount =>
    refine gated_keeps (keeps_heard fun quoted => keeps_change ?_ goes_on_keeps)
    exact fun d h => ⟨⟨h.card, h.subscription⟩, h.no_card_to_card⟩

theorem usd_amount_entry_keeps (text : String) : (usd_amount_entry S uid text).Keeps AllSound := by
  unfold usd_amount_entry
  refine keeps_ite (keeps_change ?_ goes_on_keeps) (gated_keeps ?_)
  · exact fun d h => ⟨⟨h.card, h.subscription⟩, h.no_card_to_card⟩
  · cases S.parse_topup_usd_amount (some text) with
    | none => exact goes_on_keeps
    | some amount =>
      refine keeps_changes (fun d h => ?_) goes_on_keeps
      obtain ⟨⟨hc, hs⟩, hn⟩ : Sound (begin_mode .awaiting_topup_promo_code d) :=
        sound_begin h (by decide) (by decide)
      exact ⟨⟨hc, hs⟩, hn⟩

theorem topup_promo_entry_keeps (text : String) :
    (topup_promo_entry S uid text).Keeps AllSound := by
  unfold topup_promo_entry
  refine keeps_ite reset_and_go_keeps (keeps_user_data fun d _ => ?_)
  cases S.parse_topup_usd_amount d.pending_topup_usd_amount with
  | none => exact reset_and_go_keeps
  | some amount =>
    refine keeps_ite goes_on_keeps (keeps_answer fun invoice => keeps_ite goes_on_keeps ?_)
    refine keeps_bind (ensure_keeps invoice.standing) fun _ => keeps_ite ?_ (keeps_pure ())
    exact keeps_answer fun _ => keeps_ite goes_on_keeps reset_and_go_keeps

/-- A receipt that is not one for the mode is answered, and nothing else. -/
theorem receipt_mode_keeps {photo : Photo → String → Handler Unit}
    {document : Document → String → Handler Unit} (hphoto : ∀ p c, (photo p c).Keeps AllSound)
    (hdocument : ∀ d c, (document d c).Keeps AllSound) (message : Message) :
    (match message with
      | .photo p caption => photo p caption
      | .document d caption => document d caption
      | _ => goes_on : Handler Unit).Keeps AllSound := by
  cases message with
  | photo p caption => exact hphoto p caption
  | document d caption => exact hdocument d caption
  | text _ _ | contact _ _ | successful_payment | other => exact goes_on_keeps

/-- Nobody is in the mode that sets the amount before it clears it. -/
theorem by_mode_keeps (message : Message) (text : String) :
    (by_mode S uid message text).Keeps AllSound := by
  unfold by_mode
  refine keeps_user_data fun d hd => ?_
  refine keeps_ite (promo_code_entry_keeps text) (keeps_ite (topup_amount_entry_keeps text) ?_)
  rw [if_neg (by simp [hd.no_card_to_card])]
  refine keeps_ite ?_ (keeps_ite ?_ ?_)
  · exact receipt_mode_keeps
      (fun p c => take_receipt_keeps (fun _ => drop_card_sound) (some p.path) c)
      (fun p c => take_receipt_keeps (fun _ => drop_card_sound) p.path c) message
  · exact receipt_mode_keeps
      (fun p c => take_receipt_keeps (fun _ => drop_subscription_sound) (some p.path) c)
      (fun p c => take_receipt_keeps (fun _ => drop_subscription_sound) p.path c) message
  · exact keeps_ite (usd_amount_entry_keeps text)
      (keeps_ite (topup_promo_entry_keeps text) goes_on_keeps)

theorem handle_message_keeps (group : Bool) (message : Message) :
    (handle_message S uid group message).Keeps AllSound := by
  unfold handle_message
  refine claimed_keeps (keeps_ite goes_on_keeps (keeps_ite reset_and_go_keeps (keeps_ite ?_ ?_)))
  · exact fun b hb => allSound_edit hb (sound_reset (hb uid) true)
  · refine keeps_user_data fun d _ => keeps_ite (name_entry_keeps _) (keeps_ite ?_ ?_)
    · exact keeps_heard fun _ => keeps_ite (save_phone_keeps _) (by_mode_keeps message _)
    · exact by_mode_keeps message _

/-! ### The bot -/

theorem command_keeps {name : String} {callback : Int → Handler Unit}
    (h : ∀ uid, (callback uid).Keeps AllSound) {u : Update} {handler : Handler Unit}
    (hu : command name callback u = some handler) : handler.Keeps AllSound := by
  unfold command at hu
  split at hu
  · split at hu
    · cases hu
      exact h _
    · cases hu
  · cases hu

theorem menu_keeps {label : String} {callback : Int → Handler Unit}
    (h : ∀ uid, (callback uid).Keeps AllSound) {u : Update} {handler : Handler Unit}
    (hu : menu label callback u = some handler) : handler.Keeps AllSound := by
  unfold menu at hu
  split at hu
  · split at hu
    · cases hu
      exact h _
    · cases hu
  · cases hu

theorem cmd_account_keeps (uid : Int) : (cmd_account uid).Keeps AllSound :=
  claimed_keeps (gated_keeps goes_on_keeps)

theorem elsewhere_keeps (uid : Int) : (elsewhere uid).Keeps AllSound := goes_on_keeps

/-- Every handler that the bot has added. -/
theorem dispatch_keeps {u : Update} {handler : Handler Unit} (hu : dispatch S u = some handler) :
    handler.Keeps AllSound := by
  obtain ⟨registered, hmem, h⟩ := List.exists_of_findSome?_eq_some hu
  unfold handlers at hmem
  simp only [List.mem_cons, List.not_mem_nil, or_false] at hmem
  rcases hmem with rfl | rfl | rfl | rfl | rfl | rfl | rfl | rfl | rfl | rfl | rfl | rfl | rfl |
    rfl | rfl | rfl | rfl | rfl | rfl | rfl | rfl | rfl | rfl
  · exact command_keeps (fun _ => reset_and_go_keeps) h
  · exact command_keeps cmd_account_keeps h
  · exact command_keeps elsewhere_keeps h
  · exact command_keeps (fun _ => cmd_toman_topup_keeps) h
  · exact command_keeps elsewhere_keeps h
  · exact command_keeps elsewhere_keeps h
  · exact command_keeps elsewhere_keeps h
  · cases u with
    | callback_query uid data =>
      cases h
      exact button_callback_keeps data
    | message _ _ _ | pre_checkout_query _ | other _ => cases h
  · cases u with
    | pre_checkout_query uid =>
      cases h
      exact goes_on_keeps
    | message _ _ _ | callback_query _ _ | other _ => cases h
  · cases u with
    | message uid group message =>
      cases message with
      | contact user_id phone =>
        cases h
        exact contact_keeps user_id phone
      | text _ _ | photo _ _ | document _ _ | successful_payment | other => cases h
    | callback_query _ _ | pre_checkout_query _ | other _ => cases h
  · exact menu_keeps cmd_account_keeps h
  · exact menu_keeps elsewhere_keeps h
  · exact menu_keeps (fun _ => cmd_toman_topup_keeps) h
  · exact menu_keeps (fun _ => gated_keeps goes_on_keeps) h
  · exact menu_keeps elsewhere_keeps h
  · exact menu_keeps elsewhere_keeps h
  · exact menu_keeps elsewhere_keeps h
  · exact menu_keeps (fun _ => reset_and_go_keeps) h
  · exact menu_keeps elsewhere_keeps h
  · exact menu_keeps elsewhere_keeps h
  · exact menu_keeps (fun _ => reset_and_go_keeps) h
  · cases u with
    | message uid group message =>
      cases message with
      | successful_payment =>
        cases h
        exact goes_on_keeps
      | text _ _ | photo _ _ | document _ _ | contact _ _ | other => cases h
    | callback_query _ _ | pre_checkout_query _ | other _ => cases h
  · cases u with
    | message uid group message =>
      cases message with
      | text command text =>
        cases command with
        | none =>
          cases h
          exact handle_message_keeps group _
        | some name => cases h
      | photo _ _ | document _ _ | contact _ _ | successful_payment | other => cases h
    | callback_query _ _ | pre_checkout_query _ | other _ => cases h

theorem step_holds {w : World} (h : w.loop.Holds AllSound) (e : Event) :
    (step S w e).loop.Holds AllSound := by
  cases e with
  | resumes i a => exact h.resume i a
  | arrives u =>
    simp only [step]
    cases hu : dispatch S u with
    | none => exact h
    | some handler => exact h.start (dispatch_keeps hu)

theorem started_holds (requests : List PaymentRequest) :
    (started requests).loop.Holds AllSound where
  state _ := ⟨⟨off, off⟩, rfl⟩
  tasks _ hc := nomatch hc

/-! ### Photos and documents -/

/-- No handler of the bot takes a photo or a document. -/
theorem no_handler {u : Update} (hu : u.is_receipt = true) : dispatch S u = none := by
  cases u with
  | message uid group message =>
    cases message with
    | photo _ _ | document _ _ => rfl
    | text _ _ | contact _ _ | successful_payment | other => cases hu
  | callback_query _ _ | pre_checkout_query _ | other _ => cases hu

theorem nothing_recorded {w : World} {u : Update} (hu : u.is_receipt = true) (a : Answer) :
    recorded S w u a = w.loop.state.requests := by
  unfold recorded
  rw [no_handler hu]
  rfl

theorem not_recorded {w : World} {u : Update} {due : Due} (hu : u.is_receipt = true) :
    ¬Recorded S w u due := by
  intro h
  obtain ⟨r, hr, -⟩ := h {} rfl rfl
  rw [nothing_recorded hu] at hr
  simpa using congrArg List.length hr

/-- One step is as wanted when no receipt is sent that was asked for. -/
theorem no_receipt_lost_iff {w : World} (hw : w.loop.Holds AllSound) (e : Event) :
    NoReceiptLost S w e ↔ NoReceiptSent w e := by
  have hnext : ∀ uid, Amounts ((step S w e).loop.state.user_data uid) :=
    fun uid => ((step_holds hw e).state uid).toAmounts
  cases e with
  | resumes i a => exact ⟨fun _ => trivial, fun _ => ⟨hnext, fun _ _ hu => nomatch hu⟩⟩
  | arrives u =>
    constructor
    · intro h hu
      cases hasked : asked w u.uid with
      | none => rfl
      | some due => exact absurd (h.recorded u due rfl hu hasked) (not_recorded hu)
    · intro h
      refine ⟨hnext, fun v due hv hreceipt hasked => ?_⟩
      cases hv
      rw [h hreceipt] at hasked
      cases hasked

/-- LAW: in every run of updates, whose handlers take turns, no receipt flag is
ever set without its amount, and each receipt that was asked for is kept, if and
only if no photo and no document is sent when the bot has just asked for one. -/
theorem no_receipt_is_lost_iff_none_is_sent (S : Setup) (requests : List PaymentRequest)
    (es : List Event) :
    Each (step S) (NoReceiptLost S) (started requests) es ↔
      Each (step S) NoReceiptSent (started requests) es :=
  each_congr (I := fun w => w.loop.Holds AllSound) (fun _ e hw => step_holds hw e)
    (fun _ e hw => no_receipt_lost_iff hw e) (started_holds requests) es

/-- The bot on Bale, which reads nothing out of a text. -/
def bale : Setup where
  is_bale_platform := true
  wallet_provider_token := false
  ADMIN_ID := 1
  phone_text _ := false
  phone_of text := text
  parse_toman_amount _ := none
  parse_topup_usd_amount _ := none
  decimal_to_plain _ := ""
  normalize_promo_code text := text
  parse_topup_promo_code _ := none

/-- A plan of 150000 is chosen and to be paid by card, and the picture of the
receipt reaches no handler. -/
theorem a_receipt_is_sent_and_lost :
    ¬Each (step bale) (NoReceiptLost bale) (started [])
      [.arrives (.callback_query 7 (.sub_pay_card (some 3))), .resumes 0 {},
        .resumes 0 { plan := some (some 150000) }, .resumes 0 {}, .resumes 0 {},
        .arrives (.message 7 false (.photo ⟨"receipt"⟩ ""))] := by
  rw [no_receipt_is_lost_iff_none_is_sent]
  rintro ⟨-, -, -, -, -, hlast, -⟩
  exact absurd (hlast rfl) (by decide)

/-! ## A receipt at its handler -/

end dr_boz.receipts
