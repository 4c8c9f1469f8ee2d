-- Manual payments of `payment_routes.py`: a user sends a receipt, and an
-- admin approves or rejects the request. Approval credits the wallet, or
-- buys the plan of the request.
import DrBoz.TomanBilling

open keyed_table unit_of_work dr_boz.py dr_boz.models dr_boz.codex_capacity dr_boz.toman_billing

namespace dr_boz.payment_requests

/-- The account query of this file. Like the one of the billing service it
adds a missing row. -/
def get_or_create_billing_account_row (user : UserPreference) : Tx UserBillingAccount :=
  get_or_create_billing_account user

/-- `verify_admin` hands `True` over, and `True` is an `int`: it is stored as 1. -/
def admin_user : Option Int := some 1

def record_admin_action (action_type : String) (target_id : Nat) (reason : String)
    (before after : Option Dict) : Tx Unit :=
  Prog.flush (.addAdminAction
    { admin_user_id := admin_user, action_type, target_type := "payment_request",
      target_id := some target_id, before_json := before, after_json := after,
      reason := some reason })

/-- The request as a settled one. -/
def settled (req : PaymentRequest) (now : Datetime) (status : String)
    (admin_note : Option String) : PaymentRequest :=
  { req with
    status := some status, admin_note, approved_by := admin_user, approved_at := some now }

/-- `payment_type == "subscription" and plan_id`. -/
def plan_of_request (req : PaymentRequest) : Option Nat :=
  if strOr req.payment_type (some "topup") = some "subscription" ∧ req.plan_id ≠ some 0 then
    req.plan_id
  else none

/-- Finds the request and checks that it is pending. -/
def pending_request (request_id : Nat) : Tx PaymentRequest := do
  let req ← Prog.read fun db => db.payment_requests.get request_id
  match req with
  | none => Prog.throw (.http_exception 404 "درخواست پرداخت یافت نشد")
  | some req =>
  if req.status ≠ some "pending" then
    Prog.throw (.http_exception 400 "درخواست قبلاً بررسی شده است")
  else return req

/-- The idempotency key of a purchase by approval. -/
def manual_key (user_id plan_id request_id : Nat) : String :=
  "subscription:manual:" ++ toString user_id ++ ":" ++ toString plan_id ++ ":" ++
    toString request_id

/-- The subscription branch. The purchase commits by itself, before the status
of the request is set. A refused purchase raises, because its result has no
field `error`. -/
def approve_subscription (now : Datetime) (req : PaymentRequest) (user : UserPreference)
    (plan_id : Nat) (admin_note : Option String) : Tx PaymentRequest := do
  let plan ← Prog.read fun db => db.plans.get plan_id
  match plan with
  | none => Prog.throw (.http_exception 404 "پلن اشتراک یافت نشد")
  | some plan =>
  let result ← purchase_toman_subscription now user plan
    (some (manual_key user.id plan_id req.id)) true (some 0) true true
  if result.ok = false then Prog.throw .attribute_error
  else
  let req' := settled req now "approved" (strOr admin_note req.admin_note)
  Prog.flush (.setPaymentRequest req req')
  record_admin_action "approve_subscription_payment" req.id
    ("تأیید پرداخت اشتراک " ++ formatted plan.name ++ " برای کاربر " ++ toString user.id)
    (some []) (some [("subscription_id",
      (result.subscription.elim Scalar.null fun u => Scalar.int u.id))])
  Prog.publish
  return req'

/-- The account after a manual payment. -/
def paid_in (account : UserBillingAccount) (amount_toman : Int) : UserBillingAccount :=
  { account with
    paid_balance_toman := some (intOr0 account.paid_balance_toman + amount_toman)
    total_paid_topup_toman := some (intOr0 account.total_paid_topup_toman + amount_toman)
    version := some (intOr0 account.version + 1) }

/-- The two sums that the admin action keeps. -/
def paid_sums (account : UserBillingAccount) : Dict :=
  [("paid_balance_toman", Scalar.int (intOr0 account.paid_balance_toman)),
   ("total_paid_topup_toman", Scalar.int (intOr0 account.total_paid_topup_toman))]

/-- The ledger entry of a manual payment. It leaves `gift_balance_after_toman`
at the default of the column. -/
def manual_entry (user : UserPreference) (account' : UserBillingAccount) (req : PaymentRequest) :
    TomanLedgerEntry where
  user_id := user.id
  billing_account_id := some account'.id
  amount_toman := req.amount_toman
  gift_delta_toman := 0
  paid_delta_toman := req.amount_toman
  paid_balance_after_toman := some (intOr0 account'.paid_balance_toman)
  entry_type := "manual_payment"
  status := some "posted"
  reason := some "پرداخت دستی تأیید شده"
  metadata_json :=
    [("payment_request_id", Scalar.int req.id), ("receipt_path", Scalar.str req.receipt_image_path)]

/-- The top-up branch. It has no idempotency key. -/
def approve_topup (now : Datetime) (req : PaymentRequest) (user : UserPreference)
    (admin_note : Option String) : Tx PaymentRequest := do
  let account ← get_or_create_billing_account_row user
  let account' := paid_in account req.amount_toman
  Prog.flush (.setAccount account account')
  let _ ← add_ledger (manual_entry user account' req)
  let req' := settled req now "approved" (strOr admin_note req.admin_note)
  Prog.flush (.setPaymentRequest req req')
  record_admin_action "approve_payment" req.id
    ("تأیید پرداخت " ++ thousands req.amount_toman ++ " تومان برای کاربر " ++ toString user.id)
    (some (paid_sums account)) (some (paid_sums account'))
  Prog.publish
  return req'

def approve_payment_request (now : Datetime) (request_id : Nat) (admin_note : Option String) :
    Tx PaymentRequest := do
  let req ← pending_request request_id
  let user ← Prog.read fun db => db.users.get req.user_id
  match user with
  | none => Prog.throw (.http_exception 404 "کاربر مرتبط یافت نشد")
  | some user =>
  match plan_of_request req with
  | some plan_id => approve_subscription now req user plan_id admin_note
  | none => approve_topup now req user admin_note

def reject_payment_request (now : Datetime) (request_id : Nat) (admin_note : String) :
    Tx PaymentRequest := do
  let req ← pending_request request_id
  let req' := settled req now "rejected" (some admin_note)
  Prog.flush (.setPaymentRequest req req')
  record_admin_action "reject_payment" req.id
    ("رد پرداخت " ++ thousands req.amount_toman ++ " تومان: " ++ admin_note) none none
  Prog.publish
  return req'

def get_user_by_telegram (telegram_user_id : Int) : Tx UserPreference := do
  let user ← Prog.read fun db => db.users.first fun u => u.telegram_user_id = some telegram_user_id
  match user with
  | none => Prog.throw (.http_exception 404 "کاربر یافت نشد")
  | some user => return user

/-- The receipt is saved before the row is added. Its path is a parameter. -/
def create_payment_request (telegram_user_id : Int) (amount_toman : Int)
    (description : Option String) (receipt_path : String) : Tx PaymentRequest := do
  let user ← get_user_by_telegram telegram_user_id
  if amount_toman ≤ 0 then
    Prog.throw (.http_exception 400 "مبلغ باید بیشتر از صفر باشد")
  else
  let added : PaymentRequest :=
    { user_id := user.id, amount_toman, receipt_image_path := receipt_path, description,
      status := some "pending", payment_type := some "topup" }
  let id ← Prog.read fun db => db.payment_requests.nextKey
  Prog.flush (.addPaymentRequest added)
  Prog.publish
  return { added with id }

end dr_boz.payment_requests
