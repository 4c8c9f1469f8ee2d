-- Law of the sums on the account page of the bot. The page adds the amounts of
-- the latest ledger entries up by their signs. What the entries have moved on
-- the balances is in two other columns.
import DrBoz.LedgerChain
import DrBoz.UsageEntries
import Mathlib.Algebra.Order.BigOperators.Group.List

open keyed_table unit_of_work runs dr_boz.py dr_boz.models dr_boz.codex_capacity
open dr_boz.toman_billing dr_boz.payment_requests dr_boz.accounts dr_boz.promo_codes dr_boz.views
open dr_boz.billing_runs dr_boz.purchase_runs dr_boz.effects dr_boz.payment_runs dr_boz.promo_runs
open dr_boz.calls dr_boz.postings dr_boz.reconciliation dr_boz.bot_start dr_boz.spending
open dr_boz.usage_entries

namespace dr_boz.account_page

/-! ## The page -/

/-- `(text or "").strip() or default`. -/
def text_or (text : Option String) (default : String) : String :=
  if strip (text.getD "") = "" then default else strip (text.getD "")

structure Context where
  phone : String
  preferred_name : String
  status : String
  balance : Int
  ledger_rows : List TomanLedgerEntry
  active_subscription : Option (UserSubscription × Option SubscriptionPlan)

/-- Newest first, by the time of the entry and then by its id. The time is a
column that nothing else reads. -/
def newest_first (created_at : Nat → Datetime) (rows : List TomanLedgerEntry) :
    List TomanLedgerEntry :=
  rows.mergeSort fun a b => decide (created_at b.id < created_at a.id) ||
    decide (created_at b.id = created_at a.id) && decide (b.id ≤ a.id)

def user_rows (db : Db) (u : Nat) : List TomanLedgerEntry :=
  db.ledger.rows.filter fun e => e.user_id = u

def load_account_context (now : Datetime) (created_at : Nat → Datetime) (user : UserPreference)
    (tx_limit : Nat) : Tx Context := do
  let account ← get_or_create_billing_account user
  let ledger_rows ← Prog.read fun db =>
    (newest_first created_at (user_rows db user.id)).take tx_limit
  let sub ← Prog.read fun db =>
    (latest_active now user.id db).map fun sub => (sub, db.plans.get sub.plan_id)
  return { phone := text_or user.phone_number "ثبت نشده"
           preferred_name := text_or user.preferred_name "ثبت نشده"
           status := strip ((strOr user.account_status (some "active")).getD "")
           balance := available account
           ledger_rows
           active_subscription := sub }

/-- What the page has for spent and for added. -/
def totals (ledger_rows : List TomanLedgerEntry) : Int × Int :=
  ledger_rows.foldl (fun (p : Int × Int) entry =>
    if 0 ≤ entry.amount_toman then (p.1, p.2 + entry.amount_toman)
    else (p.1 + entry.amount_toman.natAbs, p.2)) (0, 0)

def format_toman (amount : Int) : String := thousands amount ++ " تومان"

/-- The last lines: the plan and its end. -/
def subscription_lines (format_persian : Datetime → String) :
    Option (UserSubscription × Option SubscriptionPlan) → List String
  | some (sub, plan) =>
    ["💎 اشتراک فعال: " ++ plan.elim "نامعلوم" (fun p => formatted p.name),
     "📅 انقضا: " ++ format_persian sub.expires_at]
  | none => ["💎 اشتراک: غیرفعال"]

/-- No payload of the learning setup is ever put in the context. -/
def account_home_text (format_persian : Datetime → String) (ctx : Context) : String :=
  let (spent, added) := totals ctx.ledger_rows
  "\n".intercalate
    (["👤 خلاصه حساب", "", "نام: " ++ ctx.preferred_name, "شماره: " ++ ctx.phone,
      "وضعیت: " ++ ctx.status, "", "💳 اعتبار فعلی: " ++ format_toman ctx.balance,
      "📈 مجموع واریزی اخیر: " ++ format_toman added,
      "📉 مجموع هزینه اخیر: " ++ format_toman spent,
      "🧠 ترجیحات یادگیری: شروع نشده"] ++
      subscription_lines format_persian ctx.active_subscription)

/-! ## What the page should say -/

/-- What an entry has moved on the two balances together. -/
def change (e : TomanLedgerEntry) : Int := e.gift_delta_toman + e.paid_delta_toman

/-- The two sums are those of the increases and of the decreases of all the
user's entries, and their difference is the balance. -/
structure PageTrue (ctx : Context) (rows : List TomanLedgerEntry) : Prop where
  added : (totals ctx.ledger_rows).2 = (rows.map fun e => max 0 (change e)).sum
  spent : (totals ctx.ledger_rows).1 = (rows.map fun e => max 0 (-change e)).sum
  balance : (totals ctx.ledger_rows).2 - (totals ctx.ledger_rows).1 = ctx.balance

/-! ## The sums -/

section
variable {es fs : List TomanLedgerEntry} {n : Nat}

theorem totals_eq (es : List TomanLedgerEntry) :
    totals es = ((es.map fun e => max 0 (-e.amount_toman)).sum,
      (es.map fun e => max 0 e.amount_toman).sum) := by
  have hfold : ∀ (es : List TomanLedgerEntry) (p : Int × Int),
      es.foldl (fun (p : Int × Int) entry =>
        if 0 ≤ entry.amount_toman then (p.1, p.2 + entry.amount_toman)
        else (p.1 + entry.amount_toman.natAbs, p.2)) p =
      (p.1 + (es.map fun e => max 0 (-e.amount_toman)).sum,
        p.2 + (es.map fun e => max 0 e.amount_toman).sum) := by
    intro es
    induction es with
    | nil => simp
    | cons e es ih =>
      intro p
      rw [List.foldl_cons, ih]
      simp only [List.map_cons, List.sum_cons]
      split
      · refine Prod.ext ?_ ?_
        · simp only
          omega
        · simp only
          omega
      · refine Prod.ext ?_ ?_
        · simp only
          omega
        · simp only
          omega
  exact (hfold es (0, 0)).trans (by simp)

theorem newest_first_perm (created_at : Nat → Datetime) (es : List TomanLedgerEntry) :
    (newest_first created_at es).Perm es := List.mergeSort_perm _ _

/-- A sum of the user's entries is that of the latest ones and of the rest. -/
theorem sum_shown (created_at : Nat → Datetime) (es : List TomanLedgerEntry) (n : Nat)
    (f : TomanLedgerEntry → Int) :
    (es.map f).sum = (((newest_first created_at es).take n).map f).sum +
      (((newest_first created_at es).drop n).map f).sum := by
  rw [← List.sum_append, ← List.map_append, List.take_append_drop]
  exact (((newest_first_perm created_at es).map f).sum_eq).symm

/-- A page with room for all of the entries leaves nothing out. -/
theorem all_shown (created_at : Nat → Datetime) (h : es.length ≤ n) :
    (newest_first created_at es).drop n = [] ∧
      totals ((newest_first created_at es).take n) = totals es := by
  have hperm := newest_first_perm created_at es
  have hlength : (newest_first created_at es).length ≤ n := hperm.length_eq ▸ h
  refine ⟨List.drop_eq_nil_of_le hlength, ?_⟩
  rw [List.take_of_length_le hlength, totals_eq, totals_eq, (hperm.map _).sum_eq,
    (hperm.map _).sum_eq]

theorem sum_signs (es : List TomanLedgerEntry) :
    (es.map (·.amount_toman)).sum = (es.map fun e => max 0 e.amount_toman).sum -
      (es.map fun e => max 0 (-e.amount_toman)).sum := by
  induction es with
  | nil => rfl
  | cons e es ih =>
    simp only [List.map_cons, List.sum_cons, ih]
    omega

/-- A sum of numbers that are not negative is zero when they all are. -/
theorem sum_zero_iff (es : List TomanLedgerEntry) {f : TomanLedgerEntry → Int}
    (hf : ∀ e, 0 ≤ f e) : (es.map f).sum = 0 ↔ ∀ e ∈ es, f e = 0 := by
  induction es with
  | nil => simp
  | cons e es ih =>
    have hsum : 0 ≤ (es.map f).sum := List.sum_nonneg fun x hx => by
      obtain ⟨y, -, rfl⟩ := List.mem_map.mp hx
      exact hf y
    have he := hf e
    rw [List.map_cons, List.sum_cons, List.forall_mem_cons, ← ih]
    omega

end

/-! ## Entries that say what they move -/

/-- The amounts of the user's entries are what the entries have moved, and the
moves add up to the balances. -/
structure Told (u : Nat) (db : Db) : Prop where
  amounts : ∀ e ∈ user_rows db u, e.amount_toman = change e
  balance : held db u = ((user_rows db u).map change).sum

/-- The entries are the owner's own, and the user's say what they move. -/
def tells (u : Nat) : Posting := fun a b es =>
  (∀ e ∈ es, e.user_id = a.user_id) ∧ (a.user_id = u →
    (∀ e ∈ es, e.amount_toman = change e) ∧ available b = available a + (es.map change).sum)

section
variable {u : Nat} {db : Db} {a b : UserBillingAccount} {es : List TomanLedgerEntry}

/-- The row of an account is the one that its owner finds. -/
theorem first_of_get (h : db.accounts.get a.id = some a) :
    (db.accounts.first fun x => x.user_id = a.user_id) = some a := by
  obtain ⟨hmem, -⟩ := (Table.get_eq_some _).mp h
  cases hf : db.accounts.first fun x => x.user_id = a.user_id with
  | none => simpa using Table.first_eq_none.mp hf a hmem
  | some b =>
    obtain ⟨hb, hbu⟩ := Table.first_mem hf
    rw [db.accounts.row_of_unique hmem hb rfl (congrArg some (of_decide_eq_true hbu))]

/-- A posting adds its entries to those of its owner, and to nobody else's. -/
theorem user_rows_post (hes : ∀ e ∈ es, e.user_id = a.user_id) (ht : TakesAll db.ledger es) :
    ∃ added, List.Forall₂ (fun x e => ∃ n, x = { e with id := n }) added es ∧
      user_rows (post db b es) u =
        user_rows db u ++ if a.user_id = u then added else [] := by
  obtain ⟨added, hrows, hall⟩ := rows_takesAll ht
  have huser : ∀ x ∈ added, x.user_id = a.user_id := all_added (fun _ _ he => he) hes hall
  refine ⟨added, hall, ?_⟩
  unfold user_rows
  rw [post_eq, hrows, List.filter_append]
  congr 1
  split
  · next hu =>
    rw [List.filter_eq_self]
    intro e he
    simp [huser e he, hu]
  · next hu =>
    rw [List.filter_eq_nil_iff]
    intro e he
    simp [huser e he, hu]

theorem told_kept (u : Nat) : Kept (Told u) (tells u) where
  frame db db' ha hl h := by
    refine ⟨?_, ?_⟩
    · unfold user_rows
      rw [hl]
      exact h.amounts
    · unfold user_rows held
      rw [ha, hl]
      exact h.balance
  account db w h := ⟨h.amounts, (held_account db w u).trans h.balance⟩
  posting db a b es ha hb hP ht h := by
    obtain ⟨hown, htells⟩ := hP
    obtain ⟨added, hall, hrows⟩ := user_rows_post (b := b) (u := u) hown ht
    have hheld : held (post db b es) u =
        held db u + if u = a.user_id then available b - available a else 0 := by
      rw [post_eq]
      exact purse_put (first_of_get ha) hb u
    by_cases hu : a.user_id = u
    · obtain ⟨hamounts, hmoved⟩ := htells hu
      rw [if_pos hu] at hrows
      rw [if_pos hu.symm, hmoved, h.balance] at hheld
      refine ⟨fun e he => ?_, ?_⟩
      · rw [hrows, List.mem_append] at he
        rcases he with he | he
        · exact h.amounts e he
        · exact all_added (fun _ _ he => he) hamounts hall e he
      · rw [hheld, hrows, List.map_append, List.sum_append,
          sum_added change (fun _ _ => rfl) hall]
        omega
    · rw [if_neg hu, List.append_nil] at hrows
      rw [if_neg (Ne.symm hu), add_zero] at hheld
      exact ⟨fun e he => h.amounts e (hrows ▸ he), by rw [hheld, hrows]; exact h.balance⟩

/-- One entry of the owner that says what it moves. -/
theorem tells_entry {e : TomanLedgerEntry} (hown : e.user_id = a.user_id)
    (hamount : e.amount_toman = change e) (hmoved : available b = available a + change e) :
    tells u a b [e] := by
  refine ⟨fun x hx => ?_, fun _ => ⟨fun x hx => ?_, ?_⟩⟩
  · rw [List.mem_singleton.mp hx]
    exact hown
  · rw [List.mem_singleton.mp hx]
    exact hamount
  · simpa using hmoved

/-- Charges, top-ups, marks and sign-up gifts say what they move. -/
theorem books_tell (u : Nat) : OwnBooks (tells u) where
  charged user a cost _ _ _ _ _ hown := by
    refine tells_entry hown.symm ?_ ?_
    · simp only [new_ledger_entry, change]
      omega
    · simp only [new_ledger_entry, change, available, spent_gift_first, intOr0, Option.getD_some]
      omega
  topped_up user a q _ _ _ _ _ hown := by
    refine tells_entry hown.symm ?_ ?_
    · simp only [new_ledger_entry, change]
      omega
    · simp only [new_ledger_entry, change, available, topped_up, intOr0, Option.getD_some]
      omega
  marked a := ⟨fun _ he => absurd he List.not_mem_nil,
    fun _ => ⟨fun _ he => absurd he List.not_mem_nil, (add_zero _).symm⟩⟩
  marked_once user a _ _ _ _ _ hown := tells_entry hown.symm rfl (add_zero _).symm
  welcomed user a n _ hown := by
    refine tells_entry hown.symm ?_ ?_
    · simp only [starter_entry, change]
      omega
    · simp only [starter_entry, change, available, welcomed, intOr0, Option.getD_some]
      omega

/-- A purchase that costs nothing and grants its gift, or has none, says what it
moves. -/
theorem free_purchase_tells {now : Datetime} {c : PurchaseCall}
    (h : c.user.id = u → Passes now c db → c.price db = 0 ∧
      (c.grant_gift_toman_balance = true ∨ c.gift db = 0)) : Buys (tells u) now c db := by
  intro hpass n
  have hrow := accountRow_user db c.user.id
  refine ⟨fun e he => ?_, fun hu => ?_⟩
  · rw [hrow]
    simp only [bought_entries, List.mem_cons, List.not_mem_nil, or_false] at he
    rcases he with rfl | rfl
    · rfl
    · rfl
  · obtain ⟨hprice, hgift⟩ := h (hrow.symm.trans hu) hpass
    have hwallet : c.wallet db = 0 := by
      have hle : c.wallet db ≤ c.price db := min_le_left _ _
      have hnonneg := wallet_nonneg c db
      omega
    have hgranted : (if c.grant_gift_toman_balance then c.gift db else 0) = c.gift db := by
      rcases hgift with hgrant | hzero
      · rw [hgrant, if_pos rfl]
      · rw [hzero, ite_self]
    refine ⟨fun e he => ?_, ?_⟩
    · simp only [bought_entries, List.mem_cons, List.not_mem_nil, or_false] at he
      rcases he with rfl | rfl
      · simp only [new_ledger_entry, change, hprice, hwallet]
        decide
      · simp only [new_ledger_entry, change, hgranted, add_zero]
    · unfold available
      rw [bought_gift, bought_paid, hwallet, hgranted]
      simp only [bought_entries, new_ledger_entry, List.map_cons, List.map_nil, List.sum_cons,
        List.sum_nil, change, hwallet, hgranted]
      simp only [lt_irrefl, if_false]
      omega

end

/-! ## Gifts -/

section
variable {α β : Type} {I : Db → Prop} {P : Posting} {s : Session Db} {a : UserBillingAccount}

/-- An entry alone, beside the row that the session sees. -/
theorem keeps_entry (hI : Kept I P) {e : TomanLedgerEntry} {f : TomanLedgerEntry → Tx β}
    (hs : Holds I a s) (hP : P a a [e]) (hf : ∀ e' t, I t.view → Keeps I (f e') t) :
    Keeps I (do
      let e' ← add_ledger e
      f e') s := by
  refine Prog.wp_bind (Prog.wp_bind (Prog.wp_read (Prog.wp_bind (Prog.wp_flush fun hadm => ?_))))
  have hacc : s.view.ledger.Accepts e := of_decide_eq_true hadm
  have hpost := hI.posting s.view a a [e] hs.row ⟨rfl, rfl, rfl⟩ hP ⟨hacc, trivial⟩ hs.kept
  have hsame : post s.view a [e] = addLedger s.view e := by
    rw [post_eq, Table.put_self hs.row]
    rfl
  rw [hsame] at hpost
  exact hf _ _ hpost

/-- The kind has the postings of gifts to a user's own account. -/
structure Gifts (P : Posting) : Prop where
  gifted : ∀ a n e, e.user_id = a.user_id → e.amount_toman = n → e.gift_delta_toman = n →
    e.paid_delta_toman = 0 → P a (gifted a n) [e]
  noted : ∀ a e, e.user_id = a.user_id → e.amount_toman = 0 → e.gift_delta_toman = 0 →
    e.paid_delta_toman = 0 → P a a [e]

theorem promo_keeps (hI : Kept I P) (hP : Gifts P) (c : PromoCall) (hs : I s.view) :
    Keeps I c.prog s := by
  have hcredits : writers.Credits off_books :=
    ⟨fun _ => trivial, fun _ _ => trivial, fun _ => trivial, fun _ _ => trivial⟩
  unfold PromoCall.prog redeem_promo_code_for_user
  refine Prog.wp_bind (Prog.wp.mono (fun p t ht => ?_) (fun _ _ ht => ht)
    (keeps_part hI (commits.writes_usable _ _) hs))
  refine Prog.wp_ite (fun _ => ?_) fun _ => keeps_part hI
    (writers.writes_redeem_usd hcredits (fun _ _ _ => trivial) (fun _ => trivial) _ _ _ _ _) ht
  unfold redeem_toman
  refine Prog.wp_ite (fun _ => ht) fun _ => Prog.wp_ite (fun _ => ht) fun _ =>
    Prog.wp_ite (fun _ => ht) fun _ => ?_
  refine keeps_account hI ht fun ht => ?_
  refine keeps_posting hI ht (owner_promo_credited _ _) (hP.gifted _ _ _
    (accountRow_user _ _).symm rfl rfl rfl) fun e t ht => keeps_part hI ?_ ht
  exact (Prog.writes_read _).bind fun _ => (Prog.writes_flush trivial).bind fun _ =>
    Prog.writes_publish.bind fun _ => (Prog.writes_flush trivial).bind fun _ =>
    Prog.writes_publish.bind fun _ => Prog.writes_pure _

theorem reward_keeps (hI : Kept I P) (hP : Gifts P) (user : UserPreference)
    (campaign : ReferralCampaign) (referrer_id : Nat) (hs : I s.view) :
    Keeps I (pay_referrer user campaign referrer_id) s := by
  have hreward : (referral_reward).Writes off_books := by
    refine (Prog.writes_read _).bind fun config => ?_
    cases config with
    | none => exact Prog.writes_pure _
    | some config => exact Prog.writes_lift _
  unfold pay_referrer
  refine Prog.wp_bind (Prog.wp.mono (fun reward t ht => ?_) (fun _ _ ht => ht)
    (keeps_part hI hreward hs))
  refine Prog.wp_bind (Prog.wp_read ?_)
  cases t.view.users.get referrer_id with
  | none => exact ht
  | some referrer =>
    refine keeps_account hI ht fun ht => ?_
    exact keeps_posting hI ht (owner_gifted _ _)
      (hP.gifted _ _ _ (accountRow_user _ _).symm rfl rfl rfl)
      fun _ _ ht => keeps_part hI (Prog.writes_flush trivial) ht

theorem offer_keeps (hI : Kept I P) (hP : Gifts P) (now : Datetime) (sends : Reply → Bool)
    (percent : String) (user : UserPreference) (link : PromotionalLink)
    (click : PromotionalLinkClick) (hs : I s.view) :
    Keeps I (apply_promotional_offer now sends percent user link click) s := by
  have hsettle : ∀ c r, (settle_click sends click c r).Writes off_books := fun c r =>
    writers.writes_settle (fun _ _ => trivial) sends click c r
  have hcredit : Keeps I (grant_credit now sends user link click) s := by
    unfold grant_credit
    refine keeps_account hI hs fun hs => ?_
    refine Prog.wp_bind (Prog.wp_lift (fun amount _ => ?_) fun _ _ => hs.kept)
    exact keeps_posting hI hs (owner_gifted _ _)
      (hP.gifted _ _ _ (accountRow_user _ _).symm rfl rfl rfl)
      fun _ _ ht => keeps_part hI (hsettle _ _) ht
  have hdiscount : Keeps I (grant_discount now sends user link click percent) s := by
    unfold grant_discount
    refine keeps_account hI hs fun hs => ?_
    exact keeps_entry hI hs (hP.noted _ _ (accountRow_user _ _).symm rfl rfl rfl)
      fun _ _ ht => keeps_part hI (hsettle _ _) ht
  unfold apply_promotional_offer grant_offer
  refine Prog.wp_bind (Prog.wp_attempt (Prog.wp.mono (fun _ t ht => ?_) (fun _ t ht => ?_)
    (Prog.wp_ite (fun _ => hcredit) fun _ => Prog.wp_ite (fun _ => ?_) fun _ =>
      Prog.wp_ite (fun _ => hdiscount) fun _ => keeps_part hI (hsettle _ _) hs)))
  · exact ht
  · exact keeps_part hI (hsettle _ _) ht
  · exact keeps_part hI (writers.writes_grant_subscription (fun _ _ => trivial)
      (fun _ => trivial) _ _ _ _ _) hs

end

theorem gifts_tell (u : Nat) : Gifts (tells u) where
  gifted a n e hown hamount hgift hpaid := by
    have hchange : change e = n := by
      unfold change
      omega
    refine tells_entry hown (hamount.trans hchange.symm) ?_
    rw [hchange]
    simp only [available, gifted, intOr0, Option.getD_some]
    omega
  noted a e hown hamount hgift hpaid := by
    have hchange : change e = 0 := by
      unfold change
      omega
    exact tells_entry hown (hamount.trans hchange.symm) (by rw [hchange, add_zero])

/-! ## Runs -/

/-- The operations of the services, with the gifts of promo codes, of referrals
and of promotional links. -/
inductive Step where
  | books (e : postings.Step)
  | promo (c : PromoCall)
  | reward (user : UserPreference) (campaign : ReferralCampaign) (referrer_id : Nat)
  | offer (now : Datetime) (sends : Reply → Bool) (percent : String) (user : UserPreference)
      (link : PromotionalLink) (click : PromotionalLinkClick)

def Step.run (s : Session Db) : Step → Session Db
  | .books e => e.run s
  | .promo c => (c.prog.run s).2
  | .reward user campaign referrer_id => ((pay_referrer user campaign referrer_id).run s).2
  | .offer now sends percent user link click =>
    ((apply_promotional_offer now sends percent user link click).run s).2

/-- The purchase is none of the user's, or none that goes through, or it costs
nothing and grants its gift or has none. -/
def FreePurchase (u : Nat) (now : Datetime) (c : PurchaseCall) (db : Db) : Prop :=
  c.user.id = u → Passes now c db → c.price db = 0 ∧
    (c.grant_gift_toman_balance = true ∨ c.gift db = 0)

/-- A purchase of the step, be it direct or by the approval of a request, is a
free one. -/
def Free (u : Nat) (s : Session Db) : Step → Prop
  | .books (.operation now (.purchase c)) => FreePurchase u now c s.view
  | .books (.operation now (.approve id _)) =>
    ∀ req user plan, s.view.payment_requests.get id = some req → req.status = some "pending" →
      s.view.users.get req.user_id = some user → plan_of_request req = some plan.id →
      s.view.plans.get plan.id = some plan →
      FreePurchase u now (manualPurchase user plan req) s.view
  | _ => True

section
variable {u : Nat} {s : Session Db}

theorem free_fits {e : postings.Step} (h : Free u s (.books e)) : Fits (tells u) s e := by
  cases e with
  | commit | rollback => trivial
  | operation now o =>
    cases o with
    | purchase c => exact free_purchase_tells h
    | approve id note =>
      intro req user hreq hst hu
      refine ⟨fun _ => tells_entry (accountRow_user _ _).symm (zero_add _).symm ?_,
        fun plan hp hget => free_purchase_tells (h req user plan hreq hst hu hp hget)⟩
      simp only [available, paid_in, manual_entry, change, intOr0, Option.getD_some]
      omega
    | topup | mark | check | chat | generic | starter => trivial

theorem step_keeps {e : Step} (h : Free u s e) (hs : Told u s.stored ∧ Told u s.view) :
    Told u (e.run s).stored ∧ Told u (e.run s).view := by
  have hI := told_kept u
  have hG := gifts_tell u
  cases e with
  | books e =>
    cases e with
    | commit => exact ⟨hs.2, hs.2⟩
    | rollback => exact ⟨hs.1, hs.1⟩
    | operation now o => exact (operation_keeps hI (books_tell u) (free_fits h) hs.2).ends hs.1
  | promo c =>
    have hrun : (Step.promo c).run s = (c.prog.run s).2 := rfl
    rw [hrun]
    exact (promo_keeps hI hG c hs.2).ends hs.1
  | reward user campaign n => exact (reward_keeps hI hG user campaign n hs.2).ends hs.1
  | offer now sends percent user link click =>
    exact (offer_keeps hI hG now sends percent user link click hs.2).ends hs.1

end

/-! ## Law -/

/-- No entry of the user, and nothing on the balances. -/
def NothingYet (db : Db) (u : Nat) : Prop := user_rows db u = [] ∧ held db u = 0

theorem available_row (db : Db) (u : Nat) : available (accountRow db u) = held db u := by
  unfold accountRow held
  cases db.accounts.first fun a => a.user_id = u with
  | some a => rfl
  | none => rfl

/-- The page of a user, in the session that has looked for the account. -/
theorem run_load_account_context (now : Datetime) (created_at : Nat → Datetime)
    (user : UserPreference) (tx_limit : Nat) (s : Session Db) :
    ∃ ctx t, (load_account_context now created_at user tx_limit).run s = (.ok ctx, t) ∧
      ctx.balance = held s.view user.id ∧ ctx.ledger_rows =
        (newest_first created_at (user_rows s.view user.id)).take tx_limit := by
  unfold load_account_context
  simp only [Prog.run_bind, run_get_or_create_billing_account, Prog.continueWith_ok,
    Prog.run_read, Prog.run_pure]
  exact ⟨_, _, rfl, available_row _ _, rfl⟩

/-- Where the entries say what they move, the page is true exactly when what it
leaves out is nothing. -/
theorem page_true_iff {db : Db} {u n : Nat} {created_at : Nat → Datetime} {ctx : Context}
    (h : Told u db) (hbalance : ctx.balance = held db u)
    (hrows : ctx.ledger_rows = (newest_first created_at (user_rows db u)).take n) :
    PageTrue ctx (user_rows db u) ↔
      ∀ e ∈ (newest_first created_at (user_rows db u)).drop n, e.amount_toman = 0 := by
  have hincreases : ((user_rows db u).map fun e => max 0 (change e)).sum =
      ((user_rows db u).map fun e => max 0 e.amount_toman).sum :=
    congrArg List.sum (List.map_congr_left fun e he => by rw [h.amounts e he])
  have hdecreases : ((user_rows db u).map fun e => max 0 (-change e)).sum =
      ((user_rows db u).map fun e => max 0 (-e.amount_toman)).sum :=
    congrArg List.sum (List.map_congr_left fun e he => by rw [h.amounts e he])
  have hadded := sum_shown created_at (user_rows db u) n fun e => max 0 e.amount_toman
  have hspent := sum_shown created_at (user_rows db u) n fun e => max 0 (-e.amount_toman)
  have hmoved : ((user_rows db u).map change).sum = ((user_rows db u).map (·.amount_toman)).sum :=
    congrArg List.sum (List.map_congr_left fun e he => (h.amounts e he).symm)
  have hsigns := sum_signs (user_rows db u)
  have hrest_added := sum_zero_iff ((newest_first created_at (user_rows db u)).drop n)
    fun e => le_max_left 0 e.amount_toman
  have hrest_spent := sum_zero_iff ((newest_first created_at (user_rows db u)).drop n)
    fun e => le_max_left 0 (-e.amount_toman)
  have hzero : ∀ e : TomanLedgerEntry, e.amount_toman = 0 ↔
      max 0 e.amount_toman = 0 ∧ max 0 (-e.amount_toman) = 0 := fun e => by omega
  have htotals := totals_eq ctx.ledger_rows
  rw [hrows] at htotals
  constructor
  · rintro ⟨h1, h2, -⟩ e he
    rw [hrows, htotals] at h1 h2
    refine (hzero e).mpr ⟨hrest_added.mp ?_ e he, hrest_spent.mp ?_ e he⟩
    · simp only at h1
      omega
    · simp only at h2
      omega
  · intro hrest
    have hnone_added := hrest_added.mpr fun e he => ((hzero e).mp (hrest e he)).1
    have hnone_spent := hrest_spent.mpr fun e he => ((hzero e).mp (hrest e he)).2
    constructor
    · rw [hrows, htotals]
      simp only
      omega
    · rw [hrows, htotals]
      simp only
      omega
    · rw [hrows, htotals, hbalance, h.balance, hmoved]
      simp only
      omega

/-- LAW: from nothing on, in every run of purchases, top-ups, gifts and charges
in which each purchase of the user that goes through costs nothing and grants
its gift or has none, the page shows what was added and what was spent, and
their difference is the balance, exactly when the entries that it leaves out
have no amount. -/
theorem the_page_is_true_iff_it_shows_all_that_counts (now : Datetime)
    (created_at : Nat → Datetime) (user : UserPreference) (tx_limit : Nat) (db : Db)
    (es : List Step) (hdb : NothingYet db user.id)
    (hes : Each Step.run (Free user.id) (.opened db) es) :
    ∃ ctx t, (load_account_context now created_at user tx_limit).run
        (after Step.run (.opened db) es) = (.ok ctx, t) ∧
      (PageTrue ctx (user_rows (after Step.run (.opened db) es).view user.id) ↔
        ∀ e ∈ (newest_first created_at
          (user_rows (after Step.run (.opened db) es).view user.id)).drop tx_limit,
          e.amount_toman = 0) := by
  obtain ⟨hrows, hheld⟩ := hdb
  have htold : Told user.id db := ⟨fun e he => by simp [hrows] at he, by simp [hrows, hheld]⟩
  have hafter := hes.keeps (I := fun s => Told user.id s.stored ∧ Told user.id s.view)
    (fun _ _ hs hfree => step_keeps hfree hs) ⟨htold, htold⟩
  obtain ⟨ctx, t, hrun, hbalance, hshown⟩ :=
    run_load_account_context now created_at user tx_limit (after Step.run (.opened db) es)
  exact ⟨ctx, t, hrun, page_true_iff hafter.2 hbalance hshown⟩

/-- A customer without an account, after these steps. -/
def shopped (es : List Step) : Session Db :=
  after Step.run (.opened ledger_chain.no_account_yet) es

def topup_and_chat : List Step :=
  [.books (.operation noon (.topup
    { user := customer, credit_amount_toman := 5000, idempotency_key := none, metadata := []
      commit := true })),
   .books (.operation noon (.chat (small_chat "chat")))]

theorem a_topup_and_a_chat_are_shown :
    ∃ ctx t, (load_account_context noon (fun _ => noon) customer 8).run
        (shopped topup_and_chat) = (.ok ctx, t) ∧
      PageTrue ctx (user_rows (shopped topup_and_chat).view customer.id) := by
  obtain ⟨ctx, t, hrun, hpage⟩ := the_page_is_true_iff_it_shows_all_that_counts noon
    (fun _ => noon) customer 8 ledger_chain.no_account_yet topup_and_chat ⟨rfl, rfl⟩
    ⟨trivial, trivial, trivial⟩
  have hfew : (user_rows (shopped topup_and_chat).view customer.id).length ≤ 8 := by
    decide +kernel
  have hnone := (all_shown (fun _ => noon) hfew).1
  refine ⟨ctx, t, hrun, hpage.mpr fun e he => ?_⟩
  exact absurd (hnone ▸ he) List.not_mem_nil

/-- A purchase that is paid outside: the page has its price and its gift for
added, and nothing has moved on the balances. -/
def purchase_outside : List Step := [.books (ledger_chain.first_purchase false)]

theorem a_purchase_is_shown_as_added :
    NothingYet ledger_chain.no_account_yet customer.id ∧
    ∃ ctx t, (load_account_context noon (fun _ => noon) customer 8).run
        (shopped purchase_outside) = (.ok ctx, t) ∧
      ¬PageTrue ctx (user_rows (shopped purchase_outside).view customer.id) := by
  refine ⟨⟨rfl, rfl⟩, ?_⟩
  obtain ⟨ctx, t, hrun, -, hrows⟩ :=
    run_load_account_context noon (fun _ => noon) customer 8 (shopped purchase_outside)
  have hfew : (user_rows (shopped purchase_outside).view customer.id).length ≤ 8 := by
    decide +kernel
  refine ⟨ctx, t, hrun, fun h => ?_⟩
  have hsum := h.added
  rw [hrows, (all_shown (fun _ => noon) hfew).2] at hsum
  exact absurd hsum (by decide +kernel)

end dr_boz.account_page
