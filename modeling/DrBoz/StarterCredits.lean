-- Law of the credit of a sign-up under calls side by side. A call counts the
-- entries that the user has, and nothing holds the count still until the
-- commit. Each currency has a count of its own, so calls in turn pay it once
-- under every config.
import DrBoz.TrialGrants
import DrBoz.Writers
import DrBoz.Commits
import DrBoz.Lib.FreshCommits

open keyed_table unit_of_work dr_boz.py dr_boz.models dr_boz.codex_capacity dr_boz.toman_billing
open dr_boz.promo_codes dr_boz.subscriptions dr_boz.accounts dr_boz.calls dr_boz.commits
open dr_boz.writers dr_boz.trial_grants

namespace dr_boz.starter_credits

/-! ## The config of an admin -/

/-- The body of the call. A field may be missing, and may be null. -/
structure StarterCreditConfigUpdate where
  amount_usd : Option (Option PyFloat) := none
  amount_toman : Option (Option Int) := none
  is_active : Option (Option Bool) := none

/-- The first row of `order_by(is_active.desc(), id)`. A NULL comes last. -/
def starter_config_row (db : Db) : Option StarterCreditConfig :=
  (db.starter_credit_configs.lowest fun c => c.is_active = some true) <|>
  (db.starter_credit_configs.lowest fun c => c.is_active = some false) <|>
  db.starter_credit_configs.lowest fun _ => true

def get_or_create_starter_credit_config : Tx StarterCreditConfig := do
  let config ← Prog.read starter_config_row
  match config with
  | some config => return config
  | none =>
    let id ← Prog.read fun db => db.starter_credit_configs.nextKey
    let config : StarterCreditConfig := { id := 0 }
    Prog.flush (.addStarterConfig config)
    Prog.publish
    return { config with id }

/-- The fields of the body that are set. -/
def StarterCreditConfigUpdate.set (data : StarterCreditConfigUpdate)
    (config : StarterCreditConfig) : StarterCreditConfig :=
  { config with
    amount_usd := data.amount_usd.getD config.amount_usd
    amount_toman := data.amount_toman.getD config.amount_toman
    is_active := data.is_active.getD config.is_active }

def update_starter_credit_config (data : StarterCreditConfigUpdate) : Tx StarterCreditConfig := do
  let config ← get_or_create_starter_credit_config
  let changed := data.set config
  Prog.flush (.setStarterConfig config changed)
  Prog.flush (.addAdminAction
    { action_type := "update_starter_credit_config", target_type := "starter_credit_config"
      target_id := some config.id, reason := some "Admin updated starter credit config" })
  Prog.publish
  Prog.read fun db => (db.starter_credit_configs.get config.id).getD changed

/-! ## The entries of a user -/

/-- The two counts of the guard. -/
def starter_usd (db : Db) (u : Nat) : Nat :=
  db.credit_ledger.count fun e => e.user_id = u && e.entry_type = "starter_credit"

def starter_toman (db : Db) (u : Nat) : Nat :=
  db.ledger.count fun e => e.user_id = u && e.entry_type = "starter_gift_credit"

structure CreditedOnce (u : Nat) (db : Db) : Prop where
  usd : starter_usd db u ≤ 1
  toman : starter_toman db u ≤ 1

/-- The guard counts the same on both. -/
structure SameCounts (u : Nat) (db db' : Db) : Prop where
  usd : starter_usd db u = starter_usd db' u
  toman : starter_toman db u = starter_toman db' u

/-- What a commit has to keep. -/
def KeepsOnce (u : Nat) (db db' : Db) : Prop := CreditedOnce u db → CreditedOnce u db'

/-- How many entries a change adds. -/
def adds_usd (u : Nat) : Change → Nat
  | .addCreditLedger e => if e.user_id = u && e.entry_type = "starter_credit" then 1 else 0
  | _ => 0

def adds_toman (u : Nat) : Change → Nat
  | .addLedger e => if e.user_id = u && e.entry_type = "starter_gift_credit" then 1 else 0
  | _ => 0

/-- A change that adds none, for any user. -/
def beside : Change → Prop
  | .addCreditLedger e => e.entry_type ≠ "starter_credit"
  | .addLedger e => e.entry_type ≠ "starter_gift_credit"
  | _ => True

section
variable {u : Nat} {db : Db} {c : Change}

theorem usd_apply (u : Nat) (h : db.admits c = true) :
    starter_usd (db.apply c) u = starter_usd db u + adds_usd u c := by
  cases c with
  | addCreditLedger e => exact Table.count_insert (of_decide_eq_true h) _
  | _ => rfl

theorem toman_apply (u : Nat) (h : db.admits c = true) :
    starter_toman (db.apply c) u = starter_toman db u + adds_toman u c := by
  cases c with
  | addLedger e => exact Table.count_insert (of_decide_eq_true h) _
  | _ => rfl

theorem beside_apply (u : Nat) (db : Db) (hc : beside c) : SameCounts u (db.apply c) db := by
  constructor
  · cases c with
    | addCreditLedger e =>
      have hne : ¬e.entry_type = "starter_credit" := hc
      by_cases h : db.credit_ledger.Accepts e
      · rw [usd_apply u (c := .addCreditLedger e) (decide_eq_true h)]
        simp [adds_usd, hne]
      · unfold starter_usd
        change (db.credit_ledger.insert e).count _ = _
        rw [Table.insert, dif_neg h]
    | _ => rfl
  · cases c with
    | addLedger e =>
      have hne : ¬e.entry_type = "starter_gift_credit" := hc
      by_cases h : db.ledger.Accepts e
      · rw [toman_apply u (c := .addLedger e) (decide_eq_true h)]
        simp [adds_toman, hne]
      · unfold starter_toman
        change (db.ledger.insert e).count _ = _
        rw [Table.insert, dif_neg h]
    | _ => rfl

/-- Stores with the same counts are the same for the guard. -/
theorem counts_agree (u : Nat) : Agreement (δ := Change) (KeepsOnce u) (SameCounts u) where
  refl _ h := h
  trans _ _ _ h h' hs := h' (h hs)
  forth s t h hs := ⟨h.usd ▸ hs.usd, h.toman ▸ hs.toman⟩
  back s t h ht := ⟨h.usd ▸ ht.usd, h.toman ▸ ht.toman⟩
  apply s t c h hs ht := by
    constructor
    · rw [views.store_apply, views.store_apply, usd_apply u hs, usd_apply u ht, h.usd]
    · rw [views.store_apply, views.store_apply, toman_apply u hs, toman_apply u ht, h.toman]

end

/-! ## What a call commits -/

/-- The session is still on its store, and sees at most so many entries. -/
structure Within (d : Db) (u a b : Nat) (s : Session Db) : Prop where
  stored : s.stored = d
  usd : starter_usd s.view u ≤ a
  toman : starter_toman s.view u ≤ b

/-- What a session sees keeps the counts of its store. -/
def Keeping (u : Nat) (s : Session Db) : Prop := KeepsOnce u s.stored s.view

section
variable {α : Type} {d : Db} {u a b : Nat} {s : Session Db} {x : Tx α} {user : UserPreference}

theorem keeping_change {c : Change} (hc : beside c) (hs : Keeping u s) :
    Keeping u ⟨s.stored, s.view.apply c⟩ :=
  (counts_agree u).trans _ _ _ hs ((counts_agree u).back _ _ (beside_apply u s.view hc))

theorem keeping_part (hx : x.Writes beside) (hs : Keeping u s) :
    x.wp (KeepsOnce u) (fun _ => Keeping u) (fun _ => Keeping u) s :=
  hx.wp (fun _ _ hc ht => keeping_change hc ht) (fun _ ht => ⟨ht, fun _ _ h => h⟩) hs

theorem within_part (hx : x.Writes beside) (hsilent : x.Silent) (hs : Within d u a b s) :
    x.wp (KeepsOnce u) (fun _ => Within d u a b) (fun _ _ => True) s := by
  refine Prog.wp.mono (fun _ _ h => h) (fun _ _ _ => trivial)
    (Prog.Silent.wp hx hsilent (J := Within d u a b) (fun t c hc ht => ?_) hs)
  have hsame := beside_apply u t.view hc
  exact ⟨ht.stored, hsame.usd.trans_le ht.usd, hsame.toman.trans_le ht.toman⟩

theorem silent_within {c : Change} (hc : beside c) (hs : Within d u a b s) :
    Within d u a b ⟨s.stored, s.view.apply c⟩ := by
  have hsame := beside_apply u s.view hc
  exact ⟨hs.stored, hsame.usd.trans_le hs.usd, hsame.toman.trans_le hs.toman⟩

theorem change_within {c : Change} (hadm : s.view.admits c = true) (hs : Within d u a b s) :
    Within d u (a + adds_usd u c) (b + adds_toman u c) ⟨s.stored, s.view.apply c⟩ := by
  refine ⟨hs.stored, ?_, ?_⟩
  · rw [usd_apply u hadm]
    exact Nat.add_le_add_right hs.usd _
  · rw [toman_apply u hadm]
    exact Nat.add_le_add_right hs.toman _

/-- The USD part adds at most one entry, to its user. -/
theorem usd_part (amount : PyFloat) (config_id : Nat) (hs : Within d u a b s) :
    (apply_starter_usd user amount config_id).wp (KeepsOnce u)
      (fun _ => Within d u (a + if user.id = u then 1 else 0) b) (fun _ _ => True) s := by
  unfold apply_starter_usd
  refine Prog.wp_bind (Prog.wp_lift (fun n _ => ?_) fun _ _ => trivial)
  have hwallet : (get_or_create_wallet user).Writes beside :=
    writes_wallet user fun _ => trivial
  unfold apply_credit_delta get_balance_minor
  refine Prog.wp_bind (Prog.wp_bind (Prog.wp_bind (Prog.wp.mono (fun w t ht => ?_)
    (fun _ _ _ => trivial) (within_part hwallet (silent_wallet user) hs))))
  refine Prog.wp_pure (Prog.wp_ite (fun _ => ?_) fun _ => ?_)
  · exact ⟨ht.stored, ht.usd.trans (Nat.le_add_right _ _), ht.toman⟩
  refine Prog.wp_bind (Prog.wp.mono (fun wallet t ht => ?_) (fun _ _ _ => trivial)
    (within_part hwallet (silent_wallet user) ht))
  refine Prog.wp_bind (Prog.wp_read (Prog.wp_bind (Prog.wp_flush fun hadm => ?_)))
  refine Prog.wp_bind (Prog.wp_flush fun _ => Prog.wp_bind (Prog.wp_flush fun _ => ?_))
  refine silent_within (c := .setUser _ _) trivial (silent_within (c := .setWallet _ _) trivial ?_)
  have hentry := change_within hadm ht
  simpa [adds_usd, adds_toman] using hentry

/-- So does the gift. -/
theorem gift_part (amount : Int) (config_id : Nat) (hs : Within d u a b s) :
    (apply_starter_gift user amount config_id).wp (KeepsOnce u)
      (fun _ => Within d u a (b + if user.id = u then 1 else 0)) (fun _ _ => True) s := by
  unfold apply_starter_gift
  refine Prog.wp_bind (Prog.wp.mono (fun account t ht => ?_) (fun _ _ _ => trivial)
    (within_part (writes_account user fun _ => trivial) (silent_account user) hs))
  refine Prog.wp_bind (Prog.wp_flush fun _ => ?_)
  refine Prog.wp_bind (Prog.wp_bind (Prog.wp_read (Prog.wp_bind (Prog.wp_flush fun hadm => ?_))))
  have hentry := change_within hadm
    (silent_within (c := .setAccount account (welcomed account amount)) trivial ht)
  have hadds : adds_toman u (.addLedger (starter_entry user (welcomed account amount) amount
      config_id)) = if user.id = u then 1 else 0 := by
    by_cases hu : user.id = u
    · simp [adds_toman, starter_entry, hu]
    · simp [adds_toman, starter_entry, hu]
  rw [hadds] at hentry
  exact hentry

/-- The credit leaves at most one entry of each currency where it has found
none, and adds nothing where it has found some. -/
theorem starter_part (user : UserPreference) (hs : Keeping u s) :
    (apply_starter_credit user).wp (KeepsOnce u) (fun _ => Keeping u) (fun _ _ => True) s := by
  have hkeeps : ∀ t, Within s.stored u (max (starter_usd s.view u) 1)
      (max (starter_toman s.view u) 1) t → Keeping u t := by
    intro t ht hstored
    rw [ht.stored] at hstored
    obtain ⟨husd, htoman⟩ := hs hstored
    exact ⟨ht.usd.trans (max_le husd le_rfl), ht.toman.trans (max_le htoman le_rfl)⟩
  have hfirst : Within s.stored u (starter_usd s.view u) (starter_toman s.view u) s :=
    ⟨rfl, le_rfl, le_rfl⟩
  have hgrown : ∀ {n m a : Nat}, (user.id = u → n = m) → (n == 0) = true →
      a ≤ m + (if user.id = u then 1 else 0) → a ≤ max m 1 := by
    intro n m a hn hzero ha
    rw [beq_iff_eq] at hzero
    by_cases hu : user.id = u
    · rw [if_pos hu] at ha
      have := hn hu
      omega
    · rw [if_neg hu] at ha
      omega
  refine Prog.wp.mono (fun _ t ht => hkeeps t ht) (fun _ _ h => h) ?_
  unfold apply_starter_credit
  refine Prog.wp_bind (Prog.wp_read (Prog.wp_bind (Prog.wp_read ?_)))
  have husd : user.id = u → (s.view.credit_ledger.count fun e =>
      e.user_id = user.id && e.entry_type = "starter_credit") = starter_usd s.view u := by
    rintro rfl
    rfl
  have htoman : user.id = u → (s.view.ledger.count fun e =>
      e.user_id = user.id && e.entry_type = "starter_gift_credit") = starter_toman s.view u := by
    rintro rfl
    rfl
  generalize (s.view.credit_ledger.count fun e =>
    e.user_id = user.id && e.entry_type = "starter_credit") = n at husd ⊢
  generalize (s.view.ledger.count fun e =>
    e.user_id = user.id && e.entry_type = "starter_gift_credit") = m at htoman ⊢
  have hsame :
      Within s.stored u (max (starter_usd s.view u) 1) (max (starter_toman s.view u) 1) s :=
    ⟨rfl, le_max_left _ _, le_max_left _ _⟩
  refine Prog.wp_ite (fun _ => hsame) fun _ => ?_
  refine Prog.wp_bind (Prog.wp_read ?_)
  generalize Table.lowest s.view.starter_credit_configs _ = config
  cases config with
  | none => exact hsame
  | some config =>
    have hrest : ∀ (r : Bool) (t : Session Db),
        Within s.stored u (max (starter_usd s.view u) 1) (starter_toman s.view u) t → Prog.wp
          (KeepsOnce u) (fun _ => Within s.stored u (max (starter_usd s.view u) 1)
            (max (starter_toman s.view u) 1)) (fun _ _ => True) (do
        let amount_toman ← Prog.lift (compared config.amount_toman)
        let pays_toman := decide (0 < amount_toman) && m == 0
        if pays_toman then apply_starter_gift user amount_toman config.id
        return r || pays_toman : Tx Bool) t := by
      intro r t ht
      refine Prog.wp_bind (Prog.wp_lift (fun amount _ => ?_) fun _ _ => trivial)
      refine Prog.wp_ite (fun hpays => ?_) fun _ =>
        ⟨ht.stored, ht.usd, ht.toman.trans (le_max_left _ _)⟩
      rw [Bool.and_eq_true] at hpays
      refine Prog.wp_bind (Prog.wp.mono (fun _ t' ht' => ?_) (fun _ _ h => h)
        (gift_part amount config.id ht))
      exact ⟨ht'.stored, ht'.usd, hgrown htoman hpays.2 ht'.toman⟩
    refine Prog.wp_bind (Prog.wp_lift (fun amount _ => ?_) fun _ _ => trivial)
    refine Prog.wp_ite (fun hpays => ?_) fun _ =>
      hrest _ _ ⟨rfl, le_max_left _ _, le_rfl⟩
    rw [Bool.and_eq_true] at hpays
    refine Prog.wp_bind (Prog.wp.mono (fun _ t ht => hrest _ t ?_) (fun _ _ h => h)
      (usd_part amount config.id hfirst))
    exact ⟨ht.stored, hgrown husd hpays.2 ht.usd, ht.toman⟩

end

/-! ## The calls -/

/-- A call of one of the two functions, or a change of the config. -/
inductive StarterCall where
  | starter (user : UserPreference)
  | sign_up (now : Datetime) (c : SignUp)
  | configure (data : StarterCreditConfigUpdate)

/-- Each call ends with its commit. -/
def StarterCall.prog : StarterCall → Tx Unit
  | .starter user => do
    let _ ← apply_starter_credit user
    Prog.publish
  | .sign_up now c => calls.discard (c.committed now)
  | .configure data => calls.discard (update_starter_credit_config data)

section
variable {u : Nat} {s : Session Db}

theorem subscribes_beside : Subscribes beside := by
  constructor <;> intros <;> trivial

theorem writes_discard {α : Type} {P : Change → Prop} {x : Tx α} (hx : x.Writes P) :
    (calls.discard x).Writes P := hx.bind fun _ => Prog.writes_pure _

theorem writes_configure (data : StarterCreditConfigUpdate) :
    (update_starter_credit_config data).Writes beside := by
  have hconfig : get_or_create_starter_credit_config.Writes beside := by
    refine (Prog.writes_read _).bind fun config => ?_
    cases config with
    | some config => exact Prog.writes_pure _
    | none =>
      refine (Prog.writes_read _).bind fun _ => (Prog.writes_flush trivial).bind fun _ => ?_
      exact Prog.writes_publish.bind fun _ => Prog.writes_pure _
  refine hconfig.bind fun config => (Prog.writes_flush trivial).bind fun _ => ?_
  exact (Prog.writes_flush trivial).bind fun _ => Prog.writes_publish.bind fun _ =>
    Prog.writes_read _

theorem sign_up_part (now : Datetime) (c : SignUp) (hs : Keeping u s) :
    (c.committed now).wp (KeepsOnce u) (fun _ => Keeping u) (fun _ _ => True) s := by
  unfold SignUp.committed create_or_restore_user
  refine Prog.wp_bind (Prog.wp_bind (Prog.wp_read ?_))
  generalize s.view.users.first _ = found
  have hpart : ∀ {α : Type} {x : Tx α} {t : Session Db}, x.Writes beside → Keeping u t →
      x.wp (KeepsOnce u) (fun _ => Keeping u) (fun _ _ => True) t := fun hx ht =>
    Prog.wp.mono (fun _ _ h => h) (fun _ _ _ => trivial) (keeping_part hx ht)
  have hend : ∀ (user : UserPreference) (t : Session Db), Keeping u t →
      (Prog.publishIf (!c.commit) >>= fun _ => (return user : Tx UserPreference)).wp (KeepsOnce u)
        (fun _ => Keeping u) (fun _ _ => True) t := fun user t ht =>
    hpart ((Prog.writes_publishIf _).bind fun _ => Prog.writes_pure _) ht
  cases found with
  | none =>
    refine Prog.wp_bind (Prog.wp_read (Prog.wp_bind (Prog.wp_flush fun _ => ?_)))
    refine Prog.wp_bind (Prog.wp.mono (fun _ t ht => ?_) (fun _ _ h => h)
      (starter_part _ (keeping_change (c := .addUser _) trivial hs)))
    refine Prog.wp.mono (fun user t ht => hend user t ht) (fun _ _ h => h) (hpart ?_ ht)
    have hmark : ∀ user user' : UserPreference, (do
        Prog.flush (.setUser user user')
        Prog.publishIf c.commit
        refreshed user : Tx UserPreference).Writes beside := fun _ _ =>
      (Prog.writes_flush trivial).bind fun _ => (Prog.writes_publishIf _).bind fun _ =>
        Prog.writes_read _
    refine (Prog.writes_read _).bind fun config => Prog.writes_ite ?_ (hmark _ _)
    exact (writes_trial subscribes_beside (fun _ => trivial) (fun _ => trivial) _ _ _).attempt.bind
      fun _ => hmark _ _
  | some user =>
    refine Prog.wp.mono (fun user t ht => hend user t ht) (fun _ _ h => h) (hpart ?_ hs)
    have hset : ∀ known : UserPreference, (do
        Prog.flush (.setUser user known)
        Prog.publishIf c.commit
        refreshed user : Tx UserPreference).Writes beside := fun _ =>
      (Prog.writes_flush trivial).bind fun _ => (Prog.writes_publishIf _).bind fun _ =>
        Prog.writes_read _
    exact Prog.writes_ite ((Prog.writes_flush trivial).bind fun _ => hset _) (hset _)

/-- Every call commits what keeps the counts, whatever the config says. -/
theorem call_keeps (u : Nat) (c : StarterCall) (db : Db) :
    c.prog.wp (KeepsOnce u) (fun _ _ => True) (fun _ _ => True) (.opened db) := by
  have hopened : Keeping u (.opened db) := fun h => h
  cases c with
  | starter user =>
    refine Prog.wp_bind (Prog.wp.mono (fun _ t ht => ?_) (fun _ _ h => h)
      (starter_part user hopened))
    exact Prog.wp_publish ht fun _ _ => trivial
  | sign_up now c =>
    exact Prog.wp_bind (Prog.wp.mono (fun _ _ _ => trivial) (fun _ _ h => h)
      (sign_up_part now c hopened))
  | configure data =>
    exact Prog.wp.mono (fun _ _ _ => trivial) (fun _ _ _ => trivial)
      (keeping_part (writes_discard (writes_configure data)) hopened)

end

/-! ## Calls side by side -/

section
variable {ι : Type} [DecidableEq ι]

def side_by_side (db : Db) (c : ι → StarterCall) : System ι Db Change PyError Unit :=
  .init db fun i => (c i).prog

/-- LAW: A user never has two entries of one currency, in any run of calls and
changes of the config whose commits are made while the counts that their call
has read of the user's entries still stand. -/
theorem standing_counts_credit_once (db : Db) (c : ι → StarterCall) (ms : List (Move ι)) (u : Nat)
    (hcounts : (side_by_side db c).AgreeingCommits (SameCounts u) ms) :
    CreditedOnce u db → CreditedOnce u ((side_by_side db c).run ms).store :=
  agreeing_commits_allowed (counts_agree u) (fun i t _ => call_keeps u (c i) t) hcounts

end

def welcome_shop : Db :=
  { shop with
    starter_credit_configs := Table.empty.insert
      { id := 1, amount_usd := some 1, amount_toman := some 50000 } }

/-- The customer is credited twice. -/
def two_credits (_ : Bool) : StarterCall := .starter customer

theorem nothing_credited_yet : CreditedOnce customer.id welcome_shop :=
  ⟨Nat.zero_le 1, Nat.zero_le 1⟩

/-- The second call has counted before the first one commits, and pays both
currencies again. -/
theorem overlapping_calls_credit_twice :
    ¬∀ (db : Db) (c : Bool → StarterCall) (ms : List (Move Bool)) (u : Nat),
      CreditedOnce u db → CreditedOnce u ((side_by_side db c).run ms).store := by
  intro h
  have honce := h welcome_shop two_credits
    (.replicate 3 (.step true) ++ .replicate 30 (.step false) ++ .replicate 30 (.step true))
    customer.id nothing_credited_yet
  have husd := honce.usd
  revert husd
  decide +kernel

/-- A change of the config comes between the two credits. -/
def credits_around_a_change : Fin 3 → StarterCall
  | 0 => .starter customer
  | 1 => .configure { amount_usd := some (some 0), amount_toman := some (some 90000) }
  | 2 => .starter customer

/-- In turn, the call after the change of the config pays nothing more. -/
theorem calls_in_turn_credit_once :
    CreditedOnce customer.id ((side_by_side welcome_shop credits_around_a_change).run
      (.replicate 30 (.step 0) ++ (.replicate 30 (.step 1) ++ .replicate 30 (.step 2)))).store := by
  refine standing_counts_credit_once welcome_shop credits_around_a_change _ customer.id
    (System.FreshCommits.agreeing (fun _ => ⟨rfl, rfl⟩) (freshCommits_append ?_
      (freshCommits_append ?_ ?_))) nothing_credited_yet
  · exact freshCommits_alone trivial 30
  · refine freshCommits_alone ?_ 30
    rw [run_alone_ne (by decide)]
    trivial
  · refine freshCommits_alone ?_ 30
    rw [run_alone_ne (by decide), run_alone_ne (by decide)]
    trivial

end dr_boz.starter_credits
