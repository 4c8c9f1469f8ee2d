-- The limits of a promo code under redemptions side by side. The limits are
-- counted before the redemption is inserted, with nothing that holds the
-- count still until the commit.
import DrBoz.Commits
import DrBoz.Calls

open keyed_table unit_of_work dr_boz.py dr_boz.models dr_boz.codex_capacity dr_boz.toman_billing
open dr_boz.promo_codes dr_boz.promo_runs dr_boz.calls dr_boz.commits

namespace dr_boz.promo_limits

/-- How many redemptions of the code the users of a kind have. -/
def redemptions (db : Db) (p : PromoCode) (who : Nat → Bool) : Nat :=
  db.promo_redemptions.count fun r => r.promo_code_id = p.id && who r.user_id

/-- The redemptions of the code are within its limits. -/
structure WithinLimits (db : Db) (p : PromoCode) : Prop where
  total : ∀ m, p.max_redemptions_total = some m → (redemptions db p fun _ => true : Int) ≤ m
  per_user : 0 < intOr0 p.max_redemptions_per_user →
    ∀ u, (redemptions db p fun v => v = u : Int) ≤ intOr0 p.max_redemptions_per_user

/-! ## What a redemption writes -/

/-- The weight of a change: a new redemption of the code by such a user. -/
def redeems (p : PromoCode) (who : Nat → Bool) : Change → Nat
  | .addRedemption r => if r.promo_code_id = p.id && who r.user_id then 1 else 0
  | _ => 0

def isRedemption : Change → Bool
  | .addRedemption _ => true
  | _ => false

section
variable {p : PromoCode} {who : Nat → Bool}

theorem redeems_zero {c : Change} (h : isRedemption c = false) : redeems p who c = 0 := by
  cases c with
  | addRedemption r => cases h
  | _ => rfl

/-- Only a new redemption counts. An update keeps the code and the user. -/
theorem redemptions_apply (db : Db) (c : Change) :
    redemptions (db.apply c) p who = redemptions db p who + redeems p who c := by
  cases c with
  | addRedemption r =>
    exact Table.count_insert (Table.accepts_of_no_unique rfl) _
  | setRedemption o n =>
    unfold redemptions Table.count
    change (db.promo_redemptions.rows.map fun r =>
      if Row.key r = n.id then .merge o n r else r).countP _ = _
    rw [List.countP_map]
    refine List.countP_congr fun r _ => ?_
    simp only [Function.comp]
    split
    · exact Iff.rfl
    · exact Iff.rfl
  | _ => rfl

theorem codes_apply (db : Db) (c : Change) : (db.apply c).promo_codes = db.promo_codes := by
  cases c <;> rfl

end

/-- What is left of a redemption after its checks writes one row for the user. -/
theorem spends_toman (p q : PromoCode) (who : Nat → Bool) (user : UserPreference) (charge : Int)
    (source : String) (credit_charge : Bool) :
    (redeem_toman user q charge source credit_charge).Spends (redeems p who)
      (if q.id = p.id && who user.id then 1 else 0) := by
  unfold redeem_toman
  refine Prog.spends_guard fun _ => Prog.spends_guard fun _ => Prog.spends_guard fun _ => ?_
  refine Prog.Writes.spends_bind (w := redeems p who) (writes_account user fun _ => rfl)
    fun account => ?_
  refine Prog.Writes.spends_bind (w := redeems p who) (Prog.writes_flush rfl) fun _ => ?_
  refine Prog.Writes.spends_bind (w := redeems p who) (writes_add_ledger rfl)
    fun entry => ?_
  refine Prog.Writes.spends_bind (w := redeems p who) (Prog.writes_read _) fun id => ?_
  refine (Prog.spends_flush _).bind (n := 0) fun _ => ?_
  refine Prog.Writes.spends_bind (w := redeems p who) Prog.writes_publish fun _ => ?_
  refine Prog.Writes.spends_bind (w := redeems p who) (Prog.writes_flush rfl) fun _ => ?_
  exact Prog.Writes.spends_bind (w := redeems p who) Prog.writes_publish fun _ => trivial

/-- The USD wallet hands the same user back. -/
theorem returns_credit_delta (user : UserPreference) (amount : Int) (entry_type : String)
    (reason : Option String) (metadata : Dict) :
    (apply_credit_delta user amount entry_type reason metadata false false).Returns
      fun r => r.2.id = user.id := by
  unfold apply_credit_delta
  exact Prog.returns_bind fun _ => Prog.returns_ite rfl (Prog.returns_bind fun _ =>
    Prog.returns_bind fun _ => Prog.returns_bind fun _ => Prog.returns_bind fun _ =>
    Prog.returns_bind fun _ => Prog.returns_bind fun _ => rfl)

theorem spends_usd (p q : PromoCode) (who : Nat → Bool) (user : UserPreference)
    (charge : PyFloat) (source : String) (credit_charge : Bool) :
    (redeem_usd user q charge source credit_charge).Spends (redeems p who)
      (if q.id = p.id && who user.id then 1 else 0) := by
  have rest : ∀ added : PromoCodeRedemption, added.promo_code_id = q.id → added.user_id = user.id →
      (do
        let id ← Prog.read fun db => db.promo_redemptions.nextKey
        Prog.flush (.addRedemption added)
        Prog.publish
        return { added with id } : Tx PromoCodeRedemption).Spends (redeems p who)
          (if q.id = p.id && who user.id then 1 else 0) := by
    intro added h1 h2
    rw [← h1, ← h2]
    refine Prog.Writes.spends_bind (w := redeems p who) (Prog.writes_read _) fun id => ?_
    refine (Prog.spends_flush _).bind (n := 0) fun _ => ?_
    exact Prog.Writes.spends_bind (w := redeems p who) Prog.writes_publish fun _ => trivial
  unfold redeem_usd
  refine Prog.Writes.spends_bind (w := redeems p who) (Prog.writes_lift _) fun charge_minor => ?_
  refine Prog.spends_guard fun _ => ?_
  refine Prog.Writes.spends_bind (w := redeems p who) (Prog.writes_lift _) fun minimum => ?_
  refine Prog.spends_guard fun _ => ?_
  refine Prog.Writes.spends_bind (w := redeems p who) (Prog.writes_lift _) fun bonus => ?_
  refine Prog.spends_guard fun _ => Prog.spends_guard fun _ => ?_
  refine Prog.Returns.spends_bind (w := redeems p who) (returns_credit_delta user _ _ _ _)
    (writes_credit_delta _ _ _ _ _ _ _ (fun _ => rfl) (fun _ => rfl) (fun _ _ => rfl)
      fun _ _ => rfl) fun result hid => ?_
  refine Prog.spends_guard fun _ => Prog.spends_ite ?_ (rest _ rfl hid)
  refine Prog.Writes.spends_bind (w := redeems p who) (Prog.writes_flush ?_)
    fun _ => rest _ rfl hid
  rfl

/-- After its first commit a redemption writes no redemption. -/
theorem writesAfter_redeem (c : PromoCall) :
    c.prog.WritesAfter fun c => isRedemption c = false := by
  unfold PromoCall.prog redeem_promo_code_for_user
  refine (silent_usable _ _).writesAfter_bind fun q => ?_
  split
  · unfold redeem_toman
    refine Prog.writesAfter_guard fun _ => Prog.writesAfter_guard fun _ =>
      Prog.writesAfter_guard fun _ => ?_
    refine (silent_account _).writesAfter_bind fun _ => ?_
    refine (Prog.silent_flush _).writesAfter_bind fun _ => ?_
    refine (silent_add_ledger _).writesAfter_bind fun _ => ?_
    refine (Prog.silent_read _).writesAfter_bind fun _ => ?_
    refine (Prog.silent_flush _).writesAfter_bind fun _ => ?_
    refine Prog.publish_writesAfter (Prog.Writes.bind (Prog.writes_flush ?_) fun _ => ?_)
    · rfl
    · exact Prog.Writes.bind Prog.writes_publish fun _ => Prog.writes_pure _
  · have rest : ∀ added : PromoCodeRedemption, (do
        let id ← Prog.read fun db => db.promo_redemptions.nextKey
        Prog.flush (.addRedemption added)
        Prog.publish
        return { added with id } : Tx PromoCodeRedemption).WritesAfter
          fun c => isRedemption c = false := fun added =>
      (Prog.silent_read _).writesAfter_bind fun _ => (Prog.silent_flush _).writesAfter_bind fun _ =>
        Prog.publish_writesAfter (Prog.writes_pure _)
    unfold redeem_usd
    refine (Prog.silent_lift _).writesAfter_bind fun _ => Prog.writesAfter_guard fun _ => ?_
    refine (Prog.silent_lift _).writesAfter_bind fun _ => Prog.writesAfter_guard fun _ => ?_
    refine (Prog.silent_lift _).writesAfter_bind fun _ => Prog.writesAfter_guard fun _ =>
      Prog.writesAfter_guard fun _ => ?_
    refine (silent_credit_delta _ _ _ _ _ _).writesAfter_bind fun _ =>
      Prog.writesAfter_guard fun _ => ?_
    exact Prog.writesAfter_ite ((Prog.silent_flush _).writesAfter_bind fun _ => rest _) (rest _)

/-! ## One redemption alone -/

/-- A redemption alone changes nothing, or its code has room and it adds one row. -/
theorem redemption_alone (c : PromoCall) (db : Db) :
    (c.prog.run (.opened db)).2.stored = db ∨
    ∃ q ∈ db.promo_codes.rows, HasRoom db q c.user.id ∧ ∀ p who,
      redemptions (c.prog.run (.opened db)).2.stored p who ≤
        redemptions db p who + if q.id = p.id && who c.user.id then 1 else 0 := by
  unfold PromoCall.prog redeem_promo_code_for_user
  rw [Prog.run_bind]
  rcases run_usable_promo_code c.user c.code (.opened db) with ⟨q, hq, hroom, hrun⟩ | ⟨e, hrun⟩
  · refine .inr ⟨q, (Table.first_mem hq).1, hroom, fun p who => ?_⟩
    rw [hrun, Prog.continueWith_ok]
    have hm : ∀ (s : Db) d, redemptions (Store.apply s d) p who ≤
        redemptions s p who + redeems p who d := fun s d => Nat.le_of_eq (redemptions_apply s d)
    refine Prog.Spends.run (m := fun s => redemptions s p who) hm ?_ (Nat.le_add_right _ _)
      (le_refl _)
    exact Prog.spends_ite (spends_toman p q who c.user _ _ _) (spends_usd p q who c.user _ _ _)
  · rw [hrun]
    exact .inl rfl

theorem codes_alone (c : PromoCall) (db : Db) :
    (c.prog.run (.opened db)).2.stored.promo_codes = db.promo_codes := by
  have h := Prog.Writes.run (I := fun t : Db => t.promo_codes = db.promo_codes)
    (P := fun _ => True) (fun d _ s => by rw [views.store_apply, codes_apply])
    (Prog.writes_all c.prog)
    (s := .opened db) Iff.rfl
  exact h.mpr rfl

/-- What a redemption alone keeps: the codes, and the limits of a code. -/
theorem within_alone {db₀ db : Db} {p : PromoCode} (hp : p ∈ db₀.promo_codes.rows) (c : PromoCall)
    (h : db.promo_codes = db₀.promo_codes ∧ WithinLimits db p) :
    let db' := (c.prog.run (.opened db)).2.stored
    db'.promo_codes = db₀.promo_codes ∧ WithinLimits db' p := by
  obtain ⟨hcodes, hwithin⟩ := h
  refine ⟨(codes_alone c db).trans hcodes, ?_⟩
  rcases redemption_alone c db with hsame | ⟨q, hq, hroom, hle⟩
  · rw [hsame]
    exact hwithin
  · rw [hcodes] at hq
    by_cases hid : q.id = p.id
    · obtain rfl := db₀.promo_codes.key_unique hq hp hid
      have hall : ∀ who, redemptions (c.prog.run (.opened db)).2.stored q who ≤
          redemptions db q who + if who c.user.id then 1 else 0 := by
        intro who
        simpa using hle q who
      refine ⟨fun m hm => ?_, fun hpos u => ?_⟩
      · have h1 := hroom.total m hm
        have h2 := hall fun _ => true
        have h3 : redemptions db q (fun _ => true) =
            db.promo_redemptions.count fun r => r.promo_code_id = q.id := by
          simp [redemptions]
        simp only [if_true] at h2
        omega
      · have h1 := hroom.per_user hpos
        have h2 := hall fun v => v = u
        have h4 := hwithin.per_user hpos u
        by_cases hu : c.user.id = u
        · subst hu
          have h3 : redemptions db q (fun v => v = c.user.id) =
              db.promo_redemptions.count fun r => r.promo_code_id = q.id && r.user_id = c.user.id :=
            rfl
          simp only [decide_true, if_true] at h2
          omega
        · simp only [hu, decide_false, Bool.false_eq_true, if_false] at h2
          omega
    · have hall : ∀ who, redemptions (c.prog.run (.opened db)).2.stored p who ≤
          redemptions db p who := by
        intro who
        simpa [hid] using hle p who
      refine ⟨fun m hm => ?_, fun hpos u => ?_⟩
      · have := hwithin.total m hm
        have := hall fun _ => true
        omega
      · have := hwithin.per_user hpos u
        have := hall fun v => v = u
        omega

/-- A change that is no redemption is not seen by the limits. -/
theorem within_unseen {codes : Table PromoCode} {p : PromoCode} {d : Change} {s : Db}
    (hd : isRedemption d = false) :
    ((Store.apply s d).promo_codes = codes ∧ WithinLimits (Store.apply s d) p) ↔
      (s.promo_codes = codes ∧ WithinLimits s p) := by
  have hcount : ∀ who, redemptions (s.apply d) p who = redemptions s p who := by
    intro who
    rw [redemptions_apply, redeems_zero hd, Nat.add_zero]
  rw [views.store_apply, codes_apply]
  refine and_congr Iff.rfl ⟨fun h => ⟨?_, ?_⟩, fun h => ⟨?_, ?_⟩⟩
  · simpa only [hcount] using h.total
  · simpa only [hcount] using h.per_user
  · simpa only [hcount] using h.total
  · simpa only [hcount] using h.per_user

/-! ## A code for one redemption -/

def welcome_code : PromoCode where
  id := 1
  code := "WELCOME"
  currency := some "TOMAN"
  bonus_value_toman := some 10000
  max_redemptions_total := some 1

def shop_with_code : Db := { shop with promo_codes := Table.empty.insert welcome_code }

/-- The customer sends the code twice. -/
def two_redemptions (_ : Bool) : PromoCall where
  user := customer
  code := some "welcome"
  charge_amount_usd := 0
  charge_amount_toman := 0
  source := "account_by_telegram"
  credit_charge_amount := true

/-! ## Redemptions side by side -/

section
variable {ι : Type} [DecidableEq ι]

/-- The redemptions, each in a session of its own. -/
def side_by_side (db : Db) (c : ι → PromoCall) : System ι Db Change PyError PromoCodeRedemption :=
  .init db fun i => (c i).prog

/-- From a database within the limits of the code on, every state of the run is
within them. -/
def KeepsLimits (db : Db) (p : PromoCode) (c : ι → PromoCall) (ms : List (Move ι)) : Prop :=
  WithinLimits db p → WithinLimits ((side_by_side db c).run ms).store p

/-- LAW: when every redemption makes its first commit on a store that still
answers what it has read, its counts among it, no run goes over a limit. -/
theorem fresh_redemptions_keep_the_limits (db : Db) (c : ι → PromoCall) (ms : List (Move ι))
    (hfresh : (side_by_side db c).FreshRun ms) :
    ∀ p ∈ db.promo_codes.rows, KeepsLimits db p c ms := by
  intro p hp hwithin
  exact (fresh_runs_keep (I := fun s : Db => s.promo_codes = db.promo_codes ∧ WithinLimits s p)
    (fun _ hd s => within_unseen hd) (fun i => writesAfter_redeem (c i))
    (fun i s hs => within_alone hp (c i) hs) ⟨rfl, hwithin⟩ hfresh).2

end

/-- The second redemption has counted before the first one commits. -/
theorem overlapping_redemptions_break_the_limit :
    ¬∀ (db : Db) (c : Bool → PromoCall) (ms : List (Move Bool)),
      ∀ p ∈ db.promo_codes.rows, KeepsLimits db p c ms := by
  intro h
  have hlimits := h shop_with_code two_redemptions
    (.replicate 3 (.step true) ++ .replicate 14 (.step false) ++ .replicate 14 (.step true))
    welcome_code (by decide +kernel) ⟨?_, ?_⟩
  · have htotal := hlimits.total 1 rfl
    revert htotal
    decide +kernel
  · intro m hm
    cases hm
    decide +kernel
  · intro hpos u
    have hnone : redemptions shop_with_code welcome_code (fun v => v = u) = 0 := rfl
    omega

/-- One after the other, the second redemption is refused. -/
theorem redemptions_in_turn_keep_the_limits :
    shop_with_code.promo_codes.rows ≠ [] ∧
      ∀ p ∈ shop_with_code.promo_codes.rows, KeepsLimits shop_with_code p two_redemptions
        (.replicate 14 (.step false) ++ .replicate 14 (.step true)) := by
  refine ⟨by decide +kernel, ?_⟩
  refine fresh_redemptions_keep_the_limits shop_with_code two_redemptions _
    (System.SoundRun.fresh (soundRun_append ?_ ?_ :
      (side_by_side shop_with_code two_redemptions).SoundRun false (fun _ _ => True) _))
  · exact sound_alone (fun _ => trivial) (fun _ => trivial) (by decide +kernel) 14
  · refine sound_alone (fun _ => trivial) (fun _ => ?_) (by decide +kernel) 14
    rw [run_alone_ne (by decide)]
    trivial

end dr_boz.promo_limits
