-- Law of the promotional links: each user gets the offer of a link once, the
-- link has room for a number of users, and a click is a redeemed one if and
-- only if it has brought the offer. The offer is committed before its message
-- is sent, and the handler of a failed message calls the click a failed one.
import DrBoz.Calls
import DrBoz.Writers
import DrBoz.Lib.FreshCommits

open keyed_table unit_of_work dr_boz.py dr_boz.models dr_boz.codex_capacity
open dr_boz.toman_billing dr_boz.accounts dr_boz.views dr_boz.calls dr_boz.bot_users
open dr_boz.bot_payments dr_boz.bot_start dr_boz.commits dr_boz.writers

namespace dr_boz.promo_links

/-! ## What is counted -/

/-- The click has redeemed its link. -/
def used (c : PromotionalLinkClick) : Bool := c.redemption_status = some "redeemed"

/-- The clicks that have redeemed a link of the kind for a user of the kind. -/
def uses (q : Nat → Nat → Bool) (db : Db) : Nat :=
  db.promotional_link_clicks.count fun c => used c && q c.promotional_link_id c.user_id

def redemptions (l v : Nat) (db : Db) : Nat := uses (fun k u => k = l && u = v) db

def link_redemptions (l : Nat) (db : Db) : Nat := uses (fun k _ => k = l) db

/-- The entry is a gift of the link to the user: a credit, or a discount. -/
def is_gift (l v : Nat) (e : TomanLedgerEntry) : Bool :=
  e.user_id = v &&
    (e.entry_type = "promotional_link_credit" ||
      e.entry_type = "promotional_link_topup_discount") &&
    e.metadata_json.get "promotional_link_id" = some (Scalar.int l)

def gifts (l v : Nat) (db : Db) : Nat := db.ledger.count (is_gift l v)

/-- The link gives a subscription of the plan. -/
def gives_plan (links : Table PromotionalLink) (p l : Nat) : Bool :=
  (links.get l).any fun link => link.offer_type = "free_subscription" && link.plan_id = some p

/-- The redemptions of the user that stand for a subscription of the plan. -/
def plan_redemptions (v p : Nat) (db : Db) : Nat :=
  uses (fun l u => u = v && gives_plan db.promotional_links p l) db

def plan_subscriptions (v p : Nat) (db : Db) : Nat :=
  db.subscriptions.count fun u => u.user_id = v && u.plan_id = p

/-- Each user has redeemed a link once at most, no link is redeemed more often
than it has room, and a redeemed click and a gift stand for each other. -/
structure Fair (db : Db) : Prop where
  once : ∀ l v, redemptions l v db ≤ 1
  room : ∀ link ∈ db.promotional_links.rows, ∀ m, link.max_redemptions = some m →
    (link_redemptions link.id db : Int) ≤ max m 0
  gifts : ∀ link ∈ db.promotional_links.rows, link.offer_type ≠ "free_subscription" →
    ∀ v, gifts link.id v db = redemptions link.id v db

/-! ## What the other parts of a start leave -/

/-- The stores agree on the links, the clicks, the subscriptions and the gifts. -/
structure SameOffers (s t : Db) : Prop where
  links : t.promotional_links = s.promotional_links
  clicks : t.promotional_link_clicks = s.promotional_link_clicks
  subscriptions : t.subscriptions = s.subscriptions
  gifts : ∀ l v, gifts l v t = gifts l v s

theorem SameOffers.refl (s : Db) : SameOffers s s := ⟨rfl, rfl, rfl, fun _ _ => rfl⟩

theorem SameOffers.trans {s t u : Db} (h : SameOffers s t) (h' : SameOffers t u) :
    SameOffers s u where
  links := h'.links.trans h.links
  clicks := h'.clicks.trans h.clicks
  subscriptions := h'.subscriptions.trans h.subscriptions
  gifts l v := (h'.gifts l v).trans (h.gifts l v)

/-- The change is none of a link. -/
def no_offer : Change → Prop
  | .addClick _ | .setClick _ _ | .addSubscription _ | .setSubscription _ _
  | .deleteSubscription _ => False
  | .addLedger e => ∀ l v, is_gift l v e = false
  | _ => True

/-- A ledger with one entry more. -/
theorem gifts_insert (l v : Nat) (db : Db) (e : TomanLedgerEntry) (h : db.ledger.Accepts e) :
    gifts l v (db.apply (.addLedger e)) = gifts l v db + if is_gift l v e then 1 else 0 :=
  Table.count_insert h _

theorem same_offers_change {c : Change} (hc : no_offer c) (db : Db) :
    SameOffers db (db.apply c) := by
  cases c with
  | addLedger e =>
    refine ⟨rfl, rfl, rfl, fun l v => ?_⟩
    by_cases h : db.ledger.Accepts e
    · rw [gifts_insert l v db e h, hc l v]
      rfl
    · unfold gifts
      change (db.ledger.insert e).count _ = _
      rw [Table.insert, dif_neg h]
  | addClick | setClick | addSubscription | setSubscription | deleteSubscription => exact hc.elim
  | _ => exact ⟨rfl, rfl, rfl, fun _ _ => rfl⟩

theorem greets_no_offer : Greets no_offer where
  account _ := trivial
  config := trivial
  add _ := trivial
  set _ _ := trivial
  entry _ := trivial
  user _ _ := trivial
  welcomed _ _ := trivial
  starter _ _ _ _ := fun _ _ => by simp [is_gift, starter_entry]
  added _ := trivial
  seen _ _ _ := trivial

/-! ## Clicks -/

section
variable {clicks : Table PromotionalLinkClick} {c r : PromotionalLinkClick}

/-- A row of the table is set anew, and counts or does not count after it. -/
theorem count_set (clicks : Table PromotionalLinkClick) {n : Nat}
    {f : PromotionalLinkClick → PromotionalLinkClick} (hk hu)
    (h : clicks.get n = some c) (hc : used c = false) (q : Nat → Nat → Bool) :
    (clicks.update n f hk hu).count
        (fun c => used c && q c.promotional_link_id c.user_id) =
      clicks.count (fun c => used c && q c.promotional_link_id c.user_id) +
        if used (f c) && q (f c).promotional_link_id (f c).user_id then 1 else 0 := by
  have hkey : Row.key c = n := (clicks.get_eq_some.mp h).2
  have hput := Table.count_put (t := clicks) (o := c) (r := f c) (hkey ▸ h) ⟨hk c, hu c⟩
    fun c => used c && q c.promotional_link_id c.user_id
  rw [Table.update_eq_put hk hu h rfl]
  simp only [hc, Bool.false_and] at hput
  simpa using hput

end

/-! ## What a commit may do -/

/-- The starts leave a click that stands as it is, redeemed or not. Each
subscription more is that of a redemption more, and the store stays fair. -/
structure Gives (s t : Db) : Prop where
  links : t.promotional_links = s.promotional_links
  clicks : ∀ n c, s.promotional_link_clicks.get n = some c →
    ∃ c', t.promotional_link_clicks.get n = some c' ∧ used c' = used c
  fair : Fair s → Fair t
  subscriptions : ∀ v p, plan_subscriptions v p t + plan_redemptions v p s =
    plan_subscriptions v p s + plan_redemptions v p t

theorem Gives.refl (s : Db) : Gives s s := ⟨rfl, fun _ c h => ⟨c, h, rfl⟩, id, fun _ _ => rfl⟩

theorem Gives.trans {s t u : Db} (h : Gives s t) (h' : Gives t u) : Gives s u where
  links := h'.links.trans h.links
  clicks n c hc := by
    obtain ⟨c', hc', hu⟩ := h.clicks n c hc
    obtain ⟨c'', hc'', hu'⟩ := h'.clicks n c' hc'
    exact ⟨c'', hc'', hu'.trans hu⟩
  fair hs := h'.fair (h.fair hs)
  subscriptions v p := by
    have h1 := h.subscriptions v p
    have h2 := h'.subscriptions v p
    omega

/-- A step after which every count is the same. -/
theorem gives_quiet {s t : Db} (hlinks : t.promotional_links = s.promotional_links)
    (hclicks : ∀ n c, s.promotional_link_clicks.get n = some c →
      ∃ c', t.promotional_link_clicks.get n = some c' ∧ used c' = used c)
    (huses : ∀ q, uses q t = uses q s) (hgifts : ∀ l v, gifts l v t = gifts l v s)
    (hsubs : t.subscriptions = s.subscriptions) : Gives s t where
  links := hlinks
  clicks := hclicks
  fair h := {
    once := fun l v => by
      unfold redemptions
      rw [huses]
      exact h.once l v
    room := fun link hl m hm => by
      unfold link_redemptions
      rw [huses]
      exact h.room link (hlinks ▸ hl) m hm
    gifts := fun link hl hne v => by
      unfold redemptions
      rw [huses, hgifts]
      exact h.gifts link (hlinks ▸ hl) hne v }
  subscriptions v p := by
    unfold plan_subscriptions plan_redemptions
    rw [hsubs, huses, hlinks]

theorem gives_same {s t : Db} (h : SameOffers s t) : Gives s t := by
  refine gives_quiet h.links (fun n c hc => ⟨c, by rw [h.clicks]; exact hc, rfl⟩) (fun q => ?_)
    h.gifts h.subscriptions
  unfold uses
  rw [h.clicks]

theorem accepts_click (t : Table PromotionalLinkClick) (c : PromotionalLinkClick) : t.Accepts c :=
  Table.accepts_of_no_unique rfl

theorem uses_added (q : Nat → Nat → Bool) (db : Db) {c : PromotionalLinkClick}
    (hc : used c = false) : uses q (db.apply (.addClick c)) = uses q db := by
  have hrow : used (Row.setKey c db.promotional_link_clicks.nextKey) = false := hc
  unfold uses
  simp only [Db.apply]
  rw [Table.count_insert (accepts_click _ c), hrow]
  rfl

/-- A click that has not redeemed its link. -/
theorem gives_added (db : Db) {c : PromotionalLinkClick} (hc : used c = false) :
    Gives db (db.apply (.addClick c)) :=
  gives_quiet rfl (fun _ r hr => ⟨r, Table.get_insert_some hr, rfl⟩) (fun q => uses_added q db hc)
    (fun _ _ => rfl) rfl

theorem get_set_click (db : Db) (o c : PromotionalLinkClick) (n : Nat) :
    (db.apply (.setClick o c)).promotional_link_clicks.get n =
      if n = c.id then (db.promotional_link_clicks.get n).map (.merge o c)
      else db.promotional_link_clicks.get n :=
  Table.get_update _ _ (PromotionalLinkClick.merge o c) (fun _ => rfl) (fun _ => rfl) _

/-- A click gets another status, and has redeemed nothing before and after. -/
theorem gives_set {db : Db} {o c r : PromotionalLinkClick}
    (hr : db.promotional_link_clicks.get c.id = some r) (hold : used r = false)
    (hnew : used (.merge o c r) = false) : Gives db (db.apply (.setClick o c)) := by
  refine gives_quiet rfl (fun n x hx => ?_) (fun q => ?_) (fun _ _ => rfl) rfl
  · rw [get_set_click]
    by_cases hn : n = c.id
    · rw [if_pos hn, hx]
      rw [hn, hr] at hx
      cases hx
      exact ⟨_, rfl, hnew.trans hold.symm⟩
    · rw [if_neg hn]
      exact ⟨x, hx, rfl⟩
  · refine (count_set _ (f := .merge o c) (fun _ => rfl) (fun _ => rfl) hr hold q).trans ?_
    rw [hnew]
    rfl

/-- The click of a start before it is settled. -/
def pending (link : PromotionalLink) (v : Nat) : PromotionalLinkClick :=
  { promotional_link_id := link.id, user_id := v, redemption_status := some "pending" }

/-- The click of the session is redeemed. -/
theorem uses_redeemed (q : Nat → Nat → Bool) {t w : Db} {link : PromotionalLink} {v : Nat}
    {click : PromotionalLinkClick} (now : Datetime)
    (hclick : click = { pending link v with id := t.promotional_link_clicks.nextKey })
    (hw : w.promotional_link_clicks = t.promotional_link_clicks.insert (pending link v)) :
    uses q (w.apply (.setClick click (redeemed click now))) =
      uses q t + if q link.id v then 1 else 0 := by
  have hget : w.promotional_link_clicks.get click.id = some click := by
    rw [hw, hclick]
    exact Table.get_insert_new (accepts_click _ _)
  have hadded := uses_added q t (c := pending link v) rfl
  unfold uses at hadded ⊢
  simp only [Db.apply] at hadded ⊢
  have hset := count_set w.promotional_link_clicks (c := click) (n := click.id)
    (f := .merge click (redeemed click now)) (fun _ => rfl) (fun _ => rfl) hget
    (by rw [hclick]; rfl) q
  have hused : used (.merge click (redeemed click now) click) = true := by
    subst hclick
    rfl
  have hlink : (PromotionalLinkClick.merge click (redeemed click now) click).promotional_link_id =
      link.id := by
    subst hclick
    rfl
  have huser : (PromotionalLinkClick.merge click (redeemed click now) click).user_id = v := by
    subst hclick
    rfl
  rw [hused, hlink, huser, Bool.true_and] at hset
  refine hset.trans ?_
  rw [hw, hadded]

theorem link_full_iff (link : PromotionalLink) (db : Db) :
    link_full link db =
      link.max_redemptions.any fun m => m ≤ (link_redemptions link.id db : Int) := by
  have hp : (fun c : PromotionalLinkClick => decide (c.promotional_link_id = link.id) &&
      decide (c.redemption_status = some "redeemed")) =
      fun c => used c && decide (c.promotional_link_id = link.id) := by
    funext c
    exact Bool.and_comm _ _
  unfold link_full link_redemptions uses
  rw [hp]

/-- A start of the user stands in front of the offer of the link, and what it
has read is what is stored. -/
structure Ready (link : PromotionalLink) (v : Nat) (click : PromotionalLinkClick)
    (s : Session Db) : Prop where
  known : link ∈ s.stored.promotional_links.rows
  unused : redemptions link.id v s.stored = 0
  room : link_full link s.stored = false
  click : click = { pending link v with id := s.stored.promotional_link_clicks.nextKey }
  same : SameOffers (s.stored.apply (.addClick (pending link v))) s.view

/-- One redemption more, that of the user and the link, and what it gives. -/
structure Granted (link : PromotionalLink) (v : Nat) (s t : Db) : Prop where
  links : t.promotional_links = s.promotional_links
  uses : ∀ q, uses q t = uses q s + if q link.id v then 1 else 0
  given : link.offer_type ≠ "free_subscription" → ∀ l u,
    gifts l u t = gifts l u s + if l = link.id && u = v then 1 else 0
  kept : link.offer_type = "free_subscription" → ∀ l u, gifts l u t = gifts l u s
  subscriptions : ∀ u p, plan_subscriptions u p t = plan_subscriptions u p s +
    if v = u && gives_plan s.promotional_links p link.id then 1 else 0

section
variable {link : PromotionalLink} {v : Nat} {s t : Db}

theorem Granted.once (g : Granted link v s t) (hunused : redemptions link.id v s = 0)
    (hold : ∀ l u, redemptions l u s ≤ 1) (l u : Nat) : redemptions l u t ≤ 1 := by
  have hbefore := hold l u
  unfold redemptions at hbefore hunused ⊢
  rw [g.uses]
  by_cases hl : link.id = l ∧ v = u
  · rw [hl.1, hl.2] at hunused
    rw [hunused]
    simp [hl.1, hl.2]
  · simp only [Bool.and_eq_true, decide_eq_true_eq, hl, if_false]
    exact hbefore

theorem Granted.room (g : Granted link v s t) (hknown : link ∈ s.promotional_links.rows)
    (hroom : link_full link s = false) {link' : PromotionalLink}
    (hl : link' ∈ s.promotional_links.rows) {m : Int} (hm : link'.max_redemptions = some m)
    (hold : (link_redemptions link'.id s : Int) ≤ max m 0) :
    (link_redemptions link'.id t : Int) ≤ max m 0 := by
  unfold link_redemptions at hold ⊢
  rw [g.uses]
  by_cases hid : link.id = link'.id
  · have hsame : link = link' := Table.key_unique _ hknown hl hid
    subst hsame
    rw [link_full_iff, hm] at hroom
    have hlt : ¬m ≤ (link_redemptions link.id s : Int) := of_decide_eq_false hroom
    unfold link_redemptions at hlt
    simp only [decide_true, if_true]
    omega
  · simp only [hid, decide_false, Bool.false_eq_true, if_false]
    exact hold

theorem Granted.paired (g : Granted link v s t) (hknown : link ∈ s.promotional_links.rows)
    {link' : PromotionalLink} (hl : link' ∈ s.promotional_links.rows)
    (hne : link'.offer_type ≠ "free_subscription") {u : Nat}
    (hold : gifts link'.id u s = redemptions link'.id u s) :
    gifts link'.id u t = redemptions link'.id u t := by
  unfold redemptions at hold ⊢
  rw [g.uses]
  by_cases hsub : link.offer_type = "free_subscription"
  · have hid : ¬link.id = link'.id := fun hid =>
      hne (Table.key_unique _ hknown hl hid ▸ hsub)
    rw [g.kept hsub, hold]
    simp [hid]
  · rw [g.given hsub, hold]
    simp only [eq_comm]

/-- A redemption that finds room, and is the user's first one of the link. -/
theorem Granted.fair (g : Granted link v s t) (hknown : link ∈ s.promotional_links.rows)
    (hunused : redemptions link.id v s = 0) (hroom : link_full link s = false) (h : Fair s) :
    Fair t where
  once := g.once hunused h.once
  room link' hl m hm := by
    rw [g.links] at hl
    exact g.room hknown hroom hl hm (h.room link' hl m hm)
  gifts link' hl hne u := by
    rw [g.links] at hl
    exact g.paired hknown hl hne (h.gifts link' hl hne u)

theorem Granted.plans (g : Granted link v s t) (u p : Nat) :
    plan_subscriptions u p t + plan_redemptions u p s =
      plan_subscriptions u p s + plan_redemptions u p t := by
  have hred : plan_redemptions u p t = plan_redemptions u p s +
      if v = u && gives_plan s.promotional_links p link.id then 1 else 0 := by
    have hq := g.uses fun l u' => u' = u && gives_plan s.promotional_links p l
    unfold plan_redemptions
    rw [g.links]
    exact hq
  have hsubs := g.subscriptions u p
  omega

end

/-- The offer is given, and its click is a redeemed one. -/
theorem gives_granted {link : PromotionalLink} {v : Nat} {click : PromotionalLinkClick}
    {s : Session Db} (h : Ready link v click s) (now : Datetime) {c : Change}
    (hlinks : (s.view.apply c).promotional_links = s.view.promotional_links)
    (hclicks : (s.view.apply c).promotional_link_clicks = s.view.promotional_link_clicks)
    (hgifts : link.offer_type ≠ "free_subscription" → ∀ l u,
      gifts l u (s.view.apply c) = gifts l u s.view + if l = link.id && u = v then 1 else 0)
    (hkept : link.offer_type = "free_subscription" → ∀ l u,
      gifts l u (s.view.apply c) = gifts l u s.view)
    (hsubs : ∀ u p, plan_subscriptions u p (s.view.apply c) = plan_subscriptions u p s.view +
      if v = u && gives_plan s.stored.promotional_links p link.id then 1 else 0) :
    Gives s.stored ((s.view.apply c).apply (.setClick click (redeemed click now))) := by
  have hstored : ∀ l u, gifts l u s.view = gifts l u s.stored := h.same.gifts
  have hrows : ∀ u p, plan_subscriptions u p s.view = plan_subscriptions u p s.stored := by
    intro u p
    unfold plan_subscriptions
    rw [h.same.subscriptions]
    rfl
  have granted : Granted link v s.stored
      ((s.view.apply c).apply (.setClick click (redeemed click now))) :=
    { links := hlinks.trans h.same.links
      uses := fun q => uses_redeemed q now h.click (hclicks.trans h.same.clicks)
      given := fun hne l u => (hgifts hne l u).trans (by rw [hstored])
      kept := fun hsub l u => (hkept hsub l u).trans (hstored l u)
      subscriptions := fun u p => (hsubs u p).trans (by rw [hrows]) }
  refine ⟨granted.links, fun n r hr => ?_, granted.fair h.known h.unused h.room, granted.plans⟩
  have hlt := s.stored.promotional_link_clicks.key_lt_nextKey (Table.get_eq_some _ |>.mp hr).1
  have hne : n ≠ click.id := by
    rw [(Table.get_eq_some _ |>.mp hr).2] at hlt
    rw [h.click]
    exact Nat.ne_of_lt hlt
  refine ⟨r, ?_, rfl⟩
  rw [get_set_click]
  change (if n = click.id then _ else _) = _
  rw [if_neg hne, hclicks, h.same.clicks]
  exact Table.get_insert_some hr

/-! ## The parts of a start -/

/-- What waits for a commit is none of the links. -/
def Settled (s : Session Db) : Prop := SameOffers s.stored s.view

/-- The click stands in front of the session and has not redeemed its link. -/
def Unused (click : PromotionalLinkClick) (s : Session Db) : Prop :=
  Gives s.stored s.view ∧
    ∃ r, s.view.promotional_link_clicks.get click.id = some r ∧ used r = false

theorem settled_opened (t : Db) : Settled (.opened t) := SameOffers.refl t

theorem settled_part {α : Type} {x : Tx α} (hx : x.Writes no_offer) {s : Session Db}
    (hs : Settled s) : x.wp Gives (fun _ => Settled) (fun _ => Settled) s :=
  hx.wp (fun _ _ hc hs => hs.trans (same_offers_change hc _))
    (fun _ hs => ⟨gives_same hs, fun t _ => settled_opened t⟩) hs

section
variable {link : PromotionalLink} {v : Nat} {click : PromotionalLinkClick} {s : Session Db}

/-- The click of a start, right after it is added. -/
theorem unused_added {t w : Db} (h : SameOffers (t.apply (.addClick (pending link v))) w)
    (hclick : click = { pending link v with id := t.promotional_link_clicks.nextKey }) :
    Unused click ⟨t, w⟩ := by
  have hget : w.promotional_link_clicks.get click.id =
      some { pending link v with id := t.promotional_link_clicks.nextKey } := by
    rw [h.clicks, hclick]
    exact Table.get_insert_new (accepts_click _ _)
  exact ⟨(gives_added _ rfl).trans (gives_same h), _, hget, rfl⟩

theorem Ready.unused_click (h : Ready link v click s) : Unused click s :=
  unused_added h.same h.click

/-- The click is settled as one that brings nothing. The message may fail. -/
theorem wp_settle (sends : Reply → Bool) (r : Reply) {status : String}
    (hp : click.redemption_status = some "pending") (hnew : status ≠ "pending")
    (hused : status ≠ "redeemed") (h : Unused click s) :
    (settle_click sends click (clicked click status) r).wp Gives (fun _ => Settled)
      (fun _ => Unused click) s := by
  obtain ⟨hgives, row, hrow, hold⟩ := h
  have hset : used (.merge click (clicked click status) row) = false := by
    simp [used, PromotionalLinkClick.merge, clicked, col, hp, hnew, hused]
  refine Prog.wp_bind (Prog.wp_flush fun _ => Prog.wp_bind (Prog.wp_publish ?_ fun t ht => ?_))
  · exact hgives.trans (gives_set (c := clicked click status) hrow hold hset)
  · have hrow' : (s.view.apply (.setClick click (clicked click status))).promotional_link_clicks.get
        click.id = some (.merge click (clicked click status) row) := by
      rw [get_set_click]
      change (if click.id = click.id then _ else _) = _
      rw [if_pos rfl, hrow]
      rfl
    obtain ⟨row', hrow'', hsame⟩ := ht.clicks _ _ hrow'
    refine Prog.wp_ite (fun _ => settled_opened t) fun _ => ?_
    exact ⟨Gives.refl t, row', hrow'', hsame.trans hset⟩

/-- The click is settled as a redeemed one, and the message goes out. -/
theorem wp_redeem (sends : Reply → Bool) (hsends : sends .granted = true) (now : Datetime)
    {E : PyError → Session Db → Prop}
    (h : Gives s.stored (s.view.apply (.setClick click (redeemed click now)))) :
    (settle_click sends click (redeemed click now) .granted).wp Gives (fun _ => Settled) E s := by
  refine Prog.wp_bind (Prog.wp_flush fun _ => Prog.wp_bind (Prog.wp_publish h fun t _ => ?_))
  exact Prog.wp_ite (fun _ => settled_opened t) fun hno => absurd hsends hno

/-- A part in front of the offer that writes none of the links. -/
theorem ready_part {α β : Type} {x : Tx α} {f : α → Tx β} {Q : β → Session Db → Prop}
    (hx : x.Writes no_offer) (hsilent : x.Silent) (h : Ready link v click s)
    (hf : ∀ a t, Ready link v click t → (f a).wp Gives Q (fun _ => Unused click) t) :
    (x >>= f).wp Gives Q (fun _ => Unused click) s := by
  refine Prog.wp_bind ((Prog.Silent.wp (J := Ready link v click) hx hsilent ?_ h).mono hf ?_)
  · exact fun s c hc hs => ⟨hs.known, hs.unused, hs.room, hs.click,
      hs.same.trans (same_offers_change hc _)⟩
  · exact fun _ _ ht => ht.unused_click

theorem Ready.gives_plan (h : Ready link v click s) (p : Nat) :
    gives_plan s.stored.promotional_links p link.id =
      (link.offer_type = "free_subscription" && link.plan_id = some p) := by
  have hget : s.stored.promotional_links.get link.id = some link :=
    (Table.get_eq_some _).mpr ⟨h.known, rfl⟩
  unfold promo_links.gives_plan
  rw [hget]
  rfl

/-- A gift of a link that gives no subscription. -/
theorem wp_gift (h : Ready link v click s) (htype : link.offer_type ≠ "free_subscription")
    (sends : Reply → Bool) (hsends : sends .granted = true) (now : Datetime)
    {e : TomanLedgerEntry} (he : ∀ l u, is_gift l u e = (l = link.id && u = v)) :
    (do
      let _ ← add_ledger e
      settle_click sends click (redeemed click now) .granted : Tx Unit).wp Gives
        (fun _ => Settled) (fun _ => Unused click) s := by
  unfold add_ledger
  refine Prog.wp_bind (Prog.wp_bind (Prog.wp_read (Prog.wp_bind (Prog.wp_flush fun hadm => ?_))))
  have hacc : s.view.ledger.Accepts e := of_decide_eq_true hadm
  refine Prog.wp_pure (wp_redeem sends hsends now (gives_granted h now rfl rfl ?_ ?_ ?_))
  · intro _ l u
    rw [gifts_insert l u s.view e hacc, he l u]
  · exact fun hsub => absurd hsub htype
  · intro u p
    rw [h.gives_plan]
    simp only [htype, decide_false, Bool.false_and, Bool.and_false, Bool.false_eq_true, if_false]
    rfl

theorem wp_credit (h : Ready link v click s) (htype : link.offer_type ≠ "free_subscription")
    (sends : Reply → Bool) (hsends : sends .granted = true) (now : Datetime)
    (user : UserPreference) (hv : user.id = v) :
    (grant_credit now sends user link click).wp Gives (fun _ => Settled)
      (fun _ => Unused click) s := by
  unfold grant_credit
  refine ready_part (writes_account user fun _ => trivial) (silent_account user) h
    fun account t ht => ?_
  refine ready_part (Prog.writes_lift _) (Prog.silent_lift _) ht fun amount t ht => ?_
  refine ready_part (Prog.writes_flush trivial) (Prog.silent_flush _) ht fun _ t ht => ?_
  refine wp_gift ht htype sends hsends now fun l u => ?_
  simp [is_gift, link_entry, Dict.get, hv, eq_comm, Bool.and_comm]

theorem wp_discount (h : Ready link v click s) (htype : link.offer_type ≠ "free_subscription")
    (sends : Reply → Bool) (hsends : sends .granted = true) (now : Datetime) (percent : String)
    (user : UserPreference) (hv : user.id = v) :
    (grant_discount now sends user link click percent).wp Gives (fun _ => Settled)
      (fun _ => Unused click) s := by
  unfold grant_discount
  refine ready_part (writes_account user fun _ => trivial) (silent_account user) h
    fun account t ht => ?_
  refine wp_gift ht htype sends hsends now fun l u => ?_
  simp [is_gift, link_entry, Dict.get, hv, eq_comm, Bool.and_comm]

/-- The subscription of a link. -/
theorem wp_subscription (h : Ready link v click s) (htype : link.offer_type = "free_subscription")
    (sends : Reply → Bool) (hsends : sends .granted = true) (now : Datetime)
    (user : UserPreference) (hv : user.id = v) :
    (grant_subscription now sends user link click).wp Gives (fun _ => Settled)
      (fun _ => Unused click) s := by
  have hp : click.redemption_status = some "pending" := by
    rw [h.click]
    rfl
  have hsettle : ∀ t status r, status ≠ "pending" → status ≠ "redeemed" → Ready link v click t →
      (settle_click sends click (clicked click status) r).wp Gives (fun _ => Settled)
        (fun _ => Unused click) t := fun t status r hnew hused ht =>
    wp_settle sends r hp hnew hused ht.unused_click
  unfold grant_subscription
  cases hplan : link.plan_id.filter (· ≠ 0) with
  | none => exact hsettle s _ _ (by decide) (by decide) h
  | some plan_id =>
    have hid : link.plan_id = some plan_id := by
      rw [Option.filter_eq_some_iff] at hplan
      exact hplan.1
    refine ready_part (Prog.writes_read _) (Prog.silent_read _) h fun plan t ht => ?_
    cases plan with
    | none => exact hsettle t _ _ (by decide) (by decide) ht
    | some plan =>
      refine ready_part (Prog.writes_read _) (Prog.silent_read _) ht fun existing t ht => ?_
      rcases existing with _ | ⟨x, _ | ⟨y, rest⟩⟩
      · refine ready_part (Prog.writes_lift _) (Prog.silent_lift _) ht fun duration t ht => ?_
        refine ready_part (Prog.writes_lift _) (Prog.silent_lift _) ht fun expires_at t ht => ?_
        refine Prog.wp_bind (Prog.wp_flush fun _ => ?_)
        refine wp_redeem sends hsends now (gives_granted ht now rfl rfl ?_ ?_ ?_)
        · exact fun hne => absurd htype hne
        · exact fun _ _ _ => rfl
        · intro u p
          rw [ht.gives_plan]
          unfold plan_subscriptions
          simp only [Db.apply]
          rw [Table.count_insert (Table.accepts_of_no_unique rfl)]
          simp [Row.setKey, hv, htype, hid]
      · exact hsettle t _ _ (by decide) (by decide) ht
      · exact Prog.wp_throw ht.unused_click

theorem wp_offer (h : Ready link v click s) (sends : Reply → Bool)
    (hsends : sends .granted = true) (now : Datetime) (percent : String)
    (user : UserPreference) (hv : user.id = v) :
    (apply_promotional_offer now sends percent user link click).wp Gives (fun _ => Settled)
      (fun _ _ => True) s := by
  have hp : click.redemption_status = some "pending" := by
    rw [h.click]
    rfl
  have hfail : ∀ t r, Unused click t →
      (settle_click sends click (clicked click "failed") r).wp Gives (fun _ => Settled)
        (fun _ => Unused click) t := fun t r ht =>
    wp_settle sends r hp (by decide) (by decide) ht
  have hgrant : (grant_offer now sends percent user link click).wp Gives (fun _ => Settled)
      (fun _ => Unused click) s := by
    unfold grant_offer
    refine Prog.wp_ite (fun hcredit => ?_) fun _ => ?_
    · exact wp_credit h (by rw [hcredit]; decide) sends hsends now user hv
    refine Prog.wp_ite (fun hsub => ?_) fun _ => ?_
    · exact wp_subscription h hsub sends hsends now user hv
    refine Prog.wp_ite (fun hdiscount => ?_) fun _ => ?_
    · exact wp_discount h (by rw [hdiscount]; decide) sends hsends now percent user hv
    · exact hfail s _ h.unused_click
  refine Prog.wp_bind (Prog.wp_attempt (hgrant.mono (fun _ t ht => ?_) fun _ t ht => ?_))
  · exact Prog.wp_pure ht
  · exact (hfail t _ ht).mono (fun _ _ hs => hs) fun _ _ _ => trivial

end

/-- The question of the handler, and its answer. -/
theorem no_redemption {l v : Nat} {db : Db}
    (h : (db.promotional_link_clicks.rows.filter fun c => c.promotional_link_id = l &&
      c.user_id = v && c.redemption_status = some "redeemed") = []) : redemptions l v db = 0 := by
  rw [List.filter_eq_nil_iff] at h
  refine List.countP_eq_zero.mpr fun c hc => ?_
  have hno := h c hc
  unfold used
  rwa [Bool.and_comm]

/-- A start with the code of a link. -/
theorem wp_follow_offer (sends : Reply → Bool) (hsends : sends .granted = true) (now : Datetime)
    (percent : String) (user : UserPreference) (code : String) {s : Session Db}
    (hs : Settled s) :
    (follow_offer now sends percent user code).wp Gives (fun _ => Settled)
      (fun _ _ => True) s := by
  have hreply : ∀ r, (reply_text sends r).wp Gives (fun _ => Settled) (fun _ _ => True) s :=
    fun r => Prog.wp_ite (fun _ => hs) fun _ => trivial
  unfold follow_offer
  refine Prog.wp_bind (Prog.wp_read ?_)
  cases hlink : s.view.promotional_links.first fun l =>
    l.code = code && l.is_active = some true with
  | none => exact hreply _
  | some link =>
    refine Prog.wp_ite (fun _ => hreply _) fun _ => ?_
    refine Prog.wp_bind (Prog.wp_read (Prog.wp_bind (Prog.wp_flush fun _ => ?_)))
    refine Prog.wp_bind (Prog.wp_read ?_)
    have hsame : SameOffers (s.stored.apply (.addClick (pending link user.id)))
        (s.view.apply (.addClick (pending link user.id))) := by
      refine ⟨hs.links, ?_, hs.subscriptions, hs.gifts⟩
      simp only [Db.apply]
      rw [hs.clicks]
    have hid : ({ pending link user.id with
        id := s.view.promotional_link_clicks.nextKey } : PromotionalLinkClick) =
        { pending link user.id with id := s.stored.promotional_link_clicks.nextKey } := by
      rw [hs.clicks]
    have hsettle : ∀ status r, status ≠ "pending" → status ≠ "redeemed" →
        (settle_click sends
          { pending link user.id with id := s.view.promotional_link_clicks.nextKey }
          (clicked { pending link user.id with id := s.view.promotional_link_clicks.nextKey }
            status) r).wp Gives (fun _ => Settled) (fun _ _ => True)
          ⟨s.stored, s.view.apply (.addClick (pending link user.id))⟩ :=
      fun status r hnew hused => (wp_settle sends r rfl hnew hused (unused_added hsame hid)).mono
        (fun _ _ h => h) fun _ _ _ => trivial
    split
    · exact trivial
    · exact hsettle "already_used" .used_before (by decide) (by decide)
    · rename_i hnone
      refine Prog.wp_bind (Prog.wp_read (Prog.wp_ite (fun _ => ?_) fun hroom => ?_))
      · exact hsettle "failed" .no_room (by decide) (by decide)
      · have huses : ∀ q, uses q (s.view.apply (.addClick (pending link user.id))) =
            uses q s.stored := fun q => by
          rw [uses_added q s.view rfl]
          unfold uses
          rw [hs.clicks]
        have hready : Ready link user.id
            { pending link user.id with id := s.view.promotional_link_clicks.nextKey }
            ⟨s.stored, s.view.apply (.addClick (pending link user.id))⟩ := by
          refine ⟨?_, ?_, ?_, hid, hsame⟩
          · rw [← hs.links]
            exact (Table.first_mem hlink).1
          · exact (huses _).symm.trans (no_redemption hnone)
          · have hfull : link_full link (s.view.apply (.addClick (pending link user.id))) = false :=
              eq_false_of_ne_true hroom
            rw [link_full_iff] at hfull ⊢
            unfold link_redemptions at hfull ⊢
            rw [huses] at hfull
            exact hfull
        exact wp_offer hready sends hsends now percent user rfl

theorem refers_no_offer : Refers no_offer where
  toLooks := greets_no_offer.toLooks
  user _ _ := trivial
  event _ := trivial
  gifted _ _ := trivial
  reward _ _ _ _ _ := fun _ _ => by simp [is_gift, reward_entry]

theorem wp_start (s : Start) (hsends : s.sends .granted = true) (t : Db) :
    s.prog.wp Gives (fun _ _ => True) (fun _ _ => True) (.opened t) := by
  have hname : ∀ user t, Settled t → (name_admin s.sender user).wp Gives (fun _ _ => True)
      (fun _ _ => True) t := fun user t ht =>
    (settled_part (writes_name_admin (fun _ _ => trivial) s.sender user) ht).mono
      (fun _ _ _ => trivial) fun _ _ _ => trivial
  unfold Start.prog cmd_start
  have hget := settled_part (writes_get_user greets_no_offer s.sender.id s.sender.first_name
    s.sender.username) (settled_opened t)
  refine Prog.wp_bind (hget.mono (fun user t ht => ?_) fun _ _ _ => trivial)
  cases start_payload s.arg with
  | referral token =>
    have href := settled_part (writes_follow_referral refers_no_offer user token) ht
    exact Prog.wp_bind (href.mono (fun user t ht => hname user t ht) fun _ _ _ => trivial)
  | offer code =>
    have hoffer := wp_follow_offer s.sends hsends s.now s.percent user code ht
    exact Prog.wp_bind (hoffer.mono (fun _ t ht => hname user t ht) fun _ _ _ => trivial)
  | other => exact hname user t ht

/-! ## Law -/

/-- LAW: When the messages of given offers go out, and each commit is made on a
store that still answers what its start has read, the promotional links stay
fair in every run of starts side by side. Each subscription that a user gets is
that of one redemption more. -/
theorem the_links_stay_fair {ι : Type} [DecidableEq ι] (db : Db) (starts : ι → Start)
    (ms : List (Move ι)) (hdb : Fair db) (hsends : ∀ i, (starts i).sends .granted = true)
    (hms : (System.init db fun i => (starts i).prog).FreshCommits ms) :
    let t := ((System.init db fun i => (starts i).prog).run ms).store
    Fair t ∧ ∀ v p, plan_subscriptions v p t + plan_redemptions v p db =
      plan_subscriptions v p db + plan_redemptions v p t := by
  intro t
  have hgives : Gives db t := fresh_commits_allowed Gives.refl (fun _ _ _ h h' => h.trans h')
    (fun i t _ => wp_start (starts i) (hsends i) t) hms
  exact ⟨hgives.fair hdb, hgives.subscriptions⟩

def gift_link : PromotionalLink where
  id := 1
  code := "spring"
  title := "spring"
  offer_type := "credit_grant"
  offer_value_toman := some 50000
  max_redemptions := some 1

def shop_with_link : Db := { shop with promotional_links := Table.empty.insert gift_link }

/-- The customer opens the link, and the messages go out or not. -/
def open_link (goes_out : Bool) : Start where
  now := noon
  sends _ := goes_out
  percent := "0"
  sender := { id := 100 }
  arg := some "offer_spring"

theorem shop_with_link_is_fair : Fair shop_with_link where
  once _ _ := Nat.zero_le 1
  room link hl m hm := by
    have hlink : link = gift_link := by
      have hrows : shop_with_link.promotional_links.rows = [gift_link] := by decide
      rw [hrows] at hl
      exact List.mem_singleton.mp hl
    subst hlink
    cases hm
    decide
  gifts _ _ _ _ := rfl

/-- The message of the gift does not go out: the click is called a failed one,
and the next start gives the gift again. -/
theorem a_failed_message_gives_the_gift_again :
    ¬∀ (db : Db) (starts : Bool → Start) (ms : List (Move Bool)), Fair db →
      Fair ((System.init db fun b => (starts b).prog).run ms).store := by
  intro h
  have hfair := h shop_with_link (fun _ => open_link false)
    (.replicate 30 (.step false) ++ .replicate 30 (.step true)) shop_with_link_is_fair
  have hgifts := hfair.gifts gift_link (by decide +kernel) (by decide) 1
  have honce := hfair.once 1 1
  have htwo : gifts 1 1 ((System.init shop_with_link fun _ => (open_link false).prog).run
      (.replicate 30 (.step false) ++ .replicate 30 (.step true))).store = 2 := by
    decide +kernel
  have hid : gift_link.id = 1 := rfl
  rw [hid, htwo] at hgifts
  omega

/-- The messages go out: the second start gives nothing. -/
theorem sent_messages_keep_the_link_fair :
    Fair ((System.init shop_with_link fun _ : Bool => (open_link true).prog).run
      (.replicate 30 (.step false) ++ .replicate 30 (.step true))).store := by
  refine (the_links_stay_fair shop_with_link (fun _ => open_link true) _ shop_with_link_is_fair
    (fun _ => rfl) (freshCommits_append ?_ ?_)).1
  · exact freshCommits_alone trivial 30
  · refine freshCommits_alone ?_ 30
    rw [run_alone_ne (by decide)]
    trivial

end dr_boz.promo_links
