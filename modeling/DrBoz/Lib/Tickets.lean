-- Codes that admit once. An office issues tickets, and a redemption looks its
-- code up first and voids it in a later step. Where each void still finds the
-- ticket that was looked up, and no code is out for two accounts, each ticket
-- opens at most one session, in its time and for its account.
import DrBoz.Lib.Runs
import Mathlib.Data.List.Nodup
import Mathlib.Order.Basic

open runs

namespace tickets
variable {σ κ α ρ φ : Type}

structure Ticket (κ α : Type) where
  code : κ
  account : α
  issued : Int
  expires : Int
deriving DecidableEq, Repr

/-- A store of tickets. `replaces` is what a creation reads before it writes,
and `issue` may be refused. -/
structure Office (σ κ α ρ φ : Type) where
  lifetime : ρ → Int
  empty : σ
  replaces : σ → Int → α → List Nat
  issue : σ → List Nat → Nat → Ticket κ α → Option σ
  find : σ → Int → φ → Option (Nat × κ)
  void : σ → Nat → κ → σ
  holds : σ → Nat → Prop

/-- A ticket, and when its code was presented. -/
structure Session where
  ticket : Nat
  presented : Int
deriving DecidableEq, Repr

/-- What a redemption has found. -/
structure Found (κ : Type) where
  ticket : Nat
  presented : Int
  code : κ
deriving DecidableEq, Repr

structure State (σ κ α ρ : Type) where
  store : σ
  clock : Int := 0
  issues : List (Ticket κ α) := []
  creations : List (Option (ρ × α × List Nat)) := []
  redemptions : List (Option (Found κ)) := []
  sessions : List Session := []

inductive Event (κ α ρ φ : Type) where
  | tick (n : Nat)
  | ask (issuer : ρ) (account : α)
  | create (i : Nat) (code : κ)
  | look (form : φ)
  | redeem (i : Nat)
deriving DecidableEq, Repr

variable (O : Office σ κ α ρ φ)

def Office.ticket (s : State σ κ α ρ) (code : κ) (issuer : ρ) (account : α) :
    Ticket κ α :=
  ⟨code, account, s.clock, s.clock + O.lifetime issuer⟩

def step (s : State σ κ α ρ) : Event κ α ρ φ → State σ κ α ρ
  | .tick n => { s with clock := s.clock + n }
  | .ask issuer account =>
    { s with
      creations := s.creations ++ [some (issuer, account, O.replaces s.store s.clock account)] }
  | .create i code =>
    match s.creations[i]? with
    | some (some (issuer, account, rows)) =>
      let s := { s with creations := s.creations.set i none }
      match O.issue s.store rows s.issues.length (O.ticket s code issuer account) with
      | none => s
      | some store => { s with store, issues := s.issues ++ [O.ticket s code issuer account] }
    | _ => s
  | .look form =>
    match O.find s.store s.clock form with
    | none => s
    | some (n, code) => { s with redemptions := s.redemptions ++ [some ⟨n, s.clock, code⟩] }
  | .redeem i =>
    match s.redemptions[i]? with
    | some (some found) =>
      { s with
        store := O.void s.store found.ticket found.code
        redemptions := s.redemptions.set i none
        sessions := s.sessions ++ [⟨found.ticket, found.presented⟩] }
    | _ => s

def start : State σ κ α ρ := { store := O.empty }

/-! ## What is wanted -/

/-- Each ticket opens one session at most. A session belongs to a ticket that
was out when its code was presented, and to no other account that held the
code then. -/
structure Safe (s : State σ κ α ρ) : Prop where
  once : (s.sessions.map (·.ticket)).Nodup
  in_time : ∀ x ∈ s.sessions, ∃ t, s.issues[x.ticket]? = some t ∧ t.issued ≤ x.presented ∧
    x.presented < t.expires
  own : ∀ x ∈ s.sessions, ∀ t u, s.issues[x.ticket]? = some t → u ∈ s.issues →
    u.code = t.code → u.issued ≤ x.presented → x.presented < u.expires → u.account = t.account

/-- The step does not meet another one half way: a void still finds the ticket
of its lookup, and a code that is issued is not out for another account. -/
def Fit (s : State σ κ α ρ) : Event κ α ρ φ → Prop
  | .create i code => ∀ issuer account rows, s.creations[i]? = some (some (issuer, account, rows)) →
    O.issue s.store rows s.issues.length (O.ticket s code issuer account) ≠ none →
    ∀ t ∈ s.issues, t.code = code → s.clock < t.expires → t.account = account
  | .redeem i => ∀ found, s.redemptions[i]? = some (some found) → O.holds s.store found.ticket
  | _ => True

/-- The store of the office follows its tickets. -/
structure Lawful (Follows : σ → List (Ticket κ α) → Prop) : Prop where
  empty : Follows O.empty []
  issue : ∀ {s ts rows t s'}, Follows s ts → O.issue s rows ts.length t = some s' →
    Follows s' (ts ++ [t])
  void : ∀ {s ts} n c, Follows s ts → Follows (O.void s n c) ts
  find : ∀ {s ts clock form n c}, Follows s ts → O.find s clock form = some (n, c) →
    ∃ t, ts[n]? = some t ∧ t.code = c ∧ clock < t.expires
  issue_holds : ∀ {s ts rows t s' m}, Follows s ts → O.issue s rows ts.length t = some s' →
    O.holds s' m → m = ts.length ∨ O.holds s m
  void_gone : ∀ {s ts n t}, Follows s ts → ts[n]? = some t → ¬O.holds (O.void s n t.code) n
  void_holds : ∀ {s n c m}, O.holds (O.void s n c) m → O.holds s m

/-! ## What a run keeps -/

variable {O} {Follows : σ → List (Ticket κ α) → Prop} {s : State σ κ α ρ}

/-- A ticket that is out at a time. -/
def Out (ts : List (Ticket κ α)) (n : Nat) (time : Int) : Prop :=
  ∃ t, ts[n]? = some t ∧ t.issued ≤ time ∧ time < t.expires

theorem getElem?_grown {ts : List (Ticket κ α)} {n : Nat} {t : Ticket κ α} (h : ts[n]? = some t)
    (u : Ticket κ α) : (ts ++ [u])[n]? = some t :=
  List.getElem?_append_left (List.getElem?_eq_some_iff.mp h).1 ▸ h

theorem Out.append {ts : List (Ticket κ α)} {n : Nat} {time : Int} (h : Out ts n time)
    (t : Ticket κ α) : Out (ts ++ [t]) n time := by
  obtain ⟨u, hu, hout⟩ := h
  exact ⟨u, getElem?_grown hu t, hout⟩

structure Inv (O : Office σ κ α ρ φ) (Follows : σ → List (Ticket κ α) → Prop) (s : State σ κ α ρ) :
    Prop where
  follows : Follows s.store s.issues
  past : ∀ t ∈ s.issues, t.issued ≤ s.clock
  apart : ∀ t ∈ s.issues, ∀ u ∈ s.issues, u.code = t.code → t.issued < u.expires →
    u.issued < t.expires → u.account = t.account
  found : ∀ x, some x ∈ s.redemptions → Out s.issues x.ticket x.presented ∧
    ∃ t, s.issues[x.ticket]? = some t ∧ t.code = x.code
  opened : ∀ x ∈ s.sessions, Out s.issues x.ticket x.presented
  once : (s.sessions.map (·.ticket)).Nodup
  gone : ∀ x ∈ s.sessions, ¬O.holds s.store x.ticket

theorem inv_start (hO : Lawful O Follows) : Inv O Follows (start O) where
  follows := hO.empty
  past := fun _ h => nomatch h
  apart := fun _ h => nomatch h
  found := fun _ h => nomatch h
  opened := fun _ h => nomatch h
  once := List.nodup_nil
  gone := fun _ h => nomatch h

theorem inv_create (hO : Lawful O Follows) (h : Inv O Follows s) {i : Nat} {code : κ}
    (hfit : Fit O s (.create i code)) : Inv O Follows (step O s (.create i code)) := by
  unfold step
  dsimp only
  cases hi : s.creations[i]? with
  | none => exact h
  | some creation =>
    cases creation with
    | none => exact h
    | some asked =>
      obtain ⟨issuer, account, rows⟩ := asked
      dsimp only
      rw [show O.ticket { s with creations := s.creations.set i none } code issuer account =
        O.ticket s code issuer account from rfl]
      cases hissue : O.issue s.store rows s.issues.length (O.ticket s code issuer account) with
      | none => exact ⟨h.follows, h.past, h.apart, h.found, h.opened, h.once, h.gone⟩
      | some store =>
        have hown := hfit issuer account rows hi (by rw [hissue]; exact fun h => nomatch h)
        refine ⟨hO.issue h.follows hissue, ?_, ?_, fun x hx => ?_,
          fun x hx => (h.opened x hx).append _, h.once, ?_⟩
        · intro t ht
          rcases List.mem_append.mp ht with hold | hnew
          · exact h.past t hold
          · rw [List.mem_singleton.mp hnew]
            exact Int.le_refl s.clock
        · intro t ht u hu hcode hleft hright
          rcases List.mem_append.mp ht with hold | hnew
          · rcases List.mem_append.mp hu with hold' | hnew'
            · exact h.apart t hold u hold' hcode hleft hright
            · rw [List.mem_singleton.mp hnew'] at hcode hright ⊢
              exact (hown t hold hcode.symm hright).symm
          · rw [List.mem_singleton.mp hnew] at hcode hleft hright ⊢
            rcases List.mem_append.mp hu with hold' | hnew'
            · exact hown u hold' hcode hleft
            · rw [List.mem_singleton.mp hnew']
        · obtain ⟨hout, t, ht, hcode⟩ := h.found x hx
          exact ⟨hout.append _, t, getElem?_grown ht _, hcode⟩
        · intro x hx hholds
          rcases hO.issue_holds h.follows hissue hholds with hnew | hold
          · obtain ⟨t, ht, -⟩ := h.opened x hx
            have hlt := (List.getElem?_eq_some_iff.mp ht).1
            omega
          · exact h.gone x hx hold

theorem inv_redeem (hO : Lawful O Follows) (h : Inv O Follows s) {i : Nat}
    (hfit : Fit O s (.redeem i)) : Inv O Follows (step O s (.redeem i)) := by
  unfold step
  dsimp only
  cases hi : s.redemptions[i]? with
  | none => exact h
  | some redemption =>
    cases redemption with
    | none => exact h
    | some found =>
      have hholds := hfit found hi
      obtain ⟨hout, t, ht, hcode⟩ := h.found found (List.mem_of_getElem? hi)
      have hvoid : ¬O.holds (O.void s.store found.ticket found.code) found.ticket := by
        rw [← hcode]
        exact hO.void_gone h.follows ht
      have hfresh : found.ticket ∉ s.sessions.map (·.ticket) := fun hmem => by
        obtain ⟨x, hx, heq⟩ := List.mem_map.mp hmem
        exact h.gone x hx (heq ▸ hholds)
      refine ⟨hO.void _ _ h.follows, h.past, h.apart, fun x hx => ?_, fun x hx => ?_, ?_,
        fun x hx hstill => ?_⟩
      · rcases List.mem_or_eq_of_mem_set hx with hold | hnew
        · exact h.found x hold
        · cases hnew
      · rcases List.mem_append.mp hx with hold | hnew
        · exact h.opened x hold
        · rw [List.mem_singleton.mp hnew]
          exact hout
      · rw [List.map_append]
        exact List.Nodup.append h.once (List.nodup_singleton _)
          (List.disjoint_singleton.mpr hfresh)
      · rcases List.mem_append.mp hx with hold | hnew
        · exact h.gone x hold (hO.void_holds hstill)
        · rw [List.mem_singleton.mp hnew] at hstill
          exact hvoid hstill

theorem inv_step (hO : Lawful O Follows) (h : Inv O Follows s) {e : Event κ α ρ φ}
    (hfit : Fit O s e) : Inv O Follows (step O s e) := by
  cases e with
  | tick n =>
    refine ⟨h.follows, fun t ht => ?_, h.apart, h.found, h.opened, h.once, h.gone⟩
    have hpast := h.past t ht
    change t.issued ≤ s.clock + n
    omega
  | ask issuer account => exact ⟨h.follows, h.past, h.apart, h.found, h.opened, h.once, h.gone⟩
  | create i code => exact inv_create hO h hfit
  | redeem i => exact inv_redeem hO h hfit
  | look form =>
    unfold step
    dsimp only
    cases hfind : O.find s.store s.clock form with
    | none => exact h
    | some answer =>
      obtain ⟨n, code⟩ := answer
      refine ⟨h.follows, h.past, h.apart, fun x hx => ?_, h.opened, h.once, h.gone⟩
      rcases List.mem_append.mp hx with hold | hnew
      · exact h.found x hold
      · cases List.mem_singleton.mp hnew
        obtain ⟨t, ht, hcode, hlive⟩ := hO.find h.follows hfind
        exact ⟨⟨t, ht, h.past t (List.mem_of_getElem? ht), hlive⟩, t, ht, hcode⟩

theorem Inv.safe (h : Inv O Follows s) : Safe s where
  once := h.once
  in_time := h.opened
  own := by
    intro x hx t u ht hu hcode hissued hlive
    obtain ⟨t', ht', hissued', hlive'⟩ := h.opened x hx
    rw [ht] at ht'
    cases ht'
    exact h.apart t (List.mem_of_getElem? ht) u hu hcode (by omega) (by omega)

/-- A run of fit steps is safe. Fitness may be judged for the stores that can
come up. -/
theorem safe_run (hO : Lawful O Follows) {P : State σ κ α ρ → Event κ α ρ φ → Prop}
    (hP : ∀ s e, Follows s.store s.issues → P s e → Fit O s e) {es : List (Event κ α ρ φ)}
    (h : Each (step O) P (start O) es) : Safe (after (step O) (start O) es) :=
  (h.keeps (fun s e hs hp => inv_step hO hs (hP s e hs.follows hp)) (inv_start hO)).safe

end tickets
