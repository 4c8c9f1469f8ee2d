-- Law of the attempts to redeem a link code (`link_code_routes.py`): each
-- client gets ten of them in any minute, and none is refused that leaves room.
import DrBoz.MessageCosts
import DrBoz.Lib.Runs
import DrBoz.Lib.SlidingWindows

open runs sliding_windows dr_boz.py dr_boz.message_costs

namespace dr_boz.link_attempts

def _RATE_LIMIT_WINDOW : PyFloat := 60

def _RATE_LIMIT_MAX_ATTEMPTS : Nat := 10

/-- An entry of `_rate_limit_store`. -/
abbrev Entry := PyFloat × String

/-- `_rate_limit_store`. A client that is not in it has no entries. -/
abbrev Store := String → List Entry

/-- `now - ts < _RATE_LIMIT_WINDOW` -/
def recent (now ts : PyFloat) : Bool := decide (f64 (now - ts) < _RATE_LIMIT_WINDOW)

def set_entries (store : Store) (client_ip : String) (entries : List Entry) : Store :=
  fun ip => if ip = client_ip then entries else store ip

/-- `_check_rate_limit` at the time `now`. -/
def _check_rate_limit (now : PyFloat) (store : Store) (client_ip code : String) : Bool × Store :=
  let entries := (store client_ip).filter fun entry => recent now entry.1
  if _RATE_LIMIT_MAX_ATTEMPTS ≤ entries.length then (false, set_entries store client_ip entries)
  else (true, set_entries store client_ip (entries ++ [(now, code)]))

/-- A request to redeem a code. -/
structure Attempt where
  now : PyFloat
  client_ip : String
  code : String

structure State where
  store : Store
  clock : PyFloat
  /-- The attempts that went on to the table of codes, oldest first. -/
  admitted : List Attempt

def start (clock : PyFloat) : State := ⟨fun _ => [], clock, []⟩

def passes (s : State) (a : Attempt) : Bool :=
  (_check_rate_limit a.now s.store a.client_ip a.code).1

/-- `validate_link_code`, up to the answer 429. -/
def step (s : State) (a : Attempt) : State where
  store := (_check_rate_limit a.now s.store a.client_ip a.code).2
  clock := a.now
  admitted := if passes s a then s.admitted ++ [a] else s.admitted

/-- The clock does not go back. -/
def OnTime (s : State) (a : Attempt) : Prop := s.clock ≤ a.now

/-- The attempts of a client that still count at a time. -/
def counted (s : State) (client_ip : String) (now : PyFloat) : List Attempt :=
  s.admitted.filter fun a => a.client_ip = client_ip && recent now a.now

/-! ## The limiter of each client -/

theorem fades : Fades recent := by
  intro t now later ht hlater h
  unfold recent at *
  rw [decide_eq_true_eq] at *
  exact (f64_mono (sub_nonneg.mpr ht) (sub_le_sub_right hlater t)).trans_lt h

def entry_of (a : Attempt) : Entry := (a.now, a.code)

/-- The entries of the attempts of a client that went on. -/
def entries_of (s : State) (client_ip : String) : List Entry :=
  (s.admitted.filter fun a => a.client_ip = client_ip).map entry_of

theorem counted_length (s : State) (client_ip : String) (now : PyFloat) :
    (counted s client_ip now).length =
      (window recent Prod.fst now (entries_of s client_ip)).length := by
  unfold counted window entries_of
  rw [List.filter_map, List.length_map, List.filter_filter]
  congr 1
  refine List.filter_congr fun a _ => ?_
  rw [Bool.and_comm]
  rfl

/-- The function is the limiter of its client. -/
theorem check_rate_limit_eq (now : PyFloat) (store : Store) (client_ip code : String) :
    _check_rate_limit now store client_ip code =
      ((attempt recent _RATE_LIMIT_MAX_ATTEMPTS Prod.fst (store client_ip) (now, code)).1,
        set_entries store client_ip
          (attempt recent _RATE_LIMIT_MAX_ATTEMPTS Prod.fst (store client_ip) (now, code)).2) := by
  unfold _check_rate_limit attempt window
  dsimp only
  split_ifs <;> rfl

/-- The store keeps as much as counts, for every client. -/
def Counts (s : State) : Prop := ∀ client_ip,
  Keeps recent _RATE_LIMIT_MAX_ATTEMPTS Prod.fst (entries_of s client_ip) (s.store client_ip)
    s.clock

theorem counts_start (clock : PyFloat) : Counts (start clock) := fun _ => Keeps.start clock

theorem passes_eq (s : State) (a : Attempt) : passes s a =
    (attempt recent _RATE_LIMIT_MAX_ATTEMPTS Prod.fst (s.store a.client_ip) (entry_of a)).1 := by
  unfold passes
  rw [check_rate_limit_eq]
  rfl

theorem entries_step (s : State) (a : Attempt) (client_ip : String) :
    entries_of (step s a) client_ip =
      if a.client_ip = client_ip ∧ passes s a = true then
        entries_of s client_ip ++ [entry_of a]
      else entries_of s client_ip := by
  unfold entries_of step
  dsimp only
  by_cases hpasses : passes s a = true
  · by_cases hip : a.client_ip = client_ip
    · rw [if_pos hpasses, if_pos ⟨hip, hpasses⟩, List.filter_append, List.map_append]
      simp [hip]
    · rw [if_pos hpasses, if_neg fun h => hip h.1, List.filter_append, List.map_append]
      simp [hip]
  · rw [if_neg hpasses, if_neg fun h => hpasses h.2]

theorem counts_step (s : State) (a : Attempt) (h : Counts s) (htime : OnTime s a) :
    Counts (step s a) := by
  intro client_ip
  have hstore : (step s a).store client_ip = if client_ip = a.client_ip then
      (attempt recent _RATE_LIMIT_MAX_ATTEMPTS Prod.fst (s.store a.client_ip) (entry_of a)).2
      else s.store client_ip := by
    unfold step
    dsimp only
    rw [check_rate_limit_eq]
    rfl
  rw [entries_step, hstore, passes_eq]
  by_cases hip : client_ip = a.client_ip
  · subst hip
    have hnext := (h a.client_ip).attempt fades (e := entry_of a) htime
    simp only [true_and, if_true]
    exact hnext
  · rw [if_neg hip, if_neg fun h => hip h.1.symm]
    exact (h client_ip).later htime

/-- LAW: As long as the clock does not go back, an attempt of a client goes on to the codes
exactly if fewer than ten of this client's attempts of the last minute did, and at no time have
more than ten of them in a minute: guessing is slowed down for every client, and no client pays for
what others, or its own refused attempts, do. -/
theorem each_client_has_ten_attempts_a_minute {clock : PyFloat} {es : List Attempt}
    (h : Each step OnTime (start clock) es) :
    Each step (fun s a => passes s a = true ↔
        (counted s a.client_ip a.now).length < _RATE_LIMIT_MAX_ATTEMPTS) (start clock) es ∧
      ∀ client_ip now, (after step (start clock) es).clock ≤ now →
        (counted (after step (start clock) es) client_ip now).length ≤
          _RATE_LIMIT_MAX_ATTEMPTS := by
  refine ⟨(h.finds counts_step (counts_start clock)).mono fun s a hs => ?_,
    fun client_ip now hnow => ?_⟩
  · rw [passes_eq, counted_length]
    exact (hs.1 a.client_ip).passes_iff (e := entry_of a) hs.2
  · rw [counted_length]
    exact (h.keeps counts_step (counts_start clock) client_ip).bound hnow

theorem each_client_has_ten_attempts_a_minute_two :
    Each step (fun s a => passes s a = true ↔
        (counted s a.client_ip a.now).length < _RATE_LIMIT_MAX_ATTEMPTS) (start 0)
        [⟨1, "a", "123456"⟩, ⟨2, "b", "123457"⟩] ∧
      ∀ client_ip now, (after step (start 0) [⟨1, "a", "123456"⟩, ⟨2, "b", "123457"⟩]).clock ≤ now →
        (counted (after step (start 0) [⟨1, "a", "123456"⟩, ⟨2, "b", "123457"⟩])
          client_ip now).length ≤ _RATE_LIMIT_MAX_ATTEMPTS :=
  each_client_has_ten_attempts_a_minute
    ⟨show (0 : ℚ) ≤ 1 by norm_num, show (1 : ℚ) ≤ 2 by norm_num, trivial⟩

end dr_boz.link_attempts
