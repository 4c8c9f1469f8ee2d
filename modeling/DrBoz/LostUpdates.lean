-- Two requests side by side on one account. Nothing locks the account row, and
-- nothing compares its version: a request writes the sums that it has computed
-- from what it has read. So the second of two overlapping requests puts back
-- what the first has taken. When no request takes effect on a store that has
-- changed under its reads, two requests are as good as one after the other.
import DrBoz.Calls
import DrBoz.Lib.Interleaving

open keyed_table unit_of_work dr_boz.py dr_boz.models dr_boz.toman_billing dr_boz.billing_runs
open dr_boz.codex_capacity dr_boz.chat_runs dr_boz.calls

namespace dr_boz.lost_updates

/-- A request that changes a billing account. -/
inductive Request where
  | chat (c : ChatCall)
  | generic (c : GenericCall)
  | topup (c : TopupCall)
  | approve (request_id : Nat) (admin_note : Option String)

def Request.call : Request → Call
  | .chat c => .chat c
  | .generic c => .generic c
  | .topup c => .topup c
  | .approve id note => .approve id note

def Request.prog (now : Datetime) (r : Request) : Tx Unit := r.call.committed now

/-- The store after one request that runs alone. -/
def after (now : Datetime) (r : Request) (db : Db) : Db := ((r.prog now).run (.opened db)).2.stored

/-- Two requests, each in a session of its own. -/
def side_by_side (db : Db) (now : Bool → Datetime) (r : Bool → Request) :
    System Bool Db Change PyError Unit :=
  .init db fun b => (r b).prog (now b)

/-- The store is what the two requests leave one after the other, in some
order. -/
def OneAfterTheOther (db : Db) (now : Bool → Datetime) (r : Bool → Request) (db' : Db) : Prop :=
  db' = after (now true) (r true) (after (now false) (r false) db) ∨
    db' = after (now false) (r false) (after (now true) (r true) db)

/-- No schedule of the two requests loses an update. -/
def LostUpdateFree (db : Db) (now : Bool → Datetime) (r : Bool → Request) : Prop :=
  ∀ ms, (∀ b, (((side_by_side db now r).run ms).worker b).closed = true) →
    OneAfterTheOther db now r ((side_by_side db now r).run ms).store

/-- LAW: two requests that have ended are as good as one after the other, when
each has taken effect on a store that still answers what it has read, and
nobody came between the two commits of an approval. -/
theorem sound_requests_lose_no_update (db : Db) (now : Bool → Datetime) (r : Bool → Request)
    (ms : List (Move Bool)) (hsound : (side_by_side db now r).SoundRun true (fun _ _ => True) ms)
    (hclosed : ∀ b, (((side_by_side db now r).run ms).worker b).closed = true) :
    OneAfterTheOther db now r ((side_by_side db now r).run ms).store := by
  unfold OneAfterTheOther after
  unfold side_by_side at *
  obtain ⟨is, hserial, hnodup, hall⟩ :=
    sound_runs_are_serial hsound fun b => closed_ended ms (hclosed b)
  rcases both_orders hnodup fun b => (hall b).mpr (.inr ⟨rfl, hclosed b⟩) with rfl | rfl
  · have h := serial_pair hserial
    exact .inl h
  · have h := serial_pair hserial
    exact .inr h

/-! ## Two chats of the customer -/

def two_chats (b : Bool) : Request := .chat (small_chat (if b then "late" else "early"))

/-- The second chat has read the account before the first one commits. -/
def overlap : List (Move Bool) :=
  .step true :: .replicate 11 (.step false) ++ .replicate 10 (.step true)

/-- Both chats are paid in the ledger, and the balance has paid for one. -/
theorem overlapping_chats_lose_an_update : ¬LostUpdateFree shop (fun _ => noon) two_chats := by
  intro h
  have hlost := h overlap (by decide +kernel)
  revert hlost
  unfold OneAfterTheOther
  decide +kernel

/-- One after the other, the same chats pay for both. -/
theorem chats_in_turn_lose_no_update :
    OneAfterTheOther shop (fun _ => noon) two_chats
      ((side_by_side shop (fun _ => noon) two_chats).run
        (.replicate 11 (.step false) ++ .replicate 11 (.step true))).store := by
  refine sound_requests_lose_no_update shop (fun _ => noon) two_chats _
    (soundRun_append ?_ ?_) (by decide +kernel)
  · exact sound_alone (fun _ => trivial) (fun _ => trivial) (by decide +kernel) 11
  · refine sound_alone (fun _ => trivial) (fun _ => ?_) (by decide +kernel) 11
    rw [run_alone_ne (by decide)]
    trivial

end dr_boz.lost_updates
