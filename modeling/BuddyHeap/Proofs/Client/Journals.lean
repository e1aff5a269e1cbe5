import BuddyHeap.Proofs.Allocator.Recording
import BuddyHeap.Proofs.Client.Runs

/-! What a run leaves in the journal. It is known from the books, action by
action, and what the client writes into its payloads leaves no mark there. -/

namespace BuddyHeap

namespace Client

def records (client : Client) : Action → List Event
  | .acquire size => (client.allocator.acquire size).events
  | .release address => (client.allocator.release address).events
  | .resize address? size => (client.allocator.resize address? size).events
  | .write .. | .setRefusal _ => []

inductive Logs (first : Client) : List (Action × Reply) → List Event → Client → Prop where
  | start : Logs first [] [] first
  | step {trace : List (Action × Reply)} {log : List Event} {before after : Client}
      {action : Action} {reply : Reply} (run : Logs first trace log before)
      (permitted : before.Permits action) (performed : before.perform action = .ok (reply, after)) :
      Logs first (trace ++ [(action, reply)]) (log ++ before.records action) after

end Client

namespace Books

def growEvents (books : Books) : List Event :=
  BuddyHeap.growEvents books.ledger.size books.config.ceiling
    (books.paging.chunkFailure? books.ledger.size)

def records (books : Books) : Action → List Event
  | .acquire size | .resize none size =>
      books.ledger.acquireEvents books.extensible books.growEvents size
  | .release address =>
      match books.owned? address with
      | some allocation => books.ledger.releaseEvents (blockOffset address) allocation
      | none => []
  | .resize (some address) size =>
      match books.owned? address with
      | some allocation => books.ledger.resizeEvents books.extensible books.growEvents
          (blockOffset address) allocation size
      | none => []
  | .write .. | .setRefusal _ => []

def log (books : Books) : List Action → List Event
  | [] => []
  | action :: actions => books.records action ++ (books.perform action).2.log actions

theorem log_append (books : Books) (first second : List Action) :
    books.log (first ++ second) = books.log first ++ (books.after first).log second := by
  induction first generalizing books with
  | nil => rfl
  | cons action actions induction =>
      rw [List.cons_append, log, log, induction, List.append_assoc]
      rfl

end Books

namespace Client

variable {client first last : Client} {books : Books} {action : Action}
  {trace : List (Action × Reply)} {log : List Event}

theorem Keeps.growEvents_eq (keeps : client.Keeps books) :
    client.allocator.heap.arena.growEvents = books.growEvents := by
  rw [Arena.growEvents, Books.growEvents, ← keeps.chunkFailure_eq,
    ← keeps.follows.allocator.heap.size_eq, keeps.follows.allocator.capacity_eq, keeps.config_eq]
  rfl

theorem Keeps.events_acquire (keeps : client.Keeps books) (size : Nat) :
    (client.allocator.acquire size).events =
      books.ledger.acquireEvents books.extensible books.growEvents size := by
  rw [keeps.follows.allocator.events_acquire, keeps.growEvents_eq, ← keeps.extensible_eq]
  rfl

theorem Keeps.exists_owned {address : Int} {size : Nat} (keeps : client.Keeps books)
    (live : client.live address = some size) : ∃ offset allocation,
      address = payloadAddress offset ∧ books.ledger.live offset = some allocation ∧
        books.owned? address = some allocation := by
  rcases keeps.follows.booked_of_live live with ⟨offset, rfl, booked⟩
  refine ⟨offset, _, rfl, booked, ?_⟩
  rw [Books.owned?, blockOffset_payloadAddress, if_pos rfl, booked]

theorem Keeps.records_eq (keeps : client.Keeps books) (permitted : client.Permits action) :
    client.records action = books.records action := by
  cases action with
  | acquire size => exact keeps.events_acquire size
  | release address =>
      rcases permitted with ⟨size, live⟩
      rcases keeps.exists_owned live with ⟨offset, allocation, rfl, booked, owned⟩
      rw [records, Books.records, owned, blockOffset_payloadAddress]
      exact keeps.follows.allocator.events_release booked
  | resize address? size =>
      cases address? with
      | none =>
          rcases keeps.follows.allocator.acquire size with ⟨⟨acquired, after⟩, acquire_eq, _⟩
          rw [records, Allocator.resize_eq_acquire, Traced.events_bind acquire_eq,
            keeps.events_acquire]
          exact List.append_nil _
      | some address =>
          rcases permitted with ⟨kept, live⟩
          rcases keeps.exists_owned live with ⟨offset, allocation, rfl, booked, owned⟩
          rw [records, Books.records, owned, blockOffset_payloadAddress, ← keeps.growEvents_eq,
            ← keeps.extensible_eq]
          exact keeps.follows.allocator.events_resize booked size
  | write address distance content => rfl
  | setRefusal cause? => rfl

theorem Logs.reaches (logs : Logs first trace log last) : Reaches first trace last := by
  induction logs with
  | start => exact .start
  | step _ permitted performed run => exact run.step permitted performed

theorem Reaches.exists_logs (run : Reaches first trace last) :
    ∃ log, Logs first trace log last := by
  induction run with
  | start => exact ⟨_, .start⟩
  | step _ permitted performed induction =>
      rcases induction with ⟨log, logs⟩
      exact ⟨_, logs.step permitted performed⟩

theorem Logs.log_eq (logs : Logs first trace log last) (keeps : first.Keeps books) :
    log = books.log (trace.map Prod.fst) := by
  induction logs with
  | start => rfl
  | step run permitted performed induction =>
      have before := (run.reaches.keeps keeps).2
      rw [List.map_append, Books.log_append, ← induction, before.records_eq permitted]
      exact congrArg _ (List.append_nil _).symm

end Client

end BuddyHeap
