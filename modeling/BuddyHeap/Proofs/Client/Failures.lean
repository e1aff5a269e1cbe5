import BuddyHeap.Proofs.Client.Completeness

/-! Requests that fail. A client is told why, and everything is as it was before
the request: the allocator, its memory and what the client has. -/

namespace BuddyHeap

def Action.requested? : Action → Option Nat
  | .acquire size | .resize _ size => some size
  | .release _ | .write .. | .setRefusal _ => none

namespace Ledger

variable {ledger after : Ledger} {extensible : Bool} {action : Action} {request offset : Nat}
  {allocation : Allocation} {failure : AllocatorError}

inductive Fails (ledger : Ledger) (extensible : Bool) (request : Nat) : AllocatorError → Prop where
  | invalid (invalid : request = 0 ∨ maxPayload < request) :
      Fails ledger extensible request (.invalidRequest request maxPayload)
  | exhausted (valid : ¬(request = 0 ∨ maxPayload < request))
      (full : ¬ledger.HasRoom (requestOrder request)) (blocked : extensible = false) :
      Fails ledger extensible request (.outOfMemory (requestOrder request) ledger.size)

theorem acquire_of_invalid (invalid : request = 0 ∨ maxPayload < request) :
    (ledger.acquire extensible request).1 = .error (.invalidRequest request maxPayload) := by
  rw [acquire, if_pos invalid]

theorem fails_of_acquire (tiled : ledger.Tiled none) (merged : ledger.lists.Merged)
    (failed : (ledger.acquire extensible request).1 = .error failure) :
    ledger.Fails extensible request failure := by
  by_cases invalid : request = 0 ∨ maxPayload < request
  · cases (acquire_of_invalid invalid).symm.trans failed
    exact .invalid invalid
  · by_cases room : ledger.HasRoom (requestOrder request)
    · rcases acquire_of_hasRoom tiled merged invalid room extensible with ⟨offset, acquired, _⟩
      cases acquired.symm.trans failed
    · cases blocked : extensible with
      | true =>
          rw [blocked, (acquire_of_not_hasRoom tiled merged invalid room).1] at failed
          cases failed
      | false =>
          rw [blocked, acquire_of_exhausted tiled merged invalid room] at failed
          cases failed
          exact .exhausted invalid room rfl

theorem fails_of_move (tiled : ledger.Tiled none) (merged : ledger.lists.Merged)
    (failed : (ledger.move extensible offset request).1 = .error failure) :
    ledger.Fails extensible request failure := by
  rcases acquired : ledger.acquire extensible request with ⟨reason | target, books⟩
  · simp only [move, acquired] at failed
    cases failed
    exact fails_of_acquire tiled merged (congrArg Prod.fst acquired)
  · simp only [move, acquired] at failed
    cases failed

theorem fails_of_resize (tiled : ledger.Tiled none) (merged : ledger.lists.Merged)
    {offset? : Option Nat} (failed : (ledger.resize extensible offset? request).1 = .error failure) :
    ledger.Fails extensible request failure := by
  cases offset? with
  | none => exact fails_of_acquire tiled merged (eq_error_of_map failed)
  | some offset =>
      have resizes := ledger.resizes extensible offset request
      generalize ledger.resize extensible (some offset) request = result at resizes failed
      cases resizes with
      | invalid large =>
          cases failed
          exact .invalid (.inr large)
      | failed _ _ _ reason =>
          cases failed
          exact fails_of_move tiled merged (congrArg Prod.fst reason)
      | released | absent | shrunk | moved => cases failed

theorem fails_of_perform (tiled : ledger.Tiled none) (merged : ledger.lists.Merged)
    (requested : action.requested? = some request)
    (failed : (ledger.perform extensible action).1 = .error failure) :
    ledger.Fails extensible request failure := by
  cases action with
  | acquire size =>
      cases requested
      exact fails_of_acquire tiled merged (eq_error_of_map failed)
  | resize address? size =>
      cases requested
      exact fails_of_resize tiled merged (eq_error_of_map failed)
  | release | write | setRefusal => cases requested

theorem perform_of_invalid (requested : action.requested? = some request)
    (invalid : maxPayload < request ∨ action = .acquire 0 ∨ action = .resize none 0) :
    (ledger.perform extensible action).1 = .error (.invalidRequest request maxPayload) := by
  rcases invalid with large | rfl | rfl
  · cases action with
    | acquire size =>
        cases requested
        exact congrArg (Except.map _) (acquire_of_invalid (.inr large))
    | resize address? size =>
        cases requested
        cases address? with
        | none =>
            exact congrArg (Except.map _ ∘ Except.map _) (acquire_of_invalid (.inr large))
        | some address =>
            have positive : request ≠ 0 := (Nat.zero_lt_of_lt large).ne'
            simp only [perform, Option.map_some, resize, if_neg positive, if_pos large]
            rfl
    | release | write | setRefusal => cases requested
  · cases requested
    rfl
  · cases requested
    rfl

/-- A payload that is resized to no bytes is given up, and that does not fail. -/
theorem perform_invalid_iff (tiled : ledger.Tiled none) (merged : ledger.lists.Merged)
    (requested : action.requested? = some request) :
    (∃ asked greatest,
      (ledger.perform extensible action).1 = .error (.invalidRequest asked greatest)) ↔
      maxPayload < request ∨ action = .acquire 0 ∨ action = .resize none 0 := by
  constructor
  · intro holds
    rcases holds with ⟨asked, greatest, failed⟩
    cases fails_of_perform tiled merged requested failed with
    | invalid invalid =>
        rcases invalid with rfl | large
        · right
          cases action with
          | acquire size =>
              cases requested
              exact .inl rfl
          | resize address? size =>
              cases requested
              cases address? with
              | none => exact .inr rfl
              | some address => cases failed
          | release | write | setRefusal => cases requested
        · exact .inl large
  · intro invalid
    exact ⟨request, maxPayload, perform_of_invalid requested invalid⟩

end Ledger

namespace Client

variable {client : Client} {ledger : Ledger} {size : Nat} {failure : AllocatorError}

/-- Why a request of the client fails. Memory is exhausted only when there is no
place for the block and no chunk can be added. -/
inductive Fails (client : Client) (size : Nat) : AllocatorError → Prop where
  | invalid (invalid : size = 0 ∨ maxPayload < size) :
      Fails client size (.invalidRequest size maxPayload)
  | ceiling {order : Nat} (required : requiredOrder size = .ok order) (full : ¬client.HasWindow order)
      (reached : client.allocator.config.ceiling < client.allocator.heap.size + maxBlockSize) :
      Fails client size (.outOfMemory order client.allocator.heap.size)
  | refused {order : Nat} (required : requiredOrder size = .ok order)
      (full : ¬client.HasWindow order) (refused : client.committing = false) :
      Fails client size (.outOfMemory order client.allocator.heap.size)

/-- A request of `size` bytes is answered. If it fails nothing has changed:
neither a byte of memory, nor a list, nor what the client has. -/
structure Answers (client : Client) (action : Action) (size : Nat) (reply : Reply)
    (after : Client) : Prop where
  unchanged : ∀ failure, reply = .error failure → after = client
  fails : ∀ failure, reply = .error failure → client.Fails size failure
  invalid_iff : (∃ asked greatest, reply = .error (.invalidRequest asked greatest)) ↔
    maxPayload < size ∨ action = .acquire 0 ∨ action = .resize none 0

structure Resilient (client : Client) : Prop where
  answers : ∀ action size, action.requested? = some size → client.Permits action →
    ∃ reply after, client.perform action = .ok (reply, after) ∧
      client.Answers action size reply after
  /-- That the size is too large is told before the address is looked at. -/
  refuses : ∀ address size, maxPayload < size → client.perform (.resize (some address) size) =
    .ok (.error (.invalidRequest size maxPayload), client)

theorem perform_resize_of_large (client : Client) (address : Int) (large : maxPayload < size) :
    client.perform (.resize (some address) size) =
      .ok (.error (.invalidRequest size maxPayload), client) := by
  rw [perform, Allocator.resize_eq_refusal _ _ large]
  rfl

theorem Follows.fails (follows : client.Follows ledger)
    (fails : ledger.Fails client.extensible size failure) : client.Fails size failure := by
  cases fails with
  | invalid invalid => exact .invalid invalid
  | exhausted valid full blocked =>
      have required := Allocator.requiredOrder_of_valid valid
      rw [← follows.hasWindow_iff] at full
      rw [← follows.size_eq]
      rw [← Bool.not_eq_true, follows.extensible_iff] at blocked
      by_cases below : client.allocator.heap.size + maxBlockSize ≤ client.allocator.config.ceiling
      · have refused : client.committing = false :=
          Bool.eq_false_iff.mpr fun granted => blocked ⟨below, granted⟩
        exact .refused required full refused
      · exact .ceiling required full (Nat.lt_of_not_le below)

/-- Wherever the client gets, a request that fails leaves everything as it was. -/
theorem Reachable.resilient (reachable : client.Reachable) : client.Resilient where
  answers action size requested permitted := by
    rcases reachable.exists_follows with ⟨ledger, follows⟩
    have heap := follows.allocator.heap
    rcases follows.perform permitted with ⟨⟨reply, after⟩, performed, outcome⟩
    refine ⟨reply, after, performed, outcome.unchanged, fun failure failed => ?_, ?_⟩
    · rw [outcome.reply_eq] at failed
      exact follows.fails (Ledger.fails_of_perform heap.tiled heap.merged requested failed)
    · rw [outcome.reply_eq]
      exact Ledger.perform_invalid_iff heap.tiled heap.merged requested
  refuses address size large := client.perform_resize_of_large address large

/-- A payload cannot be moved because no chunk is granted. -/
theorem resilient_of_refused : ∃ client : Client, client.live 8 = some 24 ∧ client.Resilient ∧
    client.perform (.resize (some 8) 16376) = .ok (.error (.outOfMemory 14 16384), client) := by
  rcases exists_reaches .default (by decide) [.acquire 24, .setRefusal (some .accessDenied)] rfl
    with ⟨first, client, fresh, run, keeps⟩
  have live := keeps.live_eq 8
  have reachable : client.Reachable := ⟨first, _, fresh, run⟩
  have resilient := reachable.resilient
  have permitted : client.Permits (.resize (some 8) 16376) := ⟨24, live⟩
  rcases resilient.answers _ 16376 rfl permitted with ⟨reply, after, performed, answers⟩
  rcases keeps.perform permitted with ⟨next, told, _⟩
  cases told.symm.trans performed
  cases answers.unchanged (.outOfMemory 14 16384) rfl
  exact ⟨client, live, resilient, performed⟩

end Client

end BuddyHeap
