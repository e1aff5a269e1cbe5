import BuddyHeap.Allocator.Error
import BuddyHeap.Proofs.Ledger.Algorithm

/-! What the client asks for, on the books alone. Offsets stand for the
addresses of payloads, and `extensible` says whether a chunk can be had. -/

namespace BuddyHeap

namespace Ledger

def acquire (ledger : Ledger) (extensible : Bool) (request : Nat) :
    Except AllocatorError Nat × Ledger :=
  if request = 0 ∨ maxPayload < request then
    (.error (.invalidRequest request maxPayload), ledger)
  else
    match ledger.take extensible (requestOrder request) with
    | none => (.error (.outOfMemory (requestOrder request) ledger.size), ledger)
    | some (offset, taken) => (.ok offset, taken.allocate offset (.ofRequest request))

def release (ledger : Ledger) (offset : Nat) : Ledger :=
  match ledger.live offset with
  | some allocation => (ledger.reclaim offset).free ⟨offset, allocation.order⟩
  | none => ledger

def shrink (ledger : Ledger) (offset order request : Nat) : Ledger :=
  ((ledger.reclaim offset).split offset (requestOrder request) order).allocate offset
    (.ofRequest request)

/-- Give the client a block for a larger request, and take the one at `offset`
back. -/
def move (ledger : Ledger) (extensible : Bool) (offset request : Nat) :
    Except AllocatorError Nat × Ledger :=
  match ledger.acquire extensible request with
  | (.error failure, after) => (.error failure, after)
  | (.ok target, after) => (.ok target, after.release offset)

def resize (ledger : Ledger) (extensible : Bool) (offset? : Option Nat) (request : Nat) :
    Except AllocatorError (Option Nat) × Ledger :=
  match offset? with
  | none =>
      let (acquired, after) := ledger.acquire extensible request
      (acquired.map some, after)
  | some offset =>
      if request = 0 then
        (.ok none, ledger.release offset)
      else if maxPayload < request then
        (.error (.invalidRequest request maxPayload), ledger)
      else
        match ledger.live offset with
        | none => (.ok none, ledger)
        | some allocation =>
            if allocation.order < requestOrder request then
              let (moved, after) := ledger.move extensible offset request
              (moved.map some, after)
            else
              (.ok (some offset), ledger.shrink offset allocation.order request)

variable {ledger after : Ledger} {extensible : Bool} {order offset request : Nat}
  {allocation : Allocation}

/-! ## Who has what afterwards -/

@[simp] theorem live_list (ledger : Ledger) (span : Span) : (ledger.list span).live = ledger.live :=
  rfl

@[simp] theorem live_unlist (ledger : Ledger) (span : Span) :
    (ledger.unlist span).live = ledger.live := rfl

@[simp] theorem live_extend (ledger : Ledger) : ledger.extend.live = ledger.live := rfl

theorem live_of_takeListed (taken : ledger.takeListed order = some (offset, after)) :
    after.live = ledger.live := by
  rcases Option.map_eq_some_iff.mp taken with ⟨span, _, equal⟩
  cases equal
  simp

theorem live_of_take (taken : ledger.take extensible order = some (offset, after)) :
    after.live = ledger.live := by
  rw [take] at taken
  split at taken
  · rename_i result listed
    cases taken
    exact live_of_takeListed listed
  · split at taken
    · exact (live_of_takeListed taken).trans ledger.live_extend
    · cases taken

theorem live_of_acquire (acquired : ledger.acquire extensible request = (.ok offset, after)) :
    after.live = Function.update ledger.live offset (some (.ofRequest request)) := by
  rw [acquire] at acquired
  split at acquired
  · cases acquired
  · split at acquired
    · cases acquired
    · rename_i taken took
      cases acquired
      exact congrArg (Function.update · offset _) (live_of_take took)

theorem ne_of_fresh {target : Nat} (live : ledger.live offset = some allocation)
    (fresh : ledger.live target = none) : offset ≠ target := by
  intro equal
  rw [equal, fresh] at live
  cases live

theorem live_acquired_of_live {target : Nat} (live : ledger.live offset = some allocation)
    (acquired : ledger.acquire extensible request = (.ok target, after))
    (fresh : ledger.live target = none) : after.live offset = some allocation := by
  rw [live_of_acquire acquired, Function.update_of_ne (ne_of_fresh live fresh)]
  exact live

theorem live_acquired_self {target : Nat}
    (acquired : ledger.acquire extensible request = (.ok target, after)) :
    after.live target = some (.ofRequest request) := by
  rw [live_of_acquire acquired]
  exact Function.update_self ..

theorem live_acquired_of_ne {target other : Nat}
    (acquired : ledger.acquire extensible request = (.ok target, after))
    (fresh : ledger.live target = none) (allocated : ledger.live other = some allocation) :
    (after.reclaim target).live other = some allocation := by
  have different := ne_of_fresh allocated fresh
  rw [live_reclaim, Function.update_of_ne different]
  exact live_acquired_of_live allocated acquired fresh

theorem eq_of_acquire_error {failure : AllocatorError}
    (failed : ledger.acquire extensible request = (.error failure, after)) : after = ledger := by
  rw [acquire] at failed
  split at failed
  · cases failed
    rfl
  · split at failed <;> cases failed
    rfl

theorem eq_of_move_error {failure : AllocatorError}
    (failed : ledger.move extensible offset request = (.error failure, after)) : after = ledger := by
  rcases acquired : ledger.acquire extensible request with ⟨reason | target, books⟩
  · simp only [move, acquired] at failed
    cases failed
    exact eq_of_acquire_error acquired
  · simp only [move, acquired] at failed
    cases failed

inductive Resizes (ledger : Ledger) (extensible : Bool) (offset request : Nat) :
    Except AllocatorError (Option Nat) × Ledger → Prop where
  | released (zero : request = 0) :
      Resizes ledger extensible offset request (.ok none, ledger.release offset)
  | invalid (large : maxPayload < request) :
      Resizes ledger extensible offset request
        (.error (.invalidRequest request maxPayload), ledger)
  | absent (absent : ledger.live offset = none) :
      Resizes ledger extensible offset request (.ok none, ledger)
  | shrunk {allocation : Allocation} (valid : ¬(request = 0 ∨ maxPayload < request))
      (live : ledger.live offset = some allocation)
      (enough : requestOrder request ≤ allocation.order) :
      Resizes ledger extensible offset request
        (.ok (some offset), ledger.shrink offset allocation.order request)
  | moved {allocation : Allocation} {target : Nat} {after : Ledger}
      (valid : ¬(request = 0 ∨ maxPayload < request)) (live : ledger.live offset = some allocation)
      (larger : allocation.order < requestOrder request)
      (moved : ledger.move extensible offset request = (.ok target, after)) :
      Resizes ledger extensible offset request (.ok (some target), after)
  | failed {allocation : Allocation} {failure : AllocatorError} {after : Ledger}
      (valid : ¬(request = 0 ∨ maxPayload < request)) (live : ledger.live offset = some allocation)
      (larger : allocation.order < requestOrder request)
      (failed : ledger.move extensible offset request = (.error failure, after)) :
      Resizes ledger extensible offset request (.error failure, after)

theorem resizes (ledger : Ledger) (extensible : Bool) (offset request : Nat) :
    ledger.Resizes extensible offset request (ledger.resize extensible (some offset) request) := by
  by_cases zero : request = 0
  · rw [resize, if_pos zero]
    exact .released zero
  by_cases large : maxPayload < request
  · rw [resize, if_neg zero, if_pos large]
    exact .invalid large
  have valid : ¬(request = 0 ∨ maxPayload < request) := by omega
  rw [resize, if_neg zero, if_neg large]
  cases live : ledger.live offset with
  | none => exact .absent live
  | some allocation =>
      by_cases larger : allocation.order < requestOrder request
      · rcases moved : ledger.move extensible offset request with ⟨failure | target, after⟩
        · simp only [if_pos larger]
          exact .failed valid live larger moved
        · simp only [if_pos larger]
          exact .moved valid live larger moved
      · simp only [if_neg larger]
        exact .shrunk valid live (Nat.le_of_not_lt larger)

theorem eq_of_resize_error {failure : AllocatorError}
    (failed : ledger.resize extensible (some offset) request = (.error failure, after)) :
    after = ledger := by
  have resizes := ledger.resizes extensible offset request
  rw [failed] at resizes
  cases resizes with
  | invalid => rfl
  | failed _ _ _ failed => exact eq_of_move_error failed

theorem eq_of_resize_none (live : ledger.live offset = some allocation)
    (resized : ledger.resize extensible (some offset) request = (.ok none, after)) :
    request = 0 ∧ after = ledger.release offset := by
  have resizes := ledger.resizes extensible offset request
  rw [resized] at resizes
  cases resizes with
  | released zero => exact ⟨zero, rfl⟩
  | absent absent => cases live.symm.trans absent

theorem live_release (live : ledger.live offset = some allocation) :
    (ledger.release offset).live = Function.update ledger.live offset none := by
  simp only [release, live, live_free]
  rfl

theorem live_shrink (ledger : Ledger) (offset order request : Nat) :
    (ledger.shrink offset order request).live =
      Function.update ledger.live offset (some (.ofRequest request)) := by
  simp only [shrink, allocate, live_split, reclaim, Function.update_idem]

end Ledger

end BuddyHeap
