import BuddyHeap.Journal.Event
import BuddyHeap.Proofs.Ledger.Operations

/-! What the operations record, on the books alone. Where the heap may have to
grow, `growing` stands for what is recorded of the attempt. -/

namespace BuddyHeap

def growEvents (size ceiling : Nat) (failure? : Option SystemError) : List Event :=
  if size + maxBlockSize ≤ ceiling then
    match failure? with
    | none => [.grown (size + maxBlockSize)]
    | some cause => [.growthRefused (size + maxBlockSize) cause]
  else
    []

namespace Ledger

def splitEvents (offset target : Nat) : (order : Nat) → List Event
  | 0 => []
  | order + 1 =>
      if target ≤ order then
        .split offset order (offset + 2 ^ order) :: splitEvents offset target order
      else
        []

def gatherEvents (ledger : Ledger) (span : Span) : (levels : Nat) → List Event
  | 0 => []
  | levels + 1 =>
      if span.buddy.offset ∈ ledger.lists span.order then
        .coalesced span.parent.order span.parent.offset ::
          (ledger.unlist span.buddy).gatherEvents span.parent levels
      else
        []

def freeEvents (ledger : Ledger) (span : Span) : List Event :=
  ledger.gatherEvents span (topOrder - span.order)

def takeListedEvents (ledger : Ledger) (order : Nat) : List Event :=
  match ledger.first? order with
  | some span => splitEvents span.offset order span.order
  | none => []

def takeEvents (ledger : Ledger) (extensible : Bool) (growing : List Event) (order : Nat) :
    List Event :=
  match ledger.first? order with
  | some _ => ledger.takeListedEvents order
  | none => growing ++ if extensible then ledger.extend.takeListedEvents order else []

def acquireEvents (ledger : Ledger) (extensible : Bool) (growing : List Event) (request : Nat) :
    List Event :=
  if request = 0 ∨ maxPayload < request then []
  else
    ledger.takeEvents extensible growing (requestOrder request) ++
      match ledger.take extensible (requestOrder request) with
      | some (offset, _) => [.acquired request (requestOrder request) offset]
      | none => [.exhausted (requestOrder request) ledger.size]

def returnEvents (ledger : Ledger) (offset : Nat) (allocation : Allocation) : List Event :=
  (ledger.reclaim offset).freeEvents ⟨offset, allocation.order⟩

def releaseEvents (ledger : Ledger) (offset : Nat) (allocation : Allocation) : List Event :=
  .released (offset + 8) allocation.order offset :: ledger.returnEvents offset allocation

def moveEvents (ledger : Ledger) (extensible : Bool) (growing : List Event) (offset : Nat)
    (allocation : Allocation) (request : Nat) : List Event :=
  ledger.acquireEvents extensible growing request ++
    match ledger.acquire extensible request with
    | (.error _, _) => []
    | (.ok target, after) =>
        after.returnEvents offset allocation ++ [.moved (offset + 8) request (target + 8)]

def shrinkEvents (offset order request : Nat) : List Event :=
  splitEvents offset (requestOrder request) order ++
    if requestOrder request < order then
      [.shrunk (offset + 8) request order (requestOrder request)]
    else
      [.resizedInPlace (offset + 8) request]

def resizeEvents (ledger : Ledger) (extensible : Bool) (growing : List Event) (offset : Nat)
    (allocation : Allocation) (request : Nat) : List Event :=
  if request = 0 then ledger.releaseEvents offset allocation
  else if maxPayload < request then []
  else if allocation.order < requestOrder request then
    ledger.moveEvents extensible growing offset allocation request
  else
    shrinkEvents offset allocation.order request

theorem splitEvents_self (offset order : Nat) : splitEvents offset order order = [] := by
  cases order with
  | zero => rfl
  | succ order => exact if_neg (Nat.not_succ_le_self order)

variable {ledger : Ledger} {span : Span}

/-! ## One step of the joining -/

theorem freeEvents_of_mem (below : span.order < topOrder)
    (listed : span.buddy.offset ∈ ledger.lists span.order) :
    ledger.freeEvents span = .coalesced span.parent.order span.parent.offset ::
      (ledger.unlist span.buddy).freeEvents span.parent := by
  have levels : topOrder - span.order = topOrder - span.parent.order + 1 := by
    simp only [Span.parent]
    omega
  simp only [freeEvents, levels, gatherEvents, if_pos listed]

theorem freeEvents_of_not_mem
    (single : span.order < topOrder → span.buddy.offset ∉ ledger.lists span.order) :
    ledger.freeEvents span = [] := by
  rcases Nat.eq_zero_or_pos (topOrder - span.order) with levels | levels
  · simp only [freeEvents, levels, gatherEvents]
  · have absent := single (by omega)
    obtain ⟨fewer, levels⟩ := Nat.exists_eq_succ_of_ne_zero levels.ne'
    simp only [freeEvents, levels, gatherEvents, if_neg absent]

end Ledger

end BuddyHeap
