import BuddyHeap.Proofs.Ledger.Listing
import BuddyHeap.Proofs.Ledger.Tiling
import BuddyHeap.Proofs.Memory.Requests

/-! The books of a heap: how large it is, which blocks are on which free list
and which blocks the client has. A block that is on no list and with no client
is in the hand of the operation under way, and there is at most one. -/

namespace BuddyHeap

structure Ledger where
  size : Nat
  lists : Listing
  live : Nat → Option Allocation

namespace Ledger

/-- What a span is used for, if it is a block at all. -/
def Uses (ledger : Ledger) (hand : Option Span) (span : Span) : Use → Prop
  | .free => span.offset ∈ ledger.lists span.order
  | .allocated requested => ledger.live span.offset = some ⟨span.order, requested⟩
  | .held => hand = some span

def empty : Ledger := ⟨0, .empty, fun _ => none⟩

def list (ledger : Ledger) (span : Span) : Ledger :=
  { ledger with lists := ledger.lists.push span.order span.offset }

def unlist (ledger : Ledger) (span : Span) : Ledger :=
  { ledger with lists := ledger.lists.erase span.order span.offset }

def allocate (ledger : Ledger) (offset : Nat) (allocation : Allocation) : Ledger :=
  { ledger with live := Function.update ledger.live offset (some allocation) }

def reclaim (ledger : Ledger) (offset : Nat) : Ledger :=
  { ledger with live := Function.update ledger.live offset none }

@[simp] theorem live_allocate (ledger : Ledger) (offset : Nat) (allocation : Allocation) :
    (ledger.allocate offset allocation).live =
      Function.update ledger.live offset (some allocation) := rfl

@[simp] theorem live_reclaim (ledger : Ledger) (offset : Nat) :
    (ledger.reclaim offset).live = Function.update ledger.live offset none := rfl

def widen (ledger : Ledger) : Ledger := { ledger with size := ledger.size + maxBlockSize }

/-- The ledger with a new chunk, which is the first of the largest blocks. -/
def extend (ledger : Ledger) : Ledger := ledger.widen.list ⟨ledger.size, topOrder⟩

/-- The blocks of the ledger and the one in hand tile the heap. -/
abbrev Tiled (ledger : Ledger) (hand : Option Span) : Prop :=
  Tiling ledger.size (ledger.Uses hand)

variable {ledger : Ledger} {span other : Span} {use : Use} {hand : Option Span}
  {allocation : Allocation} {offset requested : Nat}

theorem uses_list (ledger : Ledger) (hand : Option Span) (span : Span) :
    (ledger.list span).Uses hand span .free := Listing.mem_push.mpr (.inl ⟨rfl, rfl⟩)

namespace Tiled

theorem empty : Ledger.empty.Tiled none :=
  Tiling.empty fun _ use uses => by cases use <;> cases uses

theorem not_uses (tiled : ledger.Tiled hand) (used : ledger.Uses hand span use) {otherUse : Use}
    (different : use ≠ otherUse) : ¬ledger.Uses hand span otherUse :=
  fun uses => different (tiled.use_unique used uses)

theorem ne_of_offset_eq (tiled : ledger.Tiled hand) (used : ledger.Uses hand span use)
    (different : other ≠ span) (offset_eq : other.offset = span.offset) (otherUse : Use) :
    ¬ledger.Uses hand other otherUse :=
  fun uses => different (tiled.span_unique uses used offset_eq)

/-! ## Putting blocks to another use -/

theorem list (tiled : ledger.Tiled (some span)) : (ledger.list span).Tiled none := by
  have held : ledger.Uses (some span) span .held := rfl
  apply Tiling.relabel .free tiled held
  · intro use
    cases use with
    | free => simp [Uses, Ledger.list]
    | allocated requested =>
        have unused : ¬ledger.Uses (some span) span (.allocated requested) :=
          tiled.not_uses held (by simp)
        simpa [Uses, Ledger.list] using unused
    | held => simp [Uses]
  · intro other use different
    have elsewhere : ¬(other.order = span.order ∧ other.offset = span.offset) :=
      fun equal => different (Span.ext equal.2 equal.1)
    cases use with
    | free => simp [Uses, Ledger.list, Listing.mem_push, elsewhere]
    | allocated requested => rfl
    | held => simp [Uses, Ne.symm different]

theorem unlist (tiled : ledger.Tiled none) (separate : ledger.lists.Separate)
    (listed : span.offset ∈ ledger.lists span.order) :
    (ledger.unlist span).Tiled (some span) := by
  have free : ledger.Uses none span .free := listed
  have nodup := separate.nodup span.order
  apply Tiling.relabel .held tiled free
  · intro use
    cases use with
    | free => simp [Uses, Ledger.unlist, nodup.not_mem_erase]
    | allocated requested =>
        have unused : ¬ledger.Uses none span (.allocated requested) :=
          tiled.not_uses free (by simp)
        simpa [Uses, Ledger.unlist] using unused
    | held => simp [Uses]
  · intro other use different
    have elsewhere : ¬(other.order = span.order ∧ other.offset = span.offset) :=
      fun equal => different (Span.ext equal.2 equal.1)
    cases use with
    | free => simp [Uses, Ledger.unlist, Listing.mem_erase nodup, elsewhere]
    | allocated requested => rfl
    | held => simp [Uses, Ne.symm different]

theorem allocate (tiled : ledger.Tiled (some span)) (requested : Nat) :
    (ledger.allocate span.offset ⟨span.order, requested⟩).Tiled none := by
  have held : ledger.Uses (some span) span .held := rfl
  apply Tiling.relabel (.allocated requested) tiled held
  · intro use
    cases use with
    | free =>
        have unused : ¬ledger.Uses (some span) span .free := tiled.not_uses held (by simp)
        simpa [Uses, Ledger.allocate] using unused
    | allocated other => simp [Uses, Ledger.allocate, eq_comm]
    | held => simp [Uses]
  · intro other use different
    cases use with
    | free => rfl
    | allocated otherRequested =>
        by_cases offset_eq : other.offset = span.offset
        · have unused := tiled.ne_of_offset_eq held different offset_eq (.allocated otherRequested)
          have order_ne : span.order ≠ other.order :=
            fun order_eq => different (Span.ext offset_eq order_eq.symm)
          simp only [Uses, Ledger.allocate, offset_eq, Function.update_self] at unused ⊢
          simp [unused, order_ne]
        · simp [Uses, Ledger.allocate, offset_eq]
    | held => simp [Uses, Ne.symm different]

theorem reclaim (tiled : ledger.Tiled none)
    (live : ledger.live span.offset = some ⟨span.order, requested⟩) :
    (ledger.reclaim span.offset).Tiled (some span) := by
  have allocated : ledger.Uses none span (.allocated requested) := live
  apply Tiling.relabel .held tiled allocated
  · intro use
    cases use with
    | free =>
        have unused : ¬ledger.Uses none span .free := tiled.not_uses allocated (by simp)
        simpa [Uses, Ledger.reclaim] using unused
    | allocated other => simp [Uses, Ledger.reclaim]
    | held => simp [Uses]
  · intro other use different
    cases use with
    | free => rfl
    | allocated otherRequested =>
        by_cases offset_eq : other.offset = span.offset
        · have unused := tiled.ne_of_offset_eq allocated different offset_eq
            (.allocated otherRequested)
          simp only [Uses, Ledger.reclaim, offset_eq, Function.update_self] at unused ⊢
          simp [unused]
        · simp [Uses, Ledger.reclaim, offset_eq]
    | held => simp [Uses, Ne.symm different]

end Tiled

end Ledger

end BuddyHeap
