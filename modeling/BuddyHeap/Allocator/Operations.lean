import BuddyHeap.Allocator.Config
import BuddyHeap.Heap.Buddies
import BuddyHeap.Memory.Validation

/-! The allocator. A client acquires a block for some bytes and is given the
address of its payload; with that address it may resize or release the block
later. An address that validation refuses is a fault. -/

namespace BuddyHeap

structure Allocator where
  heap : Heap
  config : Config

namespace Allocator

def create (config : Config) (system : System) : Traced (Except AllocatorError Allocator) := do
  match ← Arena.reserve system config.ceiling with
  | .error cause => return .error (.reservationFailed cause)
  | .ok arena =>
      .record (.reserved arena.capacity)
      return .ok { heap := .ofArena arena, config }

theorem outcome_create (config : Config) (system : System) :
    (create config system).outcome = (Arena.reserve system config.ceiling).map fun granted =>
      (granted.mapError .reservationFailed).map fun arena => ⟨.ofArena arena, config⟩ := by
  unfold create
  rw [Traced.outcome_bind, Traced.outcome_lift (Arena.reserve system config.ceiling)]
  cases Arena.reserve system config.ceiling with
  | error fault => rfl
  | ok granted => cases granted <;> rfl

def checkRequest (size : Nat) : Except AllocatorError UInt32 :=
  if size = 0 ∨ maxPayload < size then .error (.invalidRequest size maxPayload)
  else .ok (UInt32.ofNat size)

/-- Take a block that holds `size` bytes and give the address of its payload. -/
def acquire (allocator : Allocator) (size : Nat) :
    Traced (Except AllocatorError Int × Allocator) := do
  match checkRequest size with
  | .error failure => return (.error failure, allocator)
  | .ok requested =>
      let order ← requiredOrder size
      let ⟨heap, config⟩ := allocator
      let (taken?, heap) ← heap.takeBlock order (config.maxChunks + 1)
      match taken? with
      | none =>
          .record (.exhausted order heap.size)
          return (.error (.outOfMemory order heap.size), { heap, config })
      | some offset =>
          let heap ← heap.writeBlock offset (.allocated (← Header.forRequest order requested))
          .record (.acquired size order offset)
          let address ← heap.arena.addressOf (← Size.add offset headerSize)
          return (.ok address, { heap, config })

/-- The offset and header of the allocated block whose payload starts at
`address`. -/
def validated (allocator : Allocator) (address : Int) : Except Fault (Nat × Header) := do
  match ← allocator.heap.arena.check address with
  | .ok found => return found
  | .error reason => throw (.invalidPointer reason)

def release (allocator : Allocator) (address : Int) : Traced Allocator := do
  let (offset, header) ← allocator.validated address
  .record (.released (offset + headerSize) header.order offset)
  let ⟨heap, config⟩ := allocator
  return { heap := ← heap.coalesce offset header.order, config }

/-- Move the payload of a block into a newly acquired one of `size` bytes, with
`copy` for its bytes, and give up the old one. -/
def moveBy (copy : Arena → Nat → Nat → Nat → Except Fault Arena) (allocator : Allocator)
    (offset : Nat) (header : Header) (size : Nat) :
    Traced (Except AllocatorError Int × Allocator) := do
  let (acquired, allocator) ← allocator.acquire size
  match acquired with
  | .error failure => return (.error failure, allocator)
  | .ok address =>
      let ⟨⟨arena, sentinels⟩, config⟩ := allocator
      let source ← Size.add offset headerSize
      let arena ← copy arena source address.toNat header.requested.toNat
      let heap ← Heap.coalesce { arena, sentinels } offset header.order
      .record (.moved (offset + headerSize) size address.toNat)
      return (.ok address, { heap, config })

def move (allocator : Allocator) (offset : Nat) (header : Header) (size : Nat) :
    Traced (Except AllocatorError Int × Allocator) :=
  allocator.moveBy Arena.copy offset header size

theorem moveBy_copy (allocator : Allocator) (offset : Nat) (header : Header) (size : Nat) :
    allocator.moveBy Arena.copy offset header size = allocator.move offset header size := rfl

/-- Change the size of the block whose payload starts at `address`, keeping the
bytes that both sizes have. Without an address this acquires a block, and with
size zero it releases one and gives no address. A block that has to become
smaller stays where it is, and one that has to become larger moves. -/
def resizeBy (copy : Arena → Nat → Nat → Nat → Except Fault Arena) (allocator : Allocator)
    (address? : Option Int) (size : Nat) :
    Traced (Except AllocatorError (Option Int) × Allocator) := do
  let some address := address?
    | let (acquired, allocator) ← allocator.acquire size
      return (acquired.map some, allocator)
  if size = 0 then
    return (.ok none, ← allocator.release address)
  match checkRequest size with
  | .error failure => return (.error failure, allocator)
  | .ok requested =>
      let (offset, header) ← allocator.validated address
      let order ← requiredOrder size
      if header.order < order then
        let (moved, allocator) ← allocator.moveBy copy offset header size
        return (moved.map some, allocator)
      else
        let ⟨heap, config⟩ := allocator
        let heap ← if order < header.order then heap.split offset order header.order else pure heap
        let heap ← heap.writeBlock offset (.allocated (← Header.forRequest order requested))
        if order < header.order then
          .record (.shrunk (offset + headerSize) size header.order order)
        else
          .record (.resizedInPlace (offset + headerSize) size)
        return (.ok (some address), { heap, config })

def resize (allocator : Allocator) (address? : Option Int) (size : Nat) :
    Traced (Except AllocatorError (Option Int) × Allocator) :=
  allocator.resizeBy Arena.copy address? size

end Allocator

end BuddyHeap
