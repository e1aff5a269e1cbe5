import BuddyHeap.Allocator.Operations
import BuddyHeap.Heap.Inspection

/-! A client at work with several allocators. It keeps the addresses it is
given in named slots, hands them back to any of the allocators, and reads and
writes heap memory directly. -/

namespace BuddyHeap

inductive Pointer where
  | slot (name : String)
  /-- At a signed distance from the address in a slot. -/
  | beside (name : String) (distance : Int)
  /-- At a signed distance from the start of the command's heap. -/
  | fromStart (distance : Int)

def Pointer.slot? : Pointer → Option String
  | .slot name => some name
  | _ => none

inductive Command where
  | acquire (size : Nat) (slot? : Option String)
  | release (pointer : Pointer)
  /-- Resize a block. A new address goes to the slot that is given, or else to
  the one that the pointer names. -/
  | resize (pointer? : Option Pointer) (size : Nat) (slot? : Option String)
  | check (pointer : Pointer)
  | offsetOf (pointer : Pointer)
  /-- Write bytes in arithmetic progression. -/
  | fill (pointer : Pointer) (length first step : Nat)
  | poke (pointer : Pointer) (content : List UInt8)
  | peek (pointer : Pointer) (length : Nat)
  | freeList (order : Nat)
  | isListEmpty (order : Nat)
  | blocks
  | extent
  | text
  | setRefusal (cause? : Option SystemError)

/-- Refuse further pages for the usual reason, or grant them. -/
def Command.setCommitting (committing : Bool) : Command :=
  .setRefusal (if committing then none else some .accessDenied)

inductive Answer where
  /-- The command names a slot that holds no address. -/
  | unset
  | done
  | released
  | pointer (address? : Option Int)
  | failed (failure : AllocatorError)
  | header (header : Header)
  | refused (reason : PointerFault)
  | offset (offset? : Option Nat)
  | outside
  | bytes (content : List UInt8)
  | offsets (offsets : List Nat)
  | flag (holds : Bool)
  | blocks (entries : List BlockEntry)
  | extent (size : Nat) (config : Config)
  | text (text : String)

def progression (length first step : Nat) : List UInt8 :=
  (List.range length).map fun index => UInt8.ofNat (first + index * step)

/-- Some allocators and the slots of their client. All heaps lie on one line of
addresses, so far from each other that no 64-bit distance leads from one into
another. -/
structure Session (count : Nat) where
  allocators : Vector Allocator count
  slots : List (String × Int)

namespace Session

variable {count : Nat}

def heapStart (index : Fin count) : Int := index.val * 2 ^ (66 : Nat)

def locate (session : Session count) (index : Fin count) : Pointer → Option Int
  | .slot name => (session.slots.lookup name).map (· - heapStart index)
  | .beside name distance =>
      (session.slots.lookup name).map (· + distance - heapStart index)
  | .fromStart distance => some distance

def store (session : Session count) (index : Fin count) (slot? : Option String)
    (address : Int) : Session count :=
  match slot? with
  | some name => { session with slots := (name, heapStart index + address) :: session.slots }
  | none => session

def setAllocator (session : Session count) (index : Fin count) (allocator : Allocator) :
    Session count :=
  { session with allocators := session.allocators.set index allocator }

def range? (allocator : Allocator) (address : Int) (length : Nat) : Option Nat :=
  if 0 ≤ address ∧ address + length ≤ allocator.heap.size then some address.toNat else none

def withAddress (session : Session count) (index : Fin count) (pointer : Pointer)
    (next : Int → Traced (Answer × Session count)) : Traced (Answer × Session count) :=
  match session.locate index pointer with
  | some address => next address
  | none => return (.unset, session)

def resize (session : Session count) (index : Fin count) (address? : Option Int) (size : Nat)
    (slot? : Option String) : Traced (Answer × Session count) := do
  let (resized, allocator) ← session.allocators[index].resize address? size
  let session := session.setAllocator index allocator
  match resized with
  | .error failure => return (.failed failure, session)
  | .ok none => return (.pointer none, session)
  | .ok (some address) => return (.pointer (some address), session.store index slot? address)

def write (session : Session count) (index : Fin count) (offset : Nat) (content : List UInt8) :
    Session count :=
  let ⟨⟨arena, sentinels⟩, config⟩ := session.allocators[index]
  session.setAllocator index ⟨⟨arena.overwrite offset content, sentinels⟩, config⟩

def perform (session : Session count) (index : Fin count) :
    Command → Traced (Answer × Session count)
  | .acquire size slot? => do
      let (acquired, allocator) ← session.allocators[index].acquire size
      let session := session.setAllocator index allocator
      match acquired with
      | .error failure => return (.failed failure, session)
      | .ok address => return (.pointer (some address), session.store index slot? address)
  | .release pointer => session.withAddress index pointer fun address => do
      let allocator ← session.allocators[index].release address
      return (.released, session.setAllocator index allocator)
  | .resize none size slot? => session.resize index none size slot?
  | .resize (some pointer) size slot? => session.withAddress index pointer fun address =>
      session.resize index (some address) size (slot?.or pointer.slot?)
  | .check pointer => session.withAddress index pointer fun address => do
      match ← session.allocators[index].heap.arena.check address with
      | .ok (_, header) => return (.header header, session)
      | .error reason => return (.refused reason, session)
  | .offsetOf pointer => session.withAddress index pointer fun address =>
      return (.offset (session.allocators[index].heap.arena.offsetOf? address), session)
  | .fill pointer length first step => session.withAddress index pointer fun address =>
      match range? session.allocators[index] address length with
      | none => return (.outside, session)
      | some offset => return (.done, session.write index offset (progression length first step))
  | .poke pointer content => session.withAddress index pointer fun address =>
      match range? session.allocators[index] address content.length with
      | none => return (.outside, session)
      | some offset => return (.done, session.write index offset content)
  | .peek pointer length => session.withAddress index pointer fun address =>
      match range? session.allocators[index] address length with
      | none => return (.outside, session)
      | some offset =>
          return (.bytes (session.allocators[index].heap.arena.byteRange offset length), session)
  | .freeList order => do
      return (.offsets (← session.allocators[index].heap.freeList order), session)
  | .isListEmpty order => do
      return (.flag (← session.allocators[index].heap.isListEmpty order), session)
  | .blocks => do
      return (.blocks (← session.allocators[index].heap.arena.blocks), session)
  | .extent =>
      let allocator := session.allocators[index]
      return (.extent allocator.heap.size allocator.config, session)
  | .text => do
      return (.text (← session.allocators[index].heap.text), session)
  | .setRefusal cause? =>
      let ⟨⟨arena, sentinels⟩, config⟩ := session.allocators[index]
      let arena := { arena with paging := { arena.paging with refusal? := cause? } }
      return (.done, session.setAllocator index ⟨⟨arena, sentinels⟩, config⟩)

structure Step (count : Nat) where
  events : List Event
  result : Except Fault Answer
  after : Session count

/-- Carry out a command whose faults leave the session as it was. The events of
a refused pointer are lost with the process that it ends. -/
def step (session : Session count) (index : Fin count) (command : Command) : Step count :=
  match session.perform index command with
  | ⟨events, .ok (answer, after)⟩ => ⟨events, .ok answer, after⟩
  | ⟨_, .error (.invalidPointer reason)⟩ => ⟨[], .error (.invalidPointer reason), session⟩
  | ⟨events, .error fault⟩ => ⟨events, .error fault, session⟩

/-- Whether no command may follow: any fault but a refused pointer. -/
def Step.isLast (step : Step count) : Bool :=
  match step.result with
  | .ok _ | .error (.invalidPointer _) => false
  | .error _ => true

end Session

end BuddyHeap
