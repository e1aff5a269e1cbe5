import BuddyHeap.Foundation.IntegerFormat
import BuddyHeap.Foundation.LittleEndian
import BuddyHeap.Memory.Order
import BuddyHeap.Memory.System

/-! A heap's memory: a contiguous run of bytes that grows by whole chunks, up
to the capacity for which address space was reserved. Everything in it is
addressed by its offset from the first byte. -/

namespace BuddyHeap

/-- The least number of bytes in whole pages that is not below `count`. -/
def wholePages (pageSize count : Nat) : Except Fault Nat :=
  return (← IntegerFormat.size.roundUp count pageSize).toNat

theorem lt_bound_of_wholePages {pageSize count pages : Nat}
    (rounded : wholePages pageSize count = .ok pages) : count < Size.bound := by
  by_cases sum : IntegerFormat.size.Represents (pageSize + count)
  · have atMost : (pageSize : Int) + count ≤ 2 ^ (64 : Nat) - 1 := sum.2
    simp only [Size.bound]
    omega
  · simp only [wholePages, IntegerFormat.roundUp, IntegerFormat.add, if_neg sum, bind,
      Except.bind] at rounded
    cases rounded

structure Paging where
  pageSize : Nat
  /-- Why the system refuses further pages, if it does. -/
  refusal? : Option SystemError

/-- Why the pages from `present` to `grown` cannot be had, if they cannot. The
system is not asked when there are none. -/
def Paging.failure? (paging : Paging) (present grown : Nat) : Option SystemError :=
  if present < grown then paging.refusal? else none

structure Arena where
  bytes : Array UInt8
  capacity : Nat
  paging : Paging
  whole_chunks : bytes.size % maxBlockSize = 0
  size_le_capacity : bytes.size ≤ capacity
  capacity_lt : capacity < Size.bound

/-- Put `content` in place of the bytes from `offset` on. What would lie past
the last byte is dropped. -/
def overwriteBytes (bytes : Array UInt8) (offset : Nat) : List UInt8 → Array UInt8
  | [] => bytes
  | byte :: rest => overwriteBytes (bytes.setIfInBounds offset byte) (offset + 1) rest

@[simp] theorem size_overwriteBytes (bytes : Array UInt8) (offset : Nat) (content : List UInt8) :
    (overwriteBytes bytes offset content).size = bytes.size := by
  induction content generalizing bytes offset with
  | nil => rfl
  | cons byte rest induction => simp [overwriteBytes, induction]

theorem getD_overwriteBytes (bytes : Array UInt8) (offset : Nat) (content : List UInt8)
    (index : Nat) :
    (overwriteBytes bytes offset content).getD index 0 =
      if offset ≤ index ∧ index < offset + content.length ∧ index < bytes.size then
        content.getD (index - offset) 0
      else
        bytes.getD index 0 := by
  induction content generalizing bytes offset with
  | nil =>
      rw [if_neg (by simp only [List.length_nil]; omega)]
      rfl
  | cons byte rest induction =>
      rw [overwriteBytes, induction]
      simp only [Array.getD_eq_getD_getElem?, Array.getElem?_setIfInBounds,
        Array.size_setIfInBounds, List.length_cons]
      by_cases first : offset = index
      · subst first
        rw [if_neg (by omega)]
        by_cases inside : offset < bytes.size <;> simp [inside]
      · by_cases later : offset + 1 ≤ index
        · have shift : index - offset = index - (offset + 1) + 1 := by omega
          simp only [shift, List.getD_cons_succ, first, if_false]
          congr 1
          simp only [eq_iff_iff]
          omega
        · rw [if_neg (by omega), if_neg first, if_neg (by omega)]

inductive Growth where
  | grown (offset : Nat) (arena : Arena)
  | atCapacity
  | refused (size : Nat) (cause : SystemError)

namespace Arena

def size (arena : Arena) : Nat := arena.bytes.size

theorem size_lt (arena : Arena) : arena.size < Size.bound :=
  Nat.lt_of_le_of_lt arena.size_le_capacity arena.capacity_lt

/-- An empty arena that may grow up to `capacity`. The address space for it is
reserved in whole pages. -/
def reserve (system : System) (capacity : Nat) : Except Fault (Except SystemError Arena) :=
  match rounded : wholePages system.pageSize capacity with
  | .error fault => .error fault
  | .ok reserved => .ok do
      let _ ← system.reserve reserved
      return {
        bytes := #[]
        capacity
        paging := { pageSize := system.pageSize, refusal? := none }
        whole_chunks := rfl
        size_le_capacity := Nat.zero_le _
        capacity_lt := lt_bound_of_wholePages rounded }

/-- Add one chunk of zero bytes, with the pages for it that the arena does not
have yet. -/
def grow (arena : Arena) : Except Fault Growth := do
  let grownSize ← Size.add maxBlockSize arena.size
  if fits : arena.size + maxBlockSize ≤ arena.capacity then
    let present ← wholePages arena.paging.pageSize arena.size
    let grown ← wholePages arena.paging.pageSize grownSize
    match arena.paging.failure? present grown with
    | some cause => return .refused grownSize cause
    | none =>
        return .grown arena.size { arena with
          bytes := arena.bytes ++ Array.replicate maxBlockSize 0
          whole_chunks := by
            have := arena.whole_chunks
            simp [maxBlockSize] at this ⊢
            exact this
          size_le_capacity := by simpa [size] using fits }
  else
    return .atCapacity

def offsetOf? (arena : Arena) (address : Int) : Option Nat :=
  if 0 ≤ address ∧ address < arena.size then some address.toNat else none

def addressOf (arena : Arena) (offset : Nat) : Except Fault Int :=
  if offset < arena.size then .ok offset else .error (.offsetOutside offset)

/-! ## Bytes -/

def byte (arena : Arena) (offset : Nat) : UInt8 := arena.bytes.getD offset 0

def byteRange (arena : Arena) (offset count : Nat) : List UInt8 :=
  (List.range count).map fun index => arena.byte (offset + index)

def overwrite (arena : Arena) (offset : Nat) (content : List UInt8) : Arena where
  bytes := overwriteBytes arena.bytes offset content
  capacity := arena.capacity
  paging := arena.paging
  whole_chunks := by simpa using arena.whole_chunks
  size_le_capacity := by simpa using arena.size_le_capacity
  capacity_lt := arena.capacity_lt

@[simp] theorem size_overwrite (arena : Arena) (offset : Nat) (content : List UInt8) :
    (arena.overwrite offset content).size = arena.size :=
  size_overwriteBytes arena.bytes offset content

theorem byte_overwrite (arena : Arena) (offset : Nat) (content : List UInt8) (index : Nat) :
    (arena.overwrite offset content).byte index =
      if offset ≤ index ∧ index < offset + content.length ∧ index < arena.size then
        content.getD (index - offset) 0
      else
        arena.byte index :=
  getD_overwriteBytes arena.bytes offset content index

def checkRange (arena : Arena) (offset count : Nat) : Except Fault Unit :=
  if offset + count ≤ arena.size ∧ offset + count < Size.bound then .ok ()
  else .error (.rangeOutside offset count arena.size)

/-! ## Words -/

def word (arena : Arena) (offset : Nat) : UInt64 :=
  UInt64.ofNat (LittleEndian.number (arena.byteRange offset 8))

def readWord (arena : Arena) (offset : Nat) : Except Fault UInt64 := do
  arena.checkRange offset 8
  return arena.word offset

def writeWord (arena : Arena) (offset : Nat) (word : UInt64) : Except Fault Arena := do
  arena.checkRange offset 8
  return arena.overwrite offset (LittleEndian.bytes 8 word.toNat)

def copy (arena : Arena) (source target count : Nat) : Except Fault Arena := do
  arena.checkRange source count
  arena.checkRange target count
  if source + count ≤ target ∨ target + count ≤ source then
    return arena.overwrite target (arena.byteRange source count)
  else
    throw .overlappingCopy

end Arena

end BuddyHeap
