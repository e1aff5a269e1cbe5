import BuddyHeap.Memory.Block

/-! Whether an address is one that the heap could have given to a client. All
that shows it is the word before it, which has to be the header of an allocated
block that starts there. -/

namespace BuddyHeap

namespace Arena

/-- The offset and header of the block whose payload starts at `address`. The
first thing that speaks against it is reported. -/
def check (arena : Arena) (address : Int) :
    Except Fault (Except PointerFault (Nat × Header)) := do
  let some payload := arena.offsetOf? address | return .error .outOfBounds
  if payload < headerSize then
    return .error .outOfBounds
  let offset := payload - headerSize
  if offset % payloadAlignment ≠ 0 then
    return .error .misaligned
  let header := Header.decode (← arena.readWord offset)
  if header.order < minOrder ∨ orderBound ≤ header.order then
    return .error (.badOrder header.order)
  if offset % (← blockSize header.order) ≠ 0 then
    return .error (.notBlockStart header.order)
  if !header.allocated then
    return .error .notAllocated
  let padding ← requiredPadding header.order header.requested.toNat
  if header.padded ≠ (padding ≠ 0 : Bool) then
    return .error .paddingMismatch
  let expected ← requiredOrder header.requested.toNat
  if header.order ≠ expected then
    return .error (.orderMismatch header.order expected)
  return .ok (offset, header)

end Arena

end BuddyHeap
