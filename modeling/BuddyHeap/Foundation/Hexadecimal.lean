/-! Numbers in base sixteen, as messages and records write offsets. -/

namespace BuddyHeap

/-- The shortest lowercase hexadecimal form, after the mark `0x`. -/
def hexadecimal (number : Nat) : String :=
  "0x" ++ String.ofList (Nat.toDigits 16 number)

end BuddyHeap
