namespace BuddyHeap

/-- Powers are those of the core library, also where others are at hand. -/
scoped instance (priority := high) corePow {α : Type} [NatPow α] : Pow α Nat := instPowNat

end BuddyHeap
