import BuddyHeap.Allocator.Error
import BuddyHeap.Memory.Order

/-! How large a heap may become: any positive number of whole chunks. -/

namespace BuddyHeap

structure Config where
  ceiling : Nat
  ceiling_pos : 0 < ceiling
  ceiling_whole : ceiling % maxBlockSize = 0

namespace Config

def ofCeiling (ceiling : Nat) : Except AllocatorError Config :=
  if positive : ceiling = 0 then
    .error (.invalidConfig "max heap size must be greater than zero")
  else if whole : ceiling % maxBlockSize = 0 then
    .ok ⟨ceiling, Nat.pos_of_ne_zero positive, whole⟩
  else
    .error (.invalidConfig "max heap size must be a multiple of the largest block size")

def default : Config := ⟨65536, by decide, by decide⟩

def maxChunks (config : Config) : Nat := config.ceiling / maxBlockSize

end Config

end BuddyHeap
