import BuddyHeap.Proofs.Memory.Mapping
import BuddyHeap.Proofs.Memory.Words

/-! An arena grows when the ceiling leaves room for a chunk and its pages can be
had. The system is asked for those that the arena does not have yet. -/

namespace BuddyHeap

/-- Why an arena of `size` bytes cannot have the pages of another chunk, if it
cannot. -/
def Paging.chunkFailure? (paging : Paging) (size : Nat) : Option SystemError :=
  paging.failure? (pageCeiling paging.pageSize size)
    (pageCeiling paging.pageSize (size + maxBlockSize))

theorem Paging.chunkFailure?_eq_none_iff {paging : Paging} {size : Nat} :
    paging.chunkFailure? size = none ↔
      (pageCeiling paging.pageSize size < pageCeiling paging.pageSize (size + maxBlockSize) →
        paging.refusal? = none) := by
  rw [chunkFailure?, failure?]
  split
  · rename_i asked
    exact ⟨fun granted _ => granted, fun granted => granted asked⟩
  · rename_i present
    exact iff_of_true rfl fun asked => absurd asked present

namespace Arena

variable {arena : Arena} {cause : SystemError} {count : Nat}

def chunk : Arena where
  bytes := Array.replicate maxBlockSize 0
  capacity := maxBlockSize
  paging := { pageSize := 4096, refusal? := none }
  whole_chunks := by simp
  size_le_capacity := by simp
  capacity_lt := by decide

theorem size_chunk : chunk.size = maxBlockSize := Array.size_replicate ..

def committing (arena : Arena) : Bool := (arena.paging.chunkFailure? arena.size).isNone

def extensible (arena : Arena) : Bool :=
  arena.size + maxBlockSize ≤ arena.capacity && arena.committing

theorem extensible_iff : arena.extensible ↔
    arena.size + maxBlockSize ≤ arena.capacity ∧ arena.paging.chunkFailure? arena.size = none := by
  rw [extensible, committing, Bool.and_eq_true, decide_eq_true_iff, Option.isNone_iff_eq_none]

theorem AgreeOutside.mapped {Changed : Nat → Prop} {after : Arena}
    (agree : AgreeOutside Changed arena after) (mapped : arena.Mapped) : after.Mapped where
  aligns := agree.paging_eq ▸ mapped.aligns
  page_fits := by
    rw [agree.capacity_eq, agree.paging_eq]
    exact mapped.page_fits
  chunk_fits := by
    rw [agree.capacity_eq]
    exact mapped.chunk_fits

namespace Mapped

theorem wholePages_eq_ok (mapped : arena.Mapped) (within : count ≤ arena.capacity) :
    wholePages arena.paging.pageSize count = .ok (pageCeiling arena.paging.pageSize count) := by
  have fits := mapped.page_fits
  rw [wholePages_eq mapped.aligns (Nat.lt_of_le_of_lt within arena.capacity_lt),
    if_pos (Nat.lt_of_le_of_lt (Nat.add_le_add_right within _) fits)]

theorem wholePages_size_eq_ok (mapped : arena.Mapped) : wholePages arena.paging.pageSize arena.size =
    .ok (pageCeiling arena.paging.pageSize arena.size) :=
  mapped.wholePages_eq_ok arena.size_le_capacity

theorem add_chunk_eq_ok (mapped : arena.Mapped) :
    Size.add maxBlockSize arena.size = .ok (arena.size + maxBlockSize) := by
  rw [Nat.add_comm arena.size]
  exact Size.add_eq_ok (Nat.add_comm .. ▸ mapped.size_add_chunk_lt)

theorem grow_of_full (mapped : arena.Mapped) (full : ¬arena.size + maxBlockSize ≤ arena.capacity) :
    arena.grow = .ok .atCapacity := by
  simp only [grow, mapped.add_chunk_eq_ok, ok_bind, dif_neg full]
  rfl

theorem grow_of_refused (mapped : arena.Mapped)
    (fits : arena.size + maxBlockSize ≤ arena.capacity)
    (refused : arena.paging.chunkFailure? arena.size = some cause) :
    arena.grow = .ok (.refused (arena.size + maxBlockSize) cause) := by
  have asked : arena.paging.failure? (pageCeiling arena.paging.pageSize arena.size)
      (pageCeiling arena.paging.pageSize (arena.size + maxBlockSize)) = some cause := refused
  simp only [grow, mapped.add_chunk_eq_ok, ok_bind, dif_pos fits, asked,
    mapped.wholePages_size_eq_ok, mapped.wholePages_eq_ok fits]
  rfl

theorem grow_of_extensible (mapped : arena.Mapped) (extensible : arena.extensible) :
    Yields arena.grow fun growth => ∃ after, growth = .grown arena.size after ∧
      after.size = arena.size + maxBlockSize ∧ AgreeOutside (fun _ => False) arena after := by
  rcases extensible_iff.mp extensible with ⟨fits, granted⟩
  have asked : arena.paging.failure? (pageCeiling arena.paging.pageSize arena.size)
      (pageCeiling arena.paging.pageSize (arena.size + maxBlockSize)) = none := granted
  simp only [grow, mapped.add_chunk_eq_ok, ok_bind, dif_pos fits, asked,
    mapped.wholePages_size_eq_ok, mapped.wholePages_eq_ok fits]
  refine .ok ⟨_, rfl, by simp [size], ⟨rfl, rfl, ?_⟩⟩
  intro index _
  by_cases below : index < arena.bytes.size
  · simp [byte, Array.getElem?_append_left below]
  · have beyond := Nat.le_of_not_lt below
    have absent : arena.bytes[index]? = none := Array.getElem?_eq_none beyond
    simp only [byte, Array.getD_eq_getD_getElem?, Array.getElem?_append_right beyond, absent,
      Array.getElem?_replicate]
    split <;> rfl

theorem grow_of_not_extensible (mapped : arena.Mapped) (blocked : ¬arena.extensible) :
    Yields arena.grow fun growth => ∀ offset after, growth ≠ .grown offset after := by
  rw [extensible_iff, not_and] at blocked
  by_cases fits : arena.size + maxBlockSize ≤ arena.capacity
  · rcases Option.ne_none_iff_exists'.mp (blocked fits) with ⟨cause, refused⟩
    exact .of_eq (mapped.grow_of_refused fits refused) (by simp)
  · exact .of_eq (mapped.grow_of_full fits) (by simp)

end Mapped

end Arena

end BuddyHeap
