import BuddyHeap.Proofs.Foundation.Rounding

/-! What a heap takes for granted of the system that maps its memory, and what
becomes of a reservation. -/

namespace BuddyHeap

namespace System

/-- Pages are a power of two, and every mapping leaves more than a chunk of the
address range. -/
structure Sound (system : System) : Prop where
  aligns : IntegerFormat.size.Aligns system.pageSize
  chunk_left : ∀ size start, system.map size = .ok start → size + maxBlockSize < Size.bound

variable {system : System} {size start : Nat} {cause : SystemError}

theorem reserve_of_refused (refused : system.map size = .error cause) :
    system.reserve size = .error cause := by
  rw [reserve, refused]
  rfl

theorem reserve_of_null (null : system.map size = .ok 0) :
    system.reserve size = .error (.other "mmap returned a null mapping") := by
  rw [reserve, null]
  rfl

theorem reserve_of_mapped (mapped : system.map size = .ok start) (placed : start ≠ 0) :
    system.reserve size = .ok start := by
  rw [reserve, mapped]
  exact if_neg placed

theorem map_of_reserve (reserved : system.reserve size = .ok start) :
    system.map size = .ok start ∧ start ≠ 0 := by
  cases mapped : system.map size with
  | error cause =>
      rw [reserve_of_refused mapped] at reserved
      cases reserved
  | ok place =>
      by_cases null : place = 0
      · subst null
        rw [reserve_of_null mapped] at reserved
        cases reserved
      · rw [reserve_of_mapped mapped null] at reserved
        cases reserved
        exact ⟨rfl, null⟩

theorem sound_limited {limit : Nat} (bounded : limit + maxBlockSize < Size.bound) :
    (limited limit).Sound where
  aligns := by
    have small : IntegerFormat.size.Aligns (4096 : Nat) := ⟨by decide, 12, rfl⟩
    exact small
  chunk_left size start mapped := by
    simp only [limited] at mapped
    split at mapped
    · cases mapped
    · split at mapped
      · omega
      · cases mapped

end System

namespace Arena

/-- What a sound system has mapped for an arena. -/
structure Mapped (arena : Arena) : Prop where
  aligns : IntegerFormat.size.Aligns arena.paging.pageSize
  page_fits : arena.capacity + arena.paging.pageSize < Size.bound
  chunk_fits : arena.capacity + maxBlockSize < Size.bound

variable {system : System} {arena : Arena} {capacity : Nat}

theorem Mapped.size_add_chunk_lt (mapped : arena.Mapped) :
    arena.size + maxBlockSize < Size.bound :=
  Nat.lt_of_le_of_lt (Nat.add_le_add_right arena.size_le_capacity _) mapped.chunk_fits

/-- With pages as large as chunks, the last ceiling of all is out of reach. -/
example : wholePages 16384 (Size.bound - 16384) = .error .additionOverflow := rfl

theorem reserve_of_fits (aligns : IntegerFormat.size.Aligns system.pageSize)
    (fits : capacity + system.pageSize < Size.bound) :
    (∀ cause, system.reserve (pageCeiling system.pageSize capacity) = .error cause →
      reserve system capacity = .ok (.error cause)) ∧
    ∀ start, system.reserve (pageCeiling system.pageSize capacity) = .ok start →
      ∃ arena, reserve system capacity = .ok (.ok arena) := by
  have rounds := wholePages_eq aligns (Nat.lt_of_le_of_lt (Nat.le_add_right ..) fits)
  rw [if_pos fits] at rounds
  unfold reserve
  split
  · rename_i fault rounded
    cases rounds.symm.trans rounded
  · rename_i pages rounded
    cases rounds.symm.trans rounded
    refine ⟨fun cause refused => ?_, fun start granted => ?_⟩
    · rw [refused]
      rfl
    · rw [granted]
      exact ⟨_, rfl⟩

theorem fields_of_reserve (reserved : reserve system capacity = .ok (.ok arena)) :
    arena.bytes = #[] ∧ arena.capacity = capacity ∧ arena.paging = ⟨system.pageSize, none⟩ ∧
      ∃ pages start, wholePages system.pageSize capacity = .ok pages ∧
        system.reserve pages = .ok start := by
  unfold reserve at reserved
  split at reserved
  · cases reserved
  · rename_i pages rounded
    cases granted : system.reserve pages with
    | error cause =>
        rw [granted] at reserved
        cases reserved
    | ok start =>
        rw [granted] at reserved
        cases reserved
        exact ⟨rfl, rfl, rfl, pages, start, rounded, granted⟩

theorem mapped_of_reserve (sound : system.Sound)
    (reserved : reserve system capacity = .ok (.ok arena)) : arena.Mapped := by
  rcases fields_of_reserve reserved with ⟨_, rfl, paging_eq, pages, start, rounded, granted⟩
  rcases System.map_of_reserve granted with ⟨mapped, _⟩
  have pageSize_eq : arena.paging.pageSize = system.pageSize := by rw [paging_eq]
  have left := sound.chunk_left _ _ mapped
  rw [← pageSize_eq] at rounded
  have aligns : IntegerFormat.size.Aligns arena.paging.pageSize := pageSize_eq ▸ sound.aligns
  have positive : 0 < arena.paging.pageSize := Int.natCast_pos.mp aligns.positive
  have least := le_pageCeiling positive arena.capacity
  rw [wholePages_eq aligns arena.capacity_lt] at rounded
  split at rounded
  · rename_i fits
    cases rounded
    exact ⟨aligns, fits, by omega⟩
  · cases rounded

end Arena

end BuddyHeap
