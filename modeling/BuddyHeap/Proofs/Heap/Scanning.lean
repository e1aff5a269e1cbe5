import BuddyHeap.Heap.Inspection
import BuddyHeap.Proofs.Memory.Growth
import BuddyHeap.Proofs.Memory.Nodes

/-! A walk from block to block in memory that may hold anything. It goes by the
headers that it finds and never by less than the smallest block, so that it
stays on multiples of that size; as the arena is made of whole chunks, there is
always room for what is read, and the walk comes to an end. -/

namespace BuddyHeap

theorem minBlockSize_dvd_stride (order : Nat) : minBlockSize ∣ 2 ^ max order minOrder :=
  Nat.pow_dvd_pow 2 (Nat.le_max_right order minOrder)

theorem minBlockSize_le_stride (order : Nat) : minBlockSize ≤ 2 ^ max order minOrder :=
  Nat.le_of_dvd (Nat.two_pow_pos _) (minBlockSize_dvd_stride order)

theorem stride_le {order : Nat} (small : order < 16) : 2 ^ max order minOrder ≤ 2 ^ (15 : Nat) :=
  Nat.pow_le_pow_right (by decide) (by simp only [minOrder]; omega)

namespace Arena

variable {arena : Arena} {offset start following : Nat} {block : Block} {entries : List BlockEntry}

theorem minBlockSize_dvd_size (arena : Arena) : minBlockSize ∣ arena.size :=
  Nat.dvd_trans (by decide : minBlockSize ∣ maxBlockSize) (Nat.dvd_of_mod_eq_zero arena.whole_chunks)

theorem order_blockAt (arena : Arena) (offset : Nat) :
    (arena.blockAt offset).order = (Header.decode (arena.word offset)).order := by
  rw [blockAt]
  split
  · rfl
  · rfl

theorem isFree_blockAt (arena : Arena) (offset : Nat) :
    (!(arena.blockAt offset).isFree) = (Header.decode (arena.word offset)).allocated := by
  rw [blockAt]
  split
  · rename_i allocated
    exact allocated.symm
  · rename_i unset
    exact (Bool.eq_false_iff.mpr unset).symm

/-! ## One step -/

theorem blocksFrom_of_end (reached : arena.size ≤ offset) : arena.blocksFrom offset = .ok [] := by
  rw [blocksFrom, if_neg (Nat.not_lt_of_le reached)]
  rfl

theorem blocksFrom_of_read (below : offset < arena.size)
    (read : arena.readBlock offset = .ok block)
    (advanced : offsetAfter offset block.order = .ok following) :
    arena.blocksFrom offset =
      (arena.blocksFrom following).map (⟨offset, block.order, !block.isFree⟩ :: ·) := by
  rw [blocksFrom, if_pos below, read, ok_bind]
  split
  · rename_i fault failed
    rw [advanced] at failed
    cases failed
  · rename_i reached advanced'
    rw [advanced] at advanced'
    cases advanced'
    rw [map_eq_bind]
    rfl

theorem add_minBlockSize_le (aligned : minBlockSize ∣ offset) (below : offset < arena.size) :
    offset + minBlockSize ≤ arena.size := by
  have distance := Nat.le_of_dvd (Nat.sub_pos_of_lt below)
    (Nat.dvd_sub arena.minBlockSize_dvd_size aligned)
  omega

/-- Even a block that is said to be longer than a chunk ends at an offset that
can be written down. -/
theorem offsetAfter_eq_ok {order : Nat} (spare : arena.size + maxBlockSize < Size.bound)
    (aligned : minBlockSize ∣ offset) (below : offset < arena.size) (small : order < 16) :
    offsetAfter offset order = .ok (offset + 2 ^ max order minOrder) := by
  have room := add_minBlockSize_le aligned below
  have stride := stride_le small
  have chunks := arena.whole_chunks
  have exponent : max order minOrder < 64 := by
    simp only [minOrder]
    omega
  rw [offsetAfter, blockSize_eq_ok exponent, ok_bind]
  apply Size.add_eq_ok
  simp only [size, maxBlockSize, Size.bound, minBlockSize] at *
  omega

/-! ## The whole walk -/

/-- The entries are those of a walk from `start` on, which goes by the headers
in memory until it is at the end of the arena or past it. -/
inductive Walks (arena : Arena) : (start : Nat) → List BlockEntry → Prop where
  | done {start : Nat} (reached : arena.size ≤ start) : Walks arena start []
  | block {start : Nat} {header : Header} {rest : List BlockEntry} (below : start < arena.size)
      (header_eq : header = Header.decode (arena.word start))
      (further : Walks arena (start + 2 ^ max header.order minOrder) rest) :
      Walks arena start (⟨start, header.order, header.allocated⟩ :: rest)

theorem blocksFrom_walks (spare : arena.size + maxBlockSize < Size.bound)
    (aligned : minBlockSize ∣ offset) :
    Yields (arena.blocksFrom offset) (arena.Walks offset) := by
  induction remaining : arena.size - offset using Nat.strongRecOn generalizing offset with
  | ind remaining induction =>
      rcases Nat.lt_or_ge offset arena.size with below | reached
      · let header := Header.decode (arena.word offset)
        have length := minBlockSize_le_stride header.order
        have positive : 0 < minBlockSize := by decide
        have room := add_minBlockSize_le aligned below
        have inside : offset + nodeSize ≤ arena.size :=
          Nat.le_trans (Nat.add_le_add_left (by decide) offset) room
        have small := Header.order_decode_lt (arena.word offset)
        have advanced := offsetAfter_eq_ok spare aligned below small
        rw [← order_blockAt] at advanced
        rw [blocksFrom_of_read below (readBlock_eq_ok inside) advanced, order_blockAt,
          isFree_blockAt, map_eq_bind]
        have further := induction (arena.size - (offset + 2 ^ max header.order minOrder)) (by omega)
          (Nat.dvd_add aligned (minBlockSize_dvd_stride header.order)) rfl
        apply further.bind
        intro rest walks
        exact .ok (.block below rfl walks)
      · exact .of_eq (blocksFrom_of_end reached) (.done reached)

namespace Walks

theorem of_mem (walks : arena.Walks start entries) (aligned : minBlockSize ∣ start)
    {entry : BlockEntry} (member : entry ∈ entries) :
    entry.order < 16 ∧ minBlockSize ∣ entry.offset ∧ entry.offset < arena.size := by
  induction walks with
  | done => cases member
  | block below header_eq further induction =>
      rcases List.mem_cons.mp member with rfl | later
      · subst header_eq
        exact ⟨Header.order_decode_lt _, aligned, below⟩
      · exact induction (Nat.dvd_add aligned (minBlockSize_dvd_stride _)) later

theorem length_mul_le (walks : arena.Walks start entries) (aligned : minBlockSize ∣ start) :
    entries.length * minBlockSize ≤ arena.size - start := by
  induction walks with
  | done => simp
  | @block start header rest below header_eq further induction =>
      have rest_le := induction (Nat.dvd_add aligned (minBlockSize_dvd_stride header.order))
      have length := minBlockSize_le_stride header.order
      have room := add_minBlockSize_le aligned below
      rw [List.length_cons, Nat.succ_mul]
      omega

end Walks

structure Walked (arena : Arena) (entries : List BlockEntry) : Prop where
  walks : arena.Walks 0 entries
  order_lt : ∀ entry ∈ entries, entry.order < 16
  placed : ∀ entry ∈ entries, minBlockSize ∣ entry.offset ∧ entry.offset < arena.size
  length_le : entries.length ≤ arena.size / minBlockSize

/-- Whatever memory holds, a walk through it comes to an end and meets no
fault, as long as the arena is not the last chunk of the address range. -/
theorem blocks_walked (spare : arena.size + maxBlockSize < Size.bound) :
    ∃ entries, arena.blocks = .ok entries ∧ arena.Walked entries := by
  rcases blocksFrom_walks spare (Nat.dvd_zero minBlockSize) with ⟨entries, blocks_eq, walks⟩
  have length := walks.length_mul_le (Nat.dvd_zero minBlockSize)
  refine ⟨entries, blocks_eq, walks, ?_, ?_, ?_⟩
  · exact fun entry member => (walks.of_mem (Nat.dvd_zero minBlockSize) member).1
  · exact fun entry member => (walks.of_mem (Nat.dvd_zero minBlockSize) member).2
  · exact (Nat.le_div_iff_mul_le (by decide)).mpr length

/-- A header of an order that no block has, which leads out of the arena. -/
theorem blocks_walked_of_order_fifteen :
    (chunk.replaceWord 0 31).size + maxBlockSize < Size.bound ∧
      ∃ entries, (chunk.replaceWord 0 31).blocks = .ok entries ∧
        (chunk.replaceWord 0 31).Walked entries := by
  have spare : (chunk.replaceWord 0 31).size + maxBlockSize < Size.bound := by
    rw [size_replaceWord, size_chunk]
    decide
  exact ⟨spare, blocks_walked spare⟩

end Arena

end BuddyHeap
