import BuddyHeap.Proofs.Heap.Listed
import BuddyHeap.Proofs.Ledger.Algorithm
import BuddyHeap.Proofs.Memory.Growth
import BuddyHeap.Proofs.Memory.Marks

/-! A heap follows its books: its free lists are those of the ledger, and in
front of every payload of the client stands the header of that allocation. What
an operation does to the heap keeps it in step with what the algorithm does to
the books, changes no byte of a block that is taken and leaves no header of an
allocated block where there was none. -/

namespace BuddyHeap

/-- The byte at `index` belongs to a block of the client or to the one in
hand. -/
def Taken (live : Nat → Option Allocation) (hand : Option Span) (index : Nat) : Prop :=
  (∃ offset allocation, live offset = some allocation ∧
    Span.Covers ⟨offset, allocation.order⟩ index) ∨ ∃ span, hand = some span ∧ span.Covers index

theorem Taken.of_live {live : Nat → Option Allocation} {hand : Option Span} {index : Nat}
    (taken : Taken live none index) : Taken live hand index := by
  rcases taken with mine | ⟨_, impossible, _⟩
  · exact .inl mine
  · cases impossible

theorem Taken.of_more {live more : Nat → Option Allocation} {hand : Option Span} {index : Nat}
    (taken : Taken live hand index)
    (included : ∀ offset allocation, live offset = some allocation → more offset = some allocation) :
    Taken more hand index := by
  rcases taken with ⟨offset, allocation, mine, covers⟩ | held
  · exact .inl ⟨offset, allocation, included offset allocation mine, covers⟩
  · exact .inr held

theorem Taken.of_payload {live : Nat → Option Allocation} {hand : Option Span} {offset index : Nat}
    {allocation : Allocation} (mine : live offset = some allocation) (fits : allocation.Fits)
    (below : index < allocation.requested) : Taken live hand (offset + 8 + index) := by
  have capacity := fits.requested_le_capacity
  have header := fits.headerSize_le
  simp only [Allocation.capacity, headerSize] at capacity header
  refine .inl ⟨offset, allocation, mine, ?_⟩
  simp only [Span.Covers, Span.stop]
  omega

theorem Taken.of_within {live : Nat → Option Allocation} {inner outer : Span} {index : Nat}
    (taken : Taken live (some inner) index) (within : inner.Within outer) :
    Taken live (some outer) index := by
  rcases taken with mine | ⟨_, ⟨⟩, covers⟩
  · exact .inl mine
  · exact .inr ⟨outer, rfl, Nat.le_trans within.1 covers.1, Nat.lt_of_lt_of_le covers.2 within.2⟩

namespace Ledger.Tiled

variable {ledger : Ledger} {hand : Option Span} {span : Span} {use : Use} {index : Nat}

theorem not_nodeBytes_of_covers (tiled : ledger.Tiled hand) (uses : ledger.Uses hand span use)
    (covers : span.Covers index) (beyond : use = .free → span.offset + nodeSize ≤ index) :
    ¬NodeBytes ledger.lists.IsNode index := by
  intro holds
  rcases holds with ⟨node, ⟨order, listed⟩, lower, upper⟩
  let block : Span := ⟨node, order⟩
  have free : ledger.Uses hand block .free := listed
  have blockCovers : block.Covers index := by
    have least := (tiled.order_range block .free free).1
    have length : 2 ^ minOrder ≤ 2 ^ order := Nat.pow_le_pow_right (by decide) least
    simp only [minOrder, nodeSize] at length upper
    simp only [Span.Covers, Span.stop, block]
    omega
  have meets : span.Meets block :=
    ⟨Nat.lt_of_le_of_lt covers.1 blockCovers.2, Nat.lt_of_le_of_lt blockCovers.1 covers.2⟩
  have equal := tiled.unique span use block .free uses free meets
  have room := beyond equal.2
  rw [equal.1] at room
  exact Nat.not_lt_of_le room upper

theorem not_nodeBytes (tiled : ledger.Tiled hand) (taken : Taken ledger.live hand index) :
    ¬NodeBytes ledger.lists.IsNode index := by
  rcases taken with ⟨offset, ⟨order, requested⟩, live, covers⟩ | ⟨span, held, covers⟩
  · have allocated : ledger.Uses hand ⟨offset, order⟩ (.allocated requested) := live
    exact tiled.not_nodeBytes_of_covers allocated covers (by simp)
  · have held : ledger.Uses hand span .held := held
    exact tiled.not_nodeBytes_of_covers held covers (by simp)

end Ledger.Tiled

namespace Heap

abbrev Preserves (live : Nat → Option Allocation) (hand : Option Span) (before after : Heap) :
    Prop :=
  Arena.AgreeOutside (fun index => ¬Taken live hand index) before.arena after.arena

namespace Preserves

variable {live : Nat → Option Allocation} {hand : Option Span} {before after : Heap}

theorem byte_eq_of_taken (preserves : Preserves live hand before after) {index : Nat}
    (taken : Taken live hand index) : after.arena.byte index = before.arena.byte index :=
  preserves.byte_eq index fun untaken => untaken taken

theorem of_live (preserves : Preserves live hand before after) :
    Preserves live none before after :=
  preserves.mono fun _ untaken taken => untaken taken.of_live

theorem of_fewer {fewer : Nat → Option Allocation} (preserves : Preserves live hand before after)
    (included : ∀ offset allocation, fewer offset = some allocation → live offset = some allocation) :
    Preserves fewer hand before after :=
  preserves.mono fun _ untaken taken => untaken (taken.of_more included)

theorem of_within {inner outer : Span} (preserves : Preserves live (some outer) before after)
    (within : inner.Within outer) : Preserves live (some inner) before after :=
  preserves.mono fun _ untaken taken => untaken (taken.of_within within)

theorem word_eq_of_live (preserves : Preserves live hand before after) {offset : Nat}
    {allocation : Allocation} (allocated : live offset = some allocation)
    (fits : allocation.Fits) : after.arena.word offset = before.arena.word offset := by
  have room := fits.headerSize_le
  simp only [headerSize] at room
  apply Arena.word_congr
  intro index lower upper
  apply preserves.byte_eq_of_taken
  refine .inl ⟨offset, allocation, allocated, lower, ?_⟩
  simp only [Span.stop]
  omega

end Preserves

/-- No byte of a block that is taken has changed, and the allocated bit is set
nowhere that it was not. -/
structure Rearranges (live : Nat → Option Allocation) (hand : Option Span) (before after : Heap) :
    Prop where
  preserves : Preserves live hand before after
  marked : ∀ place, after.arena.Marked place → before.arena.Marked place

namespace Rearranges

variable {live : Nat → Option Allocation} {hand : Option Span} {before middle after : Heap}

theorem refl (live : Nat → Option Allocation) (hand : Option Span) (heap : Heap) :
    Rearranges live hand heap heap := ⟨.refl .., fun _ marked => marked⟩

theorem trans (first : Rearranges live hand before middle)
    (second : Rearranges live hand middle after) : Rearranges live hand before after :=
  ⟨first.preserves.trans second.preserves, fun place marked =>
    first.marked place (second.marked place marked)⟩

theorem of_live (rearranges : Rearranges live hand before after) :
    Rearranges live none before after :=
  ⟨rearranges.preserves.of_live, rearranges.marked⟩

theorem of_within {inner outer : Span} (rearranges : Rearranges live (some outer) before after)
    (within : inner.Within outer) : Rearranges live (some inner) before after :=
  ⟨rearranges.preserves.of_within within, rearranges.marked⟩

end Rearranges

theorem Edited.rearranges (ledger : Ledger) {hand : Option Span} {before after : Heap}
    (edited : Edited ledger.lists.IsNode before after) (tiled : ledger.Tiled hand)
    (free : ∀ node, ledger.lists.IsNode node →
      ∃ order, after.arena.word node = (Header.free order).encode) :
    Rearranges ledger.live hand before after where
  preserves := edited.agree.mono fun _ bytes taken => tiled.not_nodeBytes taken bytes
  marked _ marked := by
    refine edited.agree.marked_of_nodes (fun node isNode => ⟨?_, free node isNode⟩) marked
    rcases isNode with ⟨order, listed⟩
    have used : ledger.Uses hand ⟨node, order⟩ .free := listed
    exact Arena.minBlockSize_dvd (tiled.order_range _ _ used).1 (tiled.aligned _ _ used)

/-- The heap is as its books say, with one block in hand perhaps. -/
structure Follows (heap : Heap) (ledger : Ledger) (hand : Option Span) : Prop where
  mapped : heap.arena.Mapped
  size_eq : heap.arena.size = ledger.size
  lists : heap.Lists ledger.lists
  tiled : ledger.Tiled hand
  merged : ledger.lists.Merged
  fits : ∀ offset allocation, ledger.live offset = some allocation → allocation.Fits
  word_eq : ∀ offset allocation, ledger.live offset = some allocation →
    heap.arena.word offset = allocation.header.encode

namespace Follows

variable {heap after : Heap} {ledger : Ledger} {hand hand' : Option Span} {span : Span}

theorem push (follows : heap.Follows ledger hand) (tiled : (ledger.list span).Tiled hand')
    (fresh : span.offset ∉ ledger.lists span.order)
    (single : span.order < topOrder → span.buddy.offset ∉ ledger.lists span.order) :
    Yields (heap.push span.order span.offset) fun after =>
      after.Follows (ledger.list span) hand' ∧ Rearranges ledger.live hand' heap after ∧
        Edited (ledger.list span).lists.IsNode heap after := by
  have free := ledger.uses_list hand' span
  have range := tiled.order_range span .free free
  have inRange : minOrder ≤ span.order ∧ span.order < orderBound :=
    ⟨range.1, Nat.lt_succ_of_le range.2⟩
  have length : ∀ order, minOrder ≤ order → nodeSize ≤ 2 ^ order := fun order least =>
    Nat.le_trans (by decide) (Nat.pow_le_pow_right (by decide : 0 < 2) least)
  have inside : span.offset + nodeSize ≤ heap.arena.size := by
    have spanInside : span.stop ≤ ledger.size := tiled.inside span .free free
    have room := length span.order range.1
    simp only [Span.stop] at spanInside
    rw [follows.size_eq]
    omega
  have apart : ∀ node, ledger.lists.IsNode node → Apart node span.offset := by
    intro node holds
    rcases holds with ⟨order, listed⟩
    have nodeFree : (ledger.list span).Uses hand' ⟨node, order⟩ .free :=
      Listing.mem_push.mpr (.inr listed)
    have different : (⟨node, order⟩ : Span) ≠ span := by
      intro equal
      subst equal
      exact fresh listed
    have nodeRoom := length order (tiled.order_range _ _ nodeFree).1
    have room := length span.order range.1
    have disjoint := (tiled.ne_iff_apart free nodeFree).mp different
    simp only [Span.stop] at disjoint
    simp only [Apart]
    omega
  apply Yields.mono (follows.lists.push inRange inside apart)
  intro after holds
  rcases holds with ⟨lists, edited⟩
  have rearranges : Rearranges ledger.live hand' heap after := by
    refine Edited.rearranges (ledger.list span) edited tiled fun node isNode => ?_
    rcases isNode with ⟨order, listed⟩
    exact ⟨order, lists.word_eq listed⟩
  refine ⟨⟨edited.agree.mapped follows.mapped, edited.size_eq.trans follows.size_eq, lists, tiled,
    follows.merged.push single, follows.fits, ?_⟩, rearranges, edited⟩
  intro offset allocation live
  rw [rearranges.preserves.word_eq_of_live live (follows.fits offset allocation live)]
  exact follows.word_eq offset allocation live

theorem unlisted (follows : heap.Follows ledger hand)
    (lists : after.Lists (ledger.unlist span).lists) (edited : Edited ledger.lists.IsNode heap after)
    (node : after.arena.NodeAt span.offset span.order .unlinked .unlinked)
    (tiled : (ledger.unlist span).Tiled hand') :
    after.Follows (ledger.unlist span) hand' ∧ Rearranges ledger.live hand heap after := by
  have rearranges : Rearranges ledger.live hand heap after := by
    refine Edited.rearranges ledger edited follows.tiled fun place isNode => ?_
    rcases isNode with ⟨order, listed⟩
    by_cases gone : order = span.order ∧ place = span.offset
    · exact ⟨span.order, gone.2 ▸ node.header_eq⟩
    · have kept : place ∈ (ledger.unlist span).lists order :=
        (Listing.mem_erase (follows.lists.separate.nodup span.order)).mpr ⟨listed, gone⟩
      exact ⟨order, lists.word_eq kept⟩
  refine ⟨⟨edited.agree.mapped follows.mapped, edited.size_eq.trans follows.size_eq, lists, tiled,
    follows.merged.erase _ _, follows.fits, ?_⟩, rearranges⟩
  intro offset allocation live
  rw [rearranges.preserves.word_eq_of_live live (follows.fits offset allocation live)]
  exact follows.word_eq offset allocation live

/-! ## Where the client's blocks lie -/

variable {offset : Nat} {allocation : Allocation}

theorem aligned_of_live (follows : heap.Follows ledger hand)
    (live : ledger.live offset = some allocation) : 2 ^ allocation.order ∣ offset := by
  have allocated : ledger.Uses hand ⟨offset, allocation.order⟩ (.allocated allocation.requested) :=
    live
  exact follows.tiled.aligned _ _ allocated

theorem minBlockSize_dvd_of_live (follows : heap.Follows ledger hand)
    (live : ledger.live offset = some allocation) : minBlockSize ∣ offset :=
  Arena.minBlockSize_dvd (follows.fits _ _ live).minOrder_le (follows.aligned_of_live live)

theorem inside_of_live (follows : heap.Follows ledger hand)
    (live : ledger.live offset = some allocation) :
    offset + 2 ^ allocation.order ≤ heap.arena.size := by
  have allocated : ledger.Uses hand ⟨offset, allocation.order⟩ (.allocated allocation.requested) :=
    live
  exact follows.size_eq ▸ follows.tiled.inside _ _ allocated

theorem payload_inside (follows : heap.Follows ledger hand)
    (live : ledger.live offset = some allocation) : offset + 8 < heap.arena.size := by
  have inside := follows.inside_of_live live
  have length : 2 ^ minOrder ≤ 2 ^ allocation.order :=
    Nat.pow_le_pow_right (by decide) (follows.fits _ _ live).minOrder_le
  simp only [minOrder] at length
  omega

theorem readBlock_of_live (follows : heap.Follows ledger hand)
    (live : ledger.live offset = some allocation) :
    heap.arena.readBlock offset = .ok (.allocated allocation.header) :=
  Arena.readBlock_eq_allocated (follows.payload_inside live).le (follows.word_eq _ _ live) rfl
    (Nat.lt_of_le_of_lt (follows.fits _ _ live).le_topOrder (by decide))

end Follows

end Heap

end BuddyHeap
