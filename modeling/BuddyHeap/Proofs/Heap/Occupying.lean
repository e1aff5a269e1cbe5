import BuddyHeap.Proofs.Heap.Following

/-! A block in hand becomes the client's by the header that is written into it,
and what the client writes behind a header of its own is no concern of the
heap. -/

namespace BuddyHeap

namespace Ledger.Tiled

variable {ledger : Ledger} {span : Span} {index : Nat}

theorem not_taken_of_covers (tiled : ledger.Tiled (some span)) (covers : span.Covers index) :
    ¬Taken ledger.live none index := by
  intro taken
  rcases taken with ⟨offset, ⟨order, requested⟩, live, inside⟩ | ⟨_, impossible, _⟩
  · have allocated : ledger.Uses (some span) ⟨offset, order⟩ (.allocated requested) := live
    have apart := tiled.apart_of_held allocated (by simp)
    simp only [Span.Covers] at covers inside apart
    omega
  · cases impossible

theorem live_eq_none_of_held (tiled : ledger.Tiled (some span)) :
    ledger.live span.offset = none := by
  rw [Option.eq_none_iff_forall_ne_some]
  intro allocation live
  have taken : Taken ledger.live none span.offset :=
    .inl ⟨span.offset, allocation, live, Nat.le_refl _,
      Span.offset_lt_stop ⟨span.offset, allocation.order⟩⟩
  exact tiled.not_taken_of_covers ⟨Nat.le_refl _, span.offset_lt_stop⟩ taken

end Ledger.Tiled

namespace Heap.Follows

variable {heap : Heap} {arena : Arena} {ledger : Ledger} {hand : Option Span} {span : Span}
  {allocation : Allocation} {offset : Nat}

/-- Bytes that are neither of a node nor of a header are of no consequence. -/
theorem of_agreeOutside {Changed : Nat → Prop} (follows : heap.Follows ledger hand)
    (size_eq : arena.size = heap.arena.size)
    (agree : Arena.AgreeOutside Changed heap.arena arena)
    (nodes : ∀ index, NodeBytes ledger.lists.IsNode index → ¬Changed index)
    (headers : ∀ offset allocation, ledger.live offset = some allocation →
      ∀ index, offset ≤ index → index < offset + 8 → ¬Changed index) :
    Follows { heap with arena } ledger hand where
  mapped := agree.mapped follows.mapped
  size_eq := size_eq.trans follows.size_eq
  lists := follows.lists.of_byte_eq rfl size_eq.ge fun index bytes =>
    agree.byte_eq index (nodes index bytes)
  tiled := follows.tiled
  merged := follows.merged
  fits := follows.fits
  word_eq offset allocation live :=
    (agree.word_eq (headers offset allocation live)).trans
      (follows.word_eq offset allocation live)

/-! ## Headers -/

theorem allocate (follows : heap.Follows ledger (some span)) (fits : allocation.Fits)
    (order_eq : span.order = allocation.order)
    (word_eq : heap.arena.word span.offset = allocation.header.encode) :
    heap.Follows (ledger.allocate span.offset allocation) none where
  mapped := follows.mapped
  size_eq := follows.size_eq
  lists := follows.lists
  tiled := by
    obtain ⟨order, requested⟩ := allocation
    subst order_eq
    exact follows.tiled.allocate requested
  merged := follows.merged
  fits other otherAllocation live := by
    by_cases same : other = span.offset
    · subst same
      simp only [Ledger.allocate, Function.update_self] at live
      cases live
      exact fits
    · simp only [Ledger.allocate, Function.update_of_ne same] at live
      exact follows.fits other otherAllocation live
  word_eq other otherAllocation live := by
    by_cases same : other = span.offset
    · subst same
      simp only [Ledger.allocate, Function.update_self] at live
      cases live
      exact word_eq
    · simp only [Ledger.allocate, Function.update_of_ne same] at live
      exact follows.word_eq other otherAllocation live

theorem live_of_reclaim {other : Nat} {otherAllocation : Allocation}
    (live : (ledger.reclaim offset).live other = some otherAllocation) :
    other ≠ offset ∧ ledger.live other = some otherAllocation := by
  by_cases same : other = offset
  · subst same
    simp [Ledger.reclaim] at live
  · simp only [Ledger.reclaim, Function.update_of_ne same] at live
    exact ⟨same, live⟩

theorem reclaim (follows : heap.Follows ledger none) (live : ledger.live offset = some allocation) :
    heap.Follows (ledger.reclaim offset) (some ⟨offset, allocation.order⟩) where
  mapped := follows.mapped
  size_eq := follows.size_eq
  lists := follows.lists
  tiled := by
    have tiled : (ledger.reclaim (Span.offset ⟨offset, allocation.order⟩)).Tiled _ :=
      follows.tiled.reclaim live
    exact tiled
  merged := follows.merged
  fits other otherAllocation otherLive :=
    follows.fits other otherAllocation (live_of_reclaim otherLive).2
  word_eq other otherAllocation otherLive :=
    follows.word_eq other otherAllocation (live_of_reclaim otherLive).2

theorem writeBlock (follows : heap.Follows ledger (some span)) (fits : allocation.Fits)
    (order_eq : span.order = allocation.order) :
    Yields (heap.writeBlock span.offset (.allocated allocation.header)) fun after =>
      after.Follows (ledger.allocate span.offset allocation) none ∧
        Preserves ledger.live none heap after ∧
        Arena.AgreeOutside (fun index => span.offset ≤ index ∧ index < span.offset + 8) heap.arena
          after.arena := by
  have held : ledger.Uses (some span) span .held := rfl
  have room : span.offset + 8 ≤ span.stop :=
    Nat.add_le_add_left (headerSize_le_two_pow (follows.tiled.order_range span .held held).1) _
  have inside : span.offset + 8 ≤ heap.arena.size := by
    rw [follows.size_eq]
    exact Nat.le_trans room (follows.tiled.inside span .held held)
  have agree : Arena.AgreeOutside (fun index => span.offset ≤ index ∧ index < span.offset + 8)
      heap.arena (heap.arena.replaceWord span.offset allocation.header.encode) :=
    heap.arena.agreeOutside_replaceWord _ fun index lower upper => ⟨lower, upper⟩
  have covers : ∀ index, span.offset ≤ index ∧ index < span.offset + 8 → span.Covers index :=
    fun index range => ⟨range.1, Nat.lt_of_lt_of_le range.2 room⟩
  have untaken : ∀ index, span.offset ≤ index ∧ index < span.offset + 8 →
      ¬Taken ledger.live none index :=
    fun index range => follows.tiled.not_taken_of_covers (covers index range)
  have written := follows.of_agreeOutside (heap.arena.size_replaceWord ..) agree
    (fun index bytes range =>
      follows.tiled.not_nodeBytes (.inr ⟨span, rfl, covers index range⟩) bytes)
    (fun offset allocation live index lower upper range => by
      have room := (follows.fits offset allocation live).headerSize_le
      have taken : Taken ledger.live none index :=
        .inl ⟨offset, allocation, live, lower, Nat.lt_of_lt_of_le upper (Nat.add_le_add_left room _)⟩
      exact untaken index range taken)
  have unfolded : heap.writeBlock span.offset (.allocated allocation.header) =
      .ok { heap with arena := heap.arena.replaceWord span.offset allocation.header.encode } := by
    simp only [Heap.writeBlock, Arena.writeBlock, Arena.writeWord_eq_ok inside, ok_bind]
    rfl
  exact .of_eq unfolded ⟨written.allocate fits order_eq (Arena.word_replaceWord_self inside _),
    agree.mono untaken, agree⟩

/-! ## Payloads -/

theorem not_taken_of_live (follows : heap.Follows ledger hand)
    (live : ledger.live offset = some allocation) {index : Nat}
    (covers : Span.Covers ⟨offset, allocation.order⟩ index) :
    ¬Taken (ledger.reclaim offset).live none index := by
  intro taken
  rcases taken with ⟨other, otherAllocation, otherLive, inside⟩ | ⟨_, impossible, _⟩
  · rcases live_of_reclaim otherLive with ⟨different, otherLive⟩
    have used : ledger.Uses hand ⟨offset, allocation.order⟩ (.allocated allocation.requested) := live
    have otherUsed : ledger.Uses hand ⟨other, otherAllocation.order⟩
      (.allocated otherAllocation.requested) := otherLive
    have meets : Span.Meets ⟨offset, allocation.order⟩ ⟨other, otherAllocation.order⟩ :=
      ⟨Nat.lt_of_le_of_lt covers.1 inside.2, Nat.lt_of_le_of_lt inside.1 covers.2⟩
    have equal := (follows.tiled.unique _ _ _ _ used otherUsed meets).1
    exact different (congrArg Span.offset equal).symm
  · cases impossible

theorem apart_of_live {target : Nat} {other : Allocation} (follows : heap.Follows ledger hand)
    (live : ledger.live offset = some allocation) (targetLive : ledger.live target = some other)
    (different : offset ≠ target) :
    offset + 2 ^ allocation.order ≤ target ∨ target + 2 ^ other.order ≤ offset := by
  have used : ledger.Uses hand ⟨offset, allocation.order⟩ (.allocated allocation.requested) := live
  have targetUsed : ledger.Uses hand ⟨target, other.order⟩ (.allocated other.requested) :=
    targetLive
  have distinct : (⟨offset, allocation.order⟩ : Span) ≠ ⟨target, other.order⟩ :=
    fun equal => different (congrArg Span.offset equal)
  exact (follows.tiled.ne_iff_apart targetUsed used).mp distinct

theorem overwrite (follows : heap.Follows ledger none)
    (live : ledger.live offset = some allocation) {start : Nat} (content : List UInt8)
    (behind : offset + 8 ≤ start) (within : start + content.length ≤ offset + 2 ^ allocation.order) :
    Follows { heap with arena := heap.arena.overwrite start content } ledger none := by
  have allocated : ledger.Uses none ⟨offset, allocation.order⟩ (.allocated allocation.requested) :=
    live
  refine follows.of_agreeOutside (heap.arena.size_overwrite ..)
    (heap.arena.agreeOutside_overwrite content fun index lower upper =>
      (⟨lower, upper⟩ : start ≤ index ∧ index < start + content.length)) ?_ ?_
  · intro index bytes range
    have covers : Span.Covers ⟨offset, allocation.order⟩ index := by
      simp only [Span.Covers, Span.stop]
      omega
    exact follows.tiled.not_nodeBytes_of_covers allocated covers (by simp) bytes
  · intro other otherAllocation otherLive index lower upper range
    have otherAllocated : ledger.Uses none ⟨other, otherAllocation.order⟩
      (.allocated otherAllocation.requested) := otherLive
    have room := (follows.fits other otherAllocation otherLive).headerSize_le
    have meets : Span.Meets ⟨offset, allocation.order⟩ ⟨other, otherAllocation.order⟩ := by
      simp only [Span.Meets, Span.stop, headerSize] at room ⊢
      omega
    have equal := (follows.tiled.unique _ _ _ _ allocated otherAllocated meets).1
    have offset_eq : offset = other := congrArg Span.offset equal
    omega

theorem copy {target : Nat} {larger : Allocation} (follows : heap.Follows ledger none)
    (live : ledger.live offset = some allocation) (targetLive : ledger.live target = some larger)
    (different : offset ≠ target) (room : allocation.order ≤ larger.order) :
    Yields (heap.arena.copy (offset + 8) (target + 8) allocation.requested) fun arena =>
      Heap.Follows { heap with arena } ledger none ∧
        Arena.AgreeOutside
          (fun index => target + 8 ≤ index ∧ index < target + 8 + allocation.requested)
          heap.arena arena ∧
        ∀ index, index < allocation.requested →
          arena.byte (target + 8 + index) = heap.arena.byte (offset + 8 + index) := by
  have inside := follows.inside_of_live live
  have targetInside := follows.inside_of_live targetLive
  have fits : allocation.requested + 8 ≤ 2 ^ allocation.order := by
    have capacity := (follows.fits _ _ live).requested_le_capacity
    have header := (follows.fits _ _ live).headerSize_le
    simp only [Allocation.capacity, headerSize] at capacity header
    omega
  have lengths : 2 ^ allocation.order ≤ 2 ^ larger.order := Nat.pow_le_pow_right (by decide) room
  have apart := follows.apart_of_live live targetLive different
  have disjoint : offset + 8 + allocation.requested ≤ target + 8 ∨
      target + 8 + allocation.requested ≤ offset + 8 := by omega
  have length : (heap.arena.byteRange (offset + 8) allocation.requested).length =
      allocation.requested := by
    simp [Arena.byteRange]
  have unfolded : heap.arena.copy (offset + 8) (target + 8) allocation.requested =
      .ok (heap.arena.overwrite (target + 8)
        (heap.arena.byteRange (offset + 8) allocation.requested)) := by
    have source : heap.arena.checkRange (offset + 8) allocation.requested = .ok () :=
      Arena.checkRange_eq_ok (by omega)
    have destination : heap.arena.checkRange (target + 8) allocation.requested = .ok () :=
      Arena.checkRange_eq_ok (by omega)
    simp only [Arena.copy, source, destination, ok_bind, if_pos disjoint]
    rfl
  refine .of_eq unfolded ⟨follows.overwrite targetLive _ (Nat.le_refl _) (by omega), ?_, ?_⟩
  · apply Arena.agreeOutside_overwrite
    intro index lower upper
    omega
  · intro index below
    rw [Arena.byte_overwrite_of_inside (by omega) (by omega)]
    simp [Arena.byteRange]

end Heap.Follows

end BuddyHeap
