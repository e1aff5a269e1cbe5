import BuddyHeap.Proofs.Ledger.Gaps
import BuddyHeap.Proofs.Ledger.Splitting

/-! Chunks, by which the heap grows. Each is one block of the top order to
begin with, and again when the client has nothing of it. A free block of that
order stays one until a request is served from it. -/

namespace BuddyHeap

def chunkStarts (start count : Nat) : List Nat := List.range' start count maxBlockSize

theorem mem_chunkStarts {start count offset : Nat} : offset ∈ chunkStarts start count ↔
    ∃ index, index < count ∧ offset = start + maxBlockSize * index := List.mem_range'

theorem chunkStarts_append (start first second : Nat) :
    chunkStarts start first ++ chunkStarts (start + maxBlockSize * first) second =
      chunkStarts start (first + second) := List.range'_append

namespace Ledger

variable {ledger after : Ledger} {span : Span} {order offset node index request : Nat}
  {extensible : Bool}

theorem isGap_chunk (released : ∀ offset, ledger.live offset = none)
    (inside : index < ledger.size / maxBlockSize) :
    ledger.IsGap ⟨maxBlockSize * index, topOrder⟩ where
  order_range := ⟨(by decide : minOrder ≤ topOrder), Nat.le_refl _⟩
  aligned := Nat.dvd_mul_right ..
  inside := by
    have whole := Nat.mul_div_le ledger.size maxBlockSize
    have last : maxBlockSize * (index + 1) ≤ maxBlockSize * (ledger.size / maxBlockSize) :=
      Nat.mul_le_mul_left _ inside
    exact Nat.le_trans last whole
  vacant _ _ offset allocation live := by
    rw [released] at live
    cases live
  largest impossible := absurd impossible (Nat.lt_irrefl _)

/-- Nothing but whole chunks is free once the client has nothing. -/
theorem Tiled.free_iff_chunk (tiled : ledger.Tiled none) (merged : ledger.lists.Merged)
    (released : ∀ offset, ledger.live offset = none) : offset ∈ ledger.lists order ↔
      order = topOrder ∧ offset ∈ chunkStarts 0 (ledger.size / maxBlockSize) := by
  have chunkFree : ∀ index, index < ledger.size / maxBlockSize →
      ledger.Uses none ⟨maxBlockSize * index, topOrder⟩ .free := fun index inside =>
    tiled.free_of_isGap merged (isGap_chunk released inside)
  simp only [mem_chunkStarts, Nat.zero_add]
  constructor
  · intro listed
    have free : ledger.Uses none ⟨offset, order⟩ .free := listed
    have inside : offset < ledger.size :=
      Nat.lt_of_lt_of_le (Span.offset_lt_stop ⟨offset, order⟩) (tiled.inside _ _ free)
    have below := Nat.div_lt_div_of_lt_of_dvd tiled.whole inside
    have chunk := chunkFree _ below
    have chunkCovers : Span.Covers ⟨maxBlockSize * (offset / maxBlockSize), topOrder⟩ offset :=
      ⟨Nat.mul_div_le .., Nat.lt_mul_div_succ _ (by decide)⟩
    have covers : Span.Covers ⟨offset, order⟩ offset :=
      ⟨Nat.le_refl _, Span.offset_lt_stop ⟨offset, order⟩⟩
    have equal := (tiled.unique _ _ _ _ free chunk (covers.meets chunkCovers)).1
    exact ⟨congrArg Span.order equal, _, below, congrArg Span.offset equal⟩
  · intro holds
    rcases holds with ⟨rfl, index, inside, rfl⟩
    exact chunkFree index inside

/-! ## Blocks of the top order -/

theorem mem_top_free (ledger : Ledger) (span : Span) (listed : node ∈ ledger.lists topOrder) :
    node ∈ (ledger.free span).lists topOrder := by
  induction ledger, span using gathered_induction with
  | last ledger span single _ =>
      rw [(free_of_not_mem single).1]
      exact Listing.mem_push.mpr (.inr listed)
  | joined ledger span below buddyListed _ induction =>
      rw [(free_of_mem below buddyListed).1]
      apply induction
      have unchanged : (ledger.unlist span.buddy).lists topOrder = ledger.lists topOrder :=
        Listing.erase_other _ _ below.ne'
      rwa [unchanged]

theorem mem_lists_split (ledger : Ledger) (offset target order : Nat) {other : Nat}
    (listed : node ∈ ledger.lists other) : node ∈ (ledger.split offset target order).lists other := by
  rw [lists_split]
  split
  · exact List.mem_cons_of_mem _ listed
  · exact listed

theorem mem_top_takeListed (taken : ledger.takeListed order = some (offset, after))
    (listed : node ∈ ledger.lists topOrder) : node ∈ after.lists topOrder ∨ node = offset := by
  rcases Option.map_eq_some_iff.mp taken with ⟨span, _, equal⟩
  cases equal
  by_cases same : node = span.offset
  · exact .inr same
  · refine .inl (mem_lists_split _ _ _ _ ?_)
    by_cases top : topOrder = span.order
    · rw [top] at listed ⊢
      have kept := (List.mem_erase_of_ne same).mpr listed
      rwa [← Listing.erase_same] at kept
    · have unchanged : (ledger.unlist span).lists topOrder = ledger.lists topOrder :=
        Listing.erase_other _ _ top
      rwa [unchanged]

theorem mem_top_take (taken : ledger.take extensible order = some (offset, after))
    (listed : node ∈ ledger.lists topOrder) : node ∈ after.lists topOrder ∨ node = offset := by
  rw [take] at taken
  split at taken
  · rename_i found
    cases taken
    exact mem_top_takeListed found listed
  · split at taken
    · have widened : node ∈ ledger.extend.lists topOrder :=
        List.mem_cons_of_mem ledger.size listed
      exact mem_top_takeListed taken widened
    · cases taken

theorem mem_top_acquire (extensible : Bool) (request : Nat)
    (listed : node ∈ ledger.lists topOrder) :
    node ∈ (ledger.acquire extensible request).2.lists topOrder ∨
      (ledger.acquire extensible request).1 = .ok node := by
  rw [acquire]
  split
  · exact .inl listed
  · split
    · exact .inl listed
    · rename_i target taken found
      rcases mem_top_take found listed with kept | same
      · exact .inl kept
      · exact .inr (congrArg Except.ok same.symm)

theorem mem_top_release (offset : Nat) (listed : node ∈ ledger.lists topOrder) :
    node ∈ (ledger.release offset).lists topOrder := by
  rw [release]
  split
  · exact mem_top_free _ _ listed
  · exact listed

theorem mem_top_move (extensible : Bool) (offset request : Nat)
    (listed : node ∈ ledger.lists topOrder) :
    node ∈ (ledger.move extensible offset request).2.lists topOrder ∨
      (ledger.move extensible offset request).1 = .ok node := by
  have acquired := mem_top_acquire extensible request listed
  rw [move]
  split
  · rename_i failure after equal
    rw [equal] at acquired
    exact acquired.imp id fun impossible => by cases impossible
  · rename_i target after equal
    rw [equal] at acquired
    exact acquired.imp (mem_top_release offset) id

theorem mem_top_resize (extensible : Bool) (offset? : Option Nat) (request : Nat)
    (listed : node ∈ ledger.lists topOrder) :
    node ∈ (ledger.resize extensible offset? request).2.lists topOrder ∨
      (ledger.resize extensible offset? request).1 = .ok (some node) := by
  cases offset? with
  | none =>
      exact (mem_top_acquire extensible request listed).imp id
        fun same => by simp only [resize, same, Except.map]
  | some offset =>
      have resizes := ledger.resizes extensible offset request
      generalize ledger.resize extensible (some offset) request = result at resizes ⊢
      cases resizes with
      | released => exact .inl (mem_top_release offset listed)
      | invalid => exact .inl listed
      | absent => exact .inl listed
      | shrunk => exact .inl (mem_lists_split _ _ _ _ listed)
      | moved _ _ _ moved =>
          have kept := mem_top_move extensible offset request listed
          rw [moved] at kept
          exact kept.imp id (congrArg (Except.map some))
      | failed _ _ _ failed =>
          have kept := mem_top_move extensible offset request listed
          rw [failed] at kept
          exact kept.imp id fun impossible => by cases impossible

theorem mem_release_of_top {requested : Nat} (live : ledger.live offset = some ⟨topOrder, requested⟩) :
    offset ∈ (ledger.release offset).lists topOrder := by
  have gathered : (ledger.reclaim offset).gathered ⟨offset, topOrder⟩ = ⟨offset, topOrder⟩ :=
    (free_of_not_mem fun impossible => absurd impossible (Nat.lt_irrefl _)).2
  have member := (ledger.reclaim offset).mem_free ⟨offset, topOrder⟩
  rw [gathered] at member
  simp only [release, live]
  exact member

end Ledger

end BuddyHeap
