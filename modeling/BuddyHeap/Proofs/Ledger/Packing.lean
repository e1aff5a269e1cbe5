import Mathlib.Order.Bounds.Defs
import BuddyHeap.Proofs.Ledger.Gaps

/-! A heap whose client has all of it up to some place and nothing beyond. What
is free is cut off from there on in blocks as large as they can be, which get
larger the further away they are. So the least list that serves a request gives
the block at that very place. -/

namespace BuddyHeap

namespace Ledger

variable {ledger : Ledger} {span : Span} {order used request : Nat} {extensible : Bool}

theorem order_le_of_firstOf {start count other : Nat}
    (found : ledger.firstOf (List.range' start count) = some span)
    (listed : ledger.lists other ≠ []) (from_start : start ≤ other)
    (below : other < start + count) : span.order ≤ other := by
  induction count generalizing start with
  | zero => omega
  | succ count induction =>
      rw [List.range'_succ, firstOf_cons] at found
      cases first : ledger.lists start with
      | cons offset rest =>
          rw [first] at found
          cases found
          exact from_start
      | nil =>
          rw [first] at found
          have different : start ≠ other := by
            intro equal
            subst equal
            exact listed first
          exact induction found (by omega) (by omega)

/-- The client has every byte below `used` and no other one. The heap goes on
for less than a chunk. -/
structure Packed (ledger : Ledger) (used : Nat) : Prop where
  taken_iff : ∀ index, (∃ offset allocation, ledger.live offset = some allocation ∧
    Span.Covers ⟨offset, allocation.order⟩ index) ↔ index < used
  used_le : used ≤ ledger.size
  size_lt : ledger.size < used + maxBlockSize

namespace Packed

theorem empty : Ledger.empty.Packed 0 where
  taken_iff _ := by simp [Ledger.empty]
  used_le := Nat.le_refl _
  size_lt := by decide

theorem vacant_iff (packed : ledger.Packed used) : ledger.Vacant span ↔ used ≤ span.offset := by
  constructor
  · intro vacant
    by_contra below
    have first : span.Covers span.offset := ⟨Nat.le_refl _, span.offset_lt_stop⟩
    rcases (packed.taken_iff span.offset).mpr (Nat.lt_of_not_le below) with
      ⟨offset, allocation, live, covers⟩
    exact vacant _ first offset allocation live covers
  · intro beyond index covers offset allocation live inside
    have below := (packed.taken_iff index).mp ⟨offset, allocation, live, inside⟩
    exact Nat.lt_irrefl _ (Nat.lt_of_lt_of_le below (Nat.le_trans beyond covers.1))

theorem isLeast (packed : ledger.Packed used) (tiled : ledger.Tiled none) :
    IsLeast {bytes | maxBlockSize ∣ bytes ∧ used ≤ bytes} ledger.size := by
  have whole : maxBlockSize ∣ ledger.size := tiled.whole
  refine ⟨⟨whole, packed.used_le⟩, ?_⟩
  intro bytes holds
  rcases holds with ⟨multiple, enough⟩
  by_contra fewer
  have distance := Nat.le_of_dvd (by omega) (Nat.dvd_sub whole multiple)
  have short := packed.size_lt
  omega

theorem stop_le (packed : ledger.Packed used) (tiled : ledger.Tiled none) (greatest : order ≤ topOrder)
    (multiple : 2 ^ order ∣ used) (room : used < ledger.size) : used + 2 ^ order ≤ ledger.size := by
  have whole : 2 ^ order ∣ ledger.size := (Nat.pow_dvd_pow 2 greatest).trans tiled.whole
  have distance := Nat.le_of_dvd (Nat.sub_pos_of_lt room) (Nat.dvd_sub whole multiple)
  have inside := packed.used_le
  omega

/-- The lists give the block with which the free part of the heap starts. -/
theorem exists_first? (packed : ledger.Packed used) (tiled : ledger.Tiled none)
    (merged : ledger.lists.Merged) (least : minOrder ≤ order) (greatest : order ≤ topOrder)
    (multiple : 2 ^ order ∣ used) (room : used < ledger.size) :
    ∃ block, ledger.first? order = some block ∧ block.offset = used := by
  have vacant : ledger.Vacant ⟨used, order⟩ := packed.vacant_iff.mpr (Nat.le_refl _)
  rcases tiled.exists_free_around merged used least greatest multiple
    (packed.stop_le tiled greatest multiple room) vacant with ⟨lowest, lowestFree, around, larger⟩
  have lowest_eq : lowest.offset = used :=
    Nat.le_antisymm around.1 (packed.vacant_iff.mp (tiled.vacant_of_free lowestFree))
  have lowestTop := (tiled.order_range _ _ lowestFree).2
  have listed : ledger.lists lowest.order ≠ [] := List.ne_nil_of_mem lowestFree
  cases found : ledger.first? order with
  | none => exact absurd (first?_eq_none_iff.mp found _ larger (Nat.lt_succ_of_le lowestTop)) listed
  | some block =>
      rcases cons_of_first? found with ⟨⟨blockLarger, _⟩, rest, cons⟩
      have free : ledger.Uses none block .free := by
        simp only [Uses, cons, List.mem_cons_self]
      have smaller : block.order ≤ lowest.order :=
        order_le_of_firstOf found listed larger (by simp only [orderBound, topOrder] at *; omega)
      refine ⟨block, rfl, ?_⟩
      by_contra elsewhere
      have gap := tiled.isGap_of_free merged free
      have beyond := packed.vacant_iff.mp gap.vacant
      have apart : lowest.stop ≤ block.offset :=
        tiled.stop_le_of_lt lowestFree free (by omega)
      have length : 2 ^ block.order ≤ 2 ^ lowest.order := Nat.pow_le_pow_right (by decide) smaller
      simp only [Span.stop, lowest_eq] at apart
      rcases Nat.eq_or_lt_of_le gap.order_range.2 with top | below
      · have inside := gap.inside
        have end_lt := packed.size_lt
        have chunk : maxBlockSize = 2 ^ block.order := by rw [top]; rfl
        simp only [Span.stop] at inside
        omega
      · -- The buddy of a smaller one would be free as well.
        have parent := gap.aligned.buddy_cases.2
        have taken := gap.largest below
        rw [packed.vacant_iff] at taken
        omega

theorem take (packed : ledger.Packed used) {offset : Nat} (start_eq : offset = used)
    {after : Ledger}
    (live_eq : after.live = Function.update ledger.live offset (some (.ofRequest request)))
    (inside : used + 2 ^ requestOrder request ≤ after.size)
    (short : after.size < used + 2 ^ requestOrder request + maxBlockSize) :
    after.Packed (used + 2 ^ requestOrder request) where
  taken_iff index := by
    subst start_eq
    rw [live_eq]
    have fresh : ledger.live offset = none := by
      rw [Option.eq_none_iff_forall_ne_some]
      intro allocation live
      have covers : Span.Covers ⟨offset, allocation.order⟩ offset :=
        ⟨Nat.le_refl _, Span.offset_lt_stop ⟨offset, allocation.order⟩⟩
      exact Nat.lt_irrefl _ ((packed.taken_iff offset).mp ⟨offset, allocation, live, covers⟩)
    constructor
    · intro holds
      rcases holds with ⟨other, allocation, live, covers⟩
      by_cases same : other = offset
      · subst same
        rw [Function.update_self] at live
        cases live
        exact covers.2
      · rw [Function.update_of_ne same] at live
        have below := (packed.taken_iff index).mp ⟨other, allocation, live, covers⟩
        exact Nat.lt_of_lt_of_le below (Nat.le_add_right ..)
    · intro below
      by_cases old : index < offset
      · rcases (packed.taken_iff index).mpr old with ⟨other, allocation, live, covers⟩
        have different : other ≠ offset := by
          intro same
          subst same
          rw [fresh] at live
          cases live
        exact ⟨other, allocation, by rw [Function.update_of_ne different]; exact live, covers⟩
      · exact ⟨offset, _, Function.update_self .., Nat.le_of_not_lt old, below⟩
  used_le := inside
  size_lt := short

theorem hasRoom_iff (packed : ledger.Packed used) (tiled : ledger.Tiled none)
    (greatest : order ≤ topOrder) (multiple : 2 ^ order ∣ used) :
    ledger.HasRoom order ↔ used < ledger.size := by
  constructor
  · intro room
    rcases room with ⟨offset, _, inside, vacant⟩
    have beyond := packed.vacant_iff.mp vacant
    have positive := Span.offset_lt_stop ⟨offset, order⟩
    omega
  · intro room
    exact ⟨used, multiple, packed.stop_le tiled greatest multiple room,
      packed.vacant_iff.mpr (Nat.le_refl _)⟩

variable (packed : ledger.Packed used) (tiled : ledger.Tiled none) (merged : ledger.lists.Merged)
  (valid : ¬(request = 0 ∨ maxPayload < request)) (multiple : 2 ^ requestOrder request ∣ used)
include packed tiled merged valid multiple

theorem acquire (served : used < ledger.size ∨ extensible = true) :
    (ledger.acquire extensible request).1 = .ok used ∧
      (ledger.acquire extensible request).2.Packed (used + 2 ^ requestOrder request) := by
  have greatest := requestOrder_le_topOrder (Nat.le_of_not_lt fun large => valid (.inr large))
  have inside := packed.used_le
  have short := packed.size_lt
  have positive := Nat.two_pow_pos (requestOrder request)
  by_cases room : used < ledger.size
  · rcases packed.exists_first? tiled merged (minOrder_le_requestOrder request) greatest multiple
      room with ⟨block, found, block_eq⟩
    rcases acquire_of_hasRoom tiled merged valid
      ((packed.hasRoom_iff tiled greatest multiple).mpr room) extensible with
      ⟨offset, offset_eq, size_eq⟩
    have first : offset = used := by
      simp only [Ledger.acquire, if_neg valid, Ledger.take, takeListed, found, Option.map_some,
        block_eq] at offset_eq
      exact (Except.ok.inj offset_eq).symm
    have live_eq := live_of_acquire (Prod.ext offset_eq rfl)
    have fits := packed.stop_le tiled greatest multiple room
    exact ⟨first ▸ offset_eq, packed.take first live_eq (by omega) (by omega)⟩
  · have full := mt (packed.hasRoom_iff tiled greatest multiple).mp room
    have granted := served.resolve_left room
    rcases acquire_of_not_hasRoom tiled merged valid full with ⟨offset_eq, size_eq⟩
    subst granted
    have live_eq := live_of_acquire (Prod.ext offset_eq rfl)
    have first : ledger.size = used := by omega
    have chunk : 2 ^ requestOrder request ≤ maxBlockSize :=
      Nat.pow_le_pow_right (by decide) greatest
    exact ⟨first ▸ offset_eq, packed.take first live_eq (by omega) (by omega)⟩

theorem acquire_of_full (full : used = ledger.size) :
    ledger.acquire false request =
      (.error (.outOfMemory (requestOrder request) ledger.size), ledger) := by
  have greatest := requestOrder_le_topOrder (Nat.le_of_not_lt fun large => valid (.inr large))
  have crowded : ¬ledger.HasRoom (requestOrder request) := by
    rw [packed.hasRoom_iff tiled greatest multiple]
    omega
  have failed := acquire_of_exhausted tiled merged valid crowded
  exact Prod.ext failed (eq_of_acquire_error (Prod.ext failed rfl))

end Packed

end Ledger

end BuddyHeap
