import BuddyHeap.Proofs.Ledger.Operations

/-! Where there is room. Because buddies never stay apart when both are free, a
place in which no byte is the client's lies in a single free block, and a block
can be taken from the lists just if there is such a place for it. -/

namespace BuddyHeap

namespace Span

variable {span other : Span}

theorem Aligned.buddy_lower {offset order : Nat} (aligned : Span.Aligned ⟨offset, order + 1⟩) :
    buddy ⟨offset, order⟩ = ⟨offset + 2 ^ order, order⟩ := by
  let half : Span := ⟨offset, order⟩
  have halfAligned : half.Aligned := (Nat.pow_dvd_pow 2 (Nat.le_succ order)).trans aligned
  rcases halfAligned.buddy_cases with ⟨parentAligned, ⟨same, above⟩ | ⟨_, above⟩⟩
  · rw [← same] at above
    exact Span.ext above rfl
  · have start : half.parent.offset ≤ offset := halfAligned.within_parent.1
    have apart : 2 ^ (order + 1) ∣ offset - half.parent.offset := Nat.dvd_sub aligned parentAligned
    have positive := Nat.two_pow_pos order
    simp only [half] at above apart
    have distance := Nat.le_of_dvd (by omega) apart
    simp only [Nat.pow_succ] at distance
    omega

theorem Covers.meets {index : Nat} (first : span.Covers index) (second : other.Covers index) :
    span.Meets other :=
  ⟨Nat.lt_of_le_of_lt first.1 second.2, Nat.lt_of_le_of_lt second.1 first.2⟩

end Span

namespace Ledger

variable {ledger : Ledger} {span : Span} {order : Nat}

def Vacant (ledger : Ledger) (span : Span) : Prop :=
  ∀ index, span.Covers index → ∀ offset allocation, ledger.live offset = some allocation →
    ¬Span.Covers ⟨offset, allocation.order⟩ index

def HasRoom (ledger : Ledger) (order : Nat) : Prop :=
  ∃ offset, Span.Aligned ⟨offset, order⟩ ∧ Span.stop ⟨offset, order⟩ ≤ ledger.size ∧
    ledger.Vacant ⟨offset, order⟩

theorem Vacant.of_within {inner : Span} (vacant : ledger.Vacant span) (within : inner.Within span) :
    ledger.Vacant inner :=
  fun index covers => vacant index
    ⟨Nat.le_trans within.1 covers.1, Nat.lt_of_lt_of_le covers.2 within.2⟩

namespace Tiled

/-- A block that shares a byte with a vacant span is free. -/
theorem exists_free_of_vacant (tiled : ledger.Tiled none) (vacant : ledger.Vacant span)
    (inside : span.stop ≤ ledger.size) : ∃ block, ledger.Uses none block .free ∧ span.Meets block := by
  have first : span.Covers span.offset := ⟨Nat.le_refl _, span.offset_lt_stop⟩
  rcases tiled.covered span.offset (Nat.lt_of_lt_of_le first.2 inside) with
    ⟨block, use, uses, covers⟩
  cases use with
  | free => exact ⟨block, uses, first.meets covers⟩
  | allocated requested => exact absurd covers (vacant _ first block.offset _ uses)
  | held => cases uses

theorem vacant_of_free (tiled : ledger.Tiled none) (free : ledger.Uses none span .free) :
    ledger.Vacant span := by
  intro index covers offset holds live blockCovers
  rcases holds with ⟨order, requested⟩
  have allocated : ledger.Uses none ⟨offset, order⟩ (.allocated requested) := live
  cases (tiled.unique _ _ _ _ free allocated (covers.meets blockCovers)).2

/-- A vacant span at a place where a block might lie is part of a free block. -/
theorem exists_free_around (tiled : ledger.Tiled none) (merged : ledger.lists.Merged) (offset : Nat)
    (least : minOrder ≤ order) (greatest : order ≤ topOrder) (aligned : Span.Aligned ⟨offset, order⟩)
    (inside : Span.stop ⟨offset, order⟩ ≤ ledger.size) (vacant : ledger.Vacant ⟨offset, order⟩) :
    ∃ block, ledger.Uses none block .free ∧ Span.Within ⟨offset, order⟩ block ∧
      order ≤ block.order := by
  induction order, least using Nat.le_induction generalizing offset with
  | base =>
      rcases tiled.exists_free_of_vacant vacant inside with ⟨block, free, meets⟩
      have least := (tiled.order_range _ _ free).1
      exact ⟨block, free, aligned.within (tiled.aligned _ _ free) least meets, least⟩
  | succ order least induction =>
      let whole : Span := ⟨offset, order + 1⟩
      have wholeStop : whole.stop = offset + 2 ^ order + 2 ^ order := by
        simp only [whole, Span.stop, Nat.pow_succ]
        omega
      have multiple : 2 ^ order ∣ offset := (Nat.pow_dvd_pow 2 (Nat.le_succ order)).trans aligned
      -- Each half lies in a free block, which is the half itself or goes beyond it.
      have either : ∀ start, Span.Aligned ⟨start, order⟩ → Span.Within ⟨start, order⟩ whole →
          (∃ block, ledger.Uses none block .free ∧ whole.Within block ∧ order + 1 ≤ block.order) ∨
            ledger.Uses none ⟨start, order⟩ .free := by
        intro start halfAligned within
        rcases induction start (Nat.le_of_succ_le greatest) halfAligned
          (Nat.le_trans within.2 inside) (vacant.of_within within) with ⟨block, free, around, larger⟩
        have blockAligned := tiled.aligned _ _ free
        rcases Nat.eq_or_lt_of_le larger with equal | beyond
        · rw [halfAligned.eq_of_meets blockAligned equal around.meets]
          exact .inr free
        · have covers : Span.Covers ⟨start, order⟩ start :=
            ⟨Nat.le_refl _, Span.offset_lt_stop ⟨start, order⟩⟩
          have meets : whole.Meets block := Span.Covers.meets
            ⟨Nat.le_trans within.1 covers.1, Nat.lt_of_lt_of_le covers.2 within.2⟩
            ⟨Nat.le_trans around.1 covers.1, Nat.lt_of_lt_of_le covers.2 around.2⟩
          exact .inl ⟨block, free, aligned.within blockAligned beyond meets, beyond⟩
      rcases either offset multiple ⟨Nat.le_refl _, by rw [wholeStop]; exact Nat.le_add_right ..⟩ with
        found | lowerFree
      · exact found
      · rcases either (offset + 2 ^ order) (Nat.dvd_add multiple (Nat.dvd_refl _))
          ⟨Nat.le_add_right .., wholeStop.ge⟩ with found | upperFree
        · exact found
        · have buddyFree : (Span.buddy ⟨offset, order⟩).offset ∈ ledger.lists order := by
            rw [aligned.buddy_lower]
            exact upperFree
          exact absurd buddyFree (merged ⟨offset, order⟩ greatest lowerFree)

/-- The lists have a block to serve an order just if it has room. -/
theorem first?_isSome_iff (tiled : ledger.Tiled none) (merged : ledger.lists.Merged)
    (least : minOrder ≤ order) (greatest : order ≤ topOrder) :
    (ledger.first? order).isSome ↔ ledger.HasRoom order := by
  constructor
  · intro found
    rcases Option.isSome_iff_exists.mp found with ⟨block, found⟩
    rcases cons_of_first? found with ⟨⟨larger, _⟩, rest, cons⟩
    have free : ledger.Uses none block .free := by
      simp only [Uses, cons, List.mem_cons_self]
    have within : Span.Within ⟨block.offset, order⟩ block :=
      ⟨Nat.le_refl _, Nat.add_le_add_left (Nat.pow_le_pow_right (by decide) larger) _⟩
    exact ⟨block.offset, (Nat.pow_dvd_pow 2 larger).trans (tiled.aligned _ _ free),
      Nat.le_trans within.2 (tiled.inside _ _ free), (tiled.vacant_of_free free).of_within within⟩
  · intro holds
    rcases holds with ⟨offset, aligned, inside, vacant⟩
    rcases tiled.exists_free_around merged offset least greatest aligned inside vacant with
      ⟨block, free, _, larger⟩
    rw [Option.isSome_iff_ne_none]
    intro none
    have top := (tiled.order_range _ _ free).2
    have empty := first?_eq_none_iff.mp none block.order larger (Nat.lt_succ_of_le top)
    simp only [Uses, empty, List.not_mem_nil] at free

end Tiled

/-! ## What becomes of a request -/

variable {request offset : Nat} {after : Ledger}

theorem size_of_takeListed (taken : ledger.takeListed order = some (offset, after)) :
    after.size = ledger.size := by
  rcases Option.map_eq_some_iff.mp taken with ⟨span, _, equal⟩
  cases equal
  rw [size_split]
  rfl

theorem takeListed_eq_none_iff (tiled : ledger.Tiled none) (merged : ledger.lists.Merged)
    (valid : ¬(request = 0 ∨ maxPayload < request)) :
    ledger.takeListed (requestOrder request) = none ↔ ¬ledger.HasRoom (requestOrder request) := by
  have greatest := requestOrder_le_topOrder (Nat.le_of_not_lt fun large => valid (.inr large))
  have found := tiled.first?_isSome_iff merged (minOrder_le_requestOrder request) greatest
  rw [takeListed, Option.map_eq_none_iff, ← found, Bool.not_eq_true, Option.isSome_eq_false_iff,
    Option.isNone_iff_eq_none]

theorem acquire_of_hasRoom (tiled : ledger.Tiled none) (merged : ledger.lists.Merged)
    (valid : ¬(request = 0 ∨ maxPayload < request)) (room : ledger.HasRoom (requestOrder request))
    (extensible : Bool) : ∃ offset, (ledger.acquire extensible request).1 = .ok offset ∧
      (ledger.acquire extensible request).2.size = ledger.size := by
  have absent := takeListed_eq_none_iff tiled merged valid
  rw [acquire, if_neg valid, take]
  cases taken : ledger.takeListed (requestOrder request) with
  | none => exact absurd room (absent.mp taken)
  | some result =>
      have size_eq : result.2.size = ledger.size := size_of_takeListed taken
      exact ⟨result.1, rfl, size_eq⟩

theorem acquire_of_not_hasRoom (tiled : ledger.Tiled none) (merged : ledger.lists.Merged)
    (valid : ¬(request = 0 ∨ maxPayload < request)) (full : ¬ledger.HasRoom (requestOrder request)) :
    (ledger.acquire true request).1 = .ok ledger.size ∧
      (ledger.acquire true request).2.size = ledger.size + maxBlockSize := by
  have absent := (takeListed_eq_none_iff tiled merged valid).mpr full
  have greatest := requestOrder_le_topOrder (Nat.le_of_not_lt fun large => valid (.inr large))
  have chunk := first?_extend greatest (Option.map_eq_none_iff.mp absent)
  rw [acquire, if_neg valid, take, absent]
  cases taken : ledger.extend.takeListed (requestOrder request) with
  | none =>
      rw [takeListed, chunk] at taken
      cases taken
  | some result =>
      have size_eq : result.2.size = ledger.extend.size := size_of_takeListed taken
      have offset_eq : result.1 = ledger.size := by
        rw [takeListed, chunk] at taken
        cases taken
        rfl
      exact ⟨congrArg Except.ok offset_eq, size_eq⟩

theorem acquire_of_exhausted (tiled : ledger.Tiled none) (merged : ledger.lists.Merged)
    (valid : ¬(request = 0 ∨ maxPayload < request)) (full : ¬ledger.HasRoom (requestOrder request)) :
    (ledger.acquire false request).1 =
      .error (.outOfMemory (requestOrder request) ledger.size) := by
  have absent := (takeListed_eq_none_iff tiled merged valid).mpr full
  rw [acquire, if_neg valid, take, absent]
  rfl

end Ledger

end BuddyHeap
