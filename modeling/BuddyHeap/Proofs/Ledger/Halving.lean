import BuddyHeap.Proofs.Ledger.Basic

/-! How the blocks of a heap change in number: a block is halved, two buddies
are joined, and a new chunk extends the heap. -/

namespace BuddyHeap

namespace Ledger.Tiled

variable {ledger : Ledger} {span other : Span} {use : Use} {hand : Option Span} {offset order : Nat}

theorem apart_of_held (tiled : ledger.Tiled (some span)) (uses : ledger.Uses (some span) other use)
    (different : use ≠ .held) : other.stop ≤ span.offset ∨ span.stop ≤ other.offset := by
  have held : ledger.Uses (some span) span .held := rfl
  rw [← Tiling.ne_iff_apart tiled held uses]
  intro equal
  subst equal
  exact tiled.not_uses held (Ne.symm different) uses

theorem uses_halve_iff (tiled : ledger.Tiled (some ⟨offset, order + 1⟩)) :
    (ledger.list ⟨offset + 2 ^ order, order⟩).Uses (some ⟨offset, order⟩) other use ↔
      (ledger.Uses (some ⟨offset, order + 1⟩) other use ∧
        (other.stop ≤ offset ∨ Span.stop ⟨offset, order + 1⟩ ≤ other.offset)) ∨
      (other = ⟨offset, order⟩ ∧ use = .held) ∨
        (other = ⟨offset + 2 ^ order, order⟩ ∧ use = .free) := by
  let whole : Span := ⟨offset, order + 1⟩
  have apart : ledger.Uses (some whole) other use → use ≠ .held →
      other.stop ≤ offset ∨ whole.stop ≤ other.offset := tiled.apart_of_held
  cases use with
  | free =>
      simp only [Uses, Ledger.list, Listing.mem_push] at apart ⊢
      constructor
      · intro either
        rcases either with ⟨order_eq, offset_eq⟩ | member
        · exact .inr (.inr ⟨Span.ext offset_eq order_eq, trivial⟩)
        · exact .inl ⟨member, apart member (by simp)⟩
      · intro either
        rcases either with ⟨member, _⟩ | ⟨_, impossible⟩ | ⟨rfl, _⟩
        · exact .inr member
        · cases impossible
        · exact .inl ⟨rfl, rfl⟩
  | allocated requested =>
      constructor
      · intro live
        exact .inl ⟨live, apart live (by simp)⟩
      · intro either
        rcases either with ⟨live, _⟩ | ⟨_, impossible⟩ | ⟨_, impossible⟩
        · exact live
        · cases impossible
        · cases impossible
  | held =>
      constructor
      · intro holds
        cases holds
        exact .inr (.inl ⟨rfl, rfl⟩)
      · intro either
        rcases either with ⟨holds, outside⟩ | ⟨rfl, _⟩ | ⟨_, impossible⟩
        · cases holds
          have nonempty := whole.offset_lt_stop
          change whole.stop ≤ whole.offset ∨ whole.stop ≤ whole.offset at outside
          omega
        · rfl
        · cases impossible

theorem halve (tiled : ledger.Tiled (some ⟨offset, order + 1⟩)) (least : minOrder ≤ order) :
    (ledger.list ⟨offset + 2 ^ order, order⟩).Tiled (some ⟨offset, order⟩) := by
  let whole : Span := ⟨offset, order + 1⟩
  let lower : Span := ⟨offset, order⟩
  let upper : Span := ⟨offset + 2 ^ order, order⟩
  have held : ledger.Uses (some whole) whole .held := rfl
  have wholeStop : whole.stop = offset + 2 ^ order + 2 ^ order := by
    simp only [whole, Span.stop, Nat.pow_succ]
    omega
  have positive := Nat.two_pow_pos order
  have inside := tiled.inside whole .held held
  have top : order ≤ topOrder := Nat.le_of_succ_le (tiled.order_range whole .held held).2
  have aligned : 2 ^ order ∣ offset :=
    (Nat.pow_dvd_pow 2 (Nat.le_succ order)).trans (tiled.aligned whole .held held)
  apply Tiling.replace tiled offset whole.stop
    (fun other use => (other = lower ∧ use = .held) ∨ (other = upper ∧ use = .free)) tiled.whole
  case extent =>
    intro index
    exact ⟨.inl, fun either => by omega⟩
  case uses_iff => exact fun other use => tiled.uses_halve_iff
  case cut => exact fun other use old => Tiling.cut_at tiled held old
  case within =>
    intro other use either
    rcases either with ⟨rfl, rfl⟩ | ⟨rfl, rfl⟩
    · refine ⟨least, top, aligned, Nat.le_refl _, ?_⟩
      rw [wholeStop]
      exact Nat.le_add_right _ _
    · exact ⟨least, top, Nat.dvd_add aligned (Nat.dvd_refl _), Nat.le_add_right _ _, wholeStop.ge⟩
  case unique =>
    intro _ _ _ _ first second meets
    rcases first with ⟨rfl, rfl⟩ | ⟨rfl, rfl⟩ <;> rcases second with ⟨rfl, rfl⟩ | ⟨rfl, rfl⟩ <;>
      simp only [Span.Meets, Span.stop, lower, upper] at meets
    · exact ⟨rfl, rfl⟩
    · omega
    · omega
    · exact ⟨rfl, rfl⟩
  case covered =>
    intro index start stop
    by_cases below : index < offset + 2 ^ order
    · exact ⟨lower, .held, .inl ⟨rfl, rfl⟩, start, below⟩
    · exact ⟨upper, .free, .inr ⟨rfl, rfl⟩, Nat.le_of_not_lt below, by rwa [wholeStop] at stop⟩

theorem eq_or_eq_buddy (tiled : ledger.Tiled (some span))
    (listed : span.buddy.offset ∈ ledger.lists span.order)
    (uses : ledger.Uses (some span) other use) (meets : other.Meets span.parent) :
    (other = span ∧ use = .held) ∨ (other = span.buddy ∧ use = .free) := by
  have held : ledger.Uses (some span) span .held := rfl
  have free : ledger.Uses (some span) span.buddy .free := listed
  have stop_eq := span.stop_parent
  have buddyStop : span.buddy.stop = span.buddy.offset + 2 ^ span.order := rfl
  have spanStop : span.stop = span.offset + 2 ^ span.order := rfl
  have nonempty := other.offset_lt_stop
  have eitherHalf : other.Meets span ∨ other.Meets span.buddy := by
    simp only [Span.Meets] at meets ⊢
    rcases (tiled.aligned span .held held).buddy_cases.2 with halves | halves <;> omega
  rcases eitherHalf with meetsSpan | meetsBuddy
  · exact .inl (tiled.unique other use span .held uses held meetsSpan)
  · exact .inr (tiled.unique other use span.buddy .free uses free meetsBuddy)

theorem cut_at_parent (tiled : ledger.Tiled (some span))
    (listed : span.buddy.offset ∈ ledger.lists span.order)
    (uses : ledger.Uses (some span) other use) :
    (other = span ∧ use = .held) ∨ (other = span.buddy ∧ use = .free) ∨
      other.stop ≤ span.parent.offset ∨ span.parent.stop ≤ other.offset := by
  by_cases meets : other.Meets span.parent
  · rcases tiled.eq_or_eq_buddy listed uses meets with isSpan | isBuddy
    · exact .inl isSpan
    · exact .inr (.inl isBuddy)
  · simp only [Span.Meets] at meets
    omega

theorem parent_inside (tiled : ledger.Tiled (some span))
    (listed : span.buddy.offset ∈ ledger.lists span.order) : span.parent.stop ≤ ledger.size := by
  have spanInside := tiled.inside span .held rfl
  have buddyInside := tiled.inside span.buddy .free listed
  have stop_eq := span.stop_parent
  have buddyStop : span.buddy.stop = span.buddy.offset + 2 ^ span.order := rfl
  have spanStop : span.stop = span.offset + 2 ^ span.order := rfl
  have aligned := tiled.aligned span .held rfl
  rcases aligned.buddy_cases.2 with halves | halves <;> omega

theorem uses_join_iff (tiled : ledger.Tiled (some span)) (separate : ledger.lists.Separate)
    (listed : span.buddy.offset ∈ ledger.lists span.order) :
    (ledger.unlist span.buddy).Uses (some span.parent) other use ↔
      (ledger.Uses (some span) other use ∧
        (other.stop ≤ span.parent.offset ∨ span.parent.stop ≤ other.offset)) ∨
      (other = span.parent ∧ use = .held) := by
  have aligned := tiled.aligned span .held rfl
  have spanWithin := aligned.within_parent
  have buddyWithin := aligned.buddy_within_parent
  have positive := other.offset_lt_stop
  have cut : ledger.Uses (some span) other use → _ := tiled.cut_at_parent listed
  cases use with
  | free =>
      have erased : (ledger.unlist span.buddy).Uses (some span.parent) other .free ↔
          ledger.Uses (some span) other .free ∧ other ≠ span.buddy := by
        have elsewhere : ¬(other.order = span.order ∧ other.offset = span.buddy.offset) ↔
            other ≠ span.buddy := by
          rw [Ne, Span.ext_iff, and_comm]
          rfl
        rw [← elsewhere]
        exact Listing.mem_erase (separate.nodup span.order)
      rw [erased]
      constructor
      · intro holds
        rcases holds with ⟨member, different⟩
        rcases cut member with ⟨_, impossible⟩ | ⟨equal, _⟩ | outside
        · cases impossible
        · exact absurd equal different
        · exact .inl ⟨member, outside⟩
      · intro either
        rcases either with ⟨member, outside⟩ | ⟨_, impossible⟩
        · apply And.intro member
          intro equal
          subst equal
          simp only [Span.Within] at buddyWithin
          omega
        · cases impossible
  | allocated requested =>
      constructor
      · intro live
        rcases cut live with ⟨_, impossible⟩ | ⟨_, impossible⟩ | outside
        · cases impossible
        · cases impossible
        · exact .inl ⟨live, outside⟩
      · intro either
        rcases either with ⟨live, _⟩ | ⟨_, impossible⟩
        · exact live
        · cases impossible
  | held =>
      constructor
      · intro holds
        cases holds
        exact .inr ⟨rfl, rfl⟩
      · intro either
        rcases either with ⟨holds, outside⟩ | ⟨rfl, _⟩
        · cases holds
          simp only [Span.Within] at spanWithin
          omega
        · rfl

theorem join (tiled : ledger.Tiled (some span)) (separate : ledger.lists.Separate)
    (below : span.order < topOrder) (listed : span.buddy.offset ∈ ledger.lists span.order) :
    (ledger.unlist span.buddy).Tiled (some span.parent) := by
  have inside := tiled.parent_inside listed
  have aligned := tiled.aligned span .held rfl
  have range := tiled.order_range span .held rfl
  apply Tiling.replace_one tiled span.parent .held tiled.whole
    ⟨Nat.le_succ_of_le range.1, below⟩ aligned.buddy_cases.1
  case extent =>
    intro index
    exact ⟨.inl, fun either => either.elim id fun covers => covers.2.trans_le inside⟩
  case uses_iff => exact fun other use => tiled.uses_join_iff separate listed
  case cut =>
    intro other use uses
    rcases tiled.cut_at_parent listed uses with ⟨rfl, _⟩ | ⟨rfl, _⟩ | outside
    · exact .inl aligned.within_parent
    · exact .inl aligned.buddy_within_parent
    · exact .inr outside

theorem widen (tiled : ledger.Tiled none) :
    ledger.widen.Tiled (some ⟨ledger.size, topOrder⟩) := by
  let chunk : Span := ⟨ledger.size, topOrder⟩
  have chunkStop : chunk.stop = ledger.size + 2 ^ topOrder := rfl
  have positive := Nat.two_pow_pos topOrder
  have below : ∀ other use, ledger.Uses none other use →
      other.stop ≤ ledger.size ∨ chunk.stop ≤ other.offset :=
    fun other use uses => .inl (tiled.inside other use uses)
  have range : minOrder ≤ topOrder := by decide
  apply Tiling.replace_one tiled chunk .held (Nat.dvd_add tiled.whole (Nat.dvd_refl _))
    ⟨range, Nat.le_refl _⟩ tiled.whole
  case extent =>
    intro index
    simp only [Span.Covers, chunkStop, chunk]
    omega
  case uses_iff =>
    intro other use
    cases use with
    | free =>
        have old := below other .free
        simpa [Uses, Ledger.widen] using old
    | allocated requested =>
        have old := below other (.allocated requested)
        simpa [Uses, Ledger.widen] using old
    | held => simp [Uses, chunk, eq_comm]
  case cut => exact fun other use uses => .inr (below other use uses)

end Ledger.Tiled

end BuddyHeap
