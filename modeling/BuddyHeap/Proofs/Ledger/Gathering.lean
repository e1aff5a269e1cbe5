import BuddyHeap.Proofs.Ledger.Algorithm

/-! The block that a block becomes part of when it is given up. It keeps the
place of the smaller one as long as every buddy that joins it lies above. -/

namespace BuddyHeap

namespace Ledger

variable {ledger : Ledger} {span : Span}

/-- Follow the joining from one block to the one that it ends with. -/
theorem gathered_induction {Motive : Ledger → Span → Prop}
    (last : ∀ ledger span, (span.order < topOrder → span.buddy.offset ∉ ledger.lists span.order) →
      ledger.gathered span = span → Motive ledger span)
    (joined : ∀ ledger span, span.order < topOrder → span.buddy.offset ∈ ledger.lists span.order →
      ledger.gathered span = (ledger.unlist span.buddy).gathered span.parent →
      Motive (ledger.unlist span.buddy) span.parent → Motive ledger span)
    (ledger : Ledger) (span : Span) : Motive ledger span := by
  induction depth : topOrder - span.order generalizing ledger span with
  | zero =>
      have top : ¬span.order < topOrder := by omega
      have single : span.order < topOrder → span.buddy.offset ∉ ledger.lists span.order :=
        fun below => absurd below top
      exact last ledger span single (free_of_not_mem single).2
  | succ levels induction =>
      have below : span.order < topOrder := by omega
      by_cases listed : span.buddy.offset ∈ ledger.lists span.order
      · refine joined ledger span below listed (free_of_mem below listed).2 (induction _ _ ?_)
        simp only [Span.parent]
        omega
      · exact last ledger span (fun _ => listed) (free_of_not_mem fun _ => listed).2

theorem within_gathered (ledger : Ledger) (span : Span) (aligned : span.Aligned) :
    span.Within (ledger.gathered span) ∧ (ledger.gathered span).Aligned ∧
      span.order ≤ (ledger.gathered span).order := by
  induction ledger, span using gathered_induction with
  | last ledger span single equal =>
      rw [equal]
      exact ⟨⟨Nat.le_refl _, Nat.le_refl _⟩, aligned, Nat.le_refl _⟩
  | joined ledger span below listed equal induction =>
      have rest := induction aligned.buddy_cases.1
      rw [equal]
      exact ⟨aligned.within_parent.trans rest.1, rest.2.1, Nat.le_of_succ_le rest.2.2⟩

/-- A block that moves down in the joining moves by its own length at least. -/
theorem gathered_offset_add_le (aligned : span.Aligned)
    (different : (ledger.gathered span).offset ≠ span.offset) :
    (ledger.gathered span).offset + 2 ^ span.order ≤ span.offset := by
  have gathered := ledger.within_gathered span aligned
  have start : 2 ^ span.order ∣ (ledger.gathered span).offset :=
    (Nat.pow_dvd_pow 2 gathered.2.2).trans gathered.2.1
  have below : (ledger.gathered span).offset < span.offset :=
    Nat.lt_of_le_of_ne gathered.1.1 different
  have distance := Nat.le_of_dvd (Nat.sub_pos_of_lt below) (Nat.dvd_sub aligned start)
  omega

theorem mem_free (ledger : Ledger) (span : Span) :
    (ledger.gathered span).offset ∈ (ledger.free span).lists (ledger.gathered span).order := by
  exact Listing.mem_push.mpr (.inl ⟨rfl, rfl⟩)

/-- A block keeps its place unless the buddies of a row of orders are free, and
the last of them lies below. -/
theorem gathered_offset_eq_iff (ledger : Ledger) (span : Span) (aligned : span.Aligned) :
    (ledger.gathered span).offset = span.offset ↔
      ∀ last, span.order ≤ last → last < topOrder →
        (∀ order, span.order ≤ order → order ≤ last →
          span.offset ^^^ 2 ^ order ∈ ledger.lists order) →
        span.offset < span.offset ^^^ 2 ^ last := by
  induction ledger, span using gathered_induction with
  | last ledger span single equal =>
      rw [equal]
      apply iff_of_true rfl
      intro last lower upper listed
      exact absurd (listed span.order (Nat.le_refl _) lower) (single (Nat.lt_of_le_of_lt lower upper))
  | joined ledger span below listed equal induction =>
      have halves := aligned.buddy_cases
      have positive := Nat.two_pow_pos span.order
      have higher : ∀ order, span.order < order →
          (ledger.unlist span.buddy).lists order = ledger.lists order := fun order above =>
        ledger.lists.erase_other span.buddy.offset above.ne'
      rw [equal]
      rcases halves.2 with ⟨same, above⟩ | ⟨lower, moved⟩
      · rw [← same] at induction
        rw [induction halves.1]
        constructor
        · intro rest last least bounded free
          rcases Nat.eq_or_lt_of_le least with first | later
          · subst first
            change span.offset < span.buddy.offset
            omega
          · apply rest last later bounded
            intro order lowest highest
            rw [higher order lowest]
            exact free order (Nat.le_of_lt lowest) highest
        · intro all last least bounded free
          apply all last (Nat.le_of_succ_le least) bounded
          intro order lowest highest
          rcases Nat.eq_or_lt_of_le lowest with first | later
          · subst first
            exact listed
          · rw [← higher order later]
            exact free order later highest
      · have within := (ledger.unlist span.buddy).within_gathered span.parent halves.1
        refine iff_of_false ?_ ?_
        · intro unmoved
          have reached := within.1.1
          omega
        · intro all
          have above : span.offset < span.buddy.offset := by
            apply all span.order (Nat.le_refl _) below
            intro order lowest highest
            cases Nat.le_antisymm lowest highest
            exact listed
          omega

end Ledger

end BuddyHeap
