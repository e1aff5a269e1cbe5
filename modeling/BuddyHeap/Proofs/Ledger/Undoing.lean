import BuddyHeap.Proofs.Ledger.Chunks

/-! Giving up the block that was taken last undoes the taking. The parts that
were split off are joined again and the whole is the first of its list, as it
was before. Only a chunk that had to be added for it stays, as a free block. -/

namespace BuddyHeap

attribute [ext] Ledger

namespace Ledger

variable {ledger before after first second third taken : Ledger} {span : Span}
  {offset order target request : Nat} {allocation : Allocation} {extensible : Bool}

/-- The books are again as they were before, but for chunks that the heap has
got and that are free. -/
structure Restores (after before : Ledger) : Prop where
  live_eq : after.live = before.live
  lists_eq : ∀ order, order ≠ topOrder → after.lists order = before.lists order
  grown : ∃ count, after.size = before.size + maxBlockSize * count ∧
    (before.lists topOrder).Sublist (after.lists topOrder) ∧
    (after.lists topOrder).Perm (chunkStarts before.size count ++ before.lists topOrder)

namespace Restores

theorem refl (ledger : Ledger) : ledger.Restores ledger where
  live_eq := rfl
  lists_eq _ _ := rfl
  grown := ⟨0, rfl, List.Sublist.refl _, List.Perm.refl _⟩

theorem trans (later : third.Restores second) (earlier : second.Restores first) :
    third.Restores first where
  live_eq := later.live_eq.trans earlier.live_eq
  lists_eq order different := (later.lists_eq order different).trans (earlier.lists_eq order different)
  grown := by
    rcases earlier.grown with ⟨count, size_eq, sublist, perm⟩
    rcases later.grown with ⟨more, laterSize_eq, laterSublist, laterPerm⟩
    refine ⟨count + more, ?_, sublist.trans laterSublist, ?_⟩
    · rw [laterSize_eq, size_eq, Nat.add_assoc, ← Nat.mul_add]
    · rw [size_eq] at laterPerm
      have inserted := List.perm_append_comm_assoc
        (chunkStarts (first.size + maxBlockSize * count) more) (chunkStarts first.size count)
        (first.lists topOrder)
      rw [← List.append_assoc (chunkStarts first.size count), chunkStarts_append] at inserted
      exact laterPerm.trans ((perm.append_left _).trans inserted)

theorem eq_of_size_eq (restores : after.Restores before) (size_eq : after.size = before.size) :
    after = before := by
  rcases restores.grown with ⟨count, grown_eq, sublist, perm⟩
  have none : count = 0 := by
    simp only [maxBlockSize] at grown_eq
    omega
  subst none
  have top_eq : after.lists topOrder = before.lists topOrder :=
    (sublist.eq_of_length perm.length_eq.symm).symm
  refine Ledger.ext size_eq (funext fun order => ?_) restores.live_eq
  by_cases top : order = topOrder
  · rw [top, top_eq]
  · exact restores.lists_eq order top

end Restores

theorem restores_extend (ledger : Ledger) : ledger.extend.Restores ledger where
  live_eq := rfl
  lists_eq _ different := Listing.push_other _ _ different
  grown := ⟨1, rfl, List.sublist_cons_self .., List.Perm.refl _⟩

/-! ## Undoing one step after the other -/

theorem Restores.reclaim (restores : after.Restores (taken.allocate offset allocation))
    (fresh : taken.live offset = none) : (after.reclaim offset).Restores taken where
  live_eq := by
    rw [live_reclaim, restores.live_eq, live_allocate, Function.update_idem, ← fresh,
      Function.update_eq_self]
  lists_eq := restores.lists_eq
  grown := restores.grown

theorem Restores.exists_split (restores : after.Restores (before.split offset target order))
    (order_le : order ≤ topOrder) :
    ∃ whole : Ledger, whole.Restores before ∧ after = whole.split offset target order := by
  let whole : Ledger :=
    ⟨after.size, Function.update before.lists topOrder (after.lists topOrder), after.live⟩
  have top_eq : (before.split offset target order).lists topOrder = before.lists topOrder := by
    rw [lists_split, if_neg (by omega)]
  have others : ∀ other, other ≠ topOrder → whole.lists other = before.lists other := by
    intro other different
    simp only [whole, Function.update_of_ne different]
  refine ⟨whole, ⟨restores.live_eq.trans (live_split ..), others, ?_⟩, ?_⟩
  · have grown := restores.grown
    rw [size_split, top_eq] at grown
    simpa [whole] using grown
  · refine Ledger.ext (by rw [size_split]) (funext fun other => ?_) (by rw [live_split])
    rw [lists_split]
    by_cases top : other = topOrder
    · rw [if_neg (by omega), top]
      simp only [whole, Function.update_self]
    · rw [restores.lists_eq other top, lists_split, others other top]

theorem Restores.list (restores : after.Restores before) (span : Span) :
    (after.list span).Restores (before.list span) where
  live_eq := restores.live_eq
  lists_eq other different := by
    by_cases same : other = span.order
    · subst same
      simp only [Ledger.list, Listing.push_same, restores.lists_eq _ different]
    · simp only [Ledger.list, Listing.push_other _ _ same, restores.lists_eq other different]
  grown := by
    rcases restores.grown with ⟨count, size_eq, sublist, perm⟩
    refine ⟨count, size_eq, ?_⟩
    by_cases same : topOrder = span.order
    · simp only [Ledger.list, same, Listing.push_same]
      rw [← same]
      exact ⟨sublist.cons_cons _, (perm.cons _).trans List.perm_middle.symm⟩
    · simp only [Ledger.list, Listing.push_other _ _ same]
      exact ⟨sublist, perm⟩

theorem list_unlist {rest : List Nat} (cons : ledger.lists span.order = span.offset :: rest) :
    (ledger.unlist span).list span = ledger := by
  refine Ledger.ext rfl (funext fun other => ?_) rfl
  by_cases same : other = span.order
  · subst same
    simp [list, unlist, cons]
  · simp only [list, unlist, Listing.push_other _ _ same, Listing.erase_other _ _ same]

theorem Tiled.live_eq_none_of_free (tiled : ledger.Tiled none) (free : ledger.Uses none span .free) :
    ledger.live span.offset = none := by
  cases live : ledger.live span.offset with
  | none => rfl
  | some allocation =>
      have allocated : ledger.Uses none ⟨span.offset, allocation.order⟩
          (.allocated allocation.requested) := live
      have equal := tiled.span_unique free allocated rfl
      rw [← equal] at allocated
      cases tiled.use_unique free allocated

/-! ## Taking and giving up -/

theorem Restores.release_of_takeListed (tiled : ledger.Tiled none) (merged : ledger.lists.Merged)
    (listed : ledger.takeListed allocation.order = some (offset, taken))
    (restores : after.Restores (taken.allocate offset allocation)) :
    (after.release offset).Restores ledger := by
  rcases Option.map_eq_some_iff.mp listed with ⟨span, found, equal⟩
  cases equal
  rcases cons_of_first? found with ⟨⟨larger, _⟩, rest, cons⟩
  have free : ledger.Uses none span .free := by
    simp only [Uses, cons, List.mem_cons_self]
  have order_le := (tiled.order_range _ _ free).2
  have fresh : ((ledger.unlist span).split span.offset allocation.order span.order).live span.offset =
      none := by
    rw [live_split]
    exact tiled.live_eq_none_of_free free
  have live : after.live span.offset = some allocation := by
    rw [restores.live_eq]
    exact Function.update_self ..
  rcases (restores.reclaim fresh).exists_split order_le with ⟨whole, wholeRestores, whole_eq⟩
  have single : span.order < topOrder → span.buddy.offset ∉ whole.lists span.order := by
    intro below
    rw [wholeRestores.lists_eq _ below.ne]
    exact fun member => merged span below free (Listing.mem_of_mem_erase member)
  have released : after.release span.offset = whole.list span := by
    simp only [release, live, whole_eq]
    rw [free_split whole larger order_le (tiled.aligned _ _ free), (free_of_not_mem single).1]
  rw [released, ← list_unlist cons]
  exact wholeRestores.list span

/-- What is acquired and then released leaves nothing but chunks behind. -/
theorem Restores.release_of_acquire (tiled : ledger.Tiled none) (merged : ledger.lists.Merged)
    (acquired : ledger.acquire extensible request = (.ok offset, before))
    (restores : after.Restores before) : (after.release offset).Restores ledger := by
  rw [acquire] at acquired
  split at acquired
  · cases acquired
  · split at acquired
    · cases acquired
    · rename_i target taken took
      cases acquired
      rw [take] at took
      split at took
      · rename_i listed
        cases took
        exact restores.release_of_takeListed tiled merged listed
      · split at took
        · have extendTiled : ledger.extend.Tiled none := tiled.widen.list
          have extendMerged : ledger.extend.lists.Merged :=
            Listing.Merged.push merged fun below => absurd below (Nat.lt_irrefl topOrder)
          exact (restores.release_of_takeListed extendTiled extendMerged took).trans
            ledger.restores_extend
        · cases took

end Ledger

end BuddyHeap
