import BuddyHeap.Proofs.Client.Accounting

/-! The allocator is the buddy algorithm on lists. A client of a new allocator
can do what the books permit and is answered as they say, and all that can be
seen of its heap at any moment is in them: its size, the free lists in their
order and the headers of its own blocks. -/

namespace BuddyHeap

namespace Client

variable {client first last : Client} {books : Books} {trace : List (Action × Reply)}

structure Shows (client : Client) (books : Books) : Prop where
  size_eq : client.allocator.heap.size = books.ledger.size
  freeList_eq : ∀ order, minOrder ≤ order → order < orderBound →
    client.allocator.heap.freeList order = .ok (books.ledger.lists order)
  isListEmpty_eq : ∀ order, minOrder ≤ order → order < orderBound →
    client.allocator.heap.isListEmpty order = .ok (books.ledger.lists order).isEmpty
  live_eq : ∀ address, client.live address = (books.owned? address).map Allocation.requested
  check_eq : ∀ address allocation, books.owned? address = some allocation →
    client.allocator.heap.arena.check address = .ok (.ok (blockOffset address, allocation.header))

/-- The runs of the client are those of the books, reply by reply, and end in
what the books show. -/
structure Refines (client : Client) (books : Books) : Prop where
  traces : ∀ trace, (∃ last, Reaches client trace last) ↔
    books.permitsAll (trace.map Prod.fst) ∧ trace = books.trace (trace.map Prod.fst)
  states : ∀ trace last, Reaches client trace last →
    last.Shows (books.after (trace.map Prod.fst))

namespace Keeps

theorem shows (keeps : client.Keeps books) : client.Shows books where
  size_eq := keeps.follows.size_eq
  freeList_eq _ least bounded := keeps.follows.allocator.heap.lists.freeList_eq ⟨least, bounded⟩
  isListEmpty_eq _ least bounded :=
    keeps.follows.allocator.heap.lists.isListEmpty_eq ⟨least, bounded⟩
  live_eq := keeps.live_eq
  check_eq address allocation owned := by
    rw [Books.owned?] at owned
    split at owned
    · rename_i address_eq
      have accepted := keeps.follows.allocator.check_eq_ok owned
      rwa [← address_eq] at accepted
    · cases owned

theorem permitsAll (keeps : first.Keeps books) (run : Reaches first trace last) :
    books.permitsAll (trace.map Prod.fst) := by
  induction run with
  | start => rfl
  | step run permitted performed induction =>
      have allowed := (run.keeps keeps).2.permits_iff.mp permitted
      rw [List.map_append, Books.permitsAll_append, induction, Bool.true_and]
      simpa [Books.permitsAll] using allowed

theorem refines_books (keeps : client.Keeps books) : client.Refines books where
  traces trace := by
    constructor
    · intro holds
      rcases holds with ⟨last, run⟩
      exact ⟨keeps.permitsAll run, (run.keeps keeps).1⟩
    · intro holds
      rcases holds with ⟨permitted, trace_eq⟩
      rcases keeps.reaches _ permitted with ⟨last, run, _⟩
      rw [trace_eq]
      exact ⟨last, run⟩
  states _ _ run := (run.keeps keeps).2.shows

end Keeps

/-- A new allocator goes on as the algorithm on lists does from nothing. -/
theorem Fresh.refines (fresh : client.Fresh) :
    client.Refines (.new client.allocator.config client.paging.pageSize) := by
  rcases fresh.exists_keeps with ⟨config, pageSize, keeps⟩
  rw [keeps.config_eq, keeps.paging_eq]
  exact keeps.refines_books

/-- A run in which a block is taken off its list from behind another one. -/
theorem refines_of_unlisted : ∃ first last : Client, first.Fresh ∧
    first.Refines (.new first.allocator.config first.paging.pageSize) ∧
    Reaches first [(.acquire 24, .ok (some 8)), (.acquire 24, .ok (some 40)),
      (.acquire 24, .ok (some 72)), (.acquire 24, .ok (some 104)), (.release 104, .ok none),
      (.release 40, .ok none), (.release 72, .ok none)] last ∧
    last.allocator.heap.freeList 5 = .ok [32] ∧ last.allocator.heap.freeList 6 = .ok [64] := by
  rcases exists_reaches .default (by decide) [.acquire 24, .acquire 24, .acquire 24, .acquire 24,
    .release 104, .release 40, .release 72] rfl with ⟨first, last, fresh, run, keeps⟩
  have refines := fresh.refines
  exact ⟨first, last, fresh, refines, run, keeps.shows.freeList_eq 5 (by decide) (by decide),
    keeps.shows.freeList_eq 6 (by decide) (by decide)⟩

end Client

end BuddyHeap
