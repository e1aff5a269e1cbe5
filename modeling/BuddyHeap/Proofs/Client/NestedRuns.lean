import BuddyHeap.Proofs.Client.Refinement
import BuddyHeap.Proofs.Heap.Entries
import BuddyHeap.Proofs.Ledger.Undoing

/-! A client that gives up what it has acquired, the last first, leaves the heap
as it was, down to the order of the free lists. Only chunks that the heap has
got on the way stay. -/

namespace BuddyHeap

namespace Ledger

variable {ledger : Ledger} {extensible : Bool} {size : Nat}

theorem perform_acquire_of_error {failure : AllocatorError}
    (reply_eq : .error failure = (ledger.perform extensible (.acquire size)).1) :
    (ledger.perform extensible (.acquire size)).2 = ledger := by
  have failed := eq_error_of_map reply_eq.symm
  exact eq_of_acquire_error (Prod.ext failed rfl)

end Ledger

namespace Books

/-- The books differ at most in why the system refuses pages. -/
structure Agree (books other : Books) : Prop where
  ledger_eq : books.ledger = other.ledger
  config_eq : books.config = other.config
  pageSize_eq : books.paging.pageSize = other.paging.pageSize
  refusal_iff : books.paging.refusal? = none ↔ other.paging.refusal? = none

namespace Agree

variable {books other : Books}

theorem extensible_eq (agree : books.Agree other) : books.extensible = other.extensible := by
  have failure_iff : books.paging.chunkFailure? books.ledger.size = none ↔
      other.paging.chunkFailure? other.ledger.size = none := by
    rw [Paging.chunkFailure?_eq_none_iff, Paging.chunkFailure?_eq_none_iff, agree.ledger_eq,
      agree.pageSize_eq, agree.refusal_iff]
  have committing_eq : books.committing = other.committing := by
    rw [Bool.eq_iff_iff, committing, committing, Option.isNone_iff_eq_none,
      Option.isNone_iff_eq_none]
    exact failure_iff
  rw [extensible, extensible, committing_eq, agree.ledger_eq, agree.config_eq]

/-- No reply tells why pages are refused. -/
theorem perform (agree : books.Agree other) (action : Action) :
    (books.perform action).1 = (other.perform action).1 ∧
      (books.perform action).2.Agree (other.perform action).2 := by
  have same : books.ledger.perform books.extensible action =
      other.ledger.perform other.extensible action := by
    rw [agree.ledger_eq, agree.extensible_eq]
  have reply_eq := congrArg Prod.fst same
  have ledger_eq := congrArg Prod.snd same
  refine ⟨reply_eq, ledger_eq, agree.config_eq, ?_, ?_⟩
  · cases action <;> exact agree.pageSize_eq
  · cases action with
    | setRefusal cause? => exact Iff.rfl
    | acquire | release | resize | write => exact agree.refusal_iff

theorem permits_eq (agree : books.Agree other) (action : Action) :
    books.permits action = other.permits action := by
  have owned_eq : books.owned? = other.owned? := by
    funext address
    rw [owned?, owned?, agree.ledger_eq]
  cases action with
  | acquire | setRefusal => rfl
  | release | write => simp only [permits, owned_eq]
  | resize address? => cases address? <;> simp only [permits, owned_eq]

theorem trace_eq (agree : books.Agree other) (actions : List Action) :
    books.trace actions = other.trace actions ∧
      books.permitsAll actions = other.permitsAll actions := by
  induction actions generalizing books other with
  | nil => exact ⟨rfl, rfl⟩
  | cons action actions induction =>
      rcases agree.perform action with ⟨reply_eq, next⟩
      rcases induction next with ⟨trace_eq, permitsAll_eq⟩
      simp only [trace, permitsAll, reply_eq, trace_eq, permitsAll_eq, agree.permits_eq, and_self]

end Agree

end Books

namespace Client

variable {client first last before after : Client} {books : Books} {trace : List (Action × Reply)}

/-- All that is acquired is given up again, and the last first. What fails
counts as nothing, and so does what the client writes and what the system
grants. -/
inductive Nested : List (Action × Reply) → Prop where
  | nothing : Nested []
  | failed {size : Nat} {failure : AllocatorError} : Nested [(.acquire size, .error failure)]
  | written {address : Int} {distance : Nat} {content : List UInt8} :
      Nested [(.write address distance content, .ok none)]
  | granted {cause? : Option SystemError} : Nested [(.setRefusal cause?, .ok none)]
  | held {size : Nat} {address : Int} {inner : List (Action × Reply)} (nested : Nested inner) :
      Nested ((.acquire size, .ok (some address)) :: inner ++ [(.release address, .ok none)])
  | append {early late : List (Action × Reply)} (nestedEarly : Nested early)
      (nestedLate : Nested late) : Nested (early ++ late)

/-- Nothing can be told from the heap about what has happened to it, and as long
as the system grants chunks as it did it answers as it would have. -/
structure Unchanged (before after : Client) : Prop where
  freeList_eq : ∀ order, minOrder ≤ order → order < orderBound → ∃ offsets,
    before.allocator.heap.freeList order = .ok offsets ∧
      after.allocator.heap.freeList order = .ok offsets
  blocks_eq : ∃ entries, before.allocator.heap.arena.blocks = .ok entries ∧
    after.allocator.heap.arena.blocks = .ok entries
  acquire_eq : ∀ size, after.committing = before.committing → ∃ reply next otherNext,
    before.perform (.acquire size) = .ok (reply, next) ∧
      after.perform (.acquire size) = .ok (reply, otherNext)
  runs_iff : (after.paging.refusal? = none ↔ before.paging.refusal? = none) → ∀ trace,
    (∃ next, Reaches after trace next) ↔ ∃ next, Reaches before trace next

/-- The client has what it had, and the heap is as it was but for chunks that
it has got and that are free. -/
structure Restored (before after : Client) : Prop where
  live_eq : after.live = before.live
  freeList_eq : ∀ order, minOrder ≤ order → order < topOrder → ∃ offsets,
    before.allocator.heap.freeList order = .ok offsets ∧
      after.allocator.heap.freeList order = .ok offsets
  grown : ∃ count offsets grown,
    after.allocator.heap.size = before.allocator.heap.size + maxBlockSize * count ∧
      before.allocator.heap.freeList topOrder = .ok offsets ∧
      after.allocator.heap.freeList topOrder = .ok grown ∧ offsets.Sublist grown ∧
      grown.Perm (chunkStarts before.allocator.heap.size count ++ offsets)
  unchanged : after.allocator.heap.size = before.allocator.heap.size → before.Unchanged after

structure Undoes (client : Client) : Prop where
  restored : ∀ trace last, Nested trace → Reaches client trace last → client.Restored last
  closes : ∀ size address inner last, Nested inner →
    Reaches client ((.acquire size, .ok (some address)) :: inner) last →
    ∃ closed, last.perform (.release address) = .ok (.ok none, closed)

theorem Reaches.exists_of_cons {entry : Action × Reply} (run : Reaches first (entry :: trace) last) :
    ∃ middle, Reaches first [entry] middle ∧ Reaches middle trace last :=
  run.exists_of_append

theorem Reaches.reply_eq {action : Action} {reply : Reply}
    (run : Reaches first ((action, reply) :: trace) last) (keeps : first.Keeps books) :
    reply = (books.perform action).1 :=
  congrArg Prod.snd (List.head_eq_of_cons_eq (run.keeps keeps).1)

theorem Reaches.exists_opened {size : Nat} {address : Int}
    (run : Reaches first ((.acquire size, .ok (some address)) :: trace) last)
    (keeps : first.Keeps books) : ∃ offset opened, address = payloadAddress offset ∧
      books.ledger.acquire books.extensible size =
        (.ok offset, (books.perform (.acquire size)).2.ledger) ∧
      opened.Keeps (books.perform (.acquire size)).2 ∧ Reaches opened trace last := by
  rcases Ledger.exists_acquire_of_reply (run.reply_eq keeps) with ⟨offset, address_eq, acquired⟩
  rcases run.exists_of_cons with ⟨opened, acquiring, within⟩
  exact ⟨offset, opened, address_eq, acquired, (acquiring.keeps keeps).2, within⟩

theorem Nested.restores (nested : Nested trace) : ∀ {first last : Client} {books : Books},
    first.Keeps books → Reaches first trace last →
    (books.after (trace.map Prod.fst)).ledger.Restores books.ledger := by
  induction nested with
  | nothing =>
      intro first last books keeps run
      exact .refl _
  | failed =>
      intro first last books keeps run
      have unchanged := Ledger.perform_acquire_of_error (run.reply_eq keeps)
      exact unchanged.symm ▸ Ledger.Restores.refl books.ledger
  | written =>
      intro first last books keeps run
      exact .refl _
  | granted =>
      intro first last books keeps run
      exact .refl _
  | held nested induction =>
      intro first last books keeps run
      rcases run.exists_of_concat with ⟨closing, opening, _, _⟩
      rcases opening.exists_opened keeps with ⟨offset, opened, rfl, acquired, openedKeeps, within⟩
      have heap := keeps.follows.allocator.heap
      have restores := (induction openedKeeps within).release_of_acquire heap.tiled heap.merged acquired
      rw [← blockOffset_payloadAddress offset] at restores
      rw [List.map_append, Books.after_append]
      exact restores
  | append _ _ early late =>
      intro first last books keeps run
      rcases run.exists_of_append with ⟨middle, toMiddle, fromMiddle⟩
      rw [List.map_append, Books.after_append]
      exact (late (toMiddle.keeps keeps).2 fromMiddle).trans (early keeps toMiddle)

theorem Keeps.unchanged (keeps : before.Keeps books) {later : Books} (laterKeeps : after.Keeps later)
    (config_eq : later.config = books.config)
    (pageSize_eq : later.paging.pageSize = books.paging.pageSize)
    (ledger_eq : later.ledger = books.ledger) : before.Unchanged after := by
  have heap := keeps.follows.allocator.heap
  have laterHeap := laterKeeps.follows.allocator.heap
  rw [ledger_eq] at laterHeap
  rcases heap.blocks with ⟨entries, walked, chained, members⟩
  refine ⟨?_, ⟨entries, walked, laterHeap.blocks_eq_ok chained members⟩, ?_, ?_⟩
  · intro order least bounded
    exact ⟨_, heap.lists.freeList_eq ⟨least, bounded⟩, laterHeap.lists.freeList_eq ⟨least, bounded⟩⟩
  · intro size committing_eq
    have extensible_eq : later.extensible = books.extensible := by
      rw [Books.extensible, Books.extensible, ← laterKeeps.committing_eq, committing_eq,
        keeps.committing_eq, ledger_eq, config_eq]
    have permitted : ∀ client : Client, client.Permits (.acquire size) := fun _ => trivial
    rcases keeps.perform (permitted before) with ⟨next, performed, _⟩
    rcases laterKeeps.perform (permitted after) with ⟨otherNext, otherPerformed, _⟩
    rw [Books.perform, extensible_eq, ledger_eq] at otherPerformed
    exact ⟨_, next, otherNext, performed, otherPerformed⟩
  · intro refusal_iff trace
    rw [laterKeeps.paging_eq, keeps.paging_eq] at refusal_iff
    have agree : later.Agree books := ⟨ledger_eq, config_eq, pageSize_eq, refusal_iff⟩
    rcases agree.trace_eq (trace.map Prod.fst) with ⟨trace_eq, permitsAll_eq⟩
    rw [laterKeeps.refines_books.traces, keeps.refines_books.traces, trace_eq, permitsAll_eq]

theorem Keeps.restored (keeps : before.Keeps books) {later : Books} (laterKeeps : after.Keeps later)
    (config_eq : later.config = books.config)
    (pageSize_eq : later.paging.pageSize = books.paging.pageSize)
    (restores : later.ledger.Restores books.ledger) : before.Restored after where
  live_eq := by
    funext address
    rw [laterKeeps.live_eq, keeps.live_eq, Books.owned?, Books.owned?, restores.live_eq]
  freeList_eq order least below := by
    have shown := keeps.shows.freeList_eq order least (Nat.lt_succ_of_lt below)
    have laterShown := laterKeeps.shows.freeList_eq order least (Nat.lt_succ_of_lt below)
    rw [restores.lists_eq order below.ne] at laterShown
    exact ⟨_, shown, laterShown⟩
  grown := by
    have shown := keeps.shows.freeList_eq topOrder (by decide) (by decide)
    have laterShown := laterKeeps.shows.freeList_eq topOrder (by decide) (by decide)
    rcases restores.grown with ⟨count, size_eq, sublist, perm⟩
    rw [← laterKeeps.follows.size_eq, ← keeps.follows.size_eq] at size_eq
    rw [← keeps.follows.size_eq] at perm
    exact ⟨count, _, _, size_eq, shown, laterShown, sublist, perm⟩
  unchanged size_eq := by
    rw [laterKeeps.follows.size_eq, keeps.follows.size_eq] at size_eq
    exact keeps.unchanged laterKeeps config_eq pageSize_eq (restores.eq_of_size_eq size_eq)

theorem Keeps.closes (keeps : client.Keeps books) {size : Nat} {address : Int} (nested : Nested trace)
    (run : Reaches client ((.acquire size, .ok (some address)) :: trace) last) :
    ∃ closed, last.perform (.release address) = .ok (.ok none, closed) := by
  rcases run.exists_opened keeps with ⟨offset, opened, rfl, acquired, openedKeeps, within⟩
  have lastKeeps := (within.keeps openedKeeps).2
  have live := Ledger.live_acquired_self acquired
  rw [← (nested.restores openedKeeps within).live_eq] at live
  have permitted : last.Permits (.release (payloadAddress offset)) :=
    ⟨size, lastKeeps.follows.live_of_booked live⟩
  rcases lastKeeps.perform permitted with ⟨closed, performed, _⟩
  exact ⟨closed, performed⟩

/-- Wherever the client begins, what it acquires and gives up again leaves
nothing but chunks behind. -/
theorem Reachable.undoes (reachable : client.Reachable) : client.Undoes := by
  rcases reachable.exists_follows with ⟨ledger, follows⟩
  have keeps := follows.keeps
  refine ⟨fun trace last nested run => ?_, fun size address inner last nested run => ?_⟩
  · exact keeps.restored (run.keeps keeps).2 (Books.config_after _ _) (Books.pageSize_after _ _)
      (nested.restores keeps run)
  · exact keeps.closes nested run

/-- A chunk is added in the course of a nested run and another one is refused. -/
theorem undoes_of_grown : ∃ client last : Client, client.Reachable ∧
    Reaches client [(.acquire 16376, .ok (some 16392)),
      (.setRefusal (some .accessDenied), .ok none),
      (.acquire 16376, .error (.outOfMemory 14 32768)), (.acquire 24, .ok (some 8)),
      (.acquire 100, .ok (some 264)), (.release 264, .ok none), (.release 8, .ok none),
      (.release 16392, .ok none)] last ∧
    client.Restored last ∧ last.allocator.heap.freeList 14 = .ok [16384] := by
  rcases exists_reaches .default (by decide) [.acquire 24, .acquire 24, .acquire 100, .release 8] rfl
    with ⟨first, client, fresh, earlier, keeps⟩
  rcases keeps.reaches [.acquire 16376, .setRefusal (some .accessDenied), .acquire 16376,
    .acquire 24, .acquire 100, .release 264, .release 8, .release 16392] rfl with ⟨last, run, lastKeeps⟩
  have reachable : client.Reachable := ⟨first, _, fresh, earlier⟩
  have inner := @Nested.held 24 8 _ (@Nested.held 100 264 _ .nothing)
  have refused := (@Nested.failed 16376 (.outOfMemory 14 32768)).append inner
  have nested := @Nested.held 16376 16392 _ ((@Nested.granted (some .accessDenied)).append refused)
  exact ⟨client, last, reachable, run, reachable.undoes.restored _ last nested run,
    lastKeeps.shows.freeList_eq 14 (by decide) (by decide)⟩

end Client

end BuddyHeap
