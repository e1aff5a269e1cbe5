import BuddyHeap.Proofs.Client.Journals
import BuddyHeap.Proofs.Client.Refinement
import BuddyHeap.Proofs.Heap.Displaying
import BuddyHeap.Proofs.Heap.Entries

/-! The allocator never goes by what its client writes. Two runs that make the
same calls are answered alike and leave heaps that look alike, whatever bytes
are written into the payloads of either. -/

namespace BuddyHeap

namespace Books

variable {books : Books}

theorem perform_of_not_call {action : Action} (notCall : ¬action.isCall) :
    (books.perform action).2 = books ∧ books.records action = [] := by
  cases action with
  | write address distance content => exact ⟨rfl, rfl⟩
  | acquire size => exact absurd rfl notCall
  | release address => exact absurd rfl notCall
  | resize address? size => exact absurd rfl notCall
  | setRefusal cause? => exact absurd rfl notCall

theorem filter_calls (books : Books) (actions : List Action) :
    books.after actions = books.after (actions.filter Action.isCall) ∧
      (books.trace actions).filter (·.1.isCall) = books.trace (actions.filter Action.isCall) ∧
      books.log actions = books.log (actions.filter Action.isCall) := by
  induction actions generalizing books with
  | nil => exact ⟨rfl, rfl, rfl⟩
  | cons action actions induction =>
      by_cases call : action.isCall
      · rcases induction (books.perform action).2 with ⟨after_eq, trace_eq, log_eq⟩
        refine ⟨?_, ?_, ?_⟩
        · rw [List.filter_cons_of_pos call]
          exact after_eq
        · simp only [trace, List.filter_cons, call, if_true, trace_eq]
        · rw [List.filter_cons_of_pos call, log, log_eq]
          rfl
      · have written := books.perform_of_not_call call
        rcases induction books with ⟨after_eq, trace_eq, log_eq⟩
        refine ⟨?_, ?_, ?_⟩
        · rw [List.filter_cons_of_neg call, ← after_eq]
          exact congrArg (Books.after · actions) written.1
        · simp only [trace, List.filter_cons, call, Bool.false_eq_true, if_false, written.1, trace_eq]
        · rw [List.filter_cons_of_neg call, log, written.1, written.2, log_eq]
          rfl

end Books

namespace Client

def calls (trace : List (Action × Reply)) : List (Action × Reply) :=
  trace.filter (·.1.isCall)

variable {client first other last : Client} {books : Books}

/-- Everything that can be seen of two heaps is the same, but for the bytes of
the payloads. -/
structure Alike (first other : Client) : Prop where
  live_eq : first.live = other.live
  size_eq : first.allocator.heap.size = other.allocator.heap.size
  freeList_eq : ∀ order, first.allocator.heap.freeList order = other.allocator.heap.freeList order
  blocks_eq : first.allocator.heap.arena.blocks = other.allocator.heap.arena.blocks
  text_eq : first.allocator.heap.text = other.allocator.heap.text
  check_eq : ∀ address size, first.live address = some size →
    first.allocator.heap.arena.check address = other.allocator.heap.arena.check address

theorem Keeps.alike (keeps : first.Keeps books) (otherKeeps : other.Keeps books) :
    first.Alike other where
  live_eq := by
    funext address
    rw [keeps.live_eq, otherKeeps.live_eq]
  size_eq := keeps.follows.size_eq.trans otherKeeps.follows.size_eq.symm
  freeList_eq order := by
    by_cases inRange : minOrder ≤ order ∧ order < orderBound
    · rw [keeps.shows.freeList_eq order inRange.1 inRange.2,
        otherKeeps.shows.freeList_eq order inRange.1 inRange.2]
    · have missing : freeListIndex order = .error (.noFreeList order) := dif_neg inRange
      simp only [Heap.freeList, missing]
      rfl
  blocks_eq := by
    rcases keeps.follows.allocator.heap.blocks with ⟨entries, walked, chained, members⟩
    rw [walked, otherKeeps.follows.allocator.heap.blocks_eq_ok chained members]
  text_eq := by
    rw [keeps.follows.allocator.heap.lists.text_eq, otherKeeps.follows.allocator.heap.lists.text_eq,
      keeps.follows.size_eq, otherKeeps.follows.size_eq]
  check_eq address size live := by
    rcases keeps.exists_owned live with ⟨_, allocation, _, _, owned⟩
    rw [keeps.shows.check_eq address allocation owned,
      otherKeeps.shows.check_eq address allocation owned]

theorem map_calls (trace : List (Action × Reply)) :
    (calls trace).map Prod.fst = (trace.map Prod.fst).filter Action.isCall := by
  rw [List.filter_map]
  rfl

theorem events_of_created {config : Config} {system : System} {allocator : Allocator}
    (created : (Allocator.create config system).outcome = .ok (.ok allocator)) :
    (Allocator.create config system).events = [.reserved config.ceiling] := by
  rcases exists_arena_of_create created with ⟨arena, reserved, rfl⟩
  have lifted : (liftM (Arena.reserve system config.ceiling) : Traced _).outcome =
      .ok (.ok arena) := reserved
  rw [Allocator.create, Traced.events_bind lifted, ← (Arena.fields_of_reserve reserved).2.1]
  rfl

/-- Two runs from the same configuration that make the same calls, whatever is
written between them: the calls are answered alike, the same is recorded, and
the heaps they lead to look alike. So it is after each call. -/
theorem alike_of_calls {config : Config} {system otherSystem : System}
    {allocator otherAllocator : Allocator} (sound : system.Sound) (otherSound : otherSystem.Sound)
    (pageSize_eq : otherSystem.pageSize = system.pageSize)
    (created : (Allocator.create config system).outcome = .ok (.ok allocator))
    (otherCreated : (Allocator.create config otherSystem).outcome = .ok (.ok otherAllocator))
    {trace otherTrace : List (Action × Reply)} {log otherLog : List Event}
    (run : Logs (start allocator) trace log last)
    (otherRun : Logs (start otherAllocator) otherTrace otherLog other)
    (same : (calls trace).map Prod.fst = (calls otherTrace).map Prod.fst) :
    calls trace = calls otherTrace ∧
      (Allocator.create config system).events ++ log =
        (Allocator.create config otherSystem).events ++ otherLog ∧
      last.Alike other := by
  have keeps := keeps_of_create sound created
  have otherKeeps := keeps_of_create otherSound otherCreated
  rw [pageSize_eq] at otherKeeps
  generalize Books.new config system.pageSize = books at keeps otherKeeps
  rcases run.reaches.keeps keeps with ⟨trace_eq, lastKeeps⟩
  rcases otherRun.reaches.keeps otherKeeps with ⟨otherTrace_eq, otherLastKeeps⟩
  rcases books.filter_calls (trace.map Prod.fst) with ⟨after_eq, calls_eq, log_eq⟩
  rcases books.filter_calls (otherTrace.map Prod.fst) with
    ⟨otherAfter_eq, otherCalls_eq, otherLog_eq⟩
  rw [map_calls, map_calls] at same
  refine ⟨?_, ?_, ?_⟩
  · calc
      calls trace = books.trace ((trace.map Prod.fst).filter Action.isCall) := by
        rw [← calls_eq, ← trace_eq, calls]
      _ = calls otherTrace := by
        rw [same, ← otherCalls_eq, ← otherTrace_eq, calls]
  · rw [events_of_created created, events_of_created otherCreated, run.log_eq keeps,
      otherRun.log_eq otherKeeps, log_eq, otherLog_eq, same]
  · rw [after_eq, same, ← otherAfter_eq] at lastKeeps
    exact lastKeeps.alike otherLastKeeps

/-- A client that forges a header and a link in its payloads, next to one that
does not. -/
theorem alike_of_forged : ∃ allocator last other log otherLog,
    System.Sound addressSpaceSize ∧
      (Allocator.create .default addressSpaceSize).outcome = .ok (.ok allocator) ∧
      Logs (start allocator) [(.acquire 56, .ok (some 8)), (.acquire 24, .ok (some 72)),
        (.write 8 0 [1, 2, 3], .ok none), (.release 72, .ok none)] log last ∧
      Logs (start allocator) [(.acquire 56, .ok (some 8)), (.acquire 24, .ok (some 72)),
        (.write 72 0 [255, 255, 255, 255, 255, 255, 255, 255], .ok none),
        (.write 8 24 [11, 0, 0, 0, 48, 0, 0, 0], .ok none), (.release 72, .ok none)] otherLog other ∧
      last.Alike other := by
  have sound := sound_addressSpaceSize
  rcases exists_created .default (by decide) with ⟨allocator, created⟩
  have keeps := keeps_of_create sound created
  rcases keeps.reaches [.acquire 56, .acquire 24, .write 8 0 [1, 2, 3], .release 72] rfl with
    ⟨last, run, _⟩
  rcases keeps.reaches [.acquire 56, .acquire 24,
    .write 72 0 [255, 255, 255, 255, 255, 255, 255, 255], .write 8 24 [11, 0, 0, 0, 48, 0, 0, 0],
    .release 72] rfl with ⟨other, otherRun, _⟩
  rcases run.exists_logs with ⟨log, logs⟩
  rcases otherRun.exists_logs with ⟨otherLog, otherLogs⟩
  exact ⟨allocator, last, other, log, otherLog, sound, created, logs, otherLogs,
    (alike_of_calls sound sound rfl created created logs otherLogs rfl).2.2⟩

end Client

end BuddyHeap
