import BuddyHeap.Proofs.Client.Runs
import BuddyHeap.Proofs.Heap.Displaying
import BuddyHeap.Proofs.Heap.Walking

/-! In correct use nothing meets a fault: no sum or shift overflows, no access
leaves the memory, no link leads astray and no walk along a list goes on for
ever. A new allocator is not an exception, however much it asks for. -/

namespace BuddyHeap

namespace Allocator

variable {config : Config} {system : System}

end Allocator

namespace Client

variable {client first last : Client} {trace : List (Action × Reply)} {ledger : Ledger}

end Client

end BuddyHeap
