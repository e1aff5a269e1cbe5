import BuddyHeap.Allocator.Session
import BuddyHeap.Proofs.Client.CanonicalForm
import BuddyHeap.Proofs.Client.Failures
import BuddyHeap.Proofs.Client.Faultless
import BuddyHeap.Proofs.Client.Joining
import BuddyHeap.Proofs.Client.NestedRuns
import BuddyHeap.Proofs.Client.Noninterference
import BuddyHeap.Proofs.Client.Provenance
import BuddyHeap.Proofs.Client.Shrinking
import BuddyHeap.Proofs.Foundation.Ceilings
import BuddyHeap.Proofs.Heap.ListRuns
import BuddyHeap.Proofs.Memory.Blocks
import BuddyHeap.Proofs.Memory.HeaderBits
import BuddyHeap.Proofs.Memory.LeastOrder
