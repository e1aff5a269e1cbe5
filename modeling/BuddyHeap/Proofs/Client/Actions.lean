import Mathlib.Logic.Function.Basic
import BuddyHeap.Allocator.Operations
import BuddyHeap.Proofs.Memory.Mapping
import BuddyHeap.Proofs.Memory.Requests

/-! A client that uses an allocator as it is meant to be used. It releases and
resizes only what it has, and writes only into payloads of its own. -/

namespace BuddyHeap

/-- An allocator together with what its client has: the addresses that it was
given, each with the number of bytes that it last asked for. -/
structure Client where
  allocator : Allocator
  live : Int → Option Nat

inductive Action where
  | acquire (size : Nat)
  | release (address : Int)
  | resize (address? : Option Int) (size : Nat)
  | write (address : Int) (distance : Nat) (content : List UInt8)
  /-- Let the system refuse pages from now on, and why, or grant them. -/
  | setRefusal (cause? : Option SystemError)

/-- A call, as opposed to a write into a payload. The system's change of mind
about pages counts as one. -/
def Action.isCall : Action → Bool
  | .write .. => false
  | .acquire _ | .release _ | .resize .. | .setRefusal _ => true

abbrev Reply := Except AllocatorError (Option Int)

namespace Client

/-- What the client has once a call about the payload at `address?` has been
answered. -/
def settle (live : Int → Option Nat) (address? : Option Int) (size : Nat) :
    Reply → Int → Option Nat
  | .error _ => live
  | .ok target? =>
      let kept := match address? with
        | some address => Function.update live address none
        | none => live
      match target? with
      | some target => Function.update kept target (some size)
      | none => kept

def start (allocator : Allocator) : Client := ⟨allocator, fun _ => none⟩

def answered (client : Client) (address? : Option Int) (size : Nat) (reply : Reply)
    (allocator : Allocator) : Reply × Client :=
  (reply, ⟨allocator, settle client.live address? size reply⟩)

def perform (client : Client) : Action → Except Fault (Reply × Client)
  | .acquire size => do
      let (acquired, allocator) ← (client.allocator.acquire size).outcome
      return client.answered none size (acquired.map some) allocator
  | .release address => do
      let allocator ← (client.allocator.release address).outcome
      return client.answered (some address) 0 (.ok none) allocator
  | .resize address? size => do
      let (resized, allocator) ← (client.allocator.resize address? size).outcome
      return client.answered address? size resized allocator
  | .write address distance content =>
      let ⟨⟨arena, sentinels⟩, config⟩ := client.allocator
      let written := arena.overwrite (address.toNat + distance) content
      return (.ok none, ⟨⟨⟨written, sentinels⟩, config⟩, client.live⟩)
  | .setRefusal cause? =>
      let ⟨⟨arena, sentinels⟩, config⟩ := client.allocator
      let arena := { arena with paging := { arena.paging with refusal? := cause? } }
      return (.ok none, ⟨⟨⟨arena, sentinels⟩, config⟩, client.live⟩)

/-- The client keeps to what it has. Its writes stay inside of the payload,
which may be larger than it asked for. -/
def Permits (client : Client) : Action → Prop
  | .acquire _ | .resize none _ | .setRefusal _ => True
  | .release address | .resize (some address) _ => ∃ size, client.live address = some size
  | .write address distance content => ∃ size, client.live address = some size ∧
      distance + content.length ≤ (Allocation.ofRequest size).capacity

/-- The client gets from one state to another by actions that are permitted,
with these replies. -/
inductive Reaches (first : Client) : List (Action × Reply) → Client → Prop where
  | start : Reaches first [] first
  | step {trace : List (Action × Reply)} {before after : Client} {action : Action} {reply : Reply}
      (run : Reaches first trace before) (permitted : before.Permits action)
      (performed : before.perform action = .ok (reply, after)) :
      Reaches first (trace ++ [(action, reply)]) after

def Fresh (client : Client) : Prop :=
  ∃ config allocator, ∃ system : System, system.Sound ∧
    (Allocator.create config system).outcome = .ok (.ok allocator) ∧ client = start allocator

def Reachable (client : Client) : Prop :=
  ∃ first trace, Fresh first ∧ Reaches first trace client

end Client

end BuddyHeap
