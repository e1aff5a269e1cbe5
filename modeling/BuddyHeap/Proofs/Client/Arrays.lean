import BuddyHeap.Proofs.Client.Actions

/-! What the client sees of memory: for every payload that it has, an array of
the bytes that it asked for. In the model every payload owns its array, and an
action changes no array but that of the payload it is about. -/

namespace BuddyHeap

abbrev Arrays := Int → Option (Array UInt8)

namespace Arrays

def empty : Arrays := fun _ => none

/-- What an action with a given reply may do to the arrays. Nothing is said of
the bytes that a payload has not had before. -/
inductive Step (before : Arrays) : Action → Reply → Arrays → Prop where
  | failed (action : Action) (failure : AllocatorError) : Step before action (.error failure) before
  | acquired {size : Nat} {address : Int} {bytes : Array UInt8} (fresh : before address = none)
      (length : bytes.size = size) :
      Step before (.acquire size) (.ok (some address)) (Function.update before address (some bytes))
  | released {address : Int} :
      Step before (.release address) (.ok none) (Function.update before address none)
  | resizedFromNothing {size : Nat} {address : Int} {bytes : Array UInt8}
      (fresh : before address = none) (length : bytes.size = size) :
      Step before (.resize none size) (.ok (some address))
        (Function.update before address (some bytes))
  | resizedToNothing {address : Int} :
      Step before (.resize (some address) 0) (.ok none) (Function.update before address none)
  | resized {address target : Int} {size : Nat} {old new : Array UInt8}
      (mine : before address = some old) (fresh : target = address ∨ before target = none)
      (length : new.size = size)
      (kept : ∀ index, index < min old.size size → new[index]? = old[index]?) :
      Step before (.resize (some address) size) (.ok (some target))
        (Function.update (Function.update before address none) target (some new))
  | written {address : Int} {distance : Nat} {content : List UInt8} {old : Array UInt8}
      (mine : before address = some old) :
      Step before (.write address distance content) (.ok none)
        (Function.update before address (some (overwriteBytes old distance content)))
  | setRefusal (cause? : Option SystemError) : Step before (.setRefusal cause?) (.ok none) before

inductive Run : List (Action × Reply) → Arrays → Prop where
  | start : Run [] empty
  | step {trace : List (Action × Reply)} {before after : Arrays} {action : Action} {reply : Reply}
      (run : Run trace before) (step : Step before action reply after) :
      Run (trace ++ [(action, reply)]) after

end Arrays

namespace Client

def payloads (client : Client) : Arrays := fun address =>
  (client.live address).map fun size =>
    (client.allocator.heap.arena.byteRange address.toNat size).toArray

end Client

end BuddyHeap
