namespace BuddyHeap

inductive SystemError where
  | invalidArgument
  | outOfMemory
  | accessDenied
  | other (text : String)
  deriving DecidableEq

namespace SystemError

def message : SystemError → String
  | invalidArgument => "Invalid argument (os error 22)"
  | outOfMemory => "Cannot allocate memory (os error 12)"
  | accessDenied => "Permission denied (os error 13)"
  | other text => text

end SystemError

end BuddyHeap
