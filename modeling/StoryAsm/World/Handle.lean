/-!
# Handles

Definitions of a story are referred to by handles. A handle holds the place of the definition among the
definitions of its kind; handles of properties and flags also hold their numbers.
-/

namespace StoryAsm

structure GlobalId where
  index : Nat
  deriving DecidableEq

structure TableId where
  index : Nat
  deriving DecidableEq

structure RoutineId where
  index : Nat
  deriving DecidableEq

structure ObjectId where
  index : Nat
  deriving DecidableEq

/-- Objects are numbered from 1. -/
def ObjectId.number (id : ObjectId) : Nat := id.index + 1

structure WordId where
  index : Nat
  deriving DecidableEq

structure PropertyId where
  index : Nat
  number : Nat
  deriving DecidableEq

structure FlagId where
  index : Nat
  number : Nat
  deriving DecidableEq

end StoryAsm
