import StoryAsm.Code.Line
import StoryAsm.Files.Error

/-!
# Emission errors

Each constructor of `EmitError` is one cause. Causes fall into a few kinds, and the text of an
error starts with the words of its kind.
-/

namespace StoryAsm

/-- Why an operation on a story was refused. -/
inductive EmitError where
  | unsupportedVersion (version : Int)
  | duplicateSymbol (name : String)
  | tooManyGlobals (limit : Nat)
  | tooManyObjects (version limit : Nat)
  | tooManyProperties (version limit : Nat)
  | tooManyFlags (version limit : Nat)
  | entryPointTaken (routine : String)
  | entryPointVariables (routine : String)
  | routineFinished (routine : String)
  | tooManyVariables (routine : String) (limit : Nat)
  | unplaceableLabel (label : Label)
  | propertyTaken (object : String) (number : Nat)
  | propertyLength (object : String) (number size limit : Nat)
  | tooManyArguments (callee : String) (count limit version : Nat)
  | operandCount (operation : String)
  | notVariable (role operand : String)
  | comparisonCount (count : Nat)
  | noResult (opcode : String)
  | timedReadVersion (version : Nat)
  | readResultVersion (version : Nat)
  | scanFormVersion
  | unavailable (operation : String) (version : Nat)
  | unknownHandle
  | disk (cause : DiskError)
  deriving DecidableEq

namespace EmitError

/-- The kinds of causes. -/
inductive Kind where
  | unsupportedVersion
  | duplicateSymbol
  | invalidOperation
  | tooManyArguments
  | invalidOperand
  | internal
  | disk
  deriving DecidableEq

def kind : EmitError → Kind
  | unsupportedVersion _ => .unsupportedVersion
  | duplicateSymbol _ => .duplicateSymbol
  | tooManyGlobals _ | tooManyObjects .. | tooManyProperties .. | tooManyFlags ..
  | entryPointTaken _ | entryPointVariables _ | routineFinished _ | tooManyVariables ..
  | unplaceableLabel _ | propertyTaken .. | propertyLength .. => .invalidOperation
  | tooManyArguments .. => .tooManyArguments
  | operandCount _ | notVariable .. | comparisonCount _ | noResult _ | timedReadVersion _
  | readResultVersion _ | scanFormVersion => .invalidOperand
  | unavailable .. | unknownHandle => .internal
  | disk _ => .disk

/-- The words that the texts of a kind start with. -/
def Kind.opening : Kind → String
  | .invalidOperation => "invalid operation: "
  | .invalidOperand => "invalid operand: "
  | .internal => "internal error: "
  | .disk => "I/O error: "
  | .unsupportedVersion | .duplicateSymbol | .tooManyArguments => ""

/-- The text of a cause, without the words of its kind. -/
def detail : EmitError → String
  | unsupportedVersion version => s!"unsupported Z-machine version {version} (expected 1-8)"
  | duplicateSymbol name => s!"duplicate symbol '{name}'"
  | tooManyGlobals limit => s!"too many globals (limit {limit})"
  | tooManyObjects version limit => s!"too many objects for version {version} (limit {limit})"
  | tooManyProperties version limit =>
    s!"too many properties for version {version} (limit {limit})"
  | tooManyFlags version limit => s!"too many flags for version {version} (limit {limit})"
  | entryPointTaken routine => s!"entry point already defined as {routine}"
  | entryPointVariables routine =>
    s!"entry point routine {routine} cannot have parameters or locals"
  | routineFinished routine => s!"routine {routine} is already finished"
  | tooManyVariables routine limit =>
    s!"routine {routine} has more than {limit} parameters and locals"
  | unplaceableLabel label => s!"{label.text} cannot be placed in a routine"
  | propertyTaken object number => s!"object {object} already has property {number}"
  | propertyLength object number size limit =>
    s!"property {number} of {object} is {size} bytes long (allowed 1-{limit})"
  | tooManyArguments callee count limit version =>
    s!"too many arguments to {callee}: {count} given, version {version} allows {limit}"
  | operandCount operation => s!"wrong number of operands for {operation}"
  | notVariable role operand => s!"{role} must be a variable, got {operand}"
  | comparisonCount count => s!"EQUAL? takes 1 to 3 values to compare against, got {count}"
  | noResult opcode => s!"{opcode} produces no result"
  | timedReadVersion version =>
    s!"timed input needs version 4 or later (target is {version})"
  | readResultVersion version =>
    s!"READ stores a result only from version 5 (target is {version})"
  | scanFormVersion => "INTBL? form argument needs version 5"
  | unavailable operation version => s!"{operation} has no translation for version {version}"
  | unknownHandle => "the handle belongs to another story"
  | disk cause => cause.message

def message (error : EmitError) : String :=
  error.kind.opening ++ error.detail

end EmitError

end StoryAsm
