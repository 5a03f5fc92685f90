import StoryAsm.Operand.Basic

/-!
# The operand pool

Numbers and strings are interned: asking twice for one value gives one shared instance. An
instance is an operand together with its origin. Variables and constants are shared through the
place where they were declared; every other operand is made anew each time it is asked for.
-/

namespace StoryAsm

/-- Where an operand instance comes from. -/
inductive Origin where
  | number (slot : Nat)
  | string (slot : Nat)
  | stack
  | constant (index : Nat)
  | variable (routine index : Nat)
  /-- Made anew for each request. -/
  | fresh
  deriving DecidableEq

/-- An operand and its origin. -/
structure Operand.Instance where
  operand : Operand
  origin : Origin

/-- Two requests gave one shared instance. -/
def Operand.Instance.same (a b : Operand.Instance) : Bool :=
  decide (a.origin ≠ .fresh ∧ a.origin = b.origin)

/-- The numbers and strings asked for so far, each once, in the order of first request. -/
structure Pool where
  numbers : Array Int := #[0, 1]
  strings : Array String := #[]

namespace Pool

/-- The place of a value in a list of distinct values, where it is added if it is new. -/
def intern {α : Type} [BEq α] (values : Array α) (value : α) : Nat × Array α :=
  match values.idxOf? value with
  | some index => (index, values)
  | none => (values.size, values.push value)

def number (value : Int) (pool : Pool) : Operand.Instance × Pool :=
  let (slot, numbers) := intern pool.numbers value
  (⟨.number value, .number slot⟩, { pool with numbers })

def string (content : String) (pool : Pool) : Operand.Instance × Pool :=
  let (slot, strings) := intern pool.strings content
  (⟨.string slot content, .string slot⟩, { pool with strings })

def zero : Operand.Instance := ⟨.number 0, .number 0⟩

def one : Operand.Instance := ⟨.number 1, .number 1⟩

def stack : Operand.Instance := ⟨.stack, .stack⟩

/-- The strings with their operands, in ascending order of the strings. -/
def sortedStrings (pool : Pool) : List (String × Operand) :=
  (pool.strings.toList.zipIdx.map fun (content, index) =>
    (content, Operand.string index content)).mergeSort fun a b => decide (a.1 ≤ b.1)

end Pool

end StoryAsm
