/-!
# Commands

What the arguments of the program ask for. Options start with two dashes and may stand anywhere behind
the name of the command; two dashes alone end them.
-/

namespace StoryAsm.CommandLine

/-- Where the symbol table goes. -/
inductive Dump where
  | standardError
  | file (path : String)
  deriving DecidableEq

structure BuildOptions where
  manifest : Option String := none
  out : Option String := none
  version : Option Int := none
  debug : Bool := false
  forceFrequentWords : Bool := false
  dump : Option Dump := none
  deriving DecidableEq

inductive Command where
  | init (name : Option String)
  | build (options : BuildOptions)
  | sanitize (names : List String)
  deriving DecidableEq

/-- What help can be about. -/
inductive Topic where
  | program
  | init
  | build
  | sanitize
  | help
  deriving DecidableEq

/-- Why arguments are not a command to carry out. -/
inductive Stop where
  | help (topic : Topic)
  | wrongUsage
  deriving DecidableEq

/-! ## Arguments -/

/-- An argument by its form. -/
inductive Argument where
  /-- Two dashes alone. -/
  | endOfOptions
  /-- A name behind two dashes, with the text behind an equals sign. -/
  | option (name : String) (value : Option String)
  /-- Letters behind one dash. -/
  | letters (first : Char)
  | plain (text : String)
  deriving DecidableEq

def Argument.ofText (text : String) : Argument :=
  match text.toList with
  | ['-', '-'] => .endOfOptions
  | '-' :: '-' :: rest =>
    let name := String.ofList (rest.takeWhile (· ≠ '='))
    match rest.dropWhile (· ≠ '=') with
    | [] => .option name none
    | _ :: value => .option name (some (String.ofList value))
  | '-' :: letter :: _ => .letters letter
  | _ => .plain text

/-- The stop for an argument that no command takes: a wish for help or a mistake. -/
def Argument.stop (topic : Topic) : Argument → Stop
  | .option "help" none => .help topic
  | .letters 'h' => .help topic
  | _ => .wrongUsage

/-- A decimal integer of 32 bits, with a sign or without. -/
def int32? (text : String) : Option Int := do
  let (negative, digits) := match text.toList with
    | '-' :: rest => (true, rest)
    | '+' :: rest => (false, rest)
    | cs => (false, cs)
  if digits.isEmpty || !digits.all Char.isDigit then none
  let size := digits.foldl (fun value c => value * 10 + (c.toNat - '0'.toNat)) 0
  let value : Int := if negative then -size else size
  if -2147483648 ≤ value ∧ value ≤ 2147483647 then some value else none

/-- The path that an argument gives, which is not empty. -/
def path (text : String) : Except Stop String :=
  if text = "" then .error .wrongUsage else .ok text

/-- An option can be given once. -/
def once {α : Type} (old : Option α) (new : α) : Except Stop (Option α) :=
  if old.isSome then .error .wrongUsage else .ok (some new)

def flagOnce (old : Bool) (value : Option String) : Except Stop Bool :=
  if old || value.isSome then .error .wrongUsage else .ok true

/-- The value of an option, and the arguments behind it. A value that does not follow an equals sign is
the next argument, if that is plain. -/
def optionValue (value : Option String) (rest : List String) :
    Option (String × List String) :=
  match value, rest with
  | some value, _ => some (value, rest)
  | none, [] => none
  | none, next :: more =>
    match Argument.ofText next with
    | .plain text => some (text, more)
    | _ => none

/-! ## Commands -/

/-- Take the plain arguments of a command that has no options, one after the other. The first that is
not taken ends the reading. -/
def takePlain {α : Type} (topic : Topic) (take : α → String → Except Stop α) :
    α → List String → Except Stop α
  | taken, [] => .ok taken
  | taken, text :: rest =>
    match Argument.ofText text with
    | .endOfOptions => rest.foldlM take taken
    | .plain text => do takePlain topic take (← take taken text) rest
    | argument => .error (argument.stop topic)

def initCommand (arguments : List String) : Except Stop Command := do
  return .init (← takePlain .init once none arguments)

def sanitizeCommand (arguments : List String) : Except Stop Command := do
  match ← takePlain .sanitize (fun names name => .ok (names ++ [name])) [] arguments with
  | [] => throw .wrongUsage
  | names => return .sanitize names

/-- The manifest of a build can be given once. -/
def BuildOptions.setManifest (options : BuildOptions) (text : String) :
    Except Stop BuildOptions := do
  return { options with manifest := ← once options.manifest (← path text) }

/-- Set an option of a build, and give the arguments that it leaves. -/
def BuildOptions.set (options : BuildOptions) (name : String) (value : Option String)
    (rest : List String) : Except Stop (BuildOptions × List String) := do
  match name with
  | "out" =>
    let some (value, rest) := optionValue value rest | throw .wrongUsage
    return ({ options with out := ← once options.out (← path value) }, rest)
  | "zversion" =>
    let some (value, rest) := optionValue value rest | throw .wrongUsage
    let some version := int32? value | throw .wrongUsage
    return ({ options with version := ← once options.version version }, rest)
  | "debug" => return ({ options with debug := ← flagOnce options.debug value }, rest)
  | "force-freq" =>
    let forceFrequentWords ← flagOnce options.forceFrequentWords value
    return ({ options with forceFrequentWords }, rest)
  | "dump-symbols" =>
    match optionValue value rest with
    | some (value, rest) =>
      return ({ options with dump := ← once options.dump (.file (← path value)) }, rest)
    | none => return ({ options with dump := ← once options.dump .standardError }, rest)
  | _ => throw ((Argument.option name value).stop .build)

/-- The options that the arguments add to given ones. -/
def BuildOptions.read (options : BuildOptions) (arguments : List String) :
    Except Stop BuildOptions := do
  match arguments with
  | [] => return options
  | text :: rest =>
    match Argument.ofText text with
    | .endOfOptions => rest.foldlM setManifest options
    | .plain text => (← options.setManifest text).read rest
    | .option name value =>
      let (options, left) ← options.set name value rest
      if left.length ≤ rest.length then options.read left else throw .wrongUsage
    | argument => throw (argument.stop .build)
termination_by arguments.length

def helpCommand : List String → Stop
  | [] => .help .program
  | "init" :: [] => .help .init
  | "build" :: [] => .help .build
  | "sanitize" :: [] => .help .sanitize
  | "help" :: [] => .help .help
  | _ => .wrongUsage

/-- The command of the arguments. -/
def Command.ofArguments : List String → Except Stop Command
  | "init" :: rest => initCommand rest
  | "build" :: rest => do return .build (← ({} : BuildOptions).read rest)
  | "sanitize" :: rest => sanitizeCommand rest
  | "help" :: rest => .error (helpCommand rest)
  | text :: _ => .error ((Argument.ofText text).stop .program)
  | [] => .error .wrongUsage

end StoryAsm.CommandLine
