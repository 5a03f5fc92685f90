import StoryAsm.Proofs.Operation
import StoryAsm.Proofs.Symbol.Name
import StoryAsm.Story.Define

/-!
# Definitions

What a definition does to a story: it is refused if the story is full, or if its symbol is taken, and
the story stays as it is; otherwise the symbol is claimed and the new thing is added to its kind
(`Definition.outcome`). This is what each of the operations that define something does.
-/

namespace StoryAsm

open Text

theorem nodup_append_singleton {names : List String} {name : String} (hnames : names.Nodup)
    (hname : name ∉ names) : (names ++ [name]).Nodup := by
  refine List.nodup_append.mpr ⟨hnames, List.nodup_cons.mpr ⟨List.not_mem_nil, .nil⟩, ?_⟩
  rintro x hx y hy rfl
  exact hname (List.mem_singleton.mp hy ▸ hx)

/-- A call that defines something. -/
inductive Definition where
  | constant (name : String) (value : Operand)
  | global (name : String)
  | table (isPure : Bool)
  | routine (name : String) (isEntryPoint cleansStack : Bool)
  | object (name : String)
  | property (name : String)
  | flag (name : String)
  | word (text : String)

namespace Definition

def kind : Definition → SymbolKind
  | constant .. => .constant
  | global _ => .global
  | table _ => .table
  | routine .. => .routine
  | object _ => .object
  | property _ => .property
  | flag _ => .flag
  | word _ => .word

/-- The symbol that is claimed. -/
def symbol (story : Story) : Definition → String
  | constant name _ | global name | routine name _ _ | object name | flag name => Symbol.ofName name
  | table _ => s!"TBL?{story.tables.size}"
  | property name => Property.symbolOf (Symbol.ofName name)
  | word text => Story.wordSymbol text

/-- The story can take one more definition of the kind. It has one entry point at most. -/
def Fits (story : Story) : Definition → Prop
  | constant .. | table _ | word _ => True
  | global _ => story.globals.size < Story.maxGlobals
  | routine _ isEntryPoint _ => isEntryPoint = true → story.entryPoint = none
  | object _ => story.objects.size < story.version.maxObjects
  | property _ => story.properties.size < story.version.maxProperties
  | flag _ => story.flags.size < story.version.maxFlags + 1

/-- Why the story cannot take one more definition of the kind. -/
def refusal (story : Story) : Definition → Option EmitError
  | constant .. | table _ | word _ => none
  | global _ =>
    if Story.maxGlobals ≤ story.globals.size then some (.tooManyGlobals Story.maxGlobals) else none
  | routine _ isEntryPoint _ =>
    if isEntryPoint then
      story.entryPoint.map fun entry =>
        .entryPointTaken (((story.routines[entry.index]?).map (·.name)).getD "")
    else none
  | object _ =>
    if story.version.maxObjects ≤ story.objects.size then
      some (.tooManyObjects story.version.number story.version.maxObjects)
    else none
  | property _ =>
    if story.version.maxProperties ≤ story.properties.size then
      some (.tooManyProperties story.version.number story.version.maxProperties)
    else none
  | flag _ =>
    if story.version.maxFlags < story.flags.size then
      some (.tooManyFlags story.version.number (story.version.maxFlags + 1))
    else none

/-- The story with the symbol claimed, and the event reported that the definition reports. -/
def claimed (story : Story) (definition : Definition) : Story :=
  { story with
    symbols := ⟨story.symbols.kinds.insert (definition.symbol story) definition.kind⟩
    log :=
      match definition with
      | table _ => story.log
      | word _ => story.log.push (.definedWord (definition.symbol story))
      | _ => story.log.push (.defined definition.kind (definition.symbol story)) }

/-- The story after the definition. -/
def record (story : Story) (definition : Definition) : Story :=
  let claimed := definition.claimed story
  let symbol := definition.symbol story
  match definition with
  | constant _ value => { claimed with constants := story.constants.push (symbol, value) }
  | global _ => { claimed with globals := story.globals.push { name := symbol } }
  | table isPure => { claimed with tables := story.tables.push (.new symbol isPure) }
  | routine _ isEntryPoint cleansStack =>
    { claimed with
      routines := story.routines.push
        { name := symbol, version := story.version, isEntryPoint, cleansStack }
      entryPoint := if isEntryPoint then some ⟨story.routines.size⟩ else story.entryPoint }
  | object _ => { claimed with objects := story.objects.push { name := symbol } }
  | property name =>
    { claimed with
      properties := story.properties.push
        { name := Symbol.ofName name, number := story.version.maxProperties - story.properties.size } }
  | flag _ =>
    { claimed with
      flags := story.flags.push
        { name := symbol, number := story.version.maxFlags - story.flags.size } }
  | word text =>
    { claimed with
      words := story.words.push { table := .new symbol true, text := lowerCase text } }

/-- What the call returns and leaves behind. -/
def outcome {ι : Type} (story : Story) (handle : ι) (definition : Definition) :
    Except EmitError ι × Story :=
  match definition.refusal story with
  | some error => (.error error, story)
  | none =>
    if story.symbols.contains (definition.symbol story) then
      (.error (.duplicateSymbol (definition.symbol story)), story)
    else (.ok handle, definition.record story)

theorem refusal_eq_none_iff {story : Story} {definition : Definition} :
    definition.refusal story = none ↔ definition.Fits story := by
  have hguard : ∀ {c : Prop} [Decidable c] {error : EmitError},
      (if c then some error else none) = none ↔ ¬c := by
    intro c _ error
    split <;> simp_all
  cases definition with
  | constant | table | word => exact ⟨fun _ => trivial, fun _ => rfl⟩
  | global | object | property => exact hguard.trans Nat.not_le
  | flag => exact hguard.trans (Nat.not_lt.trans Nat.lt_succ_iff.symm)
  | routine name isEntryPoint cleansStack => cases isEntryPoint <;> simp [refusal, Fits]

/-- The story takes the definition. -/
theorem outcome_of_fits {ι : Type} {story : Story} {handle : ι} {definition : Definition}
    (hfits : definition.Fits story)
    (hfresh : ¬story.symbols.contains (definition.symbol story) = true) :
    definition.outcome story handle = (.ok handle, definition.record story) := by
  simp only [outcome, refusal_eq_none_iff.mpr hfits, if_neg hfresh]

theorem outcome_eq_ok {ι : Type} {story story' : Story} {handle handle' : ι} {definition : Definition}
    (h : definition.outcome story handle = (.ok handle', story')) :
    definition.Fits story ∧ ¬story.symbols.contains (definition.symbol story) = true := by
  simp only [outcome] at h
  split at h
  · cases h
  · rename_i hfits
    refine ⟨refusal_eq_none_iff.mp hfits, fun hc => ?_⟩
    rw [if_pos hc] at h
    cases h

/-- A definition that succeeds returns its handle and is recorded. -/
theorem eq_record_of_outcome {ι : Type} {story story' : Story} {handle handle' : ι}
    {definition : Definition} (h : definition.outcome story handle = (.ok handle', story')) :
    handle' = handle ∧ story' = definition.record story := by
  obtain ⟨hfits, hfresh⟩ := outcome_eq_ok h
  rw [outcome_of_fits hfits hfresh] at h
  cases h
  exact ⟨rfl, rfl⟩

theorem kind?_record (story : Story) (definition : Definition) (name : String) :
    (definition.record story).symbols.kind? name =
      if definition.symbol story = name then some definition.kind else story.symbols.kind? name := by
  have hsymbols : (definition.record story).symbols = (definition.claimed story).symbols := by
    cases definition <;> rfl
  rw [hsymbols]
  simp [claimed, SymbolTable.kind?, Std.TreeMap.getElem?_insert]

theorem contains_iff_kind? (symbols : SymbolTable) (name : String) :
    symbols.contains name = true ↔ ∃ kind, symbols.kind? name = some kind := by
  rw [SymbolTable.contains, SymbolTable.kind?, Std.TreeMap.contains_eq_isSome_getElem?,
    Option.isSome_iff_exists]

theorem contains_record (story : Story) (definition : Definition) (name : String) :
    (definition.record story).symbols.contains name = true ↔
      definition.symbol story = name ∨ story.symbols.contains name = true := by
  simp only [contains_iff_kind?, kind?_record]
  split <;> simp_all

end Definition

namespace Story

variable (story : Story)

theorem run_defineSymbol_bind {ι : Type} (symbol : String) (kind : SymbolKind) (f : Unit → StoryM ι) :
    (defineSymbol symbol kind >>= f).run.run story =
      if story.symbols.contains symbol then (.error (.duplicateSymbol symbol), story)
      else (f ()).run.run { story with symbols := ⟨story.symbols.kinds.insert symbol kind⟩ } := by
  rw [run_run_bind, defineSymbol, run_run_get_bind, SymbolTable.define]
  by_cases h : story.symbols.contains symbol = true
  · rw [if_pos h, if_pos h]
    rfl
  · rw [if_neg h, if_neg h]
    rfl

theorem run_claim_bind {ι : Type} (name : String) (kind : SymbolKind) (f : String → StoryM ι) :
    (claim name kind >>= f).run.run story =
      if story.symbols.contains (Symbol.ofName name) then
        (.error (.duplicateSymbol (Symbol.ofName name)), story)
      else
        (f (Symbol.ofName name)).run.run
          { story with
            symbols := ⟨story.symbols.kinds.insert (Symbol.ofName name) kind⟩
            log := story.log.push (.defined kind (Symbol.ofName name)) } := by
  rw [run_run_bind, claim, run_defineSymbol_bind]
  by_cases h : story.symbols.contains (Symbol.ofName name) = true
  · rw [if_pos h, if_pos h]
  · rw [if_neg h, if_neg h]
    rfl

theorem run_defineConstant (name : String) (value : Operand) :
    (defineConstant name value).run.run story =
      (Definition.constant name value).outcome story (Operand.symbol (Symbol.ofName name)) := by
  rw [defineConstant, run_claim_bind]
  rfl

theorem run_defineGlobal (name : String) :
    (defineGlobal name).run.run story =
      (Definition.global name).outcome story ⟨story.globals.size⟩ := by
  rw [defineGlobal, run_run_get_bind, run_run_guard, run_claim_bind]
  simp only [Definition.outcome, Definition.refusal]
  split
  · rfl
  · rfl

theorem run_defineTable (isPure : Bool) :
    (defineTable isPure).run.run story =
      (Definition.table isPure).outcome story ⟨story.tables.size⟩ := by
  rw [defineTable, run_run_get_bind, run_defineSymbol_bind]
  rfl

theorem run_defineRoutine (name : String) (isEntryPoint cleansStack : Bool) :
    (defineRoutine name isEntryPoint cleansStack).run.run story =
      (Definition.routine name isEntryPoint cleansStack).outcome story ⟨story.routines.size⟩ := by
  rw [defineRoutine, run_run_get_bind]
  simp only [Definition.outcome, Definition.refusal]
  cases isEntryPoint with
  | false =>
    simp only [Bool.false_eq_true, ↓reduceIte]
    rw [run_claim_bind]
    rfl
  | true =>
    cases h : story.entryPoint with
    | some entry => rfl
    | none =>
      simp only [↓reduceIte, Option.map_none]
      rw [run_claim_bind]
      rfl

theorem run_defineObject (name : String) :
    (defineObject name).run.run story =
      (Definition.object name).outcome story ⟨story.objects.size⟩ := by
  rw [defineObject, run_run_get_bind, run_run_guard, run_claim_bind]
  simp only [Definition.outcome, Definition.refusal]
  split
  · rfl
  · rfl

theorem run_defineProperty (name : String) :
    (defineProperty name).run.run story =
      (Definition.property name).outcome story
        ⟨story.properties.size, story.version.maxProperties - story.properties.size⟩ := by
  have hsymbol : Symbol.ofName (Property.symbolOf (Symbol.ofName name)) =
      Property.symbolOf (Symbol.ofName name) := Symbol.ofName_append_ofName rfl name
  rw [defineProperty, run_run_get_bind, run_run_guard, run_claim_bind, hsymbol]
  simp only [Definition.outcome, Definition.refusal]
  split
  · rfl
  · rfl

theorem run_defineFlag (name : String) :
    (defineFlag name).run.run story =
      (Definition.flag name).outcome story
        ⟨story.flags.size, story.version.maxFlags - story.flags.size⟩ := by
  rw [defineFlag, run_run_get_bind, run_run_guard, run_claim_bind]
  simp only [Definition.outcome, Definition.refusal]
  split
  · rfl
  · rfl

theorem run_defineWord (text : String) :
    (defineWord text).run.run story =
      (Definition.word text).outcome story ⟨story.words.size⟩ := by
  rw [defineWord, run_run_get_bind, run_defineSymbol_bind]
  rfl

end Story

end StoryAsm
