import StoryAsm.Proofs.Code.Plain
import StoryAsm.Proofs.Routine.Call

/-!
# Routines without debug directives

A routine whose directives are taken away (`Routine.plain`) answers calls as before, changes as before
(`Routine.Call.changed_plain`) and is finished with the same body, but for the directives
(`Routine.finish_plain`). The text of a statement comes in parts, so that the parts that are directives
can be told from the others (`Statement.parts`).
-/

namespace StoryAsm

/-! ## Statements -/

/-- A part of a text. -/
structure TextPart where
  isDebug : Bool
  text : String

/-- The text of parts. -/
def partsText (parts : List TextPart) : String :=
  String.join (parts.map (·.text))

theorem partsText_append (parts parts' : List TextPart) :
    partsText (parts ++ parts') = partsText parts ++ partsText parts' := by
  rw [partsText, List.map_append, String.join_append]
  rfl

theorem sourceText_append (statements statements' : List Statement) :
    sourceText (statements ++ statements') = sourceText statements ++ sourceText statements' := by
  rw [sourceText, List.map_append, String.join_append]
  rfl

theorem sourceText_singleton (statement : Statement) : sourceText [statement] = statement.text :=
  String.empty_append

theorem Line.text_eq (line : Line Instr) : line.text = debugText line.debug ++ line.plain.text := by
  simp only [text, plain, debugText, List.map_nil, String.join_nil, String.empty_append,
    String.append_assoc]
  rfl

namespace Statement

/-- The statement without directives, if anything is left of it. -/
def plain? : Statement → Option Statement
  | code line => some (code line.plain)
  | debug _ => none
  | statement => some statement

/-- The text of the statement in parts: each directive is a line of its own, and so is the rest. -/
def parts : Statement → List TextPart
  | code line => line.debug.map (⟨true, indented ·⟩) ++ [⟨false, line.plain.text⟩]
  | debug record => [⟨true, indented record⟩]
  | statement => [⟨false, statement.text⟩]

theorem partsText_parts (statement : Statement) : partsText statement.parts = statement.text := by
  cases statement with
  | code line =>
    have hdebug : partsText (line.debug.map (⟨true, indented ·⟩)) = Line.debugText line.debug := by
      rw [partsText, List.map_map]
      rfl
    have hrest : partsText [⟨false, line.plain.text⟩] = line.plain.text := String.empty_append
    rw [parts, partsText_append, hdebug, hrest, text, ← line.text_eq]
  | _ => exact String.empty_append

/-- Without the parts that are directives, a statement without directives is left. -/
theorem partsText_filter (statement : Statement) :
    partsText (statement.parts.filter (!·.isDebug)) = sourceText statement.plain?.toList := by
  cases statement with
  | code line =>
    have hnone : (line.debug.map (TextPart.mk true <| indented ·)).filter (!·.isDebug) = [] := by
      simp
    rw [parts, List.filter_append, hnone]
    rfl
  | _ => rfl

end Statement

theorem partsText_flatMap (statements : List Statement) :
    partsText (statements.flatMap (·.parts)) = sourceText statements := by
  induction statements with
  | nil => rfl
  | cons statement statements ih =>
    rw [List.flatMap_cons, partsText_append, statement.partsText_parts, ih,
      ← sourceText_singleton statement, ← sourceText_append]
    rfl

theorem partsText_filter_flatMap (statements : List Statement) :
    partsText ((statements.flatMap (·.parts)).filter (!·.isDebug)) =
      sourceText (statements.filterMap (·.plain?)) := by
  induction statements with
  | nil => rfl
  | cons statement statements ih =>
    rw [List.flatMap_cons, List.filter_append, partsText_append, statement.partsText_filter, ih,
      ← sourceText_append]
    cases h : statement.plain? with
    | none => rw [List.filterMap_cons_none h]; rfl
    | some rest => rw [List.filterMap_cons_some h]; rfl

/-! ## Routines -/

namespace Routine

/-- The routine without directives in its code and in its body. -/
def plain (routine : Routine) : Routine :=
  { routine with
    buffer := routine.buffer.plain
    body := routine.body.map (·.filterMap (·.plain?)) }

theorem isFinished_plain (routine : Routine) : routine.plain.isFinished = routine.isFinished :=
  Option.isSome_map

theorem refusal_plain (routine : Routine) : routine.plain.refusal = routine.refusal := by
  rw [refusal, refusal, isFinished_plain]
  rfl

theorem optionalDefaults_plain (params : List Local) (next : Nat) :
    (optionalDefaults params next).1.plain = (optionalDefaults params next).1 := by
  refine List.foldlRecOn params _ (motive := fun state : Buffer Instr × Nat => state.1.plain = state.1)
    Buffer.plain_new ?_
  rintro ⟨buffer, next⟩ hbuffer param -
  cases param.value with
  | none => exact hbuffer
  | some value => simp only [assignMissing, Buffer.plain_markLabel, Buffer.plain_addLine, hbuffer]

theorem localDefaults_plain (locals : List Local) {buffer : Buffer Instr} (h : buffer.plain = buffer) :
    (localDefaults buffer locals).plain = localDefaults buffer locals := by
  rw [localDefaults]
  induction locals generalizing buffer with
  | nil => exact h
  | cons slot locals ih =>
    rw [List.foldl_cons]
    apply ih
    cases slot.value with
    | none => exact h
    | some value => rw [Buffer.plain_addLine, h]

/-- There is no directive in front of the code. -/
theorem prologue_plain (routine : Routine) : routine.prologue.1.plain = routine.prologue.1 := by
  simp only [prologue]
  split
  · exact Buffer.plain_new
  · exact localDefaults_plain _ (optionalDefaults_plain _ _)

theorem fullBuffer_plain (routine : Routine) : routine.plain.fullBuffer = routine.fullBuffer.plain := by
  rw [fullBuffer, fullBuffer, Buffer.plain_append, prologue_plain]
  rfl

theorem flushed_plain (routine : Routine) : routine.plain.flushed = routine.flushed.plain := by
  rw [flushed, flushed, fullBuffer_plain, Buffer.flush_plain Fusion.ignoresDebug_combine]

theorem finishEvents_plain (routine : Routine) : routine.plain.finishEvents = routine.finishEvents := by
  rw [finishEvents, finishEvents, fullBuffer_plain,
    Buffer.flushEvents_plain Fusion.ignoresDebug_combine, flushed_plain, Flushed.plain, List.length_map]
  rfl

theorem codeStatements_plain (flushed : Flushed Instr) :
    codeStatements flushed.plain = (codeStatements flushed).filterMap (·.plain?) := by
  have hcode : (flushed.lines.map Line.plain).map Statement.code =
      (flushed.lines.map Statement.code).filterMap (·.plain?) := by
    rw [List.map_map, List.filterMap_map, ← List.filterMap_eq_map]
    rfl
  have hdebug : (flushed.trailingDebug.map Statement.debug).filterMap (·.plain?) = [] := by
    simp [Statement.plain?]
  have hlabel : (flushed.trailingLabel.toList.map Statement.lastLabel).filterMap (·.plain?) =
      flushed.trailingLabel.toList.map Statement.lastLabel := by
    cases flushed.trailingLabel <;> rfl
  rw [codeStatements, codeStatements, List.filterMap_append, List.filterMap_append, hdebug, hlabel, ← hcode]
  rfl

theorem statements_plain (routine : Routine) (place : Option (Nat × Span)) :
    routine.plain.statements none = (routine.statements place).filterMap (·.plain?) := by
  have hplace : ∀ record : Nat × Span → String,
      (place.toList.map fun span => Statement.debug (record span)).filterMap (·.plain?) = [] := by
    intro record
    cases place <;> rfl
  have hstart : (if routine.isEntryPoint then [Statement.label "START"] else []).filterMap (·.plain?) =
      if routine.isEntryPoint then [Statement.label "START"] else [] := by
    split <;> rfl
  simp only [statements, List.filterMap_append, hplace, hstart, ← codeStatements_plain,
    ← flushed_plain, List.append_nil, Option.toList_none, List.map_nil]
  rfl

/-- A routine without directives is finished with the same body, but for the directives. -/
theorem finish_plain (routine : Routine) (place : Option (Nat × Span)) :
    routine.plain.finish none = (routine.finish place).plain := by
  have hbuffer : (routine.finish place).plain.buffer = {} := Buffer.plain_new
  have hbody : (routine.finish place).plain.body = some (routine.plain.statements none) :=
    congrArg some (statements_plain routine place).symm
  calc routine.plain.finish none
      = { (routine.finish place).plain with
          buffer := {}, body := some (routine.plain.statements none) } := rfl
    _ = (routine.finish place).plain := by rw [← hbuffer, ← hbody]

/-! ## Calls -/

namespace Call

variable {routine : Routine}

theorem refusal_plain (call : Call) (routine : Routine) :
    call.refusal routine.plain = call.refusal routine := by
  cases call with
  | newLabel | place => rfl
  | required | optional | slot =>
    simp only [refusal, slotRefusal, isFinished_plain]
    rfl
  | mark | debug => simp only [refusal, Routine.refusal_plain]
  | emit emission =>
    simp only [refusal, Routine.refusal_plain]
    rfl

theorem answer_plain (call : Call) (routine : Routine) :
    call.answer routine.plain = call.answer routine := by
  cases call <;> rfl

theorem changed_plain {call : Call} (hcall : ∀ record, call ≠ .debug record) (routine : Routine) :
    (call.changed routine).plain = call.changed routine.plain := by
  cases call with
  | required | optional | slot | newLabel | place => rfl
  | mark label =>
    simp only [changed, plain, Buffer.plain_markLabel]
  | debug record => exact absurd rfl (hcall record)
  | emit emission =>
    have hlines : emission.lines routine.plain.version routine.plain.cleansStack =
        emission.lines routine.version routine.cleansStack := rfl
    simp only [changed, hlines]
    cases emission.lines routine.version routine.cleansStack with
    | error => rfl
    | ok bodies => simp only [plain, Buffer.plain_foldl_addLine]

/-- A directive changes nothing else. -/
theorem debug_changed_plain (record : String) (routine : Routine) :
    ((Call.debug record).changed routine).plain = routine.plain := rfl

end Call

end Routine

end StoryAsm
