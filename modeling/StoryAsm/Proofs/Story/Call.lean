import StoryAsm.Proofs.Routine.Call
import StoryAsm.Proofs.Story.Finish
import StoryAsm.Proofs.Story.Namespace
import StoryAsm.Proofs.Table

/-!
# What calls on a story do

The calls that build a story, with what they return (`Story.Call`). A call is refused, or it returns an
answer and changes the story (`Story.Call.run_perform`). What calls do to the routines of a story are
steps of these routines (`Story.Call.exists_step`); apart from definitions, no call adds, removes or
renames anything (`Story.Call.next_cases`).
-/

namespace StoryAsm

/-! ## Changes of one element -/

/-- A change of one element that is known. -/
theorem modify_const {α : Type} {xs : Array α} {index : Nat} {x : α} (h : xs[index]? = some x)
    (f : α → α) : (xs.modify index fun _ => f x) = xs.modify index f := by
  apply Array.ext_getElem?
  intro i
  rw [Array.getElem?_modify, Array.getElem?_modify]
  split
  · subst i
    rw [h]
    rfl
  · rfl

theorem modify_self {α : Type} {xs : Array α} {index : Nat} {x : α} (h : xs[index]? = some x) :
    (xs.modify index fun _ => x) = xs := by
  rw [modify_const h fun x => x]
  apply Array.ext_getElem?
  intro i
  rw [Array.getElem?_modify]
  split
  · exact Option.map_id'
  · rfl

theorem map_modify {α β : Type} {f : α → α} {f' : β → β} {g : α → β} (h : ∀ x, g (f x) = f' (g x))
    (xs : Array α) (index : Nat) : (xs.modify index f).map g = (xs.map g).modify index f' := by
  apply Array.ext_getElem?
  intro i
  rw [Array.getElem?_map, Array.getElem?_modify, Array.getElem?_modify, Array.getElem?_map]
  split
  · rw [Option.map_map, Option.map_map]
    exact Option.map_congr fun x _ => h x
  · rfl

/-- A change of one element that the image does not show. -/
theorem map_modify_of_eq {α β : Type} {f : α → α} {g : α → β} (h : ∀ x, g (f x) = g x) (xs : Array α)
    (index : Nat) : (xs.modify index f).map g = xs.map g := by
  apply Array.ext_getElem?
  intro i
  rw [Array.getElem?_map, Array.getElem?_modify, Array.getElem?_map]
  split
  · rw [Option.map_map]
    exact Option.map_congr fun x _ => h x
  · rfl

theorem toList_map_modify {α β : Type} {f : α → α} {g : α → β} (h : ∀ x, g (f x) = g x) (xs : Array α)
    (index : Nat) : (xs.modify index f).toList.map g = xs.toList.map g := by
  rw [← Array.toList_map, map_modify_of_eq h, Array.toList_map]

/-! ## Definitions -/

namespace Definition

/-- The definition with the handle that it returns. -/
def perform : Definition → StoryM Answer
  | constant name value => return .operand (← Story.defineConstant name value)
  | global name => return .global (← Story.defineGlobal name)
  | table isPure => return .table (← Story.defineTable isPure)
  | routine name isEntryPoint cleansStack =>
    return .routine (← Story.defineRoutine name isEntryPoint cleansStack)
  | object name => return .object (← Story.defineObject name)
  | property name => return .property (← Story.defineProperty name)
  | flag name => return .flag (← Story.defineFlag name)
  | word text => return .word (← Story.defineWord text)

def answer (story : Story) : Definition → Answer
  | constant name _ => .operand (.symbol (Symbol.ofName name))
  | global _ => .global ⟨story.globals.size⟩
  | table _ => .table ⟨story.tables.size⟩
  | routine .. => .routine ⟨story.routines.size⟩
  | object _ => .object ⟨story.objects.size⟩
  | property _ =>
    .property ⟨story.properties.size, story.version.maxProperties - story.properties.size⟩
  | flag _ => .flag ⟨story.flags.size, story.version.maxFlags - story.flags.size⟩
  | word _ => .word ⟨story.words.size⟩

/-- Why the definition is refused: the story is full, or the symbol is taken. -/
def rejection (story : Story) (definition : Definition) : Option EmitError :=
  (definition.refusal story).or
    (if story.symbols.contains (definition.symbol story) then
      some (.duplicateSymbol (definition.symbol story))
    else none)

variable {story : Story} {definition : Definition}

theorem outcome_eq_settled {ι : Type} (handle : ι) :
    definition.outcome story handle =
      settled (definition.rejection story) handle (definition.record story) story := by
  unfold outcome rejection
  cases definition.refusal story with
  | some error => rfl
  | none => cases story.symbols.contains (definition.symbol story) <;> rfl

theorem run_perform (definition : Definition) (story : Story) :
    definition.perform.run.run story =
      settled (definition.rejection story) (definition.answer story) (definition.record story)
        story := by
  cases definition with
  | constant name value =>
    exact run_run_bind_pure ((Story.run_defineConstant story name value).trans (outcome_eq_settled _))
      Answer.operand
  | global name =>
    exact run_run_bind_pure ((Story.run_defineGlobal story name).trans (outcome_eq_settled _))
      Answer.global
  | table isPure =>
    exact run_run_bind_pure ((Story.run_defineTable story isPure).trans (outcome_eq_settled _))
      Answer.table
  | routine name isEntryPoint cleansStack =>
    exact run_run_bind_pure ((Story.run_defineRoutine story name isEntryPoint cleansStack).trans
      (outcome_eq_settled _)) Answer.routine
  | object name =>
    exact run_run_bind_pure ((Story.run_defineObject story name).trans (outcome_eq_settled _))
      Answer.object
  | property name =>
    exact run_run_bind_pure ((Story.run_defineProperty story name).trans (outcome_eq_settled _))
      Answer.property
  | flag name =>
    exact run_run_bind_pure ((Story.run_defineFlag story name).trans (outcome_eq_settled _))
      Answer.flag
  | word text =>
    exact run_run_bind_pure ((Story.run_defineWord story text).trans (outcome_eq_settled _))
      Answer.word

theorem rejection_eq_none_iff :
    definition.rejection story = none ↔
      definition.Fits story ∧ ¬story.symbols.contains (definition.symbol story) = true := by
  simp [rejection, refusal_eq_none_iff]

end Definition

/-! ## Objects and the registry -/

/-- A change of an object that is never refused. -/
inductive Object.Change where
  | description (text : Option String)
  | parent (link : Option ObjectId)
  | child (link : Option ObjectId)
  | sibling (link : Option ObjectId)
  | setFlag (flag : FlagId)
  | clearFlag (flag : FlagId)
  /-- Add to the table of a property. -/
  | entries (property : PropertyId) (added : List Entry)

def Object.Change.apply (object : Object) : Object.Change → Object
  | description text => { object with description := text }
  | parent link => { object with parent := link }
  | child link => { object with child := link }
  | sibling link => { object with sibling := link }
  | setFlag flag => object.setFlag flag
  | clearFlag flag => object.clearFlag flag
  | entries property added => object.modifyTable property (·.add added)

theorem Object.Change.name_apply (object : Object) (change : Object.Change) :
    (change.apply object).name = object.name := by
  cases change <;> rfl

/-- What an object is given as a property. -/
inductive Object.Gift where
  | byte (value : Operand)
  | word (value : Operand)
  /-- A table, which is empty at first. -/
  | table

def Object.Gift.value (object : Object) (property : PropertyId) : Object.Gift → PropertyValue
  | byte value => .byte value
  | word value => .word value
  | table => .table (object.emptyTable property)

/-- A call on the debug registry. -/
inductive Registry.Call where
  | fileId (file : String)
  | lineRecord (span : Span)
  | markObject (object name : String) (span : Span)
  | markAction (action name : String)
  | map (key value : String)
  | store (record : String)

def Registry.Call.apply (registry : Registry) : Registry.Call → Answer × Registry
  | fileId file => ((registry.fileId file).map .fileId id)
  | lineRecord span => ((registry.lineRecord span).map .record id)
  | markObject object name span => (.done, registry.markObject object name span)
  | markAction action name => (.done, registry.markAction action name)
  | map key value => (.done, registry.map key value)
  | store record => (.done, registry.store record)

/-! ## Calls -/

namespace Story

inductive Call where
  | define (definition : Definition)
  | number (value : Int)
  | string (content : String)
  | globalValue (id : GlobalId) (value : Option Operand)
  | propertyValue (id : PropertyId) (value : Option Operand)
  | tableEntries (id : TableId) (entries : List Entry)
  | wordEntries (id : WordId) (entries : List Entry)
  | change (id : ObjectId) (alteration : Object.Change)
  | give (id : ObjectId) (property : PropertyId) (gift : Object.Gift)
  | routine (id : RoutineId) (call : Routine.Call)
  | sequencePoint (id : RoutineId) (span : Span)
  | finishRoutine (id : RoutineId)
  /-- A call on the registry, which a story has only if debug information is wanted. -/
  | registry (call : Registry.Call)

/-- Why a call on a routine is refused, where `reason` is what the routine says. -/
def routineRefusal (story : Story) (id : RoutineId) (reason : Routine → Option EmitError) :
    Option EmitError :=
  match story.routines[id.index]? with
  | none => some .unknownHandle
  | some routine => reason routine

namespace Call

/-- Make the call. -/
def perform : Call → StoryM Answer
  | define definition => definition.perform
  | number value => return .pooled (← makeNumber value)
  | string content => return .pooled (← makeString content)
  | globalValue id value => do
    modifyGlobal id fun global => { global with value }
    return .done
  | propertyValue id value => do
    modifyProperty id fun property => { property with value }
    return .done
  | tableEntries id entries => do
    modifyTable id (·.add entries)
    return .done
  | wordEntries id entries => do
    modifyWord id fun word => { word with table := word.table.add entries }
    return .done
  | change id alteration => do
    modifyObject id (alteration.apply ·)
    return .done
  | give id property gift => do
    match gift with
    | .byte value => addByteProperty id property value
    | .word value => addWordProperty id property value
    | .table => addTableProperty id property
    return .done
  | routine id call => onRoutine id call.perform
  | sequencePoint id span => do
    markSequencePoint id span
    return .done
  | finishRoutine id => do
    Story.finishRoutine id
    return .done
  | registry call => do
    if (← get).wantsDebug then onRegistry (call.apply ·) else return .done

/-- Why the call is refused. -/
def refusal (story : Story) : Call → Option EmitError
  | define definition => definition.rejection story
  | give id property _ =>
    match story.objects[id.index]? with
    | none => some .unknownHandle
    | some object =>
      if object.properties.any (·.1 == property.number) then
        some (.propertyTaken object.name property.number)
      else none
  | routine id call => story.routineRefusal id (call.refusal ·)
  | sequencePoint id _ =>
    if story.wantsDebug then story.routineRefusal id Routine.refusal else none
  | finishRoutine id => story.routineRefusal id Routine.refusal
  | number _ | string _ | globalValue .. | propertyValue .. | tableEntries .. | wordEntries ..
  | change .. | registry _ => none

def answer (story : Story) : Call → Answer
  | define definition => definition.answer story
  | number value => .pooled (story.pool.number value).1
  | string content => .pooled (story.pool.string content).1
  | routine id call =>
    match story.routines[id.index]? with
    | none => .done
    | some found => call.answer found
  | registry call => if story.wantsDebug then (call.apply story.registry).1 else .done
  | globalValue .. | propertyValue .. | tableEntries .. | wordEntries .. | change .. | give ..
  | sequencePoint .. | finishRoutine _ => .done

/-- The story after the call, if it is not refused. -/
def changed (story : Story) : Call → Story
  | define definition => definition.record story
  | number value => { story with pool := (story.pool.number value).2 }
  | string content => { story with pool := (story.pool.string content).2 }
  | globalValue id value =>
    { story with globals := story.globals.modify id.index fun global => { global with value } }
  | propertyValue id value =>
    { story with
      properties := story.properties.modify id.index fun property => { property with value } }
  | tableEntries id entries =>
    { story with tables := story.tables.modify id.index (·.add entries) }
  | wordEntries id entries =>
    { story with
      words := story.words.modify id.index fun word => { word with table := word.table.add entries } }
  | change id alteration =>
    { story with objects := story.objects.modify id.index (alteration.apply ·) }
  | give id property gift =>
    { story with
      objects := story.objects.modify id.index fun object =>
        { object with
          properties := object.properties.push (property.number, gift.value object property) } }
  | routine id call => { story with routines := story.routines.modify id.index (call.changed ·) }
  | sequencePoint id span =>
    if story.wantsDebug then
      { story with
        routines :=
          story.routines.modify id.index ((Routine.Call.debug (story.registry.lineRecord span).1).changed ·)
        registry := (story.registry.lineRecord span).2 }
    else story
  | finishRoutine id =>
    match story.routines[id.index]? with
    | none => story
    | some found =>
      { story with
        routines := story.routines.modify id.index (·.finish (story.placeOf found).1)
        registry := (story.placeOf found).2
        log := story.log ++ found.finishEvents.toArray }
  | registry call =>
    if story.wantsDebug then { story with registry := (call.apply story.registry).2 } else story

/-- What the call leaves behind if it is refused. A sequence point has its file registered first. -/
def left (story : Story) : Call → Story
  | sequencePoint _ span =>
    if story.wantsDebug then { story with registry := (story.registry.lineRecord span).2 } else story
  | _ => story

end Call

/-! ## Runs of calls -/

variable {story : Story}

theorem run_onRoutine {α : Type} {id : RoutineId} {operation : RoutineM α} {routine : Routine}
    {refusal : Option EmitError} {a : α} (change : Routine → Routine)
    (hget : story.routines[id.index]? = some routine)
    (hrun : operation.run.run routine = settled refusal a (change routine) routine) :
    (onRoutine id operation).run.run story =
      settled refusal a { story with routines := story.routines.modify id.index change } story := by
  rw [onRoutine, run_run_get_bind]
  simp only [hget]
  rw [hrun]
  cases refusal with
  | none =>
    rw [← modify_const hget change]
    rfl
  | some error =>
    show (Except.error error, ({ story with routines := _ } : Story)) = (Except.error error, story)
    rw [modify_self hget]

theorem run_addProperty (id : ObjectId) (property : PropertyId) (gift : Object.Gift)
    (story : Story) :
    (addProperty id property fun object => gift.value object property).run.run story =
      settled ((Call.give id property gift).refusal story) ()
        ((Call.give id property gift).changed story) story := by
  rw [addProperty, run_run_get_bind]
  simp only [Call.refusal, Call.changed]
  cases hget : story.objects[id.index]? with
  | none => rfl
  | some object =>
    simp only [Object.addProperty]
    by_cases htaken : object.properties.any (·.1 == property.number) = true
    · rw [if_pos htaken, if_pos htaken]
      rfl
    · rw [if_neg htaken, if_neg htaken, ← modify_const hget]
      rfl

theorem run_onRegistry_bind {α β : Type} (operation : Registry → α × Registry) (f : α → StoryM β)
    (story : Story) :
    (onRegistry operation >>= f).run.run story =
      (f (operation story.registry).1).run.run
        { story with registry := (operation story.registry).2 } := rfl

theorem run_markSequencePoint (id : RoutineId) (span : Span) (story : Story) :
    (markSequencePoint id span).run.run story =
      settled ((Call.sequencePoint id span).refusal story) ()
        ((Call.sequencePoint id span).changed story) ((Call.sequencePoint id span).left story) := by
  rw [markSequencePoint, run_run_get_bind]
  simp only [Call.refusal, Call.changed, Call.left]
  by_cases hdebug : story.wantsDebug = true
  · simp only [if_pos hdebug]
    rw [run_onRegistry_bind, routineRefusal]
    cases hget : story.routines[id.index]? with
    | none =>
      rw [onRoutine, run_run_get_bind]
      simp only [hget]
      rfl
    | some routine =>
      have hrun : ∀ record, (Routine.addDebug record).run.run routine =
          settled routine.refusal () ((Routine.Call.debug record).changed routine) routine := by
        intro record
        rw [Routine.addDebug, Routine.run_ensureOpen_bind, Routine.refusal]
        cases routine.isFinished <;> rfl
      exact run_onRoutine ((Routine.Call.debug _).changed ·) hget (hrun _)
  · simp only [if_neg hdebug]
    rfl

theorem run_finishRoutine_eq (id : RoutineId) (story : Story) :
    (finishRoutine id).run.run story =
      settled ((Call.finishRoutine id).refusal story) () ((Call.finishRoutine id).changed story)
        story := by
  simp only [Call.refusal, Call.changed, routineRefusal]
  cases hget : story.routines[id.index]? with
  | none =>
    rw [finishRoutine, run_run_get_bind]
    simp only [hget]
    rfl
  | some routine =>
    simp only [Routine.refusal]
    cases hopen : routine.isFinished with
    | false => exact run_finishRoutine hget hopen
    | true =>
      rw [finishRoutine, run_run_get_bind]
      simp only [hget, hopen]
      rfl

namespace Call

/-- What a call on a story does. -/
theorem run_perform (call : Call) (story : Story) :
    call.perform.run.run story =
      settled (call.refusal story) (call.answer story) (call.changed story) (call.left story) := by
  cases call with
  | define definition => exact definition.run_perform story
  | number | string | globalValue | propertyValue | tableEntries | wordEntries | change => rfl
  | give id property gift =>
    cases gift with
    | byte value => exact run_run_bind_pure (run_addProperty id property (.byte value) story) _
    | word value => exact run_run_bind_pure (run_addProperty id property (.word value) story) _
    | table => exact run_run_bind_pure (run_addProperty id property .table story) _
  | routine id call =>
    simp only [refusal, answer, changed, left, routineRefusal, perform]
    cases hget : story.routines[id.index]? with
    | none =>
      rw [onRoutine, run_run_get_bind]
      simp only [hget]
      rfl
    | some routine =>
      exact run_onRoutine (call.changed ·) hget (call.run_perform routine)
  | sequencePoint id span =>
    exact run_run_bind_pure (run_markSequencePoint id span story) fun _ => Answer.done
  | finishRoutine id =>
    exact run_run_bind_pure (run_finishRoutine_eq id story) fun _ => Answer.done
  | registry call =>
    rw [perform, run_run_get_bind]
    simp only [refusal, answer, changed, left]
    by_cases hdebug : story.wantsDebug = true
    · simp only [if_pos hdebug]
      rfl
    · simp only [if_neg hdebug]
      rfl

/-- The story after the call. -/
def next (story : Story) (call : Call) : Story :=
  (call.perform.run.run story).2

/-- What the call returns. -/
def result (story : Story) (call : Call) : Except EmitError Answer :=
  (call.perform.run.run story).1

theorem next_of_refusal_eq_none {call : Call} (h : call.refusal story = none) :
    call.next story = call.changed story := by
  rw [next, run_perform, h]
  rfl

theorem next_of_refusal_eq_some {call : Call} {error : EmitError}
    (h : call.refusal story = some error) : call.next story = call.left story := by
  rw [next, run_perform, h]
  rfl

theorem result_of_refusal_eq_none {call : Call} (h : call.refusal story = none) :
    call.result story = .ok (call.answer story) := by
  rw [result, run_perform, h]
  rfl

theorem result_of_refusal_eq_some {call : Call} {error : EmitError}
    (h : call.refusal story = some error) : call.result story = .error error := by
  rw [result, run_perform, h]
  rfl

end Call

/-- The story after calls, one after the other. Calls that are refused are among them. -/
def after (start : Story) (calls : List Call) : Story :=
  calls.foldl Call.next start

theorem after_append (start : Story) (calls calls' : List Call) :
    start.after (calls ++ calls') = (start.after calls).after calls' :=
  List.foldl_append

theorem after_induction {P : Story → Prop} (hstep : ∀ story (call : Call), P story → P (call.next story))
    (calls : List Call) {start : Story} (hstart : P start) : P (start.after calls) := by
  induction calls generalizing start with
  | nil => exact hstart
  | cons call calls ih => exact ih (hstep start call hstart)

/-! ## What calls do to routines -/

theorem routineRefusal_of_get {id : RoutineId} {reason : Routine → Option EmitError}
    {routine : Routine} (hget : story.routines[id.index]? = some routine) :
    story.routineRefusal id reason = reason routine := by
  rw [routineRefusal, hget]

theorem Routine.isFinished_of_refusal {routine : Routine} (h : routine.refusal = none) :
    routine.isFinished = false := by
  unfold Routine.refusal at h
  split at h
  · cases h
  · simp_all

/-- A routine of a modified list of routines is one of the list, or what became of the one that was
modified. -/
theorem getElem?_routines_modify {index place : Nat} {routine : Routine} {f : Routine → Routine}
    (hget : story.routines[index]? = some routine)
    (hstep : place = index → Routine.Step routine (f routine)) :
    ∃ routine', (story.routines.modify place f)[index]? = some routine' ∧
      (routine' = routine ∨ Routine.Step routine routine') := by
  rw [Array.getElem?_modify, hget]
  split
  · rename_i heq
    exact ⟨_, rfl, .inr (hstep heq)⟩
  · exact ⟨routine, rfl, .inl rfl⟩

theorem Call.exists_step_changed {call : Call} (h : call.refusal story = none) {index : Nat}
    {routine : Routine} (hget : story.routines[index]? = some routine) :
    ∃ routine', (call.changed story).routines[index]? = some routine' ∧
      (routine' = routine ∨ Routine.Step routine routine') := by
  cases call with
  | define definition =>
    refine ⟨routine, ?_, .inl rfl⟩
    cases definition with
    | routine =>
      have hlt := (Array.getElem?_eq_some_iff.mp hget).1
      show (story.routines.push _)[index]? = some routine
      rw [Array.getElem?_push, if_neg (by omega), hget]
    | _ => exact hget
  | number | string | globalValue | propertyValue | tableEntries | wordEntries | change | give =>
    exact ⟨routine, hget, .inl rfl⟩
  | routine id call =>
    refine getElem?_routines_modify (f := fun routine => call.changed routine) hget fun heq => .call ?_
    subst heq
    rwa [Call.refusal, routineRefusal_of_get hget] at h
  | sequencePoint id span =>
    simp only [Call.refusal, Call.changed] at h ⊢
    by_cases hdebug : story.wantsDebug = true
    · simp only [if_pos hdebug] at h ⊢
      refine getElem?_routines_modify hget fun heq => .call ?_
      subst heq
      rwa [routineRefusal_of_get hget] at h
    · simp only [if_neg hdebug]
      exact ⟨routine, hget, .inl rfl⟩
  | finishRoutine id =>
    simp only [Call.refusal, Call.changed] at h ⊢
    cases hfound : story.routines[id.index]? with
    | none => exact ⟨routine, hget, .inl rfl⟩
    | some found =>
      refine getElem?_routines_modify hget fun heq => .finish _ ?_
      subst heq
      rw [routineRefusal_of_get hget] at h
      exact Routine.isFinished_of_refusal h
  | registry call =>
    refine ⟨routine, ?_, .inl rfl⟩
    simp only [Call.changed]
    split <;> exact hget

/-- A refused call leaves at most a file in the registry. -/
theorem Call.exists_left (call : Call) (story : Story) :
    ∃ registry, call.left story = { story with registry := registry } := by
  cases call with
  | sequencePoint id span =>
    simp only [left]
    split
    · exact ⟨_, rfl⟩
    · exact ⟨story.registry, rfl⟩
  | _ => exact ⟨story.registry, rfl⟩

theorem Call.routines_left (story : Story) (call : Call) :
    (call.left story).routines = story.routines := by
  obtain ⟨registry, h⟩ := call.exists_left story
  rw [h]

/-- What a call does to a routine is a step of the routine. -/
theorem Call.exists_step (call : Call) {index : Nat} {routine : Routine}
    (hget : story.routines[index]? = some routine) :
    ∃ routine', (call.next story).routines[index]? = some routine' ∧
      (routine' = routine ∨ Routine.Step routine routine') := by
  cases h : call.refusal story with
  | none =>
    rw [next_of_refusal_eq_none h]
    exact exists_step_changed h hget
  | some error =>
    rw [next_of_refusal_eq_some h, routines_left]
    exact ⟨routine, hget, .inl rfl⟩

/-! ## What calls do to names -/

/-- The two stories have the same things under the same names, and the same entry point. -/
structure SameNames (story story' : Story) : Prop where
  version : story'.version = story.version
  symbols : story'.symbols = story.symbols
  names : ∀ kind, story'.names kind = story.names kind
  tables : story'.tables.toList.map (·.name) = story.tables.toList.map (·.name)
  entryPoint : story'.entryPoint = story.entryPoint
  entries : story'.routines.toList.map (·.isEntryPoint) = story.routines.toList.map (·.isEntryPoint)

/-- A change that keeps the names of all things. -/
theorem sameNames_of_map {globals : Array Global} {tables : Array Table} {routines : Array Routine}
    {objects : Array Object} {properties : Array Property} {words : Array Word} {pool : Pool}
    {registry : Registry} {log : Array Log.Event}
    (hglobals : globals.toList.map (·.name) = story.globals.toList.map (·.name))
    (htables : tables.toList.map (·.name) = story.tables.toList.map (·.name))
    (hroutines : routines.toList.map (·.name) = story.routines.toList.map (·.name))
    (hentries : routines.toList.map (·.isEntryPoint) = story.routines.toList.map (·.isEntryPoint))
    (hobjects : objects.toList.map (·.name) = story.objects.toList.map (·.name))
    (hproperties : properties.toList.map (·.symbol) = story.properties.toList.map (·.symbol))
    (hwords : words.toList.map (·.table.name) = story.words.toList.map (·.table.name)) :
    SameNames story
      { story with pool, globals, tables, routines, objects, properties, words, registry, log } := by
  refine ⟨rfl, rfl, fun kind => ?_, htables, rfl, hentries⟩
  cases kind with
  | constant | flag => rfl
  | global => exact hglobals
  | table =>
    have hsize : tables.size = story.tables.size := by simpa using congrArg List.length htables
    show (List.range tables.size).map _ = (List.range story.tables.size).map _
    rw [hsize]
  | routine => exact hroutines
  | object => exact hobjects
  | property => exact hproperties
  | word => exact hwords

theorem SameNames.refl (story : Story) : SameNames story story :=
  sameNames_of_map rfl rfl rfl rfl rfl rfl rfl

theorem Call.sameNames_left (call : Call) (story : Story) : SameNames story (call.left story) := by
  obtain ⟨registry, h⟩ := call.exists_left story
  rw [h]
  exact sameNames_of_map rfl rfl rfl rfl rfl rfl rfl

/-- Apart from definitions, calls keep all names. -/
theorem Call.sameNames_changed {call : Call} (h : ∀ definition, call ≠ .define definition) :
    SameNames story (call.changed story) := by
  cases call with
  | define definition => exact absurd rfl (h definition)
  | number | string => exact sameNames_of_map rfl rfl rfl rfl rfl rfl rfl
  | globalValue id value =>
    refine sameNames_of_map ?_ rfl rfl rfl rfl rfl rfl
    apply toList_map_modify
    exact fun _ => rfl
  | propertyValue id value =>
    refine sameNames_of_map rfl rfl rfl rfl rfl ?_ rfl
    apply toList_map_modify
    exact fun _ => rfl
  | tableEntries id entries =>
    refine sameNames_of_map rfl ?_ rfl rfl rfl rfl rfl
    apply toList_map_modify
    exact fun table => table.name_add entries
  | wordEntries id entries =>
    refine sameNames_of_map rfl rfl rfl rfl rfl rfl ?_
    apply toList_map_modify
    exact fun word => word.table.name_add entries
  | change id alteration =>
    refine sameNames_of_map rfl rfl rfl rfl ?_ rfl rfl
    exact toList_map_modify alteration.name_apply _ _
  | give id property gift =>
    refine sameNames_of_map rfl rfl rfl rfl ?_ rfl rfl
    apply toList_map_modify
    exact fun _ => rfl
  | routine id call =>
    refine sameNames_of_map rfl rfl ?_ ?_ rfl rfl rfl
    · exact toList_map_modify call.name_changed _ _
    · exact toList_map_modify call.isEntryPoint_changed _ _
  | sequencePoint id span =>
    simp only [changed]
    split
    · refine sameNames_of_map rfl rfl ?_ ?_ rfl rfl rfl <;>
      · apply toList_map_modify
        exact fun _ => rfl
    · exact .refl story
  | finishRoutine id =>
    simp only [changed]
    split
    · exact .refl story
    · refine sameNames_of_map rfl rfl ?_ ?_ rfl rfl rfl <;>
      · apply toList_map_modify
        exact fun _ => rfl
  | registry call =>
    simp only [changed]
    split
    · exact sameNames_of_map rfl rfl rfl rfl rfl rfl rfl
    · exact .refl story

theorem Call.sameNames_next {call : Call} (h : ∀ definition, call ≠ .define definition) :
    SameNames story (call.next story) := by
  cases hrefusal : call.refusal story with
  | some error =>
    rw [next_of_refusal_eq_some hrefusal]
    exact call.sameNames_left story
  | none =>
    rw [next_of_refusal_eq_none hrefusal]
    exact sameNames_changed h

/-- A definition is made, or the story stays as it is. -/
theorem Call.next_define (definition : Definition) (story : Story) :
    (definition.rejection story = none ∧ (Call.define definition).next story = definition.record story) ∨
      (Call.define definition).next story = story := by
  cases h : (Call.define definition).refusal story with
  | none => exact .inl ⟨h, next_of_refusal_eq_none h⟩
  | some error => exact .inr (next_of_refusal_eq_some h)

/-- A call makes a definition, or keeps all names. -/
theorem Call.next_cases (call : Call) (story : Story) :
    (∃ definition : Definition,
      definition.rejection story = none ∧ call.next story = definition.record story) ∨
      SameNames story (call.next story) := by
  by_cases hdefine : ∃ definition, call = .define definition
  · obtain ⟨definition, rfl⟩ := hdefine
    rcases next_define definition story with hmade | hsame
    · exact .inl ⟨definition, hmade⟩
    · rw [hsame]
      exact .inr (.refl story)
  · exact .inr (sameNames_next fun definition heq => hdefine ⟨definition, heq⟩)

theorem after_define_induction {P : Story → Prop}
    (hstep : ∀ story (definition : Definition),
      definition.rejection story = none → P story → P (definition.record story))
    (definitions : List Definition) {start : Story} (hstart : P start) :
    P (start.after (definitions.map .define)) := by
  induction definitions generalizing start with
  | nil => exact hstart
  | cons definition definitions ih =>
    apply ih
    rcases Call.next_define definition start with ⟨haccepted, hnext⟩ | hsame
    · rw [hnext]
      exact hstep start definition haccepted hstart
    · rwa [hsame]

/-! ## Finishing all routines -/

/-- The calls that finish all routines. Routines that are finished refuse them. -/
def closings (story : Story) : List Call :=
  (List.range story.routines.size).map fun index => .finishRoutine ⟨index⟩

/-- The story with all its routines finished. -/
def closed (story : Story) : Story :=
  story.after story.closings

/-- Finishing a routine changes the routines, the debug registry and the log. -/
theorem exists_next_finishRoutine (id : RoutineId) (story : Story) :
    ∃ routines registry log,
      (Call.finishRoutine id).next story = { story with routines, registry, log } := by
  cases h : (Call.finishRoutine id).refusal story with
  | some error =>
    rw [Call.next_of_refusal_eq_some h]
    exact ⟨_, _, _, rfl⟩
  | none =>
    rw [Call.next_of_refusal_eq_none h, Call.changed]
    split
    · exact ⟨_, _, _, rfl⟩
    · exact ⟨_, _, _, rfl⟩

theorem exists_closed (story : Story) :
    ∃ routines registry log, story.closed = { story with routines, registry, log } := by
  have hclose : ∀ (indices : List Nat) (start : Story),
      ∃ routines registry log, start.after (indices.map fun index => .finishRoutine ⟨index⟩) =
        { start with routines, registry, log } := by
    intro indices
    induction indices with
    | nil => exact fun start => ⟨_, _, _, rfl⟩
    | cons index indices ih =>
      intro start
      obtain ⟨routines, registry, log, hnext⟩ := exists_next_finishRoutine ⟨index⟩ start
      obtain ⟨routines', registry', log', hrest⟩ := ih ((Call.finishRoutine ⟨index⟩).next start)
      refine ⟨routines', registry', log', ?_⟩
      show ((Call.finishRoutine ⟨index⟩).next start).after _ = _
      rw [hrest, hnext]
  exact hclose _ story

/-- Finishing a routine if it is open is trying to finish it. -/
theorem run_finish_if_open (index : Nat) (story : Story) :
    (do
      if ((← get).routines[index]?).any (!·.isFinished) then
        finishRoutine ⟨index⟩
        return ForInStep.yield PUnit.unit
      else
        return ForInStep.yield PUnit.unit : StoryM (ForInStep PUnit)).run.run story =
      (.ok (.yield ⟨⟩), (Call.finishRoutine ⟨index⟩).next story) := by
  rw [run_run_get_bind]
  cases hget : story.routines[index]? with
  | none =>
    have hrefused : (Call.finishRoutine ⟨index⟩).refusal story = some .unknownHandle := by
      simp only [Call.refusal, routineRefusal, hget]
    rw [Call.next_of_refusal_eq_some hrefused]
    rfl
  | some routine =>
    have hrefusal : (Call.finishRoutine ⟨index⟩).refusal story = routine.refusal :=
      routineRefusal_of_get hget
    by_cases hopen : routine.isFinished = true
    · rw [Routine.refusal, if_pos hopen] at hrefusal
      rw [Call.next_of_refusal_eq_some hrefusal]
      simp only [Option.any_some, hopen]
      rfl
    · rw [Routine.refusal, if_neg hopen] at hrefusal
      rw [Call.next_of_refusal_eq_none hrefusal]
      simp only [Option.any_some, hopen, Bool.not_false, ↓reduceIte]
      rw [run_run_bind, run_finishRoutine_eq, hrefusal]
      rfl

theorem run_finishRoutines (story : Story) :
    finishRoutines.run.run story = (.ok (), story.closed) := by
  have hloop : ∀ (indices : List Nat) (s : Story),
      (forIn indices PUnit.unit fun index _ => (do
        if ((← get).routines[index]?).any (!·.isFinished) then
          finishRoutine ⟨index⟩
          return ForInStep.yield PUnit.unit
        else
          return ForInStep.yield PUnit.unit : StoryM (ForInStep PUnit))).run.run s =
        (.ok ⟨⟩, s.after (indices.map fun index => .finishRoutine ⟨index⟩)) := by
    intro indices
    induction indices with
    | nil =>
      intro s
      rfl
    | cons index indices ih =>
      intro s
      rw [List.forIn_cons, run_run_bind, run_finish_if_open]
      exact ih _
  rw [finishRoutines, run_run_get_bind, run_run_bind, hloop]
  rfl

end Story

end StoryAsm
