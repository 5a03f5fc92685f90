import StoryAsm.Proofs.Routine.Plain
import StoryAsm.Proofs.Story.Call

/-!
# Stories without debug information

A story from which the debug information is taken away (`Story.plain`) changes under calls as the story
itself does (`Story.plain_after`), and the calls return the same (`Story.Call.result_plain`). The
exceptions are sequence points on a routine that is not open, which fail only where debug information is
wanted.
-/

namespace StoryAsm

namespace Story

/-- The story as if no debug information had been wanted. -/
def plain (story : Story) : Story :=
  { story with
    wantsDebug := false
    routines := story.routines.map Routine.plain
    registry := {} }

variable {story : Story}

theorem getElem?_routines_plain (story : Story) (index : Nat) :
    story.plain.routines[index]? = (story.routines[index]?).map Routine.plain :=
  Array.getElem?_map

theorem routineRefusal_plain {reason : Routine → Option EmitError}
    (h : ∀ routine : Routine, reason routine.plain = reason routine) (story : Story) (id : RoutineId) :
    story.plain.routineRefusal id reason = story.routineRefusal id reason := by
  rw [routineRefusal, routineRefusal, getElem?_routines_plain]
  cases story.routines[id.index]? with
  | none => rfl
  | some routine => exact h routine

end Story

/-! ## Definitions -/

namespace Definition

theorem rejection_plain (definition : Definition) (story : Story) :
    definition.rejection story.plain = definition.rejection story := by
  cases definition with
  | routine name isEntryPoint cleansStack =>
    have hname : ∀ entry : RoutineId, (story.plain.routines[entry.index]?).map (·.name) =
        (story.routines[entry.index]?).map (·.name) := by
      intro entry
      rw [Story.getElem?_routines_plain, Option.map_map]
      rfl
    simp only [rejection, refusal, hname]
    rfl
  | _ => rfl

theorem answer_plain (definition : Definition) (story : Story) :
    definition.answer story.plain = definition.answer story := by
  cases definition with
  | routine => simp only [answer, Story.plain, Array.size_map]
  | _ => rfl

theorem record_plain (definition : Definition) (story : Story) :
    definition.record story.plain = (definition.record story).plain := by
  cases definition with
  | routine name isEntryPoint cleansStack =>
    simp only [record, Story.plain, Array.map_push, Array.size_map, Routine.plain, Buffer.plain_new]
    rfl
  | _ => rfl

end Definition

/-! ## Calls -/

namespace Story

variable {story : Story}

/-- The call neither uses the registry nor writes a directive by itself. -/
def Call.IsPlain : Call → Prop
  | registry _ | routine _ (.debug _) => False
  | _ => True

namespace Call

theorem IsPlain.ne_debug {id : RoutineId} {call : Routine.Call} (h : (Call.routine id call).IsPlain)
    (record : String) : call ≠ .debug record := by
  rintro rfl
  exact h

theorem IsPlain.ne_registry {call : Call} (h : call.IsPlain) (request : Registry.Call) :
    call ≠ .registry request := by
  rintro rfl
  exact h

theorem next_sequencePoint_plain (id : RoutineId) (span : Span) (story : Story) :
    (sequencePoint id span).next story.plain = story.plain := by
  have hrefusal : (sequencePoint id span).refusal story.plain = none := rfl
  rw [next_of_refusal_eq_none hrefusal]
  rfl

/-- A sequence point changes nothing but debug information, also where it is refused. -/
theorem plain_next_sequencePoint (id : RoutineId) (span : Span) (story : Story) :
    ((sequencePoint id span).next story).plain = story.plain := by
  cases hrefusal : (sequencePoint id span).refusal story with
  | some error =>
    rw [next_of_refusal_eq_some hrefusal]
    simp only [left]
    split <;> rfl
  | none =>
    rw [next_of_refusal_eq_none hrefusal]
    simp only [changed]
    split
    · have hroutines : ∀ record, (story.routines.modify id.index
          ((Routine.Call.debug record).changed ·)).map Routine.plain =
            story.routines.map Routine.plain := fun record =>
        map_modify_of_eq (Routine.Call.debug_changed_plain record) story.routines id.index
      simp only [plain, hroutines]
    · rfl

theorem refusal_plain {call : Call} (hcall : ∀ id span, call ≠ .sequencePoint id span) (story : Story) :
    call.refusal story.plain = call.refusal story := by
  cases call with
  | define definition => exact definition.rejection_plain story
  | routine id call => exact routineRefusal_plain call.refusal_plain story id
  | sequencePoint id span => exact absurd rfl (hcall id span)
  | finishRoutine id => exact routineRefusal_plain Routine.refusal_plain story id
  | _ => rfl

theorem answer_plain {call : Call} (h : ∀ request, call ≠ .registry request) (story : Story) :
    call.answer story.plain = call.answer story := by
  cases call with
  | define definition => exact definition.answer_plain story
  | routine id call =>
    simp only [answer, getElem?_routines_plain]
    cases story.routines[id.index]? with
    | none => rfl
    | some routine => exact call.answer_plain routine
  | registry request => exact absurd rfl (h request)
  | _ => rfl

theorem changed_plain {call : Call} (h : call.IsPlain)
    (hcall : ∀ id span, call ≠ .sequencePoint id span) (story : Story) :
    call.changed story.plain = (call.changed story).plain := by
  cases call with
  | define definition => exact definition.record_plain story
  | routine id call =>
    have hroutines : (story.routines.modify id.index (call.changed ·)).map Routine.plain =
        (story.routines.map Routine.plain).modify id.index (call.changed ·) :=
      map_modify (Routine.Call.changed_plain h.ne_debug) story.routines id.index
    simp only [changed, plain, hroutines]
  | sequencePoint id span => exact absurd rfl (hcall id span)
  | finishRoutine id =>
    simp only [changed, getElem?_routines_plain]
    cases story.routines[id.index]? with
    | none => rfl
    | some routine =>
      have hplace : story.plain.placeOf routine.plain = (none, {}) := by
        rw [placeOf]
        cases routine.plain.span <;> rfl
      have hroutines : ∀ place, (story.routines.modify id.index (·.finish place)).map Routine.plain =
          (story.routines.map Routine.plain).modify id.index (·.finish none) := fun place =>
        map_modify (fun routine => (routine.finish_plain place).symm) story.routines id.index
      simp only [Option.map_some, hplace, Routine.finishEvents_plain]
      simp only [plain, hroutines]
  | registry call => exact absurd h id
  | _ => rfl

/-- Calls change a story without debug information as they change the story. -/
theorem next_plain {call : Call} (h : call.IsPlain) (story : Story) :
    call.next story.plain = (call.next story).plain := by
  by_cases hpoint : ∃ id span, call = .sequencePoint id span
  · obtain ⟨id, span, rfl⟩ := hpoint
    rw [next_sequencePoint_plain, plain_next_sequencePoint]
  · have hcall : ∀ id span, call ≠ .sequencePoint id span := fun id span heq => hpoint ⟨id, span, heq⟩
    have hrefusal := refusal_plain hcall story
    cases hr : call.refusal story with
    | none =>
      rw [next_of_refusal_eq_none hr, next_of_refusal_eq_none (hrefusal.trans hr),
        changed_plain h hcall]
    | some error =>
      rw [next_of_refusal_eq_some hr, next_of_refusal_eq_some (hrefusal.trans hr)]
      cases call with
      | sequencePoint id span => exact absurd rfl (hcall id span)
      | _ => rfl

/-- Calls return the same with and without debug information, unless they put a sequence point on a
routine that is not open. -/
theorem result_plain {call : Call} (h : call.IsPlain) (story : Story)
    (hpoint : ∀ id span, call = .sequencePoint id span → story.IsOpen id.index) :
    call.result story.plain = call.result story := by
  rw [result, result, run_perform, run_perform, answer_plain h.ne_registry]
  have hrefusal : call.refusal story.plain = call.refusal story := by
    by_cases heq : ∃ id span, call = .sequencePoint id span
    · obtain ⟨id, span, rfl⟩ := heq
      obtain ⟨routine, hget, hopen⟩ := hpoint id span rfl
      have hnone : story.routineRefusal id Routine.refusal = none := by
        rw [routineRefusal_of_get hget, Routine.refusal, hopen]
        rfl
      simp only [refusal, hnone, ite_self]
      rfl
    · exact refusal_plain (fun id span h => heq ⟨id, span, h⟩) story
  rw [hrefusal]
  cases call.refusal story <;> rfl

end Call

theorem plain_after (calls : List Call) (h : ∀ call ∈ calls, call.IsPlain) (story : Story) :
    story.plain.after calls = (story.after calls).plain := by
  induction calls generalizing story with
  | nil => rfl
  | cons call calls ih =>
    show (call.next story.plain).after calls = ((call.next story).after calls).plain
    rw [Call.next_plain (h call List.mem_cons_self),
      ih fun call hmem => h call (List.mem_cons_of_mem _ hmem)]

theorem plain_closed (story : Story) : story.plain.closed = story.closed.plain := by
  have hclosings : story.plain.closings = story.closings := by
    simp only [closings, plain, Array.size_map]
  rw [closed, closed, hclosings]
  refine plain_after _ (fun call hmem => ?_) story
  obtain ⟨index, -, rfl⟩ := List.mem_map.mp hmem
  trivial

end Story

end StoryAsm
