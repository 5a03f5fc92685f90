import StoryAsm.Proofs.Story.Call

/-!
# Refused calls

A call that is refused changes nothing, unless it marks a sequence point. Once a routine is finished,
calls that would add to it are refused for good, and its body stays what it is up to the written text
(`Story.Sealed`).
-/

namespace StoryAsm.Story

variable {story : Story}

/-- The call marks a sequence point. -/
def Call.IsSequencePoint : Call → Prop
  | sequencePoint .. => True
  | _ => False

theorem Call.left_eq_self {call : Call} (h : ¬call.IsSequencePoint) : call.left story = story := by
  cases call with
  | sequencePoint => exact absurd trivial h
  | _ => rfl

theorem Call.state_of_error {call : Call} (h : ¬call.IsSequencePoint) {error : EmitError}
    {story' : Story} (hrun : call.perform.run.run story = (.error error, story')) : story' = story := by
  rw [run_perform, left_eq_self h] at hrun
  exact (settled_eq_error.mp hrun).2.symm

/-! ## Bodies of routines -/

/-- The body of a routine that is finished. -/
def bodyOf (story : Story) (id : RoutineId) : Option (List Statement) :=
  (story.routines[id.index]?).bind (·.body)

theorem bodyOf_eq_some {id : RoutineId} {body : List Statement} :
    story.bodyOf id = some body ↔
      ∃ routine, story.routines[id.index]? = some routine ∧ routine.body = some body :=
  Option.bind_eq_some_iff

/-- A body stays what it is, whatever is called. -/
theorem Call.bodyOf_next {id : RoutineId} {body : List Statement} (h : story.bodyOf id = some body)
    (call : Call) : (call.next story).bodyOf id = some body := by
  obtain ⟨routine, hget, hbody⟩ := bodyOf_eq_some.mp h
  obtain ⟨routine', hget', hstep⟩ := call.exists_step hget
  refine bodyOf_eq_some.mpr ⟨routine', hget', ?_⟩
  rcases hstep with rfl | hstep
  · exact hbody
  · have hfinished : routine.isFinished = true := by
      rw [Routine.isFinished, hbody, Option.isSome_some]
    rw [hstep.body_eq hfinished, hbody]

theorem bodyOf_after {id : RoutineId} {body : List Statement} (h : story.bodyOf id = some body)
    (calls : List Call) : (story.after calls).bodyOf id = some body :=
  after_induction (P := fun story => story.bodyOf id = some body) (fun _ call h => call.bodyOf_next h)
    calls h

theorem bodyOf_finishRoutine {id : RoutineId} {story' : Story}
    (h : (finishRoutine id).run.run story = (.ok (), story')) : ∃ body, story'.bodyOf id = some body := by
  rw [run_finishRoutine_eq] at h
  obtain ⟨hopen, -, rfl⟩ := settled_eq_ok.mp h
  simp only [Call.refusal, Call.changed, routineRefusal] at hopen ⊢
  cases hget : story.routines[id.index]? with
  | none =>
    rw [hget] at hopen
    cases hopen
  | some routine =>
    refine ⟨_, bodyOf_eq_some.mpr ⟨routine.finish (story.placeOf routine).1, ?_, rfl⟩⟩
    rw [Array.getElem?_modify, if_pos rfl, hget]
    rfl

/-- The main segment up to the body of a routine. -/
def mainBefore (story : Story) (base : String) (id : RoutineId) : List Statement :=
  [.version story.version.number] ++
  (if story.version.hasHeaderBlock then headerStatements story.version else []) ++
  [.insert (Segment.frequentWords.insertName base), .insert (Segment.data.insertName base)] ++
  (story.routines.toList.take id.index).flatMap (fun routine => routine.body.getD [])

theorem mainStatements_eq {id : RoutineId} {body : List Statement} (h : story.bodyOf id = some body)
    (base : String) :
    ∃ rest, story.mainStatements base = story.mainBefore base id ++ body ++ rest := by
  obtain ⟨routine, hget, hbody⟩ := bodyOf_eq_some.mp h
  have hsplit : story.routines.toList =
      story.routines.toList.take id.index ++ routine :: story.routines.toList.drop (id.index + 1) := by
    obtain ⟨hlt, rfl⟩ := List.getElem?_eq_some_iff.mp ((Array.getElem?_toList ..).trans hget)
    rw [← List.drop_eq_getElem_cons hlt, List.take_append_drop]
  refine ⟨(story.routines.toList.drop (id.index + 1)).flatMap (fun routine => routine.body.getD []) ++
    [.blank, .insert (Segment.strings.insertName base), .endOfSource], ?_⟩
  unfold mainStatements mainBefore
  nth_rewrite 1 [hsplit]
  rw [List.flatMap_append, List.flatMap_cons, hbody]
  simp only [Option.getD_some, List.append_assoc]

/-! ## Finished routines -/

/-- The routine is finished with the body: what would add to it is refused, and a main segment that is
written now has the body at the place of the routine. -/
structure Sealed (story : Story) (id : RoutineId) (body : List Statement) : Prop where
  kept : story.bodyOf id = some body
  call : ∀ call : Routine.Call, call ≠ .newLabel → (∀ span, call ≠ .place span) →
    ∃ error, (Call.routine id call).perform.run.run story = (.error error, story)
  finish : ∃ error, (finishRoutine id).run.run story = (.error error, story)
  written : ∀ {base keeps fault story' texts},
    Writes (Story.finish (.memory base keeps fault)) story {} () story' texts →
      ∃ rest, texts.main = some (sourceText (story'.mainBefore base id) ++ sourceText body ++ rest)

theorem sealed_of_bodyOf {id : RoutineId} {body : List Statement} (h : story.bodyOf id = some body) :
    story.Sealed id body where
  kept := h
  call call hlabel hplace := by
    obtain ⟨routine, hget, hbody⟩ := bodyOf_eq_some.mp h
    have hfinished : routine.isFinished = true := by
      rw [Routine.isFinished, hbody, Option.isSome_some]
    cases hrefusal : call.refusal routine with
    | some error =>
      refine ⟨error, ?_⟩
      rw [Call.run_perform, Call.refusal, routineRefusal_of_get hget, hrefusal]
      rfl
    | none =>
      rcases Routine.Call.of_refusal_eq_none hfinished hrefusal with rfl | ⟨span, rfl⟩
      · exact absurd rfl hlabel
      · exact absurd rfl (hplace span)
  finish := by
    obtain ⟨routine, hget, hbody⟩ := bodyOf_eq_some.mp h
    refine ⟨.routineFinished routine.name, ?_⟩
    rw [run_finishRoutine_eq, Call.refusal, routineRefusal_of_get hget, Routine.refusal,
      Routine.isFinished, hbody]
    rfl
  written := by
    intro base keeps fault story' texts hwrites
    obtain ⟨m, hy, ⟨log, rfl⟩, data, -, rfl⟩ := exists_of_writes_finish hwrites
    cases (run_finishRoutines story).symm.trans hy
    have hbody : bodyOf { story.closed with log } id = some body := bodyOf_after h story.closings
    obtain ⟨rest, hmain⟩ := mainStatements_eq hbody base
    refine ⟨sourceText rest, ?_⟩
    show some (sourceText (mainStatements { story.closed with log } base)) = _
    rw [hmain]
    simp only [sourceText, List.map_append, String.join_append]

/-- A refused call changes nothing, unless it marks a sequence point. A finished routine is sealed:
whatever is called later, its body stays, in the story and in the text that is written. -/
theorem unchanged_if_refused_and_sealed_if_finished :
    (∀ (story : Story) (call : Call), ¬call.IsSequencePoint → ∀ error story',
      call.perform.run.run story = (.error error, story') → story' = story) ∧
    ∀ (story : Story) (id : RoutineId) (finished : Story),
      (finishRoutine id).run.run story = (.ok (), finished) →
        ∃ body, ∀ later, (finished.after later).Sealed id body := by
  refine ⟨fun story call hcall error story' hrun => Call.state_of_error hcall hrun, ?_⟩
  intro story id finished hrun
  obtain ⟨body, hbody⟩ := bodyOf_finishRoutine hrun
  exact ⟨body, fun later => sealed_of_bodyOf (bodyOf_after hbody later)⟩

/-- A new story with an entry point of one line: a label is refused, and then the routine is finished. -/
theorem sealed_entryPoint :
    ∃ start, Story.new 5 true = .ok start ∧
      let story := start.after [.define (.routine "MAIN" true false), .routine ⟨0⟩ (.emit .newLine)]
      (∃ story', (Call.routine ⟨0⟩ (.mark .returnTrue)).perform.run.run story =
          (.error (.unplaceableLabel .returnTrue), story') ∧ story' = story) ∧
        ∃ finished, (finishRoutine ⟨0⟩).run.run story = (.ok (), finished) ∧
          ∃ body, ∀ later, (finished.after later).Sealed ⟨0⟩ body := by
  refine ⟨_, rfl, ?_⟩
  intro story
  have hrefused : (Call.routine ⟨0⟩ (.mark .returnTrue)).perform.run.run story =
      (.error (.unplaceableLabel .returnTrue), _) := rfl
  have hfinished : (finishRoutine ⟨0⟩).run.run story = (.ok (), _) := rfl
  obtain ⟨hunchanged, hsealed⟩ := unchanged_if_refused_and_sealed_if_finished
  exact ⟨⟨_, hrefused, hunchanged story _ id _ _ hrefused⟩, _, hfinished, hsealed story _ _ hfinished⟩

end StoryAsm.Story
