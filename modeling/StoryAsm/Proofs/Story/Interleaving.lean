import StoryAsm.Proofs.Story.DebugInfo

/-!
# Routines are independent

Where no debug information is wanted, a call on a routine depends on this routine alone and changes no
other one. For a routine, calls on many routines are therefore the calls on this one
(`Story.SameRoutine.after_filter`), and calls that are interleaved in two ways return the same and build
stories that are written alike (`Story.independent_of_interleaving`).
-/

namespace StoryAsm

/-- What finishing a routine makes of it where no debug information is wanted. -/
def Routine.closed (routine : Routine) : Routine :=
  if routine.isFinished then routine else routine.finish none

theorem Routine.closed_closed (routine : Routine) : routine.closed.closed = routine.closed := by
  have hfinished : routine.closed.isFinished = true := by
    rw [closed]
    split
    · assumption
    · rfl
  rw [closed, if_pos hfinished]

namespace Story

variable {story story' : Story} {id : RoutineId} {call : Call} {calls calls' : List Call}

/-! ## One call -/

/-- The routine that the call is on. -/
def Call.on? : Call → Option RoutineId
  | routine id _ | sequencePoint id _ | finishRoutine id => some id
  | _ => none

/-- The two stories want no debug information and have the same routine. -/
structure SameRoutine (id : RoutineId) (story story' : Story) : Prop where
  plain : story.wantsDebug = false
  plain' : story'.wantsDebug = false
  same : story.routines[id.index]? = story'.routines[id.index]?

theorem placeOf_of_plain (hplain : story.wantsDebug = false) (routine : Routine) :
    story.placeOf routine = (none, story.registry) := by
  rw [placeOf, hplain]
  cases routine.span <;> rfl

theorem Call.left_of_plain (hplain : story.wantsDebug = false) (call : Call) : call.left story = story := by
  cases call with
  | sequencePoint id span => simp [left, hplain]
  | _ => rfl

namespace SameRoutine

theorem refusal_eq (h : SameRoutine id story story') (hon : call.on? = some id) :
    call.refusal story = call.refusal story' := by
  cases call with
  | routine | finishRoutine =>
    cases hon
    simp only [Call.refusal, routineRefusal, h.same]
  | sequencePoint => simp [Call.refusal, h.plain, h.plain']
  | _ => cases hon

theorem answer_eq (h : SameRoutine id story story') (hon : call.on? = some id) :
    call.answer story = call.answer story' := by
  cases call with
  | routine =>
    cases hon
    simp only [Call.answer, h.same]
  | finishRoutine | sequencePoint => rfl
  | _ => cases hon

theorem changed (h : SameRoutine id story story') (hon : call.on? = some id) :
    (call.changed story).routines[id.index]? = (call.changed story').routines[id.index]? := by
  cases call with
  | routine =>
    cases hon
    simp only [Call.changed, Array.getElem?_modify, ↓reduceIte, h.same]
  | finishRoutine =>
    cases hon
    simp only [Call.changed, h.same]
    split
    · exact h.same
    · simp only [Array.getElem?_modify, ↓reduceIte, h.same, placeOf_of_plain h.plain,
        placeOf_of_plain h.plain']
  | sequencePoint => simp [Call.changed, h.plain, h.plain', h.same]
  | _ => cases hon

theorem result_eq (h : SameRoutine id story story') (hon : call.on? = some id) :
    call.result story = call.result story' := by
  rw [Call.result, Call.result, Call.run_perform, Call.run_perform, h.refusal_eq hon, h.answer_eq hon]
  cases call.refusal story' <;> rfl

/-- A call on the routine does the same in both stories. -/
theorem next (h : SameRoutine id story story') (hon : call.on? = some id) :
    SameRoutine id (call.next story) (call.next story') := by
  refine ⟨(call.wantsDebug_next story).trans h.plain, (call.wantsDebug_next story').trans h.plain', ?_⟩
  have hrefusal := h.refusal_eq hon
  cases hrefused : call.refusal story with
  | none =>
    rw [hrefused] at hrefusal
    rw [Call.next_of_refusal_eq_none hrefused, Call.next_of_refusal_eq_none hrefusal.symm]
    exact h.changed hon
  | some error =>
    rw [hrefused] at hrefusal
    rw [Call.next_of_refusal_eq_some hrefused, Call.next_of_refusal_eq_some hrefusal.symm,
      Call.left_of_plain h.plain, Call.left_of_plain h.plain']
    exact h.same

end SameRoutine

/-- A call on a routine changes the routine and the log, and nothing else. -/
theorem Call.exists_next_of_on? (hplain : story.wantsDebug = false) (hon : call.on? = some id) :
    ∃ routines log, call.next story = { story with routines, log } ∧
      ∀ index ≠ id.index, routines[index]? = story.routines[index]? := by
  have hmodify : ∀ (f : Routine → Routine) (index : Nat), index ≠ id.index →
      (story.routines.modify id.index f)[index]? = story.routines[index]? := by
    intro f index hne
    rw [Array.getElem?_modify, if_neg (Ne.symm hne)]
  cases hrefused : call.refusal story with
  | some error =>
    rw [next_of_refusal_eq_some hrefused, left_of_plain hplain]
    exact ⟨_, _, rfl, fun _ _ => rfl⟩
  | none =>
    rw [next_of_refusal_eq_none hrefused]
    cases call with
    | routine =>
      cases hon
      exact ⟨_, _, rfl, hmodify _⟩
    | sequencePoint =>
      rw [changed, if_neg (Bool.eq_false_iff.mp hplain)]
      exact ⟨_, _, rfl, fun _ _ => rfl⟩
    | finishRoutine =>
      cases hon
      simp only [changed]
      split
      · exact ⟨_, _, rfl, fun _ _ => rfl⟩
      · rw [placeOf_of_plain hplain]
        exact ⟨_, _, rfl, hmodify _⟩
    | _ => cases hon

/-- A call on another routine leaves the routine alone. -/
theorem SameRoutine.next_of_ne (h : SameRoutine id story story') {other : RoutineId}
    (hon : call.on? = some other) (hne : other ≠ id) : SameRoutine id (call.next story) story' := by
  obtain ⟨routines, log, hnext, hothers⟩ := Call.exists_next_of_on? h.plain hon
  rw [hnext]
  refine ⟨h.plain, h.plain', (hothers id.index ?_).trans h.same⟩
  intro heq
  cases other
  cases id
  exact hne (congrArg RoutineId.mk heq.symm)

/-! ## Many calls -/

/-- What the calls on the routine return, one after the other. -/
def resultsOn (id : RoutineId) (story : Story) : List Call → List (Except EmitError Answer)
  | [] => []
  | call :: calls =>
    if call.on? = some id then call.result story :: resultsOn id (call.next story) calls
    else resultsOn id (call.next story) calls

/-- The routine sees its own calls only. -/
theorem SameRoutine.after_filter (h : SameRoutine id story story')
    (hcalls : ∀ call ∈ calls, call.on?.isSome) :
    SameRoutine id (story.after calls) (story'.after (calls.filter (·.on? = some id))) ∧
      story.resultsOn id calls = story'.resultsOn id (calls.filter (·.on? = some id)) := by
  induction calls generalizing story story' with
  | nil => exact ⟨h, rfl⟩
  | cons call calls ih =>
    have hrest : ∀ call ∈ calls, call.on?.isSome := fun call hmem => hcalls call (.tail _ hmem)
    by_cases hon : call.on? = some id
    · obtain ⟨hafter, hresults⟩ := ih (h.next hon) hrest
      rw [List.filter_cons_of_pos (by simpa using hon), resultsOn, resultsOn, if_pos hon, if_pos hon,
        h.result_eq hon, hresults]
      exact ⟨hafter, rfl⟩
    · obtain ⟨other, hother⟩ := Option.isSome_iff_exists.mp (hcalls call List.mem_cons_self)
      have hne : other ≠ id := by
        rintro rfl
        exact hon hother
      rw [List.filter_cons_of_neg (by simpa using hon), resultsOn, if_neg hon]
      exact ih (h.next_of_ne hother hne) hrest

/-- Calls on routines change the routines and the log, and nothing else. -/
theorem exists_after_of_on? (hplain : story.wantsDebug = false)
    (hcalls : ∀ call ∈ calls, call.on?.isSome) :
    ∃ routines log, story.after calls = { story with routines, log } := by
  induction calls generalizing story with
  | nil => exact ⟨_, _, rfl⟩
  | cons call calls ih =>
    obtain ⟨id, hon⟩ := Option.isSome_iff_exists.mp (hcalls call List.mem_cons_self)
    obtain ⟨routines, log, hnext, -⟩ := Call.exists_next_of_on? hplain hon
    have hplain' : (call.next story).wantsDebug = false := (call.wantsDebug_next story).trans hplain
    obtain ⟨routines', log', hafter⟩ := ih hplain' fun call hmem => hcalls call (.tail _ hmem)
    refine ⟨routines', log', ?_⟩
    show (call.next story).after calls = _
    rw [hafter, hnext]

/-- Calls on routines in two orders, which are the same for each routine. -/
structure Interleaved (calls calls' : List Call) : Prop where
  onRoutines : ∀ call ∈ calls, call.on?.isSome
  onRoutines' : ∀ call ∈ calls', call.on?.isSome
  same : ∀ id, calls.filter (·.on? = some id) = calls'.filter (·.on? = some id)

theorem Interleaved.resultsOn_eq (h : Interleaved calls calls') (hplain : story.wantsDebug = false)
    (id : RoutineId) : story.resultsOn id calls = story.resultsOn id calls' := by
  have hself : SameRoutine id story story := ⟨hplain, hplain, rfl⟩
  rw [(hself.after_filter h.onRoutines).2, (hself.after_filter h.onRoutines').2, h.same id]

/-- The stories that are built differ by their logs only. -/
theorem Interleaved.exists_after (h : Interleaved calls calls') (hplain : story.wantsDebug = false) :
    ∃ log, story.after calls' = { story.after calls with log } := by
  obtain ⟨routines, log, hafter⟩ := exists_after_of_on? hplain h.onRoutines
  obtain ⟨routines', log', hafter'⟩ := exists_after_of_on? hplain h.onRoutines'
  have hroutines : routines' = routines := by
    apply Array.ext_getElem?
    intro index
    have hself : SameRoutine ⟨index⟩ story story := ⟨hplain, hplain, rfl⟩
    have hleft := (hself.after_filter h.onRoutines).1.same
    have hright := (hself.after_filter h.onRoutines').1.same
    rw [hafter, h.same] at hleft
    rw [hafter'] at hright
    exact hright.trans hleft.symm
  refine ⟨log', ?_⟩
  rw [hafter, hafter', hroutines]

/-! ## Finishing routines -/

theorem exists_next_finishRoutine_of_plain (hplain : story.wantsDebug = false) (id : RoutineId) :
    ∃ log, (Call.finishRoutine id).next story =
      { story with routines := story.routines.modify id.index Routine.closed, log } := by
  cases hget : story.routines[id.index]? with
  | none =>
    have hsame : story.routines.modify id.index Routine.closed = story.routines := by
      apply Array.ext_getElem?
      intro index
      rw [Array.getElem?_modify]
      split
      · subst index
        rw [hget]
        rfl
      · rfl
    have hrefused : (Call.finishRoutine id).refusal story = some .unknownHandle := by
      rw [Call.refusal, routineRefusal, hget]
    refine ⟨story.log, ?_⟩
    rw [Call.next_of_refusal_eq_some hrefused, hsame]
    rfl
  | some routine =>
    have hrefusal : (Call.finishRoutine id).refusal story = routine.refusal := routineRefusal_of_get hget
    rw [← modify_const hget]
    by_cases hfinished : routine.isFinished = true
    · rw [Routine.refusal, if_pos hfinished] at hrefusal
      refine ⟨story.log, ?_⟩
      rw [Call.next_of_refusal_eq_some hrefusal, Routine.closed, if_pos hfinished, modify_self hget]
      rfl
    · rw [Routine.refusal, if_neg hfinished] at hrefusal
      rw [Call.next_of_refusal_eq_none hrefusal, Routine.closed, if_neg hfinished]
      simp only [Call.changed, hget, placeOf_of_plain hplain]
      rw [← modify_const hget]
      exact ⟨_, rfl⟩

theorem getElem?_after_finishRoutine (hplain : story.wantsDebug = false) (ids : List RoutineId)
    (index : Nat) :
    (story.after (ids.map .finishRoutine)).routines[index]? =
      if ⟨index⟩ ∈ ids then (story.routines[index]?).map Routine.closed else story.routines[index]? := by
  induction ids generalizing story with
  | nil => rfl
  | cons id ids ih =>
    obtain ⟨log, hnext⟩ := exists_next_finishRoutine_of_plain hplain id
    have hplain' : ((Call.finishRoutine id).next story).wantsDebug = false :=
      (Call.wantsDebug_next _ story).trans hplain
    show (((Call.finishRoutine id).next story).after (ids.map .finishRoutine)).routines[index]? = _
    rw [ih hplain', hnext]
    have hmem : ⟨index⟩ ∈ id :: ids ↔ id.index = index ∨ ⟨index⟩ ∈ ids := by
      rw [List.mem_cons, RoutineId.mk.injEq, eq_comm]
    simp only [Array.getElem?_modify, hmem]
    by_cases hfirst : id.index = index
    · by_cases hrest : ⟨index⟩ ∈ ids
      · simp [hfirst, hrest, Function.comp_def, Routine.closed_closed]
      · simp [hfirst, hrest]
    · simp [hfirst]

theorem closings_eq (story : Story) :
    story.closings = ((List.range story.routines.size).map RoutineId.mk).map .finishRoutine := by
  rw [closings, List.map_map]
  rfl

theorem getElem?_routines_closed (hplain : story.wantsDebug = false) (index : Nat) :
    story.closed.routines[index]? = (story.routines[index]?).map Routine.closed := by
  rw [closed, closings_eq, getElem?_after_finishRoutine hplain]
  split
  · rfl
  · next hmem =>
    have hsize : story.routines.size ≤ index := by simpa using hmem
    rw [Array.getElem?_eq_none hsize]
    rfl

theorem on?_isSome_of_mem_map_finishRoutine (ids : List RoutineId) :
    ∀ call ∈ ids.map Call.finishRoutine, call.on?.isSome := by
  intro call hmem
  obtain ⟨id, -, rfl⟩ := List.mem_map.mp hmem
  rfl

theorem exists_closed_of_plain (hplain : story.wantsDebug = false) :
    ∃ routines log, story.closed = { story with routines, log } := by
  rw [closed, closings_eq]
  exact exists_after_of_on? hplain (on?_isSome_of_mem_map_finishRoutine _)

/-- Stories whose routines differ by being finished, and by nothing else, are the same when all routines
are finished, but for the log. -/
theorem exists_closed_eq (hplain : story.wantsDebug = false) {routines : Array Routine}
    {log : Array Log.Event}
    (hroutines : ∀ index : Nat,
      (routines[index]?).map Routine.closed = (story.routines[index]?).map Routine.closed) :
    ∃ log', closed { story with routines, log } = { story.closed with log := log' } := by
  have hplain' : wantsDebug { story with routines, log } = false := hplain
  obtain ⟨before, _, hclosed⟩ := exists_closed_of_plain hplain
  obtain ⟨after, log', hclosed'⟩ := exists_closed_of_plain hplain'
  have hsame : after = before := by
    apply Array.ext_getElem?
    intro index
    have hleft := getElem?_routines_closed hplain index
    have hright := getElem?_routines_closed hplain' index
    rw [hclosed] at hleft
    rw [hclosed'] at hright
    exact hright.trans ((hroutines index).trans hleft.symm)
  refine ⟨log', ?_⟩
  rw [hclosed', hclosed, hsame]

theorem exists_closed_after_finishRoutine (hplain : story.wantsDebug = false) (ids : List RoutineId) :
    ∃ log, (story.after (ids.map .finishRoutine)).closed = { story.closed with log } := by
  obtain ⟨routines, log, hafter⟩ :=
    exists_after_of_on? hplain (on?_isSome_of_mem_map_finishRoutine ids)
  have hget := getElem?_after_finishRoutine hplain ids
  rw [hafter] at hget ⊢
  apply exists_closed_eq hplain
  intro index
  rw [hget index]
  split
  · rw [Option.map_map]
    exact Option.map_congr fun routine _ => routine.closed_closed
  · rfl

/-! ## Writing -/

/-- Whatever sink the stories are written to, the result is the same, and so is the state of the sink. -/
def SameOutput (story story' : Story) : Prop :=
  ∀ {σ : Type} (sink : Sink (StateM σ)) (start : σ),
    (((finish sink).run.run story).run start).1.1 = (((finish sink).run.run story').run start).1.1 ∧
      (((finish sink).run.run story).run start).2 = (((finish sink).run.run story').run start).2

section
variable {σ : Type} (sink : Sink (StateM σ))

theorem alongside_orDisk (action : StateM σ (Except DiskError Unit)) :
    Alongside Eq (orDisk action : StoryT (StateM σ) Unit) (orDisk action) := by
  rintro s s' t _ rfl
  rw [run_orDisk, run_orDisk]
  rcases action.run t with ⟨_ | _, _⟩ <;> exact ⟨rfl, rfl⟩

theorem alongside_writeSegment (segment : Segment) (statements : List Statement) :
    Alongside Eq (writeSegment sink segment statements) (writeSegment sink segment statements) := by
  have hclose : Alongside Eq (closeSegment sink segment (sourceText statements))
      (closeSegment sink segment (sourceText statements)) :=
    (alongside_orDisk _).bind fun _ => .report _ _
  rw [writeSegment_eq]
  refine (alongside_orDisk _).bind fun _ => ?_
  split
  · exact hclose
  · exact (alongside_orDisk _).bind fun _ => hclose

/-- Writing the segments does not depend on what the story is by then. -/
theorem alongside_writeAll_self (story : Story) :
    Alongside Eq (writeAll sink story) (writeAll sink story) := by
  refine (alongside_writeSegment sink _ _).bind fun _ => ?_
  cases story.dataStatements with
  | error error => exact .throw error
  | ok data =>
    refine (alongside_writeSegment sink _ _).bind fun _ => ?_
    refine (alongside_writeSegment sink _ _).bind fun _ => ?_
    have hasked : Alongside Eq (liftM sink.keepsFrequentWords : StoryT (StateM σ) Bool)
        (liftM sink.keepsFrequentWords) := by
      rintro s s' t _ rfl
      exact ⟨rfl, rfl⟩
    refine hasked.bind fun kept => ?_
    cases kept with
    | true => exact .report _ _
    | false => exact alongside_writeSegment sink _ _

end

/-- What is written depends on the story with its routines finished, and not on its log. -/
theorem sameOutput_of_closed {log : Array Log.Event} (h : story'.closed = { story.closed with log }) :
    SameOutput story story' := by
  intro σ sink start
  obtain ⟨_, hrun⟩ := run_finish (run_finishRoutines story) sink start
  obtain ⟨_, hrun'⟩ := run_finish (run_finishRoutines story') sink start
  rw [hrun, hrun', h]
  exact alongside_writeAll_self sink story.closed _ _ _ _ rfl

/-- Where no debug information is wanted, calls on routines that are interleaved in two ways return the
same, and the two stories are written alike. To finish some of the routines before the story is finished
makes no difference. -/
theorem independent_of_interleaving (hplain : story.wantsDebug = false) (h : Interleaved calls calls') :
    (∀ id, story.resultsOn id calls = story.resultsOn id calls') ∧
      SameOutput (story.after calls) (story.after calls') ∧
      ∀ ids : List RoutineId,
        SameOutput (story.after calls) ((story.after calls).after (ids.map .finishRoutine)) := by
  have hafter : (story.after calls).wantsDebug = false := (wantsDebug_after calls story).trans hplain
  refine ⟨h.resultsOn_eq hplain, ?_, fun ids => ?_⟩
  · obtain ⟨log, heq⟩ := h.exists_after hplain
    obtain ⟨log', hclosed⟩ := exists_closed_eq hafter fun _ => rfl
    rw [heq]
    exact sameOutput_of_closed hclosed
  · obtain ⟨log, hclosed⟩ := exists_closed_after_finishRoutine hafter ids
    exact sameOutput_of_closed hclosed

/-- One routine is finished before the code of the other is made, or both are made side by side. A call on
the finished routine is refused in both. -/
theorem independent_of_interleaving_twoRoutines :
    ∃ start, Story.new 3 false = .ok start ∧
      ∃ story, story = start.after [.define (.routine "GO" true false),
          .define (.routine "ACT" false false)] ∧
        story.wantsDebug = false ∧
        ∃ calls calls', calls = [.routine ⟨0⟩ (.emit .newLine), .finishRoutine ⟨0⟩,
            .routine ⟨0⟩ (.emit .newLine), .routine ⟨1⟩ (.required "A"),
            .routine ⟨1⟩ (.emit (.ret (.number 1)))] ∧
          calls' = [.routine ⟨1⟩ (.required "A"), .routine ⟨0⟩ (.emit .newLine),
            .routine ⟨1⟩ (.emit (.ret (.number 1))), .finishRoutine ⟨0⟩,
            .routine ⟨0⟩ (.emit .newLine)] ∧
          Interleaved calls calls' ∧
          (∀ id, story.resultsOn id calls = story.resultsOn id calls') ∧
          SameOutput (story.after calls) (story.after calls') ∧
          ∀ ids : List RoutineId,
            SameOutput (story.after calls) ((story.after calls).after (ids.map .finishRoutine)) := by
  have hplain := wantsDebug_after [.define (.routine "GO" true false),
    .define (.routine "ACT" false false)]
  refine ⟨_, rfl, _, rfl, hplain _, _, _, rfl, rfl, ?_⟩
  suffices h : Interleaved _ _ from ⟨h, independent_of_interleaving (hplain _) h⟩
  constructor
  · simp [Call.on?]
  · simp [Call.on?]
  · rintro ⟨_ | _ | index⟩ <;> simp [Call.on?]

end Story

end StoryAsm
