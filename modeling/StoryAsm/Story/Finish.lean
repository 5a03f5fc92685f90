import StoryAsm.Output.Sink
import StoryAsm.Routine.Finish
import StoryAsm.Story.Layout

/-!
# Finishing a story

Routines are finished one by one, or all that are left when the story is. A finished story is
written segment by segment; the first failure ends the writing.
-/

namespace StoryAsm.Story

/-- Finish a routine. If debug information is wanted, its source file gets an id now. -/
def finishRoutine (id : RoutineId) : StoryM Unit := do
  let story ← get
  match story.routines[id.index]? with
  | none => throw .unknownHandle
  | some routine =>
    if routine.isFinished then throw (.routineFinished routine.name)
    let place ←
      match routine.span, story.wantsDebug with
      | some span, true => do
        let file ← onRegistry (·.fileId span.file)
        pure (some (file, span))
      | _, _ => pure none
    modify fun story =>
      { story with
        routines := story.routines.modify id.index (·.finish place)
        log := story.log ++ routine.finishEvents.toArray }

/-- Finish the routines that are still open, in the order of their definition. -/
def finishRoutines : StoryM Unit := do
  for index in List.range (← get).routines.size do
    if ((← get).routines[index]?).any (!·.isFinished) then
      finishRoutine ⟨index⟩

section
variable {m : Type → Type} [Monad m]

/-- A failure of the sink as a failure of the story. -/
def orDisk (action : m (Except DiskError Unit)) : StoryT m Unit := do
  match ← (action : m (Except DiskError Unit)) with
  | .ok () => return
  | .error error => throw (.disk error)

/-- Write one segment. An empty text needs no writing. -/
def writeSegment (sink : Sink m) (segment : Segment) (statements : List Statement) :
    StoryT m Unit := do
  let text := sourceText statements
  orDisk (sink.create segment)
  if text ≠ "" then orDisk (sink.write segment text)
  orDisk (sink.flush segment)
  report (.wrote (segment.fileName sink.base) text.utf8ByteSize)

/-- Write all segments. The data segment is laid out when the main segment is written. -/
def finish (sink : Sink m) : StoryT m Unit := do
  lift finishRoutines
  if (← get).entryPoint.isNone then report .noEntryPoint
  let story ← get
  writeSegment sink .main (story.mainStatements sink.base)
  match story.dataStatements with
  | .error error => throw error
  | .ok statements => writeSegment sink .data statements
  writeSegment sink .strings story.stringStatements
  if ← (sink.keepsFrequentWords : m Bool) then
    report (.kept (Segment.frequentWords.fileName sink.base))
  else
    writeSegment sink .frequentWords frequentStatements

end

end StoryAsm.Story
