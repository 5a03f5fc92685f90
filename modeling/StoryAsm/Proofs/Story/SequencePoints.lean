import StoryAsm.Proofs.Operand.Pool
import StoryAsm.Proofs.Story.FileIds

/-!
# Refused sequence points

A sequence point has its file registered before its routine is asked, and the routine may refuse it. What
is left then is the file in the list of files (`Story.FileLeft`). So a refused sequence point changes
nothing if and only if its file was known before. If it was not, then the code comes out the same, but the
file is listed in everything that is written later, and other files get higher ids.
-/

namespace StoryAsm

theorem mem_addFile_self (files : List String) (file : String) : file ∈ addFile files file := by
  unfold addFile
  split
  · assumption
  · exact List.mem_append_right files List.mem_cons_self

theorem addFile_eq_self_iff {files : List String} {file : String} :
    addFile files file = files ↔ file ∈ files := by
  constructor
  · intro h
    rw [← h]
    exact mem_addFile_self files file
  · exact fun h => if_pos h

theorem mem_addFile_iff {files : List String} {file other : String} :
    other ∈ addFile files file ↔ other ∈ files ∨ other = file := by
  unfold addFile
  split
  · rename_i h
    exact ⟨.inl, fun hother => hother.elim id fun heq => heq ▸ h⟩
  · rw [List.mem_append, List.mem_singleton]

/-- A file that is not in the list gets the next id. -/
theorem fileIdIn_addFile_of_notMem {files : List String} {file : String} (h : file ∉ files) :
    fileIdIn (addFile files file) file = files.length + 1 := by
  rw [fileIdIn, addFile, if_neg h, List.idxOf_append_of_notMem h, List.idxOf_cons_self, Nat.add_zero]

/-- The ids that files get after another file was named. -/
theorem fileIdIn_addFile_addFile (files : List String) (file other : String) :
    fileIdIn (addFile (addFile files file) other) other =
      fileIdIn (addFile files other) other +
        if file ∈ files ∨ other ∈ files ∨ other = file then 0 else 1 := by
  by_cases hfile : file ∈ files
  · rw [addFile_eq_self_iff.mpr hfile, if_pos (.inl hfile), Nat.add_zero]
  by_cases hother : other ∈ files
  · rw [if_pos (.inr (.inl hother)), addFile_eq_self_iff.mpr (mem_addFile_iff.mpr (.inl hother)),
      addFile_eq_self_iff.mpr hother, fileIdIn, ← (prefix_addFile files file).idxOf_eq_of_mem hother]
    rfl
  by_cases heq : other = file
  · subst heq
    rw [if_pos (.inr (.inr rfl)), addFile_eq_self_iff.mpr (mem_addFile_self files other), Nat.add_zero]
  · have hnew : other ∉ addFile files file := fun h => (mem_addFile_iff.mp h).elim hother heq
    have hlength : (addFile files file).length = files.length + 1 := by
      rw [addFile, if_neg hfile, List.length_append, List.length_singleton]
    rw [fileIdIn_addFile_of_notMem hnew, fileIdIn_addFile_of_notMem hother, hlength, if_neg]
    rintro (h | h | h)
    exacts [hfile h, hother h, heq h]

/-- What a registry is after a file was named: the file is added to the list and to the map of ids, if it
was not known before. -/
structure Registry.FileAdded (file : String) (registry registry' : Registry) : Prop where
  files : registry'.files.toList = addFile registry.files.toList file
  ids : registry'.ids = if file ∈ registry.files.toList then registry.ids
    else (file, registry.files.toList.length + 1) :: registry.ids
  stored : registry'.stored = registry.stored

theorem Registry.fileAdded_fileId (registry : Registry) (file : String) :
    FileAdded file registry (registry.fileId file).2 where
  files := registry.toList_files_fileId file
  ids := by
    split
    · rename_i hmem
      rw [fileId_of_mem hmem]
    · rename_i hnew
      exact (fileId_of_notMem hnew).2.2.1
  stored := registry.stored_fileId file

theorem Registry.snd_fileId_eq_self_iff {registry : Registry} {file : String} :
    (registry.fileId file).2 = registry ↔ file ∈ registry.files.toList := by
  constructor
  · intro h
    rw [← addFile_eq_self_iff, ← toList_files_fileId, h]
  · intro h
    rw [fileId_of_mem h]

namespace Story

variable {story story' : Story}

/-! ## Stories with the same code -/

/-- The two stories want debug information, and without it they are the same. -/
structure SameCode (story story' : Story) : Prop where
  wantsDebug : story.wantsDebug = true
  wantsDebug' : story'.wantsDebug = true
  plain : story.plain = story'.plain

/-- A directive or a call on the registry changes debug information only. -/
theorem Call.plain_next_of_not_isPlain {call : Call} (h : ¬call.IsPlain) (story : Story) :
    (call.next story).plain = story.plain := by
  cases call with
  | registry call =>
    rw [next_of_refusal_eq_none rfl, changed]
    split <;> rfl
  | routine id call =>
    cases call with
    | debug record =>
      cases hrefusal : (routine id (.debug record)).refusal story with
      | some error =>
        rw [next_of_refusal_eq_some hrefusal]
        rfl
      | none =>
        have hroutines := map_modify_of_eq (Routine.Call.debug_changed_plain record) story.routines id.index
        rw [next_of_refusal_eq_none hrefusal, changed]
        simp only [Story.plain, hroutines]
    | _ => exact absurd trivial h
  | _ => exact absurd trivial h

namespace SameCode

/-- A call makes the same of the code of both stories. -/
theorem next (h : SameCode story story') (call : Call) : SameCode (call.next story) (call.next story') where
  wantsDebug := (call.wantsDebug_next story).trans h.wantsDebug
  wantsDebug' := (call.wantsDebug_next story').trans h.wantsDebug'
  plain := by
    by_cases hplain : call.IsPlain
    · rw [← Call.next_plain hplain, ← Call.next_plain hplain, h.plain]
    · rw [Call.plain_next_of_not_isPlain hplain, Call.plain_next_of_not_isPlain hplain, h.plain]

theorem after (h : SameCode story story') (calls : List Call) :
    SameCode (story.after calls) (story'.after calls) := by
  induction calls generalizing story story' with
  | nil => exact h
  | cons call calls ih => exact ih (h.next call)

theorem refusal_eq (h : SameCode story story') (call : Call) : call.refusal story = call.refusal story' := by
  by_cases hpoint : ∃ id span, call = .sequencePoint id span
  · obtain ⟨id, span, rfl⟩ := hpoint
    simp only [Call.refusal, h.wantsDebug, h.wantsDebug', if_true]
    rw [← routineRefusal_plain Routine.refusal_plain story, h.plain,
      routineRefusal_plain Routine.refusal_plain]
  · have hcall : ∀ id span, call ≠ .sequencePoint id span := fun id span heq => hpoint ⟨id, span, heq⟩
    rw [← Call.refusal_plain hcall story, h.plain, Call.refusal_plain hcall]

/-- Calls return the same from both stories, unless they ask the registry. -/
theorem result_eq (h : SameCode story story') {call : Call} (hcall : ∀ request, call ≠ .registry request) :
    call.result story = call.result story' := by
  rw [Call.result, Call.result, Call.run_perform, Call.run_perform, h.refusal_eq,
    ← Call.answer_plain hcall story, h.plain, Call.answer_plain hcall]
  cases call.refusal story' <;> rfl

/-- Finishing returns the same, and without debug information the same is written. -/
theorem output (h : SameCode story story') (base : String) (keeps : Bool)
    (fault : Segment → Stage → Option DiskError) :
    (story.output base keeps fault).1 = (story'.output base keeps fault).1 ∧
      ∃ texts, story.closed.TextsAside base (story.output base keeps fault).2 texts ∧
        story'.closed.TextsAside base (story'.output base keeps fault).2 texts := by
  obtain ⟨hresult, htexts⟩ := output_plain h.wantsDebug base keeps fault
  obtain ⟨hresult', htexts'⟩ := output_plain h.wantsDebug' base keeps fault
  rw [h.plain] at hresult htexts
  exact ⟨hresult.trans hresult'.symm, _, htexts, htexts'⟩

end SameCode

/-! ## What a refused sequence point leaves -/

/-- What becomes of a story if the file is registered and nothing else is done. -/
structure FileLeft (file : String) (story story' : Story) : Prop where
  /-- Only the list of files and the map of their ids may change. -/
  registry : ∃ registry, story' = { story with registry } ∧ story.registry.FileAdded file registry
  unchanged : story' = story ↔ file ∈ story.registry.files.toList
  /-- If the file was not known before, other files that are named later have higher ids. -/
  ids : ∀ other, (story'.registry.fileId other).1 = (story.registry.fileId other).1 +
    if file ∈ story.registry.files.toList ∨ other ∈ story.registry.files.toList ∨ other = file then 0
    else 1
  /-- Later calls return the same, unless they ask the registry. -/
  results : ∀ (later : List Call) (call : Call), (∀ request, call ≠ .registry request) →
    call.result (story'.after later) = call.result (story.after later)
  /-- Whatever is called later, the same is written but for debug information. -/
  texts : ∀ later base keeps fault,
    ((story'.after later).output base keeps fault).1 = ((story.after later).output base keeps fault).1 ∧
      ∃ texts,
        (story'.after later).closed.TextsAside base ((story'.after later).output base keeps fault).2 texts ∧
        (story.after later).closed.TextsAside base ((story.after later).output base keeps fault).2 texts
  /-- Everything that is written later lists the file, behind those that were known before. -/
  listed : ∀ later base keeps fault, ((story'.after later).output base keeps fault).1 = .ok () →
    ∃ data rest, ((story'.after later).output base keeps fault).2.data = some (sourceText data) ∧
      data.flatMap Statement.directives = (addFile story.registry.files.toList file).zipIdx.map
        (fun entry => Registry.fileText (entry.2 + 1) entry.1) ++ rest

namespace Recorded

variable {mentions : List Mention}

/-- The files that are known are the first ones that the data segment lists. -/
theorem exists_directives_data (h : story.Recorded mentions) (later : List Call) {base : String}
    {keeps : Bool} {fault : Segment → Stage → Option DiskError}
    (hok : ((story.after later).output base keeps fault).1 = .ok ()) :
    ∃ data rest, ((story.after later).output base keeps fault).2.data = some (sourceText data) ∧
      data.flatMap Statement.directives = story.registry.files.toList.zipIdx.map
        (fun entry => Registry.fileText (entry.2 + 1) entry.1) ++ rest := by
  obtain ⟨data, hdata, -, hwritten⟩ := exists_output_eq_sourceText hok
  have hrecorded := h.after (later ++ (story.after later).closings)
  rw [after_append] at hrecorded
  obtain ⟨named, hrecords, -⟩ :=
    (Recorded.fileIdsAgree hrecorded (fun _ => exists_body_of_mem_closed) hdata base).records
  obtain ⟨files, hfiles⟩ : story.registry.files.toList <+:
      Mention.files (mentions ++ story.mentions (later ++ (story.after later).closings)) := by
    rw [h.files, Mention.files, Mention.files, List.filterMap_append]
    exact prefix_eraseDups_append ..
  rw [← hfiles, List.zipIdx_append, List.map_append, List.append_assoc, List.append_assoc] at hrecords
  exact ⟨data, _, hwritten, hrecords⟩

theorem fileLeft (h : story.Recorded mentions) (file : String) :
    FileLeft file story { story with registry := (story.registry.fileId file).2 } := by
  have hcode : SameCode { story with registry := (story.registry.fileId file).2 } story :=
    ⟨h.wantsDebug, h.wantsDebug, rfl⟩
  have hfiles := Registry.toList_files_fileId story.registry file
  refine
    { registry := ⟨_, rfl, Registry.fileAdded_fileId ..⟩
      unchanged := ?_, ids := ?_
      results := fun later call hcall => (hcode.after later).result_eq hcall
      texts := fun later => (hcode.after later).output
      listed := ?_ }
  · rw [← Registry.snd_fileId_eq_self_iff]
    exact ⟨fun heq => congrArg Story.registry heq, fun heq => by rw [heq]⟩
  · intro other
    rw [Registry.fst_fileId, Registry.fst_fileId, hfiles, fileIdIn_addFile_addFile]
  · intro later base keeps fault hok
    have hrecorded := h.note (noted_registryCall (.fileId file))
    obtain ⟨data, rest, hwritten, hlisted⟩ := exists_directives_data hrecorded later hok
    exact ⟨data, rest, hwritten, hfiles ▸ hlisted⟩

end Recorded

/-- A sequence point is only refused where debug information is wanted, and then it leaves its file. -/
theorem left_of_run_markSequencePoint {id : RoutineId} {span : Span} {error : EmitError}
    (hrun : (markSequencePoint id span).run.run story = (.error error, story')) :
    story.wantsDebug = true ∧ story.routineRefusal id Routine.refusal = some error ∧
      story' = { story with registry := (story.registry.fileId span.file).2 } := by
  rw [run_markSequencePoint] at hrun
  obtain ⟨hrefusal, rfl⟩ := settled_eq_error.mp hrun
  simp only [Call.refusal] at hrefusal
  by_cases hdebug : story.wantsDebug = true
  · rw [if_pos hdebug] at hrefusal
    refine ⟨hdebug, hrefusal, ?_⟩
    rw [Call.left, if_pos hdebug, Registry.lineRecord_eq]
  · rw [if_neg hdebug] at hrefusal
    cases hrefusal

/-- **A refused sequence point leaves its file**, whichever calls were made before, and nothing else. So it
changes nothing if and only if the file was known. -/
theorem fileLeft_of_refused (number : Int) (wantsDebug : Bool) {start : Story}
    (hstart : Story.new number wantsDebug = .ok start) (calls : List Call) {id : RoutineId} {span : Span}
    {error : EmitError} {story' : Story}
    (hrun : (markSequencePoint id span).run.run (start.after calls) = (.error error, story')) :
    FileLeft span.file (start.after calls) story' := by
  obtain ⟨hdebug, -, rfl⟩ := left_of_run_markSequencePoint hrun
  have hnew : start.wantsDebug = wantsDebug := by
    obtain ⟨version, -, hnew⟩ := bind_eq_ok.mp hstart
    obtain rfl := Except.ok.inj hnew
    rfl
  rw [wantsDebug_after, hnew] at hdebug
  subst hdebug
  exact Recorded.fileLeft ((recorded_new hstart).after calls) span.file

/-- A routine in one file that is finished. -/
def finishedInFile : List Call :=
  [.define (.routine "MAIN" true false), .routine ⟨0⟩ (.place (.point "a.zil" 1 1)),
    .routine ⟨0⟩ (.emit .newLine), .finishRoutine ⟨0⟩]

/-- A second sequence point in the file of the routine comes too late. -/
theorem fileLeft_finishedInFile :
    ∃ start story', Story.new 5 true = .ok start ∧
      (markSequencePoint ⟨0⟩ (.point "a.zil" 4 1)).run.run (start.after finishedInFile) =
        (.error (.routineFinished "MAIN"), story') ∧
      FileLeft "a.zil" (start.after finishedInFile) story' ∧ story' = start.after finishedInFile := by
  obtain ⟨start, story', hstart, hrun, hknown⟩ : ∃ start story', Story.new 5 true = .ok start ∧
      (markSequencePoint ⟨0⟩ (.point "a.zil" 4 1)).run.run (start.after finishedInFile) =
        (.error (.routineFinished "MAIN"), story') ∧
      "a.zil" ∈ (start.after finishedInFile).registry.files.toList :=
    ⟨_, _, rfl, rfl, by decide +kernel⟩
  have hleft : FileLeft "a.zil" _ _ := fileLeft_of_refused 5 true hstart finishedInFile hrun
  exact ⟨start, story', hstart, hrun, hleft, hleft.unchanged.mpr hknown⟩

/-- In a file that is new, it changes what is written. -/
theorem data_ne_of_refused_newFile :
    ∃ start story', Story.new 3 true = .ok start ∧
      (markSequencePoint ⟨0⟩ (.point "b.zil" 4 1)).run.run
          (start.after [.define (.routine "MAIN" true false), .finishRoutine ⟨0⟩]) =
        (.error (.routineFinished "MAIN"), story') ∧
      (story'.output "game" false fun _ _ => none).2.data ≠
        ((start.after [.define (.routine "MAIN" true false), .finishRoutine ⟨0⟩]).output "game" false
          fun _ _ => none).2.data :=
  ⟨_, _, rfl, rfl, by decide +kernel⟩

end Story

end StoryAsm
