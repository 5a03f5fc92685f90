import StoryAsm.Project
import StoryAsm.Proofs.Files.Path
import StoryAsm.Proofs.Manifest.References
import StoryAsm.Proofs.Story.Prefix

/-!
# What a build writes

A file system is a map from routes to texts here. A project that is built reports the files that it
writes, and it writes no others. Whether the frequent words are written is decided twice, before the story
is made and after the other segments were written; both decisions are the same, as no segment's file is
that of another (`Project.reports_of_build`).
-/

namespace StoryAsm

open StoryAsm.Path (Route route)

/-! ## Files by route -/

structure FileMap where
  text : Route → Option String
  /-- The routes of the files that were created or replaced. -/
  written : List Route := []

namespace FileMap

/-- Create a file or replace its text. -/
def put (files : FileMap) (place : Route) (text : String) : FileMap where
  text := Function.update files.text place (some text)
  written := files.written.insert place

/-- File maps as a disk. Nothing fails, and there are all directories. -/
def disk : Disk (StateM FileMap) where
  current := return "/"
  has path := return ((← get).text (route path)).isSome
  read path := return ((← get).text (route path)).elim (.error .notFound) .ok
  write path text := do
    modify (·.put (route path) text)
    return .ok ()
  isDirectory _ := return true
  makeDir _ := return .ok ()

theorem text_put_self (files : FileMap) (place : Route) (text : String) :
    (files.put place text).text place = some text :=
  Function.update_self ..

theorem text_put_of_ne (files : FileMap) {place other : Route} (h : other ≠ place) (text : String) :
    (files.put place text).text other = files.text other :=
  Function.update_of_ne h ..

theorem put_put (files : FileMap) (place : Route) (text text' : String) :
    (files.put place text).put place text' = files.put place text' := by
  simp only [put, Function.update_idem]
  rw [List.insert_of_mem (List.mem_insert_self)]

theorem run_makeDirs (dir : String) (files : FileMap) :
    (disk.makeDirs dir).run files = (.ok (), files) := by
  rw [Disk.makeDirs]
  cases Path.ancestors dir <;> rfl

/-! ## Files of segments -/

/-- Write the texts of segments to their places. -/
def putAll (files : FileMap) (place : Segment → Route) (text : Segment → String)
    (segments : List Segment) : FileMap :=
  segments.foldl (fun files segment => files.put (place segment) (text segment)) files

section

variable {files : FileMap} {place : Segment → Route} {text : Segment → String} {segments : List Segment}

theorem putAll_cons (segment : Segment) :
    files.putAll place text (segment :: segments) =
      (files.put (place segment) (text segment)).putAll place text segments := rfl

theorem mem_written_putAll {other : Route} :
    other ∈ (files.putAll place text segments).written ↔
      other ∈ files.written ∨ other ∈ segments.map place := by
  induction segments generalizing files with
  | nil => simp [putAll]
  | cons segment segments ih =>
    rw [putAll_cons, ih, put, List.mem_insert_iff, List.map_cons, List.mem_cons, or_assoc, or_left_comm]

theorem text_putAll_of_not_mem {other : Route} (h : other ∉ segments.map place) :
    (files.putAll place text segments).text other = files.text other := by
  induction segments generalizing files with
  | nil => rfl
  | cons segment segments ih =>
    rw [List.map_cons, List.mem_cons, not_or] at h
    rw [putAll_cons, ih h.2, text_put_of_ne _ h.1]

/-- If no two segments have the same place, all segments keep the texts that they got. -/
theorem text_putAll_of_mem (hplace : place.Injective) {segment : Segment} (h : segment ∈ segments) :
    (files.putAll place text segments).text (place segment) = some (text segment) := by
  induction segments generalizing files with
  | nil => cases h
  | cons first segments ih =>
    rw [putAll_cons]
    -- A later text for the place is again that of the segment.
    by_cases hlater : segment ∈ segments
    · exact ih hlater
    · obtain rfl := (List.mem_cons.mp h).resolve_right hlater
      rw [text_putAll_of_not_mem ((List.mem_map_of_injective hplace).not.mpr hlater),
        text_put_self]

end

/-! ## The sink of a build -/

section

variable {dir base : String} {force : Bool} {files next final : FileMap} {story : Story}

/-- The frequent words are there already and stay. -/
def keeps (files : FileMap) (dir base : String) (force : Bool) : Bool :=
  !force && (files.text (Segment.frequentWords.place dir base)).isSome

theorem run_keepsFrequentWords (dir base : String) (force : Bool) (files : FileMap) :
    (Sink.files disk dir base force).keepsFrequentWords.run files =
      (files.keeps dir base force, files) := by
  cases force <;> rfl

theorem run_create (dir base : String) (force : Bool) (segment : Segment) (files : FileMap) :
    ((Sink.files disk dir base force).create segment).run files =
      (.ok (), files.put (segment.place dir base) "") := by
  show (disk.makeDirs dir >>= _ : StateM FileMap _).run files = _
  rw [StateT.run_bind, run_makeDirs]
  rfl

/-- What a task does to the files. -/
def after (dir base : String) (files : FileMap) : Story.Task → FileMap
  | .ask (.create segment) => files.put (segment.place dir base) ""
  | .ask (.write segment text) => files.put (segment.place dir base) text
  | .ask (.flush _) | .check | .question _ => files

theorem eq_after_of_ends {task : Story.Task}
    (h : task.Ends story (Sink.files disk dir base force) files none next) :
    next = files.after dir base task := by
  cases h with
  | @granted request _ _ hask =>
    cases request with
    | create segment =>
      cases (run_create dir base force segment files).symm.trans hask
      rfl
    | write segment text =>
      cases hask
      rfl
    | flush segment =>
      cases hask
      rfl
  | fits => rfl
  | answered hasked =>
    cases (run_keepsFrequentWords dir base force files).symm.trans hasked
    rfl

theorem eq_foldl_of_passes {tasks : List Story.Task}
    (h : story.Passes (Sink.files disk dir base force) files tasks final) :
    final = tasks.foldl (after dir base) files := by
  induction h with
  | nil => rfl
  | cons htask _ ih =>
    rw [ih, eq_after_of_ends htask]
    rfl

/-- A segment is created with an empty text, which is replaced at once. -/
theorem foldl_segmentTasks (story : Story) (segment : Segment) (files : FileMap) :
    (story.segmentTasks base segment).foldl (after dir base) files =
      files.put (segment.place dir base) (story.segmentText base segment) := by
  have hprepared : (Story.preparation segment).foldl (after dir base) files = files := by
    cases segment <;> rfl
  rw [Story.segmentTasks, List.foldl_append, hprepared, Sink.requests]
  by_cases htext : story.segmentText base segment = ""
  · rw [if_pos htext, htext]
    rfl
  · rw [if_neg htext]
    exact put_put ..

theorem foldl_flatMap_segmentTasks (story : Story) (segments : List Segment) (files : FileMap) :
    (segments.flatMap (story.segmentTasks base)).foldl (after dir base) files =
      files.putAll (Segment.place dir base) (story.segmentText base) segments := by
  induction segments generalizing files with
  | nil => rfl
  | cons segment segments ih =>
    rw [List.flatMap_cons, List.foldl_append, foldl_segmentTasks, ih, putAll_cons]

/-- What becomes of the files of a story that is written: the question about frequent words has the
same answer at the end as at the start. -/
theorem eq_putAll_of_passes {answer : Bool}
    (h : story.Passes (Sink.files disk dir base force) files (story.tasks base answer) final) :
    answer = files.keeps dir base force ∧
      final = files.putAll (Segment.place dir base) (story.segmentText base)
        (Segment.order answer) := by
  constructor
  · have htasks : story.tasks base answer =
        [.main, .data, .strings].flatMap (story.segmentTasks base) ++
          .question answer :: if answer then [] else
            (Sink.requests .frequentWords (story.segmentText base .frequentWords)).map .ask := by
      cases answer <;> simp [Story.tasks, Segment.order, Story.segmentTasks, Story.preparation]
    rw [htasks] at h
    obtain ⟨state, hbefore, h⟩ := h.exists_of_append
    have hstate := eq_foldl_of_passes hbefore
    rw [foldl_flatMap_segmentTasks] at hstate
    cases h with
    | cons hasked =>
      cases hasked with
      | answered hasked =>
        have hanswer : state.keeps dir base force = answer :=
          congrArg Prod.fst ((run_keepsFrequentWords dir base force state).symm.trans hasked)
        -- None of the files written so far is that of the frequent words.
        have hother : Segment.frequentWords.place dir base ∉
            [Segment.main, .data, .strings].map (Segment.place dir base) :=
          (List.mem_map_of_injective (Segment.place_injective dir base)).not.mpr (by decide)
        rw [← hanswer, keeps, keeps, hstate, text_putAll_of_not_mem hother]
  · have hlast (files : FileMap) :
        (if answer then [.question true] else []).foldl (after dir base) files = files := by
      cases answer <;> rfl
    rw [eq_foldl_of_passes h, Story.tasks, List.foldl_append, foldl_flatMap_segmentTasks, hlast]

/-- Nothing fails but a table that does not fit. -/
theorem not_ends_some (hfit : story.TablesFit) {task : Story.Task} {error : EmitError} :
    ¬task.Ends story (Sink.files disk dir base force) files (some error) next := by
  intro h
  cases h with
  | @denied request _ _ error hask =>
    cases request with
    | create segment => cases (run_create dir base force segment files).symm.trans hask
    | write segment text => cases hask
    | flush segment => cases hask
  | misfit hmisfit => exact hmisfit.not_tablesFit hfit

theorem run_finish (hfit : story.TablesFit) (dir base : String) (force : Bool) (files : FileMap) :
    ∃ finished, ((Story.finish (Sink.files disk dir base force)).run.run story).run files =
      ((.ok (), finished), files.putAll (Segment.place dir base) (story.segmentText base)
        (Segment.order (files.keeps dir base force))) := by
  obtain ⟨log, hrun⟩ :=
    Story.run_finish (Story.run_finishRoutines story) (Sink.files disk dir base force) files
  obtain ⟨answer, hended⟩ := Story.CarriesOut.writeAll story (Sink.files disk dir base force) log
    { story.closed with log } files
  rw [hrun]
  generalize StateT.run (StateT.run (ExceptT.run _) _) files = run at hended ⊢
  obtain ⟨⟨result, finished⟩, final⟩ := run
  rcases hended with ⟨hok, hpasses⟩ | ⟨_, task, _, state, error, -, -, hends, -⟩
  · obtain ⟨hanswer, hfinal⟩ := eq_putAll_of_passes hpasses
    refine ⟨finished, ?_⟩
    rw [← hanswer, ← hfinal]
    exact congrArg (fun result => ((result, finished), final)) hok
  · exact absurd hends (not_ends_some hfit)

end

end FileMap

/-! ## Builds -/

namespace Project

variable {manifest : Manifest} {settings : BuildSettings} {source : String} {story : Story}

section

variable {σ α β : Type}

theorem run_lift_bind (action : StateM σ α) (f : α → ProjectT (StateM σ) β) (log : Array Log.Event)
    (t : σ) :
    (((liftM action : ProjectT (StateM σ) α) >>= f).run.run log).run t =
      ((f (action.run t).1).run.run log).run (action.run t).2 := rfl

theorem run_report_bind (events : Array Log.Event) (f : Unit → ProjectT (StateM σ) β)
    (log : Array Log.Event) (t : σ) :
    ((report events >>= f).run.run log).run t = ((f ()).run.run (log ++ events)).run t := rfl

end

/-- A story that was made can be written, and the files that are written are reported. -/
theorem run_build (h : manifest.story settings source = .ok story) (log : Array Log.Event)
    (files : FileMap) :
    ∃ log', ((build FileMap.disk manifest settings source).run.run log).run files =
      ((.ok { files := (Segment.order (files.keeps settings.outDir settings.outName
                settings.forceFrequentWords)).map (·.path settings.outDir settings.outName)
              symbols := story.symbols }, log'),
        files.putAll (Segment.place settings.outDir settings.outName) (story.segmentText settings.outName)
          (Segment.order (files.keeps settings.outDir settings.outName settings.forceFrequentWords))) := by
  obtain ⟨finished, hfinish⟩ :=
    FileMap.run_finish (Manifest.tablesFit_of_story h) settings.outDir settings.outName
      settings.forceFrequentWords files
  refine ⟨log ++ finished.log, ?_⟩
  rw [build, run_lift_bind, FileMap.run_keepsFrequentWords, h]
  simp only
  rw [run_lift_bind, hfinish]
  simp only
  rw [run_report_bind]
  rfl

/-- What a build reports of the files, where `before` are the texts of the files at its start. -/
structure Reports (settings : BuildSettings) (story : Story) (before : Route → Option String)
    (built : Built) (after : FileMap) : Prop where
  distinct : (built.files.map route).Nodup
  written : ∀ place, place ∈ after.written ↔ place ∈ built.files.map route
  complete : ∀ path ∈ built.files, ∃ segment : Segment,
    path = segment.path settings.outDir settings.outName ∧
      after.text (route path) = some (story.segmentText settings.outName segment)
  unchanged : ∀ place, place ∉ built.files.map route → after.text place = before place
  required : ∀ segment : Segment, segment ≠ .frequentWords →
    segment.path settings.outDir settings.outName ∈ built.files
  frequentWords : Segment.frequentWords.place settings.outDir settings.outName ∈ after.written ↔
    settings.forceFrequentWords = true ∨
      before (Segment.frequentWords.place settings.outDir settings.outName) = none

/-- **A build reports exactly what it writes**, whatever files there are before. The tables of the story
fit, so that it has a text for each segment. -/
theorem reports_of_build {log log' : Array Log.Event} {before : Route → Option String} {built : Built}
    {after : FileMap}
    (h : ((build FileMap.disk manifest settings source).run.run log).run { text := before } =
      ((.ok built, log'), after)) :
    ∃ story, manifest.story settings source = .ok story ∧ story.TablesFit ∧
      Reports settings story before built after := by
  cases hstory : manifest.story settings source with
  | error failure =>
    rw [build, run_lift_bind, hstory] at h
    cases h
  | ok story =>
    obtain ⟨_, hrun⟩ := run_build hstory log { text := before }
    cases hrun.symm.trans h
    have hplace := Segment.place_injective settings.outDir settings.outName
    have hroutes (answer : Bool) :
        ((Segment.order answer).map (·.path settings.outDir settings.outName)).map route =
          (Segment.order answer).map (Segment.place settings.outDir settings.outName) := List.map_map
    refine ⟨story, rfl, Manifest.tablesFit_of_story hstory, ?_, ?_, ?_, ?_, ?_, ?_⟩
    · rw [hroutes]
      exact (Segment.nodup_order _).map hplace
    · intro place
      rw [hroutes, FileMap.mem_written_putAll]
      exact or_iff_right List.not_mem_nil
    · intro path hpath
      obtain ⟨segment, hsegment, rfl⟩ := List.mem_map.mp hpath
      exact ⟨segment, rfl, FileMap.text_putAll_of_mem hplace hsegment⟩
    · intro place hother
      rw [hroutes] at hother
      exact FileMap.text_putAll_of_not_mem hother
    · intro segment hrequired
      refine List.mem_map_of_mem (List.mem_append_left _ ?_)
      cases segment with
      | frequentWords => exact absurd rfl hrequired
      | main | data | strings => decide
    · have horder (answer : Bool) : .frequentWords ∈ Segment.order answer ↔ answer = false := by
        cases answer <;> decide
      rw [FileMap.mem_written_putAll, or_iff_right List.not_mem_nil,
        List.mem_map_of_injective hplace, horder, FileMap.keeps, Bool.and_eq_false_iff,
        Bool.not_eq_false', Option.isSome_eq_false_iff, Option.isNone_iff_eq_none]

/-- The frequent words are there already, under a path with a part that carries no meaning. -/
theorem reports_of_build_cloakroom :
    ∃ (story : Story) (built : Built) (log : Array Log.Event) (before : Route → Option String)
      (after : FileMap), before (route ".//story_freq.zap") = some ".FSTR FSTR?1,\"the\"\n" ∧
      ((build FileMap.disk .cloakroom {} "zapgen.toml").run.run #[]).run { text := before } =
        ((.ok built, log), after) ∧
      built.files = ["./story.zap", "./story_data.zap", "./story_str.zap"] ∧
      Reports {} story before built after := by
  let before : Route → Option String := fun place =>
    if place = route ".//story_freq.zap" then some ".FSTR FSTR?1,\"the\"\n" else none
  obtain ⟨story, hstory⟩ := Manifest.exists_story_cloakroom
  obtain ⟨log, hrun⟩ := run_build hstory #[] { text := before }
  obtain ⟨story', -, -, hreports⟩ := reports_of_build hrun
  have hfiles : (Segment.order (FileMap.keeps { text := before } "." "story" false)).map
      (·.path "." "story") = ["./story.zap", "./story_data.zap", "./story_str.zap"] := by
    decide +kernel
  exact ⟨story', _, log, before, _, if_pos rfl, hrun, hfiles, hreports⟩

end Project

end StoryAsm
