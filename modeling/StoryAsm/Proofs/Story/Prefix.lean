import StoryAsm.Proofs.Story.Call
import StoryAsm.Proofs.World.Fit

/-!
# Segments are written in order

When a story is finished, one task after the other is done up to the first failure: requests to the sink,
and between the main and the data segment the check that all property tables fit. So the segments that
are opened are the first ones of an order, and all but the last of them hold their complete texts, which
depend on the story alone (`Story.writtenInOrder_finish`). The sink may have any state of its own. Finishing
never returns where a target of an open routine is on a circle of aliases (`Story.not_finishes_circle`).
-/

namespace StoryAsm

/-! ## Sinks with a state -/

namespace Sink

/-- Something that a sink is asked to do. -/
inductive Request where
  | create (segment : Segment)
  | write (segment : Segment) (text : String)
  | flush (segment : Segment)

def Request.ask {m : Type → Type} (sink : Sink m) : Request → m (Except DiskError Unit)
  | create segment => sink.create segment
  | write segment text => sink.write segment text
  | flush segment => sink.flush segment

/-- The requests for a segment with its text. An empty text needs no writing. -/
def requests (segment : Segment) (text : String) : List Request :=
  .create segment :: (if text = "" then [.flush segment] else [.write segment text, .flush segment])

/-- `texts` tells what the segments hold that were opened. A segment is empty at first, and what is
written is added to it. Where writing or flushing an open segment fails, nothing is known of what it holds
then; the other segments stay as they are. -/
structure Holds {σ : Type} (sink : Sink (StateM σ)) (texts : σ → SegmentTexts) : Prop where
  created : ∀ {segment state next}, (sink.create segment).run state = (.ok (), next) →
    texts next = (texts state).set segment ""
  notCreated : ∀ {segment state error next},
    (sink.create segment).run state = (.error error, next) → texts next = texts state
  written : ∀ {segment text state next}, (sink.write segment text).run state = (.ok (), next) →
    texts next = (texts state).set segment (((texts state).get segment).getD "" ++ text)
  notWritten : ∀ {segment text state error next},
    (sink.write segment text).run state = (.error error, next) → ((texts state).get segment).isSome →
      ∃ part, texts next = (texts state).set segment part
  flushed : ∀ {segment state next}, (sink.flush segment).run state = (.ok (), next) →
    texts next = texts state
  notFlushed : ∀ {segment state error next},
    (sink.flush segment).run state = (.error error, next) → ((texts state).get segment).isSome →
      ∃ part, texts next = (texts state).set segment part
  asked : ∀ {state keeps next}, sink.keepsFrequentWords.run state = (keeps, next) →
    texts next = texts state

theorem eq_set_of_get {t : SegmentTexts} {segment : Segment} {text : String}
    (h : t.get segment = some text) : t = t.set segment text := by
  cases segment <;> cases t <;> cases h <;> rfl

theorem run_orFault_eq_ok {fault : Option DiskError} {action : StateM SegmentTexts Unit}
    {state next : SegmentTexts} (h : (orFault fault action).run state = (.ok (), next)) :
    next = (action.run state).2 := by
  cases fault with
  | none =>
    cases h
    rfl
  | some error => cases h

theorem run_orFault_eq_error {fault : Option DiskError} {action : StateM SegmentTexts Unit}
    {state next : SegmentTexts} {error : DiskError}
    (h : (orFault fault action).run state = (.error error, next)) : next = state := by
  cases fault with
  | none => cases h
  | some error =>
    cases h
    rfl

/-- What a sink in memory holds is its state. -/
theorem memory_holds (base : String) (keeps : Bool) (fault : Segment → Stage → Option DiskError) :
    (memory base keeps fault).Holds id where
  created := run_orFault_eq_ok
  notCreated := run_orFault_eq_error
  written := run_orFault_eq_ok
  notWritten h hopen := by
    obtain ⟨part, hpart⟩ := Option.isSome_iff_exists.mp hopen
    exact ⟨part, (run_orFault_eq_error h).trans (eq_set_of_get hpart)⟩
  flushed := run_orFault_eq_ok
  notFlushed h hopen := by
    obtain ⟨part, hpart⟩ := Option.isSome_iff_exists.mp hopen
    exact ⟨part, (run_orFault_eq_error h).trans (eq_set_of_get hpart)⟩
  asked h := by
    cases h
    rfl

end Sink

/-- The order of the segments. -/
def Segment.order (keepsFrequentWords : Bool) : List Segment :=
  [.main, .data, .strings] ++ if keepsFrequentWords then [] else [.frequentWords]

theorem Segment.nodup_order (keeps : Bool) : (Segment.order keeps).Nodup := by
  cases keeps <;> decide

namespace Story

variable {σ : Type} {story : Story} {sink : Sink (StateM σ)} {texts : σ → SegmentTexts}
  {start state next final : σ} {result : Except EmitError Unit}

/-! ## Tasks -/

/-- What is done when a story with finished routines is written. -/
inductive Task where
  | ask (request : Sink.Request)
  /-- Check that all property tables fit. -/
  | check
  /-- Ask whether frequent words are there already, with the answer. -/
  | question (keeps : Bool)

/-- The task is done in a state of the sink, which changes then. It fails with an error or with none. -/
inductive Task.Ends (story : Story) (sink : Sink (StateM σ)) : Task → σ → Option EmitError → σ → Prop where
  | granted {request : Sink.Request} {state next : σ} :
    (request.ask sink).run state = (.ok (), next) → Ends story sink (.ask request) state none next
  | denied {request : Sink.Request} {state next : σ} {error : DiskError} :
    (request.ask sink).run state = (.error error, next) →
      Ends story sink (.ask request) state (some (.disk error)) next
  | fits {state : σ} : story.TablesFit → Ends story sink .check state none state
  | misfit {state : σ} {error : EmitError} : story.FirstMisfit error →
      Ends story sink .check state (some error) state
  | answered {keeps : Bool} {state next : σ} : sink.keepsFrequentWords.run state = (keeps, next) →
      Ends story sink (.question keeps) state none next

/-- The tasks are done one after the other, and none of them fails. -/
inductive Passes (story : Story) (sink : Sink (StateM σ)) : σ → List Task → σ → Prop where
  | nil {state : σ} : Passes story sink state [] state
  | cons {task : Task} {tasks : List Task} {state next final : σ} :
    task.Ends story sink state none next → Passes story sink next tasks final →
      Passes story sink state (task :: tasks) final

/-- The tasks are done one after the other, and the result is the first failure, if there is one. -/
def Ended (story : Story) (sink : Sink (StateM σ)) (start : σ) (tasks : List Task)
    (result : Except EmitError Unit) (final : σ) : Prop :=
  (result = .ok () ∧ story.Passes sink start tasks final) ∨
    ∃ before task after state error, tasks = before ++ task :: after ∧
      story.Passes sink start before state ∧ task.Ends story sink state (some error) final ∧
      result = .error error

theorem Task.Ends.unique {task : Task} {failure : Option EmitError} {next' : σ}
    (h : task.Ends story sink state none next) (h' : task.Ends story sink state failure next') :
    failure = none ∧ next' = next := by
  cases h with
  | granted h =>
    cases h' with
    | granted h' =>
      cases h.symm.trans h'
      exact ⟨rfl, rfl⟩
    | denied h' => cases h.symm.trans h'
  | fits h =>
    cases h' with
    | fits h' => exact ⟨rfl, rfl⟩
    | misfit h' => exact absurd h h'.not_tablesFit
  | answered h =>
    cases h' with
    | answered h' =>
      cases h.symm.trans h'
      exact ⟨rfl, rfl⟩

theorem ended_nil_iff : story.Ended sink start [] result final ↔ result = .ok () ∧ final = start := by
  constructor
  · rintro (⟨rfl, h⟩ | ⟨before, task, after, _, _, hsplit, -⟩)
    · cases h
      exact ⟨rfl, rfl⟩
    · simp at hsplit
  · rintro ⟨rfl, rfl⟩
    exact .inl ⟨rfl, .nil⟩

theorem ended_cons_iff {task : Task} {tasks : List Task} :
    story.Ended sink start (task :: tasks) result final ↔
      (∃ next, task.Ends story sink start none next ∧ story.Ended sink next tasks result final) ∨
        ∃ error, task.Ends story sink start (some error) final ∧ result = .error error := by
  constructor
  · rintro (⟨rfl, h⟩ | ⟨before, task', after, state, error, hsplit, hbefore, htask, rfl⟩)
    · cases h with
      | cons htask hrest => exact .inl ⟨_, htask, .inl ⟨rfl, hrest⟩⟩
    · cases hbefore with
      | nil =>
        cases hsplit
        exact .inr ⟨error, htask, rfl⟩
      | cons hfirst hbefore =>
        cases hsplit
        exact .inl ⟨_, hfirst, .inr ⟨_, task', after, state, error, rfl, hbefore, htask, rfl⟩⟩
  · rintro (⟨next, htask, ⟨rfl, hrest⟩ | ⟨before, task', after, state, error, rfl, hbefore, hend⟩⟩ |
      ⟨error, htask, rfl⟩)
    · exact .inl ⟨rfl, .cons htask hrest⟩
    · exact .inr ⟨task :: before, task', after, state, error, rfl, .cons htask hbefore, hend⟩
    · exact .inr ⟨[], task, tasks, start, error, rfl, .nil, htask, rfl⟩

theorem Ended.append {tasks rest : List Task} (h : story.Passes sink start tasks state)
    (hrest : story.Ended sink state rest result final) :
    story.Ended sink start (tasks ++ rest) result final := by
  induction h with
  | nil => exact hrest
  | cons htask _ ih => exact ended_cons_iff.mpr (.inl ⟨_, htask, ih hrest⟩)

theorem Passes.exists_of_append {tasks rest : List Task}
    (h : story.Passes sink start (tasks ++ rest) final) :
    ∃ state, story.Passes sink start tasks state ∧ story.Passes sink state rest final := by
  induction tasks generalizing start with
  | nil => exact ⟨start, .nil, h⟩
  | cons task tasks ih =>
    cases h with
    | cons htask h =>
      obtain ⟨state, hpasses, hrest⟩ := ih h
      exact ⟨state, .cons htask hpasses, hrest⟩

theorem Ended.append_of_error {tasks : List Task} {error : EmitError}
    (h : story.Ended sink start tasks (.error error) final) (rest : List Task) :
    story.Ended sink start (tasks ++ rest) (.error error) final := by
  rcases h with ⟨h, -⟩ | ⟨before, task, after, state, error', rfl, hend⟩
  · cases h
  · exact .inr ⟨before, task, after ++ rest, state, error', by simp, hend⟩

/-- If all tasks can be done, there is no failure. -/
theorem Passes.result_eq_ok {tasks : List Task} {final' : σ}
    (h : story.Passes sink start tasks final') (hended : story.Ended sink start tasks result final) :
    result = .ok () := by
  induction h with
  | nil => exact (ended_nil_iff.mp hended).1
  | cons htask _ ih =>
    rcases ended_cons_iff.mp hended with ⟨next, htask', hrest⟩ | ⟨error, htask', -⟩
    · obtain ⟨-, rfl⟩ := htask.unique htask'
      exact ih hrest
    · cases (htask.unique htask').1

/-! ## The tasks of a story -/

/-- The complete text of a segment. The data segment has none if a property table does not fit. -/
def segmentText (story : Story) (base : String) : Segment → String
  | .main => sourceText (story.closed.mainStatements base)
  | .data =>
    match story.closed.dataStatements with
    | .ok data => sourceText data
    | .error _ => ""
  | .strings => sourceText story.closed.stringStatements
  | .frequentWords => sourceText frequentStatements

/-- What has to be known before the segment is opened. -/
def preparation : Segment → List Task
  | .data => [.check]
  | .frequentWords => [.question false]
  | .main | .strings => []

/-- The tasks of writing one segment. -/
def segmentTasks (story : Story) (base : String) (segment : Segment) : List Task :=
  preparation segment ++ (Sink.requests segment (story.segmentText base segment)).map .ask

/-- All tasks in their order. -/
def tasks (story : Story) (base : String) (keeps : Bool) : List Task :=
  (Segment.order keeps).flatMap (story.segmentTasks base) ++ if keeps then [.question true] else []

/-! ## What the segments hold -/

theorem get_set_of_ne (t : SegmentTexts) {segment segment' : Segment} (h : segment' ≠ segment)
    (text : String) : (t.set segment text).get segment' = t.get segment' := by
  cases segment <;> cases segment' <;> first | rfl | exact absurd rfl h

/-- The task leaves the segments alone. -/
def Task.IsPreparation : Task → Prop
  | ask _ => False
  | check | question _ => True

theorem isPreparation_of_mem_preparation {segment : Segment} {task : Task}
    (h : task ∈ preparation segment) : task.IsPreparation := by
  cases segment <;> simp only [preparation, List.mem_singleton, List.not_mem_nil] at h <;>
    subst h <;> trivial

theorem Task.Ends.texts_eq (hsink : sink.Holds texts) {task : Task} (htask : task.IsPreparation)
    {failure : Option EmitError} (h : task.Ends story sink state failure next) :
    texts next = texts state := by
  cases h with
  | granted | denied => cases htask
  | fits | misfit => rfl
  | answered h => exact hsink.asked h

theorem Ended.preparation (hsink : sink.Holds texts) {before rest : List Task}
    (hbefore : ∀ task ∈ before, task.IsPreparation)
    (h : story.Ended sink start (before ++ rest) result final) :
    (result ≠ .ok () ∧ texts final = texts start) ∨
      ∃ state, texts state = texts start ∧ story.Ended sink state rest result final := by
  induction before generalizing start with
  | nil => exact .inr ⟨start, rfl, h⟩
  | cons task before ih =>
    have hfirst := hbefore task List.mem_cons_self
    rcases ended_cons_iff.mp h with ⟨next, htask, h⟩ | ⟨error, htask, rfl⟩
    · rw [← htask.texts_eq hsink hfirst]
      exact ih (fun task hmem => hbefore task (List.mem_cons_of_mem _ hmem)) h
    · exact .inl ⟨nofun, htask.texts_eq hsink hfirst⟩

/-- A segment is flushed after its text was written. -/
theorem Ended.flush (hsink : sink.Holds texts) {segment : Segment}
    (hopen : ((texts start).get segment).isSome) {rest : List Task}
    (h : story.Ended sink start (.ask (.flush segment) :: rest) result final) :
    (result ≠ .ok () ∧ ∃ part, texts final = (texts start).set segment part) ∨
      ∃ state, texts state = texts start ∧ story.Ended sink state rest result final := by
  rcases ended_cons_iff.mp h with ⟨next, htask, h⟩ | ⟨error, htask, rfl⟩
  · cases htask with
    | granted hflush => exact .inr ⟨next, hsink.flushed hflush, h⟩
  · cases htask with
    | denied hflush => exact .inl ⟨nofun, hsink.notFlushed hflush hopen⟩

/-- A segment stays closed, or is left with a part of its text, or is written. -/
theorem Ended.requests (hsink : sink.Holds texts) {segment : Segment} {text : String}
    {rest : List Task}
    (h : story.Ended sink start ((Sink.requests segment text).map .ask ++ rest) result final) :
    (result ≠ .ok () ∧ texts final = texts start) ∨
      (result ≠ .ok () ∧ ∃ part, texts final = (texts start).set segment part) ∨
      ∃ state, texts state = (texts start).set segment text ∧
        story.Ended sink state rest result final := by
  rcases ended_cons_iff.mp h with ⟨created, htask, hrest⟩ | ⟨error, htask, rfl⟩
  · cases htask with
    | granted hcreate =>
      have hempty := hsink.created hcreate
      have hopen : ((texts created).get segment).isSome := by
        rw [hempty, get_set_self, Option.isSome_some]
      refine .inr ?_
      by_cases htext : text = ""
      · rw [if_pos htext] at hrest
        rcases hrest.flush hsink hopen with ⟨herror, part, hpart⟩ | ⟨state, hstate, hrest⟩
        · exact .inl ⟨herror, part, by rw [hpart, hempty, set_set]⟩
        · exact .inr ⟨state, by rw [hstate, hempty, htext], hrest⟩
      · rw [if_neg htext] at hrest
        rcases ended_cons_iff.mp hrest with ⟨written, htask, hrest⟩ | ⟨error, htask, rfl⟩
        · cases htask with
          | granted hwrite =>
            have hall : texts written = (texts start).set segment text := by
              rw [hsink.written hwrite, hempty, get_set_self, set_set, Option.getD_some,
                String.empty_append]
            have hopen : ((texts written).get segment).isSome := by
              rw [hall, get_set_self, Option.isSome_some]
            rcases hrest.flush hsink hopen with ⟨herror, part, hpart⟩ | ⟨state, hstate, hrest⟩
            · exact .inl ⟨herror, part, by rw [hpart, hall, set_set]⟩
            · exact .inr ⟨state, hstate.trans hall, hrest⟩
        · cases htask with
          | denied hwrite =>
            obtain ⟨part, hpart⟩ := hsink.notWritten hwrite hopen
            exact .inl ⟨nofun, part, by rw [hpart, hempty, set_set]⟩
  · cases htask with
    | denied hcreate => exact .inl ⟨nofun, hsink.notCreated hcreate⟩

/-- The segments in `opened` were opened, and all but the last of them hold their complete texts. -/
structure HoldsPrefix (text : Segment → String) (before after : SegmentTexts) (opened : List Segment) :
    Prop where
  present : ∀ segment ∈ opened, (after.get segment).isSome
  complete : ∀ segment ∈ opened.dropLast, after.get segment = some (text segment)
  others : ∀ segment, segment ∉ opened → after.get segment = before.get segment

theorem HoldsPrefix.nil {text : Segment → String} {before after : SegmentTexts} (h : after = before) :
    HoldsPrefix text before after [] where
  present := nofun
  complete := nofun
  others _ _ := by rw [h]

/-- One more segment is opened, and its text is not complete. -/
theorem HoldsPrefix.singleton {text : Segment → String} {before after : SegmentTexts}
    {segment : Segment} {part : String} (h : after = before.set segment part) :
    HoldsPrefix text before after [segment] where
  present segment' hmem := by
    obtain rfl := List.mem_singleton.mp hmem
    rw [h, get_set_self, Option.isSome_some]
  complete := nofun
  others segment' hmem := by rw [h, get_set_of_ne _ (List.ne_of_not_mem_cons hmem)]

/-- A segment was written before the others. -/
theorem HoldsPrefix.cons {text : Segment → String} {before middle after : SegmentTexts}
    {segment : Segment} {opened : List Segment} (h : HoldsPrefix text middle after opened)
    (hnew : segment ∉ opened) (hmiddle : middle = before.set segment (text segment)) :
    HoldsPrefix text before after (segment :: opened) := by
  have hself : after.get segment = some (text segment) := by
    rw [h.others segment hnew, hmiddle, get_set_self]
  constructor
  · intro segment' hmem
    rcases List.mem_cons.mp hmem with rfl | hmem
    · rw [hself, Option.isSome_some]
    · exact h.present segment' hmem
  · intro segment' hmem
    cases opened with
    | nil => cases hmem
    | cons first opened =>
      rw [List.dropLast_cons_cons] at hmem
      rcases List.mem_cons.mp hmem with rfl | hmem
      · exact hself
      · exact h.complete segment' hmem
  · intro segment' hmem
    rw [h.others segment' (List.not_mem_of_not_mem_cons hmem), hmiddle,
      get_set_of_ne _ (List.ne_of_not_mem_cons hmem)]

/-- Of segments that are to be written one after the other, the first ones are opened. If there is no
failure, all are written. -/
theorem Ended.holdsPrefix (hsink : sink.Holds texts) {base : String} {segments : List Segment}
    (hnodup : segments.Nodup) {rest : List Task} (hrest : ∀ task ∈ rest, task.IsPreparation)
    (h : story.Ended sink start (segments.flatMap (story.segmentTasks base) ++ rest) result final) :
    (∃ opened, opened <+: segments ∧
      HoldsPrefix (story.segmentText base) (texts start) (texts final) opened) ∧
    (result = .ok () → ∀ segment ∈ segments,
      (texts final).get segment = some (story.segmentText base segment)) := by
  induction segments generalizing start with
  | nil =>
    rw [List.flatMap_nil, List.nil_append] at h
    refine ⟨⟨[], List.nil_prefix, .nil ?_⟩, fun _ => nofun⟩
    rw [← List.append_nil rest] at h
    rcases h.preparation hsink hrest with ⟨-, heq⟩ | ⟨state, heq, h⟩
    · exact heq
    · rw [(ended_nil_iff.mp h).2, heq]
  | cons segment segments ih =>
    obtain ⟨hnew, hnodup⟩ := List.nodup_cons.mp hnodup
    rw [List.flatMap_cons, segmentTasks, List.append_assoc, List.append_assoc] at h
    have hprep := h.preparation hsink fun _ => isPreparation_of_mem_preparation
    rcases hprep with ⟨herror, heq⟩ | ⟨prepared, hprepared, h⟩
    · exact ⟨⟨[], List.nil_prefix, .nil heq⟩, fun hok => absurd hok herror⟩
    rcases h.requests hsink with ⟨herror, heq⟩ | ⟨herror, part, hpart⟩ | ⟨state, hstate, h⟩
    · exact ⟨⟨[], List.nil_prefix, .nil (heq.trans hprepared)⟩, fun hok => absurd hok herror⟩
    · rw [hprepared] at hpart
      exact ⟨⟨[segment], ⟨segments, rfl⟩, .singleton hpart⟩, fun hok => absurd hok herror⟩
    · rw [hprepared] at hstate
      obtain ⟨⟨opened, hfirst, hholds⟩, hall⟩ := ih hnodup h
      have hnotOpened : segment ∉ opened := fun hmem => hnew (hfirst.subset hmem)
      have hcons := hholds.cons hnotOpened hstate
      refine ⟨⟨segment :: opened, List.cons_prefix_cons.mpr ⟨rfl, hfirst⟩, hcons⟩, ?_⟩
      intro hok segment' hmem
      rcases List.mem_cons.mp hmem with rfl | hmem
      · rw [hholds.others segment' hnotOpened, hstate, get_set_self]
      · exact hall hok segment' hmem

/-! ## Doing the tasks -/

/-- The operation does the tasks, whatever state of the story it starts with. The tasks may depend on an
answer of the sink. -/
def CarriesOut (story : Story) (sink : Sink (StateM σ)) (x : StoryT (StateM σ) Unit)
    (tasks : Bool → List Task) : Prop :=
  ∀ s start, ∃ keeps, story.Ended sink start (tasks keeps) ((x.run.run s).run start).1.1
    ((x.run.run s).run start).2

/-! Finishing routines changes no object. -/

theorem tablesFit_closed : story.closed.TablesFit ↔ story.TablesFit := by
  obtain ⟨routines, registry, log, hclosed⟩ := story.exists_closed
  rw [hclosed]
  exact .rfl

theorem firstMisfit_closed {error : EmitError} :
    story.closed.FirstMisfit error ↔ story.FirstMisfit error := by
  obtain ⟨routines, registry, log, hclosed⟩ := story.exists_closed
  rw [hclosed]
  exact .rfl

namespace CarriesOut

theorem bind {x : StoryT (StateM σ) Unit} {f : Unit → StoryT (StateM σ) Unit} {tasks : List Task}
    {rest : Bool → List Task} (hx : story.CarriesOut sink x fun _ => tasks)
    (hf : story.CarriesOut sink (f ()) rest) :
    story.CarriesOut sink (x >>= f) fun keeps => tasks ++ rest keeps := by
  intro s start
  obtain ⟨_, hx⟩ := hx s start
  rw [run_bind]
  generalize (x.run.run s).run start = run at hx ⊢
  obtain ⟨⟨error | _, m⟩, u⟩ := run
  · exact ⟨false, hx.append_of_error _⟩
  · rcases hx with ⟨-, hpasses⟩ | ⟨_, _, _, _, _, _, _, _, h⟩
    · obtain ⟨keeps, hrest⟩ := hf m u
      exact ⟨keeps, .append hpasses hrest⟩
    · cases h

theorem report (event : Log.Event) : story.CarriesOut sink (Story.report event) fun _ => [] :=
  fun _ _ => ⟨false, ended_nil_iff.mpr ⟨rfl, rfl⟩⟩

theorem ask (request : Sink.Request) :
    story.CarriesOut sink (orDisk (request.ask sink)) fun _ => [.ask request] := by
  intro s start
  refine ⟨false, ended_cons_iff.mpr ?_⟩
  rw [run_orDisk]
  rcases hask : (request.ask sink).run start with ⟨error | _, next⟩
  · exact .inr ⟨_, .denied hask, rfl⟩
  · exact .inl ⟨next, .granted hask, ended_nil_iff.mpr ⟨rfl, rfl⟩⟩

theorem writeSegment (segment : Segment) (statements : List Statement) :
    story.CarriesOut sink (Story.writeSegment sink segment statements) fun _ =>
      (Sink.requests segment (sourceText statements)).map .ask := by
  have hclose : story.CarriesOut sink (closeSegment sink segment (sourceText statements))
      fun _ => [.ask (.flush segment)] := (ask (.flush segment)).bind (report _)
  rw [writeSegment_eq]
  refine (ask (.create segment)).bind ?_
  by_cases htext : sourceText statements = ""
  · rw [if_pos htext, if_pos htext]
    exact hclose
  · rw [if_neg htext, if_neg htext]
    exact (ask (.write segment (sourceText statements))).bind hclose

/-- The frequent words are left out if they are there already. -/
theorem frequentWords :
    story.CarriesOut sink (do
        if ← (sink.keepsFrequentWords : StateM σ Bool) then
          Story.report (.kept (Segment.frequentWords.fileName sink.base))
        else
          Story.writeSegment sink .frequentWords frequentStatements)
      fun keeps => if keeps then [.question true]
        else .question false :: (Sink.requests .frequentWords (sourceText frequentStatements)).map .ask := by
  intro s start
  rw [run_lift_bind]
  rcases hasked : sink.keepsFrequentWords.run start with ⟨keeps, next⟩
  refine ⟨keeps, ?_⟩
  cases keeps with
  | true => exact ended_cons_iff.mpr (.inl ⟨next, .answered hasked, ended_nil_iff.mpr ⟨rfl, rfl⟩⟩)
  | false =>
    have hwrite : story.CarriesOut sink _ _ := writeSegment .frequentWords frequentStatements
    obtain ⟨_, hwrite⟩ := hwrite s next
    exact ended_cons_iff.mpr (.inl ⟨next, .answered hasked, hwrite⟩)

/-- Where a property table does not fit, the data segment is not opened. -/
theorem data_of_error {error : EmitError} (h : story.FirstMisfit error) (tasks : Bool → List Task)
    (f : Unit → StoryT (StateM σ) Unit) :
    story.CarriesOut sink (throw error >>= f) fun keeps => .check :: tasks keeps :=
  fun _ _ => ⟨false, ended_cons_iff.mpr (.inr ⟨error, .misfit h, rfl⟩)⟩

theorem data_of_ok (h : story.TablesFit) {x : StoryT (StateM σ) Unit} {tasks : Bool → List Task}
    (hx : story.CarriesOut sink x tasks) : story.CarriesOut sink x fun keeps => .check :: tasks keeps := by
  intro s start
  obtain ⟨keeps, hx⟩ := hx s start
  exact ⟨keeps, ended_cons_iff.mpr (.inl ⟨start, .fits h, hx⟩)⟩

theorem writeAll (story : Story) (sink : Sink (StateM σ)) (log : Array Log.Event) :
    story.CarriesOut sink (Story.writeAll sink { story.closed with log }) (story.tasks sink.base) := by
  have htasks : story.tasks sink.base = fun keeps =>
      story.segmentTasks sink.base .main ++ (story.segmentTasks sink.base .data ++
        (story.segmentTasks sink.base .strings ++
          if keeps then [.question true] else story.segmentTasks sink.base .frequentWords)) := by
    funext keeps
    cases keeps <;> simp [tasks, Segment.order]
  rw [htasks]
  refine (writeSegment .main (story.closed.mainStatements sink.base)).bind ?_
  cases hdata : story.closed.dataStatements with
  | error error =>
    have hdata' : dataStatements { story.closed with log } = .error error := hdata
    simp only [hdata']
    exact data_of_error (firstMisfit_closed.mp (firstMisfit_of_dataStatements hdata)) _ _
  | ok data =>
    have hdata' : dataStatements { story.closed with log } = .ok data := hdata
    have htext : story.segmentText sink.base .data = sourceText data := by rw [segmentText, hdata]
    simp only [hdata', segmentTasks, htext]
    refine data_of_ok (tablesFit_closed.mp (tablesFit_of_dataStatements hdata)) ?_
    refine (writeSegment .data data).bind ?_
    exact (writeSegment .strings story.closed.stringStatements).bind frequentWords

end CarriesOut

/-- What becomes of a story that is written, where `keeps` is the answer of the sink to whether frequent
words are there already, if it is asked. -/
structure WrittenInOrder (story : Story) (sink : Sink (StateM σ)) (texts : σ → SegmentTexts) (start : σ)
    (keeps : Bool) (result : Except EmitError Unit) (final : σ) : Prop where
  /-- The result is the first failure in the order of the tasks. -/
  ended : story.Ended sink start (story.tasks sink.base keeps) result final
  ok_iff : result = .ok () ↔ ∃ final', story.Passes sink start (story.tasks sink.base keeps) final'
  /-- The segments that were opened are the first ones, and all but the last of them are complete. -/
  opened : ∃ opened, opened <+: Segment.order keeps ∧
    (∀ segment, ((texts final).get segment).isSome ↔ segment ∈ opened) ∧
    ∀ segment ∈ opened.dropLast, (texts final).get segment = some (story.segmentText sink.base segment)
  complete : result = .ok () → ∀ segment ∈ Segment.order keeps,
    (texts final).get segment = some (story.segmentText sink.base segment)

theorem Ended.ok_iff {tasks : List Task} (h : story.Ended sink start tasks result final) :
    result = .ok () ↔ ∃ final', story.Passes sink start tasks final' := by
  constructor
  · rintro rfl
    rcases h with ⟨-, h⟩ | ⟨_, _, _, _, _, _, _, _, h⟩
    · exact ⟨final, h⟩
    · cases h
  · rintro ⟨final', hpasses⟩
    exact hpasses.result_eq_ok h

/-! ## Finishing -/

/-- Finishing the story comes to an end: the routines that are still open can be flushed, as they can
where their aliases do not go in a circle (`Buffer.Acyclic.flushEnds`). -/
def FinishEnds (story : Story) : Prop :=
  ∀ routine ∈ story.routines, routine.isFinished = false → routine.fullBuffer.FlushEnds

/-- Finishing the story returns the result and leaves the sink in the state. -/
structure Finishes (story : Story) (sink : Sink (StateM σ)) (start : σ) (result : Except EmitError Unit)
    (final : σ) : Prop where
  ends : story.FinishEnds
  result_eq : (((finish sink).run.run story).run start).1.1 = result
  final_eq : (((finish sink).run.run story).run start).2 = final

/-- Where aliases come to an end, finishing returns. Whatever fails, the segments are written in order, with
texts that depend on the story alone, up to the first failure. -/
theorem writtenInOrder_finish (hsink : sink.Holds texts) (story : Story) (hends : story.FinishEnds)
    (hstart : texts start = {}) :
    ∃ keeps result final, story.Finishes sink start result final ∧
      story.WrittenInOrder sink texts start keeps result final := by
  obtain ⟨log, hrun⟩ := run_finish (run_finishRoutines story) sink start
  obtain ⟨keeps, hended⟩ := CarriesOut.writeAll story sink log { story.closed with log } start
  refine ⟨keeps, _, _, ⟨hends, rfl, rfl⟩, ?_⟩
  rw [hrun]
  have hlast : ∀ task ∈ if keeps then [Task.question true] else [], task.IsPreparation := by
    cases keeps <;> simp [Task.IsPreparation]
  obtain ⟨⟨opened, hfirst, hholds⟩, hcomplete⟩ :=
    hended.holdsPrefix hsink (Segment.nodup_order keeps) hlast
  refine ⟨hended, hended.ok_iff, ⟨opened, hfirst, fun segment => ⟨fun hsome => ?_, ?_⟩,
    hholds.complete⟩, hcomplete⟩
  · by_contra hmem
    rw [hholds.others segment hmem, hstart] at hsome
    cases segment <;> cases hsome
  · exact hholds.present segment

/-- A routine that jumps to an alias. -/
def aliasCalls : List Call :=
  [.define (.routine "GO" true false), .routine ⟨0⟩ (.mark (.point 0)), .routine ⟨0⟩ (.mark (.point 1)),
    .routine ⟨0⟩ (.emit .newLine), .routine ⟨0⟩ (.emit (.jump (.point 1)))]

/-- Beside the routine there is a lamp with an empty table as a property, and no file for strings can be
created. -/
theorem writtenInOrder_emptyTable :
    ∃ start, Story.new 3 false = .ok start ∧
      ∃ lamp : Object,
        lamp = { name := "LAMP", properties := #[(31, .table (.new "SIZE" true))] } ∧
        ∃ story, story = { start.after aliasCalls with objects := #[lamp] } ∧ story.FinishEnds ∧
          story.FirstMisfit (.propertyLength "LAMP" 31 0 8) ∧
          ∃ sink, sink = Sink.memory "game" false
              (fun segment _ => if segment = .strings then some .notFound else none) ∧
            sink.Holds id ∧
            ∃ keeps result final, story.Finishes sink {} result final ∧
              story.WrittenInOrder sink id {} keeps result final := by
  obtain ⟨start, hstart, hlength, hroutine⟩ : ∃ start, Story.new 3 false = .ok start ∧
      (start.after aliasCalls).version.maxPropertyLength = 8 ∧ (start.after aliasCalls).FinishEnds := by
    refine ⟨_, rfl, by decide +kernel, ?_⟩
    unfold FinishEnds Buffer.FlushEnds
    decide +kernel
  refine ⟨start, hstart, _, rfl, ?_⟩
  generalize start.after aliasCalls = story at hlength hroutine ⊢
  refine ⟨_, rfl, hroutine, ?_, _, rfl, Sink.memory_holds _ _ _,
    writtenInOrder_finish (Sink.memory_holds _ _ _) _ hroutine rfl⟩
  refine ⟨[], _, [], 31, _, rfl, nofun, ⟨List.mem_singleton.mpr rfl, ?_, ?_⟩, hlength ▸ rfl⟩
  · exact fun hfits => Nat.not_succ_le_zero 0 hfits.1
  · intro number table hmem _
    cases List.mem_singleton.mp hmem
    exact Nat.le_refl 31

/-- Labels that are marked at two places each, so that each is an alias of the other. -/
def circleCalls : List Call :=
  [.define (.routine "GO" true false), .routine ⟨0⟩ (.mark (.point 0)), .routine ⟨0⟩ (.mark (.point 1)),
    .routine ⟨0⟩ (.emit .newLine), .routine ⟨0⟩ (.mark (.point 1)), .routine ⟨0⟩ (.mark (.point 0)),
    .routine ⟨0⟩ (.emit (.jump (.point 0)))]

/-- Finishing the routine follows the two aliases forever, where nothing fails and nothing is amiss. -/
theorem not_finishes_circle :
    ∃ start, Story.new 3 false = .ok start ∧ (start.after circleCalls).TablesFit ∧
      ∀ result final, ¬(start.after circleCalls).Finishes (Sink.memory "game" false fun _ _ => none) {}
        result final := by
  obtain ⟨start, hstart, hobjects, routine, hmem, hopen, line, hline, htarget, haliases⟩ :
      ∃ start, Story.new 3 false = .ok start ∧ (start.after circleCalls).objects.size = 0 ∧
        ∃ routine ∈ (start.after circleCalls).routines, routine.isFinished = false ∧
          ∃ line ∈ routine.fullBuffer.lines.toList, line.target = some (.point 0) ∧
            routine.fullBuffer.aliases = [(.point 0, .point 1), (.point 1, .point 0)] :=
    ⟨_, rfl, by decide +kernel, by decide +kernel⟩
  refine ⟨start, hstart, ?_, fun result final hfinishes => ?_⟩
  · intro object hobject
    rw [Array.eq_empty_of_size_eq_zero hobjects] at hobject
    exact absurd hobject (Array.not_mem_empty object)
  · have hresolved := hfinishes.ends routine hmem hopen line hline (.point 0) htarget
    have hfirst : routine.fullBuffer.StandsFor (.point 0) (.point 1) := by
      rw [Buffer.StandsFor, haliases]
      rfl
    have hsecond : routine.fullBuffer.StandsFor (.point 1) (.point 0) := by
      rw [Buffer.StandsFor, haliases]
      rfl
    rw [Buffer.resolve?_eq_none_of_circle (.tail (.single hfirst) hsecond)] at hresolved
    cases hresolved

end Story

end StoryAsm
