import StoryAsm.Proofs.Story.Routine

/-!
# Finished stories

What a story is when its routines are finished (`FinishedBelow`), and what a sink in memory holds when
a story was written to it.
-/

namespace StoryAsm.Story

/-! ## Routines -/

/-- The routines before `count` are finished, and all else is as it was, but for the debug registry and
the log. -/
structure FinishedBelow (count : Nat) (s s' : Story) : Prop where
  same : ∃ routines registry log, s' = { s with routines, registry, log }
  finished : ∀ index < count, ∃ place,
    s'.routines[index]? = (s.routines[index]?).map (Routine.finish · place)
  rest : ∀ index, count ≤ index → s'.routines[index]? = s.routines[index]?

theorem FinishedBelow.finishRoutine {count : Nat} {s s' : Story} (h : FinishedBelow count s s')
    {routine : Routine} (hget : s'.routines[count]? = some routine)
    (hopen : routine.isFinished = false) :
    Decides (finishRoutine ⟨count⟩) s' True fun _ s'' => FinishedBelow (count + 1) s s'' := by
  refine ⟨fun _ => ⟨_, _, run_finishRoutine hget hopen, ?_⟩, fun _ => trivial⟩
  constructor
  · obtain ⟨routines, registry', log, rfl⟩ := h.same
    exact ⟨_, _, _, rfl⟩
  · intro index hlt
    rw [Array.getElem?_modify]
    rcases Nat.lt_succ_iff_lt_or_eq.mp hlt with hlt | rfl
    · rw [if_neg (by omega)]
      exact h.finished index hlt
    · rw [if_pos rfl, h.rest index (Nat.le_refl _)]
      exact ⟨_, rfl⟩
  · intro index hle
    rw [Array.getElem?_modify, if_neg (by omega)]
    exact h.rest index (by omega)

/-- Every routine of a finished story was finished. -/
theorem FinishedBelow.getElem? {s s' : Story} (h : FinishedBelow s.routines.size s s') (index : Nat) :
    ∃ place, s'.routines[index]? = (s.routines[index]?).map (Routine.finish · place) := by
  by_cases hlt : index < s.routines.size
  · exact h.finished index hlt
  · refine ⟨none, ?_⟩
    rw [h.rest index (by omega), Array.getElem?_eq_none (by omega)]
    rfl

theorem FinishedBelow.map_name {s s' : Story} (h : FinishedBelow s.routines.size s s') :
    s'.routines.toList.map (·.name) = s.routines.toList.map (·.name) := by
  apply List.ext_getElem?
  intro index
  obtain ⟨place, hget⟩ := h.getElem? index
  simp only [List.getElem?_map, Array.getElem?_toList, hget, Option.map_map]
  rfl

theorem FinishedBelow.exists_finish {s s' : Story} (h : FinishedBelow s.routines.size s s')
    {routine' : Routine} (hmem : routine' ∈ s'.routines.toList) :
    ∃ (routine : Routine) (place : _), routine' = routine.finish place := by
  obtain ⟨index, hindex⟩ := List.mem_iff_getElem?.mp hmem
  obtain ⟨place, hget⟩ := h.getElem? index
  rw [Array.getElem?_toList, hget] at hindex
  obtain ⟨routine, -, rfl⟩ := Option.map_eq_some_iff.mp hindex
  exact ⟨routine, place, rfl⟩

theorem decides_finishRoutines {s : Story}
    (hopen : ∀ routine ∈ s.routines, routine.isFinished = false) :
    Decides finishRoutines s True fun _ s' => FinishedBelow s.routines.size s s' := by
  refine .get_bind ?_
  have hloop : Decides (forIn (List.range s.routines.size) PUnit.unit fun index _ => do
      if ((← get).routines[index]?).any (!·.isFinished) then
        finishRoutine ⟨index⟩
        return ForInStep.yield PUnit.unit
      else
        return ForInStep.yield PUnit.unit) s True fun _ s' => FinishedBelow s.routines.size s s' := by
    refine (Decides.forIn (I := fun before s' => FinishedBelow before.length s s')
      (C := fun _ _ => True) ?_ ?_).mono (by simp) fun _ _ s' h => ?_
    · intro before index after hsplit s' h
      -- The routine is the one whose turn it is, and it is still open.
      have hturn : (List.range s.routines.size)[before.length]? = some index := by
        rw [hsplit, List.getElem?_append_right (Nat.le_refl _), Nat.sub_self]
        rfl
      obtain ⟨hlt, rfl⟩ : before.length < s.routines.size ∧ before.length = index := by
        simpa [List.getElem?_eq_some_iff] using hturn
      have hget : s'.routines[before.length]? = some s.routines[before.length] := by
        rw [h.rest _ (Nat.le_refl _), Array.getElem?_eq_getElem hlt]
      have hstill := hopen s.routines[before.length] (Array.getElem_mem hlt)
      refine .get_bind ?_
      simp only [hget, Option.any_some, hstill, Bool.not_false, ↓reduceIte]
      refine (h.finishRoutine hget hstill).bind_pure fun _ s'' h' => ⟨rfl, ?_⟩
      rwa [List.length_append, List.length_singleton]
    · exact ⟨⟨_, _, _, rfl⟩, fun _ h => absurd h (Nat.not_lt_zero _), fun _ _ => rfl⟩
    · rwa [List.length_range] at h
  exact hloop.bind_pure fun _ _ h => h

/-! ## Writing -/

/-- What is done when the text of a segment is written. -/
def closeSegment {m : Type → Type} [Monad m] (sink : Sink m) (segment : Segment) (text : String) :
    StoryT m Unit := do
  orDisk (sink.flush segment)
  report (.wrote (segment.fileName sink.base) text.utf8ByteSize)

/-- An empty text needs no writing. -/
theorem writeSegment_eq {m : Type → Type} [Monad m] (sink : Sink m) (segment : Segment)
    (statements : List Statement) :
    writeSegment sink segment statements = (do
      orDisk (sink.create segment)
      if sourceText statements = "" then closeSegment sink segment (sourceText statements)
      else do
        orDisk (sink.write segment (sourceText statements))
        closeSegment sink segment (sourceText statements)) := by
  unfold writeSegment
  by_cases htext : sourceText statements = ""
  · simp only [htext, ne_eq, not_true_eq_false, ↓reduceIte]
    rfl
  · simp only [htext, ne_eq, not_false_eq_true, ↓reduceIte]
    rfl

/-- The operation succeeds, with the story and the texts that it leaves behind. -/
def Writes {α : Type} (x : StoryT (StateM SegmentTexts) α) (s : Story) (t : SegmentTexts) (a : α)
    (s' : Story) (t' : SegmentTexts) : Prop :=
  (x.run.run s).run t = ((.ok a, s'), t')

section
variable {σ α β : Type}

theorem run_bind (x : StoryT (StateM σ) α) (f : α → StoryT (StateM σ) β) (s : Story) (t : σ) :
    ((x >>= f).run.run s).run t =
      match (x.run.run s).run t with
      | ((.ok a, m), u) => ((f a).run.run m).run u
      | ((.error e, m), u) => ((.error e, m), u) := by
  simp only [ExceptT.run_bind, StateT.run_bind]
  rcases (x.run.run s).run t with ⟨⟨_ | _, _⟩, _⟩ <;> rfl

theorem run_get_bind (f : Story → StoryT (StateM σ) β) (s : Story) (t : σ) :
    ((get >>= f).run.run s).run t = ((f s).run.run s).run t := rfl

theorem run_report_bind (event : Log.Event) (f : Unit → StoryT (StateM σ) β) (s : Story) (t : σ) :
    ((report event >>= f).run.run s).run t =
      ((f ()).run.run { s with log := s.log.push event }).run t := rfl

theorem run_lift_bind (action : StateM σ α) (f : α → StoryT (StateM σ) β) (s : Story) (t : σ) :
    (((liftM action : StoryT (StateM σ) α) >>= f).run.run s).run t =
      ((f (action.run t).1).run.run s).run (action.run t).2 := rfl

theorem run_orDisk (action : StateM σ (Except DiskError Unit)) (s : Story) (t : σ) :
    ((orDisk action : StoryT (StateM σ) Unit).run.run s).run t =
      match action.run t with
      | (.ok (), u) => ((.ok (), s), u)
      | (.error error, u) => ((.error (.disk error), s), u) := by
  rw [orDisk, run_lift_bind]
  rcases action.run t with ⟨_ | _, _⟩ <;> rfl

end

variable {α β : Type} {s s' : Story} {t t' : SegmentTexts}

theorem writes_bind {x : StoryT (StateM SegmentTexts) α} {f : α → StoryT (StateM SegmentTexts) β}
    {b : β} :
    Writes (x >>= f) s t b s' t' ↔ ∃ a m u, Writes x s t a m u ∧ Writes (f a) m u b s' t' := by
  unfold Writes
  rw [run_bind]
  rcases (x.run.run s).run t with ⟨⟨error | a, m⟩, u⟩
  · constructor
    · intro h
      cases h
    · rintro ⟨a, m, u, h, -⟩
      cases h
  · constructor
    · intro h
      exact ⟨a, m, u, rfl, h⟩
    · rintro ⟨a, m, u, h, h'⟩
      cases h
      exact h'

theorem writes_lift {operation : StoryM α} {a : α} :
    Writes (lift operation) s t a s' t' ↔ Yields operation s a s' ∧ t' = t := by
  show (operation.run.run s, t) = _ ↔ operation.run.run s = _ ∧ _
  constructor
  · intro h
    exact ⟨congrArg Prod.fst h, (congrArg Prod.snd h).symm⟩
  · rintro ⟨h, rfl⟩
    rw [h]

theorem writes_report {event : Log.Event} {a : Unit} :
    Writes (report event) s t a s' t' ↔ s' = { s with log := s.log.push event } ∧ t' = t := by
  constructor
  · intro h
    cases h
    exact ⟨rfl, rfl⟩
  · rintro ⟨rfl, rfl⟩
    rfl

theorem writes_orDisk {fault : Option DiskError} {action : StateM SegmentTexts Unit} {a : Unit} :
    Writes (orDisk (Sink.orFault fault action)) s t a s' t' ↔
      fault = none ∧ s' = s ∧ t' = (action.run t).2 := by
  cases fault with
  | some error =>
    refine ⟨fun h => ?_, fun h => ?_⟩
    · cases h
    · cases h.1
  | none =>
    constructor
    · intro h
      cases h
      exact ⟨rfl, rfl, rfl⟩
    · rintro ⟨-, rfl, rfl⟩
      rfl

variable {base : String} {keeps : Bool} {fault : Segment → Stage → Option DiskError}

theorem set_set (t : SegmentTexts) (segment : Segment) (text text' : String) :
    (t.set segment text).set segment text' = t.set segment text' := by
  cases segment <;> rfl

theorem get_set_self (t : SegmentTexts) (segment : Segment) (text : String) :
    (t.set segment text).get segment = some text := by
  cases segment <;> rfl

/-- The end of writing a segment changes no text. -/
theorem writes_flush {segment : Segment} {event : Log.Event} {a : Unit}
    (h : Writes (do
      orDisk ((Sink.memory base keeps fault).flush segment)
      report event) s t a s' t') : (∃ log, s' = { s with log }) ∧ t' = t := by
  obtain ⟨_, m, u, hflush, hreport⟩ := writes_bind.mp h
  obtain ⟨-, rfl, rfl⟩ := writes_orDisk.mp hflush
  obtain ⟨rfl, rfl⟩ := writes_report.mp hreport
  exact ⟨⟨_, rfl⟩, rfl⟩

/-- A segment that was written holds its text. -/
theorem writes_writeSegment {segment : Segment} {statements : List Statement} {a : Unit}
    (h : Writes (writeSegment (.memory base keeps fault) segment statements) s t a s' t') :
    (∃ log, s' = { s with log }) ∧ t' = t.set segment (sourceText statements) := by
  obtain ⟨_, m, u, hcreate, hrest⟩ := writes_bind.mp h
  obtain ⟨-, rfl, rfl⟩ := writes_orDisk.mp hcreate
  by_cases htext : sourceText statements = ""
  · rw [htext] at hrest ⊢
    exact writes_flush hrest
  · simp only [ne_eq, htext, not_false_eq_true, ↓reduceIte] at hrest
    obtain ⟨_, m, u, hwrite, hrest⟩ := writes_bind.mp hrest
    obtain ⟨-, rfl, rfl⟩ := writes_orDisk.mp hwrite
    obtain ⟨hlog, rfl⟩ := writes_flush hrest
    refine ⟨hlog, ?_⟩
    show ((t.set segment "").set segment (((t.set segment "").get segment).getD "" ++ _)) = _
    rw [get_set_self, set_set, Option.getD_some, String.empty_append]

/-- The texts of all segments. -/
def allTexts (story : Story) (base : String) (keeps : Bool) (data : List Statement) : SegmentTexts where
  main := some (sourceText (story.mainStatements base))
  data := some (sourceText data)
  strings := some (sourceText story.stringStatements)
  frequentWords := if keeps then none else some (sourceText frequentStatements)

/-- Write all segments of a story whose routines are finished. -/
def writeAll {m : Type → Type} [Monad m] (sink : Sink m) (story : Story) : StoryT m Unit := do
  writeSegment sink .main (story.mainStatements sink.base)
  match story.dataStatements with
  | .error error => throw error
  | .ok statements => writeSegment sink .data statements
  writeSegment sink .strings story.stringStatements
  if ← (sink.keepsFrequentWords : m Bool) then
    report (.kept (Segment.frequentWords.fileName sink.base))
  else
    writeSegment sink .frequentWords frequentStatements

theorem writes_writeAll {a : Unit} (h : Writes (writeAll (.memory base keeps fault) s) s {} a s' t') :
    (∃ log, s' = { s with log }) ∧ ∃ data, s.dataStatements = .ok data ∧
      t' = s.allTexts base keeps data := by
  obtain ⟨_, m, u, hmain, h⟩ := writes_bind.mp h
  obtain ⟨⟨log, rfl⟩, rfl⟩ := writes_writeSegment hmain
  cases hdata : s.dataStatements with
  | error error =>
    simp only [hdata] at h
    cases h
  | ok data =>
    simp only [hdata] at h
    obtain ⟨_, m, u, hdatas, h⟩ := writes_bind.mp h
    obtain ⟨⟨log, rfl⟩, rfl⟩ := writes_writeSegment hdatas
    obtain ⟨_, m, u, hstrings, h⟩ := writes_bind.mp h
    obtain ⟨⟨log, rfl⟩, rfl⟩ := writes_writeSegment hstrings
    cases keeps with
    | true =>
      obtain ⟨rfl, rfl⟩ := writes_report.mp h
      exact ⟨⟨_, rfl⟩, data, rfl, rfl⟩
    | false =>
      obtain ⟨⟨log, rfl⟩, rfl⟩ := writes_writeSegment h
      exact ⟨⟨_, rfl⟩, data, rfl, rfl⟩

theorem FinishedBelow.log {count : Nat} {s s' : Story} (h : FinishedBelow count s s')
    (log : Array Log.Event) : FinishedBelow count s { s' with log } := by
  obtain ⟨⟨routines, registry, _, rfl⟩, finished, rest⟩ := h
  exact ⟨⟨_, _, _, rfl⟩, finished, rest⟩

/-- Finishing a story finishes its routines and writes all segments. -/
theorem run_finish {σ : Type} {m : Story} (hy : Yields finishRoutines s () m) (sink : Sink (StateM σ))
    (t : σ) :
    ∃ log, ((finish sink).run.run s).run t =
      ((writeAll sink { m with log }).run.run { m with log }).run t := by
  have hlift : ((lift finishRoutines : StoryT (StateM σ) Unit).run.run s).run t = ((.ok (), m), t) :=
    congrArg (·, t) hy
  rw [finish, run_bind, hlift]
  simp only
  rw [run_get_bind]
  by_cases hentry : m.entryPoint.isNone = true
  · refine ⟨m.log.push .noEntryPoint, ?_⟩
    simp only [hentry, ↓reduceIte]
    rw [run_report_bind, run_get_bind]
    rfl
  · refine ⟨m.log, ?_⟩
    simp only [hentry, Bool.false_eq_true, ↓reduceIte]
    rw [run_get_bind]
    rfl

/-- What a sink in memory holds when a story was written to it: the texts of the story as it is when its
routines are finished. -/
theorem exists_of_writes_finish {a : Unit}
    (h : Writes (finish (.memory base keeps fault)) s {} a s' t') :
    ∃ m, Yields finishRoutines s () m ∧ (∃ log, s' = { m with log }) ∧
      ∃ data, s'.dataStatements = .ok data ∧ t' = s'.allTexts base keeps data := by
  obtain ⟨_, m, _, hroutines, -⟩ := writes_bind.mp h
  obtain ⟨hy, -⟩ := writes_lift.mp hroutines
  obtain ⟨log, hrun⟩ := run_finish hy (.memory base keeps fault) {}
  obtain ⟨⟨log', rfl⟩, hdata⟩ := writes_writeAll (hrun.symm.trans h)
  exact ⟨m, hy, ⟨log', rfl⟩, hdata⟩

/-- What a sink in memory holds when a story without finished routines was written to it. -/
theorem writes_finish {a : Unit} (hopen : ∀ routine ∈ s.routines, routine.isFinished = false)
    (h : Writes (finish (.memory base keeps fault)) s {} a s' t') :
    FinishedBelow s.routines.size s s' ∧ ∃ data, s'.dataStatements = .ok data ∧
      t' = s'.allTexts base keeps data := by
  obtain ⟨m, hy, ⟨log, rfl⟩, hdata⟩ := exists_of_writes_finish h
  exact ⟨((decides_finishRoutines hopen).post_of_yields hy).log log, hdata⟩

/-! ## Sinks without faults -/

theorem exists_writes_bind {x : StoryT (StateM SegmentTexts) α} {f : α → StoryT (StateM SegmentTexts) β}
    (hx : ∃ a m u, Writes x s t a m u)
    (hf : ∀ a m u, Writes x s t a m u → ∃ b s' t', Writes (f a) m u b s' t') :
    ∃ b s' t', Writes (x >>= f) s t b s' t' := by
  obtain ⟨a, m, u, h⟩ := hx
  obtain ⟨b, s', t', h'⟩ := hf a m u h
  exact ⟨b, s', t', writes_bind.mpr ⟨a, m, u, h, h'⟩⟩

theorem exists_writes_orDisk (action : StateM SegmentTexts Unit) :
    ∃ a s' t', Writes (orDisk (Sink.orFault none action)) s t a s' t' :=
  ⟨(), _, _, writes_orDisk.mpr ⟨rfl, rfl, rfl⟩⟩

theorem exists_writes_writeSegment (segment : Segment) (statements : List Statement) :
    ∃ a s' t',
      Writes (writeSegment (.memory base keeps fun _ _ => none) segment statements) s t a s' t' := by
  have hclose : ∀ m u, ∃ a s' t', Writes
      (closeSegment (.memory base keeps fun _ _ => none) segment (sourceText statements)) m u a s' t' :=
    fun m u => exists_writes_bind (exists_writes_orDisk _) fun _ _ _ _ => ⟨_, _, _, rfl⟩
  rw [writeSegment_eq]
  refine exists_writes_bind (exists_writes_orDisk _) fun _ m u _ => ?_
  split
  · exact hclose m u
  · exact exists_writes_bind (exists_writes_orDisk _) fun _ m u _ => hclose m u

theorem exists_writes_writeAll {data : List Statement} (hdata : s.dataStatements = .ok data) :
    ∃ a s' t', Writes (writeAll (.memory base keeps fun _ _ => none) s) s t a s' t' := by
  refine exists_writes_bind (exists_writes_writeSegment _ _) fun _ m u _ => ?_
  simp only [hdata]
  refine exists_writes_bind (exists_writes_writeSegment _ _) fun _ m u _ => ?_
  refine exists_writes_bind (exists_writes_writeSegment _ _) fun _ m u _ => ?_
  refine exists_writes_bind ⟨keeps, m, u, rfl⟩ fun kept m u _ => ?_
  cases kept with
  | true => exact ⟨_, _, _, rfl⟩
  | false => exact exists_writes_writeSegment _ _

/-- A story whose property tables are in order can be written. -/
theorem exists_writes_finish (hopen : ∀ routine ∈ s.routines, routine.isFinished = false)
    {tables : List Statement} (htables : s.propertyTables = .ok tables) :
    ∃ a s' t', Writes (finish (.memory base keeps fun _ _ => none)) s {} a s' t' := by
  obtain ⟨_, m, hy, hm⟩ := (decides_finishRoutines hopen).1 trivial
  have hdata : ∀ log, ∃ data, Story.dataStatements { m with log } = .ok data := by
    obtain ⟨routines, registry, _, rfl⟩ := hm.same
    intro log
    have htables' : Story.propertyTables { s with routines, registry, log } = .ok tables := htables
    unfold dataStatements
    rw [htables']
    exact ⟨_, rfl⟩
  obtain ⟨log, hrun⟩ := run_finish hy (.memory base keeps fun _ _ => none) {}
  obtain ⟨data, hdata⟩ := hdata log
  obtain ⟨a, s', t', h⟩ := exists_writes_writeAll hdata
  exact ⟨a, s', t', hrun.trans h⟩

end StoryAsm.Story
