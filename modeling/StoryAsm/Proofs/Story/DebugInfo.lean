import StoryAsm.Proofs.Story.Plain
import StoryAsm.Proofs.World.Fit

/-!
# Debug information leaves the code alone

The same calls build two stories, one for which debug information is wanted and one for which it is not.
What the calls return, the code that they make and the segments that are written differ by the debug
information alone (`Story.debugAside_after`).
-/

namespace StoryAsm.Story

variable {story : Story}

/-! ## Statements -/

theorem mainStatements_plain (story : Story) (base : String) :
    story.plain.mainStatements base = (story.mainStatements base).filterMap (·.plain?) := by
  have hbody : ∀ routine : Routine,
      routine.plain.body.getD [] = (routine.body.getD []).filterMap (·.plain?) := by
    intro routine
    rw [Routine.plain]
    cases routine.body <;> rfl
  have hroutines : story.plain.routines.toList.flatMap (fun routine => routine.body.getD []) =
      (story.routines.toList.flatMap fun routine => routine.body.getD []).filterMap (·.plain?) := by
    rw [List.filterMap_flatMap, plain, Array.toList_map, List.flatMap_map]
    simp only [hbody]
  have hheader : (if story.version.hasHeaderBlock then headerStatements story.version
      else []).filterMap (·.plain?) =
        if story.version.hasHeaderBlock then headerStatements story.version else [] := by
    split <;> rfl
  simp only [mainStatements, List.filterMap_append, hheader, ← hroutines]
  rfl

/-- What debug information adds to the data segment. -/
def debugEnd (story : Story) : List Statement :=
  .blank :: story.debugRecords.map .debug

theorem dataStatements_plain (hdebug : story.wantsDebug = true) :
    story.dataStatements = (· ++ story.debugEnd) <$> story.plain.dataStatements := by
  have htables : story.plain.propertyTables = story.propertyTables := rfl
  rw [dataStatements, dataStatements, htables, if_pos hdebug]
  cases story.propertyTables with
  | error error => rfl
  | ok tables => exact congrArg Except.ok (by simp only [List.append_assoc]; rfl)

theorem Call.wantsDebug_next (call : Call) (story : Story) :
    (call.next story).wantsDebug = story.wantsDebug := by
  cases h : call.refusal story with
  | some error =>
    obtain ⟨registry, hleft⟩ := call.exists_left story
    rw [next_of_refusal_eq_some h, hleft]
  | none =>
    rw [next_of_refusal_eq_none h]
    cases call with
    | define definition => cases definition <;> rfl
    | sequencePoint id span | finishRoutine id | registry call =>
      simp only [changed]
      split <;> rfl
    | _ => rfl

theorem wantsDebug_after (calls : List Call) (story : Story) :
    (story.after calls).wantsDebug = story.wantsDebug :=
  after_induction (P := fun story' => story'.wantsDebug = story.wantsDebug)
    (fun _ call h => (call.wantsDebug_next _).trans h) calls rfl

/-! ## Writing twice -/

variable {base : String} {keeps : Bool} {fault : Segment → Stage → Option DiskError}

/-- Where writing a segment fails, with what is in the segment then. -/
def writeFault (fault : Segment → Stage → Option DiskError) (segment : Segment) (text : String) :
    Option (DiskError × Option String) :=
  match fault segment .create with
  | some error => some (error, none)
  | none =>
    match if text = "" then none else fault segment .write with
    | some error => some (error, some "")
    | none => (fault segment .flush).map fun error => (error, some text)

theorem run_orDisk_bind {α : Type} (fault : Option DiskError) (action : StateM SegmentTexts Unit)
    (f : Unit → StoryT (StateM SegmentTexts) α) (s : Story) (t : SegmentTexts) :
    ((orDisk (Sink.orFault fault action) >>= f).run.run s).run t =
      match fault with
      | some error => ((.error (.disk error), s), t)
      | none => ((f ()).run.run s).run (action.run t).2 := by
  cases fault <;> rfl

theorem run_writeSegment (segment : Segment) (statements : List Statement) (s : Story)
    (t : SegmentTexts) :
    ((writeSegment (.memory base keeps fault) segment statements).run.run s).run t =
      match writeFault fault segment (sourceText statements) with
      | some (error, none) => ((.error (.disk error), s), t)
      | some (error, some text) => ((.error (.disk error), s), t.set segment text)
      | none =>
        ((.ok (), { s with
          log := s.log.push (.wrote (segment.fileName base) (sourceText statements).utf8ByteSize) }),
          t.set segment (sourceText statements)) := by
  simp only [writeSegment, Sink.memory, writeFault]
  rw [run_orDisk_bind]
  cases fault segment .create with
  | some error => rfl
  | none =>
    by_cases htext : sourceText statements = ""
    · simp only [htext, ne_eq, not_true_eq_false, ↓reduceIte]
      rw [run_orDisk_bind]
      cases fault segment .flush <;> rfl
    · simp only [htext, ne_eq, not_false_eq_true, ↓reduceIte]
      rw [run_orDisk_bind]
      cases fault segment .write with
      | some error => rfl
      | none =>
        -- The segment was empty, so what is added to it is all that it holds.
        have hset : (t.set segment "").set segment
            (((t.set segment "").get segment).getD "" ++ sourceText statements) =
              t.set segment (sourceText statements) := by
          rw [get_set_self, set_set, Option.getD_some, String.empty_append]
        simp only
        rw [run_orDisk_bind]
        cases fault segment .flush with
        | some error => exact congrArg (Prod.mk _) hset
        | none => exact congrArg (Prod.mk _) hset

/-- Two operations fail alike, and `R` holds of the states that they leave the sink in if it held
before. -/
def Alongside {σ α : Type} (R : σ → σ → Prop) (x y : StoryT (StateM σ) α) : Prop :=
  ∀ s s' t t', R t t' → ((x.run.run s).run t).1.1 = ((y.run.run s').run t').1.1 ∧
    R ((x.run.run s).run t).2 ((y.run.run s').run t').2

namespace Alongside

variable {σ α β : Type} {R : σ → σ → Prop}

theorem bind {x y : StoryT (StateM σ) α} {f g : α → StoryT (StateM σ) β}
    (h : Alongside R x y) (hrest : ∀ a, Alongside R (f a) (g a)) : Alongside R (x >>= f) (y >>= g) := by
  intro s s' t t' hR
  rw [run_bind, run_bind]
  obtain ⟨hresult, htexts⟩ := h s s' t t' hR
  generalize (x.run.run s).run t = p at hresult htexts ⊢
  generalize (y.run.run s').run t' = q at hresult htexts ⊢
  obtain ⟨⟨result, m⟩, u⟩ := p
  obtain ⟨⟨result', m'⟩, u'⟩ := q
  obtain rfl : result = result' := hresult
  cases result with
  | error error => exact ⟨rfl, htexts⟩
  | ok a => exact hrest a m m' u u' htexts

theorem report (event event' : Log.Event) :
    Alongside R (Story.report event) (Story.report event') := fun _ _ _ _ hR => ⟨rfl, hR⟩

theorem throw (error : EmitError) :
    Alongside R (MonadExcept.throw error : StoryT (StateM σ) α) (MonadExcept.throw error) :=
  fun _ _ _ _ hR => ⟨rfl, hR⟩

theorem writeSegment {R : SegmentTexts → SegmentTexts → Prop} {segment : Segment}
    {statements statements' : List Statement}
    (hempty : sourceText statements = "" ↔ sourceText statements' = "")
    (hcreated : ∀ {t t'}, R t t' → R (t.set segment "") (t'.set segment ""))
    (hwritten : ∀ {t t'}, R t t' →
      R (t.set segment (sourceText statements)) (t'.set segment (sourceText statements'))) :
    Alongside R (Story.writeSegment (.memory base keeps fault) segment statements)
      (Story.writeSegment (.memory base keeps fault) segment statements') := by
  intro s s' t t' hR
  rw [run_writeSegment, run_writeSegment, writeFault, writeFault]
  cases fault segment .create with
  | some error => exact ⟨rfl, hR⟩
  | none =>
    simp only [hempty]
    cases (if sourceText statements' = "" then none else fault segment .write) with
    | some error => exact ⟨rfl, hcreated hR⟩
    | none =>
      cases fault segment .flush with
      | some error => exact ⟨rfl, hwritten hR⟩
      | none => exact ⟨rfl, hwritten hR⟩

end Alongside

/-! ## The segments with and without debug information -/

/-- How one segment came out in two runs: it is missing, it was left empty, or it was written and `R`
holds of the two texts. -/
inductive Beside (R : String → String → Prop) : Option String → Option String → Prop where
  | missing : Beside R none none
  | empty : Beside R (some "") (some "")
  | written {text text' : String} : R text text' → Beside R (some text) (some text')

/-- The parts of the main segment. -/
def mainParts (story : Story) (base : String) : List TextPart :=
  (story.mainStatements base).flatMap (·.parts)

/-- The first text is the main segment, and the second is what is left if the directives in it are
deleted. -/
def MainAside (story : Story) (base : String) (text text' : String) : Prop :=
  text = partsText (story.mainParts base) ∧
    text' = partsText ((story.mainParts base).filter (!·.isDebug))

/-- The first text is the second, followed by an empty line and the debug records. -/
def DataAside (story : Story) (text text' : String) : Prop :=
  text = text' ++ sourceText story.debugEnd

/-- The texts of the segments in two runs, where debug information is wanted in the first. -/
structure TextsAside (story : Story) (base : String) (texts texts' : SegmentTexts) : Prop where
  main : Beside (story.MainAside base) texts.main texts'.main
  data : Beside story.DataAside texts.data texts'.data
  strings : texts.strings = texts'.strings
  frequentWords : texts.frequentWords = texts'.frequentWords

theorem mainAside_sourceText (story : Story) (base : String) :
    story.MainAside base (sourceText (story.mainStatements base))
      (sourceText (story.plain.mainStatements base)) := by
  refine ⟨(partsText_flatMap _).symm, ?_⟩
  rw [mainStatements_plain, mainParts, partsText_filter_flatMap]

theorem sourceText_ne_empty {statement : Statement} {statements : List Statement}
    (hmem : statement ∈ statements) (h : statement.text ≠ "") : sourceText statements ≠ "" := by
  obtain ⟨before, rest, rfl⟩ := List.append_of_mem hmem
  rw [sourceText_append, ← List.singleton_append, sourceText_append, sourceText_singleton]
  intro hempty
  exact h (String.append_eq_empty_iff.mp (String.append_eq_empty_iff.mp hempty).2).1

theorem sourceText_mainStatements_ne_empty (story : Story) (base : String) :
    sourceText (story.mainStatements base) ≠ "" := by
  have hmem : Statement.endOfSource ∈ story.mainStatements base := by simp [mainStatements]
  exact sourceText_ne_empty hmem (by decide)

theorem sourceText_dataStatements_ne_empty {data : List Statement}
    (hdata : story.dataStatements = .ok data) : sourceText data ≠ "" := by
  obtain ⟨tables, -, hdata⟩ := bind_eq_ok.mp hdata
  obtain rfl := Except.ok.inj hdata
  have hmem : ∀ rest, Statement.blank ∈ story.assignments ++ [.blank, .label "GLOBAL"] ++ rest := by simp
  simp only [List.append_assoc] at hmem ⊢
  exact sourceText_ne_empty (hmem _) (by decide)

/-- All segments are written with and without debug information alike. -/
theorem alongside_writeAll (hdebug : story.wantsDebug = true) :
    Alongside (story.TextsAside base) (writeAll (.memory base keeps fault) story)
      (writeAll (.memory base keeps fault) story.plain) := by
  have hmain : Alongside (story.TextsAside base)
      (writeSegment (.memory base keeps fault) .main (story.mainStatements base))
      (writeSegment (.memory base keeps fault) .main (story.plain.mainStatements base)) :=
    .writeSegment
      (iff_of_false (sourceText_mainStatements_ne_empty _ _) (sourceText_mainStatements_ne_empty _ _))
      (fun h => ⟨.empty, h.data, h.strings, h.frequentWords⟩)
      (fun h => ⟨.written (mainAside_sourceText story base), h.data, h.strings, h.frequentWords⟩)
  refine hmain.bind fun _ => ?_
  rw [dataStatements_plain hdebug]
  cases hdata : story.plain.dataStatements with
  | error error => exact .throw error
  | ok data =>
    have haside : story.DataAside (sourceText (data ++ story.debugEnd)) (sourceText data) :=
      sourceText_append data story.debugEnd
    have hne := sourceText_dataStatements_ne_empty hdata
    have hdatas : Alongside (story.TextsAside base)
        (writeSegment (.memory base keeps fault) .data (data ++ story.debugEnd))
        (writeSegment (.memory base keeps fault) .data data) := by
      refine .writeSegment (iff_of_false ?_ hne)
        (fun h => ⟨h.main, .empty, h.strings, h.frequentWords⟩)
        (fun h => ⟨h.main, .written haside, h.strings, h.frequentWords⟩)
      rw [sourceText_append]
      exact fun hempty => hne (String.append_eq_empty_iff.mp hempty).1
    refine hdatas.bind fun _ => ?_
    refine .bind (.writeSegment .rfl (fun h => ⟨h.main, h.data, rfl, h.frequentWords⟩)
      (fun h => ⟨h.main, h.data, rfl, h.frequentWords⟩)) fun _ => ?_
    refine .bind (fun _ _ _ _ h => ⟨rfl, h⟩) fun kept => ?_
    cases kept with
    | true => exact .report _ _
    | false =>
      exact .writeSegment .rfl (fun h => ⟨h.main, h.data, h.strings, rfl⟩)
        (fun h => ⟨h.main, h.data, h.strings, rfl⟩)

/-- What finishing the story returns, and what a sink in memory holds then. -/
def output (story : Story) (base : String) (keeps : Bool)
    (fault : Segment → Stage → Option DiskError) : Except EmitError Unit × SegmentTexts :=
  let run := ((finish (.memory base keeps fault)).run.run story).run {}
  (run.1.1, run.2)

theorem output_plain (hdebug : story.wantsDebug = true) (base : String) (keeps : Bool)
    (fault : Segment → Stage → Option DiskError) :
    (story.output base keeps fault).1 = (story.plain.output base keeps fault).1 ∧
      story.closed.TextsAside base (story.output base keeps fault).2
        (story.plain.output base keeps fault).2 := by
  obtain ⟨log, hrun⟩ := run_finish (run_finishRoutines story) (.memory base keeps fault) {}
  obtain ⟨log', hrun'⟩ := run_finish (run_finishRoutines story.plain) (.memory base keeps fault) {}
  have hclosed : story.closed.wantsDebug = true := (wantsDebug_after _ _).trans hdebug
  rw [output, output, hrun, hrun', plain_closed]
  exact alongside_writeAll hclosed _ _ _ _ ⟨.missing, .missing, rfl, rfl⟩

/-- What was written is the story with its routines finished. -/
theorem exists_output_eq_allTexts (h : (story.output base keeps fault).1 = .ok ()) :
    ∃ data, story.closed.dataStatements = .ok data ∧
      (story.output base keeps fault).2 = story.closed.allTexts base keeps data := by
  have hwrites : Writes (finish (.memory base keeps fault)) story {} ()
      (((finish (.memory base keeps fault)).run.run story).run {}).1.2
      (story.output base keeps fault).2 := by
    rw [Writes, ← h]
    rfl
  obtain ⟨m, hy, ⟨log, hm⟩, data, hdata, htexts⟩ := exists_of_writes_finish hwrites
  obtain rfl : story.closed = m := congrArg Prod.snd ((run_finishRoutines story).symm.trans hy)
  rw [hm] at hdata htexts
  exact ⟨data, hdata, htexts⟩

theorem exists_output_eq_sourceText (h : (story.output base keeps fault).1 = .ok ()) :
    ∃ data, story.closed.dataStatements = .ok data ∧
      (story.output base keeps fault).2.main = some (sourceText (story.closed.mainStatements base)) ∧
      (story.output base keeps fault).2.data = some (sourceText data) := by
  obtain ⟨data, hdata, htexts⟩ := exists_output_eq_allTexts h
  rw [htexts]
  exact ⟨data, hdata, rfl, rfl⟩

/-- The main and the data segment of a story that was finished are there. -/
theorem exists_output_of_ok (h : (story.output base keeps fault).1 = .ok ()) :
    (∃ text, (story.output base keeps fault).2.main = some text ∧ text ≠ "") ∧
      ∃ text, (story.output base keeps fault).2.data = some text ∧ text ≠ "" := by
  obtain ⟨data, hdata, hmain, hwritten⟩ := exists_output_eq_sourceText h
  exact ⟨⟨_, hmain, sourceText_mainStatements_ne_empty _ _⟩,
    _, hwritten, sourceText_dataStatements_ne_empty hdata⟩

/-- A story whose tables fit can be finished if nothing fails. -/
theorem output_eq_ok (h : story.TablesFit) (base : String) (keeps : Bool) :
    (story.output base keeps fun _ _ => none).1 = .ok () := by
  obtain ⟨log, hrun⟩ := run_finish (run_finishRoutines story) (.memory base keeps fun _ _ => none) {}
  obtain ⟨routines, registry, log', hclosed⟩ := story.exists_closed
  rw [hclosed] at hrun
  have hfit : TablesFit { story with routines, registry, log } := h
  obtain ⟨data, hdata⟩ := exists_dataStatements hfit
  obtain ⟨_, s', texts, hwrites⟩ := exists_writes_writeAll hdata
  rw [output, hrun, hwrites]

/-! ## Two runs -/

/-- The calls make the same of the two stories, but for debug information, which is wanted for the
first. -/
structure DebugAside (on off : Story) (calls : List Call) : Prop where
  /-- Each call returns the same, unless it marks a sequence point in a routine that is not open. -/
  results : ∀ before call rest, calls = before ++ call :: rest →
    call.result (on.after before) = call.result (off.after before) ∨
      ∃ id span, call = .sequencePoint id span ∧ ¬(on.after before).IsOpen id.index
  /-- At any time, the lines of a routine come out the same. -/
  flushed : ∀ before rest, calls = before ++ rest → ∀ index : Nat,
    ((off.after before).routines[index]?).map (·.flushed) =
      ((on.after before).routines[index]?).map (·.flushed.plain)
  finish : ∀ base keeps fault,
    ((on.after calls).output base keeps fault).1 = ((off.after calls).output base keeps fault).1
  segments : ∀ base keeps fault,
    (on.after calls).closed.TextsAside base ((on.after calls).output base keeps fault).2
      ((off.after calls).output base keeps fault).2
  /-- If the story was finished, its main and its data segment were written. -/
  written : ∀ base keeps fault, ((on.after calls).output base keeps fault).1 = .ok () →
    (∃ text, ((on.after calls).output base keeps fault).2.main = some text ∧ text ≠ "") ∧
      ∃ text, ((on.after calls).output base keeps fault).2.data = some text ∧ text ≠ ""

theorem new_plain {number : Int} {on off : Story} (hon : Story.new number true = .ok on)
    (hoff : Story.new number false = .ok off) : off = on.plain := by
  obtain ⟨version, hversion, hon⟩ := bind_eq_ok.mp hon
  obtain ⟨version', hversion', hoff⟩ := bind_eq_ok.mp hoff
  obtain rfl : version = version' := Except.ok.inj (hversion.symm.trans hversion')
  obtain rfl := Except.ok.inj hon
  obtain rfl := Except.ok.inj hoff
  rw [plain, Array.map_empty]

/-- **Debug information changes no code**, whichever calls are made. -/
theorem debugAside_after (number : Int) {on off : Story} (hon : Story.new number true = .ok on)
    (hoff : Story.new number false = .ok off) (calls : List Call)
    (hcalls : ∀ call ∈ calls, call.IsPlain) : DebugAside on off calls := by
  obtain rfl := new_plain hon hoff
  have hplain : ∀ before rest, calls = before ++ rest →
      on.plain.after before = (on.after before).plain := by
    intro before rest hsplit
    refine plain_after before (fun call hmem => hcalls call ?_) on
    rw [hsplit]
    exact List.mem_append_left rest hmem
  have hdebug : (on.after calls).wantsDebug = true := by
    obtain ⟨version, -, hnew⟩ := bind_eq_ok.mp hon
    obtain rfl := Except.ok.inj hnew
    exact wantsDebug_after calls _
  have hall := hplain calls [] (List.append_nil calls).symm
  constructor
  · intro before call rest hsplit
    rw [hplain before (call :: rest) hsplit]
    have hcall : call.IsPlain := hcalls call (by simp [hsplit])
    by_cases hpoint : ∀ id span, call = .sequencePoint id span → (on.after before).IsOpen id.index
    · exact .inl (Call.result_plain hcall _ hpoint).symm
    · push Not at hpoint
      exact .inr hpoint
  · intro before rest hsplit index
    rw [hplain before rest hsplit, getElem?_routines_plain, Option.map_map]
    exact Option.map_congr fun routine _ => routine.flushed_plain
  · intro base keeps fault
    rw [hall]
    exact (output_plain hdebug base keeps fault).1
  · intro base keeps fault
    rw [hall]
    exact (output_plain hdebug base keeps fault).2
  · intro base keeps fault hok
    exact exists_output_of_ok hok

/-- A routine with a source span and a directive on its first line. The second sequence point comes too
late. -/
theorem debugAside_lateSequencePoint :
    ∃ on off, Story.new 5 true = .ok on ∧ Story.new 5 false = .ok off ∧
      (∀ call ∈ [Call.define (.routine "MAIN" true false), .routine ⟨0⟩ (.place (.point "a.zil" 1 1)),
        .sequencePoint ⟨0⟩ (.point "a.zil" 2 3), .routine ⟨0⟩ (.emit .newLine),
        .routine ⟨0⟩ (.emit (.ret (.number 1))), .finishRoutine ⟨0⟩,
        .sequencePoint ⟨0⟩ (.point "b.zil" 4 1), .define (.global "HERE")], call.IsPlain) ∧
      DebugAside on off [.define (.routine "MAIN" true false),
        .routine ⟨0⟩ (.place (.point "a.zil" 1 1)), .sequencePoint ⟨0⟩ (.point "a.zil" 2 3),
        .routine ⟨0⟩ (.emit .newLine), .routine ⟨0⟩ (.emit (.ret (.number 1))), .finishRoutine ⟨0⟩,
        .sequencePoint ⟨0⟩ (.point "b.zil" 4 1), .define (.global "HERE")] := by
  refine ⟨_, _, rfl, rfl, ?_, debugAside_after 5 rfl rfl _ ?_⟩ <;> simp [Call.IsPlain]

end StoryAsm.Story
