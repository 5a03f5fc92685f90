import StoryAsm.Proofs.Story.Refusal
import StoryAsm.Proofs.Story.Written

/-!
# Symbols that a written story defines

What is written defines the names that calls defined, the header symbols that the story lacks, and the
symbols that the layout of the segments needs, `Story.generated` (`Story.symbols_written`).
-/

namespace StoryAsm

/-! ## Symbols of statements -/

/-- The symbol that the statement defines for all segments. -/
def Statement.symbol? : Statement → Option String
  | label name | assign name _ | global name _ | object name .. | routine name _
  | packedString name _ | frequentString name _ => some name
  | _ => none

theorem symbols_body (table : Table) : table.body.filterMap Statement.symbol? = [] :=
  filterMap_map_eq_nil Statement.symbol? (fun _ => rfl) _

/-! ## Routines -/

namespace Routine

/-- The label in the body of a routine that the story starts with. -/
def starts (routine : Routine) : List String :=
  if routine.isEntryPoint then ["START"] else []

theorem symbols_statements (routine : Routine) (place : Option (Nat × Span)) :
    (routine.statements place).filterMap Statement.symbol? = routine.name :: routine.starts := by
  have hcode : (codeStatements routine.flushed).filterMap Statement.symbol? = [] := by
    rw [codeStatements, List.filterMap_append, List.filterMap_append,
      filterMap_map_eq_nil Statement.symbol? (fun _ => rfl),
      filterMap_map_eq_nil Statement.symbol? (fun _ => rfl),
      filterMap_map_eq_nil Statement.symbol? (fun _ => rfl)]
    rfl
  have hstart : List.filterMap Statement.symbol?
      (if routine.isEntryPoint then [.label "START"] else []) = routine.starts := by
    rw [starts]
    split <;> rfl
  simp only [statements, List.filterMap_append, hcode, hstart]
  rw [filterMap_map_eq_nil Statement.symbol? (fun _ => rfl),
    filterMap_map_eq_nil Statement.symbol? (fun _ => rfl), List.append_nil, List.append_nil]
  rfl

/-- A body defines the name of its routine, and the start if the story starts there. -/
def BodyNamed (routine : Routine) : Prop :=
  ∀ body, routine.body = some body → body.filterMap Statement.symbol? = routine.name :: routine.starts

theorem Step.bodyNamed {routine routine' : Routine} (h : Step routine routine')
    (hnamed : routine.BodyNamed) : routine'.BodyNamed := by
  intro body hbody
  cases h with
  | @call call hcall =>
    rw [call.body_changed] at hbody
    rw [starts, call.name_changed, call.isEntryPoint_changed]
    exact hnamed body hbody
  | finish place hopen =>
    obtain rfl := Option.some.inj hbody
    exact symbols_statements routine place

end Routine

namespace Story

variable {story : Story}

/-! ## Orderly stories -/

/-- The label of the start, if the story has one. -/
def starts (story : Story) : List String :=
  if story.entryPoint.isSome then ["START"] else []

/-- What holds of every story that calls have made. -/
structure Orderly (story : Story) : Prop where
  consistent : story.Consistent
  bodies : ∀ routine ∈ story.routines, routine.BodyNamed
  starts : story.routines.toList.flatMap (·.starts) = story.starts
  words : ∀ name ∈ story.names .word, ∃ rest, name = "W?" ++ rest

theorem Consistent.of_sameNames {story' : Story} (h : story.Consistent) (hsame : SameNames story story') :
    story'.Consistent where
  kinds name kind := by
    rw [hsame.symbols, hsame.names]
    exact h.kinds name kind
  nodup kind := by
    rw [hsame.names]
    exact h.nodup kind
  tables := by
    rw [hsame.tables, hsame.names]
    exact h.tables

theorem SameNames.size_routines {story' : Story} (h : SameNames story story') :
    story'.routines.size = story.routines.size := by
  simpa [Story.names] using congrArg List.length (h.names .routine)

theorem starts_of_sameNames {story' : Story} (hsame : SameNames story story') :
    story'.routines.toList.flatMap (·.starts) = story.routines.toList.flatMap (·.starts) := by
  have hflags : ∀ routines : List Routine, routines.flatMap (·.starts) =
      (routines.map (·.isEntryPoint)).flatMap fun isEntryPoint =>
        if isEntryPoint then ["START"] else [] := by
    intro routines
    rw [List.flatMap_map]
    rfl
  rw [hflags, hflags, hsame.entries]

theorem Orderly.record (h : story.Orderly) {definition : Definition}
    (haccepted : definition.rejection story = none) : (definition.record story).Orderly := by
  obtain ⟨hfits, hfresh⟩ := Definition.rejection_eq_none_iff.mp haccepted
  refine ⟨h.consistent.record hfresh, ?_, ?_, ?_⟩
  · intro routine hmem
    cases definition with
    | routine name isEntryPoint cleansStack =>
      rcases Array.mem_push.mp hmem with hmem | rfl
      · exact h.bodies routine hmem
      · intro body hbody
        cases hbody
    | _ => exact h.bodies routine hmem
  · cases definition with
    | routine name isEntryPoint cleansStack =>
      show (story.routines.push _).toList.flatMap _ = _
      rw [Array.toList_push, List.flatMap_append, h.starts]
      cases isEntryPoint with
      | false =>
        show story.starts ++ [] = story.starts
        rw [List.append_nil]
      | true =>
        have hnone : story.entryPoint = none := hfits rfl
        rw [Story.starts, hnone]
        rfl
    | _ => exact h.starts
  · intro name hmem
    rw [Definition.names_record] at hmem
    split at hmem
    · rename_i hkind
      rcases List.mem_append.mp hmem with hmem | hmem
      · exact h.words name hmem
      · cases definition with
        | word text => exact ⟨_, List.mem_singleton.mp hmem⟩
        | _ => cases hkind
    · exact h.words name hmem

theorem Orderly.next (h : story.Orderly) (call : Call) : (call.next story).Orderly := by
  rcases call.next_cases story with ⟨definition, haccepted, hnext⟩ | hsame
  · rw [hnext]
    exact h.record haccepted
  · refine ⟨h.consistent.of_sameNames hsame, ?_, ?_, ?_⟩
    · intro routine' hmem
      obtain ⟨index, hget'⟩ := Array.mem_iff_getElem?.mp hmem
      have hlt : index < story.routines.size := by
        rw [← hsame.size_routines]
        exact (Array.getElem?_eq_some_iff.mp hget').1
      have hnamed := h.bodies _ (Array.getElem_mem hlt)
      obtain ⟨routine'', hget'', hstep⟩ := call.exists_step (Array.getElem?_eq_getElem hlt)
      obtain rfl : routine'' = routine' := Option.some.inj (hget''.symm.trans hget')
      rcases hstep with rfl | hstep
      · exact hnamed
      · exact hstep.bodyNamed hnamed
    · rw [starts_of_sameNames hsame, h.starts, Story.starts, Story.starts, hsame.entryPoint]
    · rw [hsame.names]
      exact h.words

theorem orderly_new {number : Int} {wantsDebug : Bool} (h : Story.new number wantsDebug = .ok story) :
    story.Orderly := by
  obtain ⟨version, -, h⟩ := bind_eq_ok.mp h
  obtain rfl := Except.ok.inj h
  exact {
    consistent := consistent_new version wantsDebug #[.newStory version]
    bodies := fun routine hmem => absurd hmem (Array.not_mem_empty routine)
    starts := rfl
    words := fun _ hmem => absurd hmem List.not_mem_nil }

theorem Orderly.after (h : story.Orderly) (calls : List Call) : (story.after calls).Orderly :=
  after_induction (fun _ call h => h.next call) calls h

/-! ## Closed stories -/

theorem SameNames.trans {story' story'' : Story} (h : SameNames story story')
    (h' : SameNames story' story'') : SameNames story story'' where
  version := h'.version.trans h.version
  symbols := h'.symbols.trans h.symbols
  names kind := (h'.names kind).trans (h.names kind)
  tables := h'.tables.trans h.tables
  entryPoint := h'.entryPoint.trans h.entryPoint
  entries := h'.entries.trans h.entries

theorem sameNames_closed (story : Story) : SameNames story story.closed := by
  suffices h : ∀ (indices : List Nat) (s : Story), SameNames story s →
      SameNames story (s.after (indices.map fun index => .finishRoutine ⟨index⟩)) from
    h _ story (.refl story)
  intro indices
  induction indices with
  | nil =>
    intro s hs
    exact hs
  | cons index indices ih =>
    intro s hs
    exact ih _ (hs.trans (Call.sameNames_next nofun))

/-- A routine that is asked to be finished is finished then, whether it was before or not. -/
theorem exists_bodyOf_next {id : RoutineId} {routine : Routine}
    (hget : story.routines[id.index]? = some routine) :
    ∃ body, ((Call.finishRoutine id).next story).bodyOf id = some body := by
  have hrun := run_finishRoutine_eq id story
  cases hrefusal : (Call.finishRoutine id).refusal story with
  | none =>
    rw [hrefusal] at hrun
    rw [Call.next_of_refusal_eq_none hrefusal]
    exact bodyOf_finishRoutine hrun
  | some error =>
    rw [Call.next_of_refusal_eq_some hrefusal]
    rw [Call.refusal, routineRefusal_of_get hget, Routine.refusal, Routine.isFinished] at hrefusal
    cases hbody : routine.body with
    | none =>
      rw [hbody] at hrefusal
      cases hrefusal
    | some body => exact ⟨body, bodyOf_eq_some.mpr ⟨routine, hget, hbody⟩⟩

/-- A routine stays, whatever is called. -/
theorem exists_routine_after {index : Nat} (h : ∃ routine, story.routines[index]? = some routine)
    (calls : List Call) : ∃ routine, (story.after calls).routines[index]? = some routine := by
  refine after_induction (P := fun s => ∃ routine, s.routines[index]? = some routine) ?_ calls h
  intro s call hs
  obtain ⟨routine, hget⟩ := hs
  obtain ⟨routine', hget', -⟩ := call.exists_step hget
  exact ⟨routine', hget'⟩

/-- In a closed story, all routines are finished. -/
theorem exists_body_of_mem_closed {routine : Routine} (hmem : routine ∈ story.closed.routines) :
    ∃ body, routine.body = some body := by
  obtain ⟨index, hget⟩ := Array.mem_iff_getElem?.mp hmem
  have hlt : index < story.routines.size := by
    rw [← (sameNames_closed story).size_routines]
    exact (Array.getElem?_eq_some_iff.mp hget).1
  -- The routine is finished when its turn comes, if not before.
  obtain ⟨before, rest, hsplit⟩ := List.append_of_mem (List.mem_range.mpr hlt)
  have hclosed : story.closed = ((Call.finishRoutine ⟨index⟩).next
      (story.after (before.map fun index => .finishRoutine ⟨index⟩))).after
        (rest.map fun index => .finishRoutine ⟨index⟩) := by
    rw [closed, closings, hsplit, List.map_append, after_append]
    rfl
  obtain ⟨_, hturn⟩ := exists_routine_after ⟨_, Array.getElem?_eq_getElem hlt⟩
    (before.map fun index => .finishRoutine ⟨index⟩)
  obtain ⟨body, hbody⟩ := exists_bodyOf_next hturn
  obtain ⟨routine', hget', hbody'⟩ := bodyOf_eq_some.mp (bodyOf_after hbody _)
  rw [← hclosed] at hget'
  obtain rfl : routine' = routine := Option.some.inj (hget'.symm.trans hget)
  exact ⟨body, hbody'⟩

/-! ## Symbols of the segments -/

/-- The symbols that the segments need besides those that calls define: the marks in the data segment,
the start, the frequent words, the strings and the property tables. -/
def generated (story : Story) (keeps : Bool) : List String :=
  ["GLOBAL", "OBJECT", "IMPURE", "VOCAB", "ENDLOD"] ++ story.starts ++
  (if keeps then [] else ["FSTR?DUMMY", "WORDS"]) ++
  (List.range story.pool.strings.size).map (fun index => "STR?" ++ toString index) ++
  (story.names .object).map ("?PTBL?" ++ ·)

theorem symbols_main (h : story.Orderly)
    (hfinished : ∀ routine ∈ story.routines, ∃ body, routine.body = some body) (base : String) :
    ((story.mainStatements base).filterMap Statement.symbol?).Perm
      (story.names .routine ++ story.starts) := by
  have hroutines :
      (story.routines.toList.flatMap fun routine => routine.body.getD []).filterMap Statement.symbol? =
      story.routines.toList.flatMap fun routine => routine.name :: routine.starts := by
    refine filterMap_flatMap_congr Statement.symbol? fun routine hmem => ?_
    have hmem' : routine ∈ story.routines := Array.mem_toList_iff.mp hmem
    obtain ⟨body, hbody⟩ := hfinished routine hmem'
    rw [hbody]
    exact h.bodies routine hmem' body hbody
  have hheader : (if story.version.hasHeaderBlock then headerStatements story.version
      else []).filterMap Statement.symbol? = [] := by
    split <;> rfl
  simp only [mainStatements, List.filterMap_append, hroutines, hheader]
  rw [← h.starts]
  simpa [List.filterMap, Statement.symbol?, names] using
    (List.map_append_flatMap_perm story.routines.toList (·.name) (·.starts)).symm

theorem symbols_assignments (story : Story) :
    (story.assignments.filterMap Statement.symbol?).Perm
      (story.freeHeaders ++ story.names .flag ++ story.names .property ++ story.names .constant) := by
  simp only [assignments, List.filterMap_append]
  rw [filterMap_map_eq_map Statement.symbol? (g := fun name => name) fun _ => rfl,
    filterMap_map_eq_map Statement.symbol? (g := fun flag : Flag => flag.name) fun _ => rfl,
    filterMap_map_eq_map Statement.symbol? (g := fun property : Property => property.symbol) fun _ => rfl,
    filterMap_map_eq_map Statement.symbol? (g := fun constant : String × Operand => constant.1) fun _ => rfl,
    List.map_id']
  refine (((List.Perm.refl _).append ?_).append ?_).append ?_
  · exact (List.mergeSort_perm _ _).map _
  · exact (List.mergeSort_perm _ _).map _
  · exact (List.mergeSort_perm _ _).map _

theorem symbols_propertyStatements {object : Object} {limit number : Nat} {value : PropertyValue}
    {statements : List Statement} (h : object.propertyStatements limit number value = .ok statements) :
    statements.filterMap Statement.symbol? = [] := by
  cases value with
  | byte operand | word operand =>
    cases h
    rfl
  | table table =>
    simp only [Object.propertyStatements] at h
    split at h
    · cases h
    · cases h
      exact symbols_body table

theorem symbols_propertyTable {object : Object} {limit : Nat} {table : List Statement}
    (h : object.tableStatements limit = .ok table) :
    table.filterMap Statement.symbol? = [object.tableSymbol] := by
  obtain ⟨properties, hproperties, h⟩ := bind_eq_ok.mp h
  cases h
  have hvalues : properties.flatten.filterMap Statement.symbol? = [] := by
    refine List.filterMap_eq_nil_iff.mpr fun statement hmem => ?_
    obtain ⟨statements, hstatements, hmem⟩ := List.mem_flatten.mp hmem
    obtain ⟨entry, -, hentry⟩ := exists_of_mem_mapM hproperties hstatements
    exact List.filterMap_eq_nil_iff.mp (symbols_propertyStatements hentry) statement hmem
  rw [List.filterMap_append, ← List.nil_append properties.flatten, ← List.cons_append, ← List.cons_append,
    List.filterMap_append, hvalues]
  cases object.description <;> rfl

theorem symbols_propertyTables {tables : List Statement} (h : story.propertyTables = .ok tables) :
    tables.filterMap Statement.symbol? = (story.names .object).map ("?PTBL?" ++ ·) := by
  obtain ⟨all, hall, h⟩ := bind_eq_ok.mp h
  cases h
  have hlists : ∀ {objects : List Object} {all : List (List Statement)},
      objects.mapM (·.tableStatements story.version.maxPropertyLength) = .ok all →
        (all.flatMap (.blank :: ·)).filterMap Statement.symbol? = objects.map (·.tableSymbol) := by
    intro objects
    induction objects with
    | nil =>
      intro all hall
      cases hall
      rfl
    | cons object objects ih =>
      intro all hall
      rw [List.mapM_cons] at hall
      obtain ⟨table, htable, hall⟩ := bind_eq_ok.mp hall
      obtain ⟨rest, hrest, hall⟩ := bind_eq_ok.mp hall
      cases hall
      rw [List.flatMap_cons, List.filterMap_append, ih hrest, List.map_cons]
      show table.filterMap Statement.symbol? ++ _ = _
      rw [symbols_propertyTable htable]
      rfl
  rw [hlists hall, names, List.map_map]
  rfl

theorem symbols_tables (story : Story) (isPure : Bool) :
    (story.tableStatements isPure).filterMap Statement.symbol? =
      (story.tables.toList.filter (·.isPure == isPure)).map (·.name) := by
  rw [List.map_eq_flatMap]
  refine filterMap_flatMap_congr Statement.symbol? fun table _ => ?_
  show table.name :: table.body.filterMap Statement.symbol? = _
  rw [symbols_body]

theorem symbols_vocabulary (story : Story) :
    story.vocabulary.filterMap Statement.symbol? = story.sortedWords.map (·.table.name) := by
  have hword : ∀ word : Word,
      (word.statements story.wordDataSize).filterMap Statement.symbol? = [word.table.name] := by
    intro word
    have hzeros : ∀ count,
        List.filterMap Statement.symbol? (List.replicate count (.data .byte ["0"])) = [] := fun count =>
      List.filterMap_eq_nil_iff.mpr fun statement hmem => by
        rw [List.eq_of_mem_replicate hmem]
        rfl
    rw [Word.statements, List.filterMap_append, List.filterMap_append, symbols_body, hzeros]
    rfl
  rw [vocabulary, List.filterMap_append,
    filterMap_flatMap_congr Statement.symbol? fun word _ => hword word, ← List.map_eq_flatMap]
  rfl

theorem symbols_strings (story : Story) :
    (story.stringStatements.filterMap Statement.symbol?).Perm
      ((List.range story.pool.strings.size).map fun index => "STR?" ++ toString index) := by
  rw [stringStatements,
    filterMap_map_eq_map Statement.symbol? (g := fun entry : String × Operand => entry.2.text) fun _ => rfl]
  refine ((List.mergeSort_perm _ _).map _).trans (.of_eq ?_)
  rw [List.map_map]
  show story.pool.strings.toList.zipIdx.map ((fun index : Nat => "STR?" ++ toString index) ∘ Prod.snd) = _
  rw [← List.map_map, List.zipIdx_map_snd, ← List.range_eq_range', Array.length_toList]

theorem symbols_objects (story : Story) :
    story.objectStatements.filterMap Statement.symbol? = story.names .object := by
  rw [objectStatements, List.filterMap_append, filterMap_map_eq_nil Statement.symbol? (fun _ => rfl),
    List.nil_append]
  exact filterMap_map_eq_map Statement.symbol? (fun _ => rfl) _

theorem symbols_data {data : List Statement} (h : story.Consistent)
    (hdata : story.dataStatements = .ok data) :
    (data.filterMap Statement.symbol?).Perm
      (story.freeHeaders ++ story.names .flag ++ story.names .property ++ story.names .constant ++
        story.names .global ++ story.names .object ++ story.names .table ++ story.names .word ++
        ["GLOBAL", "OBJECT", "IMPURE", "VOCAB", "ENDLOD"] ++
        (story.names .object).map ("?PTBL?" ++ ·)) := by
  obtain ⟨tables, htables, hdata⟩ := bind_eq_ok.mp hdata
  obtain rfl := Except.ok.inj hdata
  have hdebug :
      List.filterMap Statement.symbol?
        (if story.wantsDebug then .blank :: story.debugRecords.map .debug else []) = [] := by
    split
    · exact filterMap_map_eq_nil Statement.symbol? (fun _ => rfl) story.debugRecords
    · rfl
  have hglobals : ((story.orderedGlobals.map (·.statement)).filterMap Statement.symbol?).Perm
      (story.names .global) := by
    rw [filterMap_map_eq_map Statement.symbol? (g := fun global : Global => global.name) fun _ => rfl]
    exact (orderedGlobals_perm (h.nodup .global)).map _
  have hwords : (story.vocabulary.filterMap Statement.symbol?).Perm (story.names .word) := by
    rw [symbols_vocabulary]
    exact (List.mergeSort_perm _ _).map _
  have hassignments := symbols_assignments story
  have hparts := perm_tables h.tables
  rw [← symbols_tables, ← symbols_tables] at hparts
  have hmark : ∀ name, List.filterMap Statement.symbol? [.blank, .label name] = [name] := fun _ => rfl
  have hmarks : ["GLOBAL", "OBJECT", "IMPURE", "VOCAB", "ENDLOD"] =
      ["GLOBAL"] ++ ["OBJECT"] ++ ["IMPURE"] ++ ["VOCAB"] ++ ["ENDLOD"] := rfl
  refine List.perm_iff_count.mpr fun name => ?_
  replace hglobals := hglobals.count_eq name
  replace hwords := hwords.count_eq name
  replace hassignments := hassignments.count_eq name
  replace hparts := hparts.count_eq name
  simp only [List.filterMap_append, hdebug, hmark, hmarks, symbols_objects,
    symbols_propertyTables htables, List.count_append, List.count_nil] at hassignments hparts ⊢
  omega

theorem symbols_frequent (keeps : Bool) :
    (if keeps then [] else frequentStatements).filterMap Statement.symbol? =
      if keeps then [] else ["FSTR?DUMMY", "WORDS"] := by
  split
  · rfl
  · have hentries : List.filterMap Statement.symbol? (List.replicate 96 (.entry "FSTR?DUMMY")) = [] :=
      List.filterMap_eq_nil_iff.mpr fun statement hmem => by
        rw [List.eq_of_mem_replicate hmem]
        rfl
    rw [frequentStatements, List.filterMap_append, hentries]
    rfl

/-- What is written defines the names that calls defined, the header symbols that the story lacks and
the generated symbols. -/
theorem symbols_written (h : story.Orderly)
    (hfinished : ∀ routine ∈ story.routines, ∃ body, routine.body = some body) {data : List Statement}
    (hdata : story.dataStatements = .ok data) (base : String) (keeps : Bool) :
    ((story.written base keeps data).filterMap Statement.symbol?).Perm
      (SymbolKind.all.flatMap story.names ++ story.freeHeaders ++ story.generated keeps) := by
  have hmain := symbols_main h hfinished base
  have hdata := symbols_data h.consistent hdata
  have hstrings := symbols_strings story
  refine List.perm_iff_count.mpr fun name => ?_
  replace hmain := hmain.count_eq name
  replace hdata := hdata.count_eq name
  replace hstrings := hstrings.count_eq name
  simp only [written, generated, List.filterMap_append, symbols_frequent, SymbolKind.all,
    List.flatMap_cons, List.flatMap_nil, List.count_append, List.count_nil] at hmain hdata hstrings ⊢
  omega

end Story

end StoryAsm
