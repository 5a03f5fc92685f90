import Mathlib.Data.List.Nodup
import Mathlib.Data.List.Perm.Basic
import StoryAsm.Proofs.Story.FileIds
import StoryAsm.Proofs.Story.Generated
import StoryAsm.Proofs.Story.Vocabulary

/-!
# The places of globals

The globals of a story are written in the order of their definition, but in early versions those of the
status line come first, also in the order of the status line (`Story.InPlaces`). No global is lost and none
is written twice, since their names are different. The names in the table of globals have this order, and
so have their debug records (`Story.GlobalsWritten`).

A global of the status line is in its own place only if those before it are defined as well: the others
move up (`Story.statusSlots_after`).
-/

namespace StoryAsm

open Text

/-! ## Globals with marked names -/

theorem map_name_filterMap_find? (marked : List String) (globals : List Global) :
    (marked.filterMap fun name => globals.find? (·.name == name)).map (·.name) =
      marked.filter (· ∈ globals.map (·.name)) := by
  rw [List.map_filterMap, ← List.filterMap_eq_filter]
  refine List.filterMap_congr fun name _ => ?_
  cases hfind : globals.find? (·.name == name) with
  | none =>
    have hnone : name ∉ globals.map (·.name) := by
      intro hmem
      obtain ⟨global, hglobal, heq⟩ := List.mem_map.mp hmem
      exact List.find?_eq_none.mp hfind global hglobal (beq_iff_eq.mpr heq)
    simp [Option.guard, hnone]
  | some global =>
    obtain rfl : global.name = name := by simpa using List.find?_some hfind
    have hmem : global.name ∈ globals.map (·.name) := List.mem_map_of_mem (List.mem_of_find?_eq_some hfind)
    simp only [Option.map_some, Option.guard, hmem, decide_true, ↓reduceIte]

namespace Story

variable {story : Story}

/-- The globals in the order of their places, where `defined` is the order of their definition. -/
structure InPlaces (version : Version) (defined ordered : List Global) : Prop where
  perm : ordered.Perm defined
  nodup : (ordered.map (·.name)).Nodup
  late : 4 ≤ version.number → ordered = defined
  /-- The globals of the status line come first, and the others stay in their order. -/
  early : version.number < 4 → ∃ status others, ordered = status ++ others ∧
    status.map (·.name) = ["HERE", "SCORE", "MOVES"].filter (· ∈ defined.map (·.name)) ∧
    others = defined.filter (·.name ∉ ["HERE", "SCORE", "MOVES"])

theorem inPlaces_orderedGlobals (h : (story.globals.toList.map (·.name)).Nodup) :
    InPlaces story.version story.globals.toList story.orderedGlobals where
  perm := orderedGlobals_perm h
  nodup := ((orderedGlobals_perm h).map _).nodup_iff.mpr h
  late hlate := if_neg (Nat.not_lt.mpr hlate)
  early hearly := by
    refine ⟨_, _, if_pos hearly, map_name_filterMap_find? statusGlobals _, ?_⟩
    refine List.filter_congr fun global _ => ?_
    simp [statusGlobals]

/-- The names in early versions, in the order of the places. -/
theorem InPlaces.map_name {version : Version} {defined ordered : List Global}
    (h : InPlaces version defined ordered) (hearly : version.number < 4) :
    ordered.map (·.name) =
      ["HERE", "SCORE", "MOVES"].filter (· ∈ defined.map (·.name)) ++
        (defined.map (·.name)).filter (· ∉ ["HERE", "SCORE", "MOVES"]) := by
  obtain ⟨status, others, rfl, hstatus, rfl⟩ := h.early hearly
  rw [List.map_append, hstatus, List.filter_map]
  rfl

/-! ## Statements of globals -/

/-- The statement of a global. -/
def isGlobal : Statement → Bool
  | .global .. => true
  | _ => false

/-- The statements of the globals: those behind the label of the globals, up to one of another kind. -/
def globalStatements (data : List Statement) : List Statement :=
  ((data.dropWhile (· ≠ .label "GLOBAL")).drop 1).takeWhile isGlobal

/-- The names in the table of globals, in the order of their slots. -/
def slots (data : List Statement) : List String :=
  (globalStatements data).filterMap Statement.symbol?

theorem globalStatements_of_dataStatements {data : List Statement}
    (hdata : story.dataStatements = .ok data) :
    globalStatements data = story.orderedGlobals.map (·.statement) := by
  obtain ⟨tables, -, hdata⟩ := bind_eq_ok.mp hdata
  obtain rfl := Except.ok.inj hdata
  have hbefore : ∀ statement ∈ story.assignments ++ [.blank],
      decide (statement ≠ .label "GLOBAL") = true := by
    intro statement hmem
    rw [decide_eq_true_eq]
    rintro rfl
    simp [assignments] at hmem
  have hglobals : ∀ statement ∈ story.orderedGlobals.map (·.statement), isGlobal statement = true :=
    List.forall_mem_map.mpr fun _ _ => rfl
  simp only [List.append_assoc, List.cons_append, List.nil_append]
  rw [List.append_cons, globalStatements, List.dropWhile_append_of_pos hbefore]
  simp only [List.dropWhile_cons, ne_eq, not_true_eq_false, decide_false, Bool.false_eq_true, ↓reduceIte,
    List.drop_succ_cons, List.drop_zero]
  rw [List.takeWhile_append_of_pos hglobals]
  simp [isGlobal]

/-! ## Debug records of globals -/

/-- The debug record of a global. -/
def globalRecord (global : Global) : String :=
  ".DEBUG-GLOBAL " ++ global.name ++ "," ++ quote global.name

/-- The record starts as those of globals do. -/
def IsGlobalRecord (record : String) : Prop :=
  ".DEBUG-GLOBAL".toList <+: record.toList

theorem not_isGlobalRecord {mark : String} (hlength : 8 ≤ mark.toList.length)
    (hmark : mark.toList[7]? ≠ some 'G') (rest : String) : ¬IsGlobalRecord (mark ++ rest) := by
  rintro ⟨end_, hend⟩
  have hletter := congrArg (fun letters => letters[7]?) hend
  rw [String.toList_append, List.getElem?_append_left (by decide),
    List.getElem?_append_left hlength] at hletter
  exact hmark hletter.symm

/-- The records of globals stand together, in the order of the places. There is no other record of this
kind but those that were stored. -/
theorem exists_debugRecords (story : Story) :
    ∃ first arrays, story.debugRecords =
        first ++ story.orderedGlobals.map globalRecord ++ arrays ++ story.registry.stored.toList ∧
      ∀ record ∈ first ++ arrays, ¬IsGlobalRecord record := by
  refine ⟨_, _, rfl, ?_⟩
  simp only [List.mem_append, List.mem_map]
  rintro record (((⟨⟨id, file⟩, -, rfl⟩ | ⟨name, -, rfl⟩) | ⟨property, -, rfl⟩) | ⟨name, -, rfl⟩)
  · delta Registry.fileRecord
    simp only [String.append_assoc]
    exact @not_isGlobalRecord ".DEBUG-FILE " (by decide) (by decide) _
  all_goals
    simp only [String.append_assoc]
    rw [← String.append_assoc]
  · exact @not_isGlobalRecord (".DEBUG-" ++ "ATTR") (by decide) (by decide) _
  · exact @not_isGlobalRecord (".DEBUG-" ++ "PROP") (by decide) (by decide) _
  · exact @not_isGlobalRecord (".DEBUG-" ++ "ARRAY") (by decide) (by decide) _

theorem stored_placeOf (story : Story) (routine : Routine) :
    (story.placeOf routine).2.stored = story.registry.stored := by
  unfold placeOf
  split
  · exact Registry.stored_fileId ..
  · rfl

theorem stored_next_finishRoutine (id : RoutineId) (story : Story) :
    ((Call.finishRoutine id).next story).registry.stored = story.registry.stored := by
  cases h : (Call.finishRoutine id).refusal story with
  | some error =>
    rw [Call.next_of_refusal_eq_some h]
    rfl
  | none =>
    rw [Call.next_of_refusal_eq_none h]
    simp only [Call.changed]
    split
    · rfl
    · exact story.stored_placeOf _

/-- Finishing routines stores no records. -/
theorem stored_closed (story : Story) : story.closed.registry.stored = story.registry.stored := by
  have hclose : ∀ (indices : List Nat) (start : Story),
      (start.after (indices.map fun index => .finishRoutine ⟨index⟩)).registry.stored =
        start.registry.stored := by
    intro indices
    induction indices with
    | nil => exact fun start => rfl
    | cons index indices ih => exact fun start => (ih _).trans (stored_next_finishRoutine ⟨index⟩ start)
  exact hclose _ story

/-! ## Globals of a story -/

/-- How the globals are written, where `stored` are the debug records that calls stored. -/
structure GlobalsWritten (version : Version) (wantsDebug : Bool) (defined : List Global)
    (stored : List String) (data : List Statement) (ordered : List Global) : Prop where
  inPlaces : InPlaces version defined ordered
  statements : globalStatements data = ordered.map (·.statement)
  slots_eq : slots data = ordered.map (·.name)
  /-- The debug records are the end of the segment. Those of globals have the order of the statements. -/
  records : wantsDebug = true → ∃ front first arrays,
    data = front ++ .blank :: (first ++ ordered.map globalRecord ++ arrays ++ stored).map .debug ∧
      ∀ record ∈ first ++ arrays, ¬IsGlobalRecord record

theorem globalsWritten_of_dataStatements {data : List Statement} (hconsistent : story.Consistent)
    (hdata : story.dataStatements = .ok data) :
    GlobalsWritten story.version story.wantsDebug story.globals.toList story.registry.stored.toList data
      story.orderedGlobals where
  inPlaces := inPlaces_orderedGlobals (hconsistent.nodup .global)
  statements := globalStatements_of_dataStatements hdata
  slots_eq := by
    rw [slots, globalStatements_of_dataStatements hdata]
    exact filterMap_map_eq_map Statement.symbol? (fun _ => rfl) _
  records hdebug := by
    obtain ⟨tables, -, hdata⟩ := bind_eq_ok.mp hdata
    obtain rfl := Except.ok.inj hdata
    obtain ⟨first, arrays, hrecords, hnone⟩ := story.exists_debugRecords
    rw [if_pos hdebug, hrecords]
    exact ⟨_, first, arrays, rfl, hnone⟩

theorem exists_globalsWritten {base : String} {keeps : Bool} {fault : Segment → Stage → Option DiskError}
    (horderly : story.Orderly) (hok : (story.output base keeps fault).1 = .ok ()) :
    ∃ data, (story.output base keeps fault).2.data = some (sourceText data) ∧
      GlobalsWritten story.version story.wantsDebug story.globals.toList story.registry.stored.toList data
        story.orderedGlobals := by
  obtain ⟨data, hdata, -, hwritten⟩ := exists_output_eq_sourceText hok
  have hglobals := globalsWritten_of_dataStatements (horderly.after story.closings).consistent hdata
  refine ⟨data, hwritten, ?_⟩
  have hstored : (story.after story.closings).registry.stored = story.registry.stored := story.stored_closed
  obtain ⟨routines, registry, log, hclosed⟩ := story.exists_closed
  rw [hstored, ← closed, hclosed] at hglobals
  exact hglobals

theorem globals_names_after {number : Int} {wantsDebug : Bool} {start : Story}
    (hstart : Story.new number wantsDebug = .ok start) (calls : List Call) :
    (start.after calls).globals.toList.map (·.name) = start.accepted calls .global := by
  have hnames := names_after calls start .global
  rwa [names_new hstart, List.nil_append] at hnames

/-- **Globals are reordered without loss**: whichever calls are made on a new story, the globals that are
written are those that were defined, each once. Their order is that of the definitions, but for the
globals of the status line in early versions. Debug records have the same order. -/
theorem globalsWritten_after (number : Int) (wantsDebug : Bool) {start : Story}
    (hstart : Story.new number wantsDebug = .ok start) (calls : List Call) :
    (start.after calls).globals.toList.map (·.name) = start.accepted calls .global ∧
    ∀ base keeps fault, ((start.after calls).output base keeps fault).1 = .ok () →
      ∃ data ordered, ((start.after calls).output base keeps fault).2.data = some (sourceText data) ∧
        GlobalsWritten start.version wantsDebug (start.after calls).globals.toList
          (start.after calls).registry.stored.toList data ordered := by
  refine ⟨globals_names_after hstart calls, fun base keeps fault hok => ?_⟩
  obtain ⟨data, hwritten, hglobals⟩ := exists_globalsWritten ((orderly_new hstart).after calls) hok
  have hdebug : start.wantsDebug = wantsDebug := by
    obtain ⟨version, -, h⟩ := bind_eq_ok.mp hstart
    obtain rfl := Except.ok.inj h
    rfl
  rw [version_after, wantsDebug_after, hdebug] at hglobals
  exact ⟨data, _, hwritten, hglobals⟩

/-- Globals of the status line among others. The second `FOO` is refused. -/
def statusCalls : List Call :=
  [.define (.global "FOO"), .define (.global "MOVES"), .define (.global "FOO"),
    .globalValue ⟨1⟩ (some (.number 7)), .define (.global "SCORE"), .define (.global "BAR"),
    .define (.global "HERE")]

theorem exists_start_statusCalls :
    ∃ start, Story.new 3 true = .ok start ∧ start.version.number < 4 ∧
      (start.after statusCalls).objects.toList.all (·.properties.isEmpty) = true ∧
      (start.after statusCalls).globals.toList.map (·.name) = ["FOO", "MOVES", "SCORE", "BAR", "HERE"] ∧
      (start.after statusCalls).registry.stored.toList = [] :=
  ⟨_, rfl, by decide, by decide +kernel, by decide +kernel, by decide +kernel⟩

theorem globalsWritten_statusCalls :
    ∃ start data ordered, Story.new 3 true = .ok start ∧
      ((start.after statusCalls).output "game" false fun _ _ => none).2.data = some (sourceText data) ∧
      GlobalsWritten start.version true (start.after statusCalls).globals.toList [] data ordered ∧
      start.accepted statusCalls .global = ["FOO", "MOVES", "SCORE", "BAR", "HERE"] ∧
      ordered.map (·.name) = ["HERE", "SCORE", "MOVES", "FOO", "BAR"] := by
  obtain ⟨start, hstart, hearly, hempty, hnames, hstored⟩ := exists_start_statusCalls
  obtain ⟨haccepted, hwritten⟩ := globalsWritten_after 3 true hstart statusCalls
  obtain ⟨data, ordered, htext, hglobals⟩ :=
    hwritten "game" false _ (output_eq_ok (tablesFit_of_isEmpty hempty) "game" false)
  rw [hstored] at hglobals
  refine ⟨start, data, ordered, hstart, htext, hglobals, haccepted.symm.trans hnames, ?_⟩
  rw [hglobals.inPlaces.map_name hearly, hnames]
  simp

/-! ## Slots of the status line -/

section
variable {marked defined others : List String} {place : Nat} {name : String}

/-- In front of a marked name are those of the marked names before it that are defined. -/
theorem getElem?_filter_append (hplace : marked[place]? = some name) (hdefined : name ∈ defined) :
    (marked.filter (· ∈ defined) ++ others)[((marked.take place).filter (· ∈ defined)).length]? =
      some name := by
  obtain ⟨hlt, rfl⟩ := List.getElem?_eq_some_iff.mp hplace
  have hsplit : marked.filter (· ∈ defined) = (marked.take place).filter (· ∈ defined) ++
      marked[place] :: (marked.drop (place + 1)).filter (· ∈ defined) := by
    rw [← List.filter_cons_of_pos (p := (· ∈ defined)) (decide_eq_true hdefined), ← List.filter_append,
      ← List.drop_eq_getElem_cons hlt, List.take_append_drop]
  rw [hsplit, List.append_assoc, List.getElem?_append_right (Nat.le_refl _), Nat.sub_self]
  rfl

/-- A marked name is in its place if and only if all marked names before it are defined. -/
theorem getElem?_eq_name_iff (hnodup : (marked.filter (· ∈ defined) ++ others).Nodup)
    (hplace : marked[place]? = some name) (hdefined : name ∈ defined) :
    (marked.filter (· ∈ defined) ++ others)[place]? = some name ↔
      ∀ earlier ∈ marked.take place, earlier ∈ defined := by
  have hslot := @getElem?_filter_append _ _ others _ _ hplace hdefined
  have hlength : (marked.take place).length = place :=
    List.length_take_of_le (Nat.le_of_lt (List.getElem?_eq_some_iff.mp hplace).1)
  have hall : ((marked.take place).filter (· ∈ defined)).length = place ↔
      ∀ earlier ∈ marked.take place, earlier ∈ defined := by
    nth_rewrite 2 [← hlength]
    rw [List.length_filter_eq_length_iff]
    simp only [decide_eq_true_eq]
  rw [← hall]
  constructor
  · intro hhere
    obtain ⟨hlt, -⟩ := List.getElem?_eq_some_iff.mp hslot
    exact (List.getElem?_inj hlt hnodup).mp (hslot.trans hhere.symm)
  · intro heq
    rwa [heq] at hslot

end

/-- The slots of the status line, in a table with the names `slots`. -/
structure StatusSlots (defined slots : List String) : Prop where
  nodup : slots.Nodup
  /-- A global is in its own slot exactly if all of the status line before it are defined. -/
  own : ∀ {place name}, ["HERE", "SCORE", "MOVES"][place]? = some name → name ∈ defined →
    (slots[place]? = some name ↔ ∀ earlier ∈ ["HERE", "SCORE", "MOVES"].take place, earlier ∈ defined)
  /-- Otherwise it moves up by those that are missing. -/
  moved : ∀ {place name}, ["HERE", "SCORE", "MOVES"][place]? = some name → name ∈ defined →
    slots[((["HERE", "SCORE", "MOVES"].take place).filter (· ∈ defined)).length]? = some name

theorem GlobalsWritten.statusSlots {version : Version} {wantsDebug : Bool} {defined ordered : List Global}
    {stored : List String} {data : List Statement}
    (h : GlobalsWritten version wantsDebug defined stored data ordered) (hearly : version.number < 4) :
    StatusSlots (defined.map (·.name)) (slots data) := by
  have hnodup := h.inPlaces.nodup
  rw [h.slots_eq]
  rw [h.inPlaces.map_name hearly] at hnodup ⊢
  exact ⟨hnodup, getElem?_eq_name_iff hnodup, getElem?_filter_append⟩

/-- **Slots of the status line**: in early versions, `HERE` is in the first slot whenever it is defined,
`SCORE` is in the second only if `HERE` is defined as well, and `MOVES` is in the third only if both are. -/
theorem statusSlots_after (number : Int) (wantsDebug : Bool) {start : Story}
    (hstart : Story.new number wantsDebug = .ok start) (hearly : start.version.number < 4)
    (calls : List Call) :
    ∀ base keeps fault, ((start.after calls).output base keeps fault).1 = .ok () →
      ∃ data, ((start.after calls).output base keeps fault).2.data = some (sourceText data) ∧
        StatusSlots (start.accepted calls .global) (slots data) := by
  intro base keeps fault hok
  obtain ⟨data, hwritten, hglobals⟩ := exists_globalsWritten ((orderly_new hstart).after calls) hok
  refine ⟨data, hwritten, ?_⟩
  have hslots := hglobals.statusSlots (by rwa [version_after])
  rwa [globals_names_after hstart] at hslots

/-- All three are defined, so each is in its own slot. -/
theorem statusSlots_statusCalls :
    ∃ start data, Story.new 3 true = .ok start ∧ start.version.number < 4 ∧
      ((start.after statusCalls).output "game" false fun _ _ => none).2.data = some (sourceText data) ∧
      StatusSlots (start.accepted statusCalls .global) (slots data) ∧
      (slots data)[0]? = some "HERE" ∧ (slots data)[1]? = some "SCORE" ∧
      (slots data)[2]? = some "MOVES" := by
  obtain ⟨start, hstart, hearly, hempty, hnames, -⟩ := exists_start_statusCalls
  obtain ⟨data, htext, hslots⟩ := statusSlots_after 3 true hstart hearly statusCalls "game" false _
    (output_eq_ok (tablesFit_of_isEmpty hempty) "game" false)
  have hown := hslots
  rw [← globals_names_after hstart, hnames] at hown
  exact ⟨start, data, hstart, hearly, htext, hslots, (hown.own rfl (by simp)).mpr (by simp),
    (hown.own rfl (by simp)).mpr (by simp), (hown.own rfl (by simp)).mpr (by simp)⟩

/-- Without `HERE`, `SCORE` takes its slot. -/
theorem not_slot_score :
    ∃ start data, Story.new 3 false = .ok start ∧
      start.accepted [.define (.global "FOO"), .define (.global "SCORE")] .global = ["FOO", "SCORE"] ∧
      ((start.after [.define (.global "FOO"), .define (.global "SCORE")]).output "game" false
        fun _ _ => none).2.data = some (sourceText data) ∧
      slots data = ["SCORE", "FOO"] := by
  obtain ⟨start, hstart, hearly, hempty, hnames⟩ : ∃ start, Story.new 3 false = .ok start ∧
      start.version.number < 4 ∧
      (start.after [.define (.global "FOO"), .define (.global "SCORE")]).objects.toList.all
        (·.properties.isEmpty) = true ∧
      (start.after [.define (.global "FOO"), .define (.global "SCORE")]).globals.toList.map (·.name) =
        ["FOO", "SCORE"] :=
    ⟨_, rfl, by decide, by decide +kernel, by decide +kernel⟩
  obtain ⟨data, htext, hglobals⟩ := exists_globalsWritten ((orderly_new hstart).after _)
    (output_eq_ok (tablesFit_of_isEmpty hempty) "game" false)
  refine ⟨start, data, hstart, (globals_names_after hstart _).symm.trans hnames, htext, ?_⟩
  rw [hglobals.slots_eq, hglobals.inPlaces.map_name (by rwa [version_after]), hnames]
  simp

end Story

end StoryAsm
