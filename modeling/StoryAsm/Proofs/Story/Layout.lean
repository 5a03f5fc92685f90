import StoryAsm.Proofs.World.Fit
import StoryAsm.Proofs.Story.Written

/-!
# Statements of the data segment

Which statements stand in the data segment of a story (`Story.Lays`), and where the texts in them come
from: they are numbers, operands that the story holds, or names of its objects and their property tables
(`Story.Cites`).
-/

namespace StoryAsm

/-! ## Operands of tables -/

def Entry.operand? : Entry → Option Operand
  | byteOperand operand | wordOperand operand => some operand
  | byte _ | word _ => none

/-- The operands among the entries of a table. -/
def Table.operands (table : Table) : List Operand :=
  table.entries.toList.filterMap (·.operand?)

def PropertyValue.operands : PropertyValue → List Operand
  | byte operand | word operand => [operand]
  | table entries => entries.operands

/-- An entry is written as a number or as its operand. -/
theorem Entry.text_cases (entry : Entry) :
    (∃ value : Int, entry.text = toString value) ∨
      ∃ operand, entry.operand? = some operand ∧ entry.text = operand.text := by
  cases entry with
  | byte value => exact .inl ⟨value.toNat, rfl⟩
  | word value => exact .inl ⟨value.toInt, rfl⟩
  | byteOperand operand | wordOperand operand => exact .inr ⟨operand, rfl, rfl⟩

/-- Splitting into runs makes up no entry. -/
theorem Run.mem_of_mem_split {run run' : Run} {rest : List Entry} {entry : Entry}
    (hrun : run' ∈ run.split rest) (hentry : entry ∈ run'.entries) :
    entry ∈ run.entries ∨ entry ∈ rest := by
  induction rest generalizing run with
  | nil =>
    obtain rfl := List.mem_singleton.mp hrun
    exact .inl hentry
  | cons next rest ih =>
    rw [Run.split] at hrun
    split at hrun
    · rcases ih hrun with hmem | hmem
      · rcases List.mem_append.mp (show entry ∈ run.entries ++ [next] from hmem) with hmem | hmem
        · exact .inl hmem
        · exact .inr (List.mem_cons.mpr (.inl (List.mem_singleton.mp hmem)))
      · exact .inr (List.mem_cons_of_mem _ hmem)
    · rcases List.mem_cons.mp hrun with rfl | hrun
      · exact .inl hentry
      · rcases ih hrun with hmem | hmem
        · exact .inr (List.mem_cons.mpr (.inl (List.mem_singleton.mp hmem)))
        · exact .inr (List.mem_cons_of_mem _ hmem)

theorem mem_of_mem_runs {run : Run} {entries : List Entry} {entry : Entry} (hrun : run ∈ runs entries)
    (hentry : entry ∈ run.entries) : entry ∈ entries := by
  cases entries with
  | nil => cases hrun
  | cons head rest =>
    rcases Run.mem_of_mem_split hrun hentry with hmem | hmem
    · exact List.mem_cons.mpr (.inl (List.mem_singleton.mp hmem))
    · exact List.mem_cons_of_mem _ hmem

namespace Story

variable {story : Story}

/-! ## Where texts come from -/

/-- The operands that the story holds for its data segment. -/
inductive Uses (story : Story) : Operand → Prop where
  | constant {name : String} {operand : Operand} : (name, operand) ∈ story.constants → Uses story operand
  | global {global : Global} {operand : Operand} : global ∈ story.globals →
    global.value = some operand → Uses story operand
  | property {property : Property} {operand : Operand} : property ∈ story.properties →
    property.value = some operand → Uses story operand
  | object {object : Object} {number : Nat} {value : PropertyValue} {operand : Operand} :
    object ∈ story.objects → (number, value) ∈ object.properties → operand ∈ value.operands →
      Uses story operand
  | table {table : Table} {operand : Operand} : table ∈ story.tables → operand ∈ table.operands →
    Uses story operand
  | word {word : Word} {operand : Operand} : word ∈ story.words → operand ∈ word.table.operands →
    Uses story operand

/-- The texts that statements of the data segment refer to. -/
inductive Cites (story : Story) : String → Prop where
  | number (value : Int) : Cites story (toString value)
  | operand {operand : Operand} : story.Uses operand → Cites story operand.text
  | object {object : Object} : object ∈ story.objects → Cites story object.name
  | table {object : Object} : object ∈ story.objects → Cites story object.tableSymbol

/-- The statements of the data segment. -/
inductive Lays (story : Story) : Statement → Prop where
  | blank : Lays story .blank
  | label (name : String) : Lays story (.label name)
  | assign (name : String) {value : String} : story.Cites value → Lays story (.assign name value)
  | global (name : String) {value : Option String} : (∀ text ∈ value, story.Cites text) →
    Lays story (.global name value)
  | data (width : Width) {values : List String} : values ≠ [] → (∀ text ∈ values, story.Cites text) →
    Lays story (.data width values)
  | object (name : String) (flags : List Nat) {parent sibling child table : String} :
    story.Cites parent → story.Cites sibling → story.Cites child → story.Cites table →
      Lays story (.object name flags parent sibling child table)
  | shortName (text : String) : Lays story (.shortName text)
  | property (size number : Nat) : Lays story (.property size number)
  | dictionaryWord (text : String) : Lays story (.dictionaryWord text)
  | debug {record : String} : story.wantsDebug = true → record ∈ story.debugRecords →
    Lays story (.debug record)

theorem cites_zero (story : Story) : story.Cites "0" := .number 0

theorem lays_number (width : Width) (value : Nat) : story.Lays (.data width [toString value]) :=
  .data width (List.cons_ne_nil _ _) fun _ hmem => by
    rw [List.mem_singleton.mp hmem]
    exact .number value

/-! ## The parts of the segment -/

theorem lays_body {table : Table} (h : ∀ operand ∈ table.operands, story.Uses operand) :
    ∀ statement ∈ table.body, story.Lays statement := by
  intro statement hmem
  obtain ⟨run, hrun, rfl⟩ := List.mem_map.mp hmem
  refine .data _ (List.cons_ne_nil _ _) fun text htext => ?_
  obtain ⟨entry, hentry, rfl⟩ := List.mem_map.mp htext
  have hmem := mem_of_mem_runs hrun hentry
  rcases entry.text_cases with ⟨value, htext⟩ | ⟨operand, hoperand, htext⟩
  · rw [htext]
    exact .number value
  · rw [htext]
    exact .operand (h operand (List.mem_filterMap.mpr ⟨entry, hmem, hoperand⟩))

theorem lays_assignments (story : Story) : ∀ statement ∈ story.assignments, story.Lays statement := by
  intro statement hmem
  simp only [assignments, List.mem_append, List.mem_map, List.mem_mergeSort] at hmem
  rcases hmem with ((⟨name, -, rfl⟩ | ⟨flag, -, rfl⟩) | ⟨property, -, rfl⟩) | ⟨constant, hmem, rfl⟩
  · exact .assign _ story.cites_zero
  · exact .assign _ (.number flag.number)
  · exact .assign _ (.number property.number)
  · exact .assign _ (.operand (.constant (Array.mem_toList_iff.mp hmem)))

theorem mem_globals_of_mem_orderedGlobals {global : Global} (h : global ∈ story.orderedGlobals) :
    global ∈ story.globals := by
  rw [orderedGlobals] at h
  split at h
  · rcases List.mem_append.mp h with h | h
    · obtain ⟨name, -, hfind⟩ := List.mem_filterMap.mp h
      exact Array.mem_toList_iff.mp (List.mem_of_find?_eq_some hfind)
    · exact Array.mem_toList_iff.mp (List.mem_filter.mp h).1
  · exact Array.mem_toList_iff.mp h

theorem lays_globals (story : Story) :
    ∀ statement ∈ story.orderedGlobals.map (·.statement), story.Lays statement := by
  intro statement hmem
  obtain ⟨global, hglobal, rfl⟩ := List.mem_map.mp hmem
  refine .global _ fun text htext => ?_
  obtain ⟨operand, hvalue, rfl⟩ := Option.map_eq_some_iff.mp htext
  exact .operand (.global (mem_globals_of_mem_orderedGlobals hglobal) hvalue)

theorem cites_propertyDefault (story : Story) (number : Nat) :
    story.Cites (story.propertyDefault number) := by
  rw [propertyDefault]
  split
  · rename_i value hvalue
    obtain ⟨property, hfind, hvalue⟩ := Option.bind_eq_some_iff.mp hvalue
    exact .operand (.property (Array.mem_of_find?_eq_some hfind) hvalue)
  · exact story.cites_zero

theorem cites_linkName (story : Story) (link : Option ObjectId) : story.Cites (story.linkName link) := by
  rw [linkName]
  cases h : link.bind fun id => story.objects[id.index]? with
  | none => exact story.cites_zero
  | some object =>
    obtain ⟨id, -, hget⟩ := Option.bind_eq_some_iff.mp h
    exact .object (Array.mem_of_getElem? hget)

theorem lays_objects (story : Story) : ∀ statement ∈ story.objectStatements, story.Lays statement := by
  intro statement hmem
  rcases List.mem_append.mp hmem with hmem | hmem
  · obtain ⟨index, -, rfl⟩ := List.mem_map.mp hmem
    refine .data _ (List.cons_ne_nil _ _) fun text htext => ?_
    rw [List.mem_singleton.mp htext]
    exact story.cites_propertyDefault (index + 1)
  · obtain ⟨object, hobject, rfl⟩ := List.mem_map.mp hmem
    exact .object _ _ (story.cites_linkName _) (story.cites_linkName _) (story.cites_linkName _)
      (.table (Array.mem_toList_iff.mp hobject))

theorem lays_propertyStatements {object : Object} {limit number : Nat} {value : PropertyValue}
    (hobject : object ∈ story.objects) (hvalue : (number, value) ∈ object.properties)
    {statements : List Statement} (h : object.propertyStatements limit number value = .ok statements) :
    ∀ statement ∈ statements, story.Lays statement := by
  have huses : ∀ operand ∈ value.operands, story.Uses operand := fun _ hmem =>
    .object hobject hvalue hmem
  intro statement hmem
  cases value with
  | byte operand | word operand =>
    cases h
    rw [List.mem_cons, List.mem_singleton] at hmem
    rcases hmem with rfl | rfl
    · exact .property _ _
    · refine .data _ (List.cons_ne_nil _ _) fun text htext => ?_
      rw [List.mem_singleton.mp htext]
      exact .operand (huses operand (List.mem_singleton_self operand))
  | table table =>
    simp only [Object.propertyStatements] at h
    split at h
    · cases h
    · cases h
      rcases List.mem_cons.mp hmem with rfl | hmem
      · exact .property _ _
      · exact lays_body huses statement hmem

theorem lays_propertyTables {tables : List Statement} (h : story.propertyTables = .ok tables) :
    ∀ statement ∈ tables, story.Lays statement := by
  obtain ⟨all, hall, h⟩ := bind_eq_ok.mp h
  cases h
  intro statement hmem
  obtain ⟨table, htable, hmem⟩ := List.mem_flatMap.mp hmem
  obtain ⟨object, hobject, hstatements⟩ := exists_of_mem_mapM hall htable
  obtain ⟨properties, hproperties, hstatements⟩ := bind_eq_ok.mp hstatements
  cases hstatements
  simp only [List.mem_cons, List.mem_append, List.cons_append, List.not_mem_nil, or_false] at hmem
  rcases hmem with rfl | rfl | rfl | hmem | rfl
  · exact .blank
  · exact .label _
  · split
    · exact .shortName _
    · exact lays_number .byte 0
  · obtain ⟨statements, hvalue, hmem⟩ := List.mem_flatten.mp hmem
    obtain ⟨entry, hentry, hvalue⟩ := exists_of_mem_mapM hproperties hvalue
    exact lays_propertyStatements (Array.mem_toList_iff.mp hobject)
      (Array.mem_toList_iff.mp (Object.mem_sortedProperties.mp hentry)) hvalue statement hmem
  · exact lays_number .byte 0

theorem lays_tables (story : Story) (isPure : Bool) :
    ∀ statement ∈ story.tableStatements isPure, story.Lays statement := by
  intro statement hmem
  obtain ⟨table, htable, hmem⟩ := List.mem_flatMap.mp hmem
  have hstory : table ∈ story.tables := Array.mem_toList_iff.mp (List.mem_filter.mp htable).1
  rcases List.mem_cons.mp hmem with rfl | hmem
  · exact .blank
  · rcases List.mem_cons.mp hmem with rfl | hmem
    · exact .label _
    · exact lays_body (fun _ => .table hstory) statement hmem

theorem lays_vocabulary (story : Story) : ∀ statement ∈ story.vocabulary, story.Lays statement := by
  intro statement hmem
  rcases List.mem_append.mp hmem with hmem | hmem
  · simp only [List.mem_cons, List.not_mem_nil, or_false] at hmem
    rcases hmem with rfl | rfl | rfl | rfl
    · exact lays_number _ _
    · refine .data _ (List.cons_ne_nil _ _) fun text htext => ?_
      obtain ⟨c, -, rfl⟩ := List.mem_map.mp htext
      exact .number c.toNat
    · exact lays_number _ _
    · exact lays_number _ _
  · obtain ⟨word, hword, hmem⟩ := List.mem_flatMap.mp hmem
    have hstory : word ∈ story.words := Array.mem_toList_iff.mp (List.mem_mergeSort.mp hword)
    rcases List.mem_append.mp hmem with hmem | hmem
    · rcases List.mem_append.mp hmem with hmem | hmem
      · rw [List.mem_cons, List.mem_singleton] at hmem
        rcases hmem with rfl | rfl
        · exact .label _
        · exact .dictionaryWord _
      · exact lays_body (fun _ => .word hstory) statement hmem
    · rw [List.eq_of_mem_replicate hmem]
      exact lays_number .byte 0

/-- What holds of the statements of each part holds of the whole segment. -/
theorem forall_mem_data {P : Statement → Prop} {data : List Statement}
    (hdata : story.dataStatements = .ok data) (hblank : P .blank) (hlabel : ∀ name, P (.label name))
    (hassignments : ∀ statement ∈ story.assignments, P statement)
    (hglobals : ∀ statement ∈ story.orderedGlobals.map (·.statement), P statement)
    (hobjects : ∀ statement ∈ story.objectStatements, P statement)
    (hproperties : ∀ {tables}, story.propertyTables = .ok tables → ∀ statement ∈ tables, P statement)
    (htables : ∀ isPure, ∀ statement ∈ story.tableStatements isPure, P statement)
    (hvocabulary : ∀ statement ∈ story.vocabulary, P statement)
    (hrecord : story.wantsDebug = true → ∀ record ∈ story.debugRecords, P (.debug record)) :
    ∀ statement ∈ data, P statement := by
  obtain ⟨tables, hall, hdata⟩ := bind_eq_ok.mp hdata
  obtain rfl := Except.ok.inj hdata
  have hmark : ∀ name, ∀ statement ∈ [Statement.blank, .label name], P statement := by
    intro name
    simp only [List.mem_cons, List.not_mem_nil, or_false, forall_eq_or_imp, forall_eq]
    exact ⟨hblank, hlabel name⟩
  have hdebug : ∀ statement ∈
      (if story.wantsDebug then .blank :: story.debugRecords.map .debug else [] : List Statement),
      P statement := by
    intro statement hmem
    split at hmem
    · rename_i hwants
      rcases List.mem_cons.mp hmem with rfl | hmem
      · exact hblank
      · obtain ⟨record, hrecords, rfl⟩ := List.mem_map.mp hmem
        exact hrecord hwants record hrecords
    · cases hmem
  simp only [List.forall_mem_append]
  exact ⟨⟨⟨⟨⟨⟨⟨⟨⟨⟨⟨⟨hassignments, hmark _⟩, hglobals⟩, hmark _⟩, hobjects⟩, hproperties hall⟩,
    htables _⟩, hmark _⟩, hmark _⟩, hvocabulary⟩, htables _⟩, hmark _⟩, hdebug⟩

/-- Every statement of the data segment is one of those that a story lays out. -/
theorem lays_of_mem_data {data : List Statement} (hdata : story.dataStatements = .ok data) :
    ∀ statement ∈ data, story.Lays statement :=
  forall_mem_data hdata .blank .label story.lays_assignments story.lays_globals story.lays_objects
    lays_propertyTables story.lays_tables story.lays_vocabulary fun hwants _ => .debug hwants

end Story

end StoryAsm
