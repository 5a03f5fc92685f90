import Mathlib.Data.List.Perm.Basic
import StoryAsm.Proofs.Story.Call

/-!
# Definitions in what is written

Each thing that was defined has one statement that defines it: an assignment, `.GVAR`, `.FUNCT`,
`.OBJECT` or a label. When the story is written, this statement is written once, and no other statement
of its form has the same name.
-/

namespace StoryAsm

/-! ## What is collected from statements -/

section

variable {α β ι : Type} (part : α → Option β)

theorem filterMap_map_eq_nil {f : ι → α} (h : ∀ x, part (f x) = none) (xs : List ι) :
    (xs.map f).filterMap part = [] :=
  List.filterMap_eq_nil_iff.mpr (List.forall_mem_map.mpr fun x _ => h x)

theorem filterMap_map_eq_map {f : ι → α} {g : ι → β} (h : ∀ x, part (f x) = some (g x)) (xs : List ι) :
    (xs.map f).filterMap part = xs.map g := by
  rw [List.filterMap_map, ← List.filterMap_eq_map]
  exact List.filterMap_congr fun x _ => h x

theorem filterMap_flatMap_congr {f : ι → List α} {g : ι → List β} {xs : List ι}
    (h : ∀ x ∈ xs, (f x).filterMap part = g x) : (xs.flatMap f).filterMap part = xs.flatMap g := by
  rw [List.filterMap_flatMap]
  exact List.flatMap_congr h

end

/-! ## Definitions -/

/-- The forms of statements that define something. -/
inductive DefinitionForm where
  | assignment
  | global
  | label
  | routine
  | object
  deriving DecidableEq

def SymbolKind.form : SymbolKind → DefinitionForm
  | .constant | .property | .flag => .assignment
  | .global => .global
  | .table | .word => .label
  | .routine => .routine
  | .object => .object

/-- The name that the statement defines, if it has the form. -/
def Statement.defined? : DefinitionForm → Statement → Option String
  | .assignment, .assign name _ => some name
  | .global, .global name _ => some name
  | .label, .label name => some name
  | .routine, .routine name _ => some name
  | .object, .object name .. => some name
  | _, _ => none

/-- The things of a kind that the story has, by name, each with the statement that defines it. -/
def Story.definitions (story : Story) : SymbolKind → List (String × Statement)
  | .constant => story.constants.toList.map fun (name, value) => (name, .assign name value.text)
  | .global => story.globals.toList.map fun global => (global.name, global.statement)
  | .table => (List.range story.tables.size).map fun index =>
    (s!"TBL?{index}", .label s!"TBL?{index}")
  | .routine => story.routines.toList.map fun routine => (routine.name, routine.headStatement)
  | .object => story.objects.toList.map fun object =>
    (object.name, object.record story.version.flagWords story.linkName)
  | .property => story.properties.toList.map fun property =>
    (property.symbol, .assign property.symbol (toString property.number))
  | .flag => story.flags.toList.map fun flag => (flag.name, .assign flag.name (toString flag.number))
  | .word => story.words.toList.map fun word => (word.table.name, .label word.table.name)

theorem Story.names_eq_map_definitions (story : Story) (kind : SymbolKind) :
    story.names kind = (story.definitions kind).map (·.1) := by
  cases kind <;> simp [names, definitions]

/-! ## Names that statements define -/

/-- The label is that of a table or a word. Other labels have no question mark, or start with it. -/
def isOwnLabel (name : String) : Bool :=
  name.toList.contains '?' && name.toList.head? != some '?'

/-- The name that the statement defines, where labels other than those of tables and words are left
out. -/
def Statement.own? (form : DefinitionForm) (statement : Statement) : Option String :=
  (statement.defined? form).filter fun name => form ≠ .label || isOwnLabel name

def Statement.isDefinition : Statement → Bool
  | label _ | assign .. | global .. | routine .. | object .. => true
  | _ => false

theorem Statement.own?_of_not_isDefinition {statement : Statement}
    (h : statement.isDefinition = false) (form : DefinitionForm) : statement.own? form = none := by
  cases statement with
  | label | assign | global | routine | object => cases h
  | _ => cases form <;> rfl

/-- The names that statements define. -/
def ownNames (form : DefinitionForm) (statements : List Statement) : List String :=
  statements.filterMap (·.own? form)

section

variable (form : DefinitionForm)

@[simp] theorem ownNames_nil : ownNames form [] = [] := rfl

@[simp] theorem ownNames_append (left right : List Statement) :
    ownNames form (left ++ right) = ownNames form left ++ ownNames form right :=
  List.filterMap_append

theorem ownNames_cons_of_not {statement : Statement} (h : statement.isDefinition = false)
    (rest : List Statement) : ownNames form (statement :: rest) = ownNames form rest :=
  List.filterMap_cons_none (Statement.own?_of_not_isDefinition h form)

theorem ownNames_eq_nil {statements : List Statement}
    (h : ∀ statement ∈ statements, statement.isDefinition = false) : ownNames form statements = [] :=
  List.filterMap_eq_nil_iff.mpr fun statement hmem =>
    Statement.own?_of_not_isDefinition (h statement hmem) form

theorem ownNames_map_eq_nil {ι : Type} {f : ι → Statement} (h : ∀ x, (f x).isDefinition = false)
    (xs : List ι) : ownNames form (xs.map f) = [] :=
  ownNames_eq_nil form (List.forall_mem_map.mpr fun x _ => h x)

theorem ownNames_flatMap {ι : Type} (xs : List ι) (f : ι → List Statement) :
    ownNames form (xs.flatMap f) = xs.flatMap fun x => ownNames form (f x) := by
  unfold ownNames
  rw [List.filterMap_flatMap]

/-- Parts that define one name each. -/
theorem ownNames_flatMap_of_forall {ι : Type} {form' : DefinitionForm} {xs : List ι}
    {f : ι → List Statement} {g : ι → String}
    (h : ∀ x ∈ xs, ownNames form (f x) = if form = form' then [g x] else []) :
    ownNames form (xs.flatMap f) = if form = form' then xs.map g else [] := by
  rw [ownNames_flatMap, List.flatMap_def, List.map_congr_left h, ← List.flatMap_def]
  split
  · rw [List.map_eq_flatMap]
  · simp

theorem ownNames_map_of_forall {ι : Type} {form' : DefinitionForm} {xs : List ι}
    {f : ι → Statement} {g : ι → String}
    (h : ∀ x, ownNames form [f x] = if form = form' then [g x] else []) :
    ownNames form (xs.map f) = if form = form' then xs.map g else [] := by
  rw [List.map_eq_flatMap]
  exact ownNames_flatMap_of_forall form fun x _ => h x

theorem ownNames_label_cons {name : String} (h : isOwnLabel name = false) (rest : List Statement) :
    ownNames form (.label name :: rest) = ownNames form rest := by
  apply List.filterMap_cons_none
  cases form <;> simp [Statement.own?, Statement.defined?, h]

theorem ownNames_ownLabel_cons {name : String} (h : isOwnLabel name = true) (rest : List Statement) :
    ownNames form (.label name :: rest) =
      (if form = .label then [name] else []) ++ ownNames form rest := by
  cases form with
  | label =>
    apply List.filterMap_cons_some
    simp [Statement.own?, Statement.defined?, h]
  | _ => rfl

theorem ownNames_assign {ι : Type} (xs : List ι) (g value : ι → String) :
    ownNames form (xs.map fun x => .assign (g x) (value x)) =
      if form = .assignment then xs.map g else [] := by
  refine ownNames_map_of_forall form fun x => ?_
  cases form <;> rfl

theorem not_isDefinition_of_mem_body {table : Table} {statement : Statement}
    (h : statement ∈ table.body) : statement.isDefinition = false := by
  obtain ⟨run, -, rfl⟩ := List.mem_map.mp h
  rfl

/-! ## Code -/

theorem ownNames_routine (routine : Routine) (place : Option (Nat × Span)) :
    ownNames form (routine.statements place) = if form = .routine then [routine.name] else [] := by
  have hstart : ownNames form (if routine.isEntryPoint then [.label "START"] else []) = [] := by
    split
    · exact ownNames_label_cons form (by decide) []
    · rfl
  have hcode : ownNames form (Routine.codeStatements routine.flushed) = [] := by
    simp only [Routine.codeStatements, ownNames_append]
    rw [ownNames_map_eq_nil form fun _ => rfl, ownNames_map_eq_nil form fun _ => rfl,
      ownNames_map_eq_nil form fun _ => rfl]
    rfl
  have hhead : ownNames form [routine.headStatement] =
      if form = .routine then [routine.name] else [] := by
    cases form <;> rfl
  have hblank : ownNames form [.blank] = [] := ownNames_eq_nil form (by simp [Statement.isDefinition])
  simp only [Routine.statements, ownNames_append, hstart, hcode, hhead, hblank]
  rw [ownNames_map_eq_nil form fun _ => rfl, ownNames_map_eq_nil form fun _ => rfl]
  simp

theorem ownNames_main {s s' : Story} (h : Story.FinishedBelow s.routines.size s s') (base : String) :
    ownNames form (s'.mainStatements base) = if form = .routine then s.names .routine else [] := by
  have hheader : ownNames form (if s'.version.hasHeaderBlock then Story.headerStatements s'.version
      else []) = [] := by
    split
    · exact ownNames_eq_nil form (by simp [Story.headerStatements, Statement.isDefinition])
    · rfl
  have hroutines : ownNames form (s'.routines.toList.flatMap fun routine => routine.body.getD []) =
      if form = .routine then s.names .routine else [] := by
    rw [Story.names, ← h.map_name]
    refine ownNames_flatMap_of_forall form fun routine' hmem => ?_
    obtain ⟨routine, place, rfl⟩ := h.exists_finish hmem
    exact ownNames_routine form routine place
  simp only [Story.mainStatements, ownNames_append, hroutines, hheader]
  cases form <;> simp [ownNames, Statement.own?, Statement.defined?]

/-! ## Data -/

variable {s : Story}

/-- The header symbols that the story does not define. -/
def Story.freeHeaders (story : Story) : List String :=
  if story.version.hasHeaderBlock then headerSymbols.filter (!story.symbols.contains ·) else []

theorem ownNames_assignments :
    (ownNames form s.assignments).Perm
      (if form = .assignment then
        s.freeHeaders ++ s.names .flag ++ s.names .property ++ s.names .constant
      else []) := by
  simp only [Story.assignments, ownNames_append]
  rw [ownNames_assign, ownNames_assign, ownNames_assign, ownNames_assign]
  split
  · rw [List.map_id']
    refine (((List.Perm.refl _).append ?_).append ?_).append ?_
    · exact (List.mergeSort_perm _ _).map _
    · exact (List.mergeSort_perm _ _).map _
    · exact (List.mergeSort_perm _ _).map _
  · exact .rfl

theorem ownNames_objects :
    ownNames form s.objectStatements = if form = .object then s.names .object else [] := by
  simp only [Story.objectStatements, ownNames_append]
  rw [ownNames_map_eq_nil form fun _ => rfl, List.nil_append]
  refine ownNames_map_of_forall form fun object => ?_
  cases form <;> rfl

theorem not_isDefinition_of_mem_propertyStatements {object : Object} {limit number : Nat}
    {value : PropertyValue} {statements : List Statement}
    (h : object.propertyStatements limit number value = .ok statements) {statement : Statement}
    (hmem : statement ∈ statements) : statement.isDefinition = false := by
  cases value with
  | byte operand | word operand =>
    cases h
    rw [List.mem_cons, List.mem_singleton] at hmem
    rcases hmem with rfl | rfl <;> rfl
  | table table =>
    simp only [Object.propertyStatements] at h
    split at h
    · cases h
    · cases h
      rcases List.mem_cons.mp hmem with rfl | hmem
      · rfl
      · exact not_isDefinition_of_mem_body hmem

theorem ownNames_propertyTable {object : Object} {limit : Nat} {table : List Statement}
    (h : object.tableStatements limit = .ok table) : ownNames form table = [] := by
  obtain ⟨properties, hproperties, h⟩ := bind_eq_ok.mp h
  cases h
  have hlabel : isOwnLabel object.tableSymbol = false := by simp [isOwnLabel, Object.tableSymbol]
  rw [List.cons_append, ownNames_label_cons form hlabel]
  refine ownNames_eq_nil form fun statement hmem => ?_
  rw [List.cons_append, List.mem_cons, List.mem_append, List.mem_singleton] at hmem
  rcases hmem with rfl | hmem | rfl
  · cases object.description <;> rfl
  · obtain ⟨statements, hstatements, hmem⟩ := List.mem_flatten.mp hmem
    obtain ⟨entry, -, hentry⟩ := exists_of_mem_mapM hproperties hstatements
    exact not_isDefinition_of_mem_propertyStatements hentry hmem
  · rfl

theorem ownNames_propertyTables {tables : List Statement} (h : s.propertyTables = .ok tables) :
    ownNames form tables = [] := by
  obtain ⟨all, hall, h⟩ := bind_eq_ok.mp h
  cases h
  rw [ownNames_flatMap, List.flatMap_eq_nil_iff]
  intro table hmem
  obtain ⟨object, -, hobject⟩ := exists_of_mem_mapM hall hmem
  rw [ownNames_cons_of_not form rfl]
  exact ownNames_propertyTable form hobject

theorem ownNames_tables (hlabels : ∀ table ∈ s.tables, isOwnLabel table.name = true) (isPure : Bool) :
    ownNames form (s.tableStatements isPure) =
      if form = .label then (s.tables.toList.filter (·.isPure == isPure)).map (·.name) else [] := by
  refine ownNames_flatMap_of_forall form fun table hmem => ?_
  have htable : table ∈ s.tables := by simpa using (List.mem_filter.mp hmem).1
  have hbody : ownNames form table.body = [] :=
    ownNames_eq_nil form fun _ => not_isDefinition_of_mem_body
  rw [ownNames_cons_of_not form rfl, Table.statements,
    ownNames_ownLabel_cons form (hlabels table htable), hbody, List.append_nil]

theorem ownNames_vocabulary (hlabels : ∀ word ∈ s.words, isOwnLabel word.table.name = true) :
    ownNames form s.vocabulary = if form = .label then s.sortedWords.map (·.table.name) else [] := by
  simp only [Story.vocabulary, ownNames_append]
  rw [ownNames_eq_nil form (by simp [Statement.isDefinition]), List.nil_append]
  refine ownNames_flatMap_of_forall form fun word hmem => ?_
  have hword : word ∈ s.words := by
    simpa using (List.mergeSort_perm _ _).mem_iff.mp hmem
  have hbody : ownNames form word.table.body = [] :=
    ownNames_eq_nil form fun _ => not_isDefinition_of_mem_body
  have hzeros : ∀ count, ownNames form (List.replicate count (.data .byte ["0"])) = [] := fun count =>
    ownNames_eq_nil form fun _ hmem => by rw [List.eq_of_mem_replicate hmem]; rfl
  rw [Word.statements, ownNames_append, ownNames_append, hbody, hzeros,
    ownNames_ownLabel_cons form (hlabels word hword), ownNames_cons_of_not form rfl]
  simp

end

section Globals

variable {globals : List Global}

theorem find?_of_mem (hnodup : (globals.map (·.name)).Nodup) {global : Global}
    (hmem : global ∈ globals) : globals.find? (·.name == global.name) = some global := by
  induction globals with
  | nil => cases hmem
  | cons first rest ih =>
    obtain ⟨hfirst, hrest⟩ := List.nodup_cons.mp hnodup
    rcases List.mem_cons.mp hmem with rfl | hmem
    · simp
    · have hne : first.name ≠ global.name := fun he =>
        hfirst (List.mem_map.mpr ⟨global, hmem, he.symm⟩)
      rw [List.find?_cons_of_neg (by simpa using hne)]
      exact ih hrest hmem

/-- Some globals in front of the others. -/
theorem perm_pulled {first : List String} (hfirst : first.Nodup)
    (hnodup : (globals.map (·.name)).Nodup) :
    (first.filterMap (fun name => globals.find? (·.name == name)) ++
      globals.filter (!first.contains ·.name)).Perm globals := by
  have hglobals : globals.Nodup := by
    refine (List.pairwise_map.mp hnodup).imp ?_
    rintro global _ hne rfl
    exact hne rfl
  have hpulled : ∀ global, global ∈ first.filterMap (fun name => globals.find? (·.name == name)) ↔
      global ∈ globals ∧ global.name ∈ first := by
    intro global
    rw [List.mem_filterMap]
    constructor
    · rintro ⟨name, hname, hfind⟩
      have hname' : global.name = name := by simpa using List.find?_some hfind
      exact ⟨List.mem_of_find?_eq_some hfind, hname' ▸ hname⟩
    · rintro ⟨hmem, hname⟩
      exact ⟨global.name, hname, find?_of_mem hnodup hmem⟩
  refine (List.perm_ext_iff_of_nodup ?_ hglobals).mpr fun global => ?_
  · refine List.nodup_append.mpr ⟨?_, hglobals.filter _, ?_⟩
    · refine List.pairwise_filterMap.mpr (hfirst.imp ?_)
      rintro name name' hne global hfind global' hfind' rfl
      have hname : global.name = name := by simpa using List.find?_some hfind
      have hname' : global.name = name' := by simpa using List.find?_some hfind'
      exact hne (hname.symm.trans hname')
    · rintro global hmem _ hmem' rfl
      have hin := ((hpulled global).mp hmem).2
      simp [hin] at hmem'
  · rw [List.mem_append, hpulled, List.mem_filter]
    by_cases hin : global.name ∈ first <;> simp [hin]

theorem orderedGlobals_perm {s : Story} (hnodup : (s.names .global).Nodup) :
    s.orderedGlobals.Perm s.globals.toList := by
  unfold Story.orderedGlobals
  split
  · exact perm_pulled (by decide) hnodup
  · exact .rfl

end Globals

/-! ## All segments -/

/-- The names that the statements of a form define, in some order. -/
def Story.expectedNames (story : Story) : DefinitionForm → List String
  | .assignment =>
    story.freeHeaders ++ story.names .flag ++ story.names .property ++ story.names .constant
  | .global => story.names .global
  | .label => story.names .table ++ story.names .word
  | .routine => story.names .routine
  | .object => story.names .object

theorem ownNames_globals (form : DefinitionForm) (globals : List Global) :
    ownNames form (globals.map (·.statement)) =
      if form = .global then globals.map (·.name) else [] := by
  refine ownNames_map_of_forall form fun global => ?_
  cases form <;> rfl

/-- Tables are written in two parts. -/
theorem perm_tables {s : Story} (htables : s.tables.toList.map (·.name) = s.names .table) :
    ((s.tables.toList.filter (·.isPure == false)).map (·.name) ++
      (s.tables.toList.filter (·.isPure == true)).map (·.name)).Perm (s.names .table) := by
  rw [← htables, ← List.map_append]
  refine List.Perm.map _ (List.Perm.trans ?_ (List.filter_append_perm (·.isPure == false) _))
  refine (List.Perm.refl _).append (.of_eq (List.filter_congr fun table _ => ?_))
  cases table.isPure <;> rfl

theorem ownNames_data {s : Story} {data : List Statement} (form : DefinitionForm)
    (hglobals : (s.names .global).Nodup)
    (htables : s.tables.toList.map (·.name) = s.names .table)
    (htableLabels : ∀ table ∈ s.tables, isOwnLabel table.name = true)
    (hwordLabels : ∀ word ∈ s.words, isOwnLabel word.table.name = true)
    (h : s.dataStatements = .ok data) :
    (ownNames form data).Perm (if form = .routine then [] else s.expectedNames form) := by
  obtain ⟨tables, hpropertyTables, h⟩ := bind_eq_ok.mp h
  obtain rfl := Except.ok.inj h
  have hdebug :
      ownNames form (if s.wantsDebug then .blank :: s.debugRecords.map .debug else []) = [] := by
    split
    · rw [ownNames_cons_of_not form rfl]
      exact ownNames_map_eq_nil form (fun _ => rfl) _
    · rfl
  have hmark : ∀ name, isOwnLabel name = false → ownNames form [.blank, .label name] = [] := by
    intro name hname
    rw [ownNames_cons_of_not form rfl, ownNames_label_cons form hname, ownNames_nil]
  have hassignments : (ownNames form s.assignments).Perm _ := ownNames_assignments form
  simp only [ownNames_append, hdebug, hmark "GLOBAL" (by decide), hmark "OBJECT" (by decide),
    hmark "IMPURE" (by decide), hmark "VOCAB" (by decide), hmark "ENDLOD" (by decide), ownNames_globals,
    ownNames_objects, ownNames_propertyTables form hpropertyTables, ownNames_tables form htableLabels,
    ownNames_vocabulary form hwordLabels, List.append_nil]
  cases form with
  | assignment => simpa [Story.expectedNames] using hassignments
  | global =>
    have hnone : ownNames .global s.assignments = [] := by simpa using hassignments
    simpa [hnone, Story.expectedNames, Story.names] using (orderedGlobals_perm hglobals).map (·.name)
  | label =>
    have hnone : ownNames .label s.assignments = [] := by simpa using hassignments
    have hwords : (s.sortedWords.map (·.table.name)).Perm (s.names .word) :=
      (List.mergeSort_perm _ _).map _
    simp only [hnone, reduceCtorEq, ↓reduceIte, List.append_nil, List.nil_append, Story.expectedNames]
    refine List.Perm.trans ?_ ((perm_tables htables).append hwords)
    rw [List.append_assoc, List.append_assoc]
    exact (List.Perm.refl _).append List.perm_append_comm
  | routine =>
    have hnone : ownNames .routine s.assignments = [] := by simpa using hassignments
    simp [hnone]
  | object =>
    have hnone : ownNames .object s.assignments = [] := by simpa using hassignments
    simp [hnone, Story.expectedNames]

namespace Story

/-- All statements that are written. -/
def written (story : Story) (base : String) (keeps : Bool) (data : List Statement) : List Statement :=
  story.mainStatements base ++ data ++ story.stringStatements ++
    if keeps then [] else frequentStatements

/-- Nothing but definitions was made. -/
structure Bare (story : Story) : Prop where
  routines : ∀ routine ∈ story.routines, routine.isFinished = false
  objects : ∀ object ∈ story.objects, object.properties = #[]
  words : ∀ word ∈ story.words, isOwnLabel word.table.name = true

variable {s s' : Story} {data : List Statement}

theorem isOwnLabel_append {mark : String} (h : isOwnLabel mark = true) (rest : String) :
    isOwnLabel (mark ++ rest) = true := by
  unfold isOwnLabel at h ⊢
  rw [String.toList_append]
  cases hmark : mark.toList with
  | nil => simp [hmark] at h
  | cons c chars =>
    simp_all only [List.contains_cons, List.cons_append, List.head?_cons, Bool.and_eq_true,
      Bool.or_eq_true, List.contains_append, and_true]
    exact h.1.imp_right .inl

theorem Consistent.isOwnLabel_of_mem (h : s.Consistent) {table : Table} (hmem : table ∈ s.tables) :
    isOwnLabel table.name = true := by
  have hname : table.name ∈ s.names .table := by
    rw [← h.tables]
    exact List.mem_map.mpr ⟨table, by simpa using hmem, rfl⟩
  obtain ⟨index, -, hindex⟩ := List.mem_map.mp hname
  rw [← hindex]
  exact isOwnLabel_append (by decide) _

theorem ownNames_written (form : DefinitionForm) (hc : s.Consistent) (hb : s.Bare)
    (hs : FinishedBelow s.routines.size s s') (hdata : s'.dataStatements = .ok data) (base : String)
    (keeps : Bool) : (ownNames form (s'.written base keeps data)).Perm (s.expectedNames form) := by
  have hmain := ownNames_main form hs base
  have hstrings : ownNames form s'.stringStatements = [] :=
    ownNames_map_eq_nil form (fun _ => rfl) _
  have hfrequent : ownNames form (if keeps then [] else frequentStatements) = [] := by
    split
    · rfl
    · rw [frequentStatements, List.cons_append, ownNames_cons_of_not form rfl, List.cons_append,
        ownNames_label_cons form (by decide)]
      exact ownNames_eq_nil form fun _ hmem => by
        rw [List.nil_append] at hmem
        rw [List.eq_of_mem_replicate hmem]
        rfl
  have hdatas : (ownNames form data).Perm (if form = .routine then [] else s.expectedNames form) := by
    obtain ⟨routines, registry, log, rfl⟩ := hs.same
    refine (ownNames_data (s := { s with routines, registry, log }) form (hc.nodup .global) hc.tables
      (fun _ => hc.isOwnLabel_of_mem) hb.words hdata).trans (.of_eq ?_)
    cases form <;> rfl
  simp only [written, ownNames_append, hmain, hstrings, hfrequent, List.append_nil]
  split
  next hform =>
    rw [if_pos hform] at hdatas
    rw [hdatas.eq_nil, hform, List.append_nil]
    exact .rfl
  next hform =>
    rw [if_neg hform] at hdatas
    simpa using hdatas

theorem Consistent.ne_of_mem (h : s.Consistent) {kind kind' : SymbolKind} (hne : kind ≠ kind') :
    ∀ name ∈ s.names kind, ∀ name' ∈ s.names kind', name ≠ name' := by
  rintro name hmem _ hmem' rfl
  have hkind := (h.kinds name kind).mpr hmem
  rw [(h.kinds name kind').mpr hmem'] at hkind
  exact hne (Option.some.inj hkind).symm

theorem Consistent.nodup_names (h : s.Consistent) : (SymbolKind.all.flatMap s.names).Nodup := by
  have hall : SymbolKind.all.Nodup := by decide
  exact List.pairwise_flatMap.mpr ⟨fun kind _ => h.nodup kind, hall.imp fun hne => h.ne_of_mem hne⟩

theorem nodup_freeHeaders (story : Story) : story.freeHeaders.Nodup := by
  have hall : headerSymbols.Nodup := by decide
  unfold freeHeaders
  split
  · exact hall.filter _
  · exact .nil

theorem Consistent.ne_of_mem_freeHeaders (h : s.Consistent) (kind : SymbolKind) :
    ∀ name ∈ s.freeHeaders, ∀ name' ∈ s.names kind, name ≠ name' := by
  rintro name hmem _ hmem' rfl
  have hcontains := (Definition.contains_iff_kind? _ _).mpr ⟨kind, (h.kinds name kind).mpr hmem'⟩
  unfold freeHeaders at hmem
  split at hmem
  · simp [hcontains] at hmem
  · cases hmem

theorem Consistent.nodup_expectedNames (h : s.Consistent) (form : DefinitionForm) :
    (s.expectedNames form).Nodup := by
  cases form with
  | global => exact h.nodup .global
  | routine => exact h.nodup .routine
  | object => exact h.nodup .object
  | label =>
    exact List.nodup_append.mpr ⟨h.nodup .table, h.nodup .word, h.ne_of_mem (by decide)⟩
  | assignment =>
    have hfree := h.ne_of_mem_freeHeaders
    simp only [expectedNames, List.nodup_append, List.mem_append]
    refine ⟨⟨⟨nodup_freeHeaders s, h.nodup .flag, hfree .flag⟩, h.nodup .property, ?_⟩, h.nodup .constant, ?_⟩
    · rintro name (hmem | hmem)
      · exact hfree .property name hmem
      · exact h.ne_of_mem (by decide) name hmem
    · rintro name ((hmem | hmem) | hmem)
      · exact hfree .constant name hmem
      · exact h.ne_of_mem (by decide) name hmem
      · exact h.ne_of_mem (by decide) name hmem

/-! ## Each definition once -/

theorem filter_own?_eq_singleton {form : DefinitionForm} {statements : List Statement}
    {line : Statement} {name : String} (hnodup : (ownNames form statements).Nodup)
    (hmem : line ∈ statements) (hline : line.own? form = some name) :
    statements.filter (·.own? form = some name) = [line] := by
  induction statements with
  | nil => cases hmem
  | cons first rest ih =>
    by_cases hfirst : first.own? form = some name
    · have hrest : name ∉ ownNames form rest := by
        rw [ownNames, List.filterMap_cons_some hfirst] at hnodup
        exact (List.nodup_cons.mp hnodup).1
      have hnone : rest.filter (·.own? form = some name) = [] := by
        refine List.filter_eq_nil_iff.mpr fun statement hstatement hown => hrest ?_
        exact List.mem_filterMap.mpr ⟨statement, hstatement, by simpa using hown⟩
      rw [List.filter_cons_of_pos (by simpa using hfirst), hnone]
      rcases List.mem_cons.mp hmem with rfl | hmem
      · rfl
      · exact absurd (List.mem_filterMap.mpr ⟨line, hmem, hline⟩) hrest
    · rw [List.filter_cons_of_neg (by simpa using hfirst)]
      refine ih (hnodup.sublist ((List.sublist_cons_self first rest).filterMap _)) ?_
      rcases List.mem_cons.mp hmem with rfl | hmem
      · exact absurd hline hfirst
      · exact hmem

/-- Only labels make a difference between the names that statements define. -/
theorem defined?_eq_some_iff {form : DefinitionForm} {statement : Statement} {name : String}
    (h : form = .label → isOwnLabel name = true) :
    statement.defined? form = some name ↔ statement.own? form = some name := by
  unfold Statement.own?
  rw [Option.filter_eq_some_iff]
  refine ⟨fun hdefined => ⟨hdefined, ?_⟩, And.left⟩
  by_cases hform : form = .label <;> simp [hform, h]

theorem defined?_of_mem_definitions {kind : SymbolKind} {entry : String × Statement}
    (h : entry ∈ s.definitions kind) : entry.2.defined? kind.form = some entry.1 := by
  cases kind <;>
  · obtain ⟨x, -, rfl⟩ := List.mem_map.mp h
    rfl

theorem Bare.isOwnLabel_of_mem (hb : s.Bare) {kind : SymbolKind} {entry : String × Statement}
    (h : entry ∈ s.definitions kind) (hform : kind.form = .label) : isOwnLabel entry.1 = true := by
  cases kind with
  | table =>
    obtain ⟨index, -, rfl⟩ := List.mem_map.mp h
    exact isOwnLabel_append (by decide) _
  | word =>
    obtain ⟨word, hword, rfl⟩ := List.mem_map.mp h
    exact hb.words word (by simpa using hword)
  | constant | global | routine | object | property | flag => cases hform

theorem mem_assignments {kind : SymbolKind} {entry : String × Statement}
    (hkind : kind.form = .assignment) (h : entry ∈ s.definitions kind) : entry.2 ∈ s.assignments := by
  simp only [assignments, List.mem_append, List.mem_map]
  cases kind with
  | constant =>
    obtain ⟨constant, hmem, rfl⟩ := List.mem_map.mp h
    exact .inr ⟨constant, (List.mergeSort_perm _ _).mem_iff.mpr hmem, rfl⟩
  | property =>
    obtain ⟨property, hmem, rfl⟩ := List.mem_map.mp h
    exact .inl (.inr ⟨property, (List.mergeSort_perm _ _).mem_iff.mpr hmem, rfl⟩)
  | flag =>
    obtain ⟨flag, hmem, rfl⟩ := List.mem_map.mp h
    exact .inl (.inl (.inr ⟨flag, (List.mergeSort_perm _ _).mem_iff.mpr hmem, rfl⟩))
  | global | table | routine | object | word => cases hkind

theorem mem_tableStatements (htables : s.tables.toList.map (·.name) = s.names .table) {index : Nat}
    (hlt : index < s.tables.size) : ∃ isPure, .label s!"TBL?{index}" ∈ s.tableStatements isPure := by
  have hname : s.tables[index].name = s!"TBL?{index}" := by
    have hget := congrArg (·[index]?) htables
    simpa [names, hlt] using hget
  refine ⟨s.tables[index].isPure, List.mem_flatMap.mpr ⟨s.tables[index], ?_, ?_⟩⟩
  · exact List.mem_filter.mpr ⟨by simp, by simp⟩
  · rw [← hname]
    exact List.mem_cons_of_mem _ List.mem_cons_self

theorem mem_data (hglobals : (s.names .global).Nodup)
    (hnames : s.tables.toList.map (·.name) = s.names .table) (hdata : s.dataStatements = .ok data)
    {kind : SymbolKind} {entry : String × Statement} (hkind : kind ≠ .routine)
    (h : entry ∈ s.definitions kind) : entry.2 ∈ data := by
  obtain ⟨tables, -, hdata⟩ := bind_eq_ok.mp hdata
  obtain rfl := Except.ok.inj hdata
  cases kind with
  | constant | property | flag =>
    have hmem := mem_assignments rfl h
    simp only [List.mem_append, hmem, true_or]
  | global =>
    obtain ⟨global, hglobal, rfl⟩ := List.mem_map.mp h
    have hmem : global.statement ∈ s.orderedGlobals.map (·.statement) :=
      List.mem_map_of_mem ((orderedGlobals_perm hglobals).mem_iff.mpr hglobal)
    simp only [List.mem_append, hmem, true_or, or_true]
  | table =>
    obtain ⟨index, hlt, rfl⟩ := List.mem_map.mp h
    obtain ⟨isPure, hmem⟩ := mem_tableStatements hnames (List.mem_range.mp hlt)
    cases isPure <;> simp only [List.mem_append, hmem, true_or, or_true]
  | object =>
    obtain ⟨object, hobject, rfl⟩ := List.mem_map.mp h
    have hmem : object.record s.version.flagWords s.linkName ∈ s.objectStatements :=
      List.mem_append_right _ (List.mem_map_of_mem hobject)
    simp only [List.mem_append, hmem, true_or, or_true]
  | word =>
    obtain ⟨word, hword, rfl⟩ := List.mem_map.mp h
    have hmem : .label word.table.name ∈ s.vocabulary :=
      List.mem_append_right _ (List.mem_flatMap.mpr
        ⟨word, (List.mergeSort_perm _ _).mem_iff.mpr hword, List.mem_cons_self⟩)
    simp only [List.mem_append, hmem, true_or, or_true]
  | routine => exact absurd rfl hkind

theorem mem_main (hs : FinishedBelow s.routines.size s s') (base : String)
    {entry : String × Statement} (h : entry ∈ s.definitions .routine) :
    entry.2 ∈ s'.mainStatements base := by
  obtain ⟨routine, hroutine, rfl⟩ := List.mem_map.mp h
  obtain ⟨index, hindex⟩ := List.mem_iff_getElem?.mp hroutine
  obtain ⟨place, hget⟩ := hs.getElem? index
  rw [Array.getElem?_toList] at hindex
  rw [hindex] at hget
  have hmem : routine.finish place ∈ s'.routines.toList :=
    List.mem_iff_getElem?.mpr ⟨index, by simpa using hget⟩
  have hhead : routine.headStatement ∈ routine.statements place := by
    simp [Routine.statements]
  simp only [mainStatements, List.mem_append, List.mem_flatMap]
  exact .inl (.inr ⟨_, hmem, hhead⟩)

theorem FinishedBelow.names (hs : FinishedBelow s.routines.size s s') (kind : SymbolKind) :
    s'.names kind = s.names kind := by
  have hnames := hs.map_name
  obtain ⟨routines, registry, log, rfl⟩ := hs.same
  cases kind with
  | routine => exact hnames
  | _ => rfl

theorem Consistent.finished (hc : s.Consistent) (hs : FinishedBelow s.routines.size s s') :
    s'.Consistent := by
  have hnames := hs.names
  obtain ⟨routines, registry, log, rfl⟩ := hs.same
  refine ⟨fun name kind => ?_, fun kind => ?_, hc.tables⟩
  · rw [hnames]
    exact hc.kinds name kind
  · rw [hnames]
    exact hc.nodup kind

/-- The statement that defines a thing is the only one of its form with the name. -/
theorem filter_written (hc : s.Consistent) (hb : s.Bare) (hs : FinishedBelow s.routines.size s s')
    (hdata : s'.dataStatements = .ok data) (base : String) (keeps : Bool) {kind : SymbolKind}
    {entry : String × Statement} (h : entry ∈ s.definitions kind) :
    (s'.written base keeps data).filter (·.defined? kind.form = some entry.1) = [entry.2] := by
  have hlabel := hb.isOwnLabel_of_mem h
  have hmem : entry.2 ∈ s'.written base keeps data := by
    simp only [written, List.mem_append]
    by_cases hkind : kind = .routine
    · subst hkind
      exact .inl (.inl (.inl (mem_main hs base h)))
    · have hc' := hc.finished hs
      obtain ⟨routines, registry, log, rfl⟩ := hs.same
      refine .inl (.inl (.inr (mem_data (hc'.nodup .global) hc'.tables hdata hkind ?_)))
      cases kind with
      | routine => exact absurd rfl hkind
      | _ => exact h
  have hnodup : (ownNames kind.form (s'.written base keeps data)).Nodup :=
    (ownNames_written kind.form hc hb hs hdata base keeps).nodup_iff.mpr (hc.nodup_expectedNames _)
  simp only [defined?_eq_some_iff hlabel]
  exact filter_own?_eq_singleton hnodup hmem
    ((defined?_eq_some_iff hlabel).mp (defined?_of_mem_definitions h))

/-! ## Stories made by definitions alone -/

theorem Bare.record (hb : s.Bare) (definition : Definition) : (definition.record s).Bare := by
  obtain ⟨routines, objects, words⟩ := hb
  cases definition with
  | routine name isEntryPoint cleansStack =>
    refine ⟨fun routine hmem => ?_, objects, words⟩
    rcases Array.mem_push.mp hmem with hmem | rfl
    · exact routines routine hmem
    · rfl
  | object name =>
    refine ⟨routines, fun object hmem => ?_, words⟩
    rcases Array.mem_push.mp hmem with hmem | rfl
    · exact objects object hmem
    · rfl
  | word text =>
    refine ⟨routines, objects, fun word hmem => ?_⟩
    rcases Array.mem_push.mp hmem with hmem | rfl
    · exact words word hmem
    · exact isOwnLabel_append (by decide) _
  | constant | global | table | property | flag => exact ⟨routines, objects, words⟩

theorem Bare.exists_propertyTables (hb : s.Bare) : ∃ tables, s.propertyTables = .ok tables := by
  have htables : ∀ object ∈ s.objects.toList, ∃ table,
      object.tableStatements s.version.maxPropertyLength = .ok table := by
    intro object hmem
    have hnone : object.sortedProperties = [] := by
      simp [Object.sortedProperties, hb.objects object (by simpa using hmem)]
    unfold Object.tableStatements
    rw [hnone]
    exact ⟨_, rfl⟩
  obtain ⟨tables, htables⟩ := exists_mapM_eq_ok htables
  unfold propertyTables
  rw [htables]
  exact ⟨_, rfl⟩

/-- All definitions share one namespace, and none is lost. -/
structure OneNamespace (story : Story) : Prop where
  /-- The symbol table lists the things of the story with their kinds. -/
  kinds : ∀ name kind, story.symbols.kind? name = some kind ↔ name ∈ story.names kind
  distinct : (SymbolKind.all.flatMap story.names).Nodup
  /-- A definition succeeds if there is room and its symbol is not taken. -/
  succeeds : ∀ definition : Definition,
    (∃ answer story', (Call.define definition).perform.run.run story = (.ok answer, story')) ↔
      definition.Fits story ∧ ¬story.symbols.contains (definition.symbol story) = true
  /-- What is written has the definition of each thing once. -/
  written : ∀ base keeps fault story' texts,
    Writes (finish (.memory base keeps fault)) story {} () story' texts →
      ∃ data, story'.dataStatements = .ok data ∧ texts = story'.allTexts base keeps data ∧
        ∀ kind, ∀ entry ∈ story.definitions kind,
          (story'.written base keeps data).filter (·.defined? kind.form = some entry.1) = [entry.2]
  /-- The story is written if nothing goes wrong outside. -/
  finishes : ∀ base keeps, ∃ story' texts,
    Writes (finish (.memory base keeps fun _ _ => none)) story {} () story' texts

theorem Consistent.oneNamespace (hc : s.Consistent) (hb : s.Bare) : s.OneNamespace where
  kinds := hc.kinds
  distinct := hc.nodup_names
  succeeds definition := by
    rw [Call.run_perform, ← Definition.rejection_eq_none_iff]
    constructor
    · rintro ⟨answer, story', h⟩
      exact (settled_eq_ok.mp h).1
    · intro haccepted
      exact ⟨_, _, settled_eq_ok.mpr ⟨haccepted, rfl, rfl⟩⟩
  written base keeps fault story' texts h := by
    obtain ⟨hs, data, hdata, htexts⟩ := writes_finish hb.routines h
    exact ⟨data, hdata, htexts, fun kind entry hentry =>
      filter_written hc hb hs hdata base keeps hentry⟩
  finishes base keeps := by
    obtain ⟨tables, htables⟩ := hb.exists_propertyTables
    obtain ⟨_, story', texts, h⟩ := exists_writes_finish hb.routines htables
    exact ⟨story', texts, h⟩

/-- **Definitions of every kind share one namespace**, whichever are made on a new story, in which order and
with which of them refused. -/
theorem oneNamespace_after (number : Int) (wantsDebug : Bool) {start : Story}
    (hstart : Story.new number wantsDebug = .ok start) (definitions : List Definition) :
    (start.after (definitions.map .define)).OneNamespace := by
  obtain ⟨version, -, h⟩ := bind_eq_ok.mp hstart
  obtain rfl := Except.ok.inj h
  have hboth := after_define_induction (P := fun story => story.Consistent ∧ story.Bare)
    (fun story definition haccepted h =>
      ⟨h.1.record (Definition.rejection_eq_none_iff.mp haccepted).2, h.2.record definition⟩) definitions
    ⟨consistent_new version wantsDebug #[.newStory version], by simp, by simp, by simp⟩
  exact hboth.1.oneNamespace hboth.2

/-- Definitions of all kinds. Four are refused: the second flag, the word, the second entry point and the
constant. -/
theorem oneNamespace_mixedCalls :
    ∃ start, Story.new 3 false = .ok start ∧
      (start.after ([.flag "A", .property "A", .flag "A", .object "W?X", .word "x", .table true,
        .routine "GO" true false, .routine "START" true false, .constant "GO" (.symbol "A"),
        .global "HERE"].map .define)).OneNamespace :=
  ⟨_, rfl, oneNamespace_after 3 false rfl _⟩

end Story

end StoryAsm
