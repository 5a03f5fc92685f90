import Mathlib.Data.List.Chain
import StoryAsm.Table

/-!
# Tables in directives

The entries of a table are written in directives of up to ten values. No entry is lost, changed or moved,
and the directives take as many bytes as the size of the table says (`Serialized`). A directive ends where
the width or the kind of the entries changes, or where it is full, and nowhere else (`Directive.Ends`).
-/

namespace StoryAsm

/-! ## Values of directives -/

/-- The values of a data directive, each with its width. -/
def Statement.values : Statement → List (Width × String)
  | data width values => values.map fun value => (width, value)
  | _ => []

/-- The values that statements hold, in their order. -/
def valuesOf (statements : List Statement) : List (Width × String) :=
  statements.flatMap (·.values)

/-- The bytes that values take. -/
def byteCount : List (Width × String) → Nat
  | [] => 0
  | value :: values => value.1.bytes + byteCount values

@[simp] theorem valuesOf_nil : valuesOf [] = [] := rfl

@[simp] theorem valuesOf_append (left right : List Statement) :
    valuesOf (left ++ right) = valuesOf left ++ valuesOf right :=
  List.flatMap_append

@[simp] theorem byteCount_nil : byteCount [] = 0 := rfl

@[simp] theorem byteCount_cons (value : Width × String) (values : List (Width × String)) :
    byteCount (value :: values) = value.1.bytes + byteCount values := rfl

@[simp] theorem byteCount_append (left right : List (Width × String)) :
    byteCount (left ++ right) = byteCount left + byteCount right := by
  induction left with
  | nil => simp
  | cons value left ih => simp [ih, Nat.add_assoc]

theorem byteCount_replicate (count : Nat) (value : Width × String) :
    byteCount (List.replicate count value) = count * value.1.bytes := by
  induction count with
  | zero => simp
  | succ count ih => rw [List.replicate_succ, byteCount_cons, ih, Nat.succ_mul, Nat.add_comm]

/-- What is written for the entry, with its width. -/
def Entry.value (entry : Entry) : Width × String :=
  (entry.width, entry.text)

/-! ## Entries and sizes of tables -/

namespace Table

variable {table : Table}

@[simp] theorem name_add (table : Table) (added : List Entry) : (table.add added).name = table.name := by
  induction added generalizing table with
  | nil => rfl
  | cons entry added ih => exact ih (table.push entry)

theorem entries_add (table : Table) (added : List Entry) :
    (table.add added).entries.toList = table.entries.toList ++ added := by
  induction added generalizing table with
  | nil => exact (List.append_nil _).symm
  | cons entry added ih =>
    have hpush : (table.push entry).entries.toList = table.entries.toList ++ [entry] := by simp [push]
    show ((table.push entry).add added).entries.toList = _
    rw [ih, hpush, List.append_assoc, List.singleton_append]

/-- The size of a table is the number of bytes that its entries take. -/
theorem size_eq (table : Table) :
    table.size = byteCount (table.entries.toList.map (·.value)) := by
  have hfold : ∀ (entries : List Entry) (start : Nat),
      entries.foldl (fun size entry => size + entry.width.bytes) start =
        start + byteCount (entries.map (·.value)) := by
    intro entries
    induction entries with
    | nil => exact fun start => rfl
    | cons entry entries ih =>
      intro start
      rw [List.foldl_cons, ih, List.map_cons, byteCount_cons, Nat.add_assoc]
      rfl
  rw [table.counted, hfold, Nat.zero_add]

/-- The table after calls that add an entry each. -/
def adding (table : Table) (calls : List Entry) : Table :=
  calls.foldl (fun table entry => table.add [entry]) table

theorem entries_adding (table : Table) (calls : List Entry) :
    (table.adding calls).entries.toList = table.entries.toList ++ calls := by
  induction calls generalizing table with
  | nil => exact (List.append_nil _).symm
  | cons entry calls ih =>
    show ((table.add [entry]).adding calls).entries.toList = _
    rw [ih, entries_add, List.append_assoc]
    rfl

end Table

/-! ## Runs -/

namespace Run

/-- The entries of the run are alike, and there are not too many of them. -/
structure WellFormed (run : Run) : Prop where
  alike : ∀ entry ∈ run.entries, run.head.alike entry = true
  length_le : run.entries.length ≤ runLimit

theorem alike_self (entry : Entry) : entry.alike entry = true := by
  simp [Entry.alike]

theorem wellFormed_start (entry : Entry) : WellFormed { head := entry } where
  alike other hmem := by
    rw [List.mem_singleton.mp hmem]
    exact alike_self entry
  length_le := show 1 ≤ runLimit by decide

theorem WellFormed.extend {run : Run} (h : run.WellFormed) {entry : Entry}
    (haccepts : run.accepts entry = true) : WellFormed { run with tail := run.tail ++ [entry] } := by
  obtain ⟨halike, hlt⟩ : run.head.alike entry = true ∧ run.entries.length < runLimit := by
    simpa [accepts] using haccepts
  have hentries : entries { run with tail := run.tail ++ [entry] } = run.entries ++ [entry] := rfl
  refine ⟨fun other hmem => ?_, ?_⟩
  · rw [hentries] at hmem
    rcases List.mem_append.mp hmem with hmem | hmem
    · exact h.alike other hmem
    · rw [List.mem_singleton.mp hmem]
      exact halike
  · rw [hentries, List.length_append]
    exact hlt

/-- Splitting keeps the entries and their order. -/
theorem flatMap_entries_split (run : Run) (rest : List Entry) :
    (run.split rest).flatMap (·.entries) = run.entries ++ rest := by
  fun_induction split run rest with
  | case1 run => simp
  | case2 run entry rest haccepts ih =>
    rw [ih]
    simp [entries]
  | case3 run entry rest haccepts ih =>
    rw [List.flatMap_cons, ih]
    rfl

theorem wellFormed_of_mem_split {run : Run} (h : run.WellFormed) {rest : List Entry} :
    ∀ part ∈ run.split rest, part.WellFormed := by
  fun_induction split run rest with
  | case1 run =>
    intro part hmem
    rw [List.mem_singleton.mp hmem]
    exact h
  | case2 run entry rest haccepts ih => exact ih (h.extend haccepts)
  | case3 run entry rest haccepts ih =>
    intro part hmem
    rcases List.mem_cons.mp hmem with rfl | hmem
    · exact h
    · exact ih (wellFormed_start entry) part hmem

theorem exists_split_eq_cons (run : Run) (rest : List Entry) :
    ∃ first parts, run.split rest = first :: parts ∧ first.head = run.head := by
  fun_induction split run rest with
  | case1 run => exact ⟨run, [], rfl, rfl⟩
  | case2 run entry rest haccepts ih => exact ih
  | case3 run entry rest haccepts ih => exact ⟨run, _, rfl, rfl⟩

/-- A run ends where it does not accept the next entry. -/
theorem isChain_split (run : Run) (rest : List Entry) :
    (run.split rest).IsChain fun first second => first.accepts second.head = false := by
  fun_induction split run rest with
  | case1 run => exact .singleton run
  | case2 run entry rest haccepts ih => exact ih
  | case3 run entry rest haccepts ih =>
    obtain ⟨first, parts, hsplit, hhead⟩ := exists_split_eq_cons { head := entry } rest
    rw [hsplit] at ih ⊢
    refine .cons_cons ?_ ih
    rw [hhead]
    exact Bool.eq_false_iff.mpr haccepts

end Run

theorem flatMap_entries_runs (entries : List Entry) :
    (runs entries).flatMap (·.entries) = entries := by
  cases entries with
  | nil => rfl
  | cons entry rest => exact Run.flatMap_entries_split { head := entry } rest

theorem wellFormed_of_mem_runs {entries : List Entry} : ∀ run ∈ runs entries, run.WellFormed := by
  cases entries with
  | nil => exact fun run hmem => absurd hmem List.not_mem_nil
  | cons entry rest => exact Run.wellFormed_of_mem_split (Run.wellFormed_start entry)

theorem isChain_runs (entries : List Entry) :
    (runs entries).IsChain fun first second => first.accepts second.head = false := by
  cases entries with
  | nil => exact .nil
  | cons entry rest => exact Run.isChain_split { head := entry } rest

/-! ## Directives -/

/-- Entries for one directive, with the width and the kind that they share. -/
structure Directive where
  width : Width
  isLiteral : Bool
  entries : List Entry

namespace Directive

def statement (directive : Directive) : Statement :=
  .data directive.width (directive.entries.map (·.text))

/-- There are between 1 and 10 entries, all of the width and of the kind. -/
structure Uniform (directive : Directive) : Prop where
  width_eq : ∀ entry ∈ directive.entries, entry.width = directive.width
  isLiteral_eq : ∀ entry ∈ directive.entries, entry.isLiteral = directive.isLiteral
  one_le : 1 ≤ directive.entries.length
  le_ten : directive.entries.length ≤ 10

/-- The second directive starts because of its width or its kind, or because the first is full. -/
def Ends (first second : Directive) : Prop :=
  first.width = second.width → first.isLiteral = second.isLiteral → first.entries.length = 10

/-- The directive of a run. -/
def ofRun (run : Run) : Directive where
  width := run.head.width
  isLiteral := run.head.isLiteral
  entries := run.entries

theorem uniform_ofRun {run : Run} (h : run.WellFormed) : (ofRun run).Uniform := by
  have halike : ∀ entry ∈ run.entries,
      run.head.width = entry.width ∧ run.head.isLiteral = entry.isLiteral := by
    intro entry hmem
    simpa [Entry.alike] using h.alike entry hmem
  exact {
    width_eq := fun entry hmem => (halike entry hmem).1.symm
    isLiteral_eq := fun entry hmem => (halike entry hmem).2.symm
    one_le := Nat.succ_le_succ (Nat.zero_le _)
    le_ten := h.length_le }

theorem ends_ofRun {first second : Run} (h : first.WellFormed)
    (hrefuses : first.accepts second.head = false) : Ends (ofRun first) (ofRun second) := by
  intro hwidth hkind
  have halike : first.head.alike second.head = true := by
    simp only [Entry.alike, Bool.and_eq_true, beq_iff_eq]
    exact ⟨hwidth, hkind⟩
  have hfull : runLimit ≤ first.entries.length := by
    simpa [Run.accepts, halike] using hrefuses
  exact Nat.le_antisymm h.length_le hfull

theorem values_statement {directive : Directive} (h : directive.Uniform) :
    directive.statement.values = directive.entries.map (·.value) := by
  rw [statement, Statement.values, List.map_map]
  apply List.map_congr_left
  intro entry hmem
  rw [Entry.value, h.width_eq entry hmem]
  rfl

end Directive

/-- The directives are those of the entries: they hold them in their order, and each is as long as it can
be. -/
structure InDirectives (entries : List Entry) (directives : List Directive) : Prop where
  entries_eq : directives.flatMap (·.entries) = entries
  uniform : ∀ directive ∈ directives, directive.Uniform
  ends : directives.IsChain Directive.Ends

theorem inDirectives_runs (entries : List Entry) :
    InDirectives entries ((runs entries).map Directive.ofRun) where
  entries_eq := by
    rw [List.flatMap_map]
    exact flatMap_entries_runs entries
  uniform directive hmem := by
    obtain ⟨run, hrun, rfl⟩ := List.mem_map.mp hmem
    exact Directive.uniform_ofRun (wellFormed_of_mem_runs run hrun)
  ends := by
    rw [List.isChain_map]
    refine (isChain_runs entries).imp_of_mem_imp ?_
    intro first second hfirst _ hrefuses
    exact Directive.ends_ofRun (wellFormed_of_mem_runs first hfirst) hrefuses

theorem InDirectives.valuesOf_eq {entries : List Entry} {directives : List Directive}
    (h : InDirectives entries directives) :
    valuesOf (directives.map (·.statement)) = entries.map (·.value) := by
  rw [valuesOf, List.flatMap_map, ← h.entries_eq, List.map_flatMap]
  exact List.flatMap_congr fun directive hmem => Directive.values_statement (h.uniform directive hmem)

namespace Table

theorem body_eq (table : Table) :
    table.body = ((runs table.entries.toList).map Directive.ofRun).map (·.statement) := by
  rw [body, entryStatements, List.map_map]
  rfl

/-- The body of a table holds the entries of the table. -/
theorem valuesOf_body (table : Table) : valuesOf table.body = table.entries.toList.map (·.value) := by
  rw [body_eq]
  exact (inDirectives_runs _).valuesOf_eq

/-- The table is written without loss, where `entries` are the entries that were added to it. -/
structure Serialized (entries : List Entry) (table : Table) : Prop where
  values : valuesOf table.body = entries.map (·.value)
  bytes : byteCount (valuesOf table.body) = table.size
  directives : ∃ directives, table.body = directives.map (·.statement) ∧ InDirectives entries directives

/-- **Nothing is lost in a table**: whichever entries are added, the directives hold them in their order
and take as many bytes as the size says; a directive has up to ten values of one width and one kind, and a
new one starts only if it has to. -/
theorem serialized_adding (table : Table) (calls : List Entry) :
    Serialized (table.entries.toList ++ calls) (table.adding calls) where
  values := by rw [valuesOf_body, entries_adding]
  bytes := by rw [valuesOf_body, size_eq]
  directives := by
    rw [← entries_adding]
    exact ⟨_, body_eq _, inDirectives_runs _⟩

end Table

end StoryAsm
