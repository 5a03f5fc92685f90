import StoryAsm.Proofs.Operation
import StoryAsm.Story.Layout

/-!
# Property tables that fit

The value of a property that is a table has to have between 1 and a number of bytes that depends on the
version. The property tables of a story can be laid out if and only if all such values fit; otherwise the
error tells of the first object with a value that does not, and of the greatest number among these values
(`Story.FirstMisfit`).
-/

namespace StoryAsm

/-- The table has between 1 and `limit` bytes. -/
def Table.Fits (limit : Nat) (table : Table) : Prop :=
  1 ≤ table.size ∧ table.size ≤ limit

namespace Object

variable {object : Object} {limit : Nat}

/-- The object has a table as the value of the property. -/
def HasTable (object : Object) (number : Nat) (table : Table) : Prop :=
  (number, .table table) ∈ object.properties.toList

def TablesFit (limit : Nat) (object : Object) : Prop :=
  ∀ number table, object.HasTable number table → table.Fits limit

/-- Of the tables of the object that do not fit, this one has the greatest number. -/
structure GreatestMisfit (limit : Nat) (object : Object) (number : Nat) (table : Table) : Prop where
  hasTable : object.HasTable number table
  misfit : ¬table.Fits limit
  greatest : ∀ number' table', object.HasTable number' table' → ¬table'.Fits limit → number' ≤ number

theorem GreatestMisfit.not_tablesFit {number : Nat} {table : Table}
    (h : object.GreatestMisfit limit number table) : ¬object.TablesFit limit :=
  fun hfit => h.misfit (hfit number table h.hasTable)

theorem propertyStatements_eq_error {number : Nat} {value : PropertyValue} {error : EmitError}
    (h : object.propertyStatements limit number value = .error error) :
    ∃ table, value = .table table ∧ ¬table.Fits limit ∧
      error = .propertyLength object.name number table.size limit := by
  cases value with
  | byte operand | word operand => cases h
  | table table =>
    rw [propertyStatements] at h
    split at h
    · next hsize =>
      cases h
      refine ⟨table, rfl, ?_, rfl⟩
      rw [Table.Fits]
      omega
    · cases h

theorem fits_of_propertyStatements {number : Nat} {table : Table} {statements : List Statement}
    (h : object.propertyStatements limit number (.table table) = .ok statements) :
    table.Fits limit := by
  rw [propertyStatements] at h
  split at h
  · cases h
  · rw [Table.Fits]
    omega

theorem mem_sortedProperties {entry : Nat × PropertyValue} :
    entry ∈ object.sortedProperties ↔ entry ∈ object.properties.toList :=
  List.mem_mergeSort

theorem pairwise_sortedProperties (object : Object) :
    object.sortedProperties.Pairwise fun a b => b.1 ≤ a.1 := by
  have hsorted : object.sortedProperties.Pairwise fun a b => decide (b.1 ≤ a.1) = true := by
    apply List.pairwise_mergeSort
    · intro a b c hab hbc
      rw [decide_eq_true_eq] at hab hbc ⊢
      exact Nat.le_trans hbc hab
    · intro a b
      rw [Bool.or_eq_true, decide_eq_true_eq, decide_eq_true_eq]
      exact Nat.le_total b.1 a.1
  exact hsorted.imp of_decide_eq_true

theorem tablesFit_of_tableStatements {statements : List Statement}
    (h : object.tableStatements limit = .ok statements) : object.TablesFit limit := by
  obtain ⟨properties, hproperties, -⟩ := bind_eq_ok.mp h
  intro number table hmem
  obtain ⟨_, -, hone⟩ := exists_mem_of_mapM hproperties _ (mem_sortedProperties.mpr hmem)
  exact fits_of_propertyStatements hone

theorem exists_of_tableStatements_eq_error {error : EmitError}
    (h : object.tableStatements limit = .error error) :
    ∃ number table, object.GreatestMisfit limit number table ∧
      error = .propertyLength object.name number table.size limit := by
  rcases bind_eq_error.mp h with hproperties | ⟨properties, -, h⟩
  · obtain ⟨before, ⟨number, value⟩, after, hsplit, hbefore, hone⟩ :=
      exists_of_mapM_eq_error hproperties
    obtain ⟨table, rfl, hmisfit, rfl⟩ := propertyStatements_eq_error hone
    refine ⟨number, table, ⟨mem_sortedProperties.mp (by simp [hsplit]), hmisfit, ?_⟩, rfl⟩
    intro number' table' hmem' hmisfit'
    have hsorted := object.pairwise_sortedProperties
    have hmem := mem_sortedProperties.mpr hmem'
    rw [hsplit] at hsorted hmem
    -- What does not fit does not stand before the first that does not, so its number is not greater.
    rcases List.mem_append.mp hmem with hmem | hmem
    · obtain ⟨_, hok⟩ := hbefore _ hmem
      exact absurd (fits_of_propertyStatements hok) hmisfit'
    · rcases List.mem_cons.mp hmem with heq | hmem
      · cases heq
        exact Nat.le_refl number
      · exact (List.pairwise_cons.mp (List.pairwise_append.mp hsorted).2.1).1 _ hmem
  · cases h

end Object

namespace Story

variable {story : Story}

def TablesFit (story : Story) : Prop :=
  ∀ object ∈ story.objects, object.TablesFit story.version.maxPropertyLength

/-- The error tells of the first object with a table that does not fit, and of the table with the
greatest number among those of the object that do not fit. -/
def FirstMisfit (story : Story) (error : EmitError) : Prop :=
  ∃ before object after number table, story.objects.toList = before ++ object :: after ∧
    (∀ earlier ∈ before, earlier.TablesFit story.version.maxPropertyLength) ∧
    object.GreatestMisfit story.version.maxPropertyLength number table ∧
    error = .propertyLength object.name number table.size story.version.maxPropertyLength

theorem FirstMisfit.not_tablesFit {error : EmitError} (h : story.FirstMisfit error) :
    ¬story.TablesFit := by
  obtain ⟨before, object, after, number, table, hsplit, -, hmisfit, -⟩ := h
  have hmem : object ∈ story.objects := by rw [← Array.mem_toList_iff, hsplit]; simp
  exact fun hfit => hmisfit.not_tablesFit (hfit object hmem)

theorem tablesFit_of_dataStatements {data : List Statement} (h : story.dataStatements = .ok data) :
    story.TablesFit := by
  obtain ⟨_, htables, -⟩ := bind_eq_ok.mp h
  obtain ⟨tables, htables, -⟩ := bind_eq_ok.mp htables
  intro object hmem
  obtain ⟨_, -, hone⟩ := exists_mem_of_mapM htables object (Array.mem_toList_iff.mpr hmem)
  exact Object.tablesFit_of_tableStatements hone

theorem firstMisfit_of_dataStatements {error : EmitError} (h : story.dataStatements = .error error) :
    story.FirstMisfit error := by
  rcases bind_eq_error.mp h with htables | ⟨_, -, h⟩
  · rcases bind_eq_error.mp htables with htables | ⟨_, -, h⟩
    · obtain ⟨before, object, after, hsplit, hbefore, hone⟩ := exists_of_mapM_eq_error htables
      obtain ⟨number, table, hmisfit, rfl⟩ := Object.exists_of_tableStatements_eq_error hone
      refine ⟨before, object, after, number, table, hsplit, fun earlier hmem => ?_, hmisfit, rfl⟩
      obtain ⟨_, hok⟩ := hbefore earlier hmem
      exact Object.tablesFit_of_tableStatements hok
    · cases h
  · cases h

theorem exists_dataStatements (h : story.TablesFit) : ∃ data, story.dataStatements = .ok data := by
  cases hdata : story.dataStatements with
  | ok data => exact ⟨data, rfl⟩
  | error error => exact absurd h (firstMisfit_of_dataStatements hdata).not_tablesFit

/-- Objects without properties have no tables. -/
theorem tablesFit_of_isEmpty (h : story.objects.toList.all (·.properties.isEmpty) = true) :
    story.TablesFit := by
  intro object hmem number table htable
  have hempty := List.all_eq_true.mp h object (Array.mem_toList_iff.mpr hmem)
  rw [Object.HasTable, Array.isEmpty_iff.mp hempty] at htable
  cases htable

end Story

end StoryAsm
