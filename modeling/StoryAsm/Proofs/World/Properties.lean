import Mathlib.Data.List.Perm.Basic
import StoryAsm.Proofs.Story.Call
import StoryAsm.Proofs.Table
import StoryAsm.Proofs.World.Fit

/-!
# Property tables

What an object was given as properties is a list of numbers with values (`Object.Holding`): a gift adds to
it unless its number is taken, and entries that are added to a table are added to its values. The
properties of an object are this list, whichever calls are made on it and on the rest of the story
(`Object.holdings_after`, `Story.objects_after`).

The property table is written from it in descending order of the numbers, each property with its size and
its values (`Object.Faithful`). It cannot be written exactly if a table is empty or too long.
-/

namespace StoryAsm

theorem eq_map_of_mapM {ε α β : Type} {f : α → Except ε β} {g : α → β}
    (hf : ∀ x y, f x = .ok y → y = g x) {xs : List α} {ys : List β} (h : xs.mapM f = .ok ys) :
    ys = xs.map g := by
  induction xs generalizing ys with
  | nil =>
    cases h
    rfl
  | cons x xs ih =>
    rw [List.mapM_cons] at h
    obtain ⟨y, hy, h⟩ := bind_eq_ok.mp h
    obtain ⟨rest, hrest, h⟩ := bind_eq_ok.mp h
    cases h
    rw [hf x y hy, ih hrest]
    rfl

/-- A word fits into a property in every version. -/
theorem Version.two_le_maxPropertyLength (version : Version) : 2 ≤ version.maxPropertyLength := by
  rw [maxPropertyLength]
  split <;> decide

namespace Object

/-! ## Calls on an object -/

/-- A call on one object. -/
inductive Call where
  | give (property : PropertyId) (gift : Gift)
  | change (alteration : Change)

/-- The object after the call. A call that is refused leaves it as it is. -/
def Call.next (object : Object) : Call → Object
  | give property gift =>
    match object.addProperty property (gift.value object property) with
    | .ok object' => object'
    | .error _ => object
  | change alteration => alteration.apply object

/-- The object after calls, one after the other. -/
def after (object : Object) (calls : List Call) : Object :=
  calls.foldl Call.next object

/-! ## What an object was given -/

/-- What was given as a property: its number, whether it is a table, and the values. -/
structure Holding where
  number : Nat
  isTable : Bool
  values : List (Width × String)

/-- The values with those that are added to the table of a property. -/
def Holding.add (property : PropertyId) (added : List Entry) (holding : Holding) : Holding :=
  if holding.isTable ∧ holding.number = property.number then
    { holding with values := holding.values ++ added.map (·.value) }
  else holding

def Gift.holding (property : PropertyId) : Gift → Holding
  | byte operand => ⟨property.number, false, [(.byte, operand.text)]⟩
  | word operand => ⟨property.number, false, [(.word, operand.text)]⟩
  | table => ⟨property.number, true, []⟩

/-- What was given up to the call and in it. A number is given once. -/
def Call.book (holdings : List Holding) : Call → List Holding
  | give property gift =>
    if property.number ∈ holdings.map (·.number) then holdings
    else holdings ++ [gift.holding property]
  | change (.entries property added) => holdings.map (·.add property added)
  | change _ => holdings

/-- What calls give to an object that had nothing before. -/
def holdings (calls : List Call) : List Holding :=
  calls.foldl Call.book []

/-- The property as something that was given. -/
def holding (entry : Nat × PropertyValue) : Holding :=
  match entry.2 with
  | .byte operand => ⟨entry.1, false, [(.byte, operand.text)]⟩
  | .word operand => ⟨entry.1, false, [(.word, operand.text)]⟩
  | .table table => ⟨entry.1, true, table.entries.toList.map (·.value)⟩

variable {object : Object}

theorem holding_gift (object : Object) (property : PropertyId) (gift : Gift) :
    holding (property.number, gift.value object property) = gift.holding property := by
  cases gift <;> rfl

theorem number_holding (entry : Nat × PropertyValue) : (holding entry).number = entry.1 := by
  obtain ⟨number, _ | _ | _⟩ := entry <;> rfl

theorem any_properties_iff (object : Object) (number : Nat) :
    object.properties.any (·.1 == number) = true ↔
      number ∈ (object.properties.toList.map holding).map (·.number) := by
  simp only [← Array.any_toList, List.any_eq_true, beq_iff_eq, List.mem_map, exists_exists_and_eq_and,
    number_holding]

theorem holding_add (property : PropertyId) (added : List Entry) (number : Nat) (table : Table) :
    holding (number, .table (if number = property.number then table.add added else table)) =
      (holding (number, .table table)).add property added := by
  by_cases h : number = property.number
  · simp [holding, Holding.add, h, Table.entries_add]
  · simp [holding, Holding.add, h]

/-- A call does to the properties what it does to the list of what was given. -/
theorem holding_next (object : Object) (call : Call) :
    (call.next object).properties.toList.map holding =
      call.book (object.properties.toList.map holding) := by
  cases call with
  | give property gift =>
    simp only [Call.next, Call.book, addProperty, ← any_properties_iff]
    by_cases htaken : object.properties.any (·.1 == property.number) = true
    · rw [if_pos htaken, if_pos htaken]
    · rw [if_neg htaken, if_neg htaken]
      simp [holding_gift]
  | change alteration =>
    cases alteration with
    | entries property added =>
      show (object.modifyTable property _).properties.toList.map holding = _
      simp only [modifyTable, Call.book, Array.toList_map, List.map_map]
      apply List.map_congr_left
      rintro ⟨number, value⟩ _
      cases value with
      | byte | word => simp [holding, Holding.add]
      | table table => exact holding_add property added number table
    | _ => rfl

theorem holdings_after (hbare : object.properties = #[]) (calls : List Call) :
    (object.after calls).properties.toList.map holding = holdings calls := by
  have hrun : ∀ (calls : List Call) (object : Object),
      (object.after calls).properties.toList.map holding =
        calls.foldl Call.book (object.properties.toList.map holding) := by
    intro calls
    induction calls with
    | nil => exact fun object => rfl
    | cons call calls ih =>
      intro object
      rw [List.foldl_cons, ← holding_next]
      exact ih (call.next object)
  rw [hrun, hbare]
  rfl

theorem Call.nodup_book {booked : List Holding} (h : (booked.map (·.number)).Nodup) (call : Call) :
    ((call.book booked).map (·.number)).Nodup := by
  cases call with
  | give property gift =>
    rw [book]
    split
    · exact h
    · rename_i hfresh
      have hnumber : (gift.holding property).number = property.number := by cases gift <;> rfl
      rw [List.map_append, List.map_singleton, hnumber]
      exact List.nodup_append.mpr ⟨h, List.nodup_singleton _, by
        rintro number hmem _ hlast rfl
        exact hfresh (List.mem_singleton.mp hlast ▸ hmem)⟩
  | change alteration =>
    cases alteration with
    | entries property added =>
      have hnumber : ∀ booked : Holding, (booked.add property added).number = booked.number := by
        intro booked
        rw [Holding.add]
        split <;> rfl
      rw [book, List.map_map]
      simpa only [Function.comp_def, hnumber] using h
    | _ => exact h

theorem nodup_holdings (calls : List Call) : ((holdings calls).map (·.number)).Nodup := by
  have hnone : (([] : List Holding).map (·.number)).Nodup := List.nodup_nil
  exact List.foldlRecOn (motive := fun booked => (booked.map (·.number)).Nodup) calls Call.book hnone
    fun booked h call _ => call.nodup_book h

/-! ## What is written -/

namespace Holding

/-- The value is a table that cannot be written. -/
def Misfits (limit : Nat) (holding : Holding) : Prop :=
  holding.isTable = true ∧ (byteCount holding.values = 0 ∨ limit < byteCount holding.values)

end Holding

/-- An entry of a property table: the size that it declares, the number, and the directives up to the
next one. -/
structure WrittenProperty where
  size : Nat
  number : Nat
  directives : List Statement

def WrittenProperty.statements (property : WrittenProperty) : List Statement :=
  .property property.size property.number :: property.directives

/-- The entries of a property table are those of the holdings. -/
structure Faithful (limit : Nat) (holdings : List Holding) (written : List WrittenProperty) : Prop where
  /-- There is one entry for each, with its values in their order. -/
  values : (written.map fun property => (property.number, valuesOf property.directives)).Perm
    (holdings.map fun holding => (holding.number, holding.values))
  descending : written.Pairwise fun first second => second.number < first.number
  data : ∀ property ∈ written, ∀ statement ∈ property.directives,
    ∃ width values, statement = .data width values
  size_eq : ∀ property ∈ written, property.size = byteCount (valuesOf property.directives)
  bounds : ∀ property ∈ written, 1 ≤ property.size ∧ property.size ≤ limit

/-- The entry that is written for a property. -/
def written (entry : Nat × PropertyValue) : WrittenProperty :=
  match entry.2 with
  | .byte operand => ⟨1, entry.1, [.data .byte [operand.text]]⟩
  | .word operand => ⟨2, entry.1, [.data .word [operand.text]]⟩
  | .table table => ⟨table.size, entry.1, table.body⟩

variable {limit : Nat}

theorem propertyStatements_eq_ok {entry : Nat × PropertyValue} {statements : List Statement}
    (h : object.propertyStatements limit entry.1 entry.2 = .ok statements) :
    statements = (written entry).statements := by
  obtain ⟨number, value⟩ := entry
  cases value with
  | byte | word =>
    cases h
    rfl
  | table table =>
    rw [propertyStatements] at h
    split at h
    · cases h
    · cases h
      rfl

theorem number_written (entry : Nat × PropertyValue) : (written entry).number = entry.1 := by
  obtain ⟨number, _ | _ | _⟩ := entry <;> rfl

theorem valuesOf_written (entry : Nat × PropertyValue) :
    valuesOf (written entry).directives = (holding entry).values := by
  obtain ⟨number, operand | operand | table⟩ := entry
  · rfl
  · rfl
  · exact table.valuesOf_body

theorem size_written (entry : Nat × PropertyValue) :
    (written entry).size = byteCount (holding entry).values := by
  obtain ⟨number, operand | operand | table⟩ := entry
  · rfl
  · rfl
  · exact table.size_eq

theorem data_written (entry : Nat × PropertyValue) :
    ∀ statement ∈ (written entry).directives, ∃ width values, statement = .data width values := by
  intro statement hmem
  obtain ⟨number, operand | operand | table⟩ := entry
  · exact ⟨_, _, List.mem_singleton.mp hmem⟩
  · exact ⟨_, _, List.mem_singleton.mp hmem⟩
  · obtain ⟨run, -, rfl⟩ := List.mem_map.mp hmem
    exact ⟨_, _, rfl⟩

theorem descending_sortedProperties
    (h : ((object.properties.toList.map holding).map (·.number)).Nodup) :
    object.sortedProperties.Pairwise fun first second => second.1 < first.1 := by
  have hperm : (object.sortedProperties.map (·.1)).Perm
      ((object.properties.toList.map holding).map (·.number)) := by
    rw [List.map_map]
    simp only [Function.comp_def, number_holding]
    exact (List.mergeSort_perm _ _).map _
  have hdistinct := List.pairwise_map.mp (hperm.nodup_iff.mpr h)
  refine object.pairwise_sortedProperties.imp₂ ?_ hdistinct
  intro first second hle hne
  exact Nat.lt_of_le_of_ne hle (Ne.symm hne)

/-- A value that can be written takes between 1 and `limit` bytes, if a word fits. -/
theorem bounds_written (hlimit : 2 ≤ limit) (hfit : object.TablesFit limit) {entry : Nat × PropertyValue}
    (hmem : entry ∈ object.properties.toList) :
    1 ≤ (written entry).size ∧ (written entry).size ≤ limit := by
  obtain ⟨number, operand | operand | table⟩ := entry
  · exact ⟨Nat.le_refl 1, Nat.le_of_succ_le hlimit⟩
  · exact ⟨Nat.le_succ 1, hlimit⟩
  · exact hfit number table hmem

theorem faithful_sortedProperties (hlimit : 2 ≤ limit)
    (hnodup : ((object.properties.toList.map holding).map (·.number)).Nodup)
    (hfit : object.TablesFit limit) :
    Faithful limit (object.properties.toList.map holding) (object.sortedProperties.map written) where
  values := by
    simp only [List.map_map, Function.comp_def, number_written, valuesOf_written, number_holding]
    exact (List.mergeSort_perm _ _).map _
  descending := by
    rw [List.pairwise_map]
    simpa only [number_written] using descending_sortedProperties hnodup
  data := List.forall_mem_map.mpr fun entry _ => data_written entry
  size_eq := by
    refine List.forall_mem_map.mpr fun entry _ => ?_
    rw [size_written, valuesOf_written]
  bounds := List.forall_mem_map.mpr fun entry hmem =>
    bounds_written hlimit hfit (mem_sortedProperties.mp hmem)

/-- The statement in front of the properties: the description, or zero if there is none. -/
def IsShortName (description : Option String) (statement : Statement) : Prop :=
  match description with
  | some text => statement = .shortName text
  | none => statement = .data .byte ["0"]

theorem exists_of_tableStatements {statements : List Statement}
    (h : object.tableStatements limit = .ok statements) :
    ∃ shortName, IsShortName object.description shortName ∧
      statements = .label object.tableSymbol :: shortName ::
        (object.sortedProperties.map written).flatMap (·.statements) ++ [.data .byte ["0"]] := by
  obtain ⟨properties, hproperties, h⟩ := bind_eq_ok.mp h
  have hparts := eq_map_of_mapM (fun entry _ => @propertyStatements_eq_ok object limit entry _) hproperties
  cases h
  rw [hparts, List.flatMap_map, ← List.flatMap_def]
  cases hdescription : object.description with
  | some text => exact ⟨.shortName text, rfl, rfl⟩
  | none => exact ⟨.data .byte ["0"], rfl, rfl⟩

theorem misfits_holding_iff (entry : Nat × PropertyValue) :
    (holding entry).Misfits limit ↔ ∃ table, entry.2 = .table table ∧ ¬table.Fits limit := by
  obtain ⟨number, operand | operand | table⟩ := entry
  · simp [holding, Holding.Misfits]
  · simp [holding, Holding.Misfits]
  · simp only [holding, Holding.Misfits, ← Table.size_eq, Table.Fits, PropertyValue.table.injEq,
      exists_eq_left', true_and]
    omega

theorem exists_misfits_iff (object : Object) (limit : Nat) :
    (∃ booked ∈ object.properties.toList.map holding, booked.Misfits limit) ↔
      ¬object.TablesFit limit := by
  constructor
  · rintro ⟨_, hmem, hmisfits⟩ hfit
    obtain ⟨⟨number, value⟩, hentry, rfl⟩ := List.mem_map.mp hmem
    obtain ⟨table, rfl, hmisfit⟩ := (misfits_holding_iff _).mp hmisfits
    exact hmisfit (hfit number table hentry)
  · intro hmisfit
    obtain ⟨number, table, hentry, htable⟩ : ∃ number table, object.HasTable number table ∧
        ¬table.Fits limit := by
      simpa [TablesFit] using hmisfit
    exact ⟨_, List.mem_map_of_mem hentry, (misfits_holding_iff _).mpr ⟨table, rfl, htable⟩⟩

theorem tableStatements_eq_error_iff (object : Object) (limit : Nat) :
    (∃ error, object.tableStatements limit = .error error) ↔ ¬object.TablesFit limit := by
  constructor
  · rintro ⟨error, h⟩
    obtain ⟨number, table, hmisfit, -⟩ := exists_of_tableStatements_eq_error h
    exact hmisfit.not_tablesFit
  · intro hmisfit
    cases h : object.tableStatements limit with
    | ok statements => exact absurd (tablesFit_of_tableStatements h) hmisfit
    | error error => exact ⟨error, rfl⟩

end Object

/-! ## Objects of a story -/

theorem ObjectId.index_ne {id id' : ObjectId} (h : id' ≠ id) : id'.index ≠ id.index := by
  cases id
  cases id'
  exact fun heq => h (congrArg mk heq)

namespace Story

/-- What the call is on the object: nothing if it is on something else. -/
def Call.on (id : ObjectId) : Call → Option Object.Call
  | .give id' property gift => if id' = id then some (.give property gift) else none
  | .change id' alteration => if id' = id then some (.change alteration) else none
  | _ => none

variable {story : Story} {id : ObjectId} {object : Object}

/-- A gift that is refused leaves the objects as they are, and so does every other call that is. -/
theorem Call.objects_next_of_refusal {call : Call} {error : EmitError}
    (hrefusal : call.refusal story = some error) (hget : story.objects[id.index]? = some object) :
    (call.on id).elim object (·.next object) = object := by
  cases call with
  | give id' property gift =>
    simp only [on]
    split
    · subst id'
      simp only [refusal, hget] at hrefusal
      split at hrefusal
      · rename_i htaken
        simp only [Option.elim, Object.Call.next, Object.addProperty, if_pos htaken]
      · cases hrefusal
    · rfl
  | change => cases hrefusal
  | _ => rfl

theorem Call.objects_changed {call : Call} (hrefusal : call.refusal story = none)
    (hget : story.objects[id.index]? = some object) :
    (call.changed story).objects[id.index]? = some ((call.on id).elim object (·.next object)) := by
  cases call with
  | define definition =>
    cases definition with
    | object name =>
      have hlt := (Array.getElem?_eq_some_iff.mp hget).1
      show (story.objects.push _)[id.index]? = some object
      rw [Array.getElem?_push, if_neg (by omega), hget]
    | _ => exact hget
  | give id' property gift =>
    simp only [changed, on, Array.getElem?_modify, hget]
    by_cases hid : id' = id
    · subst id'
      simp only [refusal, hget] at hrefusal
      split at hrefusal
      · cases hrefusal
      · rename_i hfresh
        simp only [↓reduceIte, Option.elim, Object.Call.next, Object.addProperty, if_neg hfresh,
          Option.map_some]
    · rw [if_neg hid, if_neg (ObjectId.index_ne hid)]
      rfl
  | change id' alteration =>
    simp only [changed, on, Array.getElem?_modify, hget]
    by_cases hid : id' = id
    · subst id'
      rw [if_pos rfl, if_pos rfl]
      rfl
    · rw [if_neg hid, if_neg (ObjectId.index_ne hid)]
      rfl
  | sequencePoint | finishRoutine | registry =>
    simp only [changed]
    split <;> exact hget
  | _ => exact hget

/-- A call on the story is to the object what it is on the object. -/
theorem Call.objects_next (call : Call) (hget : story.objects[id.index]? = some object) :
    (call.next story).objects[id.index]? = some ((call.on id).elim object (·.next object)) := by
  cases hrefusal : call.refusal story with
  | some error =>
    obtain ⟨registry, hleft⟩ := call.exists_left story
    rw [next_of_refusal_eq_some hrefusal, hleft, objects_next_of_refusal hrefusal hget]
    exact hget
  | none =>
    rw [next_of_refusal_eq_none hrefusal]
    exact objects_changed hrefusal hget

theorem objects_after (calls : List Call) (hget : story.objects[id.index]? = some object) :
    (story.after calls).objects[id.index]? = some (object.after (calls.filterMap (·.on id))) := by
  induction calls generalizing story object with
  | nil => exact hget
  | cons call calls ih =>
    have hrest := ih (call.objects_next hget)
    cases hon : call.on id with
    | none =>
      rw [hon] at hrest
      rw [List.filterMap_cons_none hon]
      exact hrest
    | some call' =>
      rw [hon] at hrest
      rw [List.filterMap_cons_some hon]
      exact hrest

/-- What follows the calls on an object, where `holdings` are what it was given in them. -/
structure PropertyTable (story : Story) (id : ObjectId) (holdings : List Object.Holding) (object : Object) :
    Prop where
  found : story.objects[id.index]? = some object
  /-- A number that the object was given is refused, and no other. -/
  refused : ∀ property gift, (Call.give id property gift).result story =
    if property.number ∈ holdings.map (·.number) then .error (.propertyTaken object.name property.number)
    else .ok .done
  written : ∀ statements, object.tableStatements story.version.maxPropertyLength = .ok statements →
    ∃ shortName entries, Object.IsShortName object.description shortName ∧
      statements = .label object.tableSymbol :: shortName :: entries.flatMap (·.statements) ++
        [.data .byte ["0"]] ∧
      Object.Faithful story.version.maxPropertyLength holdings entries
  fails_iff : (∃ error, object.tableStatements story.version.maxPropertyLength = .error error) ↔
    ∃ holding ∈ holdings, holding.Misfits story.version.maxPropertyLength

theorem result_give (hget : story.objects[id.index]? = some object) (property : PropertyId)
    (gift : Object.Gift) :
    (Call.give id property gift).result story =
      if property.number ∈ (object.properties.toList.map Object.holding).map (·.number) then
        .error (.propertyTaken object.name property.number)
      else .ok .done := by
  by_cases htaken : object.properties.any (·.1 == property.number) = true
  · rw [if_pos ((object.any_properties_iff _).mp htaken)]
    apply Call.result_of_refusal_eq_some
    simp only [Call.refusal, hget, if_pos htaken]
  · rw [if_neg fun hmem => htaken ((object.any_properties_iff _).mpr hmem)]
    apply Call.result_of_refusal_eq_none
    simp only [Call.refusal, hget, if_neg htaken]

/-- **Property tables are faithful**: whichever calls are made after an object was defined, its table has
one entry for each property that was taken, in descending order, with the values that were given and
their size. Writing it fails exactly if a table that was given has no bytes or too many. -/
theorem propertyTable_after (hget : story.objects[id.index]? = some object)
    (hbare : object.properties = #[]) (calls : List Call) :
    ∃ object', PropertyTable (story.after calls) id (Object.holdings (calls.filterMap (·.on id)))
      object' := by
  have hholdings := Object.holdings_after hbare (calls.filterMap (·.on id))
  have hafter := objects_after calls hget
  refine ⟨object.after (calls.filterMap (·.on id)), hafter, ?_, ?_, ?_⟩
  · intro property gift
    rw [result_give hafter, hholdings]
  · intro statements h
    obtain ⟨shortName, hname, hstatements⟩ := Object.exists_of_tableStatements h
    refine ⟨shortName, _, hname, hstatements, ?_⟩
    rw [← hholdings]
    apply Object.faithful_sortedProperties (Version.two_le_maxPropertyLength _)
    · rw [hholdings]
      exact Object.nodup_holdings _
    · exact Object.tablesFit_of_tableStatements h
  · rw [Object.tableStatements_eq_error_iff, ← Object.exists_misfits_iff, hholdings]

/-- A lamp with a byte, a word and a table. A word under the number of the byte is refused. -/
def lampCalls : List Call :=
  [.change ⟨0⟩ (.description (some "brass lamp")), .give ⟨0⟩ ⟨0, 5⟩ (.byte (.number 1)),
    .give ⟨0⟩ ⟨0, 5⟩ (.word (.number 2)), .give ⟨0⟩ ⟨1, 30⟩ (.word (.symbol "ROOM")),
    .give ⟨0⟩ ⟨2, 12⟩ .table, .change ⟨0⟩ (.entries ⟨2, 12⟩ [.word 1, .wordOperand (.symbol "HOOK")])]

theorem propertyTable_lamp :
    ∃ start object, Story.new 3 false = .ok start ∧
      (start.after [.define (.object "LAMP")]).objects[0]? = some object ∧ object.properties = #[] ∧
      ∃ object' statements entries,
        PropertyTable ((start.after [.define (.object "LAMP")]).after lampCalls) ⟨0⟩
          (Object.holdings (lampCalls.filterMap (·.on ⟨0⟩))) object' ∧
        object'.tableStatements 8 = .ok statements ∧
        Object.Faithful 8 [⟨5, false, [(.byte, "1")]⟩, ⟨30, false, [(.word, "ROOM")]⟩,
          ⟨12, true, [(.word, "1"), (.word, "HOOK")]⟩] entries := by
  obtain ⟨start, object, hstart, hget, hbare, hversion⟩ : ∃ start object,
      Story.new 3 false = .ok start ∧
      (start.after [.define (.object "LAMP")]).objects[0]? = some object ∧ object.properties = #[] ∧
      ((start.after [.define (.object "LAMP")]).after lampCalls).version.maxPropertyLength = 8 :=
    ⟨_, _, rfl, rfl, rfl, by decide +kernel⟩
  obtain ⟨object', htable⟩ := @propertyTable_after _ ⟨0⟩ object hget hbare lampCalls
  have hholdings : Object.holdings (lampCalls.filterMap (·.on ⟨0⟩)) =
      [⟨5, false, [(.byte, "1")]⟩, ⟨30, false, [(.word, "ROOM")]⟩,
        ⟨12, true, [(.word, "1"), (.word, "HOOK")]⟩] := by rfl
  have hwritten := htable.written
  have hfails := htable.fails_iff
  rw [hversion, hholdings] at hwritten hfails
  cases hstatements : object'.tableStatements 8 with
  | error error =>
    obtain ⟨holding, hmem, hmisfits⟩ := hfails.mp ⟨error, hstatements⟩
    have hfits : ∀ holding ∈ [(⟨5, false, [(.byte, "1")]⟩ : Object.Holding),
        ⟨30, false, [(.word, "ROOM")]⟩, ⟨12, true, [(.word, "1"), (.word, "HOOK")]⟩],
        ¬(holding.isTable = true ∧ (byteCount holding.values = 0 ∨ 8 < byteCount holding.values)) := by
      decide
    exact absurd hmisfits (hfits holding hmem)
  | ok statements =>
    obtain ⟨shortName, entries, -, -, hfaithful⟩ := hwritten statements hstatements
    exact ⟨start, object, hstart, hget, hbare, object', statements, entries, htable, hstatements, hfaithful⟩

end Story

end StoryAsm
