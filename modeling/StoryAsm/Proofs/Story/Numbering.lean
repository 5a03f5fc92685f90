import Mathlib.Data.List.Nodup
import StoryAsm.Proofs.Story.DebugInfo

/-!
# Numbers of objects, properties and flags

Objects are numbered upward from 1, properties and flags downward from the greatest number of the version.
A thing gets its number from the count of those before it (`Series.number`), and calls that are refused do
not count (`Series.Allotted`). A story takes as many things as there are numbers and refuses the next one
(`Series.results_define`).

Counts, limits and numbers stay below `2 ^ 16`. So it makes no difference whether they are computed as
natural numbers or as words of 16 bits (`Series.toNat_number16`, `Series.isFull16_iff`).

In the data segment flags and properties are assigned their numbers in ascending order, and defaults are
found by number (`Story.NumbersWritten`). `Story.exactNumbers_after` has all of this after any calls.
-/

namespace StoryAsm

/-- Kinds of things that have numbers. -/
inductive Series where
  | objects
  | properties
  | flags
  deriving DecidableEq

namespace Series

/-- How many of the things the story has. -/
def count (story : Story) : Series → Nat
  | objects => story.objects.size
  | properties => story.properties.size
  | flags => story.flags.size

/-- How many of the things a story can have. -/
def limit (version : Version) : Series → Nat
  | objects => version.maxObjects
  | properties => version.maxProperties
  | flags => version.maxFlags + 1

def least : Series → Nat
  | objects | properties => 1
  | flags => 0

def greatest (version : Version) : Series → Nat
  | objects => version.maxObjects
  | properties => version.maxProperties
  | flags => version.maxFlags

/-- The number of the thing that is defined after `place` others. -/
def number (version : Version) (place : Nat) : Series → Nat
  | objects => place + 1
  | properties => version.maxProperties - place
  | flags => version.maxFlags - place

/-- The numbers that the things of the story have, in the order of their definition. -/
def numbers (story : Story) : Series → List Nat
  | objects => (List.range story.objects.size).map fun index => ObjectId.number ⟨index⟩
  | properties => story.properties.toList.map (·.number)
  | flags => story.flags.toList.map (·.number)

/-- The number in a handle of the series. -/
def numberOf : Series → Answer → Option Nat
  | objects, .object id => some id.number
  | properties, .property id => some id.number
  | flags, .flag id => some id.number
  | _, _ => none

/-- What the definition of the thing that comes after `place` others returns. -/
def handle (version : Version) (place : Nat) : Series → Answer
  | objects => .object ⟨place⟩
  | properties => .property ⟨place, version.maxProperties - place⟩
  | flags => .flag ⟨place, version.maxFlags - place⟩

/-- Why a story that is full takes no more. -/
def full (version : Version) : Series → EmitError
  | objects => .tooManyObjects version.number version.maxObjects
  | properties => .tooManyProperties version.number version.maxProperties
  | flags => .tooManyFlags version.number (version.maxFlags + 1)

def define (name : String) : Series → Definition
  | objects => .object name
  | properties => .property name
  | flags => .flag name

/-- The symbol that a thing with the name claims. -/
def symbol (name : String) : Series → String
  | objects | flags => Symbol.ofName name
  | properties => Property.symbolOf (Symbol.ofName name)

variable {story : Story} {version : Version} {series : Series}

theorem numberOf_handle (series : Series) (version : Version) (place : Nat) :
    series.numberOf (series.handle version place) = some (series.number version place) := by
  cases series <;> rfl

theorem kind_full (series : Series) (version : Version) :
    (series.full version).kind = .invalidOperation := by
  cases series <;> rfl

/-! ## Definitions -/

theorem symbol_define (series : Series) (name : String) (story : Story) :
    (series.define name).symbol story = series.symbol name := by
  cases series <;> rfl

theorem refusal_define (series : Series) (name : String) (story : Story) :
    (series.define name).refusal story =
      if series.limit story.version ≤ series.count story then some (series.full story.version)
      else none := by
  cases series <;> rfl

theorem answer_define (series : Series) (name : String) (story : Story) :
    (series.define name).answer story = series.handle story.version (series.count story) := by
  cases series <;> rfl

theorem count_define (series : Series) (name : String) (story : Story) :
    series.count ((series.define name).record story) = series.count story + 1 := by
  cases series <;> simp [count, define, Definition.record]

theorem version_record (definition : Definition) (story : Story) :
    (definition.record story).version = story.version := by
  cases definition <;> rfl

/-- A definition adds to the series of its kind and to no other. -/
theorem exists_define_or (series : Series) (definition : Definition) (story : Story) :
    (∃ name, definition = series.define name) ∨
      series.numberOf (definition.answer story) = none ∧
        series.numbers (definition.record story) = series.numbers story := by
  cases series with
  | objects =>
    cases definition with
    | object name => exact .inl ⟨name, rfl⟩
    | _ => exact .inr ⟨rfl, rfl⟩
  | properties =>
    cases definition with
    | property name => exact .inl ⟨name, rfl⟩
    | _ => exact .inr ⟨rfl, rfl⟩
  | flags =>
    cases definition with
    | flag name => exact .inl ⟨name, rfl⟩
    | _ => exact .inr ⟨rfl, rfl⟩

theorem numbers_define (series : Series) (name : String) (story : Story) :
    series.numbers ((series.define name).record story) =
      series.numbers story ++ [series.number story.version (series.count story)] := by
  cases series <;> simp [numbers, define, Definition.record, List.range_succ, number, count,
    ObjectId.number]

theorem length_numbers (series : Series) (story : Story) :
    (series.numbers story).length = series.count story := by
  cases series <;> simp [numbers, count]

end Series

/-! ## Results of calls -/

namespace Story

open Series

variable {story : Story}

/-- What calls return, one after the other. -/
def results (story : Story) : List Call → List (Except EmitError Answer)
  | [] => []
  | call :: calls => call.result story :: (call.next story).results calls

/-- What the calls that are not refused return. -/
def answers (story : Story) (calls : List Call) : List Answer :=
  (story.results calls).filterMap Except.toOption

theorem answers_cons (story : Story) (call : Call) (calls : List Call) :
    story.answers (call :: calls) =
      (call.result story).toOption.toList ++ (call.next story).answers calls := by
  rw [answers, results, List.filterMap_cons]
  cases (call.result story).toOption <;> rfl

/-! ## What a call does to the numbers -/

theorem Call.numbers_left (series : Series) (call : Call) (story : Story) :
    series.numbers (call.left story) = series.numbers story := by
  obtain ⟨registry, h⟩ := call.exists_left story
  rw [h]
  cases series <;> rfl

/-- Apart from definitions, calls change no numbers. -/
theorem Call.numbers_changed (series : Series) {call : Call}
    (h : ∀ definition, call ≠ .define definition) :
    series.numbers (call.changed story) = series.numbers story := by
  cases call with
  | define definition => exact absurd rfl (h definition)
  | number | string | globalValue | tableEntries | wordEntries | routine => cases series <;> rfl
  | propertyValue id value =>
    cases series with
    | properties =>
      apply toList_map_modify
      exact fun _ => rfl
    | _ => rfl
  | change | give =>
    cases series with
    | objects => simp only [numbers, changed, Array.size_modify]
    | _ => rfl
  | sequencePoint | finishRoutine | registry =>
    simp only [changed]
    split <;> cases series <;> rfl

/-- Only definitions return handles of numbered things. -/
theorem Call.numberOf_answer (series : Series) {call : Call}
    (h : ∀ definition, call ≠ .define definition) : series.numberOf (call.answer story) = none := by
  cases call with
  | define definition => exact absurd rfl (h definition)
  | routine id call =>
    simp only [answer]
    split
    · cases series <;> rfl
    · cases call <;> cases series <;> rfl
  | registry call =>
    simp only [answer]
    split
    · cases call <;> cases series <;> rfl
    · cases series <;> rfl
  | _ => cases series <;> rfl

theorem Call.version_next (call : Call) (story : Story) : (call.next story).version = story.version := by
  rcases call.next_cases story with ⟨definition, -, hnext⟩ | hsame
  · rw [hnext, version_record]
  · exact hsame.version

/-- A call hands out the next number of the series, of which there is one left, or the numbers stay as
they are. -/
theorem Call.numbers_cases (series : Series) (call : Call) (story : Story) :
    (series.numbers (call.next story) = series.numbers story ∧
      (call.result story).toOption.toList.filterMap series.numberOf = []) ∨
    (series.count story < series.limit story.version ∧
      series.numbers (call.next story) =
        series.numbers story ++ [series.number story.version (series.count story)] ∧
      call.result story = .ok (series.handle story.version (series.count story))) := by
  cases hrefusal : call.refusal story with
  | some error =>
    rw [next_of_refusal_eq_some hrefusal, result_of_refusal_eq_some hrefusal, numbers_left]
    exact .inl ⟨rfl, rfl⟩
  | none =>
    rw [next_of_refusal_eq_none hrefusal, result_of_refusal_eq_none hrefusal]
    by_cases hdefine : ∃ definition, call = .define definition
    · obtain ⟨definition, rfl⟩ := hdefine
      rcases exists_define_or series definition story with ⟨name, rfl⟩ | ⟨hanswer, hnumbers⟩
      · have hfits := Definition.refusal_eq_none_iff.mpr (Definition.rejection_eq_none_iff.mp hrefusal).1
        have hlt : series.count story < series.limit story.version := by
          by_contra hfull
          rw [refusal_define, if_pos (Nat.not_lt.mp hfull)] at hfits
          cases hfits
        have hanswer := answer_define series name story
        exact .inr ⟨hlt, numbers_define series name story, congrArg Except.ok hanswer⟩
      · exact .inl ⟨hnumbers, List.filterMap_cons_none hanswer⟩
    · have hother : ∀ definition, call ≠ .define definition :=
        fun definition heq => hdefine ⟨definition, heq⟩
      exact .inl ⟨numbers_changed series hother, List.filterMap_cons_none (numberOf_answer series hother)⟩

end Story

namespace Series

open Story

variable {story : Story} {version : Version} {series : Series} {answers : List Answer}

/-! ## Runs of calls -/

/-- The numbers of the series are handed out in their order, none is skipped, and none is used up by a
call that is refused. -/
structure Allotted (series : Series) (version : Version) (answers : List Answer) (story : Story) :
    Prop where
  version_eq : story.version = version
  handed : answers.filterMap series.numberOf = series.numbers story
  numbers_eq : series.numbers story =
    (List.range (series.count story)).map fun place => series.number version place
  count_le : series.count story ≤ series.limit version

theorem Allotted.next (h : series.Allotted version answers story) (call : Call) :
    series.Allotted version (answers ++ (call.result story).toOption.toList) (call.next story) := by
  have hversion := (call.version_next story).trans h.version_eq
  rcases call.numbers_cases series story with ⟨hnumbers, hnone⟩ | ⟨hlt, hnumbers, hresult⟩
  · have hcount : series.count (call.next story) = series.count story := by
      rw [← length_numbers, hnumbers, length_numbers]
    refine ⟨hversion, ?_, ?_, hcount ▸ h.count_le⟩
    · rw [List.filterMap_append, hnone, List.append_nil, h.handed, hnumbers]
    · rw [hnumbers, hcount, h.numbers_eq]
  · have hcount : series.count (call.next story) = series.count story + 1 := by
      rw [← length_numbers, hnumbers, List.length_append, length_numbers]
      rfl
    rw [h.version_eq] at hlt hnumbers hresult
    refine ⟨hversion, ?_, ?_, hcount ▸ hlt⟩
    · rw [List.filterMap_append, hresult, h.handed, hnumbers]
      exact congrArg _ (List.filterMap_cons_some (numberOf_handle series version _))
    · rw [hnumbers, hcount, h.numbers_eq, List.range_succ, List.map_append]
      rfl

theorem Allotted.after (h : series.Allotted version answers story) (calls : List Call) :
    series.Allotted version (answers ++ story.answers calls) (story.after calls) := by
  induction calls generalizing answers story with
  | nil =>
    show series.Allotted version (answers ++ []) story
    rwa [List.append_nil]
  | cons call calls ih =>
    rw [answers_cons, ← List.append_assoc]
    exact ih (h.next call)

theorem allotted_new {number : Int} {wantsDebug : Bool} {start : Story}
    (h : Story.new number wantsDebug = .ok start) (series : Series) :
    series.Allotted start.version [] start := by
  obtain ⟨version, -, h⟩ := bind_eq_ok.mp h
  obtain rfl := Except.ok.inj h
  cases series <;> exact ⟨rfl, rfl, rfl, Nat.zero_le _⟩

/-! ## Numbers within bounds -/

theorem number_bounds {place : Nat} (h : place < series.limit version) :
    series.least ≤ series.number version place ∧
      series.number version place ≤ series.greatest version := by
  cases series <;> simp only [limit, least, number, greatest] at * <;> omega

theorem number_inj {place place' : Nat} (h : place < series.limit version)
    (h' : place' < series.limit version)
    (heq : series.number version place = series.number version place') : place = place' := by
  cases series <;> simp only [limit, number] at * <;> omega

theorem Allotted.exists_place (h : series.Allotted version answers story) {number : Nat}
    (hmem : number ∈ series.numbers story) :
    ∃ place, place < series.limit version ∧ series.number version place = number := by
  rw [h.numbers_eq] at hmem
  obtain ⟨place, hplace, rfl⟩ := List.mem_map.mp hmem
  exact ⟨place, Nat.lt_of_lt_of_le (List.mem_range.mp hplace) h.count_le, rfl⟩

theorem Allotted.nodup (h : series.Allotted version answers story) : (series.numbers story).Nodup := by
  rw [h.numbers_eq]
  refine List.pairwise_map.mpr (List.nodup_range.imp_of_mem ?_)
  intro place place' hplace hplace' hne heq
  have hlt := Nat.lt_of_lt_of_le (List.mem_range.mp hplace) h.count_le
  have hlt' := Nat.lt_of_lt_of_le (List.mem_range.mp hplace') h.count_le
  exact hne (number_inj hlt hlt' heq)

/-! ## Words of 16 bits -/

/-- The number, computed in words of 16 bits. -/
def number16 (version : Version) (place : Nat) : Series → UInt16
  | objects => .ofNat place + 1
  | properties => .ofNat version.maxProperties - .ofNat place
  | flags => .ofNat version.maxFlags - .ofNat place

/-- A story with so many things is full, where counts are cut to 16 bits. The limit of objects is not
compared in words. -/
def IsFull16 (version : Version) (count : Nat) : Series → Prop
  | objects => version.maxObjects ≤ count
  | properties => UInt16.ofNat version.maxProperties ≤ UInt16.ofNat count
  | flags => UInt16.ofNat version.maxFlags < UInt16.ofNat count

theorem limit_lt (series : Series) (version : Version) : series.limit version < UInt16.size := by
  cases series <;> simp only [limit, Version.maxObjects, Version.maxProperties, Version.maxFlags] <;>
    split <;> decide

theorem greatest_lt (series : Series) (version : Version) : series.greatest version < UInt16.size := by
  have hlt := series.limit_lt version
  cases series <;> simp only [limit, greatest] at * <;> omega

/-- A difference that does not borrow. -/
theorem toNat_ofNat_sub {max place : Nat} (hmax : max < UInt16.size) (h : place ≤ max) :
    (UInt16.ofNat max - UInt16.ofNat place).toNat = max - place := by
  have hplace : (UInt16.ofNat place).toNat = place := UInt16.toNat_ofNat_of_lt' (by omega)
  have hle : UInt16.ofNat place ≤ UInt16.ofNat max := by
    rwa [UInt16.le_iff_toNat_le, hplace, UInt16.toNat_ofNat_of_lt' hmax]
  rw [UInt16.toNat_sub_of_le _ _ hle, hplace, UInt16.toNat_ofNat_of_lt' hmax]

theorem toNat_number16 {place : Nat} (h : place < series.limit version) :
    (series.number16 version place).toNat = series.number version place := by
  cases series with
  | objects =>
    have hlt := Nat.lt_of_le_of_lt h (limit_lt objects version)
    rw [number16, UInt16.toNat_add, UInt16.toNat_ofNat_of_lt' (Nat.lt_of_succ_lt hlt)]
    exact Nat.mod_eq_of_lt hlt
  | properties => exact toNat_ofNat_sub (greatest_lt properties version) (Nat.le_of_lt h)
  | flags => exact toNat_ofNat_sub (greatest_lt flags version) (Nat.le_of_lt_succ h)

theorem isFull16_iff {count : Nat} (h : count ≤ series.limit version) :
    series.IsFull16 version count ↔ series.limit version ≤ count := by
  have hcount := UInt16.toNat_ofNat_of_lt' (Nat.lt_of_le_of_lt h (series.limit_lt version))
  have hmax := UInt16.toNat_ofNat_of_lt' (series.greatest_lt version)
  cases series with
  | objects => exact Iff.rfl
  | properties =>
    rw [IsFull16, UInt16.le_iff_toNat_le, hcount]
    exact iff_of_eq (congrArg (· ≤ count) hmax)
  | flags =>
    rw [IsFull16, UInt16.lt_iff_toNat_lt, hcount]
    exact iff_of_eq (congrArg (· < count) hmax)

/-! ## Room for definitions -/

theorem rejection_define_of_full (h : series.limit story.version ≤ series.count story) (name : String) :
    (Call.define (series.define name)).refusal story = some (series.full story.version) := by
  rw [Call.refusal, Definition.rejection, refusal_define, if_pos h]
  rfl

/-- A story that is full stays so. -/
theorem results_define_of_full (h : series.limit story.version ≤ series.count story)
    (names : List String) :
    story.results (names.map fun name => .define (series.define name)) =
      List.replicate names.length (.error (series.full story.version)) := by
  induction names with
  | nil => rfl
  | cons name names ih =>
    have hrefusal := rejection_define_of_full h name
    rw [List.map_cons, results, Call.result_of_refusal_eq_some hrefusal,
      Call.next_of_refusal_eq_some hrefusal]
    exact congrArg _ ih

/-- Definitions with new names get the numbers that are left, and then they are refused. -/
theorem results_define (names : List String) (story : Story)
    (hnames : (names.map fun name => series.symbol name).Nodup)
    (hfresh : ∀ name ∈ names, ¬story.symbols.contains (series.symbol name) = true) :
    story.results (names.map fun name => .define (series.define name)) =
      (List.range' (series.count story) names.length).map fun place =>
        if place < series.limit story.version then .ok (series.handle story.version place)
        else .error (series.full story.version) := by
  induction names generalizing story with
  | nil => rfl
  | cons name names ih =>
    by_cases hfull : series.limit story.version ≤ series.count story
    · rw [results_define_of_full hfull]
      refine (List.eq_replicate_iff.mpr ⟨by simp, ?_⟩).symm
      intro result hmem
      obtain ⟨place, hplace, rfl⟩ := List.mem_map.mp hmem
      exact if_neg (Nat.not_lt.mpr (Nat.le_trans hfull (List.mem_range'_1.mp hplace).1))
    · have hlt := Nat.not_le.mp hfull
      obtain ⟨hname, hrest⟩ := List.nodup_cons.mp hnames
      have hrefusal : (Call.define (series.define name)).refusal story = none := by
        rw [Call.refusal, Definition.rejection, refusal_define, if_neg hfull, symbol_define,
          if_neg (hfresh name List.mem_cons_self)]
        rfl
      have hkept : ∀ other ∈ names,
          ¬((series.define name).record story).symbols.contains (series.symbol other) = true := by
        intro other hother htaken
        rw [Definition.contains_record, symbol_define] at htaken
        rcases htaken with heq | htaken
        · exact hname (List.mem_map.mpr ⟨other, hother, heq.symm⟩)
        · exact hfresh other (.tail _ hother) htaken
      have hih := ih ((series.define name).record story) hrest hkept
      rw [version_record, count_define] at hih
      rw [List.map_cons, results, Call.result_of_refusal_eq_none hrefusal,
        Call.next_of_refusal_eq_none hrefusal, List.length_cons, List.range'_succ, List.map_cons,
        if_pos hlt]
      exact congrArg₂ _ (congrArg _ (answer_define series name story)) hih

end Series

/-! ## The data segment -/

/-- Things with different numbers, sorted by their numbers. -/
theorem pairwise_mergeSort_lt {α : Type} (number : α → Nat) {xs : List α} (h : (xs.map number).Nodup) :
    (xs.mergeSort fun a b => decide (number a ≤ number b)).Pairwise fun a b => number a < number b := by
  have hsorted : (xs.mergeSort fun a b => decide (number a ≤ number b)).Pairwise
      fun a b => decide (number a ≤ number b) = true := by
    apply List.pairwise_mergeSort
    · intro a b c hab hbc
      simp only [decide_eq_true_eq] at *
      omega
    · intro a b
      simp only [Bool.or_eq_true, decide_eq_true_eq]
      omega
  have hperm := (List.mergeSort_perm xs fun a b => decide (number a ≤ number b)).map number
  refine hsorted.imp₂ (fun a b hle hne => ?_) (List.pairwise_map.mp (hperm.nodup_iff.mpr h))
  exact Nat.lt_of_le_of_ne (of_decide_eq_true hle) hne

namespace Story

open Series

variable {story : Story} {data : List Statement}

/-- The text of the default of the property with the number, zero if it has none or is not there. -/
def IsDefault (story : Story) (number : Nat) (text : String) : Prop :=
  (∀ property ∈ story.properties, property.number = number →
    text = (property.value.map (·.text)).getD "0") ∧
  ((∀ property ∈ story.properties, property.number ≠ number) → text = "0")

theorem isDefault_propertyDefault (h : (Series.numbers story .properties).Nodup) (number : Nat) :
    story.IsDefault number (story.propertyDefault number) := by
  rw [propertyDefault]
  cases hfind : story.properties.find? (·.number == number) with
  | none =>
    refine ⟨fun property hmem heq => ?_, fun _ => rfl⟩
    exact absurd (beq_iff_eq.mpr heq) (Array.find?_eq_none.mp hfind property hmem)
  | some found =>
    have hmem := Array.mem_of_find?_eq_some hfind
    have hnumber : found.number = number := by simpa using Array.find?_some hfind
    refine ⟨fun property hproperty heq => ?_, fun hnone => absurd hnumber (hnone found hmem)⟩
    -- Numbers tell the properties apart, so the search finds this one.
    obtain rfl : property = found := List.inj_on_of_nodup_map h (Array.mem_toList_iff.mpr hproperty)
      (Array.mem_toList_iff.mpr hmem) (heq.trans hnumber.symm)
    cases hvalue : property.value <;> simp [hvalue]

/-- The numbers in the statements of the data segment. -/
structure NumbersWritten (story : Story) (data : List Statement) : Prop where
  /-- Flags and properties are assigned their numbers in ascending order. -/
  assigned : ∃ (headers : List String) (flags : List Flag) (properties : List Property)
      (rest : List Statement),
    data = headers.map (.assign · "0") ++
      flags.map (fun flag => .assign flag.name (toString flag.number)) ++
      properties.map (fun property => .assign property.symbol (toString property.number)) ++ rest ∧
    flags.Perm story.flags.toList ∧ flags.Pairwise (·.number < ·.number) ∧
    properties.Perm story.properties.toList ∧ properties.Pairwise (·.number < ·.number)
  /-- The words behind the label of the objects are the defaults of the properties from 1 on. -/
  defaults : ∃ (before words rest : List Statement),
    data = before ++ .label "OBJECT" :: words ++ rest ∧ .label "OBJECT" ∉ before ∧
    words.length = story.version.maxProperties ∧
    ∀ number, 1 ≤ number → number ≤ story.version.maxProperties →
      ∃ text, words[number - 1]? = some (.data .word [text]) ∧ story.IsDefault number text

theorem numbersWritten_of_dataStatements (hflags : (Series.numbers story .flags).Nodup)
    (hproperties : (Series.numbers story .properties).Nodup) (hdata : story.dataStatements = .ok data) :
    story.NumbersWritten data := by
  obtain ⟨tables, -, hdata⟩ := bind_eq_ok.mp hdata
  obtain rfl := Except.ok.inj hdata
  constructor
  · refine ⟨if story.version.hasHeaderBlock then headerSymbols.filter (!story.symbols.contains ·) else [],
      story.flags.toList.mergeSort fun a b => decide (a.number ≤ b.number),
      story.properties.toList.mergeSort fun a b => decide (a.number ≤ b.number), ?_, ?_,
      List.mergeSort_perm _ _, pairwise_mergeSort_lt Flag.number hflags, List.mergeSort_perm _ _,
      pairwise_mergeSort_lt Property.number hproperties⟩
    rotate_left
    · simp only [assignments, List.append_assoc]
      rfl
  · refine ⟨story.assignments ++ [.blank, .label "GLOBAL"] ++ story.orderedGlobals.map (·.statement) ++
      [.blank], (List.range story.version.maxProperties).map fun index =>
        .data .word [story.propertyDefault (index + 1)], ?_, ?_, ?_, ?_, ?_⟩
    rotate_left
    · simp only [objectStatements, List.append_assoc, List.cons_append, List.nil_append]
      rfl
    · simp [assignments, Global.statement]
    · simp
    · intro number hpos hle
      refine ⟨story.propertyDefault number, ?_, isDefault_propertyDefault hproperties number⟩
      rw [List.getElem?_map, List.getElem?_range (by omega), Option.map_some, Nat.sub_add_cancel hpos]

/-- Finishing the routines leaves flags and properties as they are. -/
theorem numbersWritten_of_closed (hflags : (Series.numbers story .flags).Nodup)
    (hproperties : (Series.numbers story .properties).Nodup)
    (hdata : story.closed.dataStatements = .ok data) : story.NumbersWritten data := by
  obtain ⟨routines, registry, log, hclosed⟩ := story.exists_closed
  rw [hclosed] at hdata
  have hflags' : (Series.numbers { story with routines, registry, log } .flags).Nodup := hflags
  obtain ⟨assigned, defaults⟩ := numbersWritten_of_dataStatements hflags' hproperties hdata
  exact ⟨assigned, defaults⟩

/-! ## All numbers of a story -/

/-- The numbers that were handed out up to here, where `answers` are what the calls returned, and those
that are left. -/
structure ExactNumbers (version : Version) (answers : List Answer) (story : Story) : Prop where
  allotted : ∀ series : Series, series.Allotted version answers story
  nodup : ∀ series : Series, (series.numbers story).Nodup
  bounds : ∀ series : Series, ∀ number ∈ series.numbers story,
    series.least ≤ number ∧ number ≤ series.greatest version
  /-- Countdowns do not stop short at zero. -/
  countdown : ∀ series : Series, series ≠ .objects → ∀ place < series.count story,
    series.number version place + place = series.greatest version
  /-- Words of 16 bits neither overflow nor borrow. -/
  words : ∀ series : Series, ∀ place < series.count story,
    (series.number16 version place).toNat = series.number version place
  checks : ∀ series : Series,
    series.IsFull16 version (series.count story) ↔ series.limit version ≤ series.count story
  flagLimit : (UInt16.ofNat version.maxFlags + 1).toNat = Series.limit version .flags
  /-- New names get the numbers that are left, one after the other, and then no more. -/
  room : ∀ (series : Series) (names : List String), (names.map fun name => series.symbol name).Nodup →
    (∀ name ∈ names, ¬story.symbols.contains (series.symbol name) = true) →
    story.results (names.map fun name => .define (series.define name)) =
      (List.range' (series.count story) names.length).map fun place =>
        if place < series.limit version then .ok (series.handle version place)
        else .error (series.full version)
  refused : ∀ series : Series, (series.full version).kind = .invalidOperation

end Story

open Series Story in
theorem Series.exactNumbers {version : Version} {answers : List Answer} {story : Story}
    (h : ∀ series : Series, series.Allotted version answers story) :
    ExactNumbers version answers story where
  allotted := h
  nodup series := (h series).nodup
  bounds series number hmem := by
    obtain ⟨place, hplace, rfl⟩ := (h series).exists_place hmem
    exact number_bounds hplace
  countdown series hne place hplace := by
    have hlt := Nat.lt_of_lt_of_le hplace (h series).count_le
    cases series with
    | objects => exact absurd rfl hne
    | properties => exact Nat.sub_add_cancel (Nat.le_of_lt hlt)
    | flags => exact Nat.sub_add_cancel (Nat.le_of_lt_succ hlt)
  words series place hplace := toNat_number16 (Nat.lt_of_lt_of_le hplace (h series).count_le)
  checks series := isFull16_iff (h series).count_le
  flagLimit := by
    have hlt : version.maxFlags + 1 < UInt16.size := limit_lt flags version
    rw [UInt16.toNat_add, UInt16.toNat_ofNat_of_lt' (Nat.lt_of_succ_lt hlt)]
    exact Nat.mod_eq_of_lt hlt
  room series names hnames hfresh := (h series).version_eq ▸ results_define names story hnames hfresh
  refused series := series.kind_full version

/-- **Numbers are exact**: whichever calls are made, refused ones among them, the numbers of a series are
handed out in their order without gaps, words of 16 bits hold them, and there is room for as many things
as there are numbers. The data segment has the numbers in ascending order and each default at the place
of its number. -/
theorem Story.exactNumbers_after (number : Int) (wantsDebug : Bool) {start : Story}
    (hstart : Story.new number wantsDebug = .ok start) (calls : List Call) :
    ExactNumbers start.version (start.answers calls) (start.after calls) ∧
      ∀ base keeps fault, ((start.after calls).output base keeps fault).1 = .ok () →
        ∃ data, ((start.after calls).output base keeps fault).2.data = some (sourceText data) ∧
          (start.after calls).NumbersWritten data := by
  have hallotted : ∀ series : Series,
      series.Allotted start.version (start.answers calls) (start.after calls) :=
    fun series => (Series.allotted_new hstart series).after calls
  refine ⟨Series.exactNumbers hallotted, fun base keeps fault hok => ?_⟩
  obtain ⟨data, hdata, -, hwritten⟩ := exists_output_eq_sourceText hok
  exact ⟨data, hwritten, numbersWritten_of_closed (hallotted .flags).nodup
    (hallotted .properties).nodup hdata⟩

namespace Story

/-- Two flags, a property and two objects. A flag and an object are refused in between, for their names
are taken. -/
def namedThings : List Call :=
  [.define (.flag "LIT"), .define (.flag "LIT"), .define (.flag "OPEN"), .define (.property "SIZE"),
    .propertyValue ⟨0, 31⟩ (some (.number 5)), .define (.object "CLOAK"), .define (.object "OPEN"),
    .define (.object "HOOK")]

/-- One name more than there is room for. -/
def moreFlags : List String :=
  (List.range 31).map fun index => "F" ++ toString index

theorem exactNumbers_after_namedThings :
    ∃ start data, Story.new 3 false = .ok start ∧
      ((start.after namedThings).output "story" false fun _ _ => none).1 = .ok () ∧
      (start.after namedThings).NumbersWritten data ∧
      (start.answers namedThings).filterMap (Series.numberOf .flags) = [31, 30] ∧
      (start.answers namedThings).filterMap (Series.numberOf .properties) = [31] ∧
      (start.answers namedThings).filterMap (Series.numberOf .objects) = [1, 2] ∧
      (start.after namedThings).results (moreFlags.map fun name => .define (.flag name)) =
        (List.range' 2 31).map fun place =>
          if place < 32 then .ok (.flag ⟨place, 31 - place⟩) else .error (.tooManyFlags 3 32) := by
  obtain ⟨start, hstart, hversion, hplain, hflags, hproperties, hobjects, hfresh⟩ :
      ∃ start, Story.new 3 false = .ok start ∧ start.version = { number := 3 } ∧
        (start.after namedThings).objects.toList.all (·.properties.isEmpty) = true ∧
        (start.after namedThings).flags.size = 2 ∧ (start.after namedThings).properties.size = 1 ∧
        (start.after namedThings).objects.size = 2 ∧
        ∀ name ∈ moreFlags, ¬(start.after namedThings).symbols.contains (Symbol.ofName name) = true :=
    ⟨_, rfl, rfl, by decide +kernel, by decide +kernel, by decide +kernel, by decide +kernel,
      by decide +kernel⟩
  have hfit : (start.after namedThings).TablesFit := by
    intro object hmem number table htable
    have hempty := List.all_eq_true.mp hplain object (Array.mem_toList_iff.mpr hmem)
    rw [Object.HasTable, Array.isEmpty_iff.mp hempty] at htable
    cases htable
  have hok := output_eq_ok hfit "story" false
  obtain ⟨hexact, hwritten⟩ := exactNumbers_after 3 false hstart namedThings
  obtain ⟨data, -, hdata⟩ := hwritten "story" false (fun _ _ => none) hok
  have hnames : (moreFlags.map fun name => Series.symbol name .flags).Nodup := by decide +kernel
  have hroom := hexact.room .flags moreFlags hnames hfresh
  have hhanded : ∀ series : Series, (start.answers namedThings).filterMap series.numberOf =
      (List.range (series.count (start.after namedThings))).map
        fun place => series.number start.version place :=
    fun series => (hexact.allotted series).handed.trans (hexact.allotted series).numbers_eq
  refine ⟨start, data, hstart, hok, hdata, ?_, ?_, ?_, ?_⟩
  · rw [hhanded, Series.count, hflags, hversion]
    rfl
  · rw [hhanded, Series.count, hproperties, hversion]
    rfl
  · rw [hhanded, Series.count, hobjects]
    rfl
  · rw [Series.count, hflags, hversion] at hroom
    exact hroom

end Story

end StoryAsm
