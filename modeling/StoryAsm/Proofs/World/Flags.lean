import Mathlib.Data.List.Nodup
import StoryAsm.Proofs.Story.Interleaving
import StoryAsm.Proofs.Story.Numbering
import StoryAsm.Proofs.Story.Vocabulary
import StoryAsm.Proofs.World.Properties

/-!
# Flags of objects

The record of an object has its flags as the bits of words, the first flag of a word as its highest bit
(`Object.flagIn`). The bits are those of the flags whose last change was to be set
(`Object.flagIn_flagWords_after`).

A version has as many bits as a story can have flags, so no flag of a story is lost
(`Version.maxFlags_lt`). A handle of another story may have a greater number. Changes of such a flag do
not show in anything that is written (`Story.sameOutput_filter_isBeyond`).
-/

namespace StoryAsm

/-- There is a bit for each flag. -/
theorem Version.maxFlags_lt (version : Version) : version.maxFlags < 16 * version.flagWords := by
  rw [maxFlags, flagWords]
  split <;> decide

namespace Object

/-! ## Words -/

/-- The flag with the number is set in the words. -/
def flagIn (words : List Nat) (number : Nat) : Bool :=
  (words[number / 16]?).any (·.testBit (15 - number % 16))

theorem testBit_foldl_or (flags : List Nat) (word bit : Nat) :
    (flags.foldl (fun word flag => word ||| 1 <<< (15 - flag % 16)) word).testBit bit = true ↔
      word.testBit bit = true ∨ ∃ flag ∈ flags, 15 - flag % 16 = bit := by
  induction flags generalizing word with
  | nil => simp
  | cons flag flags ih =>
    have hbit : (1 <<< (15 - flag % 16)).testBit bit = true ↔ 15 - flag % 16 = bit := by
      rw [Nat.testBit_shiftLeft, Bool.and_eq_true, decide_eq_true_eq,
        Nat.testBit_one_eq_true_iff_self_eq_zero]
      omega
    rw [List.foldl_cons, ih, Nat.testBit_or, Bool.or_eq_true, hbit, List.exists_mem_cons_iff, or_assoc]

theorem testBit_flagWord (flags : List Nat) (index bit : Nat) :
    (flagWord flags index).testBit bit = true ↔
      ∃ flag ∈ flags, flag / 16 = index ∧ 15 - flag % 16 = bit := by
  rw [flagWord, testBit_foldl_or, Nat.zero_testBit]
  simp [and_assoc]

theorem flagWord_lt (flags : List Nat) (index : Nat) : flagWord flags index < UInt16.size := by
  apply Nat.lt_pow_two_of_testBit (n := 16)
  intro bit hbit
  rw [← Bool.not_eq_true, testBit_flagWord]
  rintro ⟨flag, -, -, heq⟩
  omega

variable {object : Object} {calls : List Call} {count number : Nat}

theorem flagIn_flagWords :
    flagIn (object.flagWords count) number = true ↔ number < 16 * count ∧ number ∈ object.flags := by
  rw [flagIn, flagWords, List.getElem?_map, Option.any_map, Option.any_eq_true]
  constructor
  · rintro ⟨index, hindex, hbit⟩
    obtain ⟨hlt, rfl⟩ : number / 16 < count ∧ number / 16 = index := by
      simpa [List.getElem?_eq_some_iff] using hindex
    obtain ⟨flag, hmem, hword, hplace⟩ := (testBit_flagWord _ _ _).mp hbit
    obtain rfl : flag = number := by omega
    exact ⟨by omega, hmem⟩
  · rintro ⟨hlt, hmem⟩
    refine ⟨number / 16, List.getElem?_range (by omega), ?_⟩
    exact (testBit_flagWord _ _ _).mpr ⟨number, hmem, rfl, rfl⟩

/-! ## Calls -/

/-- The flag that the call sets or clears. -/
def Call.flag? : Call → Option FlagId
  | change (.setFlag flag) | change (.clearFlag flag) => some flag
  | _ => none

/-- What the call does to the flag with the number: it sets it, clears it or leaves it as it is. -/
def Call.effect? (number : Nat) : Call → Option Bool
  | change (.setFlag flag) => if flag.number = number then some true else none
  | change (.clearFlag flag) => if flag.number = number then some false else none
  | _ => none

/-- The last of the calls on the flag with the number set it. -/
def SetLast (calls : List Call) (number : Nat) : Prop :=
  (calls.filterMap (·.effect? number)).getLast? = some true

theorem exists_next_give (object : Object) (property : PropertyId) (gift : Gift) :
    ∃ properties, (Call.give property gift).next object = { object with properties } := by
  by_cases htaken : object.properties.any (·.1 == property.number) = true
  · simp only [Call.next, addProperty, if_pos htaken]
    exact ⟨_, rfl⟩
  · simp only [Call.next, addProperty, if_neg htaken]
    exact ⟨_, rfl⟩

theorem nodup_flags_next (h : object.flags.Nodup) (call : Call) : (call.next object).flags.Nodup := by
  cases call with
  | give property gift =>
    obtain ⟨properties, hnext⟩ := object.exists_next_give property gift
    rwa [hnext]
  | change alteration =>
    cases alteration with
    | setFlag flag => exact h.insert
    | clearFlag flag => exact h.erase flag.number
    | _ => exact h

theorem mem_flags_next (h : object.flags.Nodup) (call : Call) (number : Nat) :
    decide (number ∈ (call.next object).flags) =
      (call.effect? number).getD (decide (number ∈ object.flags)) := by
  cases call with
  | give property gift =>
    obtain ⟨properties, hnext⟩ := object.exists_next_give property gift
    rw [hnext]
    rfl
  | change alteration =>
    cases alteration with
    | setFlag flag =>
      show decide (number ∈ object.flags.insert flag.number) = _
      by_cases heq : flag.number = number
      · simp [Call.effect?, heq]
      · simp [Call.effect?, heq, Ne.symm heq]
    | clearFlag flag =>
      show decide (number ∈ object.flags.erase flag.number) = _
      by_cases heq : flag.number = number
      · simp [Call.effect?, h.mem_erase_iff, heq]
      · simp [Call.effect?, h.mem_erase_iff, heq, Ne.symm heq]
    | _ => rfl

/-- A flag is set if the last call on it set it, or if it was set before and no call was on it. -/
theorem mem_flags_after (h : object.flags.Nodup) (calls : List Call) (number : Nat) :
    decide (number ∈ (object.after calls).flags) =
      (calls.filterMap (·.effect? number)).getLast?.getD (decide (number ∈ object.flags)) := by
  induction calls generalizing object with
  | nil => rfl
  | cons call calls ih =>
    have hafter := ih (nodup_flags_next h call)
    rw [mem_flags_next h] at hafter
    cases heffect : call.effect? number with
    | none =>
      rw [List.filterMap_cons_none heffect]
      rwa [heffect] at hafter
    | some sets =>
      rw [List.filterMap_cons_some heffect, List.getLast?_cons]
      rwa [heffect] at hafter

theorem mem_flags_after_iff (hbare : object.flags = []) (calls : List Call) (number : Nat) :
    number ∈ (object.after calls).flags ↔ SetLast calls number := by
  have hnodup : object.flags.Nodup := hbare ▸ List.nodup_nil
  rw [← decide_eq_true_iff (p := number ∈ _), mem_flags_after hnodup, hbare, SetLast]
  cases (calls.filterMap (·.effect? number)).getLast? <;> simp

/-- The words have the bits of the flags that were set last, as far as there are bits. -/
theorem flagIn_flagWords_after (hbare : object.flags = []) (calls : List Call) (count number : Nat) :
    flagIn ((object.after calls).flagWords count) number = true ↔
      number < 16 * count ∧ SetLast calls number := by
  rw [flagIn_flagWords, mem_flags_after_iff hbare]

theorem effect?_eq_some {call : Call} {sets : Bool} (h : call.effect? number = some sets) :
    ∃ flag, call.flag? = some flag ∧ flag.number = number := by
  cases call with
  | give => cases h
  | change alteration =>
    cases alteration with
    | setFlag flag | clearFlag flag =>
      refine ⟨flag, rfl, ?_⟩
      by_contra hne
      simp only [Call.effect?, if_neg hne] at h
      cases h
    | _ => cases h

/-- Only a flag that a call is on can be set last. -/
theorem exists_flag?_of_setLast (h : SetLast calls number) :
    ∃ call ∈ calls, ∃ flag, call.flag? = some flag ∧ flag.number = number := by
  obtain ⟨call, hmem, heffect⟩ := List.mem_filterMap.mp (List.mem_of_getLast? h)
  exact ⟨call, hmem, effect?_eq_some heffect⟩

theorem name_after (object : Object) (calls : List Call) : (object.after calls).name = object.name := by
  induction calls generalizing object with
  | nil => rfl
  | cons call calls ih =>
    refine (ih (call.next object)).trans ?_
    cases call with
    | give property gift =>
      obtain ⟨properties, hnext⟩ := object.exists_next_give property gift
      rw [hnext]
    | change alteration => exact alteration.name_apply object

/-! ## Flags without a bit -/

/-- The change is of a flag that has no bit in so many words. -/
def Change.isBeyond (count : Nat) : Change → Bool
  | setFlag flag | clearFlag flag => decide (16 * count ≤ flag.number)
  | _ => false

/-- The object with the flags that have a bit in so many words. -/
def shown (count : Nat) (object : Object) : Object :=
  { object with flags := object.flags.filter (· < 16 * count) }

theorem flagWords_shown (object : Object) (count : Nat) :
    (object.shown count).flagWords count = object.flagWords count := by
  refine List.map_congr_left fun index hindex => ?_
  have hlt := List.mem_range.mp hindex
  have hfilter : (object.flags.filter (· < 16 * count)).filter (· / 16 = index) =
      object.flags.filter (· / 16 = index) := by
    rw [List.filter_filter]
    refine List.filter_congr fun flag _ => ?_
    simp only [Bool.and_eq_left_iff_imp, decide_eq_true_eq]
    omega
  rw [flagWord, shown, hfilter, flagWord]

theorem filter_insert (flags : List Nat) (p : Nat → Bool) (flag : Nat) :
    (flags.insert flag).filter p =
      if p flag then (flags.filter p).insert flag else flags.filter p := by
  by_cases hmem : flag ∈ flags
  · rw [List.insert_of_mem hmem]
    split
    · rename_i hp
      rw [List.insert_of_mem (List.mem_filter.mpr ⟨hmem, hp⟩)]
    · rfl
  · rw [List.insert_of_not_mem hmem, List.filter_cons]
    split
    · rw [List.insert_of_not_mem fun h => hmem (List.mem_filter.mp h).1]
    · rfl

theorem shown_apply_of_isBeyond {alteration : Change} (h : alteration.isBeyond count = true)
    (object : Object) : (alteration.apply object).shown count = object.shown count := by
  cases alteration with
  | setFlag flag =>
    have hge : ¬flag.number < 16 * count := Nat.not_lt.mpr (of_decide_eq_true h)
    simp only [Change.apply, setFlag, shown, filter_insert, decide_eq_true_eq, if_neg hge]
  | clearFlag flag =>
    have hge : ¬flag.number < 16 * count := Nat.not_lt.mpr (of_decide_eq_true h)
    have hnone : flag.number ∉ object.flags.filter (· < 16 * count) := by simp [hge]
    simp only [Change.apply, clearFlag, shown, ← List.erase_filter, List.erase_of_not_mem hnone]
  | _ => cases h

theorem apply_shown {alteration : Change} (h : alteration.isBeyond count = false) (object : Object) :
    alteration.apply (object.shown count) = (alteration.apply object).shown count := by
  cases alteration with
  | setFlag flag =>
    have hlt : flag.number < 16 * count := Nat.not_le.mp (of_decide_eq_false h)
    simp only [Change.apply, setFlag, shown, filter_insert, decide_eq_true_eq, if_pos hlt]
  | clearFlag flag => simp only [Change.apply, clearFlag, shown, List.erase_filter]
  | _ => rfl

/-- The object with a property more. -/
def Gift.give (property : PropertyId) (gift : Gift) (object : Object) : Object :=
  { object with properties := object.properties.push (property.number, gift.value object property) }

theorem Gift.shown_give (gift : Gift) (property : PropertyId) (count : Nat) (object : Object) :
    (gift.give property object).shown count = gift.give property (object.shown count) := by
  cases gift <;> rfl

end Object

namespace Story

variable {story story' : Story} {count : Nat}

/-- The call changes a flag that has no bit in so many words. -/
def Call.isBeyond (count : Nat) : Call → Bool
  | .change _ alteration => alteration.isBeyond count
  | _ => false

/-- The story with the flags that have a bit in so many words. -/
def shown (count : Nat) (story : Story) : Story :=
  { story with objects := story.objects.map (·.shown count) }

theorem getElem?_objects_shown (story : Story) (count index : Nat) :
    (story.shown count).objects[index]? = (story.objects[index]?).map (·.shown count) :=
  Array.getElem?_map

theorem Call.refusal_shown (call : Call) (story : Story) (count : Nat) :
    call.refusal (story.shown count) = call.refusal story := by
  cases call with
  | define definition =>
    cases definition with
    | object name =>
      simp only [refusal, Definition.rejection, Definition.refusal, shown, Array.size_map]
      rfl
    | _ => rfl
  | give id property gift =>
    simp only [refusal, getElem?_objects_shown]
    cases story.objects[id.index]? <;> rfl
  | _ => rfl

theorem Call.changed_shown {call : Call} (h : call.isBeyond count = false) (story : Story) :
    call.changed (story.shown count) = (call.changed story).shown count := by
  have hwants : (story.shown count).wantsDebug = story.wantsDebug := rfl
  cases call with
  | define definition =>
    cases definition with
    | object name =>
      simp only [changed, Definition.record, shown, Array.map_push]
      rfl
    | _ => rfl
  | change id alteration =>
    have hobjects : (story.objects.modify id.index (alteration.apply ·)).map (·.shown count) =
        (story.objects.map (·.shown count)).modify id.index (alteration.apply ·) :=
      map_modify (fun object => (Object.apply_shown h object).symm) story.objects id.index
    simp only [changed, shown, hobjects]
  | give id property gift =>
    have hobjects := map_modify (gift.shown_give property count) story.objects id.index
    exact congrArg (fun objects => ({ story with objects } : Story)) hobjects.symm
  | sequencePoint id span | registry call =>
    by_cases hdebug : story.wantsDebug = true
    · simp only [changed, hwants, if_pos hdebug]
      rfl
    · simp only [changed, hwants, if_neg hdebug]
  | finishRoutine id =>
    have hroutines : (story.shown count).routines = story.routines := rfl
    simp only [changed, hroutines]
    cases story.routines[id.index]? <;> rfl
  | _ => rfl

theorem Call.left_shown (call : Call) (story : Story) (count : Nat) :
    call.left (story.shown count) = (call.left story).shown count := by
  have hwants : (story.shown count).wantsDebug = story.wantsDebug := rfl
  cases call with
  | sequencePoint id span =>
    by_cases hdebug : story.wantsDebug = true
    · simp only [left, hwants, if_pos hdebug]
      rfl
    · simp only [left, hwants, if_neg hdebug]
  | _ => rfl

theorem Call.next_shown {call : Call} (h : call.isBeyond count = false) (story : Story) :
    call.next (story.shown count) = (call.next story).shown count := by
  have hrefusal := call.refusal_shown story count
  cases hr : call.refusal story with
  | none =>
    rw [next_of_refusal_eq_none hr, next_of_refusal_eq_none (hrefusal.trans hr), changed_shown h]
  | some error =>
    rw [next_of_refusal_eq_some hr, next_of_refusal_eq_some (hrefusal.trans hr), left_shown]

theorem Call.shown_next_of_isBeyond {call : Call} (h : call.isBeyond count = true) (story : Story) :
    (call.next story).shown count = story.shown count := by
  cases call with
  | change id alteration =>
    have hobjects := map_modify_of_eq (Object.shown_apply_of_isBeyond h) story.objects id.index
    simp only [next_of_refusal_eq_none (rfl : (Call.change id alteration).refusal story = none), changed,
      shown, hobjects]
  | _ => cases h

/-- What is shown of the story is the same if changes of flags without a bit are left out. -/
theorem shown_after (calls : List Call) (story : Story) (count : Nat) :
    (story.shown count).after (calls.filter (!·.isBeyond count)) = (story.after calls).shown count := by
  induction calls generalizing story with
  | nil => rfl
  | cons call calls ih =>
    show _ = ((call.next story).after calls).shown count
    cases h : call.isBeyond count with
    | true =>
      rw [List.filter_cons_of_neg (by simp [h]), ← Call.shown_next_of_isBeyond h story]
      exact ih (call.next story)
    | false =>
      rw [List.filter_cons_of_pos (by simp [h]), ← ih, ← Call.next_shown h story]
      rfl

theorem closed_shown (story : Story) (count : Nat) :
    (story.shown count).closed = story.closed.shown count := by
  have hclosings : story.closings.filter (!·.isBeyond count) = story.closings := by
    refine List.filter_eq_self.mpr fun call hmem => ?_
    obtain ⟨index, -, rfl⟩ := List.mem_map.mp hmem
    rfl
  rw [closed, closed, ← shown_after, hclosings]
  rfl

theorem linkName_shown (story : Story) (count : Nat) (link : Option ObjectId) :
    (story.shown count).linkName link = story.linkName link := by
  cases link with
  | none => rfl
  | some id =>
    simp only [linkName, Option.bind_some, getElem?_objects_shown, Option.map_map]
    rfl

theorem objectStatements_shown (story : Story) :
    (story.shown story.version.flagWords).objectStatements = story.objectStatements := by
  have hrecord : ∀ object : Object, (object.shown story.version.flagWords).record
      story.version.flagWords (story.shown story.version.flagWords).linkName =
        object.record story.version.flagWords story.linkName := by
    intro object
    simp only [Object.record, Object.flagWords_shown, linkName_shown]
    rfl
  have hrecords : (story.shown story.version.flagWords).objects.toList.map
      (·.record story.version.flagWords (story.shown story.version.flagWords).linkName) =
        story.objects.toList.map (·.record story.version.flagWords story.linkName) := by
    rw [shown, Array.toList_map, List.map_map]
    exact List.map_congr_left fun object _ => hrecord object
  rw [objectStatements, objectStatements]
  exact congrArg₂ _ rfl hrecords

theorem propertyTables_shown (story : Story) (count : Nat) :
    (story.shown count).propertyTables = story.propertyTables := by
  rw [propertyTables, propertyTables, shown, Array.toList_map, List.mapM_map]
  rfl

theorem dataStatements_shown (story : Story) :
    (story.shown story.version.flagWords).dataStatements = story.dataStatements := by
  rw [dataStatements, dataStatements, propertyTables_shown, objectStatements_shown]
  rfl

/-- What is written does not show flags without a bit. -/
theorem sameOutput_shown (story : Story) : SameOutput (story.shown story.version.flagWords) story := by
  intro σ sink start
  obtain ⟨log, hrun⟩ :=
    run_finish (run_finishRoutines (story.shown story.version.flagWords)) sink start
  obtain ⟨log', hrun'⟩ := run_finish (run_finishRoutines story) sink start
  have hversion : story.closed.version = story.version := version_after _ story
  have hdata : dataStatements { story.closed.shown story.version.flagWords with log } =
      dataStatements { story.closed with log := log' } := by
    rw [← hversion]
    exact dataStatements_shown { story.closed with log := log' }
  have hall : writeAll sink { story.closed.shown story.version.flagWords with log } =
      writeAll sink { story.closed with log := log' } := by
    rw [writeAll, writeAll, hdata]
    rfl
  rw [hrun, hrun', closed_shown, hall]
  exact alongside_writeAll_self sink _ _ _ _ _ rfl

/-- Changes of flags without a bit do not show in anything that is written. -/
theorem sameOutput_filter_isBeyond (calls : List Call) (story : Story) :
    SameOutput (story.after calls)
      (story.after (calls.filter (!·.isBeyond story.version.flagWords))) := by
  intro σ sink start
  have hall := sameOutput_shown (story.after calls) sink start
  have hkept := sameOutput_shown
    (story.after (calls.filter (!·.isBeyond story.version.flagWords))) sink start
  have hfilter : (calls.filter (!·.isBeyond story.version.flagWords)).filter
      (!·.isBeyond story.version.flagWords) = calls.filter (!·.isBeyond story.version.flagWords) := by
    rw [List.filter_filter]
    simp only [Bool.and_self]
  rw [version_after, ← shown_after] at hall hkept
  rw [hfilter] at hkept
  exact ⟨hall.1.symm.trans hkept.1, hall.2.symm.trans hkept.2⟩

/-! ## Records -/

/-- The data segment has a record of the object. Records stand behind the label of the objects and the
defaults of the properties, in the order of their numbers. -/
def RecordWritten (version : Version) (data : List Statement) (id : ObjectId) (name : String)
    (words : List Nat) : Prop :=
  ∃ before rest parent sibling child table,
    data = before ++ .label "OBJECT" :: rest ∧ .label "OBJECT" ∉ before ∧
    rest[version.maxProperties + id.index]? = some (.object name words parent sibling child table)

theorem recordWritten_of_dataStatements {id : ObjectId} {object : Object} {data : List Statement}
    (hget : story.objects[id.index]? = some object) (hdata : story.dataStatements = .ok data) :
    RecordWritten story.version data id object.name (object.flagWords story.version.flagWords) := by
  obtain ⟨tables, -, hdata⟩ := bind_eq_ok.mp hdata
  obtain rfl := Except.ok.inj hdata
  refine ⟨story.assignments ++ [.blank, .label "GLOBAL"] ++ story.orderedGlobals.map (·.statement) ++
      [.blank], ?_, story.linkName object.parent, story.linkName object.sibling,
    story.linkName object.child, object.tableSymbol, ?_, ?_, ?_⟩
  rotate_left
  · simp only [List.append_assoc, List.cons_append, List.nil_append]
    rfl
  · simp [assignments, Global.statement]
  · have hlt : id.index < (story.objects.toList.map
        (·.record story.version.flagWords story.linkName)).length := by
      simpa using (Array.getElem?_eq_some_iff.mp hget).1
    rw [objectStatements, List.append_assoc, List.getElem?_append_right (by simp), List.length_map,
      List.length_range, Nat.add_sub_cancel_left, List.getElem?_append_left hlt, List.getElem?_map,
      Array.getElem?_toList, hget]
    rfl

theorem exists_recordWritten {id : ObjectId} {object : Object} {base : String} {keeps : Bool}
    {fault : Segment → Stage → Option DiskError} (hget : story.objects[id.index]? = some object)
    (hok : (story.output base keeps fault).1 = .ok ()) :
    ∃ data, (story.output base keeps fault).2.data = some (sourceText data) ∧
      RecordWritten story.version data id object.name (object.flagWords story.version.flagWords) := by
  obtain ⟨data, hdata, -, hwritten⟩ := exists_output_eq_sourceText hok
  obtain ⟨routines, registry, log, hclosed⟩ := story.exists_closed
  rw [hclosed] at hdata
  exact ⟨data, hwritten,
    @recordWritten_of_dataStatements { story with routines, registry, log } id object data hget hdata⟩

/-- An object that was defined has a name and nothing else. -/
theorem getElem?_objects_of_define {name : String} {id : ObjectId}
    (h : (Call.define (.object name)).result story = .ok (.object id)) :
    ((Call.define (.object name)).next story).objects[id.index]? = some { name := Symbol.ofName name } := by
  cases hrefusal : (Call.define (.object name)).refusal story with
  | some error =>
    rw [Call.result_of_refusal_eq_some hrefusal] at h
    cases h
  | none =>
    rw [Call.result_of_refusal_eq_none hrefusal] at h
    cases h
    rw [Call.next_of_refusal_eq_none hrefusal]
    exact Array.getElem?_push_size

theorem number_lt_of_issued {number : Int} {wantsDebug : Bool} {start : Story}
    (hstart : Story.new number wantsDebug = .ok start) {calls : List Call} {flag : FlagId}
    (h : .flag flag ∈ start.answers calls) : flag.number < 16 * start.version.flagWords := by
  have hallotted := (Series.allotted_new hstart .flags).after calls
  have hmem : flag.number ∈ Series.numbers (start.after calls) .flags := by
    rw [← hallotted.handed]
    exact List.mem_filterMap.mpr ⟨.flag flag, h, rfl⟩
  obtain ⟨place, hplace, hnumber⟩ := hallotted.exists_place hmem
  rw [← hnumber]
  exact Nat.lt_of_le_of_lt (Series.number_bounds hplace).2 start.version.maxFlags_lt

/-- What the words in the record of an object say, where `calls` are those on the object and `answers` what
the calls on the story returned. -/
structure FlagsWritten (version : Version) (answers : List Answer) (calls : List Object.Call)
    (words : List Nat) : Prop where
  length_eq : words.length = version.flagWords
  lt : ∀ word ∈ words, word < UInt16.size
  /-- The flags that have a bit are those whose last change was to be set. -/
  decoded : ∀ number, Object.flagIn words number = true ↔
    number < 16 * version.flagWords ∧ Object.SetLast calls number
  /-- All flags that the story issued have a bit. -/
  issued : ∀ flag, .flag flag ∈ answers → flag.number < 16 * version.flagWords
  /-- No flag is lost if they are all from this story. -/
  exact : (∀ call ∈ calls, ∀ flag, call.flag? = some flag → .flag flag ∈ answers) →
    ∀ number, Object.flagIn words number = true ↔ Object.SetLast calls number

/-- **Words of flags encode the flags that are set**: whichever calls are made before and after an object
is defined, the words in its record have the bits of the flags whose last change was to be set. All flags
of the story have a bit. What is written is the same if changes of flags that have none are left out. -/
theorem flagsWritten_after (number : Int) (wantsDebug : Bool) {start : Story}
    (hstart : Story.new number wantsDebug = .ok start) (before : List Call) {name : String} {id : ObjectId}
    (hdefined : (Call.define (.object name)).result (start.after before) = .ok (.object id))
    (calls : List Call) :
    (∀ base keeps fault,
      ((start.after (before ++ .define (.object name) :: calls)).output base keeps fault).1 = .ok () →
      ∃ data words,
        ((start.after (before ++ .define (.object name) :: calls)).output base keeps fault).2.data =
          some (sourceText data) ∧
        RecordWritten start.version data id (Symbol.ofName name) words ∧
        FlagsWritten start.version (start.answers (before ++ .define (.object name) :: calls))
          (calls.filterMap (·.on id)) words) ∧
    SameOutput (start.after (before ++ .define (.object name) :: calls))
      (start.after ((before ++ .define (.object name) :: calls).filter
        (!·.isBeyond start.version.flagWords))) := by
  refine ⟨fun base keeps fault hok => ?_, sameOutput_filter_isBeyond _ start⟩
  have hget : (start.after (before ++ .define (.object name) :: calls)).objects[id.index]? =
      some (Object.after { name := Symbol.ofName name } (calls.filterMap (·.on id))) := by
    rw [after_append]
    exact objects_after calls (getElem?_objects_of_define hdefined)
  obtain ⟨data, hwritten, hrecord⟩ := exists_recordWritten hget hok
  rw [version_after, Object.name_after] at hrecord
  have hdecoded := @Object.flagIn_flagWords_after { name := Symbol.ofName name } rfl
    (calls.filterMap (·.on id)) start.version.flagWords
  have hissued : ∀ flag, .flag flag ∈ start.answers (before ++ .define (.object name) :: calls) →
      flag.number < 16 * start.version.flagWords := fun flag => number_lt_of_issued hstart
  refine ⟨data, _, hwritten, hrecord, ?_, ?_, hdecoded, hissued, ?_⟩
  · simp [Object.flagWords]
  · exact List.forall_mem_map.mpr fun index _ => Object.flagWord_lt _ index
  · intro hown number
    rw [hdecoded, and_iff_right_iff_imp]
    intro hset
    obtain ⟨call, hmem, flag, hflag, rfl⟩ := Object.exists_flag?_of_setLast hset
    exact hissued flag (hown call hmem flag hflag)

/-- Two flags of the story are set, one is cleared and set again, and the other is cleared. -/
def lampFlags : List Call :=
  [.change ⟨0⟩ (.setFlag ⟨0, 31⟩), .change ⟨0⟩ (.setFlag ⟨1, 30⟩), .change ⟨0⟩ (.clearFlag ⟨0, 31⟩),
    .change ⟨0⟩ (.setFlag ⟨0, 31⟩), .change ⟨0⟩ (.clearFlag ⟨1, 30⟩)]

theorem flagsWritten_lampFlags :
    ∃ start story, Story.new 3 false = .ok start ∧
      (Call.define (.object "LAMP")).result
        (start.after [.define (.flag "LIT"), .define (.flag "OPEN")]) = .ok (.object ⟨0⟩) ∧
      story = start.after ([.define (.flag "LIT"), .define (.flag "OPEN")] ++
        .define (.object "LAMP") :: lampFlags) ∧
      (story.output "game" false fun _ _ => none).1 = .ok () ∧
      ∃ data words, (story.output "game" false fun _ _ => none).2.data = some (sourceText data) ∧
        RecordWritten start.version data ⟨0⟩ (Symbol.ofName "LAMP") words ∧
        ∀ number, Object.flagIn words number = true ↔ number = 31 := by
  obtain ⟨start, hstart, hdefined, hempty, hanswers⟩ : ∃ start, Story.new 3 false = .ok start ∧
      (Call.define (.object "LAMP")).result
        (start.after [.define (.flag "LIT"), .define (.flag "OPEN")]) = .ok (.object ⟨0⟩) ∧
      (start.after ([.define (.flag "LIT"), .define (.flag "OPEN")] ++
        .define (.object "LAMP") :: lampFlags)).objects.toList.all (·.properties.isEmpty) = true ∧
      (start.answers ([.define (.flag "LIT"), .define (.flag "OPEN")] ++
        .define (.object "LAMP") :: lampFlags)).take 2 = [.flag ⟨0, 31⟩, .flag ⟨1, 30⟩] :=
    ⟨_, rfl, rfl, rfl, rfl⟩
  have hok := output_eq_ok (tablesFit_of_isEmpty hempty) "game" false
  obtain ⟨data, words, hwritten, hrecord, hflags⟩ :=
    (flagsWritten_after 3 false hstart _ hdefined lampFlags).1 "game" false _ hok
  refine ⟨start, _, hstart, hdefined, rfl, hok, data, words, hwritten, hrecord, fun number => ?_⟩
  have hissued : ∀ flag, flag = ⟨0, 31⟩ ∨ flag = ⟨1, 30⟩ → .flag flag ∈ start.answers
      ([.define (.flag "LIT"), .define (.flag "OPEN")] ++ .define (.object "LAMP") :: lampFlags) := by
    intro flag hflag
    apply List.mem_of_mem_take (i := 2)
    rw [hanswers]
    rcases hflag with rfl | rfl <;> simp
  rw [hflags.exact ?_ number]
  · by_cases hlit : 31 = number
    · subst hlit
      exact iff_of_true rfl rfl
    · by_cases hopen : 30 = number <;>
        simp [Object.SetLast, lampFlags, Call.on, Object.Call.effect?, hlit, hopen, Ne.symm hlit]
  · intro call hmem flag hflag
    apply hissued
    simp only [lampFlags, Call.on, List.filterMap_cons, ↓reduceIte, List.filterMap_nil, List.mem_cons,
      List.not_mem_nil, or_false] at hmem
    rcases hmem with rfl | rfl | rfl | rfl | rfl <;> simp_all [Object.Call.flag?]

end Story

end StoryAsm
