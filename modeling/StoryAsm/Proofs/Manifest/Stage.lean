import StoryAsm.Manifest.Build
import StoryAsm.Proofs.Story.Define
import StoryAsm.Proofs.Story.Routine

/-!
# Stages of a build

While a manifest is built, what decides whether the next operation succeeds is small: how many things of
each kind there are, which properties each object has, and which symbols are taken (`Stage`). For every
operation of a build we say when it succeeds at a stage, and which stage comes then.
-/

namespace StoryAsm

/-- The numbers of the properties that the object has. -/
def Object.numbers (object : Object) : List Nat :=
  object.properties.toList.map (·.1)

namespace Manifest

/-- How many things a story has, and which properties its objects have. -/
structure Shape where
  flags : Nat := 0
  properties : Nat := 0
  globals : Nat := 0
  words : Nat := 0
  objects : List (List Nat) := []

/-- The story has the shape and exactly the given symbols, and no entry point. -/
structure Stage (version : Version) (shape : Shape) (names : List String) (s : Story) : Prop where
  version : s.version = version
  flags : s.flags.size = shape.flags
  properties : s.properties.size = shape.properties
  globals : s.globals.size = shape.globals
  words : s.words.size = shape.words
  objects : s.objects.toList.map (·.numbers) = shape.objects
  symbols : ∀ x, s.symbols.contains x = true ↔ x ∈ names
  entryPoint : s.entryPoint = none

/-- A name in a value is one of the given symbols. -/
def Value.Known (names : List String) : Value → Prop
  | .number _ => True
  | .symbol name => Symbol.ofName name ∈ names

theorem yields_emit {α : Type} {operation : StoryM α} {s s' : Story} {a : α} :
    Yields (emit operation) s a s' ↔ Yields operation s a s' := by
  have hrun : (emit operation).run.run s =
      match operation.run.run s with
      | (.ok value, s') => (.ok value, s')
      | (.error error, s') => (.error (.emit error), s') := by
    show (operation.run >>= _).run s = _
    rw [StateT.run_bind]
    rcases operation.run.run s with ⟨_ | _, _⟩ <;> rfl
  unfold Yields
  rw [hrun]
  rcases operation.run.run s with ⟨error | value, m⟩
  · constructor <;> intro h <;> cases h
  · constructor <;> intro h <;> cases h <;> rfl

theorem decides_emit {α : Type} {operation : StoryM α} {s : Story} {C : Prop} {post : α → Story → Prop}
    (h : Decides operation s C post) : Decides (emit operation) s C post := by
  simpa only [Decides, yields_emit] using h

namespace Stage

variable {version : Version} {shape : Shape} {names : List String} {s : Story}

theorem new (version : Version) (wantsDebug : Bool) :
    Stage version {} [] { version, wantsDebug, log := #[.newStory version] } where
  version := rfl
  flags := rfl
  properties := rfl
  globals := rfl
  words := rfl
  objects := rfl
  symbols x := by simp [SymbolTable.contains]
  entryPoint := rfl

theorem size_objects (h : Stage version shape names s) : s.objects.size = shape.objects.length := by
  rw [← h.objects, List.length_map, Array.length_toList]

/-! ## Definitions -/

/-- A definition succeeds if there is room for it and its symbol is new. -/
theorem decides_define {ι : Type} {define : StoryM ι} {definition : Definition} {handle : ι}
    (h : Stage version shape names s) (hrun : define.run.run s = definition.outcome s handle) :
    Decides define s (definition.Fits s ∧ definition.symbol s ∉ names) fun id s' =>
      id = handle ∧ s' = definition.record s := by
  constructor
  · rintro ⟨hfits, hfresh⟩
    have hfree : ¬s.symbols.contains (definition.symbol s) = true := mt (h.symbols _).mp hfresh
    exact ⟨handle, _, hrun.trans (Definition.outcome_of_fits hfits hfree), rfl, rfl⟩
  · rintro ⟨id, s', hy⟩
    obtain ⟨hfits, hfree⟩ := Definition.outcome_eq_ok (hrun.symm.trans hy)
    exact ⟨hfits, mt (h.symbols _).mpr hfree⟩

theorem symbols_record (h : Stage version shape names s) (definition : Definition) (x : String) :
    (definition.record s).symbols.contains x = true ↔ x ∈ names ++ [definition.symbol s] := by
  rw [Definition.contains_record, h.symbols, List.mem_append, List.mem_singleton]
  exact ⟨fun h => h.symm.imp_right Eq.symm, fun h => h.symm.imp_left Eq.symm⟩

theorem defineFlag (h : Stage version shape names s) (name : String) :
    Decides (emit (Story.defineFlag name)) s
      (shape.flags < version.maxFlags + 1 ∧ Symbol.ofName name ∉ names) fun id s' =>
      id = ⟨shape.flags, version.maxFlags - shape.flags⟩ ∧
        Stage version { shape with flags := shape.flags + 1 } (names ++ [Symbol.ofName name]) s' := by
  refine (decides_emit (h.decides_define (Story.run_defineFlag s name))).mono ?_ ?_
  · simp only [Definition.Fits, h.flags, h.version, Definition.symbol]
  · rintro - id s' ⟨rfl, rfl⟩
    refine ⟨by rw [h.flags, h.version],
      { h with flags := ?_, symbols := h.symbols_record (.flag name) }⟩
    simp [Definition.record, h.flags]

theorem defineProperty (h : Stage version shape names s) (name : String) :
    Decides (emit (Story.defineProperty name)) s
      (shape.properties < version.maxProperties ∧ Property.symbolOf (Symbol.ofName name) ∉ names)
      fun id s' =>
      id = ⟨shape.properties, version.maxProperties - shape.properties⟩ ∧
        Stage version { shape with properties := shape.properties + 1 }
          (names ++ [Property.symbolOf (Symbol.ofName name)]) s' := by
  refine (decides_emit (h.decides_define (Story.run_defineProperty s name))).mono ?_ ?_
  · simp only [Definition.Fits, h.properties, h.version, Definition.symbol]
  · rintro - id s' ⟨rfl, rfl⟩
    refine ⟨by rw [h.properties, h.version],
      { h with properties := ?_, symbols := h.symbols_record (.property name) }⟩
    simp [Definition.record, h.properties]

theorem defineObject (h : Stage version shape names s) (name : String) :
    Decides (emit (Story.defineObject name)) s
      (shape.objects.length < version.maxObjects ∧ Symbol.ofName name ∉ names) fun id s' =>
      id = ⟨shape.objects.length⟩ ∧
        Stage version { shape with objects := shape.objects ++ [[]] } (names ++ [Symbol.ofName name])
          s' := by
  refine (decides_emit (h.decides_define (Story.run_defineObject s name))).mono ?_ ?_
  · simp only [Definition.Fits, h.size_objects, h.version, Definition.symbol]
  · rintro - id s' ⟨rfl, rfl⟩
    refine ⟨by rw [h.size_objects],
      { h with objects := ?_, symbols := h.symbols_record (.object name) }⟩
    simp [Definition.record, ← h.objects, Object.numbers]

theorem defineGlobal (h : Stage version shape names s) (name : String) :
    Decides (emit (Story.defineGlobal name)) s
      (shape.globals < Story.maxGlobals ∧ Symbol.ofName name ∉ names) fun id s' =>
      id = ⟨shape.globals⟩ ∧
        Stage version { shape with globals := shape.globals + 1 } (names ++ [Symbol.ofName name])
          s' := by
  refine (decides_emit (h.decides_define (Story.run_defineGlobal s name))).mono ?_ ?_
  · simp only [Definition.Fits, h.globals, Definition.symbol]
  · rintro - id s' ⟨rfl, rfl⟩
    refine ⟨by rw [h.globals], { h with globals := ?_, symbols := h.symbols_record (.global name) }⟩
    simp [Definition.record, h.globals]

theorem defineWord (h : Stage version shape names s) (text : String) :
    Decides (emit (Story.defineWord text)) s (Story.wordSymbol text ∉ names) fun id s' =>
      id = ⟨shape.words⟩ ∧
        Stage version { shape with words := shape.words + 1 } (names ++ [Story.wordSymbol text])
          s' := by
  refine (decides_emit (h.decides_define (Story.run_defineWord s text))).mono ?_ ?_
  · simp only [Definition.Fits, Definition.symbol, true_and]
  · rintro - id s' ⟨rfl, rfl⟩
    refine ⟨by rw [h.words], { h with words := ?_, symbols := h.symbols_record (.word text) }⟩
    simp [Definition.record, h.words]

theorem defineConstant (h : Stage version shape names s) (name : String) (value : Operand) :
    Decides (emit (Story.defineConstant name value)) s (Symbol.ofName name ∉ names) fun _ s' =>
      Stage version shape (names ++ [Symbol.ofName name]) s' := by
  refine (decides_emit (h.decides_define (Story.run_defineConstant s name value))).mono ?_ ?_
  · simp only [Definition.Fits, Definition.symbol, true_and]
  · rintro - id s' ⟨-, rfl⟩
    exact { h with symbols := h.symbols_record (.constant name value) }

/-! ## Values -/

theorem report (h : Stage version shape names s) (event : Log.Event) :
    Decides (emit (Story.report event)) s True fun _ s' => Stage version shape names s' :=
  decides_emit (.modify { h with })

theorem resolve (h : Stage version shape names s) (value : Value) :
    Decides (resolve value) s (value.Known names) fun _ s' => Stage version shape names s' := by
  cases value with
  | number value =>
    have hnumber : Decides (emit (Story.makeNumber value)) s True fun _ s' =>
        Stage version shape names s' := decides_emit (.modifyGet { h with })
    exact hnumber.bind_pure fun _ _ h' => h'
  | symbol name =>
    by_cases hc : s.symbols.contains (Symbol.ofName name) = true
    · refine ⟨fun _ => ⟨.symbol (Symbol.ofName name), s, ?_, h⟩, fun _ => (h.symbols _).mp hc⟩
      show (ite (s.symbols.contains (Symbol.ofName name) = true) _ _ : BuildM Operand).run.run s = _
      rw [if_pos hc]
      rfl
    · refine ⟨fun hk => absurd ((h.symbols _).mpr hk) hc, fun ⟨operand, s', hy⟩ => ?_⟩
      change (ite (s.symbols.contains (Symbol.ofName name) = true) _ _ : BuildM Operand).run.run s = _
        at hy
      rw [if_neg hc] at hy
      cases hy

theorem slotValue (h : Stage version shape names s) (slot : Slot) :
    Decides (slotValue slot) s (∀ value ∈ slot.value, value.Known names) fun _ s' =>
      Stage version shape names s' := by
  unfold Manifest.slotValue
  cases slot.value with
  | none =>
    have hnone : Decides (pure none : BuildM (Option Operand)) s True fun _ s' =>
        Stage version shape names s' := .pure h
    exact hnone.mono (by simp) fun _ _ _ h' => h'
  | some value =>
    have hsome : Decides (some <$> Manifest.resolve value) s (value.Known names) fun _ s' =>
        Stage version shape names s' := (h.resolve value).bind_pure fun _ _ h' => h'
    exact hsome.mono (by simp) fun _ _ _ h' => h'

theorem modifyProperty (h : Stage version shape names s) (id : PropertyId)
    (change : Property → Property) :
    Decides (Story.modifyProperty id change) s True fun _ s' => Stage version shape names s' := by
  refine .modify { h with properties := ?_ }
  rw [Array.size_modify]
  exact h.properties

theorem modifyGlobal (h : Stage version shape names s) (id : GlobalId) (change : Global → Global) :
    Decides (Story.modifyGlobal id change) s True fun _ s' => Stage version shape names s' := by
  refine .modify { h with globals := ?_ }
  rw [Array.size_modify]
  exact h.globals

/-! ## Objects -/

theorem modifyObject (h : Stage version shape names s) (id : ObjectId) {change : Object → Object}
    (hchange : ∀ object, (change object).numbers = object.numbers) :
    Decides (Story.modifyObject id change) s True fun _ s' => Stage version shape names s' := by
  refine .modify { h with objects := ?_ }
  rw [← h.objects]
  apply List.ext_getElem?
  intro i
  simp only [Array.toList_modify, List.getElem?_map, List.getElem?_modify]
  split <;> simp [hchange, Function.comp_def]

/-- An object takes a property that it does not have. -/
theorem addWordProperty (h : Stage version shape names s) {i : Nat} {numbers : List Nat}
    (hi : shape.objects[i]? = some numbers) (property : PropertyId) (value : Operand) :
    Decides (Story.addWordProperty ⟨i⟩ property value) s (property.number ∉ numbers)
      fun _ s' =>
      Stage version { shape with objects := shape.objects.set i (numbers ++ [property.number]) } names
        s' := by
  obtain ⟨object, hobject, rfl⟩ : ∃ object, s.objects[i]? = some object ∧ object.numbers = numbers := by
    simpa [← h.objects] using hi
  have htaken : object.properties.any (·.1 == property.number) = true ↔
      property.number ∈ object.numbers := by
    rw [Object.numbers, List.mem_map, ← Array.any_toList, List.any_eq_true]
    simp only [beq_iff_eq]
  by_cases hc : property.number ∈ object.numbers
  · have hrefused : object.addProperty property (.word value) =
        .error (.propertyTaken object.name property.number) := if_pos (htaken.mpr hc)
    have hrun : (Story.addWordProperty ⟨i⟩ property value).run.run s =
        (.error (.propertyTaken object.name property.number), s) := by
      rw [Story.addWordProperty, Story.addProperty, run_run_get_bind]
      simp only [hobject, hrefused]
      rfl
    refine ⟨fun hn => absurd hc hn, ?_⟩
    rintro ⟨_, s', hy⟩
    cases hrun.symm.trans hy
  · have hadded : object.addProperty property (.word value) =
        .ok { object with properties := object.properties.push (property.number, .word value) } :=
      if_neg (mt htaken.mp hc)
    have hrun : (Story.addWordProperty ⟨i⟩ property value).run.run s =
        (.ok ⟨⟩, { s with objects := s.objects.modify i fun _ =>
          { object with properties := object.properties.push (property.number, .word value) } }) := by
      rw [Story.addWordProperty, Story.addProperty, run_run_get_bind]
      simp only [hobject, hadded]
      rfl
    refine ⟨fun _ => ⟨⟨⟩, _, hrun, { h with objects := ?_ }⟩, fun _ => hc⟩
    rw [← h.objects]
    apply List.ext_getElem?
    intro j
    simp only [Array.toList_modify, List.getElem?_map, List.getElem?_modify, List.getElem?_set,
      List.length_map]
    split
    next hij =>
      have hlt : i < s.objects.size := (Array.getElem?_eq_some_iff.mp hobject).1
      subst hij
      simp [hlt, Object.numbers]
    next => simp

theorem insertInto (h : Stage version shape names s) (child parent : ObjectId) :
    Decides (Story.insertInto child parent) s True fun _ s' => Stage version shape names s' := by
  refine .get_bind (Decides.mono (.bind (h.modifyObject child ?_) fun _ _ _ h' =>
    h'.modifyObject parent ?_) (and_self_iff) fun _ _ _ h' => h')
  · exact fun _ => rfl
  · exact fun _ => rfl

/-! ## The greeting -/

theorem greet (h : Stage version shape names s) (greeting : String) (debug : Bool) (source : String) :
    Decides (greet greeting debug source) s ("GO" ∉ names) fun _ _ => True := by
  have hgo : Symbol.ofName "GO" = "GO" := by decide
  have hdefine : Decides (Story.defineRoutine "GO" true false) s ("GO" ∉ names) fun id s' =>
      id = ⟨s.routines.size⟩ ∧ s'.IsOpen s.routines.size := by
    refine (h.decides_define (Story.run_defineRoutine s "GO" true false)).mono ?_ ?_
    · simp [Definition.Fits, Definition.symbol, h.entryPoint, hgo]
    · rintro - id s' ⟨rfl, rfl⟩
      exact ⟨rfl, _, Array.getElem?_push_size, rfl⟩
  have htext : ∀ s', s'.IsOpen s.routines.size →
      Decides (do
        Story.onRoutine ⟨s.routines.size⟩ do
          Routine.emit (.printText greeting)
          Routine.emit .newLine
          Routine.emit (.nullary .quit none)
        Story.finishRoutine ⟨s.routines.size⟩) s' True fun _ _ => True := by
    intro s' hs'
    refine (Story.decides_onRoutine hs' fun routine hopen => ?_).andThen fun _ _ h' =>
      Story.decides_finishRoutine h'
    refine (Routine.decides_emit hopen rfl).andThen fun _ _ hopen => ?_
    refine (Routine.decides_emit hopen rfl).andThen fun _ _ hopen => ?_
    exact Routine.decides_emit hopen rfl
  rw [← and_true ("GO" ∉ names)]
  refine hdefine.bind ?_
  rintro - _ s' ⟨rfl, hs'⟩
  cases debug with
  | false => exact htext s' hs'
  | true =>
    refine (Story.decides_onRoutine hs' fun _ hopen =>
      Routine.decides_setSpan hopen _).andThen fun _ _ h' => ?_
    refine (Story.decides_markSequencePoint h' _).andThen fun _ _ h' => ?_
    exact (Story.decides_onRegistry h').andThen fun _ _ h' => htext _ h'

end Stage

/-! ## Passes of definitions -/

/-- Definitions of one kind, one after the other. `I` counts them, there is room for another if `R`
holds of their number, and `H` gives the handles. -/
theorem decides_defineEach {ι : Type} {define : String → StoryM ι} {symbolOf : String → String}
    {I : Nat → List String → Story → Prop} {R : Nat → Prop} {H : Nat → ι}
    (hstep : ∀ count names s name, I count names s →
      Decides (emit (define name)) s (R count ∧ symbolOf name ∉ names) fun id s' =>
        id = H count ∧ I (count + 1) (names ++ [symbolOf name]) s')
    (all : List String) {count : Nat} {names : List String} {s : Story} (hs : I count names s)
    (hnames : names.Nodup) :
    Decides (defineEach define all) s
      ((∀ i < all.length, R (count + i)) ∧ (names ++ all.map symbolOf).Nodup) fun ids s' =>
      ids = (List.range' count all.length).map H ∧
        I (count + all.length) (names ++ all.map symbolOf) s' := by
  induction all generalizing count names s with
  | nil =>
    have hend : Decides (pure [] : BuildM (List ι)) s True fun ids s' =>
        ids = [] ∧ I count names s' := .pure ⟨rfl, hs⟩
    exact hend.mono (by simpa using hnames) fun _ _ _ h => by simpa using h
  | cons name all ih =>
    have hcond : ((R count ∧ symbolOf name ∉ names) ∧ (∀ i < all.length, R (count + 1 + i)) ∧
        (names ++ [symbolOf name] ++ all.map symbolOf).Nodup) ↔
        (∀ i < (name :: all).length, R (count + i)) ∧
          (names ++ (name :: all).map symbolOf).Nodup := by
      have hfresh : (names ++ symbolOf name :: all.map symbolOf).Nodup → symbolOf name ∉ names :=
        fun h hmem => (List.nodup_append.mp h).2.2 _ hmem _ List.mem_cons_self rfl
      simp only [List.length_cons, Nat.forall_lt_succ_left, List.map_cons, List.append_assoc,
        List.singleton_append, Nat.add_zero, Nat.add_assoc, Nat.add_comm 1]
      exact ⟨fun ⟨⟨hroom, _⟩, hrooms, h⟩ => ⟨⟨hroom, hrooms⟩, h⟩,
        fun ⟨⟨hroom, hrooms⟩, h⟩ => ⟨⟨hroom, hfresh h⟩, hrooms, h⟩⟩
    rw [defineEach, List.mapM_cons]
    refine ((hstep count names s name hs).bind ?_).mono hcond fun _ _ _ h => h
    rintro ⟨-, hfresh⟩ _ s' ⟨rfl, hs'⟩
    refine (ih hs' (nodup_append_singleton hnames hfresh)).bind_pure ?_
    rintro _ s' ⟨rfl, hs'⟩
    refine ⟨?_, ?_⟩
    · rw [List.length_cons, List.range'_succ, List.map_cons]
    · simpa [Nat.add_assoc, Nat.add_comm 1] using hs'

/-- All definitions of a kind that has a limit. -/
theorem decides_defineAll {ι : Type} {define : String → StoryM ι} {symbolOf : String → String}
    {I : Nat → List String → Story → Prop} {limit : Nat} {H : Nat → ι}
    (hstep : ∀ count names s name, I count names s →
      Decides (emit (define name)) s (count < limit ∧ symbolOf name ∉ names) fun id s' =>
        id = H count ∧ I (count + 1) (names ++ [symbolOf name]) s')
    (all : List String) {names : List String} {s : Story} (hs : I 0 names s) (hnames : names.Nodup) :
    Decides (defineEach define all) s (all.length ≤ limit ∧ (names ++ all.map symbolOf).Nodup)
      fun ids s' => ids = (List.range all.length).map H ∧
        I all.length (names ++ all.map symbolOf) s' := by
  refine (decides_defineEach hstep all hs hnames).mono (and_congr_left fun _ => ?_) ?_
  · constructor
    · intro h
      cases hlen : all.length with
      | zero => exact Nat.zero_le limit
      | succ n =>
        have hroom := h n (by omega)
        omega
    · intro h i hi
      omega
  · rintro - ids s' ⟨rfl, hs'⟩
    exact ⟨by rw [List.range_eq_range'], by rwa [Nat.zero_add] at hs'⟩

namespace Stage

variable {version : Version} {shape : Shape} {names : List String} {s : Story}

theorem defineFlags (h : Stage version shape names s) (hzero : shape.flags = 0) (hnames : names.Nodup)
    (all : List String) :
    Decides (defineEach Story.defineFlag all) s
      (all.length ≤ version.maxFlags + 1 ∧ (names ++ all.map Symbol.ofName).Nodup) fun ids s' =>
      ids = (List.range all.length).map (fun i => ⟨i, version.maxFlags - i⟩) ∧
        Stage version { shape with flags := all.length } (names ++ all.map Symbol.ofName) s' := by
  refine decides_defineAll (I := fun count => Stage version { shape with flags := count })
    (fun _ _ _ name hs => hs.defineFlag name) all ?_ hnames
  rwa [← hzero]

theorem defineProperties (h : Stage version shape names s) (hzero : shape.properties = 0)
    (hnames : names.Nodup) (all : List String) :
    Decides (defineEach Story.defineProperty all) s
      (all.length ≤ version.maxProperties ∧
        (names ++ all.map fun name => Property.symbolOf (Symbol.ofName name)).Nodup) fun ids s' =>
      ids = (List.range all.length).map (fun i => ⟨i, version.maxProperties - i⟩) ∧
        Stage version { shape with properties := all.length }
          (names ++ all.map fun name => Property.symbolOf (Symbol.ofName name)) s' := by
  refine decides_defineAll (I := fun count => Stage version { shape with properties := count })
    (fun _ _ _ name hs => hs.defineProperty name) all ?_ hnames
  rwa [← hzero]

theorem defineObjects (h : Stage version shape names s) (hzero : shape.objects = [])
    (hnames : names.Nodup) (all : List String) :
    Decides (defineEach Story.defineObject all) s
      (all.length ≤ version.maxObjects ∧ (names ++ all.map Symbol.ofName).Nodup) fun ids s' =>
      ids = (List.range all.length).map ObjectId.mk ∧
        Stage version { shape with objects := List.replicate all.length [] }
          (names ++ all.map Symbol.ofName) s' := by
  refine decides_defineAll
    (I := fun count => Stage version { shape with objects := List.replicate count [] })
    (fun count names s name hs => ?_) all ?_ hnames
  · simpa [List.replicate_succ'] using hs.defineObject name
  · rwa [List.replicate_zero, ← hzero]

theorem defineGlobals (h : Stage version shape names s) (hzero : shape.globals = 0)
    (hnames : names.Nodup) (all : List String) :
    Decides (defineEach Story.defineGlobal all) s
      (all.length ≤ Story.maxGlobals ∧ (names ++ all.map Symbol.ofName).Nodup) fun ids s' =>
      ids = (List.range all.length).map GlobalId.mk ∧
        Stage version { shape with globals := all.length } (names ++ all.map Symbol.ofName) s' := by
  refine decides_defineAll (I := fun count => Stage version { shape with globals := count })
    (fun _ _ _ name hs => hs.defineGlobal name) all ?_ hnames
  rwa [← hzero]

theorem defineWords (h : Stage version shape names s) (hzero : shape.words = 0) (hnames : names.Nodup)
    (all : List String) :
    Decides (defineEach Story.defineWord all) s (names ++ all.map Story.wordSymbol).Nodup fun _ s' =>
      Stage version { shape with words := all.length } (names ++ all.map Story.wordSymbol) s' := by
  have hstart : Stage version { shape with words := 0 } names s := by rwa [← hzero]
  have hall := decides_defineEach
    (I := fun count => Stage version { shape with words := count }) (R := fun _ => True)
    (fun _ _ _ text hs => (hs.defineWord text).mono (and_iff_right trivial).symm fun _ _ _ h => h)
    all hstart hnames
  refine hall.mono (by simp) fun _ _ _ hs' => ?_
  simpa using hs'.2

end Stage

end Manifest

end StoryAsm
