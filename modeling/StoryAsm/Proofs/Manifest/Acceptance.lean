import StoryAsm.Proofs.Manifest.Stage

/-!
# Manifests that are accepted

A manifest is built if and only if it is well-formed: its symbols are distinct, there is room for
everything, and every name that it refers to stands for something. Constants may name constants with
smaller keys; other values may name everything but the entry point.
-/

namespace StoryAsm.Manifest

section Symbols

variable (manifest : Manifest)

def flagSymbols : List String := manifest.flags.map Symbol.ofName

def propertyNames : List String := manifest.properties.map (Symbol.ofName ·.name)

def propertySymbols : List String := manifest.propertyNames.map ("P?" ++ ·)

def objectSymbols : List String := manifest.objects.map (Symbol.ofName ·.name)

def globalSymbols : List String := manifest.globals.map (Symbol.ofName ·.name)

def wordSymbols : List String :=
  manifest.vocabulary.map fun word => "W?" ++ Symbol.ofName (Text.upperCase word)

/-- All symbols but those of constants. -/
def declaredSymbols : List String :=
  manifest.flagSymbols ++ manifest.propertySymbols ++ manifest.objectSymbols ++
    manifest.globalSymbols ++ manifest.wordSymbols

def constantSymbols (constants : List (String × Value)) : List String :=
  constants.map (Symbol.ofName ·.1)

def symbols : List String :=
  manifest.declaredSymbols ++ constantSymbols manifest.constants.toList

end Symbols

/-- All that an object of the manifest names exists, and it names each property once. -/
structure Thing.WellFormed (manifest : Manifest) (thing : Thing) : Prop where
  flags : ∀ name ∈ thing.flags, Symbol.ofName name ∈ manifest.flagSymbols
  properties : ∀ entry ∈ thing.properties.toList, Symbol.ofName entry.1 ∈ manifest.propertyNames
  values : ∀ entry ∈ thing.properties.toList, entry.2.Known manifest.symbols
  distinct : (thing.properties.toList.map (Symbol.ofName ·.1)).Nodup
  parent : ∀ name ∈ thing.parent, Symbol.ofName name ∈ manifest.objectSymbols

theorem Thing.wellFormed_iff {manifest : Manifest} {thing : Thing} :
    thing.WellFormed manifest ↔
      (∀ name ∈ thing.flags, Symbol.ofName name ∈ manifest.flagSymbols) ∧
      ((∀ entry ∈ thing.properties.toList, Symbol.ofName entry.1 ∈ manifest.propertyNames) ∧
        (∀ entry ∈ thing.properties.toList, entry.2.Known manifest.symbols) ∧
        (thing.properties.toList.map (Symbol.ofName ·.1)).Nodup) ∧
      ∀ name ∈ thing.parent, Symbol.ofName name ∈ manifest.objectSymbols := by
  constructor
  · rintro ⟨flags, properties, values, distinct, parent⟩
    exact ⟨flags, ⟨properties, values, distinct⟩, parent⟩
  · rintro ⟨flags, ⟨properties, values, distinct⟩, parent⟩
    exact { flags, properties, values, distinct, parent }

structure WellFormed (manifest : Manifest) (version : Version) : Prop where
  distinct : (manifest.symbols ++ ["GO"]).Nodup
  flags : manifest.flags.length ≤ version.maxFlags + 1
  properties : manifest.properties.length ≤ version.maxProperties
  objects : manifest.objects.length ≤ if version.number < 4 then 255 else 65535
  globals : manifest.globals.length ≤ 240
  constants : ∀ entry ∈ manifest.constants.toList,
    entry.2.Known (manifest.declaredSymbols ++
      constantSymbols (manifest.constants.toList.filter (·.1 < entry.1)))
  propertyDefaults : ∀ slot ∈ manifest.properties, ∀ value ∈ slot.value, value.Known manifest.symbols
  globalDefaults : ∀ slot ∈ manifest.globals, ∀ value ∈ slot.value, value.Known manifest.symbols
  things : ∀ thing ∈ manifest.objects, thing.WellFormed manifest

/-! ## Handles -/

theorem getElem?_foldl_insert {ι : Type} {entries : List (String × ι)} {handles : Handles ι}
    {symbol : String} {id : ι}
    (h : (entries.foldl (fun handles (name, id) => handles.insert (Symbol.ofName name) id)
      handles)[symbol]? = some id) :
    handles[symbol]? = some id ∨ ∃ name, (name, id) ∈ entries ∧ Symbol.ofName name = symbol := by
  induction entries generalizing handles with
  | nil => exact .inl h
  | cons entry entries ih =>
    rcases ih h with h | ⟨name, hmem, rfl⟩
    · rw [Std.TreeMap.getElem?_insert] at h
      split at h
      · next heq =>
        cases h
        exact .inr ⟨entry.1, List.mem_cons_self, Std.LawfulEqOrd.eq_of_compare heq⟩
      · exact .inl h
    · exact .inr ⟨name, List.mem_cons_of_mem _ hmem, rfl⟩

theorem mem_foldl_insert {ι : Type} (entries : List (String × ι)) (handles : Handles ι)
    (symbol : String) :
    symbol ∈ entries.foldl (fun handles (name, id) => handles.insert (Symbol.ofName name) id) handles ↔
      symbol ∈ handles ∨ symbol ∈ entries.map (Symbol.ofName ·.1) := by
  induction entries generalizing handles with
  | nil => simp
  | cons entry entries ih =>
    have hinsert : symbol ∈ handles.insert (Symbol.ofName entry.1) entry.2 ↔
        symbol = Symbol.ofName entry.1 ∨ symbol ∈ handles := by
      rw [Std.TreeMap.mem_insert, Std.LawfulEqCmp.compare_eq_iff_eq, eq_comm]
    rw [List.foldl_cons, ih, hinsert, List.map_cons, List.mem_cons, or_assoc, or_left_comm]

theorem getElem?_handlesOf {ι : Type} {names : List String} {ids : List ι} {symbol : String} {id : ι}
    (h : (handlesOf names ids)[symbol]? = some id) :
    ∃ name, (name, id) ∈ names.zip ids ∧ Symbol.ofName name = symbol := by
  simpa using getElem?_foldl_insert h

theorem mem_handlesOf {ι : Type} {names : List String} {ids : List ι} (hlen : names.length ≤ ids.length)
    (symbol : String) : symbol ∈ handlesOf names ids ↔ symbol ∈ names.map Symbol.ofName := by
  have hzip : (names.zip ids).map (Symbol.ofName ·.1) = names.map Symbol.ofName := by
    rw [← List.map_fst_zip hlen, List.map_map, List.map_fst_zip hlen]
    rfl
  rw [handlesOf, mem_foldl_insert, hzip]
  simp

theorem decides_find {ι : Type} (handles : Handles ι) (role : Role) (name : String) (s : Story) :
    Decides (find handles role name) s (Symbol.ofName name ∈ handles) fun id s' =>
      s' = s ∧ handles[Symbol.ofName name]? = some id := by
  rw [Std.TreeMap.mem_iff_isSome_getElem?]
  unfold find
  rw [Std.TreeMap.get?_eq_getElem?]
  cases h : handles[Symbol.ofName name]? with
  | none => exact Decides.throw.mono (by simp) fun _ _ _ h => h
  | some id =>
    have hfound : Decides (pure id : BuildM ι) s True fun id' s' => s' = s ∧ some id = some id' :=
      .pure ⟨rfl, rfl⟩
    exact hfound.mono (by simp) fun _ _ _ h => h

/-! ## Constants -/

/-- The constants before one are those with smaller keys. -/
theorem filter_lt_of_split {constants : Values} {before after : List (String × Value)}
    {entry : String × Value} (h : constants.toList = before ++ entry :: after) :
    constants.toList.filter (·.1 < entry.1) = before := by
  have hsorted : List.Pairwise (fun a b => a.1 < b.1) constants.toList := by
    refine List.Pairwise.imp ?_ (Std.TreeMap.ordered_keys_toList (t := constants))
    exact fun h => compareOfLessAndEq_eq_lt.mp h
  rw [h] at hsorted ⊢
  obtain ⟨-, hafter, hbefore⟩ := List.pairwise_append.mp hsorted
  have hkept : before.filter (·.1 < entry.1) = before :=
    List.filter_eq_self.mpr fun a ha => decide_eq_true (hbefore a ha entry List.mem_cons_self)
  have hdropped : (entry :: after).filter (·.1 < entry.1) = [] := by
    refine List.filter_eq_nil_iff.mpr fun a ha => ?_
    rcases List.mem_cons.mp ha with rfl | ha
    · simp
    · have hlt : entry.1 < a.1 := (List.pairwise_cons.mp hafter).1 a ha
      simpa using String.lt_asymm hlt
  rw [List.filter_append, hkept, hdropped, List.append_nil]

theorem nodup_append_map_iff {ι : Type} {symbolOf : ι → String} {all : List ι} {names : List String}
    (hnames : names.Nodup) :
    (∀ before x after, all = before ++ x :: after → symbolOf x ∉ names ++ before.map symbolOf) ↔
      (names ++ all.map symbolOf).Nodup := by
  induction all generalizing names with
  | nil => simpa using hnames
  | cons x all ih =>
    rw [List.map_cons, List.append_cons]
    by_cases hx : symbolOf x ∈ names
    · refine ⟨fun h => absurd hx (by simpa using h [] x all rfl), fun h => ?_⟩
      rw [List.append_assoc, List.singleton_append] at h
      exact absurd rfl ((List.nodup_append.mp h).2.2 _ hx _ List.mem_cons_self)
    · rw [← ih (nodup_append_singleton hnames hx)]
      constructor
      · intro h before y after hsplit
        simpa using h (x :: before) y after (by rw [hsplit, List.cons_append])
      · intro h before y after hsplit
        cases before with
        | nil =>
          cases hsplit
          simpa using hx
        | cons z before =>
          cases hsplit
          simpa using h before y after rfl

theorem decides_constants {version : Version} {shape : Shape} {names : List String} {s : Story}
    (constants : Values) (h : Stage version shape names s) (hnames : names.Nodup) :
    Decides (forIn constants.toList PUnit.unit fun (name, value) _ => do
        let operand ← resolve value
        let _ ← emit (Story.defineConstant name operand)
        return .yield PUnit.unit) s
      ((∀ entry ∈ constants.toList,
          entry.2.Known (names ++ constantSymbols (constants.toList.filter (·.1 < entry.1)))) ∧
        (names ++ constantSymbols constants.toList).Nodup)
      fun _ s' => Stage version shape (names ++ constantSymbols constants.toList) s' := by
  refine (Decides.forIn
    (I := fun before s => Stage version shape (names ++ constantSymbols before) s)
    (C := fun before entry => entry.2.Known (names ++ constantSymbols before) ∧
      Symbol.ofName entry.1 ∉ names ++ constantSymbols before) ?_ ?_).mono ?_ fun _ _ _ h => h
  · rintro before ⟨name, value⟩ after - s hs
    refine (hs.resolve value).bind fun _ operand s hs => ?_
    refine (hs.defineConstant name operand).bind_pure fun _ s hs => ⟨rfl, ?_⟩
    simpa [constantSymbols] using hs
  · simpa [constantSymbols] using h
  · rw [constantSymbols, ← nodup_append_map_iff hnames]
    constructor
    · intro hall
      refine ⟨fun entry hentry => ?_, fun before entry after hsplit => (hall _ _ _ hsplit).2⟩
      obtain ⟨before, after, hsplit⟩ := List.append_of_mem hentry
      rw [filter_lt_of_split hsplit]
      exact (hall before entry after hsplit).1
    · rintro ⟨hknown, hfresh⟩ before entry after hsplit
      have := hknown entry (by simp [hsplit])
      rw [filter_lt_of_split hsplit] at this
      exact ⟨this, hfresh before entry after hsplit⟩

/-! ## Default values -/

theorem forall_mem_zip_snd {ι κ : Type} {P : κ → Prop} {xs : List ι} {ys : List κ}
    (hlen : ys.length ≤ xs.length) : (∀ pair ∈ xs.zip ys, P pair.2) ↔ ∀ y ∈ ys, P y := by
  rw [← List.map_snd_zip hlen, List.forall_mem_map, List.map_snd_zip hlen]

variable {version : Version} {shape : Shape} {names : List String} {s : Story}

theorem decides_defaults {ι : Type} {ids : List ι} {slots : List Slot}
    {f : ι → Option Operand → StoryM Unit} (hlen : slots.length ≤ ids.length)
    (hf : ∀ id value s, Stage version shape names s →
      Decides (f id value) s True fun _ s' => Stage version shape names s')
    (h : Stage version shape names s) :
    Decides (forIn (ids.zip slots) PUnit.unit fun (id, slot) _ => do
        let value ← slotValue slot
        emit (f id value)
        return .yield PUnit.unit) s
      (∀ slot ∈ slots, ∀ value ∈ slot.value, value.Known names)
      fun _ s' => Stage version shape names s' := by
  rw [← forall_mem_zip_snd hlen]
  refine Decides.forIn_mem (I := Stage version shape names) ?_ h
  rintro ⟨id, slot⟩ - s hs
  refine ((hs.slotValue slot).bind fun _ value s hs => ?_).mono (and_iff_left trivial)
    fun _ _ _ h => h
  exact (decides_emit (hf id value s hs)).bind_pure fun _ _ hs => ⟨rfl, hs⟩

/-! ## Objects -/

/-- In a loop over things with their handles, the handle is that of the thing whose turn it is. -/
theorem turn_of_zip {ι κ : Type} (place : κ → Nat) {ids : List κ} {xs : List ι}
    {before after : List (κ × ι)} {id : κ} {x : ι} (hplaces : ids.map place = List.range xs.length)
    (h : ids.zip xs = before ++ (id, x) :: after) :
    place id = before.length ∧ xs[before.length]? = some x := by
  have hturn : (ids.zip xs)[before.length]? = some (id, x) := by
    rw [h, List.getElem?_append_right (Nat.le_refl _), Nat.sub_self]
    rfl
  obtain ⟨hid, hx⟩ := List.getElem?_zip_eq_some.mp hturn
  have hlt : before.length < xs.length := (List.getElem?_eq_some_iff.mp hx).1
  have hplace : (ids.map place)[before.length]? = some (place id) := by
    rw [List.getElem?_map, hid, Option.map_some]
  rw [hplaces, List.getElem?_range hlt] at hplace
  exact ⟨(Option.some.inj hplace).symm, hx⟩

theorem map_index_map_mk (indices : List Nat) : (indices.map ObjectId.mk).map ObjectId.index = indices := by
  rw [List.map_map]
  exact List.map_id _

/-- The handles are those of the names in the manifest, and a property is known by its number. -/
structure Defined.Covers (defined : Defined) (manifest : Manifest) : Prop where
  flags : ∀ symbol, symbol ∈ defined.flags ↔ symbol ∈ manifest.flagSymbols
  properties : ∀ symbol, symbol ∈ defined.properties ↔ symbol ∈ manifest.propertyNames
  objects : ∀ symbol, symbol ∈ defined.objects ↔ symbol ∈ manifest.objectSymbols
  numbers : ∀ {symbol symbol' : String} {property property' : PropertyId},
    defined.properties[symbol]? = some property → defined.properties[symbol']? = some property' →
      property.number = property'.number → symbol = symbol'

/-- The numbers are those of the properties that the entries name. -/
def Defined.Numbers (defined : Defined) (entries : List (String × Value)) (numbers : List Nat) : Prop :=
  ∀ number, number ∈ numbers ↔ ∃ entry ∈ entries, ∃ property : PropertyId,
    defined.properties[Symbol.ofName entry.1]? = some property ∧ property.number = number

theorem Defined.Numbers.append {defined : Defined} {entries : List (String × Value)}
    {numbers : List Nat} (h : defined.Numbers entries numbers) {entry : String × Value}
    {property : PropertyId} (hp : defined.properties[Symbol.ofName entry.1]? = some property) :
    defined.Numbers (entries ++ [entry]) (numbers ++ [property.number]) := by
  intro number
  simp only [List.mem_append, List.mem_singleton, or_and_right, exists_or, h number, hp,
    Option.some.injEq, exists_eq_left', eq_comm]

namespace Defined.Covers

variable {defined : Defined} {manifest : Manifest} (hc : defined.Covers manifest)
include hc

theorem decides_flags (id : ObjectId) (flags : List String) (h : Stage version shape names s) :
    Decides (forIn flags PUnit.unit fun name _ => do
        let flag ← find defined.flags .flag name
        emit (Story.modifyObject id (·.setFlag flag))
        return .yield PUnit.unit) s
      (∀ name ∈ flags, Symbol.ofName name ∈ manifest.flagSymbols)
      fun _ s' => Stage version shape names s' := by
  refine Decides.forIn_mem (I := Stage version shape names) ?_ h
  intro name _ s hs
  rw [← hc.flags]
  refine ((decides_find defined.flags .flag name s).bind ?_).mono (and_iff_left trivial)
    fun _ _ _ h => h
  rintro - flag _ ⟨rfl, -⟩
  have hset : Decides (Story.modifyObject id (·.setFlag flag)) _ True fun _ s' =>
      Stage version shape names s' := hs.modifyObject id fun _ => rfl
  exact (decides_emit hset).bind_pure fun _ _ hs => ⟨rfl, hs⟩

theorem decides_properties {i : Nat} (hi : shape.objects[i]? = some [])
    (entries : List (String × Value)) (h : Stage version shape names s) :
    Decides (forIn entries PUnit.unit fun (name, value) _ => do
        let property ← find defined.properties .property name
        let operand ← resolve value
        emit (Story.addWordProperty ⟨i⟩ property operand)
        return .yield PUnit.unit) s
      ((∀ entry ∈ entries, Symbol.ofName entry.1 ∈ manifest.propertyNames) ∧
        (∀ entry ∈ entries, entry.2.Known names) ∧ (entries.map (Symbol.ofName ·.1)).Nodup)
      fun _ s' => ∃ numbers,
        Stage version { shape with objects := shape.objects.set i numbers } names s' := by
  obtain ⟨hlt, hnil⟩ := List.getElem?_eq_some_iff.mp hi
  have hset : shape.objects.set i [] = shape.objects := by
    rw [← hnil, List.set_getElem_self]
  refine (Decides.forIn
    (I := fun before s => ∃ numbers, defined.Numbers before numbers ∧
      Stage version { shape with objects := shape.objects.set i numbers } names s)
    (C := fun before entry => Symbol.ofName entry.1 ∈ manifest.propertyNames ∧ entry.2.Known names ∧
      Symbol.ofName entry.1 ∉ [] ++ before.map (Symbol.ofName ·.1)) ?_ ?_).mono ?_ ?_
  · rintro before ⟨name, value⟩ after - s ⟨numbers, hgiven, hs⟩
    rw [← hc.properties]
    refine (decides_find defined.properties .property name s).bind ?_
    rintro - property _ ⟨rfl, hproperty⟩
    refine (hs.resolve value).bind fun _ operand s hs => ?_
    have hget : (shape.objects.set i numbers)[i]? = some numbers := List.getElem?_set_self hlt
    have hfresh : property.number ∉ numbers ↔
        Symbol.ofName name ∉ [] ++ before.map (Symbol.ofName ·.1) := by
      refine not_congr ?_
      rw [hgiven, List.nil_append, List.mem_map]
      refine exists_congr fun entry => and_congr_right fun _ => ⟨?_, fun heq => ?_⟩
      · rintro ⟨property', hproperty', hnumber⟩
        exact hc.numbers hproperty' hproperty hnumber
      · exact ⟨property, heq ▸ hproperty, rfl⟩
    refine ((decides_emit (hs.addWordProperty hget property operand)).bind_pure ?_).mono hfresh
      fun _ _ _ h => h
    intro _ s hs
    exact ⟨rfl, numbers ++ [property.number], hgiven.append hproperty, by simpa using hs⟩
  · exact ⟨[], by simp [Defined.Numbers], by rwa [hset]⟩
  · rw [← List.nil_append (entries.map _), ← nodup_append_map_iff .nil]
    constructor
    · intro hall
      refine ⟨fun entry hentry => ?_, fun entry hentry => ?_, fun _ _ _ hsplit =>
        (hall _ _ _ hsplit).2.2⟩
      · obtain ⟨before, after, hsplit⟩ := List.append_of_mem hentry
        exact (hall before entry after hsplit).1
      · obtain ⟨before, after, hsplit⟩ := List.append_of_mem hentry
        exact (hall before entry after hsplit).2.1
    · rintro ⟨hnamed, hknown, hfresh⟩ before entry after hsplit
      have hentry : entry ∈ entries := by simp [hsplit]
      exact ⟨hnamed entry hentry, hknown entry hentry, hfresh before entry after hsplit⟩
  · rintro - _ s ⟨numbers, -, hs⟩
    exact ⟨numbers, hs⟩

theorem decides_parent (id : ObjectId) (parent : Option String) (h : Stage version shape names s) :
    Decides (do
        if let some name := parent then
          let parent ← find defined.objects .object name
          emit (Story.insertInto id parent)) s
      (∀ name ∈ parent, Symbol.ofName name ∈ manifest.objectSymbols)
      fun _ s' => Stage version shape names s' := by
  cases parent with
  | none => exact Decides.mono (.pure h) (by simp) fun _ _ _ h => h
  | some name =>
    have hfind : (∀ x ∈ some name, Symbol.ofName x ∈ manifest.objectSymbols) ↔
        Symbol.ofName name ∈ defined.objects ∧ True := by
      simp [hc.objects]
    rw [hfind]
    refine (decides_find defined.objects .object name s).bind ?_
    rintro - parent _ ⟨rfl, -⟩
    exact decides_emit (h.insertInto id parent)

theorem decides_describe {i : Nat} (hi : shape.objects[i]? = some [])
    (h : Stage version shape manifest.symbols s) (thing : Thing) :
    Decides (describe defined ⟨i⟩ thing) s (thing.WellFormed manifest) fun _ s' => ∃ numbers,
      Stage version { shape with objects := shape.objects.set i numbers } manifest.symbols s' := by
  have hdescription : Decides (Story.modifyObject ⟨i⟩ fun object =>
      { object with description := thing.description }) s True fun _ s' =>
      Stage version shape manifest.symbols s' := h.modifyObject ⟨i⟩ fun _ => rfl
  refine (decides_emit hdescription).andThen fun _ s hs => ?_
  rw [Thing.wellFormed_iff]
  refine (hc.decides_flags ⟨i⟩ thing.flags hs).bind fun _ _ s hs => ?_
  refine (hc.decides_properties hi thing.properties.toList hs).bind ?_
  rintro - _ s ⟨numbers, hs⟩
  exact (hc.decides_parent ⟨i⟩ thing.parent hs).mono .rfl fun _ _ _ hs => ⟨numbers, hs⟩

theorem decides_objects (things : List Thing) (h : Stage version shape manifest.symbols s)
    (hshape : shape.objects = List.replicate things.length []) :
    Decides (forIn (((List.range things.length).map ObjectId.mk).zip things) PUnit.unit
        fun (id, thing) _ => do
          describe defined id thing
          return .yield PUnit.unit) s
      (∀ thing ∈ things, thing.WellFormed manifest)
      fun _ s' => ∃ shape, Stage version shape manifest.symbols s' := by
  have hlen : things.length ≤ ((List.range things.length).map ObjectId.mk).length := by simp
  refine (Decides.forIn
    (I := fun before s => ∃ shape : Shape, Stage version shape manifest.symbols s ∧
      ∀ j, before.length ≤ j → j < things.length → shape.objects[j]? = some [])
    (C := fun _ (pair : ObjectId × Thing) => pair.2.WellFormed manifest) ?_ ?_).mono ?_ ?_
  · rintro before ⟨⟨index⟩, thing⟩ after hsplit s ⟨shape, hs, hrest⟩
    obtain ⟨rfl, hthing⟩ := turn_of_zip ObjectId.index (map_index_map_mk _) hsplit
    have hlt : before.length < things.length := (List.getElem?_eq_some_iff.mp hthing).1
    have hi := hrest before.length (Nat.le_refl _) hlt
    refine (hc.decides_describe hi hs thing).bind_pure ?_
    rintro - s ⟨numbers, hs⟩
    refine ⟨rfl, _, hs, fun j hle hj => ?_⟩
    rw [List.length_append, List.length_singleton] at hle
    show (shape.objects.set before.length numbers)[j]? = _
    rw [List.getElem?_set_ne (by omega)]
    exact hrest j (by omega) hj
  · refine ⟨_, h, fun j _ hj => ?_⟩
    rw [hshape, List.getElem?_replicate, if_pos hj]
  · rw [← forall_mem_zip_snd hlen]
    constructor
    · intro hall pair hpair
      obtain ⟨before, after, hsplit⟩ := List.append_of_mem hpair
      exact hall before pair after hsplit
    · intro hall before pair after hsplit
      exact hall pair (by simp [hsplit])
  · rintro - _ s ⟨shape, hs, -⟩
    exact ⟨shape, hs⟩

end Defined.Covers

/-! ## The build -/

variable (manifest : Manifest)

theorem exists_of_mem_zip_range {ι κ : Type} {xs : List ι} {f : Nat → κ} {n : Nat} {x : ι} {y : κ}
    (h : (x, y) ∈ xs.zip ((List.range n).map f)) : ∃ i < n, xs[i]? = some x ∧ f i = y := by
  obtain ⟨i, hi⟩ := List.mem_iff_getElem?.mp h
  obtain ⟨hx, hy⟩ := List.getElem?_zip_eq_some.mp hi
  obtain ⟨hlt, rfl⟩ := List.getElem?_eq_some_iff.mp hy
  rw [List.length_map, List.length_range] at hlt
  exact ⟨i, hlt, hx, by simp⟩

/-- The handles after all definitions. -/
theorem covers_handlesOf (hlen : manifest.properties.length ≤ version.maxProperties) :
    Defined.Covers
      { flags := handlesOf manifest.flags
          ((List.range manifest.flags.length).map fun i => ⟨i, version.maxFlags - i⟩)
        properties := handlesOf (manifest.properties.map (·.name))
          ((List.range manifest.properties.length).map fun i => ⟨i, version.maxProperties - i⟩)
        objects := handlesOf (manifest.objects.map (·.name))
          ((List.range manifest.objects.length).map ObjectId.mk) } manifest where
  flags := mem_handlesOf (by simp)
  properties symbol := by
    rw [mem_handlesOf (by simp), List.map_map]
    rfl
  objects symbol := by
    rw [mem_handlesOf (by simp), List.map_map]
    rfl
  numbers := by
    intro symbol symbol' property property' h h' hnumber
    obtain ⟨name, hmem, rfl⟩ := getElem?_handlesOf h
    obtain ⟨name', hmem', rfl⟩ := getElem?_handlesOf h'
    obtain ⟨i, hi, hname, rfl⟩ := exists_of_mem_zip_range hmem
    obtain ⟨j, hj, hname', rfl⟩ := exists_of_mem_zip_range hmem'
    -- Numbers count down from the greatest, so they determine the index.
    obtain rfl : i = j := by
      have hnumber : version.maxProperties - i = version.maxProperties - j := hnumber
      omega
    rw [Option.some.inj (hname.symm.trans hname')]

theorem wellFormed_iff :
    manifest.WellFormed version ↔
      (manifest.flags.length ≤ version.maxFlags + 1 ∧ manifest.flagSymbols.Nodup) ∧
      (manifest.properties.length ≤ version.maxProperties ∧
        (manifest.flagSymbols ++ manifest.propertySymbols).Nodup) ∧
      (manifest.objects.length ≤ version.maxObjects ∧
        (manifest.flagSymbols ++ manifest.propertySymbols ++
          manifest.objectSymbols).Nodup) ∧
      (manifest.globals.length ≤ Story.maxGlobals ∧
        (manifest.flagSymbols ++ manifest.propertySymbols ++
          manifest.objectSymbols ++ manifest.globalSymbols).Nodup) ∧
      manifest.declaredSymbols.Nodup ∧
      ((∀ entry ∈ manifest.constants.toList,
          entry.2.Known (manifest.declaredSymbols ++
            constantSymbols (manifest.constants.toList.filter (·.1 < entry.1)))) ∧
        manifest.symbols.Nodup) ∧
      (∀ slot ∈ manifest.properties, ∀ value ∈ slot.value, value.Known manifest.symbols) ∧
      (∀ slot ∈ manifest.globals, ∀ value ∈ slot.value, value.Known manifest.symbols) ∧
      (∀ thing ∈ manifest.objects, thing.WellFormed manifest) ∧
      "GO" ∉ manifest.symbols := by
  constructor
  · rintro ⟨distinct, flags, properties, objects, globals, constants, propertyDefaults, globalDefaults,
      things⟩
    obtain ⟨hsymbols, -, hgo⟩ := List.nodup_append.mp distinct
    have hwords := (List.nodup_append.mp hsymbols).1
    have hglobals := (List.nodup_append.mp hwords).1
    have hobjects := (List.nodup_append.mp hglobals).1
    have hproperties := (List.nodup_append.mp hobjects).1
    have hflags := (List.nodup_append.mp hproperties).1
    exact ⟨⟨flags, hflags⟩, ⟨properties, hproperties⟩, ⟨objects, hobjects⟩, ⟨globals, hglobals⟩, hwords,
      ⟨constants, hsymbols⟩, propertyDefaults, globalDefaults, things,
      fun hmem => hgo _ hmem _ List.mem_cons_self rfl⟩
  · rintro ⟨⟨flags, -⟩, ⟨properties, -⟩, ⟨objects, -⟩, ⟨globals, -⟩, -, ⟨constants, hsymbols⟩,
      propertyDefaults, globalDefaults, things, hgo⟩
    have distinct := nodup_append_singleton hsymbols hgo
    exact ⟨distinct, flags, properties, objects, globals, constants, propertyDefaults, globalDefaults,
      things⟩

theorem decides_build (settings : BuildSettings) (source : String) (h : Stage version {} [] s) :
    Decides (manifest.define settings source) s (manifest.WellFormed version) fun _ _ => True := by
  have hproperties : ((manifest.properties.map (·.name)).map fun name =>
      Property.symbolOf (Symbol.ofName name)) = manifest.propertySymbols := by
    simp [propertySymbols, propertyNames, Property.symbolOf]
  have hobjects : (manifest.objects.map (·.name)).map Symbol.ofName = manifest.objectSymbols := by
    simp [objectSymbols]
  have hglobals : (manifest.globals.map (·.name)).map Symbol.ofName = manifest.globalSymbols := by
    simp [globalSymbols]
  rw [wellFormed_iff]
  refine .get_bind ?_
  refine (h.report _).andThen fun _ s hs => ?_
  refine (hs.defineFlags rfl .nil manifest.flags).bind ?_
  rintro ⟨-, hnames⟩ _ s ⟨rfl, hs⟩
  have hpass := hs.defineProperties rfl hnames (manifest.properties.map (·.name))
  rw [hproperties, List.length_map] at hpass
  refine hpass.bind ?_
  rintro ⟨hlen, hnames⟩ _ s ⟨rfl, hs⟩
  have hpass := hs.defineObjects rfl hnames (manifest.objects.map (·.name))
  rw [hobjects, List.length_map] at hpass
  refine hpass.bind ?_
  rintro ⟨-, hnames⟩ _ s ⟨rfl, hs⟩
  have hpass := hs.defineGlobals rfl hnames (manifest.globals.map (·.name))
  rw [hglobals, List.length_map] at hpass
  refine hpass.bind ?_
  rintro ⟨-, hnames⟩ _ s ⟨rfl, hs⟩
  refine (hs.defineWords rfl hnames manifest.vocabulary).bind fun hnames _ s hs => ?_
  refine (decides_constants manifest.constants hs hnames).bind fun _ _ s hs => ?_
  refine (decides_defaults (f := fun id value => Story.modifyProperty id fun property =>
    { property with value }) (by simp) (fun id _ _ hs => hs.modifyProperty id _) hs).bind
      fun _ _ s hs => ?_
  refine (decides_defaults (f := fun id value => Story.modifyGlobal id fun global =>
    { global with value }) (by simp) (fun id _ _ hs => hs.modifyGlobal id _) hs).bind
      fun _ _ s hs => ?_
  refine ((manifest.covers_handlesOf hlen).decides_objects manifest.objects hs rfl).bind ?_
  rintro - _ s ⟨shape, hs⟩
  exact decides_emit (hs.greet _ _ _)

theorem ofInt_eq_ok_iff {number : Int} {version : Version} :
    Version.ofInt number = .ok version ↔ number = version.number := by
  obtain ⟨n, one_le, le_eight⟩ := version
  unfold Version.ofInt
  split
  · simp only [Except.ok.injEq, Version.mk.injEq]
    omega
  · refine ⟨fun h => ?_, fun h => ?_⟩
    · cases h
    · simp only at h
      omega

theorem story_eq_ok_iff {settings : BuildSettings} {source : String} {story : Story}
    (hversion : Version.ofInt settings.version = .ok version) :
    manifest.story settings source = .ok story ↔
      Yields (manifest.define settings source)
        { version, wantsDebug := settings.debug, log := #[.newStory version] } () story := by
  unfold Manifest.story Story.new Yields
  rw [hversion]
  simp only [bind, Except.bind, pure, Except.pure]
  rcases (manifest.define settings source).run.run _ with ⟨error | _, s⟩
  · refine ⟨fun h => ?_, fun h => ?_⟩ <;> cases h
  · refine ⟨fun h => ?_, fun h => ?_⟩ <;> cases h <;> rfl

/-- **A story is built of exactly the well-formed manifests**, for the versions that exist. -/
theorem exists_story_iff_wellFormed (settings : BuildSettings) (source : String) :
    (∃ story, manifest.story settings source = .ok story) ↔
      ∃ version : Version, settings.version = version.number ∧ manifest.WellFormed version := by
  constructor
  · rintro ⟨story, h⟩
    cases hversion : Version.ofInt settings.version with
    | error error =>
      unfold Manifest.story Story.new at h
      rw [hversion] at h
      cases h
    | ok version =>
      have hbuild := manifest.decides_build settings source (.new version settings.debug)
      exact ⟨version, ofInt_eq_ok_iff.mp hversion,
        hbuild.2 ⟨(), story, (manifest.story_eq_ok_iff hversion).mp h⟩⟩
  · rintro ⟨version, hversion, hwf⟩
    have hbuild := manifest.decides_build settings source (.new version settings.debug)
    obtain ⟨_, story, hy, -⟩ := hbuild.1 hwf
    exact ⟨story, (manifest.story_eq_ok_iff (ofInt_eq_ok_iff.mpr hversion)).mpr hy⟩

end StoryAsm.Manifest
