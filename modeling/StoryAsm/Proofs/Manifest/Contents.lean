import StoryAsm.Proofs.Manifest.Tree

/-!
# What a story holds of its manifest

A story that was built holds what the manifest defines, in the order of the manifest, with the values
that the manifest gives, and nothing else (`Manifest.contents_of_story`).
-/

namespace StoryAsm

/-- What the data segment shows of a story, without the links and the flags of objects. -/
structure Contents where
  version : Version
  flags : List Flag := []
  properties : List Property := []
  globals : List Global := []
  words : List Word := []
  constants : List (String × Operand) := []
  tables : List Table := []
  /-- The name of each object and the values of its properties. -/
  objects : List (String × List PropertyValue) := []

def Object.content (object : Object) : String × List PropertyValue :=
  (object.name, object.properties.toList.map (·.2))

def Story.contents (story : Story) : Contents where
  version := story.version
  flags := story.flags.toList
  properties := story.properties.toList
  globals := story.globals.toList
  words := story.words.toList
  constants := story.constants.toList
  tables := story.tables.toList
  objects := story.objects.toList.map (·.content)

namespace Manifest

/-- The operand of a value. -/
def Value.operand : Value → Operand
  | number value => .number value
  | symbol name => .symbol (Symbol.ofName name)

def Slot.operand (slot : Slot) : Option Operand :=
  slot.value.map (·.operand)

/-- The values of the properties of an object, in the order of their names. -/
def Thing.values (thing : Thing) : List PropertyValue :=
  thing.properties.toList.map fun entry => .word entry.2.operand

/-- What a story of the manifest holds. -/
def contents (manifest : Manifest) (version : Version) : Contents where
  version := version
  flags := manifest.flags.zipIdx.map fun (name, index) =>
    { name := Symbol.ofName name, number := version.maxFlags - index }
  properties := manifest.properties.zipIdx.map fun (slot, index) =>
    { name := Symbol.ofName slot.name, number := version.maxProperties - index, value := slot.operand }
  globals := manifest.globals.map fun slot =>
    { name := Symbol.ofName slot.name, value := slot.operand }
  words := manifest.vocabulary.map fun text =>
    { table := .new (Story.wordSymbol text) true, text := Text.lowerCase text }
  constants := manifest.constants.toList.map fun entry => (Symbol.ofName entry.1, entry.2.operand)
  objects := manifest.objects.map fun thing => (Symbol.ofName thing.name, thing.values)

variable {manifest : Manifest} {settings : BuildSettings} {source : String} {s s' story : Story}

/-! ## Values -/

theorem onlyData_contents : OnlyData Story.contents := fun _ _ _ _ _ _ _ => rfl

theorem operand_of_resolve {value : Value} {operand : Operand} (h : Yields (resolve value) s operand s') :
    operand = value.operand := by
  cases value with
  | number value =>
    obtain ⟨made, m, hmade, h⟩ := yields_bind.mp h
    cases yields_emit.mp hmade
    cases h
    rfl
  | symbol name =>
    rw [Yields, resolve, run_run_get_bind] at h
    split at h
    · cases h
      rfl
    · cases h

theorem operand_of_slotValue {slot : Slot} {value : Option Operand}
    (h : Yields (slotValue slot) s value s') : value = slot.operand := by
  unfold slotValue at h
  rw [Slot.operand]
  cases hvalue : slot.value with
  | none =>
    rw [hvalue] at h
    cases h
    rfl
  | some given =>
    rw [hvalue] at h
    have h : Yields (resolve given >>= fun operand => pure (some operand)) s value s' := h
    obtain ⟨operand, m, hresolve, h⟩ := yields_bind.mp h
    cases h
    rw [operand_of_resolve hresolve]
    rfl

/-! ## Definitions -/

namespace Kind

def flag : Kind Story.contents FlagId Flag where
  define := Story.defineFlag
  definition := Definition.flag
  handle s := ⟨s.flags.size, s.version.maxFlags - s.flags.size⟩
  place := FlagId.index
  get := (·.flags)
  put contents flags := { contents with flags }
  entry contents name index := { name := Symbol.ofName name, number := contents.version.maxFlags - index }
  run_define name s := Story.run_defineFlag s name
  view_record := by
    simp [Story.contents, Definition.record, Definition.claimed, Definition.symbol]
  place_handle := by simp [Story.contents]

def property : Kind Story.contents PropertyId Property where
  define := Story.defineProperty
  definition := Definition.property
  handle s := ⟨s.properties.size, s.version.maxProperties - s.properties.size⟩
  place := PropertyId.index
  get := (·.properties)
  put contents properties := { contents with properties }
  entry contents name index :=
    { name := Symbol.ofName name, number := contents.version.maxProperties - index }
  run_define name s := Story.run_defineProperty s name
  view_record := by simp [Story.contents, Definition.record, Definition.claimed]
  place_handle := by simp [Story.contents]

def object : Kind Story.contents ObjectId (String × List PropertyValue) where
  define := Story.defineObject
  definition := Definition.object
  handle s := ⟨s.objects.size⟩
  place := ObjectId.index
  get := (·.objects)
  put contents objects := { contents with objects }
  entry _ name _ := (Symbol.ofName name, [])
  run_define name s := Story.run_defineObject s name
  view_record := by
    simp [Story.contents, Definition.record, Definition.claimed, Definition.symbol, Object.content]
  place_handle := by simp [Story.contents]

def global : Kind Story.contents GlobalId Global where
  define := Story.defineGlobal
  definition := Definition.global
  handle s := ⟨s.globals.size⟩
  place := GlobalId.index
  get := (·.globals)
  put contents globals := { contents with globals }
  entry _ name _ := { name := Symbol.ofName name }
  run_define name s := Story.run_defineGlobal s name
  view_record := by
    simp [Story.contents, Definition.record, Definition.claimed, Definition.symbol]
  place_handle := by simp [Story.contents]

def word : Kind Story.contents WordId Word where
  define := Story.defineWord
  definition := Definition.word
  handle s := ⟨s.words.size⟩
  place := WordId.index
  get := (·.words)
  put contents words := { contents with words }
  entry _ text _ :=
    { table := .new (Story.wordSymbol text) true, text := Text.lowerCase text }
  run_define text s := Story.run_defineWord s text
  view_record := by
    simp [Story.contents, Definition.record, Definition.claimed, Definition.symbol]
  place_handle := by simp [Story.contents]

end Kind

theorem contents_of_constants {constants : List (String × Value)} {a : PUnit}
    (h : Yields (forIn constants PUnit.unit fun (name, value) _ => do
      let operand ← resolve value
      let _ ← emit (Story.defineConstant name operand)
      return .yield PUnit.unit) s a s') :
    s'.contents = { s.contents with
      constants := s.contents.constants ++
        constants.map fun entry => (Symbol.ofName entry.1, entry.2.operand) } := by
  refine yields_forIn (I := fun before s' => s'.contents = { s.contents with
    constants := s.contents.constants ++
      before.map fun entry => (Symbol.ofName entry.1, entry.2.operand) }) ?_ ?_ h
  · rintro before ⟨name, value⟩ after - m step m' hm hturn
    obtain ⟨operand, resolved, hresolve, hturn⟩ := yields_bind.mp hturn
    obtain ⟨_, defined, hdefine, hturn⟩ := yields_bind.mp hturn
    cases hturn
    obtain ⟨-, rfl⟩ := Definition.eq_record_of_outcome
      ((Story.run_defineConstant resolved name operand).symm.trans (yields_emit.mp hdefine))
    refine ⟨rfl, ?_⟩
    have hkept := keeps_resolve onlyData_contents value _ _ _ hresolve
    have hrecord : ((Definition.constant name operand).record resolved).contents =
        { resolved.contents with
          constants := resolved.contents.constants ++ [(Symbol.ofName name, operand)] } := by
      simp [Story.contents, Definition.record, Definition.claimed, Definition.symbol]
    rw [hrecord, hkept, hm, operand_of_resolve hresolve]
    simp
  · simp

/-! ## Turns -/

/-- A list of which the entries before `count` have had their turn. -/
def turned {ι τ : Type} (before after : ι → Nat → τ) (count : Nat) (xs : List ι) : List τ :=
  xs.zipIdx.map fun (x, index) => if index < count then after x index else before x index

section Turns

variable {ι τ : Type} {before after : ι → Nat → τ}

theorem turned_zero (xs : List ι) :
    turned before after 0 xs = xs.zipIdx.map fun (x, index) => before x index := by
  simp [turned]

theorem turned_length (xs : List ι) :
    turned before after xs.length xs = xs.zipIdx.map fun (x, index) => after x index := by
  refine List.map_congr_left fun entry hmem => ?_
  have hlt : entry.2 < xs.length := by simpa using (List.mem_zipIdx hmem).2.1
  simp only [if_pos hlt]

theorem modify_turned {xs : List ι} {count : Nat} {x : ι} (hget : xs[count]? = some x)
    {change : τ → τ} (hchange : change (before x count) = after x count) :
    (turned before after count xs).modify count change = turned before after (count + 1) xs := by
  apply List.ext_getElem?
  intro index
  simp only [turned, List.getElem?_modify, List.getElem?_map, List.getElem?_zipIdx, Nat.zero_add,
    Option.map_map]
  by_cases heq : count = index
  · subst heq
    simp [hget, hchange]
  · have hlt : index < count ↔ index < count + 1 := by omega
    simp only [if_neg heq, id_map', Function.comp_def, hlt]

/-- A loop over things with their handles, where each turn changes the entry of the handle. -/
theorem Kind.contents_of_turns {κ : Type} (kind : Kind Story.contents κ τ) (before after : ι → Nat → τ)
    {ids : List κ} {xs : List ι} {turn : κ × ι → PUnit → BuildM (ForInStep PUnit)} {a : PUnit}
    (hplaces : ids.map kind.place = List.range xs.length)
    (hturn : ∀ id x s step s', Yields (turn (id, x) ⟨⟩) s step s' → step = .yield ⟨⟩ ∧
      ∃ change : τ → τ,
        s'.contents = kind.put s.contents ((kind.get s.contents).modify (kind.place id) change) ∧
          ∀ index, change (before x index) = after x index)
    (hs : kind.get s.contents = xs.zipIdx.map fun (x, index) => before x index)
    (h : Yields (forIn (ids.zip xs) PUnit.unit turn) s a s') :
    s'.contents = kind.put s.contents (xs.zipIdx.map fun (x, index) => after x index) := by
  have hlength : (ids.zip xs).length = xs.length := by
    have hids := congrArg List.length hplaces
    rw [List.length_map, List.length_range] at hids
    rw [List.length_zip, hids, Nat.min_self]
  have hall := yields_forIn (I := fun done m =>
    m.contents = kind.put s.contents (turned before after done.length xs)) ?_ ?_ h
  · rwa [hlength, turned_length] at hall
  · rintro done ⟨id, x⟩ rest hsplit m step m' hm hyields
    obtain ⟨hplace, hx⟩ := turn_of_zip kind.place hplaces hsplit
    obtain ⟨rfl, change, hcontents, hchange⟩ := hturn id x m step m' hyields
    refine ⟨rfl, ?_⟩
    rw [hcontents, hm, kind.get_put, kind.put_put, hplace, modify_turned hx (hchange done.length),
      List.length_append, List.length_singleton]
  · rw [List.length_nil, turned_zero, ← hs, kind.put_get]

end Turns

theorem map_zipIdx_map {ι κ τ : Type} (f : ι → κ) (g : κ → Nat → τ) (xs : List ι) :
    ((xs.map f).zipIdx.map fun (x, index) => g x index) =
      xs.zipIdx.map fun (x, index) => g (f x) index := by
  rw [List.zipIdx_map, List.map_map]
  rfl

/-! ## Default values and objects -/

/-- A slot gives its value to what it is the slot of. -/
theorem contents_of_slot {f : Option Operand → StoryM Unit} {slot : Slot} {step : ForInStep PUnit}
    (h : Yields (do
      let value ← slotValue slot
      emit (f value)
      return ForInStep.yield PUnit.unit : BuildM (ForInStep PUnit)) s step s') :
    step = .yield ⟨⟩ ∧ ∃ m, m.contents = s.contents ∧ Yields (f slot.operand) m () s' := by
  obtain ⟨value, m, hvalue, h⟩ := yields_bind.mp h
  obtain ⟨_, m', hset, h⟩ := yields_bind.mp h
  cases h
  obtain rfl := operand_of_slotValue hvalue
  exact ⟨rfl, m, keeps_slotValue onlyData_contents slot _ _ _ hvalue, yields_emit.mp hset⟩

theorem contents_of_propertyDefaults {ids : List PropertyId} {slots : List Slot} {a : PUnit}
    (hplaces : ids.map PropertyId.index = List.range slots.length)
    (hs : s.contents.properties = slots.zipIdx.map fun (slot, index) =>
      { name := Symbol.ofName slot.name, number := s.contents.version.maxProperties - index })
    (h : Yields (forIn (ids.zip slots) PUnit.unit fun (id, slot) _ => do
      let value ← slotValue slot
      emit (Story.modifyProperty id fun property => { property with value })
      return .yield PUnit.unit) s a s') :
    s'.contents = { s.contents with
      properties := slots.zipIdx.map fun (slot, index) =>
        { name := Symbol.ofName slot.name, number := s.contents.version.maxProperties - index,
          value := slot.operand } } := by
  refine Kind.property.contents_of_turns
    (fun (slot : Slot) index =>
      { name := Symbol.ofName slot.name, number := s.contents.version.maxProperties - index })
    (fun slot index =>
      { name := Symbol.ofName slot.name, number := s.contents.version.maxProperties - index,
        value := slot.operand })
    hplaces (fun id slot m step m' hturn => ?_) hs h
  obtain ⟨rfl, set, hset, hyields⟩ := contents_of_slot hturn
  cases hyields
  refine ⟨rfl, fun property => { property with value := slot.operand }, ?_, fun _ => rfl⟩
  rw [← hset]
  simp [Story.contents, Array.toList_modify, Kind.property]

theorem contents_of_globalDefaults {ids : List GlobalId} {slots : List Slot} {a : PUnit}
    (hplaces : ids.map GlobalId.index = List.range slots.length)
    (hs : s.contents.globals = slots.zipIdx.map fun (slot, _) => { name := Symbol.ofName slot.name })
    (h : Yields (forIn (ids.zip slots) PUnit.unit fun (id, slot) _ => do
      let value ← slotValue slot
      emit (Story.modifyGlobal id fun global => { global with value })
      return .yield PUnit.unit) s a s') :
    s'.contents = { s.contents with
      globals := slots.map fun slot =>
        { name := Symbol.ofName slot.name, value := slot.operand } } := by
  rw [← map_zipIdx_fst]
  refine Kind.global.contents_of_turns (fun (slot : Slot) _ => { name := Symbol.ofName slot.name })
    (fun slot _ => { name := Symbol.ofName slot.name, value := slot.operand })
    hplaces (fun id slot m step m' hturn => ?_) hs h
  obtain ⟨rfl, set, hset, hyields⟩ := contents_of_slot hturn
  cases hyields
  refine ⟨rfl, fun global => { global with value := slot.operand }, ?_, fun _ => rfl⟩
  rw [← hset]
  simp [Story.contents, Array.toList_modify, Kind.global]

/-- A change of an object, and what becomes of its content. -/
theorem contents_modify_objects (change : Object → Object)
    (change' : String × List PropertyValue → String × List PropertyValue)
    (hchange : ∀ object, (change object).content = change' object.content) (s : Story) (index : Nat) :
    Story.contents { s with objects := s.objects.modify index change } =
      { s.contents with objects := s.contents.objects.modify index change' } := by
  have hlist : (s.objects.toList.modify index change).map (·.content) =
      (s.objects.toList.map (·.content)).modify index change' := by
    apply List.ext_getElem?
    intro place
    simp only [List.getElem?_map, List.getElem?_modify]
    cases s.objects.toList[place]? with
    | none => rfl
    | some object => by_cases heq : index = place <;> simp [heq, hchange]
  simp only [Story.contents, Array.toList_modify, hlist]

theorem keeps_modifyObject {change : Object → Object}
    (hchange : ∀ object, (change object).content = object.content) (holder : ObjectId) :
    Keeps Story.contents (Story.modifyObject holder change) := by
  refine .modify fun s => ?_
  rw [contents_modify_objects change id hchange, List.modify_id]

theorem keeps_insertInto (child parent : ObjectId) :
    Keeps Story.contents (Story.insertInto child parent) := by
  refine .bind .get fun story => .bind ?_ fun _ => ?_
  · apply keeps_modifyObject
    exact fun _ => rfl
  · apply keeps_modifyObject
    exact fun _ => rfl

/-- More values for an object. -/
def give (values : List PropertyValue) (content : String × List PropertyValue) :
    String × List PropertyValue :=
  (content.1, content.2 ++ values)

theorem give_comp_give (values values' : List PropertyValue) :
    give values' ∘ give values = give (values ++ values') := by
  funext content
  simp [give]

theorem give_nil : give [] = id := by
  funext content
  simp [give]

theorem contents_of_addWordProperty {holder : ObjectId} {property : PropertyId} {operand : Operand}
    {a : Unit} (h : Yields (Story.addWordProperty holder property operand) s a s') :
    s'.contents = { s.contents with
      objects := s.contents.objects.modify holder.index (give [.word operand]) } := by
  have hrun := (Story.run_addProperty holder property (.word operand) s).symm.trans h
  obtain ⟨-, -, rfl⟩ := settled_eq_ok.mp hrun
  refine contents_modify_objects _ _ (fun object => ?_) s holder.index
  simp [Object.content, give, Object.Gift.value]

theorem contents_of_properties {properties : Handles PropertyId} {holder : ObjectId}
    {entries : List (String × Value)} {a : PUnit}
    (h : Yields (forIn entries PUnit.unit fun (name, value) _ => do
      let property ← find properties .property name
      let operand ← resolve value
      emit (Story.addWordProperty holder property operand)
      return .yield PUnit.unit) s a s') :
    s'.contents = { s.contents with
      objects := s.contents.objects.modify holder.index
        (give (entries.map fun entry => .word entry.2.operand)) } := by
  refine yields_forIn (I := fun before m => m.contents = { s.contents with
    objects := s.contents.objects.modify holder.index
      (give (before.map fun entry => .word entry.2.operand)) }) ?_ ?_ h
  · rintro before ⟨name, value⟩ after - m step m' hm hturn
    obtain ⟨property, found, hfind, hturn⟩ := yields_bind.mp hturn
    obtain ⟨operand, resolved, hresolve, hturn⟩ := yields_bind.mp hturn
    obtain ⟨_, given, hgive, hturn⟩ := yields_bind.mp hturn
    cases hturn
    obtain rfl := operand_of_resolve hresolve
    have hfound : found.contents = m.contents := keeps_find _ _ _ _ _ _ hfind
    refine ⟨rfl, ?_⟩
    rw [contents_of_addWordProperty (yields_emit.mp hgive),
      keeps_resolve onlyData_contents value _ _ _ hresolve, hfound, hm, List.modify_modify_eq,
      give_comp_give, List.map_append]
    rfl
  · rw [List.map_nil, give_nil, List.modify_id]

/-- Describing an object gives it its values. -/
theorem contents_of_describe {defined : Defined} {holder : ObjectId} {thing : Thing} {a : Unit}
    (h : Yields (describe defined holder thing) s a s') :
    s'.contents = { s.contents with
      objects := s.contents.objects.modify holder.index (give thing.values) } := by
  obtain ⟨_, described, hdescription, h⟩ := yields_bind.mp h
  obtain ⟨_, flagged, hflags, h⟩ := yields_bind.mp h
  obtain ⟨_, given, hproperties, h⟩ := yields_bind.mp h
  have hchange : ∀ (change : Object → Object), (∀ object, (change object).content = object.content) →
      Keeps Story.contents (emit (Story.modifyObject holder change)) :=
    fun change hcontent => keeps_emit (keeps_modifyObject hcontent holder)
  have hkept : flagged.contents = s.contents := by
    rw [Keeps.forIn (fun name _ => .bind (keeps_find _ _ _) fun flag =>
        .bind (hchange (·.setFlag flag) fun _ => rfl) fun _ => .pure _) _ _ _ _ _ hflags,
      hchange (fun object => { object with description := thing.description }) (fun _ => rfl) _ _ _
        hdescription]
  have hparent : s'.contents = given.contents := by
    cases hname : thing.parent with
    | none =>
      simp only [hname] at h
      cases h
      rfl
    | some name =>
      simp only [hname] at h
      exact Keeps.bind (keeps_find _ _ _) (fun parent => keeps_emit (keeps_insertInto holder parent))
        _ _ _ h
  rw [hparent, contents_of_properties hproperties, hkept]
  rfl

/-- All objects are described, one after the other. -/
theorem contents_of_things {defined : Defined} {ids : List ObjectId} {things : List Thing} {a : PUnit}
    (hplaces : ids.map ObjectId.index = List.range things.length)
    (hs : s.contents.objects = things.zipIdx.map fun (thing, _) => (Symbol.ofName thing.name, []))
    (h : Yields (forIn (ids.zip things) PUnit.unit fun (id, thing) _ => do
      describe defined id thing
      return .yield PUnit.unit) s a s') :
    s'.contents = { s.contents with
      objects := things.map fun thing => (Symbol.ofName thing.name, thing.values) } := by
  rw [← map_zipIdx_fst]
  refine Kind.object.contents_of_turns (fun (thing : Thing) _ => (Symbol.ofName thing.name, []))
    (fun thing _ => (Symbol.ofName thing.name, thing.values))
    hplaces (fun id thing m step m' hturn => ?_) hs h
  obtain ⟨_, _, hdescribe, hyield⟩ := yields_bind.mp hturn
  cases hyield
  exact ⟨rfl, give thing.values, contents_of_describe hdescribe, fun _ => rfl⟩

/-! ## The build -/

/-- What the story holds of properties, globals and objects before they get their values. -/
def bareProperties (manifest : Manifest) (version : Version) : List Property :=
  manifest.properties.zipIdx.map fun (slot, index) =>
    { name := Symbol.ofName slot.name, number := version.maxProperties - index }

def bareGlobals (manifest : Manifest) : List Global :=
  manifest.globals.zipIdx.map fun (slot, _) => { name := Symbol.ofName slot.name }

def bareObjects (manifest : Manifest) : List (String × List PropertyValue) :=
  manifest.objects.zipIdx.map fun (thing, _) => (Symbol.ofName thing.name, [])

theorem contents_of_define {version : Version} (hs : s.contents = { version })
    (h : Yields (manifest.define settings source) s () story) :
    story.contents = manifest.contents version := by
  obtain ⟨_, _, hget, h⟩ := yields_bind.mp h
  cases hget
  obtain ⟨_, reported, hreport, h⟩ := yields_bind.mp h
  obtain ⟨flags, withFlags, hflags, h⟩ := yields_bind.mp h
  obtain ⟨properties, withProperties, hproperties, h⟩ := yields_bind.mp h
  obtain ⟨objects, withObjects, hobjects, h⟩ := yields_bind.mp h
  obtain ⟨globals, withGlobals, hglobals, h⟩ := yields_bind.mp h
  obtain ⟨_, withWords, hwords, h⟩ := yields_bind.mp h
  obtain ⟨_, withConstants, hconstants, h⟩ := yields_bind.mp h
  obtain ⟨_, withDefaults, hdefaults, h⟩ := yields_bind.mp h
  obtain ⟨_, withValues, hvalues, h⟩ := yields_bind.mp h
  obtain ⟨_, linked, hlinks, hgreet⟩ := yields_bind.mp h
  -- The contents are those of the manifest in the end; until then, some of them are bare.
  have hreported : reported.contents = { version } :=
    (keeps_report onlyData_contents _ _ _ _ hreport).trans hs
  obtain ⟨hflags, -⟩ := Kind.flag.view_of_defineAll hflags (by rw [hreported]; rfl)
  replace hflags : withFlags.contents = { version, flags := (manifest.contents version).flags } := by
    rw [hflags, hreported]
    rfl
  obtain ⟨hproperties, hpropertyIds⟩ :=
    Kind.property.view_of_defineAll hproperties (by rw [hflags]; rfl)
  replace hproperties : withProperties.contents =
      { version, flags := (manifest.contents version).flags
        properties := manifest.bareProperties version } := by
    rw [hproperties, hflags, map_zipIdx_map]
    rfl
  obtain ⟨hobjects, hobjectIds⟩ :=
    Kind.object.view_of_defineAll hobjects (by rw [hproperties]; rfl)
  replace hobjects : withObjects.contents =
      { version, flags := (manifest.contents version).flags
        properties := manifest.bareProperties version, objects := manifest.bareObjects } := by
    rw [hobjects, hproperties, map_zipIdx_map]
    rfl
  obtain ⟨hglobals, hglobalIds⟩ :=
    Kind.global.view_of_defineAll hglobals (by rw [hobjects]; rfl)
  replace hglobals : withGlobals.contents =
      { version, flags := (manifest.contents version).flags
        properties := manifest.bareProperties version, objects := manifest.bareObjects
        globals := manifest.bareGlobals } := by
    rw [hglobals, hobjects, map_zipIdx_map]
    rfl
  obtain ⟨hwords, -⟩ := Kind.word.view_of_defineAll hwords (by rw [hglobals]; rfl)
  have hbare : withConstants.contents =
      { manifest.contents version with
        properties := manifest.bareProperties version, objects := manifest.bareObjects
        globals := manifest.bareGlobals } := by
    rw [contents_of_constants hconstants, hwords, hglobals, contents,
      ← map_zipIdx_fst _ manifest.vocabulary]
    rfl
  rw [List.length_map] at hpropertyIds hobjectIds hglobalIds
  have hdefaults := contents_of_propertyDefaults hpropertyIds (by rw [hbare]; rfl) hdefaults
  replace hdefaults : withDefaults.contents =
      { manifest.contents version with
        objects := manifest.bareObjects, globals := manifest.bareGlobals } := by
    rw [hdefaults, hbare]
    rfl
  have hvalues := contents_of_globalDefaults hglobalIds (by rw [hdefaults]; rfl) hvalues
  replace hvalues : withValues.contents =
      { manifest.contents version with objects := manifest.bareObjects } := by
    rw [hvalues, hdefaults]
    rfl
  rw [keeps_emit (keeps_greet onlyData_contents _ _ _) _ _ _ hgreet,
    contents_of_things hobjectIds (by rw [hvalues]; rfl) hlinks, hvalues]
  rfl

/-- A story that was built holds exactly what its manifest says. -/
theorem contents_of_story {version : Version} (hversion : Version.ofInt settings.version = .ok version)
    (h : manifest.story settings source = .ok story) : story.contents = manifest.contents version :=
  contents_of_define rfl ((manifest.story_eq_ok_iff hversion).mp h)

end Manifest

end StoryAsm
