import StoryAsm.Proofs.Manifest.Contents
import StoryAsm.Proofs.Story.DebugInfo
import StoryAsm.Proofs.Story.Layout

/-!
# References of a manifest

Values of a manifest name other things of the manifest. In the data segment of a story that was built,
the values stand as operands, and every operand is a number or a symbol that a statement of the same
segment defines (`Manifest.exists_grounded_of_story`).
-/

namespace StoryAsm

/-- The symbols of the things of a kind. -/
def Contents.names (contents : Contents) : SymbolKind → List String
  | .constant => contents.constants.map (·.1)
  | .global => contents.globals.map (·.name)
  | .table => (List.range contents.tables.length).map fun index => s!"TBL?{index}"
  | .routine => []
  | .object => contents.objects.map (·.1)
  | .property => contents.properties.map (·.symbol)
  | .flag => contents.flags.map (·.name)
  | .word => contents.words.map (·.table.name)

theorem Story.names_contents {story : Story} {kind : SymbolKind} (hkind : kind ≠ .routine) :
    story.contents.names kind = story.names kind := by
  cases kind with
  | routine => exact absurd rfl hkind
  | object =>
    simp only [Contents.names, contents, names, List.map_map]
    rfl
  | _ => rfl

/-! ## Operands and definitions -/

/-- The operands of a statement of the data segment. -/
def Statement.operands : Statement → List String
  | assign _ value => [value]
  | global _ value => value.toList
  | data _ values => values
  | object _ _ parent sibling child table => [parent, sibling, child, table]
  | _ => []

def IsDecimal (text : String) : Prop :=
  ∃ value : Int, text = toString value

/-- Among the statements there is an assignment, a global, an object or a label with the name. -/
def DefinedIn (statements : List Statement) (name : String) : Prop :=
  ∃ form, form ≠ .routine ∧ ∃ statement ∈ statements, statement.defined? form = some name

/-- Every operand is a number or defined by one of the statements. -/
def Resolved (statements : List Statement) : Prop :=
  ∀ statement ∈ statements, ∀ text ∈ statement.operands, IsDecimal text ∨ DefinedIn statements text

namespace Story

variable {story : Story} {data : List Statement}

theorem definedIn_of_mem_names (hglobals : (story.names .global).Nodup)
    (htables : story.tables.toList.map (·.name) = story.names .table)
    (hdata : story.dataStatements = .ok data) {kind : SymbolKind} (hkind : kind ≠ .routine)
    {name : String} (hname : name ∈ story.names kind) : DefinedIn data name := by
  rw [names_eq_map_definitions] at hname
  obtain ⟨entry, hentry, rfl⟩ := List.mem_map.mp hname
  refine ⟨kind.form, ?_, entry.2, mem_data hglobals htables hdata hkind hentry,
    defined?_of_mem_definitions hentry⟩
  cases kind with
  | routine => exact absurd rfl hkind
  | _ => nofun

/-- The property table of each object is part of the data segment. -/
theorem exists_tableStatements (hdata : story.dataStatements = .ok data) {object : Object}
    (hobject : object ∈ story.objects) :
    ∃ table, object.tableStatements story.version.maxPropertyLength = .ok table ∧ table ⊆ data := by
  obtain ⟨tables, htables, hdata⟩ := bind_eq_ok.mp hdata
  obtain rfl := Except.ok.inj hdata
  obtain ⟨all, hall, htables⟩ := bind_eq_ok.mp htables
  cases htables
  obtain ⟨table, hmem, htable⟩ := exists_mem_of_mapM hall object (Array.mem_toList_iff.mpr hobject)
  refine ⟨table, htable, fun statement hstatement => ?_⟩
  have hpart : statement ∈ all.flatMap (.blank :: ·) :=
    List.mem_flatMap.mpr ⟨table, hmem, List.mem_cons_of_mem _ hstatement⟩
  simp only [List.mem_append, hpart, true_or, or_true]

theorem definedIn_tableSymbol (hdata : story.dataStatements = .ok data) {object : Object}
    (hobject : object ∈ story.objects) : DefinedIn data object.tableSymbol := by
  obtain ⟨table, htable, hsubset⟩ := exists_tableStatements hdata hobject
  obtain ⟨properties, -, htable⟩ := bind_eq_ok.mp htable
  cases htable
  exact ⟨.label, nofun, _, hsubset List.mem_cons_self, rfl⟩

theorem word_mem_data (hdata : story.dataStatements = .ok data) {object : Object}
    (hobject : object ∈ story.objects) {number : Nat} {operand : Operand}
    (hvalue : (number, .word operand) ∈ object.properties) : .data .word [operand.text] ∈ data := by
  obtain ⟨table, htable, hsubset⟩ := exists_tableStatements hdata hobject
  obtain ⟨properties, hproperties, htable⟩ := bind_eq_ok.mp htable
  cases htable
  have hentry := Object.mem_sortedProperties.mpr (Array.mem_toList_iff.mpr hvalue)
  obtain ⟨statements, hmem, hstatements⟩ := exists_mem_of_mapM hproperties _ hentry
  cases hstatements
  refine hsubset (List.mem_cons_of_mem _ (List.mem_cons_of_mem _ (List.mem_append_left _ ?_)))
  exact List.mem_flatten.mpr ⟨_, hmem, List.mem_cons_of_mem _ List.mem_cons_self⟩

/-- If the operands that a story holds are numbers or names of its things, so are those that it
writes. -/
theorem resolved_data (hglobals : (story.names .global).Nodup)
    (htables : story.tables.toList.map (·.name) = story.names .table)
    (hdata : story.dataStatements = .ok data)
    (huses : ∀ operand, story.Uses operand →
      IsDecimal operand.text ∨ ∃ kind, kind ≠ .routine ∧ operand.text ∈ story.names kind) :
    Resolved data := by
  have hcites : ∀ text, story.Cites text → IsDecimal text ∨ DefinedIn data text := by
    intro text hcites
    cases hcites with
    | number value => exact .inl ⟨value, rfl⟩
    | operand hoperand =>
      refine (huses _ hoperand).imp_right fun ⟨kind, hkind, hname⟩ => ?_
      exact definedIn_of_mem_names hglobals htables hdata hkind hname
    | @object object hobject =>
      have hkind : SymbolKind.object ≠ .routine := nofun
      have hname : object.name ∈ story.names .object :=
        List.mem_map_of_mem (Array.mem_toList_iff.mpr hobject)
      exact .inr (definedIn_of_mem_names hglobals htables hdata hkind hname)
    | table hobject => exact .inr (definedIn_tableSymbol hdata hobject)
  intro statement hmem text htext
  cases lays_of_mem_data hdata statement hmem with
  | assign name hvalue =>
    rw [List.mem_singleton.mp htext]
    exact hcites _ hvalue
  | global name hvalue => exact hcites _ (hvalue text (Option.mem_toList.mp htext))
  | data width _ hvalues => exact hcites _ (hvalues text htext)
  | object name flags hparent hsibling hchild htable =>
    simp only [Statement.operands, List.mem_cons, List.not_mem_nil, or_false] at htext
    rcases htext with rfl | rfl | rfl | rfl
    · exact hcites _ hparent
    · exact hcites _ hsibling
    · exact hcites _ hchild
    · exact hcites _ htable
  | blank | label | shortName | property | dictionaryWord | debug => cases htext

end Story

namespace Manifest

variable {manifest : Manifest} {settings : BuildSettings} {source : String} {version : Version}
  {story : Story} {data : List Statement}

/-! ## Values of the manifest -/

/-- The values that the manifest gives. -/
inductive Gives (manifest : Manifest) : Value → Prop where
  | constant {name : String} {value : Value} : (name, value) ∈ manifest.constants.toList →
    Gives manifest value
  | property {slot : Slot} {value : Value} : slot ∈ manifest.properties → slot.value = some value →
    Gives manifest value
  | global {slot : Slot} {value : Value} : slot ∈ manifest.globals → slot.value = some value →
    Gives manifest value
  | object {thing : Thing} {name : String} {value : Value} : thing ∈ manifest.objects →
    (name, value) ∈ thing.properties.toList → Gives manifest value

theorem known_of_gives (hwf : manifest.WellFormed version) {value : Value} (h : manifest.Gives value) :
    value.Known manifest.symbols := by
  cases h with
  | @constant name value hmem =>
    have hknown := hwf.constants _ hmem
    cases value with
    | number => trivial
    | symbol referenced =>
      refine List.mem_append.mpr ((List.mem_append.mp hknown).imp_right fun hearlier => ?_)
      obtain ⟨entry, hentry, hname⟩ := List.mem_map.mp hearlier
      exact List.mem_map.mpr ⟨entry, (List.mem_filter.mp hentry).1, hname⟩
  | property hslot hvalue => exact hwf.propertyDefaults _ hslot _ hvalue
  | global hslot hvalue => exact hwf.globalDefaults _ hslot _ hvalue
  | object hthing hmem => exact (hwf.things _ hthing).values _ hmem

/-- The symbols of a kind. -/
def symbolsOf (manifest : Manifest) : SymbolKind → List String
  | .flag => manifest.flagSymbols
  | .property => manifest.propertySymbols
  | .object => manifest.objectSymbols
  | .global => manifest.globalSymbols
  | .word => manifest.wordSymbols
  | .constant => constantSymbols manifest.constants.toList
  | .table | .routine => []

theorem exists_mem_symbolsOf {name : String} (h : name ∈ manifest.symbols) :
    ∃ kind, name ∈ manifest.symbolsOf kind := by
  simp only [symbols, declaredSymbols, List.mem_append] at h
  rcases h with ((((h | h) | h) | h) | h) | h
  · exact ⟨.flag, h⟩
  · exact ⟨.property, h⟩
  · exact ⟨.object, h⟩
  · exact ⟨.global, h⟩
  · exact ⟨.word, h⟩
  · exact ⟨.constant, h⟩

theorem names_contents (manifest : Manifest) (version : Version) (kind : SymbolKind) :
    (manifest.contents version).names kind = manifest.symbolsOf kind := by
  cases kind with
  | property =>
    simp only [Contents.names, contents, List.map_map, symbolsOf, propertySymbols, propertyNames]
    exact map_zipIdx_fst (fun slot => "P?" ++ Symbol.ofName slot.name) manifest.properties
  | flag =>
    simp only [Contents.names, contents, List.map_map]
    exact map_zipIdx_fst Symbol.ofName manifest.flags
  | _ =>
    simp [Contents.names, contents, symbolsOf, constantSymbols, globalSymbols, objectSymbols,
      wordSymbols, Story.wordSymbol, Function.comp_def]

section Holds

variable (hcontents : story.contents = manifest.contents version)

include hcontents

/-- A story has the symbols of its manifest, apart from its routines. -/
theorem names_eq_symbolsOf (kind : SymbolKind) (hkind : kind ≠ .routine) :
    story.names kind = manifest.symbolsOf kind := by
  rw [← Story.names_contents hkind, hcontents, names_contents]

/-- Properties of objects are words, with values of the manifest. -/
theorem exists_gives_of_property {object : Object} (hobject : object ∈ story.objects) {number : Nat}
    {value : PropertyValue} (hvalue : (number, value) ∈ object.properties) :
    ∃ given, manifest.Gives given ∧ value = .word given.operand := by
  have hentry : object.content ∈ story.contents.objects :=
    List.mem_map_of_mem (Array.mem_toList_iff.mpr hobject)
  rw [hcontents] at hentry
  obtain ⟨thing, hthing, heq⟩ := List.mem_map.mp hentry
  have hheld : value ∈ object.content.2 :=
    List.mem_map.mpr ⟨_, Array.mem_toList_iff.mpr hvalue, rfl⟩
  rw [← heq] at hheld
  obtain ⟨⟨name, given⟩, hgiven, rfl⟩ := List.mem_map.mp hheld
  exact ⟨given, .object hthing hgiven, rfl⟩

/-- The operands of a story are values of the manifest. -/
theorem exists_gives_of_uses {operand : Operand} (h : story.Uses operand) :
    ∃ value, manifest.Gives value ∧ value.operand = operand := by
  cases h with
  | @constant name _ hmem =>
    have hentry : (name, operand) ∈ story.contents.constants := Array.mem_toList_iff.mpr hmem
    rw [hcontents] at hentry
    obtain ⟨entry, hgiven, heq⟩ := List.mem_map.mp hentry
    exact ⟨entry.2, .constant hgiven, congrArg Prod.snd heq⟩
  | @global global _ hmem hvalue =>
    have hentry : global ∈ story.contents.globals := Array.mem_toList_iff.mpr hmem
    rw [hcontents] at hentry
    obtain ⟨slot, hslot, rfl⟩ := List.mem_map.mp hentry
    obtain ⟨value, hvalue, hoperand⟩ := Option.map_eq_some_iff.mp hvalue
    exact ⟨value, .global hslot hvalue, hoperand⟩
  | @property property _ hmem hvalue =>
    have hentry : property ∈ story.contents.properties := Array.mem_toList_iff.mpr hmem
    rw [hcontents] at hentry
    obtain ⟨⟨slot, index⟩, hslot, rfl⟩ := List.mem_map.mp hentry
    obtain ⟨value, hvalue, hoperand⟩ := Option.map_eq_some_iff.mp hvalue
    exact ⟨value, .property (List.fst_mem_of_mem_zipIdx hslot) hvalue, hoperand⟩
  | object hobject hvalue hoperand =>
    obtain ⟨given, hgives, rfl⟩ := exists_gives_of_property hcontents hobject hvalue
    exact ⟨given, hgives, (List.mem_singleton.mp hoperand).symm⟩
  | @table table _ hmem =>
    have hentry : table ∈ story.contents.tables := Array.mem_toList_iff.mpr hmem
    rw [hcontents] at hentry
    cases hentry
  | @word word _ hmem hoperand =>
    have hentry : word ∈ story.contents.words := Array.mem_toList_iff.mpr hmem
    rw [hcontents] at hentry
    obtain ⟨text, -, rfl⟩ := List.mem_map.mp hentry
    cases hoperand

/-- No property of a story that was built holds a table. -/
theorem tablesFit : story.TablesFit := by
  intro object hobject number table hvalue
  obtain ⟨_, -, hword⟩ :=
    exists_gives_of_property hcontents hobject (Array.mem_toList_iff.mp hvalue)
  cases hword

theorem nodup_names_global (hwf : manifest.WellFormed version) : (story.names .global).Nodup := by
  rw [names_eq_symbolsOf hcontents .global nofun]
  exact (List.nodup_append.mp (manifest.wellFormed_iff.mp hwf).2.2.2.1.2).2.1

theorem map_name_tables : story.tables.toList.map (·.name) = story.names .table := by
  have htables : story.tables.toList = [] := congrArg Contents.tables hcontents
  rw [htables, names_eq_symbolsOf hcontents .table nofun]
  rfl

theorem resolved_of_contents (hwf : manifest.WellFormed version)
    (hdata : story.dataStatements = .ok data) : Resolved data := by
  refine Story.resolved_data (nodup_names_global hcontents hwf) (map_name_tables hcontents) hdata ?_
  intro operand huses
  obtain ⟨value, hgives, rfl⟩ := exists_gives_of_uses hcontents huses
  have hknown := known_of_gives hwf hgives
  cases value with
  | number value => exact .inl ⟨value, rfl⟩
  | symbol name =>
    -- The manifest has no symbols of routines, so the data segment defines the name.
    obtain ⟨kind, hmem⟩ := exists_mem_symbolsOf hknown
    have hkind : kind ≠ .routine := by
      rintro rfl
      cases hmem
    rw [← names_eq_symbolsOf hcontents kind hkind] at hmem
    exact .inr ⟨kind, hkind, hmem⟩

/-! ## Where the values stand -/

/-- What the story defines is written. -/
theorem definition_mem_data (hwf : manifest.WellFormed version)
    (hdata : story.dataStatements = .ok data) {kind : SymbolKind} {entry : String × Statement}
    (hkind : kind ≠ .routine) (h : entry ∈ story.definitions kind) : entry.2 ∈ data :=
  Story.mem_data (nodup_names_global hcontents hwf) (map_name_tables hcontents) hdata hkind h

theorem constant_mem_data (hwf : manifest.WellFormed version)
    (hdata : story.dataStatements = .ok data) {entry : String × Value}
    (hentry : entry ∈ manifest.constants.toList) :
    .assign (Symbol.ofName entry.1) entry.2.operand.text ∈ data := by
  have hkind : SymbolKind.constant ≠ .routine := nofun
  have hconstant : (Symbol.ofName entry.1, entry.2.operand) ∈ story.contents.constants := by
    rw [hcontents]
    exact List.mem_map.mpr ⟨entry, hentry, rfl⟩
  exact definition_mem_data hcontents hwf hdata hkind (List.mem_map_of_mem hconstant)

theorem global_mem_data (hwf : manifest.WellFormed version)
    (hdata : story.dataStatements = .ok data) {slot : Slot} (hslot : slot ∈ manifest.globals) :
    .global (Symbol.ofName slot.name) (slot.operand.map (·.text)) ∈ data := by
  have hkind : SymbolKind.global ≠ .routine := nofun
  have hglobal : { name := Symbol.ofName slot.name, value := slot.operand } ∈
      story.contents.globals := by
    rw [hcontents]
    exact List.mem_map.mpr ⟨slot, hslot, rfl⟩
  exact definition_mem_data hcontents hwf hdata hkind (List.mem_map_of_mem hglobal)

theorem getElem?_properties (index : Nat) :
    story.properties[index]? = (manifest.properties[index]?).map fun slot =>
      { name := Symbol.ofName slot.name, number := version.maxProperties - index
        value := slot.operand } := by
  have hproperties : story.properties.toList = (manifest.contents version).properties :=
    congrArg Contents.properties hcontents
  rw [← Array.getElem?_toList, hproperties, contents, List.getElem?_map, List.getElem?_zipIdx,
    Option.map_map, Nat.zero_add]
  rfl

/-- Numbers tell the properties apart, so the default with the number of a slot is that of the slot. -/
theorem propertyDefault_eq (hwf : manifest.WellFormed version) {index : Nat} {slot : Slot}
    {value : Value} (hslot : manifest.properties[index]? = some slot) (hvalue : slot.value = some value) :
    story.propertyDefault (version.maxProperties - index) = value.operand.text := by
  have hplaced := getElem?_properties hcontents index
  rw [hslot, Option.map_some] at hplaced
  rw [Story.propertyDefault]
  cases hfind : story.properties.find? (·.number == version.maxProperties - index) with
  | none =>
    exact absurd (beq_self_eq_true _) (Array.find?_eq_none.mp hfind _ (Array.mem_of_getElem? hplaced))
  | some found =>
    obtain ⟨place, hplace⟩ := Array.mem_iff_getElem?.mp (Array.mem_of_find?_eq_some hfind)
    rw [getElem?_properties hcontents] at hplace
    obtain ⟨other, hother, rfl⟩ := Option.map_eq_some_iff.mp hplace
    have hnumber := Array.find?_some hfind
    have hroom := hwf.properties
    have hlt := (List.getElem?_eq_some_iff.mp hslot).1
    have hlt' := (List.getElem?_eq_some_iff.mp hother).1
    simp only [beq_iff_eq] at hnumber
    obtain rfl : place = index := by omega
    cases hslot.symm.trans hother
    simp only [Option.bind_some, Slot.operand, hvalue, Option.map_some]

theorem property_mem_data (hwf : manifest.WellFormed version)
    (hdata : story.dataStatements = .ok data) {slot : Slot} {value : Value}
    (hslot : slot ∈ manifest.properties) (hvalue : slot.value = some value) :
    .data .word [value.operand.text] ∈ data := by
  obtain ⟨index, hindex⟩ := List.mem_iff_getElem?.mp hslot
  have hlt := (List.getElem?_eq_some_iff.mp hindex).1
  have hroom := hwf.properties
  have hversion : story.version = version := congrArg Contents.version hcontents
  have hmem : .data .word [value.operand.text] ∈ story.objectStatements := by
    refine List.mem_append_left _ (List.mem_map.mpr ⟨version.maxProperties - index - 1, ?_, ?_⟩)
    · rw [hversion, List.mem_range]
      omega
    · rw [Nat.sub_add_cancel (by omega), propertyDefault_eq hcontents hwf hindex hvalue]
  obtain ⟨tables, -, hdata⟩ := bind_eq_ok.mp hdata
  obtain rfl := Except.ok.inj hdata
  simp only [List.mem_append, hmem, true_or, or_true]

theorem value_mem_data (hdata : story.dataStatements = .ok data) {thing : Thing} {name : String}
    {value : Value} (hthing : thing ∈ manifest.objects)
    (hvalue : (name, value) ∈ thing.properties.toList) :
    .data .word [value.operand.text] ∈ data := by
  have hentry : (Symbol.ofName thing.name, thing.values) ∈ story.contents.objects := by
    rw [hcontents]
    exact List.mem_map.mpr ⟨thing, hthing, rfl⟩
  obtain ⟨object, hobject, heq⟩ := List.mem_map.mp hentry
  have hheld : .word value.operand ∈ object.content.2 := by
    rw [heq]
    exact List.mem_map.mpr ⟨_, hvalue, rfl⟩
  obtain ⟨⟨number, _⟩, hproperty, rfl⟩ := List.mem_map.mp hheld
  exact Story.word_mem_data hdata (Array.mem_toList_iff.mp hobject) (Array.mem_toList_iff.mp hproperty)

omit hcontents in
/-- The record of an object tells the name of its parent. -/
theorem linkName_parent (hlinked : LinkedBelow manifest manifest.objects.length story.nodes)
    {index : Nat} {object : Object} {thing : Thing} (hobject : story.objects[index]? = some object)
    (hthing : manifest.objects[index]? = some thing) :
    story.linkName object.parent = (thing.parent.map Symbol.ofName).getD "0" := by
  have hnode : story.nodes[index]? = some object.node := by
    rw [Story.getElem?_nodes, hobject, Option.map_some]
  cases hname : thing.parent with
  | none =>
    have hparent : object.parent = none := (hlinked.alone hnode hthing (.inr hname)).1
    rw [hparent]
    rfl
  | some name =>
    have hlt := (List.getElem?_eq_some_iff.mp hthing).1
    obtain ⟨holder, parent, hlink, hparent, hsymbol⟩ := hlinked.parent hnode hlt hthing hname
    rw [Story.getElem?_nodes] at hparent
    obtain ⟨outer, houter, rfl⟩ := Option.map_eq_some_iff.mp hparent
    replace hlink : object.parent = some holder := hlink
    rw [Story.linkName, hlink, Option.bind_some, houter]
    exact hsymbol

theorem exists_object_mem_data (hwf : manifest.WellFormed version)
    (hdata : story.dataStatements = .ok data)
    (hlinked : LinkedBelow manifest manifest.objects.length story.nodes) {thing : Thing}
    (hthing : thing ∈ manifest.objects) : ∃ flags sibling child,
      .object (Symbol.ofName thing.name) flags ((thing.parent.map Symbol.ofName).getD "0") sibling child
        ("?PTBL?" ++ Symbol.ofName thing.name) ∈ data := by
  obtain ⟨index, hindex⟩ := List.mem_iff_getElem?.mp hthing
  obtain ⟨node, hnode, hname⟩ := hlinked.exists_node (getElem?_objectSymbols hindex)
  rw [Story.getElem?_nodes] at hnode
  obtain ⟨object, hobject, rfl⟩ := Option.map_eq_some_iff.mp hnode
  have hkind : SymbolKind.object ≠ .routine := nofun
  have hmem := definition_mem_data hcontents hwf hdata hkind
    (List.mem_map_of_mem (Array.mem_toList_iff.mpr (Array.mem_of_getElem? hobject)))
  replace hname : object.name = Symbol.ofName thing.name := hname
  rw [Object.record, linkName_parent hlinked hobject hindex, Object.tableSymbol, hname] at hmem
  exact ⟨_, _, _, hmem⟩

end Holds

/-! ## Manifests that were built -/

theorem tablesFit_of_story (h : manifest.story settings source = .ok story) : story.TablesFit := by
  obtain ⟨version, hversion, -⟩ := exists_wellFormed_of_story h
  exact tablesFit (contents_of_story hversion h)

/-- The values of the manifest stand at their places in the data segment, which refers to nothing that
it does not define. -/
structure Grounded (manifest : Manifest) (data : List Statement) : Prop where
  resolved : Resolved data
  constants : ∀ entry ∈ manifest.constants.toList,
    .assign (Symbol.ofName entry.1) entry.2.operand.text ∈ data
  properties : ∀ slot ∈ manifest.properties, ∀ value ∈ slot.value,
    .data .word [value.operand.text] ∈ data
  globals : ∀ slot ∈ manifest.globals,
    .global (Symbol.ofName slot.name) (slot.operand.map (·.text)) ∈ data
  values : ∀ thing ∈ manifest.objects, ∀ entry ∈ thing.properties.toList,
    .data .word [entry.2.operand.text] ∈ data
  objects : ∀ thing ∈ manifest.objects, ∃ flags sibling child,
    .object (Symbol.ofName thing.name) flags ((thing.parent.map Symbol.ofName).getD "0") sibling child
      ("?PTBL?" ++ Symbol.ofName thing.name) ∈ data

theorem grounded_of_contents (hwf : manifest.WellFormed version)
    (hcontents : story.contents = manifest.contents version)
    (hlinked : LinkedBelow manifest manifest.objects.length story.nodes)
    (hdata : story.dataStatements = .ok data) : manifest.Grounded data where
  resolved := resolved_of_contents hcontents hwf hdata
  constants _ hentry := constant_mem_data hcontents hwf hdata hentry
  properties _ hslot _ hvalue := property_mem_data hcontents hwf hdata hslot hvalue
  globals _ hslot := global_mem_data hcontents hwf hdata hslot
  values _ hthing _ hentry := value_mem_data hcontents hdata hthing hentry
  objects _ hthing := exists_object_mem_data hcontents hwf hdata hlinked hthing

/-- **A story that was built refers only to what it defines**: its data segment has the values of the
manifest, and its operands are numbers and symbols of the segment. The story can be finished, and
whenever it was finished this segment was written. -/
theorem exists_grounded_of_story (h : manifest.story settings source = .ok story) :
    ∃ data, manifest.Grounded data ∧
      (∀ base keeps, (story.output base keeps fun _ _ => none).1 = .ok ()) ∧
      ∀ base keeps fault, (story.output base keeps fault).1 = .ok () →
        (story.output base keeps fault).2.data = some (sourceText data) := by
  obtain ⟨version, hversion, hwf⟩ := exists_wellFormed_of_story h
  have hcontents := contents_of_story hversion h
  obtain ⟨-, hlinked⟩ := linkedBelow_of_story h
  obtain ⟨routines, registry, log, hclosed⟩ := story.exists_closed
  have hcontents' : story.closed.contents = manifest.contents version := by
    rw [hclosed]
    exact hcontents
  have hlinked' : LinkedBelow manifest manifest.objects.length story.closed.nodes := by
    rw [hclosed]
    exact hlinked
  obtain ⟨data, hdata⟩ := Story.exists_dataStatements (tablesFit hcontents')
  refine ⟨data, grounded_of_contents hwf hcontents' hlinked' hdata, ?_, ?_⟩
  · exact Story.output_eq_ok (tablesFit_of_story h)
  · intro base keeps fault hok
    obtain ⟨data', hdata', -, hwritten⟩ := Story.exists_output_eq_sourceText hok
    cases hdata.symm.trans hdata'
    exact hwritten

/-- A constant, defaults and properties that name a constant, an object and a word. -/
def cloakroom : Manifest where
  game := { name := "cloak" }
  constants := Std.TreeMap.ofList [("MAX-SCORE", Value.number 2), ("WIN-SCORE", Value.symbol "MAX-SCORE")]
  properties := [{ name := "size", value := some (.number 5) },
    { name := "exit", value := some (.symbol "foyer") }]
  globals := [{ name := "here", value := some (.symbol "foyer") }, { name := "score" }]
  objects := [{ name := "foyer" },
    { name := "cloak", parent := some "foyer"
      properties := Std.TreeMap.ofList [("size", Value.symbol "WIN-SCORE"),
        ("exit", Value.symbol "W?CLOAK")] }]
  vocabulary := ["cloak"]

theorem exists_story_cloakroom : ∃ story, cloakroom.story {} "zapgen.toml" = .ok story := by
  have hok : (cloakroom.story {} "zapgen.toml").isOk = true := by decide +kernel
  cases h : cloakroom.story {} "zapgen.toml" with
  | ok story => exact ⟨story, rfl⟩
  | error error =>
    rw [h] at hok
    cases hok

theorem exists_grounded_of_story_cloakroom :
    ∃ story data, cloakroom.story {} "zapgen.toml" = .ok story ∧ cloakroom.Grounded data ∧
      (story.output "cloak" false fun _ _ => none).1 = .ok () ∧
      (story.output "cloak" false fun _ _ => none).2.data = some (sourceText data) := by
  obtain ⟨story, h⟩ := exists_story_cloakroom
  obtain ⟨data, hgrounded, hfinishes, hwritten⟩ := exists_grounded_of_story h
  have hok := hfinishes "cloak" false
  exact ⟨story, data, h, hgrounded, hok, hwritten _ _ _ hok⟩

end Manifest

end StoryAsm
