import StoryAsm.Proofs.Manifest.Acceptance
import StoryAsm.Proofs.Story.Call
import StoryAsm.Proofs.World.Tree

/-!
# The tree of a manifest

The objects of a story are linked as the manifest says: the children of an object are the objects that
name it as their parent, the last one first (`Manifest.linked_of_story`). Whether the links to parents
lead to an end is decided by the manifest (`Manifest.reachesRoot_iff_rooted`): nothing keeps an object from
being inside itself (`Manifest.not_reachesRoot_boxInItself`).
-/

namespace StoryAsm.Manifest

/-! ## What is inside an object -/

/-- The objects that name the object with the symbol as their parent. -/
def inside (things : List Thing) (symbol : String) : List ObjectId :=
  (things.zipIdx.filter fun entry => entry.1.parent.map Symbol.ofName = some symbol).map
    fun entry => ⟨entry.2⟩

variable {manifest : Manifest} {things : List Thing} {symbol : String}

theorem inside_append_singleton (things : List Thing) (thing : Thing) (symbol : String) :
    inside (things ++ [thing]) symbol = inside things symbol ++
      if thing.parent.map Symbol.ofName = some symbol then [⟨things.length⟩] else [] := by
  rw [inside, inside, List.zipIdx_append, List.filter_append, List.map_append, Nat.zero_add,
    List.zipIdx_singleton]
  by_cases h : thing.parent.map Symbol.ofName = some symbol
  · rw [List.filter_cons_of_pos (by rwa [decide_eq_true_eq]), if_pos h]
    rfl
  · rw [List.filter_cons_of_neg (by rwa [decide_eq_true_eq]), if_neg h]
    rfl

theorem lt_of_mem_inside {id : ObjectId} (h : id ∈ inside things symbol) : id.index < things.length := by
  obtain ⟨entry, hmem, rfl⟩ := List.mem_map.mp h
  simpa using (List.mem_zipIdx (List.mem_filter.mp hmem).1).2.1

theorem nodup_inside (things : List Thing) (symbol : String) : (inside things symbol).Nodup := by
  have hindices : (things.zipIdx.map Prod.snd).Nodup := by
    rw [List.zipIdx_map_snd]
    exact List.nodup_range'
  have hkept : ((inside things symbol).map ObjectId.index).Nodup := by
    rw [inside, List.map_map]
    exact hindices.sublist (List.filter_sublist.map _)
  exact hkept.of_map ObjectId.index

/-! ## Symbols of objects -/

theorem getElem?_objectSymbols {index : Nat} {thing : Thing}
    (h : manifest.objects[index]? = some thing) :
    manifest.objectSymbols[index]? = some (Symbol.ofName thing.name) := by
  rw [objectSymbols, List.getElem?_map, h, Option.map_some]

/-- A symbol belongs to one object only. -/
theorem index_eq_of_symbol (hdistinct : manifest.objectSymbols.Nodup) {index index' : Nat}
    (h : manifest.objectSymbols[index]? = some symbol)
    (h' : manifest.objectSymbols[index']? = some symbol) : index = index' := by
  have hlt := (List.getElem?_eq_some_iff.mp h).1
  exact (List.getElem?_inj hlt hdistinct).mp (h.trans h'.symm)

/-! ## Links -/

/-- The nodes are those of the objects of the manifest, and the objects before `count` are linked. -/
structure LinkedBelow (manifest : Manifest) (count : Nat) (nodes : List Object.Node) : Prop where
  names : nodes.map (·.name) = manifest.objectSymbols
  children : ∀ {index : Nat} {node : Object.Node}, nodes[index]? = some node →
    Object.Siblings nodes node.child (inside (manifest.objects.take count) node.name).reverse
  parent : ∀ {index : Nat} {node : Object.Node} {thing : Thing} {name : String},
    nodes[index]? = some node → index < count → manifest.objects[index]? = some thing →
      thing.parent = some name → ∃ (holder : ObjectId) (parent : Object.Node),
        node.parent = some holder ∧ nodes[holder.index]? = some parent ∧
          parent.name = Symbol.ofName name
  alone : ∀ {index : Nat} {node : Object.Node} {thing : Thing}, nodes[index]? = some node →
    manifest.objects[index]? = some thing → count ≤ index ∨ thing.parent = none →
      node.parent = none ∧ node.sibling = none

namespace LinkedBelow

variable {count : Nat} {nodes : List Object.Node} {thing : Thing}

theorem zero (hnodes : nodes = manifest.objectSymbols.map fun symbol => { name := symbol }) :
    LinkedBelow manifest 0 nodes := by
  have hfresh : ∀ {index : Nat} {node : Object.Node}, nodes[index]? = some node →
      node = { name := node.name } := by
    intro index node hnode
    rw [hnodes, List.getElem?_map] at hnode
    obtain ⟨symbol, -, rfl⟩ := Option.map_eq_some_iff.mp hnode
    rfl
  constructor
  · rw [hnodes, List.map_map]
    exact List.map_id _
  · intro index node hnode
    rw [hfresh hnode, List.take_zero]
    exact .nil
  · intro index node thing name _ hlt
    exact absurd hlt (Nat.not_lt_zero index)
  · intro index node thing hnode _ _
    rw [hfresh hnode]
    exact ⟨rfl, rfl⟩

theorem inside_take_succ (hthing : manifest.objects[count]? = some thing) (symbol : String) :
    inside (manifest.objects.take (count + 1)) symbol =
      inside (manifest.objects.take count) symbol ++
        if thing.parent.map Symbol.ofName = some symbol then [⟨count⟩] else [] := by
  have hlength : (manifest.objects.take count).length = count := by
    have hlt := (List.getElem?_eq_some_iff.mp hthing).1
    rw [List.length_take]
    omega
  rw [List.take_add_one, hthing, Option.toList_some, inside_append_singleton, hlength]

/-- An object without a parent is not linked. -/
theorem skip (h : LinkedBelow manifest count nodes) (hthing : manifest.objects[count]? = some thing)
    (hparent : thing.parent = none) : LinkedBelow manifest (count + 1) nodes := by
  refine ⟨h.names, fun hnode => ?_, fun {index node thing' name} hnode hlt hthing' hname => ?_,
    fun hnode hthing' halone => h.alone hnode hthing' (halone.imp_left (by omega))⟩
  · rw [inside_take_succ hthing, hparent, Option.map_none, if_neg nofun, List.append_nil]
    exact h.children hnode
  · rcases Nat.lt_succ_iff_lt_or_eq.mp hlt with hlt | rfl
    · exact h.parent hnode hlt hthing' hname
    · cases hthing.symm.trans hthing'
      rw [hparent] at hname
      cases hname

theorem getElem?_name (h : LinkedBelow manifest count nodes) {index : Nat} {node : Object.Node}
    (hnode : nodes[index]? = some node) : manifest.objectSymbols[index]? = some node.name := by
  rw [← h.names, List.getElem?_map, hnode, Option.map_some]

theorem exists_node (h : LinkedBelow manifest count nodes) {index : Nat} {symbol : String}
    (hsymbol : manifest.objectSymbols[index]? = some symbol) :
    ∃ node, nodes[index]? = some node ∧ node.name = symbol := by
  rw [← h.names, List.getElem?_map] at hsymbol
  exact Option.map_eq_some_iff.mp hsymbol

section Insertion

variable {name : String} {holder : ObjectId} (h : LinkedBelow manifest count nodes)
  (hdistinct : manifest.objectSymbols.Nodup) (hthing : manifest.objects[count]? = some thing)
  (hparent : thing.parent = some name)
  (hholder : manifest.objectSymbols[holder.index]? = some (Symbol.ofName name))

include h hdistinct hthing hparent hholder

theorem children_insert {index : Nat} {node' : Object.Node}
    (hnode' : (Object.insert nodes ⟨count⟩ holder)[index]? = some node') :
    Object.Siblings (Object.insert nodes ⟨count⟩ holder) node'.child
      (inside (manifest.objects.take (count + 1)) node'.name).reverse := by
  obtain ⟨node, hnode, hinserted⟩ := Object.exists_of_insert hnode'
  obtain ⟨new, hnew, -⟩ := h.exists_node (getElem?_objectSymbols hthing)
  -- What is linked so far comes before the object in the manifest.
  have hnot : ⟨count⟩ ∉ (inside (manifest.objects.take count) node.name).reverse := by
    intro hmem
    have hlt := lt_of_mem_inside (List.mem_reverse.mp hmem)
    rw [List.length_take] at hlt
    simp only at hlt
    omega
  rw [hinserted.name, hinserted.child, inside_take_succ hthing, hparent, Option.map_some]
  have hname := h.getElem?_name hnode
  by_cases heq : holder.index = index
  · subst heq
    rw [if_pos rfl, if_pos (hholder.symm.trans hname), List.reverse_append]
    exact .insert_cons hnew hnode (h.children hnode) hnot
  · have hother : ¬some (Symbol.ofName name) = some node.name := by
      intro hsame
      exact heq (index_eq_of_symbol hdistinct hholder (hname.trans hsame.symm))
    rw [if_neg heq, if_neg hother, List.append_nil]
    exact (h.children hnode).insert hnot holder

omit hdistinct in
theorem parent_insert {index : Nat} {node' : Object.Node} {thing' : Thing} {name' : String}
    (hnode' : (Object.insert nodes ⟨count⟩ holder)[index]? = some node') (hlt : index < count + 1)
    (hthing' : manifest.objects[index]? = some thing') (hname' : thing'.parent = some name') :
    ∃ (holder' : ObjectId) (parent : Object.Node), node'.parent = some holder' ∧
      (Object.insert nodes ⟨count⟩ holder)[holder'.index]? = some parent ∧
        parent.name = Symbol.ofName name' := by
  obtain ⟨node, hnode, hinserted⟩ := Object.exists_of_insert hnode'
  rw [hinserted.parent]
  by_cases heq : count = index
  · subst heq
    cases hthing.symm.trans hthing'
    cases hparent.symm.trans hname'
    obtain ⟨outer, houter, hsymbol⟩ := h.exists_node hholder
    obtain ⟨outer', houter', hinserted'⟩ := Object.exists_insert ⟨count⟩ holder houter
    exact ⟨holder, outer', if_pos rfl, houter', hinserted'.name.trans hsymbol⟩
  · obtain ⟨holder', outer, hlink, houter, hsymbol⟩ := h.parent hnode (by omega) hthing' hname'
    obtain ⟨outer', houter', hinserted'⟩ := Object.exists_insert ⟨count⟩ holder houter
    refine ⟨holder', outer', ?_, houter', hinserted'.name.trans hsymbol⟩
    rw [if_neg heq, hlink]

omit hdistinct hholder in
theorem alone_insert {index : Nat} {node' : Object.Node} {thing' : Thing}
    (hnode' : (Object.insert nodes ⟨count⟩ holder)[index]? = some node')
    (hthing' : manifest.objects[index]? = some thing')
    (halone : count + 1 ≤ index ∨ thing'.parent = none) :
    node'.parent = none ∧ node'.sibling = none := by
  obtain ⟨node, hnode, hinserted⟩ := Object.exists_of_insert hnode'
  have hne : count ≠ index := by
    rintro rfl
    cases hthing.symm.trans hthing'
    rcases halone with hle | hnone
    · omega
    · rw [hparent] at hnone
      cases hnone
  rw [hinserted.parent, hinserted.sibling, if_neg hne, if_neg hne]
  exact h.alone hnode hthing' (halone.imp_left (by omega))

/-- An object is put into the object that it names. -/
theorem insert : LinkedBelow manifest (count + 1) (Object.insert nodes ⟨count⟩ holder) where
  names := by rw [Object.map_name_insert, h.names]
  children := h.children_insert hdistinct hthing hparent hholder
  parent := h.parent_insert hthing hparent hholder
  alone := h.alone_insert hthing hparent

end Insertion

end LinkedBelow

/-! ## Operations that leave the tree alone -/

/-- The view shows nothing of symbols, operands, routines, debug information and the log. -/
def OnlyData {τ : Type} (view : Story → τ) : Prop :=
  ∀ s symbols pool routines entryPoint registry log,
    view { s with symbols, pool, routines, entryPoint, registry, log } = view s

theorem onlyData_nodes : OnlyData Story.nodes := fun _ _ _ _ _ _ _ => rfl

theorem keeps_emit {α τ : Type} {view : Story → τ} {operation : StoryM α} (h : Keeps view operation) :
    Keeps view (emit operation) :=
  fun s a s' hy => h s a s' (yields_emit.mp hy)

section Data

variable {τ : Type} {view : Story → τ} (hview : OnlyData view)
include hview

theorem keeps_report (event : Log.Event) : Keeps view (emit (Story.report event)) :=
  keeps_emit (.modify fun s => hview s _ _ _ _ _ _)

omit hview in
theorem keeps_find {ι : Type} (handles : Handles ι) (role : Role) (name : String) :
    Keeps view (find handles role name) := by
  unfold find
  split
  · exact .pure _
  · exact .throw _

theorem keeps_resolve (value : Value) : Keeps view (resolve value) := by
  cases value with
  | number value =>
    exact .bind (keeps_emit (.modifyGet fun s => hview s _ _ _ _ _ _)) fun _ => .pure _
  | symbol name =>
    refine .bind .get fun story => ?_
    split
    · exact .pure _
    · exact .throw _

theorem keeps_slotValue (slot : Slot) : Keeps view (slotValue slot) := by
  unfold slotValue
  cases slot.value with
  | none => exact .pure none
  | some value => exact .bind (keeps_resolve hview value) fun _ => .pure _

theorem keeps_onRoutine {α : Type} (id : RoutineId) (operation : RoutineM α) :
    Keeps view (Story.onRoutine id operation) := by
  intro s a s' h
  rw [Yields, Story.onRoutine, run_run_get_bind] at h
  cases hget : s.routines[id.index]? with
  | none =>
    simp only [hget] at h
    cases h
  | some routine =>
    simp only [hget] at h
    rcases hrun : operation.run.run routine with ⟨error | value, routine'⟩
    · rw [hrun] at h
      cases h
    · rw [hrun] at h
      cases h
      exact hview s _ _ _ _ _ _

theorem keeps_finishRoutine (id : RoutineId) : Keeps view (Story.finishRoutine id) := by
  intro s a s' h
  have hrun := (Story.run_finishRoutine_eq id s).symm.trans h
  obtain ⟨-, -, rfl⟩ := settled_eq_ok.mp hrun
  simp only [Story.Call.changed]
  split
  · rfl
  · exact hview s _ _ _ _ _ _

theorem keeps_greet (greeting : String) (debug : Bool) (source : String) :
    Keeps view (greet greeting debug source) := by
  have hend : ∀ go : RoutineId, Keeps view (do
      Story.onRoutine go do
        Routine.emit (.printText greeting)
        Routine.emit .newLine
        Routine.emit (.nullary .quit none)
      Story.finishRoutine go) :=
    fun go => .bind (keeps_onRoutine hview go _) fun _ => keeps_finishRoutine hview go
  have hdefine : Keeps view (Story.defineRoutine "GO" true false) := by
    intro s id s' h
    obtain ⟨-, rfl⟩ := Definition.eq_record_of_outcome ((Story.run_defineRoutine s _ _ _).symm.trans h)
    exact hview s _ _ _ _ _ _
  refine .bind hdefine fun go => ?_
  cases debug with
  | false => exact hend go
  | true =>
    refine .bind (keeps_onRoutine hview go _) fun _ => ?_
    refine .bind ?_ fun _ => .bind (.modifyGet fun s => hview s _ _ _ _ _ _) fun _ => hend go
    refine .bind .get fun story => ?_
    split
    · exact .bind (.modifyGet fun s => hview s _ _ _ _ _ _) fun _ => keeps_onRoutine hview go _
    · exact .pure _

end Data

theorem keeps_define {ι : Type} {define : StoryM ι} {definition : Definition} {handle : Story → ι}
    (hrun : ∀ s, define.run.run s = definition.outcome s (handle s))
    (hobject : ∀ name, definition ≠ .object name) : Keeps Story.nodes define := by
  intro s id s' h
  obtain ⟨-, rfl⟩ := Definition.eq_record_of_outcome ((hrun s).symm.trans h)
  cases definition with
  | object name => exact absurd rfl (hobject name)
  | _ => rfl

theorem keeps_defineEach {ι : Type} {define : String → StoryM ι}
    (h : ∀ name, Keeps Story.nodes (define name)) (names : List String) :
    Keeps Story.nodes (defineEach define names) :=
  .mapM (fun name => keeps_emit (h name)) names

theorem keeps_defaults {ι : Type} {ids : List ι} {slots : List Slot}
    {f : ι → Option Operand → StoryM Unit} (hf : ∀ id value, Keeps Story.nodes (f id value)) :
    Keeps Story.nodes (forIn (ids.zip slots) PUnit.unit fun (id, slot) _ => do
      let value ← slotValue slot
      emit (f id value)
      return .yield PUnit.unit) := by
  apply Keeps.forIn
  rintro ⟨id, slot⟩ _
  exact .bind (keeps_slotValue onlyData_nodes slot) fun value =>
    .bind (keeps_emit (hf id value)) fun _ => .pure _

theorem keeps_constants (constants : List (String × Value)) :
    Keeps Story.nodes (forIn constants PUnit.unit fun (name, value) _ => do
      let operand ← resolve value
      let _ ← emit (Story.defineConstant name operand)
      return .yield PUnit.unit) := by
  apply Keeps.forIn
  rintro ⟨name, value⟩ _
  refine .bind (keeps_resolve onlyData_nodes value) fun operand => ?_
  have hdefine : Keeps Story.nodes (Story.defineConstant name operand) :=
    keeps_define (Story.run_defineConstant · name operand) nofun
  exact .bind (keeps_emit hdefine) fun _ => .pure _

theorem keeps_addWordProperty (id : ObjectId) (property : PropertyId) (value : Operand) :
    Keeps Story.nodes (Story.addWordProperty id property value) := by
  intro s a s' h
  have hrun := (Story.run_addProperty id property (.word value) s).symm.trans h
  obtain ⟨-, -, rfl⟩ := settled_eq_ok.mp hrun
  apply Story.nodes_modify
  exact fun _ => rfl

/-! ## Definitions -/

variable {settings : BuildSettings} {source : String} {s s' story : Story}

/-- A kind of definitions by name, where the view of a story has a list for them. What a definition adds goes
to the end of the list. -/
structure Kind {σ : Type} (view : Story → σ) (ι τ : Type) where
  define : String → StoryM ι
  definition : String → Definition
  handle : Story → ι
  place : ι → Nat
  /-- The list of the kind. -/
  get : σ → List τ
  put : σ → List τ → σ
  /-- What the definition with a name and a place adds. -/
  entry : σ → String → Nat → τ
  run_define : ∀ name s, (define name).run.run s = (definition name).outcome s (handle s)
  view_record : ∀ name s, view ((definition name).record s) =
    put (view s) (get (view s) ++ [entry (view s) name (get (view s)).length])
  place_handle : ∀ s, place (handle s) = (get (view s)).length
  get_put : ∀ part list, get (put part list) = list := by intros; rfl
  put_put : ∀ part list list', put (put part list) list' = put part list' := by intros; rfl
  put_get : ∀ part, put part (get part) = part := by intros; rfl
  entry_put : ∀ part list, entry (put part list) = entry part := by intros; rfl

namespace Kind

variable {σ ι τ : Type} {view : Story → σ} (kind : Kind view ι τ) {names : List String} {ids : List ι}

/-- Definitions of one kind, one after the other. -/
theorem view_of_defineEach (h : Yields (defineEach kind.define names) s ids s') :
    view s' = kind.put (view s) (kind.get (view s) ++
        (names.zipIdx (kind.get (view s)).length).map fun (name, index) =>
          kind.entry (view s) name index) ∧
      ids.map kind.place = List.range' (kind.get (view s)).length names.length := by
  induction names generalizing s ids with
  | nil =>
    cases h
    refine ⟨?_, rfl⟩
    rw [List.zipIdx_nil, List.map_nil, List.append_nil, kind.put_get]
  | cons name names ih =>
    rw [defineEach, List.mapM_cons] at h
    obtain ⟨id, m, hfirst, h⟩ := yields_bind.mp h
    obtain ⟨ids, m', hrest, h⟩ := yields_bind.mp h
    cases h
    obtain ⟨rfl, rfl⟩ :=
      Definition.eq_record_of_outcome ((kind.run_define name s).symm.trans (yields_emit.mp hfirst))
    obtain ⟨hview, hids⟩ := ih hrest
    rw [kind.view_record, kind.get_put, List.length_append, List.length_singleton] at hview hids
    constructor
    · rw [hview, kind.put_put, kind.entry_put, List.append_assoc, List.singleton_append]
      rfl
    · rw [List.map_cons, kind.place_handle, hids, List.length_cons, List.range'_succ]

/-- The first definitions of a kind. -/
theorem view_of_defineAll (h : Yields (defineEach kind.define names) s ids s')
    (hempty : kind.get (view s) = []) :
    view s' = kind.put (view s) (names.zipIdx.map fun (name, index) =>
        kind.entry (view s) name index) ∧
      ids.map kind.place = List.range names.length := by
  have hall := kind.view_of_defineEach h
  rwa [hempty, List.nil_append, List.length_nil, ← List.range_eq_range'] at hall

/-- Objects, as nodes of the tree. -/
def node : Kind Story.nodes ObjectId Object.Node where
  define := Story.defineObject
  definition := Definition.object
  handle s := ⟨s.objects.size⟩
  place := ObjectId.index
  get := id
  put _ nodes := nodes
  entry _ name _ := { name := Symbol.ofName name }
  run_define name s := Story.run_defineObject s name
  view_record := by simp [Story.nodes, Definition.record, Definition.claimed, Definition.symbol, Object.node]
  place_handle := by simp [Story.nodes]

end Kind

theorem map_zipIdx_fst {ι τ : Type} (f : ι → τ) (xs : List ι) :
    (xs.zipIdx.map fun (x, _) => f x) = xs.map f := by
  nth_rewrite 2 [← List.zipIdx_map_fst 0 xs]
  rw [List.map_map]
  rfl

/-! ## The build -/

/-- Describing an object puts it into the object that it names, if it names one. -/
theorem nodes_of_describe {defined : Defined} {id : ObjectId} {thing : Thing} {a : Unit}
    (h : Yields (describe defined id thing) s a s') :
    (thing.parent = none ∧ s'.nodes = s.nodes) ∨
      ∃ name holder, thing.parent = some name ∧ defined.objects[Symbol.ofName name]? = some holder ∧
        s'.nodes = Object.insert s.nodes id holder := by
  obtain ⟨_, described, hdescription, h⟩ := yields_bind.mp h
  obtain ⟨_, flagged, hflags, h⟩ := yields_bind.mp h
  obtain ⟨_, given, hproperties, h⟩ := yields_bind.mp h
  have hchange : ∀ (change : Object → Object), (∀ object, (change object).node = object.node) →
      Keeps Story.nodes (emit (Story.modifyObject id change)) :=
    fun change hnode => keeps_emit (.modify fun story => Story.nodes_modify hnode story id.index)
  have hkept : given.nodes = s.nodes := by
    rw [Keeps.forIn (fun entry _ => .bind (keeps_find _ _ _) fun property =>
        .bind (keeps_resolve onlyData_nodes _) fun operand =>
          .bind (keeps_emit (keeps_addWordProperty id property operand)) fun _ => .pure _)
        _ _ _ _ _ hproperties,
      Keeps.forIn (fun name _ => .bind (keeps_find _ _ _) fun flag =>
        .bind (hchange (·.setFlag flag) fun _ => rfl) fun _ => .pure _) _ _ _ _ _ hflags,
      hchange (fun object => { object with description := thing.description }) (fun _ => rfl) _ _ _
        hdescription]
  cases hparent : thing.parent with
  | none =>
    simp only [hparent] at h
    cases h
    exact .inl ⟨rfl, hkept⟩
  | some name =>
    simp only [hparent] at h
    obtain ⟨holder, m, hfind, hinsert⟩ := yields_bind.mp h
    obtain ⟨rfl, hget⟩ := (decides_find _ _ _ _).post_of_yields hfind
    refine .inr ⟨name, holder, rfl, hget, ?_⟩
    rw [Story.nodes_of_insertInto (yields_emit.mp hinsert), hkept]

/-- The handle of a name is the one of the object with its symbol. -/
theorem getElem?_objectSymbols_of_handlesOf {name : String} {holder : ObjectId}
    (h : (handlesOf (manifest.objects.map (·.name))
      ((List.range manifest.objects.length).map ObjectId.mk))[Symbol.ofName name]? = some holder) :
    manifest.objectSymbols[holder.index]? = some (Symbol.ofName name) := by
  obtain ⟨name', hmem, hsymbol⟩ := getElem?_handlesOf h
  obtain ⟨index, -, hname, rfl⟩ := exists_of_mem_zip_range hmem
  rw [List.getElem?_map] at hname
  obtain ⟨thing, hthing, rfl⟩ := Option.map_eq_some_iff.mp hname
  rw [getElem?_objectSymbols hthing, hsymbol]

/-- All objects are described, one after the other. -/
theorem linkedBelow_of_describe {defined : Defined} {a : PUnit}
    (hdefined : defined.objects = handlesOf (manifest.objects.map (·.name))
      ((List.range manifest.objects.length).map ObjectId.mk))
    (hdistinct : manifest.objectSymbols.Nodup)
    (hs : s.nodes = manifest.objectSymbols.map fun symbol => { name := symbol })
    (h : Yields (forIn (((List.range manifest.objects.length).map ObjectId.mk).zip manifest.objects)
      PUnit.unit fun (id, thing) _ => do
        describe defined id thing
        return .yield PUnit.unit) s a s') :
    LinkedBelow manifest manifest.objects.length s'.nodes := by
  have hturn : ∀ before x after,
      ((List.range manifest.objects.length).map ObjectId.mk).zip manifest.objects =
        before ++ x :: after → ∀ s step s', LinkedBelow manifest before.length s.nodes →
      Yields (do
        describe defined x.1 x.2
        return ForInStep.yield PUnit.unit : BuildM (ForInStep PUnit)) s step s' →
      step = .yield ⟨⟩ ∧ LinkedBelow manifest (before ++ [x]).length s'.nodes := by
    rintro before ⟨⟨index⟩, thing⟩ after hsplit s step s' hbefore hturn
    obtain ⟨rfl, hthing⟩ := turn_of_zip ObjectId.index (map_index_map_mk _) hsplit
    obtain ⟨_, m, hdescribe, hyield⟩ := yields_bind.mp hturn
    cases hyield
    refine ⟨rfl, ?_⟩
    rw [List.length_append, List.length_singleton]
    rcases nodes_of_describe hdescribe with ⟨hparent, hnodes⟩ | ⟨name, holder, hparent, hget, hnodes⟩
    · rw [hnodes]
      exact hbefore.skip hthing hparent
    · rw [hdefined] at hget
      rw [hnodes]
      exact hbefore.insert hdistinct hthing hparent (getElem?_objectSymbols_of_handlesOf hget)
  have hall := yields_forIn (I := fun before s => LinkedBelow manifest before.length s.nodes) hturn
    (.zero hs) h
  rwa [List.length_zip, List.length_map, List.length_range, Nat.min_self] at hall

theorem linkedBelow_of_define (hdistinct : manifest.objectSymbols.Nodup) (hs : s.objects = #[])
    (h : Yields (manifest.define settings source) s () story) :
    LinkedBelow manifest manifest.objects.length story.nodes := by
  obtain ⟨_, _, hget, h⟩ := yields_bind.mp h
  cases hget
  obtain ⟨_, reported, hreport, h⟩ := yields_bind.mp h
  obtain ⟨flags, withFlags, hflags, h⟩ := yields_bind.mp h
  obtain ⟨properties, withProperties, hproperties, h⟩ := yields_bind.mp h
  obtain ⟨objects, withObjects, hobjects, h⟩ := yields_bind.mp h
  obtain ⟨globals, withGlobals, hglobals, h⟩ := yields_bind.mp h
  obtain ⟨_, withWords, hwords, h⟩ := yields_bind.mp h
  obtain ⟨_, withConstants, hconstants, h⟩ := yields_bind.mp h
  obtain ⟨_, withDefaults, hdefaults, h⟩ := yields_bind.mp h
  obtain ⟨_, withValues, hvalues, h⟩ := yields_bind.mp h
  obtain ⟨_, linked, hlinks, hgreet⟩ := yields_bind.mp h
  have hbefore : withProperties.nodes = s.nodes := by
    rw [keeps_defineEach (fun name => keeps_define (Story.run_defineProperty · name) (by simp)) _ _ _ _
        hproperties,
      keeps_defineEach (fun name => keeps_define (Story.run_defineFlag · name) (by simp)) _ _ _ _ hflags,
      keeps_report onlyData_nodes _ _ _ _ hreport]
  have hempty : withProperties.nodes = [] := by
    rw [hbefore, Story.nodes, hs]
    rfl
  obtain ⟨hwithObjects, hplaces⟩ := Kind.node.view_of_defineAll hobjects hempty
  have hglobal : ∀ (id : GlobalId) (value : Option Operand),
      Keeps Story.nodes (Story.modifyGlobal id fun global => { global with value }) :=
    fun _ _ => .modify fun _ => rfl
  have hproperty : ∀ (id : PropertyId) (value : Option Operand),
      Keeps Story.nodes (Story.modifyProperty id fun property => { property with value }) :=
    fun _ _ => .modify fun _ => rfl
  have hafter : withValues.nodes = withObjects.nodes := by
    rw [keeps_defaults hglobal _ _ _ hvalues, keeps_defaults hproperty _ _ _ hdefaults,
      keeps_constants _ _ _ _ hconstants,
      keeps_defineEach (fun text => keeps_define (Story.run_defineWord · text) (by simp)) _ _ _ _ hwords,
      keeps_defineEach (fun name => keeps_define (Story.run_defineGlobal · name) (by simp)) _ _ _ _
        hglobals]
  have hstart : withValues.nodes = manifest.objectSymbols.map fun symbol => { name := symbol } := by
    have hbare := map_zipIdx_fst (Kind.node.entry [] · 0) (manifest.objects.map (·.name))
    rw [List.map_map] at hbare
    rw [hafter, hwithObjects, objectSymbols, List.map_map]
    exact hbare
  obtain rfl : objects = (List.range manifest.objects.length).map ObjectId.mk := by
    have hmap := congrArg (List.map ObjectId.mk) hplaces
    rwa [List.length_map, List.map_map, show ObjectId.mk ∘ Kind.node.place = id from rfl, List.map_id] at hmap
  rw [keeps_emit (keeps_greet onlyData_nodes _ _ _) _ _ _ hgreet]
  exact linkedBelow_of_describe rfl hdistinct hstart hlinks

/-- A manifest that was built is well-formed for the version. -/
theorem exists_wellFormed_of_story (h : manifest.story settings source = .ok story) :
    ∃ version, Version.ofInt settings.version = .ok version ∧ manifest.WellFormed version := by
  cases hversion : Version.ofInt settings.version with
  | error error =>
    unfold Manifest.story Story.new at h
    rw [hversion] at h
    cases h
  | ok version =>
    have hy := (manifest.story_eq_ok_iff hversion).mp h
    have hbuild := manifest.decides_build settings source (.new version settings.debug)
    exact ⟨version, rfl, hbuild.2 ⟨(), story, hy⟩⟩

theorem linkedBelow_of_story (h : manifest.story settings source = .ok story) :
    manifest.objectSymbols.Nodup ∧ LinkedBelow manifest manifest.objects.length story.nodes := by
  obtain ⟨version, hversion, hwf⟩ := exists_wellFormed_of_story h
  have hdistinct := (List.nodup_append.mp (manifest.wellFormed_iff.mp hwf).2.2.1.2).2.1
  exact ⟨hdistinct, linkedBelow_of_define hdistinct rfl ((manifest.story_eq_ok_iff hversion).mp h)⟩

/-- A manifest of objects alone is built if their symbols are distinct and their parents are among
them. -/
theorem exists_story_of_objects (game : Game) (things : List Thing) (source : String)
    (hdistinct : (things.map (Symbol.ofName ·.name) ++ ["GO"]).Nodup) (hroom : things.length ≤ 255)
    (hflags : ∀ thing ∈ things, thing.flags = [])
    (hproperties : ∀ thing ∈ things, thing.properties = {})
    (hparents : ∀ thing ∈ things, ∀ name ∈ thing.parent,
      Symbol.ofName name ∈ things.map (Symbol.ofName ·.name)) :
    ∃ story, Manifest.story { game, objects := things } {} source = .ok story := by
  have hsymbols : Manifest.symbols { game, objects := things } =
      things.map (Symbol.ofName ·.name) := by
    show ([] ++ [] ++ things.map _ ++ [] ++ [] ++ [] : List String) = _
    simp only [List.nil_append, List.append_nil]
  have hversion : Version.ofInt 3 = .ok ⟨3, by decide, by decide⟩ := rfl
  have hwf : WellFormed { game, objects := things } ⟨3, by decide, by decide⟩ := by
    refine ⟨?_, Nat.zero_le _, Nat.zero_le _, hroom, Nat.zero_le _, nofun, nofun, nofun, ?_⟩
    · rwa [hsymbols]
    · intro thing hmem
      refine ⟨?_, ?_, ?_, ?_, hparents thing hmem⟩
      · rw [hflags thing hmem]
        exact nofun
      · rw [hproperties thing hmem]
        exact nofun
      · rw [hproperties thing hmem]
        exact nofun
      · rw [hproperties thing hmem]
        exact .nil
  have hbuild := decides_build { game, objects := things } {} source
    (.new ⟨3, by decide, by decide⟩ false)
  obtain ⟨_, story, hy, -⟩ := hbuild.1 hwf
  exact ⟨story, (story_eq_ok_iff _ hversion).mpr hy⟩

/-! ## The tree -/

/-- The objects of the story are linked as the manifest says. -/
structure Linked (manifest : Manifest) (story : Story) : Prop where
  names : story.objects.toList.map (·.name) = manifest.objectSymbols
  distinct : manifest.objectSymbols.Nodup
  /-- From the first child of an object on, the links to siblings lead through the objects inside it, the
  last one of the manifest first, each once, and then end. -/
  children : ∀ {index : Nat} {object : Object} {holder : Thing}, story.objects[index]? = some object →
    manifest.objects[index]? = some holder →
      (inside manifest.objects (Symbol.ofName holder.name)).Nodup ∧
        Object.Siblings story.nodes object.child
          (inside manifest.objects (Symbol.ofName holder.name)).reverse
  parent : ∀ {index : Nat} {object : Object} {thing : Thing} {name : String},
    story.objects[index]? = some object → manifest.objects[index]? = some thing →
      thing.parent = some name → ∃ (holder : ObjectId) (parent : Object),
        object.parent = some holder ∧ story.objects[holder.index]? = some parent ∧
          parent.name = Symbol.ofName name
  alone : ∀ {index : Nat} {object : Object} {thing : Thing}, story.objects[index]? = some object →
    manifest.objects[index]? = some thing → thing.parent = none →
      object.parent = none ∧ object.sibling = none

/-- The objects of a story that was built are linked as the manifest says. -/
theorem linked_of_story (h : manifest.story settings source = .ok story) : manifest.Linked story := by
  obtain ⟨hdistinct, hlinked⟩ := linkedBelow_of_story h
  have hnode : ∀ {index : Nat} {object : Object}, story.objects[index]? = some object →
      story.nodes[index]? = some object.node := by
    intro index object hget
    rw [Story.getElem?_nodes, hget, Option.map_some]
  have hnames : story.objects.toList.map (·.name) = manifest.objectSymbols := by
    rw [← hlinked.names, Story.nodes, List.map_map]
    rfl
  refine ⟨hnames, hdistinct, ?_, ?_, ?_⟩
  · intro index object holder hget hholder
    have hname : object.name = Symbol.ofName holder.name := by
      have hsymbol := hlinked.getElem?_name (hnode hget)
      rw [getElem?_objectSymbols hholder] at hsymbol
      exact (Option.some.inj hsymbol).symm
    have hchildren := hlinked.children (hnode hget)
    rw [List.take_length] at hchildren
    rw [← hname]
    exact ⟨nodup_inside _ _, hchildren⟩
  · intro index object thing name hget hthing hname
    have hlt := (List.getElem?_eq_some_iff.mp hthing).1
    obtain ⟨holder, parent, hlink, hparent, hsymbol⟩ := hlinked.parent (hnode hget) hlt hthing hname
    rw [Story.getElem?_nodes] at hparent
    obtain ⟨outer, houter, rfl⟩ := Option.map_eq_some_iff.mp hparent
    exact ⟨holder, outer, hlink, houter, hsymbol⟩
  · intro index object thing hget hthing hname
    exact hlinked.alone (hnode hget) hthing (.inr hname)

/-- A room with things in it, which one of them names by its symbol. -/
theorem linked_of_story_room :
    ∃ (manifest : Manifest) (story : Story),
      manifest.objects.map (fun thing => (thing.name, thing.parent)) =
        [("my room", none), ("BAR", some "my$0020room"), ("HOOK", some "BAR"),
          ("CLOAK", some "my room")] ∧
      manifest.story {} "zapgen.toml" = .ok story ∧ manifest.Linked story := by
  obtain ⟨story, h⟩ := exists_story_of_objects { name := "cloak" }
    [{ name := "my room" }, { name := "BAR", parent := some "my$0020room" },
      { name := "HOOK", parent := some "BAR" }, { name := "CLOAK", parent := some "my room" }]
    "zapgen.toml" (by decide) (by decide) (by decide) (by simp) (by decide)
  exact ⟨_, story, rfl, h, linked_of_story h⟩

/-! ## Roots -/

/-- The parents that are named, starting with that of the thing, lead to a thing without a parent. -/
inductive Rooted (manifest : Manifest) : Thing → Prop where
  | root {thing : Thing} : thing.parent = none → Rooted manifest thing
  | step {thing holder : Thing} {name : String} : thing.parent = some name →
    holder ∈ manifest.objects → Symbol.ofName holder.name = Symbol.ofName name →
      Rooted manifest holder → Rooted manifest thing

namespace LinkedBelow

variable {nodes : List Object.Node}

/-- The object that an object names is the one that it is linked to. -/
theorem exists_parent (h : LinkedBelow manifest manifest.objects.length nodes) {index : Nat}
    {node : Object.Node} {thing : Thing} {name : String} (hnode : nodes[index]? = some node)
    (hthing : manifest.objects[index]? = some thing) (hname : thing.parent = some name) :
    ∃ (holder : ObjectId) (outer : Thing), node.parent = some holder ∧
      manifest.objects[holder.index]? = some outer ∧ Symbol.ofName outer.name = Symbol.ofName name := by
  have hlt := (List.getElem?_eq_some_iff.mp hthing).1
  obtain ⟨holder, parent, hlink, hparent, hsymbol⟩ := h.parent hnode hlt hthing hname
  have hget := h.getElem?_name hparent
  rw [hsymbol, objectSymbols, List.getElem?_map] at hget
  obtain ⟨outer, houter, hsame⟩ := Option.map_eq_some_iff.mp hget
  exact ⟨holder, outer, hlink, houter, hsame⟩

theorem rooted_of_reachesRoot (h : LinkedBelow manifest manifest.objects.length nodes) {id : ObjectId}
    (hreaches : Object.ReachesRoot nodes id) {thing : Thing}
    (hthing : manifest.objects[id.index]? = some thing) : manifest.Rooted thing := by
  induction hreaches generalizing thing with
  | root hnode hnone =>
    cases hname : thing.parent with
    | none => exact .root hname
    | some name =>
      obtain ⟨holder, -, hlink, -⟩ := h.exists_parent hnode hthing hname
      rw [hnone] at hlink
      cases hlink
  | step hnode hsome _ ih =>
    cases hname : thing.parent with
    | none => exact .root hname
    | some name =>
      obtain ⟨holder, outer, hlink, houter, hsame⟩ := h.exists_parent hnode hthing hname
      cases hsome.symm.trans hlink
      exact .step hname (List.mem_of_getElem? houter) hsame (ih houter)

theorem reachesRoot_of_rooted (h : LinkedBelow manifest manifest.objects.length nodes)
    (hdistinct : manifest.objectSymbols.Nodup) {thing : Thing} (hrooted : manifest.Rooted thing)
    {id : ObjectId} (hthing : manifest.objects[id.index]? = some thing) :
    Object.ReachesRoot nodes id := by
  induction hrooted generalizing id with
  | root hnone =>
    obtain ⟨node, hnode, -⟩ := h.exists_node (getElem?_objectSymbols hthing)
    exact .root hnode (h.alone hnode hthing (.inr hnone)).1
  | step hname hmem hsame _ ih =>
    obtain ⟨node, hnode, -⟩ := h.exists_node (getElem?_objectSymbols hthing)
    obtain ⟨holder, outer, hlink, houter, hsame'⟩ := h.exists_parent hnode hthing hname
    -- Symbols are distinct, so the thing that is named is the one that is linked to.
    obtain ⟨place, hplace⟩ := List.mem_iff_getElem?.mp hmem
    have hnamed := getElem?_objectSymbols hplace
    have hlinked := getElem?_objectSymbols houter
    rw [hsame] at hnamed
    rw [hsame'] at hlinked
    obtain rfl := index_eq_of_symbol hdistinct hnamed hlinked
    exact .step hnode hlink (ih hplace)

end LinkedBelow

/-- The links to parents lead from an object to an end if and only if the manifest says so. -/
theorem reachesRoot_iff_rooted (h : manifest.story settings source = .ok story) {id : ObjectId}
    {thing : Thing} (hthing : manifest.objects[id.index]? = some thing) :
    Object.ReachesRoot story.nodes id ↔ manifest.Rooted thing := by
  obtain ⟨hdistinct, hlinked⟩ := linkedBelow_of_story h
  constructor
  · intro hreaches
    exact hlinked.rooted_of_reachesRoot hreaches hthing
  · intro hrooted
    exact hlinked.reachesRoot_of_rooted hdistinct hrooted hthing

/-- A hook in a bar in the foyer, which is defined after them. -/
theorem reachesRoot_hook :
    ∃ (manifest : Manifest) (story : Story) (hook : Thing),
      manifest.objects.map (fun thing => (thing.name, thing.parent)) =
        [("HOOK", some "BAR"), ("BAR", some "FOYER"), ("FOYER", none)] ∧
      manifest.story {} "zapgen.toml" = .ok story ∧ manifest.objects[0]? = some hook ∧
      manifest.Rooted hook ∧ Object.ReachesRoot story.nodes ⟨0⟩ := by
  obtain ⟨story, h⟩ := exists_story_of_objects { name := "cloak" }
    [{ name := "HOOK", parent := some "BAR" }, { name := "BAR", parent := some "FOYER" },
      { name := "FOYER" }]
    "zapgen.toml" (by decide) (by decide) (by decide) (by simp) (by decide)
  suffices hrooted : Rooted _ _ from
    ⟨_, story, _, rfl, h, rfl, hrooted, (reachesRoot_iff_rooted h rfl).mpr hrooted⟩
  refine .step rfl (.tail _ (.head _)) rfl ?_
  refine .step rfl (.tail _ (.tail _ (.head _))) rfl ?_
  exact .root rfl

/-- Where every object has a parent, there is no root. -/
theorem not_rooted_of_parents (hparents : ∀ thing ∈ manifest.objects, thing.parent ≠ none) {thing : Thing}
    (hmem : thing ∈ manifest.objects) : ¬manifest.Rooted thing := by
  intro hrooted
  induction hrooted with
  | root hnone => exact hparents _ hmem hnone
  | step _ hholder _ _ ih => exact ih hholder

/-- A box that is inside itself makes a story, and the links to parents never lead to an end. -/
theorem not_reachesRoot_boxInItself :
    ∃ (manifest : Manifest) (story : Story),
      manifest.objects.map (fun thing => (thing.name, thing.parent)) = [("BOX", some "BOX")] ∧
      manifest.story {} "zapgen.toml" = .ok story ∧ story.objects.size = 1 ∧
      ¬Object.ReachesRoot story.nodes ⟨0⟩ := by
  obtain ⟨story, h⟩ := exists_story_of_objects { name := "loop" } [{ name := "BOX", parent := some "BOX" }]
    "zapgen.toml" (by decide) (by decide) (by decide) (by simp) (by decide)
  obtain ⟨-, hlinked⟩ := linkedBelow_of_story h
  refine ⟨_, story, rfl, h, ?_, ?_⟩
  · simpa [Story.nodes, objectSymbols] using congrArg List.length hlinked.names
  · intro hreaches
    refine not_rooted_of_parents ?_ List.mem_cons_self (hlinked.rooted_of_reachesRoot hreaches rfl)
    simp

end StoryAsm.Manifest
