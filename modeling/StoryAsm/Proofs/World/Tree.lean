import StoryAsm.Proofs.Operation
import StoryAsm.Story.Basic

/-!
# The tree of objects

An object is linked to its parent, to its first child and to its next sibling (`Object.Node`). From a
first child on, the links to siblings may lead through a list of objects to an end (`Object.Siblings`), and
so may the links to parents (`Object.ReachesRoot`). Making an object the first child of another puts it in
front of the children that are there (`Object.Siblings.insert_cons`).
-/

namespace StoryAsm

namespace Object

/-- An object as a node of the tree. -/
structure Node where
  name : String
  parent : Option ObjectId := none
  child : Option ObjectId := none
  sibling : Option ObjectId := none

def node (object : Object) : Node where
  name := object.name
  parent := object.parent
  child := object.child
  sibling := object.sibling

/-- From a link on, the links to siblings lead through the objects to an end. -/
inductive Siblings (nodes : List Node) : Option ObjectId → List ObjectId → Prop where
  | nil : Siblings nodes none []
  | cons {id : ObjectId} {node : Node} {ids : List ObjectId} :
    nodes[id.index]? = some node → Siblings nodes node.sibling ids →
      Siblings nodes (some id) (id :: ids)

/-- The links to parents lead to an object without a parent. -/
inductive ReachesRoot (nodes : List Node) : ObjectId → Prop where
  | root {id : ObjectId} {node : Node} :
    nodes[id.index]? = some node → node.parent = none → ReachesRoot nodes id
  | step {id parent : ObjectId} {node : Node} :
    nodes[id.index]? = some node → node.parent = some parent → ReachesRoot nodes parent →
      ReachesRoot nodes id

/-- Make an object the first child of another. -/
def insert (nodes : List Node) (child parent : ObjectId) : List Node :=
  (nodes.modify child.index fun node =>
    { node with parent := some parent, sibling := (nodes[parent.index]?).bind (·.child) }).modify
      parent.index fun node => { node with child := some child }

variable {nodes nodes' : List Node} {child parent : ObjectId}

/-- What becomes of a node by an insertion. -/
structure Inserted (nodes : List Node) (id holder : ObjectId) (index : Nat) (node node' : Node) :
    Prop where
  name : node'.name = node.name
  parent : node'.parent = if id.index = index then some holder else node.parent
  child : node'.child = if holder.index = index then some id else node.child
  sibling : node'.sibling =
    if id.index = index then (nodes[holder.index]?).bind (·.child) else node.sibling

theorem exists_insert (child parent : ObjectId) {index : Nat} {node : Node}
    (h : nodes[index]? = some node) :
    ∃ node', (insert nodes child parent)[index]? = some node' ∧
      Inserted nodes child parent index node node' := by
  simp only [insert, List.getElem?_modify, h]
  by_cases hchild : child.index = index <;> by_cases hparent : parent.index = index <;>
    exact ⟨_, rfl, by constructor <;> simp [hchild, hparent]⟩

theorem exists_of_insert {index : Nat} {node' : Node}
    (h : (insert nodes child parent)[index]? = some node') :
    ∃ node, nodes[index]? = some node ∧ Inserted nodes child parent index node node' := by
  have hlt : index < nodes.length := by
    simpa [insert] using (List.getElem?_eq_some_iff.mp h).1
  have hnode : nodes[index]? = some nodes[index] := List.getElem?_eq_getElem hlt
  obtain ⟨node'', hnode'', hinserted⟩ := exists_insert child parent hnode
  cases h.symm.trans hnode''
  exact ⟨_, hnode, hinserted⟩

theorem map_name_insert (nodes : List Node) (child parent : ObjectId) :
    (insert nodes child parent).map (·.name) = nodes.map (·.name) := by
  apply List.ext_getElem?
  intro index
  rw [List.getElem?_map, List.getElem?_map]
  cases h : nodes[index]? with
  | none =>
    have hnone : (insert nodes child parent)[index]? = none := by
      simpa [insert] using h
    rw [hnone]
  | some node =>
    obtain ⟨node', hnode', hinserted⟩ := exists_insert child parent h
    rw [hnode', Option.map_some, Option.map_some, hinserted.name]

theorem Siblings.congr {first : Option ObjectId} {ids : List ObjectId}
    (h : Siblings nodes first ids)
    (hsame : ∀ id ∈ ids, ∀ node, nodes[id.index]? = some node →
      ∃ node', nodes'[id.index]? = some node' ∧ node'.sibling = node.sibling) :
    Siblings nodes' first ids := by
  induction h with
  | nil => exact .nil
  | cons hnode _ ih =>
    obtain ⟨node', hnode', hsibling⟩ := hsame _ List.mem_cons_self _ hnode
    refine .cons hnode' ?_
    rw [hsibling]
    exact ih fun id hmem => hsame id (List.mem_cons_of_mem _ hmem)

/-- Siblings that the new child is not among stay as they are. -/
theorem Siblings.insert {first : Option ObjectId} {ids : List ObjectId}
    (h : Siblings nodes first ids) (hchild : child ∉ ids) (parent : ObjectId) :
    Siblings (Object.insert nodes child parent) first ids := by
  refine h.congr fun id hmem node hnode => ?_
  obtain ⟨node', hnode', hinserted⟩ := exists_insert child parent hnode
  refine ⟨node', hnode', ?_⟩
  have hne : child.index ≠ id.index := by
    intro heq
    cases child
    cases id
    cases heq
    exact hchild hmem
  rw [hinserted.sibling, if_neg hne]

/-- The new child comes before the children that were there. -/
theorem Siblings.insert_cons {node holder : Node} {ids : List ObjectId}
    (hnode : nodes[child.index]? = some node) (hholder : nodes[parent.index]? = some holder)
    (h : Siblings nodes holder.child ids) (hchild : child ∉ ids) :
    Siblings (Object.insert nodes child parent) (some child) (child :: ids) := by
  obtain ⟨node', hnode', hinserted⟩ := exists_insert child parent hnode
  refine .cons hnode' ?_
  rw [hinserted.sibling, if_pos rfl, hholder]
  exact h.insert hchild parent

end Object

namespace Story

def nodes (story : Story) : List Object.Node :=
  story.objects.toList.map (·.node)

theorem getElem?_nodes (story : Story) (index : Nat) :
    story.nodes[index]? = (story.objects[index]?).map (·.node) := by
  rw [nodes, List.getElem?_map, Array.getElem?_toList]

/-- A change of an object that its node does not show. -/
theorem nodes_modify {change : Object → Object} (hchange : ∀ object, (change object).node = object.node)
    (story : Story) (index : Nat) :
    nodes { story with objects := story.objects.modify index change } = story.nodes := by
  apply List.ext_getElem?
  intro i
  rw [getElem?_nodes, getElem?_nodes, Array.getElem?_modify]
  split
  · rw [Option.map_map]
    exact Option.map_congr fun object _ => hchange object
  · rfl

theorem nodes_of_insertInto {child parent : ObjectId} {s s' : Story} {a : Unit}
    (h : Yields (insertInto child parent) s a s') :
    s'.nodes = Object.insert s.nodes child parent := by
  cases h
  apply List.ext_getElem?
  intro index
  have hfirst : ((s.objects[parent.index]?).map (·.node)).bind (·.child) =
      (s.objects[parent.index]?).bind (·.child) := by
    cases s.objects[parent.index]? <;> rfl
  simp only [getElem?_nodes, Object.insert, List.getElem?_modify, Array.getElem?_modify, hfirst]
  cases s.objects[index]? with
  | none => split <;> split <;> rfl
  | some object => split <;> split <;> rfl

end Story

end StoryAsm
