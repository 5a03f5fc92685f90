import Mathlib.Data.List.Induction
import Mathlib.Data.List.Nodup
import StoryAsm.Operand.Pool
import StoryAsm.Proofs.Story.Generated
import StoryAsm.Proofs.Story.Vocabulary
import StoryAsm.Proofs.Text.ByteOrder

/-!
# Operands of a pool

A pool holds the values that were asked for, each once, in the order of the first requests for them
(`Pool.after_eq`). It only grows, so the instance that was handed out for a request is also the one that
the last pool has for it (`Pool.made_eq`). Hence two requests got the same instance if and only if they
asked for the same (`Pool.same_instanceIn`), and the name of a string tells the string
(`Pool.text_instanceIn_inj`).
-/

namespace StoryAsm

/-! ## Values in the order of their first mention -/

section
variable {α : Type} [BEq α] [LawfulBEq α] {seen : List α} {value : α}

theorem eraseDups_concat_of_mem (h : value ∈ seen) : (seen ++ [value]).eraseDups = seen.eraseDups := by
  simp [List.eraseDups_append, List.removeAll, h]

theorem eraseDups_concat_of_notMem (h : value ∉ seen) :
    (seen ++ [value]).eraseDups = seen.eraseDups ++ [value] := by
  simp [List.eraseDups_append, List.removeAll, h, List.eraseDups_cons]

theorem prefix_eraseDups_append (seen later : List α) : seen.eraseDups <+: (seen ++ later).eraseDups := by
  rw [List.eraseDups_append]
  exact List.prefix_append ..

theorem nodup_eraseDups (seen : List α) : seen.eraseDups.Nodup := by
  induction seen using List.reverseRecOn with
  | nil => exact .nil
  | append_singleton seen value ih =>
    by_cases h : value ∈ seen
    · rwa [eraseDups_concat_of_mem h]
    · rw [eraseDups_concat_of_notMem h]
      exact ih.append (List.nodup_singleton _) (by simpa using h)

/-- The place of a value stays the same when more is seen. -/
theorem idxOf_eraseDups_append (h : value ∈ seen) (later : List α) :
    (seen ++ later).eraseDups.idxOf value = seen.eraseDups.idxOf value :=
  ((prefix_eraseDups_append seen later).idxOf_eq_of_mem (List.mem_eraseDups.mpr h)).symm

theorem getElem?_eraseDups (h : value ∈ seen) (index : Nat) :
    seen.eraseDups[index]? = some value ↔ seen.eraseDups.idxOf value = index := by
  have hplace := List.getElem?_idxOf (List.mem_eraseDups.mpr h)
  constructor
  · intro hindex
    obtain ⟨hlt, -⟩ := List.getElem?_eq_some_iff.mp hplace
    exact (List.getElem?_inj hlt (nodup_eraseDups seen)).mp (hplace.trans hindex.symm)
  · rintro rfl
    exact hplace

theorem Pool.intern_eraseDups (seen : List α) (value : α) :
    intern seen.eraseDups.toArray value =
      ((seen ++ [value]).eraseDups.idxOf value, (seen ++ [value]).eraseDups.toArray) := by
  rw [intern, List.idxOf?_toArray]
  by_cases h : value ∈ seen
  · have hmem : value ∈ seen.eraseDups := List.mem_eraseDups.mpr h
    obtain ⟨index, hindex⟩ := Option.isSome_iff_exists.mp (List.isSome_idxOf?.mpr hmem)
    rw [eraseDups_concat_of_mem h, List.idxOf_eq_getD_idxOf?, hindex]
    rfl
  · have hnew : value ∉ seen.eraseDups := fun hmem => h (List.mem_eraseDups.mp hmem)
    rw [eraseDups_concat_of_notMem h, List.idxOf?_eq_none_iff.mpr hnew,
      List.idxOf_append_of_notMem hnew]
    simp

end

namespace Pool

/-! ## Requests -/

/-- What can be asked of a pool. -/
inductive Request where
  | number (value : Int)
  | string (content : String)
  | zero
  | one
  | stack

/-- What a request asks for. -/
inductive Literal where
  | number (value : Int)
  | string (content : String)
  | stack
  deriving DecidableEq

namespace Literal

def value? : Literal → Option Int
  | number value => some value
  | _ => none

def content? : Literal → Option String
  | string content => some content
  | _ => none

/-- The operand stands for the literal. -/
def Denotes (operand : Operand) : Literal → Prop
  | number value => operand = .number value
  | string content => ∃ index, operand = .string index content
  | stack => operand = .stack

/-- The instance that a pool has for a literal. -/
def instanceIn (pool : Pool) : Literal → Operand.Instance
  | number value => ⟨.number value, .number (pool.numbers.toList.idxOf value)⟩
  | string content =>
    ⟨.string (pool.strings.toList.idxOf content) content, .string (pool.strings.toList.idxOf content)⟩
  | stack => Pool.stack

end Literal

namespace Request

def literal : Request → Literal
  | number value => .number value
  | string content => .string content
  | zero => .number 0
  | one => .number 1
  | stack => .stack

def value? (request : Request) : Option Int :=
  request.literal.value?

def content? (request : Request) : Option String :=
  request.literal.content?

/-- Make the request: the instance that is handed out, and the pool after that. -/
def make (pool : Pool) : Request → Operand.Instance × Pool
  | number value => pool.number value
  | string content => pool.string content
  | zero => (Pool.zero, pool)
  | one => (Pool.one, pool)
  | stack => (Pool.stack, pool)

end Request

/-- The pool after requests. -/
def after (pool : Pool) (requests : List Request) : Pool :=
  requests.foldl (fun pool request => (request.make pool).2) pool

/-- The requests with the instances that are handed out for them. -/
def made (pool : Pool) : List Request → List (Request × Operand.Instance)
  | [] => []
  | request :: requests => (request, (request.make pool).1) :: made (request.make pool).2 requests

/-- The numbers of the requests, after those that every pool has. -/
def numbersOf (requests : List Request) : List Int :=
  [0, 1] ++ requests.filterMap Request.value?

def textsOf (requests : List Request) : List String :=
  requests.filterMap Request.content?

/-- The pool with all that was asked for, in the order of the first requests. -/
def holding (requests : List Request) : Pool where
  numbers := (numbersOf requests).eraseDups.toArray
  strings := (textsOf requests).eraseDups.toArray

section
variable {requests : List Request} {request : Request}

theorem holding_concat_number {value : Int} (h : request.literal = .number value) :
    holding (requests ++ [request]) =
      { holding requests with numbers := (numbersOf requests ++ [value]).eraseDups.toArray } := by
  simp [holding, numbersOf, textsOf, Request.value?, Request.content?, h, Literal.value?, Literal.content?]

theorem holding_concat_string {content : String} (h : request.literal = .string content) :
    holding (requests ++ [request]) =
      { holding requests with strings := (textsOf requests ++ [content]).eraseDups.toArray } := by
  simp [holding, numbersOf, textsOf, Request.value?, Request.content?, h, Literal.value?, Literal.content?]

theorem holding_concat_stack (h : request.literal = .stack) :
    holding (requests ++ [request]) = holding requests := by
  simp [holding, numbersOf, textsOf, Request.value?, Request.content?, h, Literal.value?, Literal.content?]

theorem make_holding (requests : List Request) (request : Request) :
    request.make (holding requests) =
      (request.literal.instanceIn (holding (requests ++ [request])), holding (requests ++ [request])) := by
  cases request with
  | number value =>
    rw [holding_concat_number rfl, Request.make, Pool.number, holding, intern_eraseDups]
    rfl
  | string content =>
    rw [holding_concat_string rfl, Request.make, Pool.string, holding, intern_eraseDups]
    rfl
  | zero =>
    have hmem : 0 ∈ numbersOf requests := by simp [numbersOf]
    have hplace : (numbersOf requests).eraseDups.idxOf 0 = 0 := by simp [numbersOf, List.eraseDups_cons]
    rw [holding_concat_number rfl, eraseDups_concat_of_mem hmem]
    simp [Request.make, Request.literal, Literal.instanceIn, Pool.zero, holding, hplace]
  | one =>
    have hmem : 1 ∈ numbersOf requests := by simp [numbersOf]
    have hplace : (numbersOf requests).eraseDups.idxOf 1 = 1 := by simp [numbersOf, List.eraseDups_cons]
    rw [holding_concat_number rfl, eraseDups_concat_of_mem hmem]
    simp [Request.make, Request.literal, Literal.instanceIn, Pool.one, holding, hplace]
  | stack => rw [holding_concat_stack rfl]; rfl

theorem mem_numbersOf {value : Int} (h : request ∈ requests) (hvalue : request.literal = .number value) :
    value ∈ numbersOf requests := by
  refine List.mem_append_right _ (List.mem_filterMap.mpr ⟨request, h, ?_⟩)
  rw [Request.value?, hvalue]
  rfl

theorem mem_textsOf {content : String} :
    content ∈ textsOf requests ↔ ∃ request ∈ requests, request.literal = .string content := by
  have hcontent : ∀ request : Request,
      request.content? = some content ↔ request.literal = .string content := by
    intro request
    cases h : request.literal <;> simp [Request.content?, h, Literal.content?]
  simp only [textsOf, List.mem_filterMap, hcontent]

/-- What a pool has for a request that was made stays the same. -/
theorem instanceIn_holding_append (h : request ∈ requests) (later : List Request) :
    request.literal.instanceIn (holding (requests ++ later)) =
      request.literal.instanceIn (holding requests) := by
  have hnumbers : numbersOf (requests ++ later) = numbersOf requests ++ later.filterMap Request.value? := by
    simp [numbersOf]
  have htexts : textsOf (requests ++ later) = textsOf requests ++ textsOf later := by simp [textsOf]
  cases hliteral : request.literal with
  | number value =>
    have hplace := idxOf_eraseDups_append (mem_numbersOf h hliteral) (later.filterMap Request.value?)
    simp only [Literal.instanceIn, holding, hnumbers, hplace]
  | string content =>
    have hplace := idxOf_eraseDups_append (mem_textsOf.mpr ⟨request, h, hliteral⟩) (textsOf later)
    simp only [Literal.instanceIn, holding, htexts, hplace]
  | stack => rfl

end

theorem after_holding (before requests : List Request) :
    (holding before).after requests = holding (before ++ requests) := by
  induction requests generalizing before with
  | nil => rw [List.append_nil]; rfl
  | cons request requests ih =>
    have hnext : (request.make (holding before)).2 = holding (before ++ [request]) := by rw [make_holding]
    rw [after, List.foldl_cons, hnext, ← after, ih, List.append_assoc, List.singleton_append]

theorem made_holding (before requests : List Request) :
    (holding before).made requests =
      requests.map fun request => (request, request.literal.instanceIn (holding (before ++ requests))) := by
  -- the pool at hand is left behind by the requests so far, and the rest of them does not move its places
  induction requests generalizing before with
  | nil => rfl
  | cons request requests ih =>
    have hfirst := instanceIn_holding_append (List.mem_append_right before (List.mem_singleton_self request))
      requests
    rw [List.append_assoc, List.singleton_append] at hfirst
    rw [made, make_holding, ih, List.append_assoc, List.singleton_append, List.map_cons, hfirst]

variable {requests : List Request}

theorem after_eq (requests : List Request) : ({} : Pool).after requests = holding requests :=
  after_holding [] requests

theorem made_eq (requests : List Request) :
    ({} : Pool).made requests =
      requests.map fun request => (request, request.literal.instanceIn (holding requests)) :=
  made_holding [] requests

/-! ## Instances and names -/

theorem denotes_instanceIn (pool : Pool) (literal : Literal) :
    literal.Denotes (literal.instanceIn pool).operand := by
  cases literal with
  | number value => rfl
  | string content => exact ⟨_, rfl⟩
  | stack => rfl

theorem same_instanceIn {request other : Request} (h : request ∈ requests) :
    (request.literal.instanceIn (holding requests)).same
        (other.literal.instanceIn (holding requests)) = true ↔ request.literal = other.literal := by
  rw [Operand.Instance.same, decide_eq_true_eq]
  cases hrequest : request.literal with
  | number value =>
    have hmem := List.mem_eraseDups.mpr (mem_numbersOf h hrequest)
    cases other.literal <;> simp [Literal.instanceIn, Pool.stack, holding, List.idxOf_inj hmem]
  | string content =>
    have hmem := List.mem_eraseDups.mpr (mem_textsOf.mpr ⟨request, h, hrequest⟩)
    cases other.literal <;> simp [Literal.instanceIn, Pool.stack, holding, List.idxOf_inj hmem]
  | stack => cases other.literal <;> simp [Literal.instanceIn, Pool.stack]

/-- The name of a string counts the strings that were asked for before it. -/
theorem text_instanceIn_string {content : String} (h : content ∈ textsOf requests) (index : Nat) :
    ((Literal.string content).instanceIn (holding requests)).operand.text = "STR?" ++ toString index ↔
      (textsOf requests).eraseDups[index]? = some content := by
  have hname : ((Literal.string content).instanceIn (holding requests)).operand.text =
      "STR?" ++ toString ((textsOf requests).eraseDups.idxOf content) := rfl
  rw [hname, (numbered_injective "STR?").eq_iff, getElem?_eraseDups h]

theorem text_instanceIn_inj {content other : String} (h : content ∈ textsOf requests) :
    ((Literal.string content).instanceIn (holding requests)).operand.text =
        ((Literal.string other).instanceIn (holding requests)).operand.text ↔ content = other := by
  have hinjective := (numbered_injective "STR?").eq_iff
    (a := (textsOf requests).eraseDups.idxOf content) (b := (textsOf requests).eraseDups.idxOf other)
  rw [List.idxOf_inj (List.mem_eraseDups.mpr h)] at hinjective
  exact hinjective

/-! ## Sorted strings -/

theorem perm_sortedStrings (pool : Pool) :
    (pool.sortedStrings.map (·.1)).Perm pool.strings.toList := by
  refine ((List.mergeSort_perm _ _).map _).trans (.of_eq ?_)
  rw [List.map_map]
  exact List.zipIdx_map_fst _ _

theorem mem_sortedStrings {pool : Pool} {content : String} {operand : Operand} :
    (content, operand) ∈ pool.sortedStrings ↔
      ∃ index, pool.strings.toList[index]? = some content ∧ .string index content = operand := by
  rw [sortedStrings, List.mem_mergeSort, List.mem_map]
  constructor
  · rintro ⟨⟨content, index⟩, hmem, heq⟩
    obtain ⟨rfl, rfl⟩ := Prod.mk.inj heq
    exact ⟨index, List.mem_zipIdx_iff_getElem?.mp hmem, rfl⟩
  · rintro ⟨index, hindex, rfl⟩
    exact ⟨(content, index), List.mem_zipIdx_iff_getElem?.mpr hindex, rfl⟩

theorem mem_sortedStrings_holding {content : String} {operand : Operand} :
    (content, operand) ∈ (holding requests).sortedStrings ↔ content ∈ textsOf requests ∧
      ((Literal.string content).instanceIn (holding requests)).operand = operand := by
  rw [mem_sortedStrings]
  constructor
  · rintro ⟨index, hindex, rfl⟩
    have hmem : content ∈ textsOf requests := List.mem_eraseDups.mp (List.mem_of_getElem? hindex)
    obtain rfl := (getElem?_eraseDups hmem index).mp hindex
    exact ⟨hmem, rfl⟩
  · rintro ⟨hmem, rfl⟩
    exact ⟨_, (getElem?_eraseDups hmem _).mpr rfl, rfl⟩

theorem ascending_sortedStrings {pool : Pool} (h : pool.strings.toList.Nodup) :
    (pool.sortedStrings.map (·.1)).Pairwise fun content other => Text.bytes content < Text.bytes other := by
  have hle : (pool.sortedStrings.map (·.1)).Pairwise (· ≤ ·) :=
    List.pairwise_map.mpr (ordered_mergeSort Prod.fst _).ascending
  have hne : (pool.sortedStrings.map (·.1)).Nodup := pool.perm_sortedStrings.nodup_iff.mpr h
  refine (hle.and hne).imp fun {content other} hboth => Text.bytes_lt_of_lt ?_
  exact String.not_le.mp fun hge => hboth.2 (String.le_antisymm hboth.1 hge)

/-- The order in which the strings are found does not matter. -/
theorem mergeSort_eq_sortedStrings {pool : Pool} (h : pool.strings.toList.Nodup)
    {entries : List (String × Operand)} (hentries : entries.Perm pool.sortedStrings) :
    entries.mergeSort (fun a b => decide (a.1 ≤ b.1)) = pool.sortedStrings := by
  have hsorted := ordered_mergeSort Prod.fst entries
  refine List.Perm.eq_of_pairwise ?_ hsorted.ascending (ordered_mergeSort Prod.fst _).ascending
    (hsorted.perm.trans hentries)
  -- the order is total on entries only because a text is in the pool once
  rintro ⟨content, operand⟩ ⟨other, operand'⟩ hmem hmem' hle hge
  obtain rfl : content = other := String.le_antisymm hle hge
  obtain ⟨index, hindex, rfl⟩ := mem_sortedStrings.mp ((hsorted.perm.trans hentries).mem_iff.mp hmem)
  obtain ⟨index', hindex', rfl⟩ := mem_sortedStrings.mp hmem'
  obtain ⟨hlt, -⟩ := List.getElem?_eq_some_iff.mp hindex
  rw [(List.getElem?_inj hlt h).mp (hindex.trans hindex'.symm)]

/-! ## What a pool is asked for -/

/-- What a pool handed out for requests, and the strings that it has then. -/
structure Interned (requests : List Request) (made : List (Request × Operand.Instance)) (pool : Pool) :
    Prop where
  all : made.map (·.1) = requests
  denotes : ∀ {request handed}, (request, handed) ∈ made → request.literal.Denotes handed.operand
  same : ∀ {request handed request' handed'}, (request, handed) ∈ made → (request', handed') ∈ made →
    (handed.same handed' = true ↔ request.literal = request'.literal)
  /-- A string is named by its place among the different texts, in the order of the first requests. -/
  named : ∀ {request handed content}, (request, handed) ∈ made → request.literal = .string content →
    ∀ index : Nat, handed.operand.text = "STR?" ++ toString index ↔
      (textsOf requests).eraseDups[index]? = some content
  name_inj : ∀ {request handed content request' handed' content'},
    (request, handed) ∈ made → request.literal = .string content →
    (request', handed') ∈ made → request'.literal = .string content' →
    (handed.operand.text = handed'.operand.text ↔ content = content')
  entries : ∀ {content operand}, (content, operand) ∈ pool.sortedStrings ↔
    ∃ request handed, (request, handed) ∈ made ∧ request.literal = .string content ∧
      handed.operand = operand
  once : (pool.sortedStrings.map (·.1)).Perm (textsOf requests).eraseDups
  ascending : (pool.sortedStrings.map (·.1)).Pairwise fun content content' =>
    Text.bytes content < Text.bytes content'
  /-- Whatever the order in which the strings are found, sorting gives the same. -/
  anyOrder : ∀ {found : List (String × Operand)}, found.Perm pool.sortedStrings →
    found.mergeSort (fun entry entry' => decide (entry.1 ≤ entry'.1)) = pool.sortedStrings

theorem mem_made {request : Request} {handed : Operand.Instance} :
    (request, handed) ∈ ({} : Pool).made requests ↔
      request ∈ requests ∧ request.literal.instanceIn (holding requests) = handed := by
  rw [made_eq, List.mem_map]
  constructor
  · rintro ⟨request, hmem, heq⟩
    obtain ⟨rfl, rfl⟩ := Prod.mk.inj heq
    exact ⟨hmem, rfl⟩
  · rintro ⟨hmem, rfl⟩
    exact ⟨request, hmem, rfl⟩

theorem string_of_mem_made {request : Request} {handed : Operand.Instance} {content : String}
    (hmade : (request, handed) ∈ ({} : Pool).made requests) (hliteral : request.literal = .string content) :
    content ∈ textsOf requests ∧ (Literal.string content).instanceIn (holding requests) = handed := by
  obtain ⟨hmem, heq⟩ := mem_made.mp hmade
  rw [hliteral] at heq
  exact ⟨mem_textsOf.mpr ⟨request, hmem, hliteral⟩, heq⟩

theorem interned_holding (requests : List Request) :
    Interned requests (({} : Pool).made requests) (holding requests) where
  all := by simp [made_eq, Function.comp_def]
  denotes hmade := by
    obtain ⟨-, rfl⟩ := mem_made.mp hmade
    exact denotes_instanceIn _ _
  same hmade hmade' := by
    obtain ⟨hmem, rfl⟩ := mem_made.mp hmade
    obtain ⟨-, rfl⟩ := mem_made.mp hmade'
    exact same_instanceIn hmem
  named hmade hliteral := by
    obtain ⟨hmem, rfl⟩ := string_of_mem_made hmade hliteral
    exact text_instanceIn_string hmem
  name_inj hmade hliteral hmade' hliteral' := by
    obtain ⟨hmem, rfl⟩ := string_of_mem_made hmade hliteral
    obtain ⟨-, rfl⟩ := string_of_mem_made hmade' hliteral'
    exact text_instanceIn_inj hmem
  entries := by
    intro content operand
    rw [mem_sortedStrings_holding]
    constructor
    · rintro ⟨hmem, rfl⟩
      obtain ⟨request, hrequest, hliteral⟩ := mem_textsOf.mp hmem
      refine ⟨request, _, mem_made.mpr ⟨hrequest, rfl⟩, hliteral, ?_⟩
      rw [hliteral]
    · rintro ⟨request, handed, hmade, hliteral, rfl⟩
      obtain ⟨hmem, rfl⟩ := string_of_mem_made hmade hliteral
      exact ⟨hmem, rfl⟩
  once := perm_sortedStrings _
  ascending := ascending_sortedStrings (nodup_eraseDups _)
  anyOrder := mergeSort_eq_sortedStrings (nodup_eraseDups _)

end Pool

end StoryAsm
