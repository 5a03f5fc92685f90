import Mathlib.Data.List.Perm.Subperm
import Mathlib.Logic.Relation
import StoryAsm.Code.Buffer

/-!
# Chains of aliases

A label that is marked where another one waits becomes an alias of that one, and a label is resolved by
following aliases until there are no more (`Buffer.EndsAt`). The loop that does this comes to a label if
and only if the chain ends there (`Buffer.resolve?_eq_some_iff`). All chains end where aliases do not go in
a circle (`Buffer.Acyclic.exists_endsAt`), and from a label on a circle the loop never ends
(`Buffer.resolve?_eq_none_of_circle`).
-/

namespace StoryAsm.Buffer

open Relation

variable {α : Type} {buffer : Buffer α} {label next last : Label}

/-- The label is an alias of the next one. Only the newest alias of a label counts. -/
def StandsFor (buffer : Buffer α) (label next : Label) : Prop :=
  buffer.aliases.lookup label = some next

/-- Following aliases from a label for as long as there are any ends at the last one. -/
structure EndsAt (buffer : Buffer α) (label last : Label) : Prop where
  reached : ReflTransGen buffer.StandsFor label last
  final : ∀ next, ¬buffer.StandsFor last next

/-- No chain of aliases comes back to where it started. -/
def Acyclic (buffer : Buffer α) : Prop :=
  ∀ label, ¬TransGen buffer.StandsFor label label

theorem StandsFor.mem_aliases (h : buffer.StandsFor label next) : (label, next) ∈ buffer.aliases := by
  obtain ⟨front, back, hsplit, -⟩ := List.lookup_eq_some_iff.mp h
  simp [hsplit]

theorem endsAt_self (h : buffer.aliases.lookup label = none) : buffer.EndsAt label label where
  reached := .refl
  final next hnext := by
    rw [StandsFor, h] at hnext
    cases hnext

theorem EndsAt.head (hnext : buffer.StandsFor label next) (h : buffer.EndsAt next last) :
    buffer.EndsAt label last :=
  ⟨.head hnext h.reached, h.final⟩

theorem EndsAt.lookup_eq_none (h : buffer.EndsAt label last) : buffer.aliases.lookup last = none :=
  Option.eq_none_iff_forall_ne_some.mpr h.final

/-! ## The loop -/

theorem unrolled_eq_follow (aliases : List (Label × Label)) (steps : Nat) (label : Label) :
    unrolled aliases steps label = follow aliases label := by
  induction steps generalizing label with
  | zero => rfl
  | succ steps ih =>
    rw [unrolled, follow]
    cases aliases.lookup label with
    | none => rfl
    | some next => exact ih next

/-- A label that the loop comes to is where the chain ends. -/
theorem endsAt_of_follow (buffer : Buffer α) :
    ∀ label last, follow buffer.aliases label = some last → buffer.EndsAt label last := by
  refine follow.partial_correctness buffer.aliases buffer.EndsAt fun loop ih label last hturn => ?_
  cases hnext : buffer.aliases.lookup label with
  | none =>
    rw [hnext] at hturn
    obtain rfl := Option.some.inj hturn
    exact endsAt_self hnext
  | some next =>
    rw [hnext] at hturn
    exact (ih next last hturn).head hnext

theorem EndsAt.follow_eq (h : buffer.EndsAt label last) : follow buffer.aliases label = some last := by
  obtain ⟨hreached, hfinal⟩ := h
  induction hreached using ReflTransGen.head_induction_on with
  | refl =>
    rw [follow, Option.eq_none_iff_forall_ne_some.mpr hfinal]
  | head hnext _ ih =>
    rw [follow, show buffer.aliases.lookup _ = some _ from hnext]
    exact ih

/-- Resolving a label returns a label if and only if the chain of aliases ends there. -/
theorem resolve?_eq_some_iff : buffer.resolve? label = some last ↔ buffer.EndsAt label last := by
  rw [resolve?, unrolled_eq_follow]
  exact ⟨buffer.endsAt_of_follow label last, EndsAt.follow_eq⟩

theorem EndsAt.resolve_eq (h : buffer.EndsAt label last) : buffer.resolve label = last := by
  rw [resolve, resolve?_eq_some_iff.mpr h, Option.getD_some]

/-! ## Chains that end -/

/-- Different labels from which aliases lead to the label. -/
structure Leading (buffer : Buffer α) (visited : List Label) (label : Label) : Prop where
  nodup : visited.Nodup
  subset : visited ⊆ buffer.aliases.map (·.1)
  leads : ∀ before ∈ visited, TransGen buffer.StandsFor before label

theorem Leading.length_le {visited : List Label} (h : buffer.Leading visited label) :
    visited.length ≤ buffer.aliases.length := by
  simpa using (h.nodup.subperm h.subset).length_le

theorem Leading.step {visited : List Label} (h : buffer.Leading visited label)
    (hacyclic : buffer.Acyclic) (hnext : buffer.StandsFor label next) :
    buffer.Leading (label :: visited) next where
  nodup := List.nodup_cons.mpr ⟨fun hm => hacyclic label (h.leads label hm), h.nodup⟩
  subset := List.cons_subset.mpr ⟨List.mem_map_of_mem hnext.mem_aliases, h.subset⟩
  leads before hm := by
    rcases List.mem_cons.mp hm with rfl | hm
    · exact .single hnext
    · exact (h.leads before hm).tail hnext

/-- The labels on the way are different aliases, so the way is no longer than the list of aliases. -/
theorem Acyclic.exists_endsAt_of_leading (h : buffer.Acyclic) {visited : List Label} {steps : Nat}
    (hvisited : buffer.Leading visited label)
    (hsteps : buffer.aliases.length ≤ steps + visited.length) : ∃ last, buffer.EndsAt label last := by
  induction steps generalizing label visited with
  | zero =>
    cases hnext : buffer.aliases.lookup label with
    | none => exact ⟨label, endsAt_self hnext⟩
    | some next =>
      have hlength := (hvisited.step h hnext).length_le
      simp only [List.length_cons] at hlength
      omega
  | succ steps ih =>
    cases hnext : buffer.aliases.lookup label with
    | none => exact ⟨label, endsAt_self hnext⟩
    | some next =>
      obtain ⟨last, hends⟩ :=
        ih (hvisited.step h hnext) (by simp only [List.length_cons]; omega)
      exact ⟨last, hends.head hnext⟩

theorem Acyclic.exists_endsAt (h : buffer.Acyclic) (label : Label) : ∃ last, buffer.EndsAt label last :=
  h.exists_endsAt_of_leading ⟨.nil, List.nil_subset _, by simp⟩ (Nat.le_refl _)

/-- A chain that ends does not come back: otherwise it would leave its last label as well. -/
theorem EndsAt.not_circle (h : buffer.EndsAt label last) : ¬TransGen buffer.StandsFor label label := by
  obtain ⟨hreached, hfinal⟩ := h
  induction hreached using ReflTransGen.head_induction_on with
  | refl =>
    intro hcircle
    obtain ⟨next, hnext, -⟩ := TransGen.head'_iff.mp hcircle
    exact hfinal next hnext
  | head hnext _ ih =>
    intro hcircle
    obtain ⟨next, hnext', hback⟩ := TransGen.head'_iff.mp hcircle
    obtain rfl := Option.some.inj (hnext.symm.trans hnext')
    exact ih (.tail' hback hnext)

theorem resolve?_eq_none_of_circle (h : TransGen buffer.StandsFor label label) :
    buffer.resolve? label = none :=
  Option.eq_none_iff_forall_ne_some.mpr fun _ hlast => (resolve?_eq_some_iff.mp hlast).not_circle h

/-- The aliases of all targets end, and so does a flush of the buffer. -/
def FlushEnds (buffer : Buffer α) : Prop :=
  ∀ line ∈ buffer.lines.toList, ∀ target ∈ line.target, (buffer.resolve? target).isSome

theorem Acyclic.flushEnds (h : buffer.Acyclic) : buffer.FlushEnds := by
  intro line _ target _
  obtain ⟨last, hends⟩ := h.exists_endsAt target
  rw [resolve?_eq_some_iff.mpr hends, Option.isSome_some]

/-- From every label aliases lead to the label that stands for it, and no further. -/
theorem Acyclic.endsAt_resolve (h : buffer.Acyclic) (label : Label) :
    buffer.EndsAt label (buffer.resolve label) := by
  obtain ⟨last, hends⟩ := h.exists_endsAt label
  rwa [hends.resolve_eq]

end StoryAsm.Buffer
