import Mathlib.Data.List.Chain
import StoryAsm.Proofs.Code.FlushMeaning
import StoryAsm.Proofs.Code.Plain

/-!
# A flush ends, and nothing is left to clean up

Two loops of a flush have no bound that is plain to see. One follows aliases: it ends where they do not go
in a circle (`Buffer.Acyclic.endsAt_resolve`). The other fuses lines and steps back after each success
(`Code.FuseTurn`): every turn takes it nearer to its end, and it ends with the lines that `fuseLines` gives
(`Code.fuseTurns_end`).

What is left are lines of which no two neighbours could be fused, no line is out of reach and no jump leads
to the next line (`Code.Settled`). Each pass keeps what the passes before it achieved. The two that drop
lines make new neighbours, but the second line of such a pair always carries a referenced label.
-/

namespace StoryAsm

open Relation

variable {α : Type}

/-! ## Fusing lines -/

namespace Code

variable {combine : Combiner α} {labels : List Label} {carried : List String}
variable {line next : Line α} {lines rest : List (Line α)}

/-- One turn of the fusion loop, which looks at the line at a position and the line after it. If they are
fused, the loop goes one position back, since the fused line may be fused with the line before it. -/
inductive FuseTurn (combine : Combiner α) (labels : List Label) :
    Nat × List (Line α) → Nat × List (Line α) → Prop where
  | fuse {before after : List (Line α)} {a b : Line α} {f : LineBody α} :
    b.isLabelledIn labels = false → combine a b = some f →
      FuseTurn combine labels (before.length, before ++ a :: b :: after)
        (before.length - 1, before ++ a.fuse b f :: after)
  | pass {before after : List (Line α)} {a b : Line α} :
    (b.isLabelledIn labels = false → combine a b = none) →
      FuseTurn combine labels (before.length, before ++ a :: b :: after)
        (before.length + 1, before ++ a :: b :: after)

/-- A fusion removes a line and goes back one position, so lines count twice. -/
theorem FuseTurn.lt {state state' : Nat × List (Line α)} (h : FuseTurn combine labels state state') :
    2 * state'.2.length - state'.1 < 2 * state.2.length - state.1 := by
  cases h with
  | fuse | pass =>
    simp only [List.length_append, List.length_cons]
    omega

/-- The loop goes on as long as a line follows. -/
theorem exists_fuseTurn (combine : Combiner α) (labels : List Label) {position : Nat}
    (h : position + 1 < lines.length) : ∃ state, FuseTurn combine labels (position, lines) state := by
  obtain ⟨before, a, b, after, rfl, rfl⟩ : ∃ before a b after,
      lines = before ++ a :: b :: after ∧ before.length = position := by
    refine ⟨lines.take position, lines[position], lines[position + 1], lines.drop (position + 2), ?_,
      List.length_take_of_le (by omega)⟩
    rw [← List.drop_eq_getElem_cons, ← List.drop_eq_getElem_cons, List.take_append_drop]
  cases hlabel : b.isLabelledIn labels with
  | true => exact ⟨_, .pass fun hfalse => by simp [hlabel] at hfalse⟩
  | false =>
    cases hfused : combine a b with
    | none => exact ⟨_, .pass fun _ => hfused⟩
    | some f => exact ⟨_, .fuse hlabel hfused⟩

/-- What the loop makes of the lines: those up to the position are the stack on which the others are
put. -/
def fuseFrom (combine : Combiner α) (labels : List Label) (state : Nat × List (Line α)) :
    List (Line α) :=
  ((state.2.drop (state.1 + 1)).foldl (pushFused combine labels)
    (state.2.take (state.1 + 1)).reverse).reverse

theorem fuseFrom_append (combine : Combiner α) (labels : List Label) (before after : List (Line α))
    (a : Line α) :
    fuseFrom combine labels (before.length, before ++ a :: after) =
      (after.foldl (pushFused combine labels) (a :: before.reverse)).reverse := by
  have hlength : (before ++ [a]).length = before.length + 1 := by simp
  rw [fuseFrom, List.append_cons, List.drop_left' hlength, List.take_left' hlength, List.reverse_append]
  rfl

theorem FuseTurn.fuseFrom_eq {state state' : Nat × List (Line α)}
    (h : FuseTurn combine labels state state') :
    fuseFrom combine labels state' = fuseFrom combine labels state := by
  cases h with
  | @fuse before after a b f hlabel hfused =>
    have hpush : pushFused combine labels (a :: before.reverse) b =
        pushFused combine labels before.reverse (a.fuse b f) := by
      simp [pushFused, hlabel, hfused]
    rw [fuseFrom_append, List.foldl_cons, hpush]
    rcases List.eq_nil_or_concat before with rfl | ⟨before, last, rfl⟩
    · exact fuseFrom_append combine labels [] after (a.fuse b f)
    · have hback := fuseFrom_append combine labels before (a.fuse b f :: after) last
      simpa using hback
  | @pass before after a b hnone =>
    have hpush : pushFused combine labels (a :: before.reverse) b = b :: a :: before.reverse := by
      cases hlabel : b.isLabelledIn labels with
      | true => simp [pushFused, hlabel]
      | false => simp [pushFused, hlabel, hnone hlabel]
    have hforth := fuseFrom_append combine labels (before ++ [a]) after b
    rw [fuseFrom_append, List.foldl_cons, hpush]
    simpa using hforth

theorem fuseFrom_eq_of_turns {state state' : Nat × List (Line α)}
    (h : ReflTransGen (FuseTurn combine labels) state state') :
    fuseFrom combine labels state' = fuseFrom combine labels state := by
  induction h with
  | refl => rfl
  | tail _ hturn ih => rw [hturn.fuseFrom_eq, ih]

theorem fuseFrom_zero (lines : List (Line α)) :
    fuseFrom combine labels (0, lines) = fuseLines combine labels lines := by
  cases lines with
  | nil => rfl
  | cons line lines => rfl

/-- **The fusion loop ends**, and where it ends it has made the lines that `fuseLines` gives. -/
theorem fuseTurns_end (combine : Combiner α) (labels : List Label) (lines : List (Line α)) :
    Acc (fun state' state => FuseTurn combine labels state state') (0, lines) ∧
      ∀ last, ReflTransGen (FuseTurn combine labels) (0, lines) last →
        (∀ state, ¬FuseTurn combine labels last state) → last.2 = fuseLines combine labels lines := by
  constructor
  · have hwf : WellFounded fun state' state : Nat × List (Line α) =>
        FuseTurn combine labels state state' :=
      Subrelation.wf (fun h => FuseTurn.lt h)
        (measure fun state : Nat × List (Line α) => 2 * state.2.length - state.1).wf
    exact hwf.apply _
  · intro last hrun hend
    have hlast : last.2.length ≤ last.1 + 1 := by
      refine Nat.le_of_not_lt fun hlt => ?_
      obtain ⟨state, hturn⟩ := exists_fuseTurn combine labels hlt
      exact hend state hturn
    rw [← fuseFrom_zero, ← fuseFrom_eq_of_turns hrun, fuseFrom, List.drop_eq_nil_of_le hlast,
      List.take_of_length_le hlast, List.foldl_nil, List.reverse_reverse]

/-! ## Neighbours -/

/-- The two neighbours stay two lines: the combiner does not fuse them, or the second is jumped to. -/
def Unfused (combine : Combiner α) (labels : List Label) (line next : Line α) : Prop :=
  next.isLabelledIn labels = false → combine line next = none

/-- Control comes to the second line, from the first or by a jump. -/
def Reached (labels : List Label) (line next : Line α) : Prop :=
  line.kind.isUnconditional = true → next.isLabelledIn labels = true

/-- Nothing is left to do about two neighbours. -/
structure Settled (combine : Combiner α) (labels : List Label) (line next : Line α) : Prop where
  unfused : Unfused combine labels line next
  reached : Reached labels line next
  /-- The first line is no mere jump to the second. -/
  moves : line.kind = .branchAlways → line.label = none → ∀ target, line.target = some target →
    next.label ≠ some target

/-- The combiner gives the same answer for lines with more directives. -/
theorem Unfused.addDebugBefore (hignores : combine.IgnoresDebug) (h : Unfused combine labels line next)
    (debug debug' : List String) :
    Unfused combine labels (line.addDebugBefore debug) (next.addDebugBefore debug') := by
  intro hlabel
  rw [← hignores]
  exact (hignores line next).trans (h hlabel)

/-- Lines are put on a stack of lines of which no two can be fused, with the last line on top. -/
theorem isChain_pushFused {stack : List (Line α)}
    (h : stack.IsChain fun next line => Unfused combine labels line next) (line : Line α) :
    (pushFused combine labels stack line).IsChain fun next line => Unfused combine labels line next := by
  fun_induction pushFused combine labels stack line with
  | case1 line => exact List.isChain_singleton _
  | case2 line last before fused hfused ih => exact ih h.tail
  | case3 line last before hnone =>
    refine List.isChain_cons_cons.mpr ⟨fun hlabel => ?_, h⟩
    simpa [hlabel] using hnone

theorem isChain_fuseLines (combine : Combiner α) (labels : List Label) (lines : List (Line α)) :
    (fuseLines combine labels lines).IsChain (Unfused combine labels) := by
  have hfold : ∀ stack : List (Line α),
      (stack.IsChain fun next line => Unfused combine labels line next) →
        (lines.foldl (pushFused combine labels) stack).IsChain
          fun next line => Unfused combine labels line next := by
    induction lines with
    | nil => exact fun stack h => h
    | cons line lines ih => exact fun stack h => ih _ (isChain_pushFused h line)
  exact List.isChain_reverse.mpr (hfold [] .nil)

/-- The first line that is kept is one that is jumped to, or it is the first line of all. -/
theorem head_dropUnreachable {reachable : Bool}
    (h : next ∈ (dropUnreachable labels reachable carried lines).1.head?) :
    next.isLabelledIn labels = true ∨
      reachable = true ∧ ∃ line ∈ lines.head?, next = line.addDebugBefore carried := by
  induction lines generalizing reachable carried with
  | nil => simp [dropUnreachable] at h
  | cons line rest ih =>
    simp only [dropUnreachable] at h
    split at h
    · rename_i hkept
      obtain rfl := Option.mem_some.mp h
      cases reachable with
      | true => exact .inr ⟨rfl, line, by simp, rfl⟩
      | false => exact .inl hkept
    · rcases ih h with hlabel | ⟨hfalse, -⟩
      · exact .inl hlabel
      · cases hfalse

theorem isChain_dropUnreachable (hignores : combine.IgnoresDebug)
    (h : lines.IsChain (Unfused combine labels)) (reachable : Bool) (carried : List String) :
    (dropUnreachable labels reachable carried lines).1.IsChain fun line next =>
      Unfused combine labels line next ∧ Reached labels line next := by
  induction lines generalizing reachable carried with
  | nil => exact .nil
  | cons line rest ih =>
    simp only [dropUnreachable]
    split
    · refine List.isChain_cons.mpr ⟨fun next hnext => ?_, ih h.tail _ _⟩
      rcases head_dropUnreachable hnext with hlabel | ⟨hgoesOn, next, hhead, rfl⟩
      · exact ⟨fun hfalse => by simp [hlabel] at hfalse, fun _ => hlabel⟩
      · refine ⟨((List.isChain_cons.mp h).1 next hhead).addDebugBefore hignores _ _, fun hkind => ?_⟩
        have hkind' : line.kind.isUnconditional = true := hkind
        simp [hkind'] at hgoesOn
    · exact ih h.tail _ _

/-- Where a jump is dropped, the line behind it is kept, since it has a label. -/
theorem head_dropJumps (h : next ∈ (dropJumps carried (line :: rest)).head?) :
    (∃ debug, next = line.addDebugBefore debug) ∨
      line.kind = .branchAlways ∧ line.label = none ∧
        ∃ follower ∈ rest.head?, ∃ debug, next = follower.addDebugBefore debug := by
  rw [dropJumps_cons] at h
  split at h
  · rename_i hjump
    obtain ⟨follower, rest, target, rfl, hkind, hlabel, -, hfollower⟩ := jumpsTo_head hjump
    have hkeep : ¬rest.head?.any follower.jumpsTo = true := by
      intro hdrop
      obtain ⟨_, _, _, _, _, hnone, _⟩ := jumpsTo_head hdrop
      cases hfollower.symm.trans hnone
    rw [dropJumps_cons, if_neg hkeep] at h
    obtain rfl := Option.mem_some.mp h
    exact .inr ⟨hkind, hlabel, follower, rfl, _, rfl⟩
  · obtain rfl := Option.mem_some.mp h
    exact .inl ⟨_, rfl⟩

theorem isChain_dropJumps (hignores : combine.IgnoresDebug)
    (h : lines.IsChain fun line next => Unfused combine labels line next ∧ Reached labels line next)
    (carried : List String) : (dropJumps carried lines).IsChain (Settled combine labels) := by
  induction lines generalizing carried with
  | nil => exact .nil
  | cons line rest ih =>
    rw [dropJumps_cons]
    split
    · exact ih h.tail _
    · rename_i hkeep
      refine List.isChain_cons.mpr ⟨fun next hnext => ?_, ih h.tail _⟩
      cases rest with
      | nil => simp [dropJumps] at hnext
      | cons follower rest =>
        obtain ⟨⟨hunfused, hreached⟩, hrest⟩ := List.isChain_cons_cons.mp h
        rcases head_dropJumps hnext with ⟨debug, rfl⟩ | ⟨hkind, hnone, after, hafter, debug, rfl⟩
        · refine ⟨hunfused.addDebugBefore hignores _ _, hreached, ?_⟩
          intro hkind hlabel target htarget hfollower
          apply hkeep
          simp_all [Line.jumpsTo, Line.addDebugBefore]
        · -- a jump was dropped in between: the line behind it is one that is jumped to
          have hjump : after.isLabelledIn labels = true :=
            ((List.isChain_cons.mp hrest).1 after hafter).2 (by rw [hkind]; rfl)
          refine ⟨fun hfalse => ?_, fun _ => hjump, fun hkind' => ?_⟩
          · cases hjump.symm.trans hfalse
          · -- behind another jump the dropped one would have had a label
            have hlabelled := hreached (by
              rw [show line.kind = .branchAlways from hkind']
              rfl)
            simp [Line.isLabelledIn, hnone] at hlabelled

end Code

open Code

namespace Buffer

/-- What a flush of the buffer comes to: its loops end, and all neighbours among the lines that it leaves
are settled for the labels that the lines of the buffer jump to. -/
structure EndsOptimal (combine : Combiner α) (buffer : Buffer α) : Prop where
  resolves : ∀ label, buffer.EndsAt label (buffer.resolve label)
  fuses : Acc (fun state' state => FuseTurn combine (referenced buffer.resolvedLines) state state')
      (0, buffer.resolvedLines) ∧
    ∀ last, ReflTransGen (FuseTurn combine (referenced buffer.resolvedLines))
      (0, buffer.resolvedLines) last →
        (∀ state, ¬FuseTurn combine (referenced buffer.resolvedLines) last state) →
          last.2 = fuseLines combine (referenced buffer.resolvedLines) buffer.resolvedLines
  settled : (buffer.flush combine).lines.IsChain (Settled combine (referenced buffer.resolvedLines))

/-- **A flush ends and leaves nothing to fuse, to reach or to skip**, for every buffer whose aliases do not
go in a circle. The combiner may look at labels, but not at directives. -/
theorem endsOptimal_flush (combine : Combiner α) (hignores : combine.IgnoresDebug) (buffer : Buffer α)
    (hacyclic : buffer.Acyclic) : buffer.EndsOptimal combine where
  resolves := hacyclic.endsAt_resolve
  fuses := fuseTurns_end combine _ _
  settled := isChain_dropJumps hignores
    (isChain_dropUnreachable hignores (isChain_fuseLines combine _ _) true []) []

/-- The loop has an alias, two lines that are fused, a line that is never reached and a jump over this
line. Three of its six lines are left. -/
theorem endsOptimal_flush_addingLoop :
    Combiner.adding.IgnoresDebug ∧ Script.addingLoop.buffer.Acyclic ∧
      Script.addingLoop.buffer.aliases = [(.point 1, .point 0)] ∧
      (Script.addingLoop.buffer.flush Combiner.adding).lines.map (·.code) = [3, 4, 7] ∧
      Script.addingLoop.buffer.EndsOptimal Combiner.adding := by
  have hignores : Combiner.adding.IgnoresDebug := fun _ _ => rfl
  have hacyclic : Script.addingLoop.buffer.Acyclic := (Script.addingLoop.tracks (by decide)).acyclic
  exact ⟨hignores, hacyclic, by decide, by decide, endsOptimal_flush _ hignores _ hacyclic⟩

end Buffer

end StoryAsm
