import Mathlib.Logic.Function.Iterate
import StoryAsm.Code.Flush

/-!
# Machines that run code

A machine says what a line does to its state and how control leaves the line, within what the kind of
the line permits (`Machine`). Code is a list of lines together with the places that its labels stand for
(`Program`). A run goes from line to line until it is over (`Machine.Ends`).

Two programs are compared by a relation between the lines that they still have to run: if related places
lead to related places again, both in at least one step, the programs have the same runs
(`Machine.SameRuns.of_lockstep`).
-/

namespace StoryAsm

variable {α : Type}

/-- How control leaves a line. -/
inductive Exit (ν : Type) where
  | next
  | jump (target : Label)
  | stop (value : ν)

/-- The same exit, with another label to jump to. -/
def Exit.rename {ν : Type} (f : Label → Label) : Exit ν → Exit ν
  | next => next
  | jump target => jump (f target)
  | stop value => stop value

/-- A branch to one of the labels that return stops the code. -/
def Exit.settle {ν : Type} (one zero : ν) : Exit ν → Exit ν
  | jump .returnTrue => stop one
  | jump .returnFalse => stop zero
  | exit => exit

/-- The exits of a kind of line. A line that always branches but has no target can only stop. -/
def LineKind.Permits {ν : Type} : LineKind → Exit ν → Prop
  | .plain, .next => True
  | .branchAlways, .jump _ | .branchAlways, .stop _ => True
  | .branchPositive, .next | .branchPositive, .jump _ => True
  | .branchNegative, .next | .branchNegative, .jump _ => True
  | .terminator, .stop _ | .heavyTerminator, .stop _ => True
  | _, _ => False

/-- The line with another label as its target. -/
def LineBody.retarget (f : Label → Label) (body : LineBody α) : LineBody α :=
  { body with target := body.target.map f }

/-- What lines do. The target of a line matters only as the place where it may jump to, and a line
that always branches does nothing else. -/
structure Machine (α : Type) where
  State : Type
  Value : Type
  /-- What a branch to `TRUE` returns. -/
  one : Value
  /-- What a branch to `FALSE` returns. -/
  zero : Value
  run : LineBody α → State → State × Exit Value
  run_permits (body : LineBody α) (s : State) : body.kind.Permits (run body s).2
  run_target (body : LineBody α) (s : State) (label : Label) :
    (run body s).2 = .jump label → body.target = some label
  run_always (body : LineBody α) (s : State) (label : Label) :
    body.kind = .branchAlways → body.target = some label → run body s = (s, .jump label)
  run_retarget (f : Label → Label) (body : LineBody α) (s : State) :
    run (body.retarget f) s = ((run body s).1, (run body s).2.rename f)

/-! ## Machines from the effects of their codes -/

/-- What executing a code comes to, before its line decides where control goes. -/
structure Effect (σ ν : Type) where
  state : σ
  /-- Whether the condition holds that a branch asks for. -/
  holds : Bool
  /-- What is returned by a line that stops. -/
  value : ν

namespace LineBody

def exit {ν : Type} (body : LineBody α) (holds : Bool) (value : ν) : Exit ν :=
  match body.kind, body.target with
  | .plain, _ => .next
  | .branchAlways, some label => .jump label
  | .branchPositive, some label => if holds then .jump label else .next
  | .branchNegative, some label => if holds then .next else .jump label
  | .branchPositive, none | .branchNegative, none => .next
  | .branchAlways, none | .terminator, _ | .heavyTerminator, _ => .stop value

variable {ν : Type} (body : LineBody α) (holds : Bool) (value : ν)

theorem permits_exit : body.kind.Permits (body.exit holds value) := by
  obtain ⟨code, target, kind⟩ := body
  cases kind <;> cases target <;> cases holds <;> trivial

theorem exit_jump {label : Label} (h : body.exit holds value = .jump label) :
    body.target = some label := by
  obtain ⟨code, target, kind⟩ := body
  cases kind <;> cases target <;> cases holds <;> simp_all [exit]

theorem exit_retarget (f : Label → Label) :
    (body.retarget f).exit holds value = (body.exit holds value).rename f := by
  obtain ⟨code, target, kind⟩ := body
  cases kind <;> cases target <;> cases holds <;> rfl

/-- The line does nothing but jump. -/
def isJump (body : LineBody α) : Bool :=
  decide (body.kind = .branchAlways) && body.target.isSome

theorem isJump_retarget (f : Label → Label) : (body.retarget f).isJump = body.isJump := by
  obtain ⟨code, target, kind⟩ := body
  cases target <;> rfl

end LineBody

/-- The machine on which a code has the given effect, and the kind of its line decides where control
goes. -/
def Machine.ofEffect {σ ν : Type} (one zero : ν) (effect : α → σ → Effect σ ν) : Machine α where
  State := σ
  Value := ν
  one := one
  zero := zero
  run body s :=
    (if body.isJump then s else (effect body.code s).state,
      body.exit (effect body.code s).holds (effect body.code s).value)
  run_permits body s := body.permits_exit _ _
  run_target body s _ := body.exit_jump _ _
  run_always body s label hkind htarget := by
    simp [LineBody.isJump, LineBody.exit, hkind, htarget]
  run_retarget f body s := by
    simp only [LineBody.exit_retarget, LineBody.isJump_retarget]
    rfl

/-- Code with labels. -/
structure Program (α : Type) where
  start : List (LineBody α)
  /-- Where the code goes on at a label, if the label stands in it. -/
  find : Label → Option (List (LineBody α))

/-- How a run is over. -/
inductive Outcome (σ ν : Type) where
  /-- Control went past the last line. -/
  | ended (state : σ)
  | stopped (state : σ) (value : ν)
  /-- Control went to a label that does not stand in the code. -/
  | astray (state : σ) (label : Label)

inductive Status (α σ ν : Type) where
  | running (rest : List (LineBody α)) (state : σ)
  | complete (outcome : Outcome σ ν)

namespace Status

variable {σ ν : Type}

/-- Both runs are over with one outcome, or go on in one state at related places. -/
inductive Rel (R : List (LineBody α) → List (LineBody α) → Prop) :
    Status α σ ν → Status α σ ν → Prop where
  | running {x y s} : R x y → Rel R (.running x s) (.running y s)
  | complete {outcome} : Rel R (.complete outcome) (.complete outcome)

end Status

namespace Machine

variable (M : Machine α)

/-- Execute one line. -/
def exec (body : LineBody α) (s : M.State) : M.State × Exit M.Value :=
  ((M.run body s).1, (M.run body s).2.settle M.one M.zero)

/-- Execute one line and then, if control goes on to it, another. -/
def execBoth (first second : LineBody α) (s : M.State) : M.State × Exit M.Value :=
  match M.exec first s with
  | (s', .next) => M.exec second s'
  | result => result

/-- Go on with a program after a line. -/
def proceed (P : Program α) (rest : List (LineBody α)) :
    M.State × Exit M.Value → Status α M.State M.Value
  | (s, .next) => .running rest s
  | (s, .jump label) =>
    match P.find label with
    | some lines => .running lines s
    | none => .complete (.astray s label)
  | (s, .stop value) => .complete (.stopped s value)

def step (P : Program α) : Status α M.State M.Value → Status α M.State M.Value
  | .running [] s => .complete (.ended s)
  | .running (body :: rest) s => M.proceed P rest (M.exec body s)
  | .complete outcome => .complete outcome

/-- The run of a program from a state is over at some time, with the given outcome. -/
def Ends (P : Program α) (s : M.State) (outcome : Outcome M.State M.Value) : Prop :=
  ∃ n, (M.step P)^[n] (.running P.start s) = .complete outcome

/-- From every state, both programs end with the same outcome or both run forever. -/
def SameRuns (P Q : Program α) : Prop :=
  ∀ s outcome, M.Ends P s outcome ↔ M.Ends Q s outcome

variable {M}

/-! ## Exits -/

theorem exec_next_kind {body : LineBody α} {s : M.State} (h : (M.exec body s).2 = .next) :
    body.kind.isUnconditional = false := by
  have hp := M.run_permits body s
  simp only [exec] at h
  cases he : (M.run body s).2 with
  | next =>
    rw [he] at hp
    cases hk : body.kind <;> simp [hk, LineKind.Permits, LineKind.isUnconditional] at hp ⊢
  | jump label =>
    rw [he] at h
    cases label <;> simp [Exit.settle] at h
  | stop value => simp [he, Exit.settle] at h

theorem exec_jump_target {body : LineBody α} {s : M.State} {label : Label}
    (h : (M.exec body s).2 = .jump label) :
    body.target = some label ∧ ∃ number, label = .point number := by
  simp only [exec] at h
  cases he : (M.run body s).2 with
  | next => simp [he, Exit.settle] at h
  | stop value => simp [he, Exit.settle] at h
  | jump target =>
    rw [he] at h
    cases target <;> simp only [Exit.settle, Exit.jump.injEq, reduceCtorEq] at h
    subst h
    exact ⟨M.run_target _ _ _ he, _, rfl⟩

theorem exec_always {body : LineBody α} {number : Nat} (hk : body.kind = .branchAlways)
    (ht : body.target = some (.point number)) (s : M.State) :
    M.exec body s = (s, .jump (.point number)) := by
  simp [exec, M.run_always body s _ hk ht, Exit.settle]

/-- The labels that return are not places, and a renaming may leave them alone. -/
structure KeepsReturns (f : Label → Label) : Prop where
  returnTrue : f .returnTrue = .returnTrue
  returnFalse : f .returnFalse = .returnFalse
  point : ∀ number, ∃ number', f (.point number) = .point number'

theorem exec_retarget {f : Label → Label} (hf : KeepsReturns f) (body : LineBody α)
    (s : M.State) :
    M.exec (body.retarget f) s = ((M.exec body s).1, (M.exec body s).2.rename f) := by
  simp only [exec, M.run_retarget]
  cases (M.run body s).2 with
  | next | stop => rfl
  | jump target =>
    cases target with
    | returnTrue => simp [Exit.rename, Exit.settle, hf.returnTrue]
    | returnFalse => simp [Exit.rename, Exit.settle, hf.returnFalse]
    | point number =>
      obtain ⟨number', h⟩ := hf.point number
      simp [Exit.rename, Exit.settle, h]

/-! ## Runs -/

@[simp] theorem step_complete (P : Program α) (outcome : Outcome M.State M.Value) :
    M.step P (.complete outcome) = .complete outcome := rfl

theorem iterate_complete (P : Program α) (outcome : Outcome M.State M.Value) (n : Nat) :
    (M.step P)^[n] (.complete outcome) = .complete outcome :=
  Function.iterate_fixed (step_complete P outcome) n

/-- A run that is over at some time is over with the same outcome at every later time. -/
theorem complete_of_le {P : Program α} {c : Status α M.State M.Value}
    {outcome : Outcome M.State M.Value} {n m : Nat} (hnm : n ≤ m)
    (h : (M.step P)^[n] c = .complete outcome) : (M.step P)^[m] c = .complete outcome := by
  obtain ⟨k, rfl⟩ := Nat.exists_eq_add_of_le' hnm
  rw [Function.iterate_add_apply, h, iterate_complete]

namespace SameRuns

variable {P Q : Program α}

theorem refl (P : Program α) : M.SameRuns P P := fun _ _ => .rfl

theorem trans {O : Program α} (h : M.SameRuns P Q) (h' : M.SameRuns Q O) : M.SameRuns P O :=
  fun s outcome => (h s outcome).trans (h' s outcome)

end SameRuns

/-- Both programs can take one or more steps from there to related places. -/
def Matched (P Q : Program α) (R : List (LineBody α) → List (LineBody α) → Prop)
    (c d : Status α M.State M.Value) : Prop :=
  ∃ j k, Status.Rel R ((M.step P)^[j + 1] c) ((M.step Q)^[k + 1] d)

namespace Matched

variable {P Q : Program α} {R : List (LineBody α) → List (LineBody α) → Prop}
variable {c d : Status α M.State M.Value}

theorem of_rel (h : Status.Rel R (M.step P c) (M.step Q d)) : Matched P Q R c d :=
  ⟨0, 0, h⟩

theorem of_step_left (h : Matched P Q R (M.step P c) d) : Matched P Q R c d := by
  obtain ⟨j, k, h⟩ := h
  exact ⟨j + 1, k, by rwa [Function.iterate_succ_apply]⟩

/-- Two lines with the same effect in the states where they are run. -/
theorem of_exec_eq {a b : LineBody α} {x y : List (LineBody α)} {s t : M.State}
    (he : M.exec a s = M.exec b t) (hnext : (M.exec a s).2 = .next → R x y)
    (hjump : ∀ label, (M.exec a s).2 = .jump label → Option.Rel R (P.find label) (Q.find label)) :
    Matched P Q R (.running (a :: x) s) (.running (b :: y) t) := by
  apply of_rel
  simp only [step, ← he]
  cases hr : M.exec a s with
  | mk s' exit =>
    rw [hr] at hnext hjump
    cases exit with
    | next => exact .running (hnext rfl)
    | stop value => exact .complete
    | jump label =>
      have hfind := hjump label rfl
      simp only [proceed]
      cases hP : P.find label <;> cases hQ : Q.find label <;> rw [hP, hQ] at hfind <;> cases hfind
      · exact .complete
      · rename_i hR
        exact .running hR

end Matched

section Lockstep

variable {P Q : Program α} {R : List (LineBody α) → List (LineBody α) → Prop}

private theorem rel_matched
    (hstep : ∀ x y s, R x y → M.Matched P Q R (.running x s) (.running y s))
    {c d : Status α M.State M.Value} (h : Status.Rel R c d) : M.Matched P Q R c d := by
  cases h with
  | running hR => exact hstep _ _ _ hR
  | complete => exact .of_rel .complete

/-- If one run is over after `n` steps, so is the other one after some steps. -/
private theorem complete_of_rel
    (hstep : ∀ c d : Status α M.State M.Value, Status.Rel R c d → M.Matched P Q R c d)
    {outcome : Outcome M.State M.Value} (n : Nat) {c d : Status α M.State M.Value}
    (h : Status.Rel R c d) (hc : (M.step P)^[n] c = .complete outcome) :
    ∃ m, (M.step Q)^[m] d = .complete outcome := by
  induction n using Nat.strongRecOn generalizing c d with
  | ind n ih =>
    obtain ⟨j, k, hjk⟩ := hstep c d h
    by_cases hn : n ≤ j + 1
    · rw [complete_of_le hn hc] at hjk
      cases hd : (M.step Q)^[k + 1] d <;> rw [hd] at hjk <;> cases hjk
      exact ⟨k + 1, hd⟩
    · -- the other run catches up and then has fewer steps to go
      have hsplit : n = (n - (j + 1)) + (j + 1) := by omega
      rw [hsplit, Function.iterate_add_apply] at hc
      obtain ⟨m, hm⟩ := ih (n - (j + 1)) (by omega) hjk hc
      exact ⟨m + (k + 1), by rwa [Function.iterate_add_apply]⟩

private theorem rel_flip {c d : Status α M.State M.Value} (h : Status.Rel R c d) :
    Status.Rel (fun x y => R y x) d c := by
  cases h with
  | running hR => exact .running hR
  | complete => exact .complete

/-- Programs that stay at related places have the same runs. -/
theorem SameRuns.of_lockstep (hstart : R P.start Q.start)
    (hstep : ∀ x y s, R x y → M.Matched P Q R (.running x s) (.running y s)) :
    M.SameRuns P Q := by
  intro s outcome
  have hrel : Status.Rel R (.running P.start s : Status α M.State M.Value)
    (.running Q.start s) := .running hstart
  constructor
  · rintro ⟨n, hn⟩
    exact complete_of_rel (fun _ _ => rel_matched hstep) n hrel hn
  · rintro ⟨n, hn⟩
    refine complete_of_rel (fun c d hcd => ?_) n (rel_flip hrel) hn
    obtain ⟨j, k, hjk⟩ := rel_matched hstep (rel_flip hcd)
    exact ⟨k, j, rel_flip hjk⟩

end Lockstep

end Machine

end StoryAsm
