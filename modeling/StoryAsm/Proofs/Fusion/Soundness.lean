import Std.Data.String.ToInt
import StoryAsm.Proofs.Code.FlushMeaning
import StoryAsm.Proofs.Routine.Lines

/-!
# Fused instructions do what the two did

A pair of lines that is fused falls under one of the rules (`Fusion.rule_of_combine`), and each rule
keeps what the two lines do, from every state (`Processor.exec_rule`). What a rule makes has the shape
of a routine's line again, so it may be fused further. With the lines of routines and all that fusion
makes of them (`Fusion.Producible`) this gives `Fusion.exec_combine`, and with the passes of a flush
`Fusion.sameRuns_flush_combine`.
-/

namespace StoryAsm

/-- A line of the code of a routine, before or between fusions. -/
inductive Fusion.Producible (V : String → Prop) : Line Instr → Prop where
  | written {routine : Routine} {line : Line Instr} : routine.Built V →
    line ∈ routine.fullBuffer.resolvedLines → Producible V line
  | fused {a b : Line Instr} {f : LineBody Instr} : Producible V a → Producible V b →
    Fusion.combine a b = some f → Producible V (a.fuse b f)

namespace Fusion

theorem referenced?_eq_some {arg name : String} : referenced? arg = some name ↔ arg = "'" ++ name := by
  simp only [referenced?]
  constructor
  · intro h
    split at h
    · rename_i rest hrest
      cases h
      exact String.toList_inj.mp (by simp [hrest])
    · cases h
  · rintro rfl
    simp

theorem soleArg?_eq_some {instr : Instr} {arg : String} :
    instr.soleArg? = some arg ↔ instr.args = [arg] := by
  simp only [Instr.soleArg?]
  constructor
  · intro h
    split at h
    · cases h
      assumption
    · cases h
  · intro h
    simp [h]

/-- What a routine returns that returns a pushed value. -/
def returned (value : String) : Instr :=
  if value = "0" then { op := "RFALSE" }
  else if value = "1" then { op := "RTRUE" }
  else { op := "RETURN", args := [value] }

/-- The rules by which two lines are fused, with all that they ask for. -/
inductive Rule (a b : Line Instr) : LineBody Instr → Prop where
  | newLineReturn : a.code.op = "CRLF" → b.code.op = "RTRUE" →
    Rule a b { code := { op := Instr.newlineReturn }, kind := .terminator }
  | printReturn (text : String) : a.code.op = "PRINTI" → b.code.op = Instr.newlineReturn →
    a.code.args = [text] →
    Rule a b { code := { op := "PRINTR", args := [text] }, kind := .heavyTerminator }
  | returnPushed (value : String) : a.code.op = "PUSH" → b.code.op = "RSTACK" →
    a.code.args = [value] → value ≠ "STACK" →
    Rule a b { code := returned value, kind := .terminator }
  | storePopped (dest : String) : a.kind = .plain → a.code.store = some "STACK" → b.code.op = "POP" →
    b.code.args = ["'" ++ dest] → Rule a b { code := { a.code with store := some dest } }
  | stepCompare (direction : Direction) (name right : String) :
    a.code.op = (Primitive.step direction).name → b.code.op = (Primitive.compare direction).name →
    a.kind = .plain → a.code.args = ["'" ++ name] → name ≠ "STACK" → b.code.args = [name, right] →
    right ≠ name →
    Rule a b
      { code := { op := (Primitive.stepCompare direction).name, args := ["'" ++ name, right] }
        target := b.target
        kind := b.kind }

variable {a b : Line Instr} {f : LineBody Instr}

theorem stepCompare?_eq_some {step compare op : String} (h : stepCompare? step compare = some op) :
    ∃ direction, step = (Primitive.step direction).name ∧
      compare = (Primitive.compare direction).name ∧
      op = (Primitive.stepCompare direction).name := by
  simp only [stepCompare?] at h
  split at h
  · rename_i hnames
    cases h
    exact ⟨.up, hnames.1, hnames.2, rfl⟩
  · split at h
    · rename_i hnames
      cases h
      exact ⟨.down, hnames.1, hnames.2, rfl⟩
    · cases h

theorem returnPushed_eq_some {push : Instr} (h : returnPushed push = some f) :
    ∃ value, push.args = [value] ∧ value ≠ "STACK" ∧
      f = { code := returned value, kind := .terminator } := by
  obtain ⟨value, hvalue, h⟩ := Option.bind_eq_some_iff.mp h
  refine ⟨value, soleArg?_eq_some.mp hvalue, ?_⟩
  simp only [returned]
  split at h
  · cases h
  rename_i hstack
  refine ⟨hstack, ?_⟩
  split at h
  · rename_i hzero
    cases h
    simp [hzero]
  split at h
  · rename_i hzero hone
    cases h
    simp [hone]
  · rename_i hzero hone
    cases h
    simp [hzero, hone]

theorem storePopped_eq_some {first pop : Instr} (h : storePopped first pop = some f) :
    ∃ dest, pop.args = ["'" ++ dest] ∧ f = { code := { first with store := some dest } } := by
  obtain ⟨arg, harg, h⟩ := Option.bind_eq_some_iff.mp h
  obtain ⟨dest, hdest, h⟩ := Option.bind_eq_some_iff.mp h
  cases h
  refine ⟨dest, ?_, rfl⟩
  rw [soleArg?_eq_some.mp harg, referenced?_eq_some.mp hdest]

theorem compareStepped_eq_some {op : String} (h : compareStepped op a b = some f) :
    ∃ name right, a.kind = .plain ∧ a.code.args = ["'" ++ name] ∧ name ≠ "STACK" ∧
      b.code.args = [name, right] ∧ right ≠ name ∧
      f = { code := { op, args := ["'" ++ name, right] }, target := b.target, kind := b.kind } := by
  simp only [compareStepped] at h
  split at h
  · cases h
  rename_i hkind
  obtain ⟨arg, harg, h⟩ := Option.bind_eq_some_iff.mp h
  obtain ⟨name, hname, h⟩ := Option.bind_eq_some_iff.mp h
  split at h
  · cases h
  rename_i hstack
  split at h
  · rename_i left right hargs
    obtain ⟨⟨rfl, hright⟩, hf⟩ := Option.ite_none_right_eq_some.mp h
    cases hf
    refine ⟨left, right, by simpa using hkind, ?_, hstack, hargs, hright, rfl⟩
    rw [soleArg?_eq_some.mp harg, referenced?_eq_some.mp hname]
  · cases h

theorem rule_of_combine (h : combine a b = some f) : Rule a b f := by
  simp only [combine] at h
  split at h
  · rename_i hops
    cases h
    exact .newLineReturn hops.1 hops.2
  split at h
  · rename_i hops
    obtain ⟨text, htext, rfl⟩ := Option.map_eq_some_iff.mp h
    exact .printReturn text hops.1 hops.2 (soleArg?_eq_some.mp htext)
  split at h
  · rename_i hops
    obtain ⟨value, hargs, hstack, rfl⟩ := returnPushed_eq_some h
    exact .returnPushed value hops.1 hops.2 hargs hstack
  split at h
  · rename_i hops
    obtain ⟨dest, hargs, rfl⟩ := storePopped_eq_some h
    exact .storePopped dest hops.1 hops.2.1 hops.2.2.1 hargs
  split at h
  · rename_i op hop
    obtain ⟨direction, hstep, hcompare, rfl⟩ := stepCompare?_eq_some hop
    obtain ⟨name, right, hkind, hargs, hstack, hargs', hright, rfl⟩ := compareStepped_eq_some h
    exact .stepCompare direction name right hstep hcompare hkind hargs hstack hargs' hright
  · cases h

end Fusion

namespace Processor

variable {ω : Type} {Z : Processor ω} {s : State ω}

/-! ## Operands -/

theorem pop_push (value : Cell) : Z.pop (s.push value) = (value, s) := rfl

theorem pop_set (name : String) (value : Cell) :
    Z.pop (s.set name value) = ((Z.pop s).1, (Z.pop s).2.set name value) := by
  obtain ⟨values, stack, output, world⟩ := s
  cases stack <;> rfl

@[simp] theorem vars_pop : (Z.pop s).2.vars = s.vars := by
  obtain ⟨values, stack, output, world⟩ := s
  cases stack <;> rfl

@[simp] theorem vars_read (text : String) : (Z.read text s).2.vars = s.vars := by
  simp only [read]
  split
  · exact vars_pop
  · rfl

/-- Reading one operand and setting another variable do not interfere. -/
theorem read_set {text name : String} (h : text ≠ name) (value : Cell) :
    Z.read text (s.set name value) = ((Z.read text s).1, (Z.read text s).2.set name value) := by
  simp only [read]
  split
  · exact pop_set name value
  · simp [State.set, h]

theorem read_set_self {name : String} (hstack : name ≠ "STACK") (hname : Z.isVariable name = true)
    (value : Cell) : Z.read name (s.set name value) = (value, s.set name value) := by
  simp [read, hstack, hname, State.set]

theorem stepVariable_of_ne {direction : Direction} {name : String} (h : name ≠ "STACK") :
    Z.stepVariable direction name s =
      (direction.step (s.vars name), s.set name (direction.step (s.vars name))) := by
  simp [stepVariable, readVariable, State.store, h]

/-! ## Lines -/

variable {a b f : LineBody Instr}

theorem exec_plain (h : a.kind = .plain) :
    Z.machine.exec a s = ((Z.effect a.code s).state, .next) := by
  simp [Machine.exec, machine, Machine.ofEffect, LineBody.isJump, LineBody.exit, h, Exit.settle]

theorem exec_terminator (h : a.kind = .terminator ∨ a.kind = .heavyTerminator) :
    Z.machine.exec a s = ((Z.effect a.code s).state, .stop (Z.effect a.code s).value) := by
  rcases h with h | h <;>
    simp [Machine.exec, machine, Machine.ofEffect, LineBody.isJump, LineBody.exit, h, Exit.settle]

theorem execBoth_plain (h : a.kind = .plain) :
    Z.machine.execBoth a b s = Z.machine.exec b (Z.effect a.code s).state := by
  simp [Machine.execBoth, exec_plain h]

/-- Lines that do not jump differ only by the effects of their instructions. -/
theorem exec_congr {s' : State ω} (hjump : b.kind ≠ .branchAlways) (hkind : f.kind = b.kind)
    (htarget : f.target = b.target) (he : Z.effect f.code s = Z.effect b.code s') :
    Z.machine.exec f s = Z.machine.exec b s' := by
  simp [Machine.exec, machine, Machine.ofEffect, LineBody.isJump, LineBody.exit, hkind, htarget, he,
    hjump]

/-- Lines of which the second returns, and one that returns the same. -/
theorem exec_returning (ha : a.kind = .plain) (hb : b.kind = .terminator)
    (hf : f.kind = .terminator ∨ f.kind = .heavyTerminator)
    (he : Z.effect f.code s = Z.effect b.code (Z.effect a.code s).state) :
    Z.machine.exec f s = Z.machine.execBoth a b s := by
  rw [execBoth_plain ha, exec_terminator hf, exec_terminator (.inl hb), he]

/-- The two numbers that fusion looks for are not names of variables. -/
structure ReadsDigits (Z : Processor ω) : Prop where
  zero : Z.isVariable "0" = false
  one : Z.isVariable "1" = false

theorem ReadsDigits.read_zero (h : Z.ReadsDigits) : Z.read "0" s = (0, s) := by
  have hvalue : Z.value "0" = 0 := Z.value_number 0
  simp [read, h.zero, hvalue]

theorem ReadsDigits.read_one (h : Z.ReadsDigits) : Z.read "1" s = (1, s) := by
  have hvalue : Z.value "1" = 1 := Z.value_number 1
  simp [read, h.one, hvalue]

theorem read_of_ne {text : String} (h : text ≠ "STACK") : (Z.read text s).2 = s := by
  simp [read, h]

theorem effect_other {instr : Instr} (h : Primitive.ofName? instr.op = none) :
    Z.effect instr s = Z.effectOther instr s := by
  simp only [effect, h]

/-! ## Rules -/

open Fusion

/-- Returning a value that was just pushed. -/
theorem effect_returned (hdigits : Z.ReadsDigits) {value : String} (h : value ≠ "STACK") :
    Z.effect (returned value) s = { done s with value := (Z.read value s).1 } := by
  simp only [returned]
  split
  · rename_i hzero
    subst hzero
    rw [hdigits.read_zero]
    rfl
  split
  · rename_i hone
    subst hone
    rw [hdigits.read_one]
    rfl
  · have hprim : Primitive.ofName? "RETURN" = some .returnValue := rfl
    simp only [effect, hprim, read_of_ne h]

/-- Storing on the stack and popping the value. -/
theorem effect_storePopped {instr pop : Instr} {dest : String}
    (hother : Primitive.ofName? instr.op = none) (hstore : instr.store = some "STACK")
    (hpop : Primitive.ofName? pop.op = some .pop) (hargs : pop.args = ["'" ++ dest]) :
    (Z.effect { instr with store := some dest } s).state =
      (Z.effect pop (Z.effect instr s).state).state := by
  have href : referenced? ("'" ++ dest) = some dest := referenced?_eq_some.mpr rfl
  have hother' : Primitive.ofName? ({ instr with store := some dest } : Instr).op = none := hother
  rw [effect_other hother', effect_other hother]
  simp only [effect, hpop, hargs, href, effectOther, hstore, State.store, ↓reduceIte]
  rfl

/-- Comparing a variable right after a step. -/
theorem effect_stepCompare {direction : Direction} {name right : String} {step compare : Instr}
    (hstep : Primitive.ofName? step.op = some (.step direction)) (hargs : step.args = ["'" ++ name])
    (hcompare : Primitive.ofName? compare.op = some (.compare direction))
    (hargs' : compare.args = [name, right]) (hstack : name ≠ "STACK") (hright : right ≠ name)
    (hname : Z.isVariable name = true) :
    Z.effect { op := (Primitive.stepCompare direction).name, args := ["'" ++ name, right] } s =
      Z.effect compare (Z.effect step s).state := by
  have href : referenced? ("'" ++ name) = some name := referenced?_eq_some.mpr rfl
  simp only [effect, hstep, hargs, hcompare, hargs', href, Primitive.ofName?_name, done,
    stepVariable_of_ne hstack, read_set_self hstack hname, read_set hright, vars_read]

/-- A rule keeps what two lines do, from every state. -/
theorem exec_rule {a b : Line Instr} (hdigits : Z.ReadsDigits) (ha : a.Shaped (Z.isVariable · = true))
    (hb : b.Shaped (Z.isVariable · = true)) (h : Rule a b f) :
    Z.machine.exec f s = Z.machine.execBoth a.toLineBody b.toLineBody s := by
  cases h with
  | newLineReturn hop hop' =>
    have hprim : Primitive.ofName? a.code.op = some .newLine := by rw [hop]; rfl
    have hprim' : Primitive.ofName? b.code.op = some .returnTrue := by rw [hop']; rfl
    have hkind : a.kind = .plain := by simpa [Primitive.suits] using ha.suits hprim
    have hkind' : b.kind = .terminator := by simpa [Primitive.suits] using hb.suits hprim'
    have hmarker : Primitive.ofName? Instr.newlineReturn = some .newLineReturn := rfl
    refine exec_returning hkind hkind' (.inl rfl) ?_
    simp only [effect, hprim, hprim', hmarker, done]
  | printReturn text hop hop' hargs =>
    have hprim : Primitive.ofName? a.code.op = some .print := by rw [hop]; rfl
    have hprim' : Primitive.ofName? b.code.op = some .newLineReturn := by rw [hop']; rfl
    have hkind : a.kind = .plain := by simpa [Primitive.suits] using ha.suits hprim
    have hkind' : b.kind = .terminator := by simpa [Primitive.suits] using hb.suits hprim'
    have hprint : Primitive.ofName? "PRINTR" = some .printReturn := rfl
    refine exec_returning hkind hkind' (.inr rfl) ?_
    simp only [effect, hprim, hprim', hprint, hargs, done]
  | returnPushed value hop hop' hargs hstack =>
    have hprim : Primitive.ofName? a.code.op = some .push := by rw [hop]; rfl
    have hprim' : Primitive.ofName? b.code.op = some .returnStack := by rw [hop']; rfl
    have hkind : a.kind = .plain := by simpa [Primitive.suits] using ha.suits hprim
    have hkind' : b.kind = .terminator := by simpa [Primitive.suits] using hb.suits hprim'
    refine exec_returning hkind hkind' (.inl rfl) ?_
    rw [effect_returned hdigits hstack]
    simp only [effect, hprim, hprim', hargs, done, read_of_ne hstack, pop_push]
  | storePopped dest hkind hstore hop' hargs =>
    have hother : Primitive.ofName? a.code.op = none := by
      cases hprim : Primitive.ofName? a.code.op with
      | none => rfl
      | some p => simp [ha.store hprim] at hstore
    have hprim' : Primitive.ofName? b.code.op = some .pop := by rw [hop']; rfl
    have hkind' : b.kind = .plain := by simpa [Primitive.suits] using hb.suits hprim'
    rw [execBoth_plain hkind, exec_plain rfl, exec_plain hkind',
      effect_storePopped hother hstore hprim' hargs]
  | stepCompare direction name right hop hop' hkind hargs hstack hargs' hright =>
    have hprim : Primitive.ofName? a.code.op = some (.step direction) := by
      rw [hop, Primitive.ofName?_name]
    have hprim' : Primitive.ofName? b.code.op = some (.compare direction) := by
      rw [hop', Primitive.ofName?_name]
    have hkind' : b.kind = .branchPositive ∨ b.kind = .branchNegative := by
      simpa [Primitive.suits] using hb.suits hprim'
    have hname : Z.isVariable name = true := (ha.stepped hprim hargs).resolve_left hstack
    rw [execBoth_plain hkind]
    refine exec_congr ?_ rfl rfl ?_
    · rcases hkind' with h | h <;> simp [h]
    · exact effect_stepCompare hprim hargs hprim' hargs' hstack hright hname

end Processor

namespace Fusion

variable {V : String → Prop} {a b : Line Instr} {f : LineBody Instr}

/-- What a rule makes of two lines has the shape of a line again. -/
theorem Rule.shaped (h : Rule a b f) (ha : a.Shaped V) (hb : b.Shaped V) : f.Shaped V := by
  cases h with
  | newLineReturn => exact .of_primitive (p := .newLineReturn) rfl rfl rfl (by simp)
  | printReturn => exact .of_primitive (p := .printReturn) rfl rfl rfl (by simp)
  | returnPushed value =>
    simp only [returned]
    split
    · exact .of_primitive (p := .returnFalse) rfl rfl rfl (by simp)
    split
    · exact .of_primitive (p := .returnTrue) rfl rfl rfl (by simp)
    · exact .of_primitive (p := .returnValue) rfl rfl rfl (by simp)
  | storePopped dest _ hstore =>
    refine .of_other ?_
    cases hprim : Primitive.ofName? a.code.op with
    | none => rfl
    | some p => simp [ha.store hprim] at hstore
  | stepCompare direction name right _ hop' =>
    refine .of_primitive (p := .stepCompare direction) rfl rfl ?_ (by simp)
    have hprim' : Primitive.ofName? b.code.op = some (.compare direction) := by
      rw [hop', Primitive.ofName?_name]
    have hsuits := hb.suits hprim'
    exact hsuits

theorem Rule.target (h : Rule a b f) : f.target = none ∨ f.target = a.target ∨ f.target = b.target := by
  cases h with
  | stepCompare => exact .inr (.inr rfl)
  | _ => exact .inl rfl

theorem Producible.shaped {line : Line Instr} (h : Producible V line) : line.Shaped V := by
  induction h with
  | written hbuilt hm => exact hbuilt.shaped hm
  | fused _ _ hf iha ihb => exact (rule_of_combine hf).shaped iha ihb

/-- Fusion is sound on every line that has the shape of a routine's lines. -/
theorem soundOn_combine {ω : Type} {Z : Processor ω} (hdigits : Z.ReadsDigits) :
    Combiner.SoundOn Z.machine combine fun line => line.Shaped (Z.isVariable · = true) where
  exec_fused ha hb hf _ := Processor.exec_rule hdigits ha hb (rule_of_combine hf)
  target_fused _ _ hf := (rule_of_combine hf).target
  good_fused ha hb hf := (rule_of_combine hf).shaped ha hb

/-- Flushing with the rules of fusion keeps the runs of every code of such lines. -/
theorem sameRuns_flush_combine {ω : Type} {Z : Processor ω} (hdigits : Z.ReadsDigits)
    {script : Script Instr} (h : script.WellMarked)
    (hlines : ∀ body ∈ Piece.lines script.pieces, body.Shaped (Z.isVariable · = true)) :
    Z.machine.SameRuns (Piece.program script.pieces) (script.buffer.flush combine).program := by
  have htracks := script.tracks h.nodup
  refine htracks.sameRuns_flush_of_good h.point (soundOn_combine hdigits) fun line hm => ?_
  have hbody : line.toLineBody ∈ Code.bodies script.buffer.resolvedLines := List.mem_map_of_mem hm
  rw [Buffer.bodies_resolvedLines htracks] at hbody
  obtain ⟨body, hm', he⟩ := List.mem_map.mp hbody
  rw [← he]
  exact (hlines body hm').retarget _

/-- The rules of fusion are sound for all lines of routines whose variables have names in `V`. A name in `V`
is read as the variable wherever it stands, and the texts `0` and `1` are read as numbers. Where numerals
are read as numbers, this is to say that no variable is named by a numeral. -/
theorem exec_combine {ω : Type} (Z : Processor ω) (V : String → Prop)
    (hreads : ∀ name, V name → Z.isVariable name = true) (hdigits : Z.ReadsDigits) (a b : Line Instr)
    (ha : Producible V a) (hb : Producible V b) (f : LineBody Instr) (hf : combine a b = some f)
    (s : Processor.State ω) :
    Z.machine.exec f s = Z.machine.execBoth a.toLineBody b.toLineBody s :=
  (soundOn_combine hdigits).exec_fused (ha.shaped.mono hreads) (hb.shaped.mono hreads) hf s

/-- A processor with one variable, on which other instructions do nothing. -/
def bareProcessor : Processor Unit where
  isVariable text := text = "X"
  value text := BitVec.ofInt 16 (text.toInt?.getD 0)
  value_number number := by
    show BitVec.ofInt 16 ((number.repr).toInt?.getD 0) = _
    rw [Int.toInt?_repr, Option.getD_some]
  printed text := text
  bottom := 0
  other _ _ s := { state := s, holds := false, value := 0, result := 0 }

/-- Steps its variable, compares it with the value on the stack and returns it. -/
def steppingRoutine (name : String) : Routine :=
  let x : Operand := .var name .routine
  let start : Routine :=
    { name := "R", version := { number := 3 }, isEntryPoint := false, cleansStack := true }
  [.slot name none, .emit (.binary .add x (.number 1) (some x)),
    .emit (.branch .greater (some x) (some .stack) (.point 0) true), .emit (.store .stack x),
    .emit (.ret .stack)].foldl (fun routine call => Routine.Call.apply call routine) start

theorem built_steppingRoutine (name : String) (h : V name) : (steppingRoutine name).Built V := by
  refine .call (.call (.call (.call (.call (.new ..) ?_) ?_) ?_) ?_) ?_
  · trivial
  all_goals simp [Routine.Call.NamedIn, Emission.operands, Operand.NamedIn, Operand.stack, h]

def stepLine (name : String) : Line Instr where
  code := { op := "INC", args := ["'" ++ name] }

def compareLine (name : String) : Line Instr where
  code := { op := "GRTR?", args := [name, "STACK"] }
  target := some (.point 0)
  kind := .branchPositive

def stepCompareLine (name : String) : LineBody Instr where
  code := { op := "IGRTR?", args := ["'" ++ name, "STACK"] }
  target := some (.point 0)
  kind := .branchPositive

/-- The step and the comparison of the routine are fused. -/
theorem exec_combine_stepLine :
    (∀ name, name = "X" → bareProcessor.isVariable name = true) ∧ bareProcessor.ReadsDigits ∧
      (steppingRoutine "X").Built (· = "X") ∧
      stepLine "X" ∈ (steppingRoutine "X").fullBuffer.resolvedLines ∧
      compareLine "X" ∈ (steppingRoutine "X").fullBuffer.resolvedLines ∧
      combine (stepLine "X") (compareLine "X") = some (stepCompareLine "X") ∧
      ∀ s, bareProcessor.machine.exec (stepCompareLine "X") s =
        bareProcessor.machine.execBoth (stepLine "X").toLineBody (compareLine "X").toLineBody s := by
  have hreads : ∀ name, name = "X" → bareProcessor.isVariable name = true := fun _ => decide_eq_true
  have hdigits : bareProcessor.ReadsDigits := ⟨rfl, rfl⟩
  have hbuilt := built_steppingRoutine (V := (· = "X")) "X" rfl
  have hstep : stepLine "X" ∈ (steppingRoutine "X").fullBuffer.resolvedLines := by decide
  have hcompare : compareLine "X" ∈ (steppingRoutine "X").fullBuffer.resolvedLines := by decide
  have hf : combine (stepLine "X") (compareLine "X") = some (stepCompareLine "X") := by decide
  refine ⟨hreads, hdigits, hbuilt, hstep, hcompare, hf, fun s => ?_⟩
  exact exec_combine bareProcessor _ hreads hdigits _ _ (.written hbuilt hstep) (.written hbuilt hcompare)
    _ hf s

/-- A variable that is named by a digit cannot be told from the number. If the name is read as the
variable, a return of it goes wrong; if it is read as the number, a comparison does. -/
theorem not_exec_combine_zero :
    ¬∃ Z : Processor Unit, ∀ a b f, Producible (· = "0") a → Producible (· = "0") b →
      combine a b = some f →
        ∀ s, Z.machine.exec f s = Z.machine.execBoth a.toLineBody b.toLineBody s := by
  rintro ⟨Z, h⟩
  have hbuilt := built_steppingRoutine (V := (· = "0")) "0" rfl
  cases hzero : Z.isVariable "0" with
  | true =>
    have heq := h { code := { op := "PUSH", args := ["0"] } }
      { code := { op := "RSTACK" }, kind := .terminator } _ (.written hbuilt (by decide))
      (.written hbuilt (by decide)) rfl ⟨fun _ => 1, [], "", ()⟩
    have hpush : Primitive.ofName? "PUSH" = some .push := rfl
    have hreturn : Primitive.ofName? "RSTACK" = some .returnStack := rfl
    have hfalse : Primitive.ofName? "RFALSE" = some .returnFalse := rfl
    rw [Processor.execBoth_plain rfl, Processor.exec_terminator (.inl rfl),
      Processor.exec_terminator (.inl rfl)] at heq
    have hvalue := Exit.stop.inj (congrArg Prod.snd heq)
    simp [Processor.effect, hpush, hreturn, hfalse, Processor.read, hzero, Processor.State.push,
      Processor.pop, Processor.done] at hvalue
    exact absurd (show (0 : Cell) = 1 from hvalue) (by decide)
  | false =>
    have heq := h (stepLine "0") (compareLine "0") (stepCompareLine "0")
      (.written hbuilt (by decide)) (.written hbuilt (by decide)) (by decide) ⟨fun _ => 0, [0], "", ()⟩
    have hvalue : Z.value "0" = 0 := Z.value_number 0
    have hstep : Primitive.ofName? "INC" = some (.step .up) := rfl
    have hcompare : Primitive.ofName? "GRTR?" = some (.compare .up) := rfl
    have hboth : Primitive.ofName? "IGRTR?" = some (.stepCompare .up) := rfl
    have href : referenced? "'0" = some "0" := rfl
    rw [Processor.execBoth_plain rfl] at heq
    have hexit := congrArg Prod.snd heq
    simp [Machine.exec, Processor.machine, Machine.ofEffect, stepLine, compareLine, stepCompareLine,
      LineBody.exit,
      Processor.effect, hstep, hcompare, hboth, href, Processor.stepVariable, Processor.readVariable,
      Processor.read, hzero, hvalue, Processor.State.store, Processor.State.set, Processor.pop,
      Processor.done, Direction.beyond, Direction.step, Exit.settle] at hexit

end Fusion

end StoryAsm
