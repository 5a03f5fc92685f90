import StoryAsm.Proofs.Code.Legible
import StoryAsm.Proofs.Routine.Prologue
import StoryAsm.Proofs.Story.FileIds

/-!
# Reading the code of a routine

Whatever calls are made on a routine, its lines are written in tokens, as long as the names among the
operands are symbols and directives come from the registry (`Routine.Call.OfStory`). Resolving labels, fusion
and the other passes keep to this. So two routines with the same text have the same code
(`Routine.expanded_flushed_inj`).
-/

namespace StoryAsm

open Text

/-! ## Lines before they are written -/

namespace LineBody

/-- A line as the code of a routine has it: it can be read, or it is written as two lines that can. -/
inductive Written : LineBody Instr → Prop where
  | legible {body : LineBody Instr} : body.Legible → Written body
  | newlineReturn : Written { code := { op := Instr.newlineReturn }, kind := .terminator }

namespace Written

variable {body : LineBody Instr}

/-- A line that stores something, or that has one of the usual mnemonics, is written in tokens. -/
theorem exists_branch (h : body.Written)
    (hcode : Instr.isMnemonic body.code.op = true ∨ body.code.store ≠ none) :
    Instr.isMnemonic body.code.op = true ∧ (∀ arg ∈ body.code.args, IsToken arg) ∧
      (∀ dest ∈ body.code.store, IsToken dest) ∧ ∃ branch, body = body.code.line branch := by
  have hfixed : ∀ op ∈ ["JUMP", "PRINTI", "PRINTR", Instr.newlineReturn], ¬Instr.isMnemonic op = true := by
    decide
  cases h with
  | newlineReturn => exact absurd rfl (hcode.resolve_left (hfixed _ (by simp)))
  | legible h =>
    cases h with
    | jump | print | printReturn => exact absurd rfl (hcode.resolve_left (hfixed _ (by simp)))
    | @tokens code branch hop hargs hstore =>
      rw [code_line]
      exact ⟨hop, hargs, hstore, branch, rfl⟩

theorem retarget (h : body.Written) (f : Label → Label) : (body.retarget f).Written := by
  cases h with
  | newlineReturn => exact .newlineReturn
  | legible h =>
    cases h with
    | jump target => exact .legible (.jump (f target))
    | print text => exact .legible (.print text)
    | printReturn text => exact .legible (.printReturn text)
    | @tokens code branch hop hargs hstore =>
      cases branch with
      | none => exact .legible (.straight hop rfl hargs hstore)
      | some branch => exact .legible (.branch (f branch.1) branch.2 hop hargs hstore)

/-- A line that prints a text has a literal of it and nothing else. -/
theorem exists_eq_print (h : body.Written) (hop : body.code.op = "PRINTI" ∨ body.code.op = "PRINTR") :
    ∃ text, body = { code := { op := "PRINTI", args := [quote text] } } ∨
      body = { code := { op := "PRINTR", args := [quote text] }, kind := .heavyTerminator } := by
  cases h with
  | newlineReturn => exact absurd hop (by decide)
  | legible h =>
    cases h with
    | jump => simp at hop
    | print text => exact ⟨text, .inl rfl⟩
    | printReturn text => exact ⟨text, .inr rfl⟩
    | tokens branch hname =>
      rw [code_line] at hop
      exact absurd hop (not_or.mpr (Instr.ne_of_isMnemonic hname).2)

theorem exists_text (h : body.Written) (hop : body.code.op = "PRINTI") :
    ∃ text, body.code.args = [quote text] := by
  obtain ⟨text, rfl | rfl⟩ := h.exists_eq_print (.inl hop)
  · exact ⟨text, rfl⟩
  · exact ⟨text, rfl⟩

end Written

end LineBody

theorem IsToken.of_append_right {a b : String} (h : IsToken (a ++ b)) : IsToken b := by
  rw [IsToken, String.toList_append, List.all_append, Bool.and_eq_true] at h
  exact h.2

namespace Fusion

theorem written_returned {value : String} (h : IsToken value) :
    LineBody.Written { code := returned value, kind := .terminator } := by
  have hvalue : ∀ arg ∈ [value], IsToken arg := by simpa using h
  simp only [returned]
  split
  · exact .legible (.bare rfl rfl)
  split
  · exact .legible (.bare rfl rfl)
  · exact .legible (.straight rfl rfl hvalue (by simp))

/-- Fusion makes lines that can be read of lines that can be read. -/
theorem written_of_combine {a b : Line Instr} {f : LineBody Instr} (ha : a.toLineBody.Written)
    (hb : b.toLineBody.Written) (h : combine a b = some f) : f.Written := by
  cases rule_of_combine h with
  | newLineReturn => exact .newlineReturn
  | printReturn text hop hop' hargs =>
    obtain ⟨printed, hprinted⟩ := ha.exists_text hop
    cases hargs.symm.trans hprinted
    exact .legible (.printReturn printed)
  | returnPushed value hop hop' hargs hne =>
    obtain ⟨-, htokens, -⟩ := ha.exists_branch (.inl (by rw [hop]; rfl))
    exact written_returned (htokens value (by simp [hargs]))
  | storePopped dest hkind hstore hop hargs =>
    obtain ⟨hname, htokens, -, branch, hbranch⟩ := ha.exists_branch (.inr (by simp [hstore]))
    obtain ⟨-, htokens', -⟩ := hb.exists_branch (.inl (by rw [hop]; rfl))
    have hdest : IsToken dest := .of_append_right (htokens' ("'" ++ dest) (by simp [hargs]))
    -- a line that branches is not plain, so that the kind of this one comes from its mnemonic
    have hstraight : .plain = Instr.straightKind a.code.op := by
      have hplain := hkind.symm.trans (congrArg LineBody.kind hbranch)
      cases branch with
      | none => exact hplain
      | some branch =>
        obtain ⟨target, positive⟩ := branch
        cases positive <;> cases hplain
    exact .legible (.straight hname hstraight htokens (by simpa using hdest))
  | stepCompare direction name right hop hop' hkind hargs hne hargs' hne' =>
    have hcompare : Instr.isMnemonic b.code.op = true := by
      rw [hop']
      cases direction <;> rfl
    have hstepped : Instr.isMnemonic (Primitive.stepCompare direction).name = true := by
      cases direction <;> rfl
    have hkinds : Instr.straightKind (Primitive.compare direction).name =
        Instr.straightKind (Primitive.stepCompare direction).name := by
      cases direction <;> rfl
    -- the comparison gives its branch to the fused line, if it has one
    obtain ⟨-, htokens, -, branch, hbranch⟩ := hb.exists_branch (.inl hcompare)
    rw [hargs'] at htokens
    have hname : IsToken ("'" ++ name) := .append (by decide) (htokens name (by simp))
    have hright : IsToken right := htokens right (by simp)
    have htarget : b.target = (b.code.line branch).target := congrArg LineBody.target hbranch
    have hkind' : b.kind = (b.code.line branch).kind := congrArg LineBody.kind hbranch
    rw [htarget, hkind']
    cases branch with
    | none =>
      refine .legible (.straight hstepped ?_ (by simpa using ⟨hname, hright⟩) (by simp))
      rw [← hkinds, ← hop']
      rfl
    | some branch =>
      exact .legible (.branch branch.1 branch.2 hstepped (by simpa using ⟨hname, hright⟩) (by simp))

end Fusion

/-! ## Passes -/

namespace Code

variable {α : Type}

theorem bodies_dropUnreachable_subset (labels : List Label) (reachable : Bool) (debug : List String)
    (lines : List (Line α)) : bodies (dropUnreachable labels reachable debug lines).1 ⊆ bodies lines := by
  induction lines generalizing reachable debug with
  | nil => exact List.Subset.refl _
  | cons line rest ih =>
    simp only [dropUnreachable]
    split
    · exact List.cons_subset_cons _ (ih _ _)
    · exact List.subset_cons_of_subset _ (ih _ _)

theorem bodies_dropJumps_subset (debug : List String) (lines : List (Line α)) :
    bodies (dropJumps debug lines) ⊆ bodies lines := by
  induction lines generalizing debug with
  | nil => exact List.Subset.refl _
  | cons line rest ih =>
    rw [dropJumps_cons]
    split
    · exact List.subset_cons_of_subset _ (ih _)
    · exact List.cons_subset_cons _ (ih _)

theorem written_fuseLines (labels : List Label) {lines : List (Line Instr)}
    (h : ∀ line ∈ lines, line.toLineBody.Written) :
    ∀ line ∈ fuseLines Fusion.combine labels lines, line.toLineBody.Written := by
  refine fuseLines_induction (P := fun current => ∀ line ∈ current, line.toLineBody.Written) ?_ h
  intro before a b f after hf _ hall line hline
  rcases List.mem_append.mp hline with hline | hline
  · exact hall line (List.mem_append_left _ hline)
  rcases List.mem_cons.mp hline with rfl | hline
  · exact Fusion.written_of_combine (hall a (by simp)) (hall b (by simp)) hf
  · exact hall line (by simp [hline])

end Code

/-- All passes keep to lines that can be read. -/
theorem Buffer.written_flush {buffer : Buffer Instr}
    (h : ∀ line ∈ buffer.lines.toList, line.toLineBody.Written) :
    ∀ line ∈ (buffer.flush Fusion.combine).lines, line.toLineBody.Written := by
  have hresolved : ∀ line ∈ buffer.resolvedLines, line.toLineBody.Written := by
    intro line hline
    obtain ⟨line', hline', rfl⟩ := List.mem_map.mp hline
    exact (h line' hline').retarget buffer.resolve
  have hfused := Code.written_fuseLines (Code.referenced buffer.resolvedLines) hresolved
  intro line hline
  have hbody := Code.bodies_dropUnreachable_subset _ _ _ _
    (Code.bodies_dropJumps_subset _ _ (List.mem_map_of_mem hline))
  obtain ⟨line', hline', heq⟩ := List.mem_map.mp hbody
  exact heq ▸ hfused line' hline'

theorem LineBody.Written.legible_expanded {line : Line Instr} (h : line.toLineBody.Written) :
    ∀ written ∈ line.expanded, written.toLineBody.Legible := by
  intro written hwritten
  rw [Line.expanded] at hwritten
  split at hwritten
  · rcases List.mem_cons.mp hwritten with rfl | hwritten
    · exact .bare rfl rfl
    · cases List.mem_singleton.mp hwritten
      exact .bare rfl rfl
  · rename_i hop
    cases List.mem_singleton.mp hwritten
    generalize line.toLineBody = body at h hop
    cases h with
    | newlineReturn => exact absurd rfl hop
    | legible h => exact h

/-- The directives of a line are those of the first line that is written for it. -/
theorem Line.directives_expanded (line : Line Instr) : Code.directives line.expanded = line.debug := by
  rw [expanded]
  split <;> simp [Code.directives]

theorem Flushed.directives_expanded (flushed : Flushed Instr) :
    flushed.expanded.directives = flushed.directives := by
  have hlines : Code.directives (flushed.lines.flatMap Line.expanded) = Code.directives flushed.lines := by
    rw [Code.directives, List.flatMap_assoc]
    exact List.flatMap_congr fun line _ => line.directives_expanded
  rw [Flushed.directives, Flushed.directives, expanded, hlines]

theorem Flushed.legible_expanded {flushed : Flushed Instr}
    (hlines : ∀ line ∈ flushed.lines, line.toLineBody.Written)
    (hdirectives : ∀ record ∈ flushed.directives, IsDirective record) : flushed.expanded.Legible where
  bodies line hline := by
    obtain ⟨line', hline', hwritten⟩ := List.mem_flatMap.mp hline
    exact (hlines line' hline').legible_expanded line hwritten
  directives := by
    rw [directives_expanded]
    exact hdirectives

/-! ## Operands -/

theorem IsToken.ofName (name : String) : IsToken (Symbol.ofName name) :=
  .of_all_isSymbolChar (Symbol.all_isSymbolChar_ofName name)

theorem IsToken.toString_int (value : Int) : IsToken (toString value) := by
  cases value with
  | ofNat n => exact toString_nat n
  | negSucc n => exact append (a := "-") (by decide) (toString_nat n.succ)

namespace Operand

/-- An operand as a story hands it out: a number, a string of the pool, or something with a symbol. -/
def OfStory : Operand → Prop
  | symbol name | var name _ => ∃ text, name = Symbol.ofName text
  | number _ | string _ _ => True

variable {operand : Operand}

theorem OfStory.isToken_text (h : operand.OfStory) : IsToken operand.text := by
  cases operand with
  | number value => exact .toString_int value
  | string index content => exact .append (a := "STR?") (by decide) (.toString_nat index)
  | symbol name | var name scope =>
    obtain ⟨text, rfl⟩ := h
    exact .ofName text

theorem OfStory.isToken_reference (h : operand.OfStory) : IsToken operand.reference := by
  cases operand with
  | var name scope => exact .append (by decide) h.isToken_text
  | number | string | symbol => exact h.isToken_text

end Operand

/-! ## Lines of emissions -/

section
variable {version : Version} {opcode : Opcode}

/-- The opcode is written in tokens, and its kind is that of its mnemonic. -/
def Opcode.IsKnown (opcode : Opcode) : Prop :=
  Instr.isMnemonic opcode.name = true ∧ opcode.kind = Instr.straightKind opcode.name

/-- The opcode is written in tokens, and its lines are plain ones. -/
def Opcode.IsPlain (opcode : Opcode) : Prop :=
  Instr.isMnemonic opcode.name = true ∧ .plain = Instr.straightKind opcode.name

theorem NullaryOp.isKnown {op : NullaryOp} (h : op.opcode? version = some opcode) : opcode.IsKnown := by
  cases op with
  | quit | restart => cases h; exact ⟨rfl, rfl⟩
  | showStatus =>
    simp only [opcode?, Option.ite_none_right_eq_some] at h
    cases h.2
    exact ⟨rfl, rfl⟩
  | _ => cases Opcode.eq_of_from h; exact ⟨rfl, rfl⟩

theorem UnaryOp.isPlain {op : UnaryOp} (h : op.opcode? version = some opcode) : opcode.IsPlain := by
  cases op with
  | splitWindow | setWindow | directOutput | directInput | clearWindow | eraseLine | setFont =>
    cases Opcode.eq_of_from h; exact ⟨rfl, rfl⟩
  | _ => cases h; exact ⟨rfl, rfl⟩

theorem BinaryOp.isKnown {op : BinaryOp} (h : op.opcode? version = some opcode) : opcode.IsKnown := by
  cases op with
  | setCursor | artShift | logShift | setColor | throwFrame =>
    cases Opcode.eq_of_from h; exact ⟨rfl, rfl⟩
  | _ => cases h; exact ⟨rfl, rfl⟩

theorem TernaryOp.isPlain {op : TernaryOp} (h : op.opcode? version = some opcode) : opcode.IsPlain := by
  cases op with
  | copyTable => cases Opcode.eq_of_from h; exact ⟨rfl, rfl⟩
  | _ => cases h; exact ⟨rfl, rfl⟩

theorem PrintOp.isPlain {op : PrintOp} (h : op.opcode? version = some opcode) : opcode.IsPlain := by
  cases op with
  | unicode => cases Opcode.eq_of_from h; exact ⟨rfl, rfl⟩
  | _ => cases h; exact ⟨rfl, rfl⟩

theorem Condition.isMnemonic {condition : Condition} (h : condition.opcode? version = some opcode) :
    Instr.isMnemonic opcode.name = true := by
  cases condition with
  | argProvided | verify => cases Opcode.eq_of_from h; rfl
  | _ => cases h; rfl

end

namespace Emission

variable {version : Version} {body : LineBody Instr}

theorem isToken_of_storeTarget {result : Option Operand} {store : Option String}
    (hresult : ∀ dest ∈ result, dest.OfStory) (h : storeTarget result = .ok store) :
    ∀ dest ∈ store, IsToken dest := by
  cases result with
  | none =>
    cases h
    simp
  | some operand =>
    obtain ⟨_, -, h⟩ := bind_eq_ok.mp h
    cases h
    simpa using (hresult operand rfl).isToken_text

theorem isToken_of_opcodeTarget {opcode : Opcode} {result : Option Operand} {store : Option String}
    (hresult : ∀ dest ∈ result, dest.OfStory) (h : opcodeTarget opcode result = .ok store) :
    ∀ dest ∈ store, IsToken dest := by
  simp only [opcodeTarget] at h
  split at h
  · exact isToken_of_storeTarget hresult h
  split at h
  · cases h
  · cases h
    simp

theorem isToken_texts {operands : List Operand} (h : ∀ operand ∈ operands, operand.OfStory) :
    ∀ arg ∈ operands.map Operand.text, IsToken arg := by
  intro arg harg
  obtain ⟨operand, hoperand, rfl⟩ := List.mem_map.mp harg
  exact (h operand hoperand).isToken_text

theorem legible_jumpLine (target : Label) : (jumpLine target).Legible := by
  cases target with
  | point number => exact .jump (.point number)
  | returnTrue | returnFalse => exact .bare rfl rfl

/-- The line of a condition, once its operands are known to fit. -/
theorem legible_of_condition {condition : Condition} {args : List String} {target : Label}
    {positive : Bool} (hargs : ∀ arg ∈ args, IsToken arg)
    (h : (do
      let opcode ← Opcode.require condition.name version (condition.opcode? version)
      pure (branchLine { op := opcode.name, args,
                         store := if opcode.stores then some Operand.stack.text else none }
        target positive)) = Except.ok body) :
    body.Legible := by
  obtain ⟨opcode, hopcode, h⟩ := bind_eq_ok.mp h
  cases h
  have hstack : IsToken Operand.stack.text := by decide
  refine .branch target positive (Condition.isMnemonic (Opcode.require_eq_ok hopcode)) hargs ?_
  split
  · simpa using hstack
  · simp

theorem legible_conditionLine {condition : Condition} {left right : Option Operand} {target : Label}
    {positive : Bool} (hoperands : ∀ operand ∈ left.toList ++ right.toList, operand.OfStory)
    (h : conditionLine version condition left right target positive = .ok body) : body.Legible := by
  have hargs : ∀ arg ∈ left.toList.map
      (if condition.takesReference then Operand.reference else Operand.text) ++
        right.toList.map Operand.text, IsToken arg := by
    intro arg harg
    rcases List.mem_append.mp harg with harg | harg
    · obtain ⟨operand, hoperand, rfl⟩ := List.mem_map.mp harg
      have hstory := hoperands operand (List.mem_append_left _ hoperand)
      split
      · exact hstory.isToken_reference
      · exact hstory.isToken_text
    · exact isToken_texts (fun operand hoperand => hoperands operand (List.mem_append_right _ hoperand)) arg harg
  have h := eq_ok_of_guard h
  split at h
  · split at h
    · obtain ⟨_, -, h⟩ := bind_eq_ok.mp h
      exact legible_of_condition hargs h
    · exact legible_of_condition hargs h
  · exact legible_of_condition hargs h

theorem legible_treeLine {op : String} {object dest : Operand} {target : Label} {positive : Bool}
    (hop : Instr.isMnemonic op = true) (hobject : object.OfStory) (hdest : dest.OfStory)
    (h : treeLine op object dest target positive = .ok body) : body.Legible := by
  obtain ⟨store, hstore, h⟩ := bind_eq_ok.mp h
  cases h
  exact .branch target positive hop (by simpa using hobject.isToken_text)
    (isToken_of_storeTarget (by simpa using hdest) hstore)

theorem legible_nullaryLine {op : NullaryOp} {result : Option Operand}
    (hresult : ∀ dest ∈ result, dest.OfStory) (h : nullaryLine version op result = .ok body) :
    body.Legible := by
  obtain ⟨opcode, hopcode, h⟩ := bind_eq_ok.mp h
  obtain ⟨store, hstore, h⟩ := bind_eq_ok.mp h
  cases h
  obtain ⟨hname, hkind⟩ := NullaryOp.isKnown (Opcode.require_eq_ok hopcode)
  exact .straight hname hkind (by simp) (isToken_of_opcodeTarget hresult hstore)

theorem legible_unaryLine {op : UnaryOp} {value : Operand} {result : Option Operand}
    (hvalue : value.OfStory) (hresult : ∀ dest ∈ result, dest.OfStory)
    (h : unaryLine version op value result = .ok body) : body.Legible := by
  obtain ⟨opcode, hopcode, h⟩ := bind_eq_ok.mp h
  obtain ⟨store, hstore, h⟩ := bind_eq_ok.mp h
  cases h
  obtain ⟨hname, hkind⟩ := UnaryOp.isPlain (Opcode.require_eq_ok hopcode)
  refine .straight hname hkind ?_ (isToken_of_opcodeTarget hresult hstore)
  have hzero : IsToken "0" := by decide
  split
  · simpa using ⟨hzero, hvalue.isToken_text⟩
  · simpa using hvalue.isToken_text

theorem legible_binaryLine {op : BinaryOp} {left right : Operand} {result : Option Operand}
    (hleft : left.OfStory) (hright : right.OfStory) (hresult : ∀ dest ∈ result, dest.OfStory)
    (h : binaryLine version op left right result = .ok body) : body.Legible := by
  simp only [binaryLine] at h
  split at h
  · rename_i code hstep
    cases h
    obtain ⟨direction, name, scope, rfl, rfl⟩ := step?_eq_some hstep
    have hdest : IsToken ("'" ++ name) := (hresult _ rfl).isToken_reference
    cases direction <;> exact .straight rfl rfl (by simpa using hdest) (by simp)
  · obtain ⟨opcode, hopcode, h⟩ := bind_eq_ok.mp h
    obtain ⟨store, hstore, h⟩ := bind_eq_ok.mp h
    cases h
    obtain ⟨hname, hkind⟩ := BinaryOp.isKnown (Opcode.require_eq_ok hopcode)
    exact .straight hname hkind (by simpa using ⟨hleft.isToken_text, hright.isToken_text⟩)
      (isToken_of_opcodeTarget hresult hstore)

theorem legible_storeLine? {dest source : Operand} {body? : Option (LineBody Instr)}
    (hdest : dest.OfStory) (hsource : source.OfStory) (h : storeLine? dest source = .ok body?)
    (hm : body ∈ body?.toList) : body.Legible := by
  obtain ⟨_, -, h⟩ := bind_eq_ok.mp h
  split at h
  · cases h
    cases hm
  split at h
  · cases h
    cases List.mem_singleton.mp hm
    exact .straight rfl rfl (by simpa using hdest.isToken_reference) (by simp)
  split at h
  · cases h
    cases List.mem_singleton.mp hm
    exact .straight rfl rfl (by simpa using hsource.isToken_text) (by simp)
  · cases h
    cases List.mem_singleton.mp hm
    exact .straight rfl rfl (by simpa using ⟨hdest.isToken_reference, hsource.isToken_text⟩) (by simp)

theorem legible_returnLine {value : Operand} (h : value.OfStory) : (returnLine value).Legible := by
  simp only [returnLine]
  split
  · exact .bare rfl rfl
  split
  · exact .bare rfl rfl
  split
  · exact .bare rfl rfl
  · exact .straight rfl rfl (by simpa using h.isToken_text) (by simp)

theorem callName_isPlain (version : Version) (count : Nat) (hasResult : Bool) :
    Instr.isMnemonic (callName version count hasResult) = true ∧
      .plain = Instr.straightKind (callName version count hasResult) := by
  simp only [callName]
  split
  · exact ⟨rfl, rfl⟩
  · split <;> split <;> exact ⟨rfl, rfl⟩

theorem legible_callLines {cleanup : Bool} {callee : Operand} {args : List Operand}
    {result : Option Operand} {bodies : List (LineBody Instr)}
    (hoperands : ∀ operand ∈ callee :: (args ++ result.toList), operand.OfStory)
    (h : callLines version cleanup callee args result = .ok bodies) (hm : body ∈ bodies) : body.Legible := by
  obtain ⟨store, hstore, h⟩ := bind_eq_ok.mp (eq_ok_of_guard h)
  obtain ⟨hname, hkind⟩ := callName_isPlain version args.length result.isSome
  have hargs : ∀ arg ∈ (callee :: args).map Operand.text, IsToken arg := by
    refine isToken_texts fun operand hoperand => hoperands operand ?_
    rcases List.mem_cons.mp hoperand with rfl | hoperand
    · exact List.mem_cons_self
    · exact List.mem_cons_of_mem _ (List.mem_append_left _ hoperand)
  have hdest : ∀ dest ∈ result, dest.OfStory := fun dest hresult =>
    hoperands dest (List.mem_cons_of_mem _ (List.mem_append_right _ (Option.mem_toList.mpr hresult)))
  have hcall := LineBody.Legible.straight hname hkind hargs (isToken_of_storeTarget hdest hstore)
  split at h
  · cases h
    rcases List.mem_cons.mp hm with rfl | hm
    · exact hcall
    · cases List.mem_singleton.mp hm
      exact .bare rfl rfl
  · cases h
    cases List.mem_singleton.mp hm
    exact hcall

theorem legible_readLine {text parse : Operand} {timed : Option (Operand × Operand)}
    {result : Option Operand} (hoperands : ∀ operand ∈ (read text parse timed result).operands, operand.OfStory)
    (h : readLine version text parse timed result = .ok body) : body.Legible := by
  obtain ⟨store, hstore, h⟩ := bind_eq_ok.mp (eq_ok_of_guard (eq_ok_of_guard h))
  cases h
  have hdest : ∀ dest ∈ result, dest.OfStory := by
    rintro dest rfl
    exact hoperands dest (by simp [operands])
  refine .straight rfl rfl ?_ (isToken_of_storeTarget hdest hstore)
  have htext := (hoperands text (by simp [operands])).isToken_text
  have hparse := (hoperands parse (by simp [operands])).isToken_text
  cases timed with
  | none => simpa using ⟨htext, hparse⟩
  | some timed =>
    have hinterval := (hoperands timed.1 (by simp [operands])).isToken_text
    have hroutine := (hoperands timed.2 (by simp [operands])).isToken_text
    simpa using ⟨htext, hparse, hinterval, hroutine⟩

theorem legible_scanLine {value table length result : Operand} {form : Option Operand} {target : Label}
    {positive : Bool}
    (hoperands : ∀ operand ∈ value :: table :: length :: (form.toList ++ [result]), operand.OfStory)
    (h : scanLine version value table length form result target positive = .ok body) : body.Legible := by
  obtain ⟨store, hstore, h⟩ := bind_eq_ok.mp (eq_ok_of_guard (eq_ok_of_guard h))
  cases h
  have hresult : ∀ dest ∈ some result, dest.OfStory := by simpa using hoperands result (by simp)
  have hargs : ∀ arg ∈ (value :: table :: length :: form.toList).map Operand.text, IsToken arg := by
    refine isToken_texts fun operand hoperand => hoperands operand ?_
    rw [← List.cons_append, ← List.cons_append, ← List.cons_append]
    exact List.mem_append_left _ hoperand
  exact .branch target positive rfl hargs (isToken_of_storeTarget hresult hstore)

/-- An emission has one line, unless it is a move or a call. -/
theorem legible_singleton {α : Type} {x : Except EmitError α} {f : α → LineBody Instr}
    {bodies : List (LineBody Instr)} (h : (do return [f (← x)]) = Except.ok bodies)
    (hx : ∀ a, x = .ok a → (f a).Legible) : ∀ body ∈ bodies, body.Legible := by
  obtain ⟨a, ha, h⟩ := bind_eq_ok.mp h
  cases h
  intro body hm
  cases List.mem_singleton.mp hm
  exact hx a ha

/-- The lines of an emission, one case for each. -/
theorem legible_lines {cleanup : Bool} {emission : Emission} {bodies : List (LineBody Instr)}
    (hoperands : ∀ operand ∈ emission.operands, operand.OfStory)
    (h : emission.lines version cleanup = .ok bodies) : ∀ body ∈ bodies, body.Legible := by
  cases emission with
  | jump target =>
    cases h
    simp [legible_jumpLine]
  | branch condition left right target positive =>
    exact legible_singleton (f := id) h fun _ => legible_conditionLine hoperands
  | branchEqual left rights target positive =>
    simp only [lines] at h
    split at h
    · cases h
    · cases h
      simp only [List.mem_singleton, forall_eq]
      exact .branch target positive rfl (isToken_texts hoperands) (by simp)
  | branchZero value target positive =>
    cases h
    simp only [List.mem_singleton, forall_eq]
    exact .branch target positive rfl (isToken_texts hoperands) (by simp)
  | getChild object dest target positive | getSibling object dest target positive =>
    obtain ⟨hobject, hdest⟩ : object.OfStory ∧ dest.OfStory := by simpa [operands] using hoperands
    exact legible_singleton (f := id) h fun _ => legible_treeLine rfl hobject hdest
  | nullary op result =>
    refine legible_singleton (f := id) h fun _ => legible_nullaryLine fun dest hdest => ?_
    exact hoperands dest (by simp [operands, Option.mem_def.mp hdest])
  | unary op value result =>
    refine legible_singleton (f := id) h fun _ => legible_unaryLine ?_ fun dest hdest => ?_
    · exact hoperands value (by simp [operands])
    · exact hoperands dest (by simp [operands, Option.mem_def.mp hdest])
  | binary op left right result =>
    refine legible_singleton (f := id) h fun _ => legible_binaryLine ?_ ?_ fun dest hdest => ?_
    · exact hoperands left (by simp [operands])
    · exact hoperands right (by simp [operands])
    · exact hoperands dest (by simp [operands, Option.mem_def.mp hdest])
  | ternary op a b c =>
    refine legible_singleton h fun opcode hopcode => ?_
    obtain ⟨hname, hkind⟩ := TernaryOp.isPlain (Opcode.require_eq_ok hopcode)
    exact .straight hname hkind (isToken_texts hoperands) (by simp)
  | store dest source =>
    obtain ⟨body?, hbody, h⟩ := bind_eq_ok.mp h
    cases h
    obtain ⟨hdest, hsource⟩ : dest.OfStory ∧ source.OfStory := by simpa [operands] using hoperands
    exact fun body hm => legible_storeLine? hdest hsource hbody hm
  | call callee args result => exact fun body hm => legible_callLines hoperands h hm
  | ret value =>
    cases h
    simp only [List.mem_singleton, forall_eq]
    exact legible_returnLine (hoperands value (by simp [operands]))
  | print op value =>
    refine legible_singleton h fun opcode hopcode => ?_
    obtain ⟨hname, hkind⟩ := PrintOp.isPlain (Opcode.require_eq_ok hopcode)
    exact .straight hname hkind (isToken_texts hoperands) (by simp)
  | printText text =>
    cases h
    simp only [List.mem_singleton, forall_eq]
    exact .print text
  | newLine =>
    cases h
    simp only [List.mem_singleton, forall_eq]
    exact .bare rfl rfl
  | read text parse timed result => exact legible_singleton (f := id) h fun _ => legible_readLine hoperands
  | scanTable value table length form result target positive =>
    exact legible_singleton (f := id) h fun _ => legible_scanLine hoperands

end Emission

/-! ## Calls -/

theorem Piece.lines_map_line {α : Type} (bodies : List (LineBody α)) : lines (bodies.map .line) = bodies := by
  induction bodies with
  | nil => rfl
  | cons body bodies ih => rw [List.map_cons, lines, ih]

theorem Buffer.bodies_fill {α : Type} (buffer : Buffer α) (pieces : List (Piece α)) :
    Code.bodies (buffer.fill pieces).lines.toList = Code.bodies buffer.lines.toList ++ Piece.lines pieces := by
  induction pieces generalizing buffer with
  | nil => exact (List.append_nil _).symm
  | cons piece pieces ih =>
    show Code.bodies ((buffer.add piece).fill pieces).lines.toList = _
    rw [ih]
    cases piece with
    | mark label =>
      have hlines : (buffer.markLabel label).lines = buffer.lines := by
        simp only [markLabel]
        split
        · rfl
        · split <;> rfl
      rw [add, hlines]
      rfl
    | debug text => rfl
    | line body => simp [add, addLine, Code.bodies, Piece.lines]

theorem Registry.isDirective_lineRecord (registry : Registry) (span : Span) :
    IsDirective (registry.lineRecord span).1 := by
  have hnumber : ∀ n : Nat, '\n' ∉ Nat.toDigits 10 n := fun n hn =>
    absurd (Nat.isDigit_of_mem_toDigits (by decide) (by decide) hn) (by decide)
  rw [lineRecord_eq]
  generalize (registry.fileId span.file).1 = id
  refine ⟨"DEBUG-LINE ".toList ++ ((toString id).toList ++ ',' :: ((toString span.startLine).toList ++
    ',' :: (toString span.startColumn).toList)), ?_, ?_⟩
  · show (".DEBUG-LINE " ++ toString id ++ "," ++ toString span.startLine ++ "," ++
      toString span.startColumn).toList = _
    simp
  · simp [hnumber]

namespace Routine

/-- A call as it is made for a story: with operands of the story and directives of the registry. -/
def Call.OfStory : Call → Prop
  | optional _ value | slot _ value => ∀ operand ∈ value, operand.OfStory
  | debug record => ∃ (registry : Registry) (span : Span), record = (registry.lineRecord span).1
  | emit emission => ∀ operand ∈ emission.operands, operand.OfStory
  | required _ | newLabel | mark _ | place _ => True

/-- The code of the routine can be read, also with the default values of its variables. -/
structure Readable (routine : Routine) : Prop where
  bodies : ∀ body ∈ Code.bodies routine.buffer.lines.toList, body.Legible
  directives : ∀ record ∈ routine.buffer.directives, IsDirective record
  slots : ∀ slot ∈ routine.slots, IsToken slot.name ∧ ∀ value ∈ slot.value, value.OfStory

theorem Call.legible_pieces {call : Call} (h : call.OfStory) (routine : Routine) :
    ∀ body ∈ Piece.lines (call.pieces routine), body.Legible := by
  cases call with
  | emit emission =>
    simp only [pieces]
    split
    · simp [Piece.lines]
    · rename_i bodies hbodies
      rw [Piece.lines_map_line]
      exact Emission.legible_lines h hbodies
  | _ => simp [pieces, Piece.lines]

theorem Call.isDirective_pieces {call : Call} (h : call.OfStory) (routine : Routine) :
    ∀ record ∈ Piece.texts (call.pieces routine), IsDirective record := by
  cases call with
  | debug record =>
    obtain ⟨registry, span, rfl⟩ := h
    simpa [pieces, Piece.texts] using registry.isDirective_lineRecord span
  | _ => rw [texts_pieces (by simp)]; simp

/-- A variable of a routine was there before the call or is declared by it. -/
theorem Call.mem_slots_changed {call : Call} {routine : Routine} {slot : Local}
    (h : slot ∈ (call.changed routine).slots) :
    slot ∈ routine.slots ∨ ∃ name, slot.name = Symbol.ofName name ∧
      (call = .required name ∧ slot.value = none ∨ call = .optional name slot.value ∨
        call = .slot name slot.value) := by
  simp only [slots, List.mem_append] at h ⊢
  cases call with
  | required name =>
    simp only [changed, Array.toList_push, List.mem_append, List.mem_singleton] at h
    rcases h with ((h | rfl) | h) | h
    · exact .inl (.inl (.inl h))
    · exact .inr ⟨name, rfl, .inl ⟨rfl, rfl⟩⟩
    · exact .inl (.inl (.inr h))
    · exact .inl (.inr h)
  | optional name value =>
    simp only [changed, Array.toList_push, List.mem_append, List.mem_singleton] at h
    rcases h with (h | h | rfl) | h
    · exact .inl (.inl (.inl h))
    · exact .inl (.inl (.inr h))
    · exact .inr ⟨name, rfl, .inr (.inl rfl)⟩
    · exact .inl (.inr h)
  | slot name value =>
    simp only [changed, Array.toList_push, List.mem_append, List.mem_singleton] at h
    rcases h with (h | h) | h | rfl
    · exact .inl (.inl (.inl h))
    · exact .inl (.inl (.inr h))
    · exact .inl (.inr h)
    · exact .inr ⟨name, rfl, .inr (.inr rfl)⟩
  | emit emission =>
    simp only [changed] at h
    split at h <;> exact .inl h
  | newLabel | mark | debug | place => exact .inl h

theorem Readable.changed {routine : Routine} (h : routine.Readable) {call : Call} (hcall : call.OfStory) :
    (call.changed routine).Readable where
  bodies := by
    rw [call.buffer_changed, Buffer.bodies_fill]
    intro body hbody
    rcases List.mem_append.mp hbody with hbody | hbody
    · exact h.bodies body hbody
    · exact call.legible_pieces hcall routine body hbody
  directives := by
    rw [call.buffer_changed, Buffer.directives_fill]
    intro record hrecord
    rcases List.mem_append.mp hrecord with hrecord | hrecord
    · exact h.directives record hrecord
    · exact call.isDirective_pieces hcall routine record hrecord
  slots slot hslot := by
    rcases Call.mem_slots_changed hslot with hslot | ⟨name, hname, hvalue⟩
    · exact h.slots slot hslot
    · refine ⟨hname ▸ .ofName name, ?_⟩
      rcases hvalue with ⟨rfl, hvalue⟩ | rfl | rfl
      · simp [hvalue]
      · exact hcall
      · exact hcall

theorem readable_new (name : String) (version : Version) (isEntryPoint cleansStack : Bool) :
    (new name version isEntryPoint cleansStack).Readable where
  bodies := by simp [new, Code.bodies]
  directives := by simp [new, Buffer.directives, Code.directives]
  slots := by simp [new, slots]

theorem readable_after {routine : Routine} (h : routine.Readable) {calls : List Call}
    (hcalls : ∀ call ∈ calls, call.OfStory) : (routine.after calls).Readable := by
  induction calls generalizing routine with
  | nil => exact h
  | cons call calls ih =>
    obtain ⟨hcall, hrest⟩ := List.forall_mem_cons.mp hcalls
    have hnext : (call.apply routine).Readable := by
      rcases call.apply_cases routine with ⟨-, happly⟩ | ⟨-, happly⟩
      · rw [happly]
        exact h.changed hcall
      · rwa [happly]
    exact ih hnext hrest

/-! ## Finished code -/

theorem legible_assignLine {slot : Local} {value : Operand} (hslot : IsToken slot.name)
    (hvalue : value.OfStory) : (assignLine slot value).Legible := by
  have hreference : IsToken slot.operand.reference := .append (by decide) hslot
  exact .straight rfl rfl (by simpa using ⟨hreference, hvalue.isToken_text⟩) (by simp)

theorem legible_testLine {param : Local} (hparam : IsToken param.name) (skip : Label) :
    (testLine param skip).Legible := by
  have hreference : IsToken param.operand.reference := .append (by decide) hparam
  exact .branch skip true rfl (by simpa using hreference) (by simp)

theorem legible_optionalPieces {params : List Local}
    (h : ∀ param ∈ params, IsToken param.name ∧ ∀ value ∈ param.value, value.OfStory) (next : Nat) :
    ∀ body ∈ Piece.lines (optionalPieces params next), body.Legible := by
  induction params generalizing next with
  | nil => simp [optionalPieces, Piece.lines]
  | cons param params ih =>
    obtain ⟨⟨hname, hvalue⟩, hrest⟩ := List.forall_mem_cons.mp h
    cases hdefault : param.value with
    | none =>
      simp only [optionalPieces, hdefault]
      exact ih hrest next
    | some value =>
      simp only [optionalPieces, hdefault, Piece.lines, List.forall_mem_cons]
      exact ⟨legible_testLine hname _, legible_assignLine hname (hvalue value hdefault), ih hrest (next + 1)⟩

theorem legible_localPieces {slots : List Local}
    (h : ∀ slot ∈ slots, IsToken slot.name ∧ ∀ value ∈ slot.value, value.OfStory) :
    ∀ body ∈ Piece.lines (localPieces slots), body.Legible := by
  induction slots with
  | nil => simp [localPieces, Piece.lines]
  | cons slot slots ih =>
    obtain ⟨⟨hname, hvalue⟩, hrest⟩ := List.forall_mem_cons.mp h
    cases hdefault : slot.value with
    | none =>
      simp only [localPieces, hdefault]
      exact ih hrest
    | some value =>
      simp only [localPieces, hdefault, Piece.lines, List.forall_mem_cons]
      exact ⟨legible_assignLine hname (hvalue value hdefault), ih hrest⟩

theorem Readable.legible_prologue {routine : Routine} (h : routine.Readable) :
    ∀ body ∈ Code.bodies routine.prologue.1.lines.toList, body.Legible := by
  cases hdefaults : routine.version.hasHeaderDefaults with
  | true => simp [prologue, hdefaults, Code.bodies]
  | false =>
    have hslots := h.slots
    simp only [Routine.slots, List.append_assoc, List.forall_mem_append] at hslots
    rw [prologue_fill hdefaults, Buffer.bodies_fill, prologuePieces, Piece.lines_append]
    intro body hbody
    rcases List.mem_append.mp hbody with hbody | hbody
    · cases hbody
    rcases List.mem_append.mp hbody with hbody | hbody
    · exact legible_optionalPieces hslots.2.1 _ body hbody
    · exact legible_localPieces hslots.2.2 body hbody

theorem Readable.written_flushed {routine : Routine} (h : routine.Readable) :
    ∀ line ∈ routine.flushed.lines, line.toLineBody.Written := by
  refine Buffer.written_flush fun line hline => .legible ?_
  have hbody := List.mem_map_of_mem (f := Line.toLineBody) hline
  rw [fullBuffer, Buffer.append_bodies] at hbody
  rcases List.mem_append.mp hbody with hbody | hbody
  · exact h.legible_prologue _ hbody
  · exact h.bodies _ hbody

theorem Readable.legible_flushed {routine : Routine} (h : routine.Readable) :
    routine.flushed.expanded.Legible := by
  refine Flushed.legible_expanded h.written_flushed ?_
  rw [flushed, Buffer.directives_flush, directives_fullBuffer]
  exact h.directives

/-- The text of a routine says what its code is: lines with their directives, labels, mnemonics, operands and
branches, and what stands behind the last line. Only a new line with a true return looks like two lines. -/
theorem expanded_flushed_inj (name name' : String) (version version' : Version)
    (isEntryPoint isEntryPoint' cleansStack cleansStack' : Bool) {calls calls' : List Call}
    (hcalls : ∀ call ∈ calls, call.OfStory) (hcalls' : ∀ call ∈ calls', call.OfStory)
    (htext : sourceText (codeStatements ((new name version isEntryPoint cleansStack).after calls).flushed) =
      sourceText (codeStatements ((new name' version' isEntryPoint' cleansStack').after calls').flushed)) :
    ((new name version isEntryPoint cleansStack).after calls).flushed.expanded =
      ((new name' version' isEntryPoint' cleansStack').after calls').flushed.expanded := by
  have hlegible := (readable_after (readable_new name version isEntryPoint cleansStack) hcalls).legible_flushed
  have hlegible' :=
    (readable_after (readable_new name' version' isEntryPoint' cleansStack') hcalls').legible_flushed
  refine hlegible.eq_of_sourceText_eq hlegible' ?_
  rw [Flushed.sourceText_expanded, htext, Flushed.sourceText_expanded]

/-- Print a text that looks like code, clear a variable, and leave by the given emission. -/
def leavingCalls (leave : Emission) : List Call :=
  [.emit (.printText "\"\n\tRTRUE"), .emit (.store (.var (Symbol.ofName "X Y") .story) (.number 0)),
    .emit .newLine, .emit leave]

/-- Returning one and jumping to the true return are written the same. -/
theorem expanded_flushed_leavingCalls :
    let one := (new "R" { number := 3 } false false).after (leavingCalls (.ret (.number 1)))
    let other := (new "S" { number := 5 } false false).after (leavingCalls (.jump .returnTrue))
    (∀ call ∈ leavingCalls (.ret (.number 1)), call.OfStory) ∧
      (∀ call ∈ leavingCalls (.jump .returnTrue), call.OfStory) ∧
      sourceText (codeStatements one.flushed) = sourceText (codeStatements other.flushed) ∧
      one.flushed.expanded = other.flushed.expanded := by
  intro one other
  have hcalls : ∀ call ∈ leavingCalls (.ret (.number 1)), call.OfStory := by
    simp [leavingCalls, Call.OfStory, Emission.operands, Operand.OfStory]
  have hcalls' : ∀ call ∈ leavingCalls (.jump .returnTrue), call.OfStory := by
    simp [leavingCalls, Call.OfStory, Emission.operands, Operand.OfStory]
  have htext : sourceText (codeStatements one.flushed) = sourceText (codeStatements other.flushed) := by
    rfl
  exact ⟨hcalls, hcalls', htext, expanded_flushed_inj _ _ _ _ _ _ _ _ hcalls hcalls' htext⟩

end Routine

end StoryAsm
