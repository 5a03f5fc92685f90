import StoryAsm.Proofs.Code.Directives
import StoryAsm.Proofs.Symbol.Name
import StoryAsm.Proofs.Text.Parts
import StoryAsm.Proofs.Text.Quoted
import StoryAsm.Routine.Finish

/-!
# Reading code

Code is written in tokens with separators between them, apart from texts to be printed, which are quoted
(`LineBody.Legible`). What is written for such code determines all of it: the lines with their labels,
branches and directives, and what stands behind the last line (`Flushed.Legible.eq_of_sourceText_eq`). A new
line with a true return is written as two lines, and cannot be told from them (`Flushed.expanded`).
-/

namespace StoryAsm

open Text

/-! ## Tokens -/

def isTokenChar (c : Char) : Bool :=
  Symbol.isSymbolChar c || c = '\x27'

/-- A text without separators. -/
def IsToken (text : String) : Prop :=
  text.toList.all isTokenChar = true

instance (text : String) : Decidable (IsToken text) :=
  inferInstanceAs (Decidable (_ = true))

/-- What follows a token begins with a separator. -/
def Separated (rest : List Char) : Prop :=
  ∀ c ∈ rest.head?, isTokenChar c = false

theorem separated_cons {c : Char} (h : isTokenChar c = false) (rest : List Char) : Separated (c :: rest) := by
  intro d hd
  cases hd
  exact h

namespace IsToken

variable {a b : String}

theorem of_all_isSymbolChar (h : a.toList.all Symbol.isSymbolChar = true) : IsToken a := by
  refine List.all_eq_true.mpr fun c hc => ?_
  rw [isTokenChar, List.all_eq_true.mp h c hc, Bool.true_or]

theorem append (ha : IsToken a) (hb : IsToken b) : IsToken (a ++ b) := by
  rw [IsToken, String.toList_append, List.all_append, ha, hb]
  rfl

theorem toString_nat (n : Nat) : IsToken (toString n) := by
  refine List.all_eq_true.mpr fun c hc => ?_
  rw [Nat.toString_eq_ofList_toDigits, String.toList_ofList] at hc
  have hdigit := Nat.isDigit_of_mem_toDigits (by decide) (by decide) hc
  simp [isTokenChar, Symbol.isSymbolChar_of_isAlphanum, Char.isAlphanum, hdigit]

theorem append_inj (ha : IsToken a) (hb : IsToken b) {rest rest' : List Char} (hrest : Separated rest)
    (hrest' : Separated rest') (h : a.toList ++ rest = b.toList ++ rest') : a = b ∧ rest = rest' := by
  obtain ⟨htext, hrest⟩ := append_inj_of_head (List.all_eq_true.mp ha) (List.all_eq_true.mp hb) hrest hrest' h
  exact ⟨String.toList_inj.mp htext, hrest⟩

/-- Where a text goes on with a separator, the token before it is empty. -/
theorem rest_eq (ha : IsToken a) {c : Char} {rest tail : List Char} (hc : isTokenChar c = false)
    (hrest : Separated rest) (h : a.toList ++ rest = c :: tail) : rest = c :: tail := by
  have hempty : IsToken "" := rfl
  exact (ha.append_inj hempty hrest (separated_cons hc tail) h).2

end IsToken

theorem Label.isToken_text (label : Label) : IsToken label.text := by
  cases label with
  | point number => exact IsToken.append (a := "?L") (by decide) (.toString_nat number)
  | returnTrue | returnFalse => decide

theorem Label.text_inj {label label' : Label} (h : label.text = label'.text) : label = label' := by
  have hne : ∀ (number : Nat) (name : String), name.toList.head? ≠ some '?' → (point number).text ≠ name := by
    rintro number name hname rfl
    have htext : (point number).text.toList = "?L".toList ++ (toString number).toList := String.toList_append
    rw [htext] at hname
    exact hname rfl
  cases label with
  | point number =>
    cases label' with
    | point number' => rw [numbered_injective "?L" h]
    | returnTrue | returnFalse => exact absurd h (hne number _ (by decide))
  | returnTrue =>
    cases label' with
    | point number' => exact absurd h.symm (hne number' _ (by decide))
    | returnTrue => rfl
    | returnFalse => exact absurd h (by decide)
  | returnFalse =>
    cases label' with
    | point number' => exact absurd h.symm (hne number' _ (by decide))
    | returnTrue => exact absurd h (by decide)
    | returnFalse => rfl

theorem Label.append_inj {label label' : Label} {rest rest' : List Char} (hrest : Separated rest)
    (hrest' : Separated rest') (h : label.text.toList ++ rest = label'.text.toList ++ rest') :
    label = label' ∧ rest = rest' := by
  obtain ⟨htext, hrest⟩ := label.isToken_text.append_inj label'.isToken_text hrest hrest' h
  exact ⟨Label.text_inj htext, hrest⟩

/-! ## Parts of an instruction -/

namespace LineBody

/-- The operands as they are written behind a mnemonic. -/
def argChars : List String → List Char
  | [] => []
  | arg :: args => ' ' :: (arg.toList ++ args.flatMap fun arg => ',' :: arg.toList)

def storeChars : Option String → List Char
  | some dest => ' ' :: '>' :: dest.toList
  | none => []

/-- The target of a branch and its polarity. -/
def branchChars : Option (Label × Bool) → List Char
  | some (target, positive) => ' ' :: (if positive then '/' else '\\') :: target.text.toList
  | none => []

/-- What is written behind the operands, before the rest of the code. -/
def tailChars (store : Option String) (branch : Option (Label × Bool)) (rest : List Char) : List Char :=
  storeChars store ++ (branchChars branch ++ '\n' :: rest)

theorem separated_newline (rest : List Char) : Separated ('\n' :: rest) :=
  separated_cons (by decide) rest

theorem branchChars_inj {branch branch' : Option (Label × Bool)} {rest rest' : List Char}
    (h : branchChars branch ++ '\n' :: rest = branchChars branch' ++ '\n' :: rest') :
    branch = branch' ∧ rest = rest' := by
  cases branch with
  | none =>
    cases branch' with
    | none => exact ⟨rfl, (List.cons.inj h).2⟩
    | some => cases h
  | some first =>
    cases branch' with
    | none => cases h
    | some second =>
      obtain ⟨target, positive⟩ := first
      obtain ⟨target', positive'⟩ := second
      simp only [branchChars, List.cons_append, List.cons.injEq, true_and] at h
      obtain ⟨hpositive, htarget⟩ := h
      obtain ⟨rfl, hrest⟩ := Label.append_inj (separated_newline rest) (separated_newline rest') htarget
      have hpositive : positive = positive' := by
        cases positive <;> cases positive' <;> simp_all
      exact ⟨by rw [hpositive], (List.cons.inj hrest).2⟩

/-- What follows the operands: a line end, or a blank and a mark. No operand begins with a mark. -/
theorem tailChars_cases (store : Option String) (branch : Option (Label × Bool)) (rest : List Char) :
    (∃ tail, tailChars store branch rest = '\n' :: tail) ∨
      ∃ mark tail, tailChars store branch rest = ' ' :: mark :: tail ∧
        (mark = '>' ∨ mark = '/' ∨ mark = '\\') := by
  cases store with
  | some dest => exact .inr ⟨'>', _, rfl, by simp⟩
  | none =>
    cases branch with
    | none => exact .inl ⟨rest, rfl⟩
    | some branch =>
      obtain ⟨target, positive⟩ := branch
      exact .inr ⟨if positive then '/' else '\\', _, rfl, by cases positive <;> simp⟩

theorem separated_tailChars (store : Option String) (branch : Option (Label × Bool)) (rest : List Char) :
    Separated (tailChars store branch rest) := by
  rcases tailChars_cases store branch rest with ⟨tail, h⟩ | ⟨mark, tail, h, -⟩
  · exact h ▸ separated_newline tail
  · exact h ▸ separated_cons (by decide) _

theorem tailChars_inj {store store' : Option String} {branch branch' : Option (Label × Bool)}
    {rest rest' : List Char} (hstore : ∀ dest ∈ store, IsToken dest) (hstore' : ∀ dest ∈ store', IsToken dest)
    (h : tailChars store branch rest = tailChars store' branch' rest') :
    store = store' ∧ branch = branch' ∧ rest = rest' := by
  -- a branch has another mark than a store target
  have hmark : ∀ (tail : List Char) (branch : Option (Label × Bool)) (rest : List Char),
      ' ' :: '>' :: tail ≠ branchChars branch ++ '\n' :: rest := by
    intro tail branch rest heq
    cases branch with
    | none => cases heq
    | some branch =>
      obtain ⟨target, positive⟩ := branch
      cases positive <;> cases heq
  cases store with
  | none =>
    cases store' with
    | none => exact ⟨rfl, branchChars_inj h⟩
    | some dest' => exact absurd h.symm (hmark _ branch rest)
  | some dest =>
    cases store' with
    | none => exact absurd h (hmark _ branch' rest')
    | some dest' =>
      simp only [tailChars, storeChars, List.cons_append, List.cons.injEq, true_and] at h
      obtain ⟨rfl, hbranch⟩ := (hstore dest rfl).append_inj (hstore' dest' rfl)
        (separated_tailChars none branch rest) (separated_tailChars none branch' rest') h
      exact ⟨rfl, branchChars_inj hbranch⟩

section
variable {args args' : List String} {store store' : Option String}
  {branch branch' : Option (Label × Bool)} {rest rest' : List Char}

/-- The operands behind the first one, before what follows them. -/
theorem separated_moreArgs (args : List String) :
    Separated ((args.flatMap fun arg => ',' :: arg.toList) ++ tailChars store branch rest) := by
  cases args with
  | nil => exact separated_tailChars store branch rest
  | cons arg args => exact separated_cons (by decide) _

theorem moreArgs_inj (hargs : ∀ arg ∈ args, IsToken arg) (hargs' : ∀ arg ∈ args', IsToken arg)
    (h : (args.flatMap fun arg => ',' :: arg.toList) ++ tailChars store branch rest =
      (args'.flatMap fun arg => ',' :: arg.toList) ++ tailChars store' branch' rest') :
    args = args' ∧ tailChars store branch rest = tailChars store' branch' rest' := by
  have hcomma : ∀ (store : Option String) (branch : Option (Label × Bool)) (rest tail : List Char),
      tailChars store branch rest ≠ ',' :: tail := by
    intro store branch rest tail heq
    rcases tailChars_cases store branch rest with ⟨_, htail⟩ | ⟨_, _, htail, -⟩
    · cases htail.symm.trans heq
    · cases htail.symm.trans heq
  induction args generalizing args' with
  | nil =>
    cases args' with
    | nil => exact ⟨rfl, h⟩
    | cons arg' args' => exact (hcomma _ _ _ _ h).elim
  | cons arg args ih =>
    cases args' with
    | nil => exact (hcomma _ _ _ _ h.symm).elim
    | cons arg' args' =>
      obtain ⟨harg, hmore⟩ := List.forall_mem_cons.mp hargs
      obtain ⟨harg', hmore'⟩ := List.forall_mem_cons.mp hargs'
      simp only [List.flatMap_cons, List.cons_append, List.append_assoc, List.cons.injEq, true_and] at h
      obtain ⟨rfl, hrest⟩ := harg.append_inj harg' (separated_moreArgs args) (separated_moreArgs args') h
      obtain ⟨rfl, htail⟩ := ih hmore hmore' hrest
      exact ⟨rfl, htail⟩

/-- Operands are not taken for what follows operands, even if the first of them is empty. -/
theorem argChars_cons_ne {arg : String} (harg : IsToken arg) :
    argChars (arg :: args) ++ tailChars store branch rest ≠ tailChars store' branch' rest' := by
  intro h
  rcases tailChars_cases store' branch' rest' with ⟨tail, htail⟩ | ⟨mark, tail, htail, hmark⟩
  · cases htail.symm.trans h.symm
  simp only [htail, argChars, List.cons_append, List.append_assoc, List.cons.injEq, true_and] at h
  obtain ⟨hseparator, hmarks⟩ : isTokenChar mark = false ∧ mark ∉ [' ', ',', '\n'] := by
    rcases hmark with rfl | rfl | rfl <;> decide
  have hrest := harg.rest_eq hseparator (separated_moreArgs args) h
  have hhead : mark ∈ [' ', ',', '\n'] := by
    cases args with
    | cons => cases hrest; simp
    | nil =>
      rcases tailChars_cases store branch rest with ⟨_, heq⟩ | ⟨_, _, heq, -⟩
      · cases heq.symm.trans hrest; simp
      · cases heq.symm.trans hrest; simp
  exact hmarks hhead

theorem argChars_inj (hargs : ∀ arg ∈ args, IsToken arg) (hargs' : ∀ arg ∈ args', IsToken arg)
    (h : argChars args ++ tailChars store branch rest = argChars args' ++ tailChars store' branch' rest') :
    args = args' ∧ tailChars store branch rest = tailChars store' branch' rest' := by
  cases args with
  | nil =>
    cases args' with
    | nil => exact ⟨rfl, h⟩
    | cons arg' args' => exact absurd h.symm (argChars_cons_ne (hargs' arg' List.mem_cons_self))
  | cons arg args =>
    obtain ⟨harg, hmore⟩ := List.forall_mem_cons.mp hargs
    cases args' with
    | nil => exact absurd h (argChars_cons_ne harg)
    | cons arg' args' =>
      obtain ⟨harg', hmore'⟩ := List.forall_mem_cons.mp hargs'
      simp only [argChars, List.cons_append, List.append_assoc, List.cons.injEq, true_and] at h
      obtain ⟨rfl, hrest⟩ := harg.append_inj harg' (separated_moreArgs args) (separated_moreArgs args') h
      obtain ⟨rfl, htail⟩ := moreArgs_inj hmore hmore' hrest
      exact ⟨rfl, htail⟩

end

end LineBody

/-! ## Instructions -/

namespace Instr

/-- The mnemonic of an instruction that is written in tokens. A jump has its target in the place of an
operand, and texts to be printed are quoted. -/
def isMnemonic (op : String) : Bool :=
  op.toList.all (fun c => c.isAlphanum || c = '?') && !(["JUMP", "PRINTI", "PRINTR"].contains op)

/-- How control leaves the line of an instruction that does not branch. -/
def straightKind (op : String) : LineKind :=
  if ["RTRUE", "RFALSE", "RSTACK", "RETURN", "THROW"].contains op then .terminator
  else if ["QUIT", "RESTART"].contains op then .heavyTerminator
  else .plain

/-- The line of an instruction, perhaps with a branch. -/
def line (code : Instr) : Option (Label × Bool) → LineBody Instr
  | none => { code, kind := straightKind code.op }
  | some (target, positive) => Emission.branchLine code target positive

theorem isToken_of_isMnemonic {op : String} (h : isMnemonic op = true) : IsToken op := by
  refine List.all_eq_true.mpr fun c hc => ?_
  have hchar := List.all_eq_true.mp (Bool.and_eq_true_iff.mp h).1 c hc
  rcases Bool.or_eq_true_iff.mp hchar with hchar | hchar
  · rw [isTokenChar, Symbol.isSymbolChar_of_isAlphanum hchar, Bool.true_or]
  · rw [of_decide_eq_true hchar]
    rfl

theorem ne_of_isMnemonic {op : String} (h : isMnemonic op = true) :
    op ≠ "JUMP" ∧ op ≠ "PRINTI" ∧ op ≠ "PRINTR" := by
  have hmem := (Bool.and_eq_true_iff.mp h).2
  simpa using hmem

end Instr

namespace LineBody

/-- A line that can be read. -/
inductive Legible : LineBody Instr → Prop where
  | jump (target : Label) :
    Legible { code := { op := "JUMP" }, target := some target, kind := .branchAlways }
  | print (text : String) : Legible { code := { op := "PRINTI", args := [quote text] } }
  | printReturn (text : String) :
    Legible { code := { op := "PRINTR", args := [quote text] }, kind := .heavyTerminator }
  | tokens {code : Instr} (branch : Option (Label × Bool)) : Instr.isMnemonic code.op = true →
    (∀ arg ∈ code.args, IsToken arg) → (∀ dest ∈ code.store, IsToken dest) → Legible (code.line branch)

/-- The line as it is written, without label and directives. -/
def chars (body : LineBody Instr) : List Char :=
  (Line.instrText { toLineBody := body }).toList

/-- The branch of a line that may go on to the next one. -/
def branch? (body : LineBody Instr) : Option (Label × Bool) :=
  match body.kind, body.target with
  | .branchPositive, some target => some (target, true)
  | .branchNegative, some target => some (target, false)
  | _, _ => none

/-- What is written behind the mnemonic: operands, or the target of a jump. -/
def operandChars (body : LineBody Instr) : List Char :=
  match body.kind, body.target with
  | .branchAlways, some target => ' ' :: target.text.toList
  | _, _ => argChars body.code.args

theorem intercalate_comma (arg : String) (args : List String) :
    [','].intercalate (arg.toList :: args.map String.toList) =
      arg.toList ++ args.flatMap fun arg => ',' :: arg.toList := by
  induction args generalizing arg with
  | nil => simp
  | cons next args ih =>
    rw [List.map_cons, List.intercalate_cons_cons, ih]
    simp

theorem chars_append (body : LineBody Instr) (rest : List Char) :
    body.chars ++ rest =
      '\t' :: (body.code.op.toList ++
        (body.operandChars ++ tailChars body.code.store body.branch? rest)) := by
  obtain ⟨⟨op, args, store⟩, target, kind⟩ := body
  simp only [chars, Line.instrText, operandChars, branch?, tailChars]
  cases target <;> cases kind <;> cases args <;> cases store <;>
    simp [argChars, storeChars, branchChars, intercalate_comma]

theorem operandChars_append_cases (body : LineBody Instr) (rest : List Char) :
    ∃ c tail, body.operandChars ++ tailChars body.code.store body.branch? rest = c :: tail ∧
      (c = ' ' ∨ c = '\n') := by
  simp only [operandChars]
  split
  · exact ⟨' ', _, rfl, by simp⟩
  · cases body.code.args with
    | cons => exact ⟨' ', _, rfl, by simp⟩
    | nil =>
      rcases tailChars_cases body.code.store body.branch? rest with ⟨tail, h⟩ | ⟨mark, tail, h, -⟩
      · exact ⟨'\n', tail, h, by simp⟩
      · exact ⟨' ', mark :: tail, h, by simp⟩

theorem branch?_line (code : Instr) (branch : Option (Label × Bool)) : (code.line branch).branch? = branch := by
  cases branch with
  | none =>
    show branch? { code, kind := Instr.straightKind code.op } = none
    simp only [branch?]
    split <;> simp_all
  | some branch =>
    obtain ⟨target, positive⟩ := branch
    cases positive <;> rfl

theorem operandChars_line (code : Instr) (branch : Option (Label × Bool)) :
    (code.line branch).operandChars = argChars code.args := by
  cases branch with
  | none =>
    show operandChars { code, kind := Instr.straightKind code.op } = _
    simp only [operandChars]
    split <;> simp_all
  | some branch =>
    obtain ⟨target, positive⟩ := branch
    cases positive <;> rfl

theorem code_line (code : Instr) (branch : Option (Label × Bool)) : (code.line branch).code = code := by
  cases branch <;> rfl

namespace Legible

variable {a b : LineBody Instr} {rest rest' : List Char}

theorem straight {op : String} {args : List String} {store : Option String} {kind : LineKind}
    (hop : Instr.isMnemonic op = true) (hkind : kind = Instr.straightKind op)
    (hargs : ∀ arg ∈ args, IsToken arg) (hstore : ∀ dest ∈ store, IsToken dest) :
    Legible { code := { op, args, store }, kind } := by
  subst hkind
  exact .tokens none hop hargs hstore

/-- A mnemonic alone. -/
theorem bare {op : String} {kind : LineKind} (hop : Instr.isMnemonic op = true)
    (hkind : kind = Instr.straightKind op) : Legible { code := { op }, kind } :=
  straight hop hkind (by simp) (by simp)

theorem branch {op : String} {args : List String} {store : Option String} (target : Label)
    (positive : Bool) (hop : Instr.isMnemonic op = true) (hargs : ∀ arg ∈ args, IsToken arg)
    (hstore : ∀ dest ∈ store, IsToken dest) :
    Legible (Emission.branchLine { op, args, store } target positive) :=
  .tokens (some (target, positive)) hop hargs hstore

theorem isToken_op (h : a.Legible) : IsToken a.code.op := by
  have hfixed : ∀ op ∈ ["JUMP", "PRINTI", "PRINTR"], IsToken op := by decide
  cases h with
  | jump | print | printReturn => exact hfixed _ (by simp)
  | tokens branch hop =>
    rw [code_line]
    exact Instr.isToken_of_isMnemonic hop

theorem op_ne (h : a.Legible) : a.code.op ≠ Instr.newlineReturn := by
  intro heq
  have htoken := h.isToken_op
  rw [heq] at htoken
  exact absurd htoken (by decide)

/-- The mnemonics agree, and what is written behind them. -/
theorem op_inj (ha : a.Legible) (hb : b.Legible) (h : a.chars ++ rest = b.chars ++ rest') :
    a.code.op = b.code.op ∧
      a.operandChars ++ tailChars a.code.store a.branch? rest =
        b.operandChars ++ tailChars b.code.store b.branch? rest' := by
  have hseparated : ∀ (body : LineBody Instr) (rest : List Char),
      Separated (body.operandChars ++ tailChars body.code.store body.branch? rest) := by
    intro body rest
    obtain ⟨c, tail, heq, hc⟩ := operandChars_append_cases body rest
    have hblank : isTokenChar c = false := by rcases hc with rfl | rfl <;> decide
    exact heq ▸ separated_cons hblank tail
  rw [chars_append, chars_append] at h
  exact ha.isToken_op.append_inj hb.isToken_op (hseparated a rest) (hseparated b rest') (List.cons.inj h).2

theorem quote_append_inj {text text' : String}
    (h : argChars [quote text] ++ tailChars none none rest =
      argChars [quote text'] ++ tailChars none none rest') : text = text' ∧ rest = rest' := by
  have hchars : ∀ (text : String) (rest : List Char),
      argChars [quote text] ++ tailChars none none rest = ' ' :: ((quote text).toList ++ '\n' :: rest) := by
    intro text rest
    simp [argChars, tailChars, storeChars, branchChars]
  have hnewline : ∀ rest : List Char, ('\n' :: rest).head? ≠ some '"' := by simp
  rw [hchars, hchars] at h
  have hread := readQuoted_quote text (hnewline rest)
  rw [(List.cons.inj h).2, readQuoted_quote text' (hnewline rest')] at hread
  simp only [Option.some.injEq, Prod.mk.injEq, List.cons.injEq, true_and] at hread
  exact ⟨(String.toList_inj.mp hread.1).symm, hread.2.symm⟩

/-- Lines that can be read are told apart from the left. -/
theorem append_inj (ha : a.Legible) (hb : b.Legible) (h : a.chars ++ rest = b.chars ++ rest') :
    a = b ∧ rest = rest' := by
  obtain ⟨hop, h⟩ := op_inj ha hb h
  cases ha with
  | jump target =>
    cases hb with
    | jump target' =>
      obtain ⟨rfl, hrest⟩ := Label.append_inj (separated_newline rest) (separated_newline rest')
        (List.cons.inj h).2
      exact ⟨rfl, (List.cons.inj hrest).2⟩
    | print | printReturn => simp at hop
    | tokens branch hname =>
      rw [code_line] at hop
      exact absurd hop.symm (Instr.ne_of_isMnemonic hname).1
  | print text =>
    cases hb with
    | print text' =>
      obtain ⟨rfl, hrest⟩ := quote_append_inj h
      exact ⟨rfl, hrest⟩
    | jump | printReturn => simp at hop
    | tokens branch hname =>
      rw [code_line] at hop
      exact absurd hop.symm (Instr.ne_of_isMnemonic hname).2.1
  | printReturn text =>
    cases hb with
    | printReturn text' =>
      obtain ⟨rfl, hrest⟩ := quote_append_inj h
      exact ⟨rfl, hrest⟩
    | jump | print => simp at hop
    | tokens branch hname =>
      rw [code_line] at hop
      exact absurd hop.symm (Instr.ne_of_isMnemonic hname).2.2
  | @tokens code branch hname hargs hstore =>
    rw [code_line] at hop
    cases hb with
    | jump => exact absurd hop (Instr.ne_of_isMnemonic hname).1
    | print => exact absurd hop (Instr.ne_of_isMnemonic hname).2.1
    | printReturn => exact absurd hop (Instr.ne_of_isMnemonic hname).2.2
    | @tokens code' branch' _ hargs' hstore' =>
      simp only [code_line, operandChars_line, branch?_line] at h hop
      obtain ⟨hargs, htail⟩ := argChars_inj hargs hargs' h
      obtain ⟨hstore, rfl, hrest⟩ := tailChars_inj hstore hstore' htail
      have hcode : code = code' := by
        obtain ⟨op, args, store⟩ := code
        obtain ⟨op', args', store'⟩ := code'
        cases hop
        cases hargs
        cases hstore
        rfl
      exact ⟨by rw [hcode], hrest⟩

end Legible

end LineBody

/-! ## Rows -/

/-- A directive is known by its period, and ends with its line. -/
def IsDirective (record : String) : Prop :=
  ∃ rest, record.toList = '.' :: rest ∧ '\n' ∉ rest

/-- What is written one after the other: directives, instructions with their labels, and a label behind
the last of them. -/
inductive Row where
  | directive (record : String)
  | instruction (label : Option Label) (body : LineBody Instr)
  | lastLabel (label : Label)

namespace Row

def labelChars : Option Label → List Char
  | some label => label.text.toList ++ [':']
  | none => []

def isDirective : Row → Bool
  | directive _ => true
  | instruction .. | lastLabel _ => false

def label? : Row → Option Label
  | directive _ => none
  | instruction label _ => label
  | lastLabel label => some label

/-- What is written behind the label. -/
def afterLabel : Row → List Char
  | directive record => '\t' :: (record.toList ++ ['\n'])
  | instruction _ body => body.chars
  | lastLabel _ => ['\n']

def chars (row : Row) : List Char :=
  labelChars row.label? ++ row.afterLabel

def Legible : Row → Prop
  | directive record => IsDirective record
  | instruction _ body => body.Legible
  | lastLabel _ => True

theorem labelChars_inj {label label' : Option Label} {c c' : Char} {rest rest' : List Char}
    (hc : c = '\t' ∨ c = '\n') (hc' : c' = '\t' ∨ c' = '\n')
    (h : labelChars label ++ c :: rest = labelChars label' ++ c' :: rest') :
    label = label' ∧ c :: rest = c' :: rest' := by
  have hcolon : ∀ rest, Separated (':' :: rest) := separated_cons (by decide)
  -- no line begins with a label where there is none
  have hnone : ∀ {c : Char} (rest : List Char) (label : Label) (rest' : List Char), c = '\t' ∨ c = '\n' →
      c :: rest ≠ label.text.toList ++ ':' :: rest' := by
    intro c rest label rest' hc heq
    obtain ⟨hblank, hne⟩ : isTokenChar c = false ∧ c ≠ ':' := by rcases hc with rfl | rfl <;> decide
    have hrest := label.isToken_text.rest_eq hblank (hcolon rest') heq.symm
    exact hne (List.cons.inj hrest).1.symm
  cases label with
  | none =>
    cases label' with
    | none => exact ⟨rfl, h⟩
    | some label' =>
      simp only [labelChars, List.nil_append, List.append_assoc, List.singleton_append] at h
      exact absurd h (hnone _ _ _ hc)
  | some label =>
    cases label' with
    | none =>
      simp only [labelChars, List.nil_append, List.append_assoc, List.singleton_append] at h
      exact absurd h.symm (hnone _ _ _ hc')
    | some label' =>
      simp only [labelChars, List.append_assoc, List.singleton_append] at h
      obtain ⟨rfl, hrest⟩ := Label.append_inj (hcolon _) (hcolon _) h
      exact ⟨rfl, (List.cons.inj hrest).2⟩

theorem directive_inj {record record' : String} {rest rest' : List Char} (h : IsDirective record)
    (h' : IsDirective record') (heq : record.toList ++ '\n' :: rest = record'.toList ++ '\n' :: rest') :
    record = record' ∧ rest = rest' := by
  have hline : ∀ {record : String}, IsDirective record → ∀ c ∈ record.toList, decide (c ≠ '\n') = true := by
    rintro record ⟨tail, htail, hnewline⟩ c hc
    rw [htail] at hc
    rcases List.mem_cons.mp hc with rfl | hc
    · rfl
    · exact decide_eq_true fun hn => hnewline (hn ▸ hc)
  have hend : ∀ rest : List Char, ∀ c ∈ ('\n' :: rest).head?, decide (c ≠ '\n') = false := by simp
  obtain ⟨hrecord, hrest⟩ := append_inj_of_head (hline h) (hline h') (hend rest) (hend rest') heq
  exact ⟨String.toList_inj.mp hrecord, (List.cons.inj hrest).2⟩

/-- No instruction is taken for a directive. -/
theorem directive_ne {record : String} {body : LineBody Instr} {rest rest' : List Char}
    (hrecord : IsDirective record) (hbody : body.Legible) :
    '\t' :: (record.toList ++ rest) ≠ body.chars ++ rest' := by
  intro h
  obtain ⟨tail, htail, -⟩ := hrecord
  obtain ⟨c, more, hmore, hc⟩ := LineBody.operandChars_append_cases body rest'
  obtain ⟨hblank, hne⟩ : isTokenChar c = false ∧ c ≠ '.' := by rcases hc with rfl | rfl <;> decide
  rw [LineBody.chars_append, hmore, htail] at h
  have hrest := hbody.isToken_op.rest_eq (c := '.') (by decide) (separated_cons hblank more)
    (List.cons.inj h).2.symm
  exact hne (List.cons.inj hrest).1

theorem afterLabel_cases (row : Row) (rest : List Char) :
    ∃ c tail, row.afterLabel ++ rest = c :: tail ∧ (c = '\t' ∨ c = '\n') := by
  cases row with
  | directive record => exact ⟨'\t', _, rfl, by simp⟩
  | instruction label body => exact ⟨'\t', _, body.chars_append rest, by simp⟩
  | lastLabel label => exact ⟨'\n', _, rfl, by simp⟩

theorem chars_ne_nil (row : Row) : row.chars ≠ [] := by
  obtain ⟨c, tail, h, -⟩ := row.afterLabel_cases []
  rw [List.append_nil] at h
  simp [chars, h]

/-- Rows are told apart from the left. -/
theorem append_inj {a b : Row} {rest rest' : List Char} (ha : a.Legible) (hb : b.Legible)
    (h : a.chars ++ rest = b.chars ++ rest') : a = b ∧ rest = rest' := by
  obtain ⟨hlabel, hafter⟩ : a.label? = b.label? ∧ a.afterLabel ++ rest = b.afterLabel ++ rest' := by
    obtain ⟨c, tail, htail, hc⟩ := a.afterLabel_cases rest
    obtain ⟨c', tail', htail', hc'⟩ := b.afterLabel_cases rest'
    rw [chars, chars, List.append_assoc, List.append_assoc, htail, htail'] at h
    rw [htail, htail']
    exact labelChars_inj hc hc' h
  cases a with
  | directive record =>
    cases b with
    | directive record' =>
      simp only [afterLabel, List.cons_append, List.append_assoc] at hafter
      obtain ⟨rfl, hrest⟩ := directive_inj ha hb (List.cons.inj hafter).2
      exact ⟨rfl, hrest⟩
    | instruction label body =>
      simp only [afterLabel, List.cons_append, List.append_assoc] at hafter
      exact absurd hafter (directive_ne ha hb)
    | lastLabel => cases hlabel
  | instruction label body =>
    cases b with
    | directive record =>
      simp only [afterLabel, List.cons_append, List.append_assoc] at hafter
      exact absurd hafter.symm (directive_ne hb ha)
    | instruction label' body' =>
      obtain ⟨rfl, hrest⟩ := LineBody.Legible.append_inj ha hb hafter
      cases hlabel
      exact ⟨rfl, hrest⟩
    | lastLabel =>
      rw [afterLabel, LineBody.chars_append] at hafter
      cases hafter
  | lastLabel label =>
    cases b with
    | directive => cases hlabel
    | instruction label' body =>
      rw [afterLabel, afterLabel, LineBody.chars_append] at hafter
      cases hafter
    | lastLabel label' =>
      cases hlabel
      exact ⟨rfl, (List.cons.inj hafter).2⟩

end Row

/-! ## Flushed code -/

/-- The rows of a line. -/
def Line.rows (line : Line Instr) : List Row :=
  line.debug.map .directive ++ [.instruction line.label line.toLineBody]

namespace Flushed

def rows (flushed : Flushed Instr) : List Row :=
  flushed.lines.flatMap Line.rows ++
    (flushed.trailingDebug.map .directive ++ flushed.trailingLabel.toList.map .lastLabel)

/-- The directives before a row that is no directive, or before the end. -/
theorem directives_inj {debug debug' : List String} {rest rest' : List Row}
    (hrest : ∀ row ∈ rest.head?, row.isDirective = false)
    (hrest' : ∀ row ∈ rest'.head?, row.isDirective = false)
    (h : debug.map Row.directive ++ rest = debug'.map Row.directive ++ rest') :
    debug = debug' ∧ rest = rest' := by
  have hdirective : ∀ debug : List String, ∀ row ∈ debug.map Row.directive, row.isDirective = true := by
    intro debug row hrow
    obtain ⟨record, -, rfl⟩ := List.mem_map.mp hrow
    rfl
  obtain ⟨hdebug, hrest⟩ := append_inj_of_head (hdirective debug) (hdirective debug') hrest hrest' h
  exact ⟨(List.map_inj_right fun _ _ => Row.directive.inj).mp hdebug, hrest⟩

theorem isDirective_head?_lastLabel (label : Option Label) :
    ∀ row ∈ (label.toList.map Row.lastLabel).head?, row.isDirective = false := by
  intro row hrow
  cases label <;> cases hrow
  rfl

theorem isDirective_head?_instruction (line : Line Instr) (rest : List Row) :
    ∀ row ∈ (Row.instruction line.label line.toLineBody :: rest).head?, row.isDirective = false := by
  intro row hrow
  cases hrow
  rfl

/-- Each directive belongs to the next line, so that the rows say where every line begins. -/
theorem rows_inj {a b : Flushed Instr} (h : a.rows = b.rows) : a = b := by
  obtain ⟨lines, debug, label⟩ := a
  obtain ⟨lines', debug', label'⟩ := b
  simp only [rows] at h
  induction lines generalizing lines' with
  | nil =>
    cases lines' with
    | nil =>
      obtain ⟨rfl, hlabel⟩ := directives_inj (isDirective_head?_lastLabel label)
        (isDirective_head?_lastLabel label') h
      cases label <;> cases label' <;> cases hlabel <;> rfl
    | cons line' lines' =>
      rw [List.flatMap_cons, Line.rows, List.append_assoc, List.append_assoc] at h
      obtain ⟨-, hrest⟩ := directives_inj (isDirective_head?_lastLabel label)
        (isDirective_head?_instruction line' _) h
      cases label <;> cases hrest
  | cons line lines ih =>
    rw [List.flatMap_cons, Line.rows, List.append_assoc, List.append_assoc] at h
    cases lines' with
    | nil =>
      obtain ⟨-, hrest⟩ := directives_inj (isDirective_head?_instruction line _)
        (isDirective_head?_lastLabel label') h
      cases label' <;> cases hrest
    | cons line' lines' =>
      rw [List.flatMap_cons, Line.rows, List.append_assoc, List.append_assoc] at h
      obtain ⟨hdebug, hrest⟩ := directives_inj (isDirective_head?_instruction line _)
        (isDirective_head?_instruction line' _) h
      obtain ⟨hrow, htail⟩ := List.cons.inj hrest
      obtain ⟨hlabel, hbody⟩ := Row.instruction.inj hrow
      have hline : line = line' := by
        obtain ⟨body, label, debug⟩ := line
        obtain ⟨body', label', debug'⟩ := line'
        cases hdebug
        cases hlabel
        cases hbody
        rfl
      have hlines := ih lines' htail
      cases hlines
      rw [hline]

/-! ## Written code -/

/-- Code that can be read. -/
structure Legible (flushed : Flushed Instr) : Prop where
  bodies : ∀ line ∈ flushed.lines, line.toLineBody.Legible
  directives : ∀ record ∈ flushed.directives, IsDirective record

theorem Legible.row {flushed : Flushed Instr} (h : flushed.Legible) : ∀ row ∈ flushed.rows, row.Legible := by
  have hdirectives : ∀ debug : List String, (∀ record ∈ debug, record ∈ flushed.directives) →
      ∀ row ∈ debug.map Row.directive, row.Legible := by
    intro debug hdebug row hrow
    obtain ⟨record, hrecord, rfl⟩ := List.mem_map.mp hrow
    exact h.directives record (hdebug record hrecord)
  intro row hrow
  rcases List.mem_append.mp hrow with hrow | hrow
  · obtain ⟨line, hline, hrow⟩ := List.mem_flatMap.mp hrow
    rcases List.mem_append.mp hrow with hrow | hrow
    · refine hdirectives line.debug (fun record hrecord => ?_) row hrow
      exact List.mem_append_left _ (List.mem_flatMap.mpr ⟨line, hline, hrecord⟩)
    · cases List.mem_singleton.mp hrow
      exact h.bodies line hline
  · rcases List.mem_append.mp hrow with hrow | hrow
    · exact hdirectives _ (fun record => List.mem_append_right _) row hrow
    · obtain ⟨label, -, rfl⟩ := List.mem_map.mp hrow
      trivial

theorem toList_debugText (debug : List String) :
    (Line.debugText debug).toList = (debug.map Row.directive).flatMap Row.chars := by
  simp [Line.debugText, List.flatMap_map, Row.chars, Row.labelChars, Row.label?, Row.afterLabel]

theorem toList_text {line : Line Instr} (h : line.code.op ≠ Instr.newlineReturn) :
    line.text.toList = line.rows.flatMap Row.chars := by
  rw [Line.rows, List.flatMap_append, ← toList_debugText, List.flatMap_singleton, Line.text]
  simp only [if_neg h, String.toList_append, List.append_assoc]
  congr 1
  show _ = Row.labelChars line.label ++ line.toLineBody.chars
  cases line.label with
  | none => rfl
  | some label => rw [String.toList_append]; rfl

theorem toList_sourceText {flushed : Flushed Instr}
    (h : ∀ line ∈ flushed.lines, line.code.op ≠ Instr.newlineReturn) :
    (sourceText (Routine.codeStatements flushed)).toList = flushed.rows.flatMap Row.chars := by
  obtain ⟨lines, debug, label⟩ := flushed
  have hlines : ((lines.map Statement.code).map Statement.text).flatMap String.toList =
      (lines.flatMap Line.rows).flatMap Row.chars := by
    rw [List.map_map, List.flatMap_map, List.flatMap_assoc]
    exact List.flatMap_congr fun line hline => toList_text (h line hline)
  have hdebug : ((debug.map Statement.debug).map Statement.text).flatMap String.toList =
      (debug.map Row.directive).flatMap Row.chars := by
    rw [← toList_debugText, Line.debugText, String.toList_join, List.map_map]
    rfl
  have hlabel : ((label.toList.map Statement.lastLabel).map Statement.text).flatMap String.toList =
      (label.toList.map Row.lastLabel).flatMap Row.chars := by
    cases label with
    | none => rfl
    | some label => simp [Statement.text, Row.chars, Row.labelChars, Row.label?, Row.afterLabel]
  rw [sourceText, Routine.codeStatements, String.toList_join, List.map_append, List.map_append,
    List.flatMap_append, List.flatMap_append, hlines, hdebug, hlabel, rows, List.flatMap_append,
    List.flatMap_append, List.append_assoc]

/-- Code that can be read is determined by its text. -/
theorem Legible.eq_of_sourceText_eq {a b : Flushed Instr} (ha : a.Legible) (hb : b.Legible)
    (h : sourceText (Routine.codeStatements a) = sourceText (Routine.codeStatements b)) : a = b := by
  have hrows := congrArg String.toList h
  rw [toList_sourceText fun line hline => (ha.bodies line hline).op_ne,
    toList_sourceText fun line hline => (hb.bodies line hline).op_ne] at hrows
  exact rows_inj (flatMap_inj (fun row _ => row.chars_ne_nil) Row.append_inj ha.row hb.row hrows)

end Flushed

/-! ## New lines with a true return -/

/-- The lines that are written for a line. -/
def Line.expanded (line : Line Instr) : List (Line Instr) :=
  if line.code.op = Instr.newlineReturn then
    [{ code := { op := "CRLF" }, label := line.label, debug := line.debug },
      { code := { op := "RTRUE" }, kind := .terminator }]
  else [line]

/-- The code with all lines that are written for it. -/
def Flushed.expanded (flushed : Flushed Instr) : Flushed Instr :=
  { flushed with lines := flushed.lines.flatMap Line.expanded }

theorem Line.text_expanded (line : Line Instr) :
    line.expanded.flatMap (fun written => written.text.toList) = line.text.toList := by
  rw [expanded]
  split
  · rename_i hop
    have hne : "CRLF" ≠ Instr.newlineReturn ∧ "RTRUE" ≠ Instr.newlineReturn := by decide
    simp only [text, if_pos hop, if_neg hne.1, if_neg hne.2, List.flatMap_cons, List.flatMap_nil,
      List.append_nil, ← String.toList_append, debugText, instrText]
    simp
  · rw [List.flatMap_singleton]

theorem Flushed.sourceText_expanded (flushed : Flushed Instr) :
    sourceText (Routine.codeStatements flushed.expanded) = sourceText (Routine.codeStatements flushed) := by
  refine String.toList_inj.mp ?_
  simp only [sourceText, Routine.codeStatements, expanded, String.toList_join, List.map_append,
    List.flatMap_append]
  congr 2
  rw [List.flatMap_map, List.flatMap_map, List.flatMap_map, List.flatMap_map, List.flatMap_assoc]
  exact List.flatMap_congr fun line _ => line.text_expanded

end StoryAsm
