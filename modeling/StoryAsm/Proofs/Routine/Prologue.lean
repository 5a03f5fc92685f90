import StoryAsm.Proofs.Code.Front
import StoryAsm.Proofs.Fusion.Soundness
import StoryAsm.Proofs.Routine.History

/-!
# Default values are assigned before the body

From version 5 on the head of a routine cannot hold default values, and lines in front of the body assign
them (`Routine.prologue`). On a processor that knows how many arguments the routine got
(`Processor.Runs`), these lines give every optional parameter without an argument its default value, and
then every local variable, and the code goes on with the body (`Routine.reaches_prologue`).

The lines in front are joined with the body before the code is cleaned up. They are steady, so they stay
as they are, and the labels that they jump to are new ones. The body may share the last of these labels,
which stands in front of its first line.
-/

namespace StoryAsm

/-! ## Runs that reach a place -/

namespace Machine

variable {α : Type} {M : Machine α} {P : Program α} {c d e : Status α M.State M.Value}

/-- Some number of steps leads from one status to the other. -/
def Reaches (M : Machine α) (P : Program α) (c d : Status α M.State M.Value) : Prop :=
  ∃ steps, (M.step P)^[steps] c = d

namespace Reaches

theorem refl (c : Status α M.State M.Value) : M.Reaches P c c := ⟨0, rfl⟩

theorem trans (h : M.Reaches P c d) (h' : M.Reaches P d e) : M.Reaches P c e := by
  obtain ⟨m, rfl⟩ := h
  obtain ⟨n, rfl⟩ := h'
  exact ⟨n + m, Function.iterate_add_apply ..⟩

/-- A line that control goes past. -/
theorem of_next {body : LineBody α} {rest : List (LineBody α)} {s s' : M.State}
    (h : M.exec body s = (s', .next)) : M.Reaches P (.running (body :: rest) s) (.running rest s') :=
  ⟨1, by simp [step, h, proceed]⟩

theorem of_jump {body : LineBody α} {rest place : List (LineBody α)} {s s' : M.State} {label : Label}
    (h : M.exec body s = (s', .jump label)) (hfind : P.find label = some place) :
    M.Reaches P (.running (body :: rest) s) (.running place s') :=
  ⟨1, by simp [step, h, proceed, hfind]⟩

end Reaches

end Machine

/-! ## Processors that run a routine -/

namespace Processor

variable {ω : Type}

/-- Assign to a variable the value that a text has. -/
def assign (Z : Processor ω) (name text : String) (s : State ω) : State ω :=
  (Z.read text s).2.set name (Z.read text s).1

/-- Assign their default values to variables that have one, in the order given. -/
def assignDefaults (Z : Processor ω) (slots : List Local) (s : State ω) : State ω :=
  slots.foldl (fun s slot =>
    match slot.value with
    | some value => Z.assign slot.name value.text s
    | none => s) s

/-- The processor runs a routine with the given variables. It assigns to a variable that is given by
reference, and knows how many variables got an argument of the caller. -/
structure Runs (Z : Processor ω) (names : List String) (supplied : ω → Nat) : Prop where
  /-- A reference is not itself read as a variable. -/
  reference : ∀ name ∈ names, Z.isVariable ("'" ++ name) = false
  set : ∀ name ∈ names, ∀ value s,
    (Z.other "SET" [Z.value ("'" ++ name), value] s).state = s.set name value
  assigned : ∀ name ∈ names, ∀ s,
    (Z.other "ASSIGNED?" [Z.value ("'" ++ name)] s).state = s ∧
      (Z.other "ASSIGNED?" [Z.value ("'" ++ name)] s).holds =
        decide (names.idxOf name < supplied s.world)

variable {Z : Processor ω} {names : List String} {supplied : ω → Nat}

theorem world_read (text : String) (s : State ω) : (Z.read text s).2.world = s.world := by
  obtain ⟨vars, stack, output, world⟩ := s
  simp only [read]
  split
  · cases stack <;> rfl
  · rfl

@[simp] theorem world_assign (name text : String) (s : State ω) :
    (Z.assign name text s).world = s.world := world_read text s

theorem assignDefaults_append (slots others : List Local) (s : State ω) :
    Z.assignDefaults (slots ++ others) s = Z.assignDefaults others (Z.assignDefaults slots s) :=
  List.foldl_append

theorem assignDefaults_cons_none {slot : Local} (h : slot.value = none) (slots : List Local)
    (s : State ω) : Z.assignDefaults (slot :: slots) s = Z.assignDefaults slots s := by
  simp [assignDefaults, h]

theorem assignDefaults_cons_some {slot : Local} {value : Operand} (h : slot.value = some value)
    (slots : List Local) (s : State ω) :
    Z.assignDefaults (slot :: slots) s =
      Z.assignDefaults slots (Z.assign slot.name value.text s) := by
  simp [assignDefaults, h]

theorem Runs.read_reference (h : Z.Runs names supplied) {name : String} (hm : name ∈ names)
    (s : State ω) : Z.read ("'" ++ name) s = (Z.value ("'" ++ name), s) := by
  have hstack : "'" ++ name ≠ "STACK" := by
    intro he
    have hlist := congrArg String.toList he
    simp at hlist
  simp [read, hstack, h.reference name hm]

end Processor

namespace Routine

/-! ## The lines in front -/

/-- The question whether an argument was given. -/
def testLine (param : Local) (skip : Label) : LineBody Instr where
  code := { op := "ASSIGNED?", args := [param.operand.reference] }
  target := some skip
  kind := .branchPositive

/-- The pieces for optional parameters, with labels numbered from `next`. -/
def optionalPieces : List Local → Nat → List (Piece Instr)
  | [], _ => []
  | param :: params, next =>
    match param.value with
    | some value =>
      .line (testLine param (.point next)) :: .line (assignLine param value) :: .mark (.point next) ::
        optionalPieces params (next + 1)
    | none => optionalPieces params next

def localPieces : List Local → List (Piece Instr)
  | [] => []
  | slot :: slots =>
    match slot.value with
    | some value => .line (assignLine slot value) :: localPieces slots
    | none => localPieces slots

/-- The pieces of the lines in front of the body. -/
def prologuePieces (routine : Routine) : List (Piece Instr) :=
  optionalPieces routine.optional.toList routine.nextLabel ++ localPieces routine.locals.toList

/-- The assignment for one optional parameter, if it has a default value. -/
def optionalDefault (state : Buffer Instr × Nat) (param : Local) : Buffer Instr × Nat :=
  match param.value with
  | some value => (assignMissing state.1 param value (.point state.2), state.2 + 1)
  | none => state

theorem optionalDefaults_eq_foldl (params : List Local) (next : Nat) :
    optionalDefaults params next = params.foldl optionalDefault ({}, next) := rfl

theorem optionalDefaults_fill (params : List Local) (next : Nat) :
    (optionalDefaults params next).1 = ({} : Buffer Instr).fill (optionalPieces params next) := by
  rw [optionalDefaults_eq_foldl]
  suffices h : ∀ state : Buffer Instr × Nat,
      (params.foldl optionalDefault state).1 = state.1.fill (optionalPieces params state.2) from
    h ({}, next)
  induction params with
  | nil => exact fun _ => rfl
  | cons param params ih =>
    intro state
    rw [List.foldl_cons, ih, optionalDefault, optionalPieces]
    cases param.value with
    | none => rfl
    | some value => rfl

theorem localDefaults_fill (slots : List Local) (buffer : Buffer Instr) :
    localDefaults buffer slots = buffer.fill (localPieces slots) := by
  induction slots generalizing buffer with
  | nil => rfl
  | cons slot slots ih =>
    simp only [localDefaults, List.foldl_cons, localPieces] at ih ⊢
    cases slot.value with
    | none => exact ih buffer
    | some value => exact ih _

theorem prologue_fill {routine : Routine} (h : routine.version.hasHeaderDefaults = false) :
    routine.prologue.1 = ({} : Buffer Instr).fill routine.prologuePieces := by
  simp only [prologue, h, Bool.false_eq_true, if_false]
  rw [localDefaults_fill, optionalDefaults_fill, prologuePieces, Buffer.fill_append]

/-! ## Their labels -/

/-- A call takes a number for a label, or declares an optional parameter that may take one. -/
theorem Call.labels_changed_le (call : Call) (routine : Routine) :
    (call.changed routine).nextLabel + (call.changed routine).optional.size ≤
      routine.nextLabel + routine.optional.size + 1 := by
  cases call with
  | optional name value =>
    show routine.nextLabel + (routine.optional.push _).size ≤ _
    rw [Array.size_push]
    omega
  | newLabel =>
    show routine.nextLabel + 1 + routine.optional.size ≤ _
    omega
  | emit emission =>
    simp only [changed]
    split <;> exact Nat.le_succ _
  | required | slot | mark | debug | place => exact Nat.le_succ _

theorem labels_after_le (calls : List Call) (routine : Routine) :
    (routine.after calls).nextLabel + (routine.after calls).optional.size ≤
      routine.nextLabel + routine.optional.size + calls.length := by
  induction calls generalizing routine with
  | nil => exact Nat.le_refl _
  | cons call calls ih =>
    have hrest := ih (call.apply routine)
    have hfirst : (call.apply routine).nextLabel + (call.apply routine).optional.size ≤
        routine.nextLabel + routine.optional.size + 1 := by
      rcases call.apply_cases routine with ⟨-, happly⟩ | ⟨-, happly⟩
      · rw [happly]
        exact call.labels_changed_le routine
      · rw [happly]
        exact Nat.le_succ _
    show ((call.apply routine).after calls).nextLabel + ((call.apply routine).after calls).optional.size ≤ _
    rw [List.length_cons]
    omega

theorem optionalDefaults_snd_le (params : List Local) (next : Nat) :
    (optionalDefaults params next).2 ≤ next + params.length := by
  rw [optionalDefaults_eq_foldl]
  suffices h : ∀ state : Buffer Instr × Nat,
      (params.foldl optionalDefault state).2 ≤ state.2 + params.length from h ({}, next)
  induction params with
  | nil => exact fun _ => Nat.le_refl _
  | cons param params ih =>
    intro state
    have hrest := ih (optionalDefault state param)
    have hfirst : (optionalDefault state param).2 ≤ state.2 + 1 := by
      unfold optionalDefault
      split
      · exact Nat.le_refl _
      · exact Nat.le_succ _
    rw [List.foldl_cons, List.length_cons]
    omega

/-- The labels of a routine have numbers below the number of calls that were made on it. With fewer than
`2 ^ 32` calls all of them have 32 bits, and a counter of that width gives the same labels. -/
theorem prologue_snd_le (name : String) (version : Version) (isEntryPoint cleansStack : Bool)
    (calls : List Call) :
    ((new name version isEntryPoint cleansStack).after calls).prologue.2 ≤ calls.length := by
  have hcalls := labels_after_le calls (new name version isEntryPoint cleansStack)
  have hnew : (new name version isEntryPoint cleansStack).nextLabel +
      (new name version isEntryPoint cleansStack).optional.size = 0 := rfl
  generalize (new name version isEntryPoint cleansStack).after calls = routine at hcalls ⊢
  unfold prologue
  split
  · show routine.nextLabel ≤ _
    omega
  · have hdefaults := optionalDefaults_snd_le routine.optional.toList routine.nextLabel
    rw [Array.length_toList] at hdefaults
    show (optionalDefaults routine.optional.toList routine.nextLabel).2 ≤ _
    omega

theorem exists_of_mem_marks_optionalPieces {params : List Local} {next : Nat} {label : Label}
    (h : label ∈ Piece.marks (optionalPieces params next)) :
    ∃ number, next ≤ number ∧ label = .point number := by
  induction params generalizing next with
  | nil => simp [optionalPieces, Piece.marks] at h
  | cons param params ih =>
    simp only [optionalPieces] at h
    split at h
    · rcases List.mem_cons.mp h with rfl | h
      · exact ⟨next, Nat.le_refl _, rfl⟩
      · obtain ⟨number, hle, hlabel⟩ := ih h
        exact ⟨number, by omega, hlabel⟩
    · exact ih h

theorem nodup_marks_optionalPieces (params : List Local) (next : Nat) :
    (Piece.marks (optionalPieces params next)).Nodup := by
  induction params generalizing next with
  | nil => exact List.nodup_nil
  | cons param params ih =>
    simp only [optionalPieces]
    split
    · refine List.nodup_cons.mpr ⟨fun hm => ?_, ih (next + 1)⟩
      obtain ⟨number, hle, hlabel⟩ := exists_of_mem_marks_optionalPieces hm
      cases hlabel
      omega
    · exact ih next

@[simp] theorem marks_localPieces (slots : List Local) : Piece.marks (localPieces slots) = [] := by
  induction slots with
  | nil => rfl
  | cons slot slots ih =>
    simp only [localPieces]
    split
    · exact ih
    · exact ih

/-- No label waits where one is marked, so none becomes an alias. -/
theorem aliases_fill_optionalPieces (params : List Local) (next : Nat) (buffer : Buffer Instr) :
    (buffer.fill (optionalPieces params next)).aliases = buffer.aliases := by
  induction params generalizing next buffer with
  | nil => rfl
  | cons param params ih =>
    simp only [optionalPieces]
    cases param.value with
    | none => exact ih next buffer
    | some value => exact ih (next + 1) _

theorem aliases_fill_localPieces (slots : List Local) (buffer : Buffer Instr) :
    (buffer.fill (localPieces slots)).aliases = buffer.aliases := by
  induction slots generalizing buffer with
  | nil => rfl
  | cons slot slots ih =>
    simp only [localPieces]
    cases slot.value with
    | none => exact ih buffer
    | some value => exact ih _

/-- A line in front: a test that jumps to a label of the front, or an assignment. -/
inductive FrontLine (marks : List Label) : LineBody Instr → Prop where
  | test (param : Local) {skip : Label} : skip ∈ marks → FrontLine marks (testLine param skip)
  | assign (slot : Local) (value : Operand) : FrontLine marks (assignLine slot value)

theorem FrontLine.mono {marks marks' : List Label} {body : LineBody Instr} (h : FrontLine marks body)
    (hsub : marks ⊆ marks') : FrontLine marks' body := by
  cases h with
  | test param hm => exact .test param (hsub hm)
  | assign slot value => exact .assign slot value

theorem frontLine_optionalPieces {params : List Local} {next : Nat} {body : LineBody Instr}
    (h : body ∈ Piece.lines (optionalPieces params next)) :
    FrontLine (Piece.marks (optionalPieces params next)) body := by
  induction params generalizing next with
  | nil => simp [optionalPieces, Piece.lines] at h
  | cons param params ih =>
    simp only [optionalPieces] at h ⊢
    split at h
    · rcases List.mem_cons.mp h with rfl | h
      · exact .test param List.mem_cons_self
      rcases List.mem_cons.mp h with rfl | h
      · exact .assign param _
      · exact (ih h).mono (List.subset_cons_self ..)
    · exact ih h

theorem frontLine_localPieces {marks : List Label} {slots : List Local} {body : LineBody Instr}
    (h : body ∈ Piece.lines (localPieces slots)) : FrontLine marks body := by
  induction slots with
  | nil => simp [localPieces, Piece.lines] at h
  | cons slot slots ih =>
    simp only [localPieces] at h
    split at h
    · rcases List.mem_cons.mp h with rfl | h
      · exact .assign slot _
      · exact ih h
    · exact ih h

theorem frontLine_prologuePieces {routine : Routine} {body : LineBody Instr}
    (h : body ∈ Piece.lines routine.prologuePieces) :
    FrontLine (Piece.marks routine.prologuePieces) body := by
  rw [prologuePieces, Piece.lines_append, List.mem_append] at h
  rcases h with h | h
  · refine (frontLine_optionalPieces h).mono ?_
    rw [prologuePieces, Piece.marks_append]
    exact List.subset_append_left ..
  · exact frontLine_localPieces h

/-- No rule of fusion has such a line as its first one. -/
theorem FrontLine.steady {marks : List Label} {line : Line Instr}
    (h : FrontLine marks line.toLineBody) : Fusion.combine.Steady line := by
  obtain ⟨body, label, debug⟩ := line
  have hop : body.code.op = "ASSIGNED?" ∨ body.code.op = "SET" := by
    cases h with
    | test => exact .inl rfl
    | assign => exact .inr rfl
  have hstore : body.code.store = none := by cases h <;> rfl
  have hnone : ∀ f next, ¬Fusion.Rule { body with label, debug } next f := by
    intro f next hrule
    cases hrule with
    | storePopped dest _ hstack => simp [hstore] at hstack
    | stepCompare direction name right hname =>
      cases direction <;> rcases hop with hop | hop <;> simp [hop, Primitive.name] at hname
    | newLineReturn hname | printReturn text hname | returnPushed value hname =>
      rcases hop with hop | hop <;> simp [hop] at hname
  refine ⟨fun next => ?_, by cases h <;> rfl⟩
  cases hf : Fusion.combine { body with label, debug } next with
  | none => rfl
  | some f => exact absurd (Fusion.rule_of_combine hf) (hnone f next)

/-! ## The joined code -/

open Code

/-- The lines in front are to be joined with the given code, which has no label of theirs. -/
structure Joined (routine : Routine) (pieces : List (Piece Instr)) : Prop where
  version : routine.version.hasHeaderDefaults = false
  buffer : routine.buffer = ({} : Buffer Instr).fill pieces
  nodup : (Piece.marks pieces).Nodup
  marked : ∀ number, .point number ∈ Piece.marks pieces → number < routine.nextLabel
  targeted : ∀ body ∈ Piece.lines pieces, ∀ number, body.target = some (.point number) →
    number < routine.nextLabel

theorem exists_of_mem_marks_prologuePieces {routine : Routine} {label : Label}
    (h : label ∈ Piece.marks routine.prologuePieces) :
    ∃ number, routine.nextLabel ≤ number ∧ label = .point number := by
  rw [prologuePieces, Piece.marks_append, marks_localPieces, List.append_nil] at h
  exact exists_of_mem_marks_optionalPieces h

theorem nodup_marks_prologuePieces (routine : Routine) :
    (Piece.marks routine.prologuePieces).Nodup := by
  rw [prologuePieces, Piece.marks_append, marks_localPieces, List.append_nil]
  exact nodup_marks_optionalPieces ..

namespace Joined

variable {routine : Routine} {pieces : List (Piece Instr)} {label : Label} {index : Nat}

theorem tracksFront (h : routine.Joined pieces) :
    Buffer.Tracks routine.prologuePieces routine.prologue.1 := by
  rw [prologue_fill h.version]
  exact Buffer.Tracks.new.fill (nodup_marks_prologuePieces routine)

theorem notMem_front (h : routine.Joined pieces) (hm : label ∈ Piece.marks pieces) :
    label ∉ Piece.marks routine.prologuePieces := by
  intro hfront
  obtain ⟨number, hle, rfl⟩ := exists_of_mem_marks_prologuePieces hfront
  have hlt := h.marked number hm
  omega

theorem tracks (h : routine.Joined pieces) :
    Buffer.Tracks (routine.prologuePieces ++ pieces) routine.fullBuffer := by
  have hcode : Buffer.Tracks pieces routine.buffer := by
    rw [h.buffer]
    exact Buffer.Tracks.new.fill h.nodup
  exact h.tracksFront.append hcode fun label hfront hm => h.notMem_front hm hfront

/-- A label of the lines in front is carried where it was marked. -/
theorem labelAt_prologue (h : routine.Joined pieces)
    (hline : Piece.lineOf label routine.prologuePieces = some index) :
    routine.prologue.1.labelAt index = some label := by
  have haliases : routine.prologue.1.aliases = [] := by
    rw [prologue_fill h.version, prologuePieces, Buffer.fill_append, aliases_fill_localPieces,
      aliases_fill_optionalPieces]
  have hresolve : routine.prologue.1.resolve label = label :=
    (Buffer.endsAt_self (by rw [haliases]; rfl)).resolve_eq
  rw [h.tracksFront.labelAt_resolve hline, hresolve]

theorem resolve_front (h : routine.Joined pieces) (hm : label ∈ Piece.marks routine.prologuePieces) :
    routine.fullBuffer.resolve label = label := by
  obtain ⟨index, hline⟩ := Option.isSome_iff_exists.mp (Piece.lineOf_isSome_iff.mpr hm)
  have hat := h.labelAt_prologue hline
  have hfull : routine.fullBuffer.labelAt index = some label := by
    have hle := h.tracksFront.length_eq ▸ Piece.lineOf_le hline
    rcases Nat.lt_or_eq_of_le hle with hlt | rfl
    · rw [fullBuffer, Buffer.append_labelAt_of_lt hlt, hat]
    · rw [Buffer.labelAt_length] at hat
      rw [fullBuffer, Buffer.append_labelAt_length, hat, Option.some_or]
  have hline' : Piece.lineOf label (routine.prologuePieces ++ pieces) = some index := by
    rw [Piece.lineOf_append_left hm, hline]
  exact Option.some.inj ((h.tracks.labelAt_resolve hline').symm.trans hfull)

theorem frontLine (h : routine.Joined pieces) {line : Line Instr}
    (hm : line ∈ routine.prologue.1.lines.toList) :
    FrontLine (Piece.marks routine.prologuePieces) line.toLineBody := by
  apply frontLine_prologuePieces
  rw [← h.tracksFront.bodies]
  exact List.mem_map_of_mem hm

theorem target_mem_marks (h : routine.Joined pieces) {line : Line Instr}
    (hm : line ∈ routine.prologue.1.lines.toList) (htarget : line.target = some label) :
    label ∈ Piece.marks routine.prologuePieces := by
  have hline := h.frontLine hm
  obtain ⟨⟨code, target, kind⟩, _, debug⟩ := line
  cases hline with
  | test param hskip =>
    cases htarget
    exact hskip
  | assign => cases htarget

/-- The first pass does not change the lines in front either. -/
theorem exists_resolvedLines (h : routine.Joined pieces) :
    ∃ code, routine.fullBuffer.resolvedLines = routine.prologue.1.lines.toList ++ code ∧
      bodies code = (Piece.lines pieces).map (·.retarget routine.fullBuffer.resolve) ∧
      ∀ label, routine.prologue.1.pendingLabel = some label →
        entry code routine.fullBuffer.pendingLabel = some label := by
  obtain ⟨lines, hlines, hentry⟩ := Buffer.exists_append_lines routine.prologue.1 routine.buffer
  have hfront : routine.prologue.1.lines.toList.map (fun line =>
      { line with target := line.target.map routine.fullBuffer.resolve }) =
      routine.prologue.1.lines.toList := by
    refine (List.map_congr_left fun line hm => ?_).trans (List.map_id _)
    have hline := h.frontLine hm
    obtain ⟨⟨code, target, kind⟩, label, debug⟩ := line
    cases hline with
    | test param hskip => simp [h.resolve_front hskip]
    | assign => rfl
  have hresolved : routine.fullBuffer.resolvedLines = routine.prologue.1.lines.toList ++
      lines.map fun line => { line with target := line.target.map routine.fullBuffer.resolve } := by
    rw [Buffer.resolvedLines, fullBuffer, hlines, List.map_append]
    exact congrArg (· ++ _) hfront
  refine ⟨_, hresolved, ?_, fun label hpending => ?_⟩
  · have hbodies := Buffer.bodies_resolvedLines h.tracks
    rw [hresolved, Piece.lines_append, List.map_append, bodies, List.map_append] at hbodies
    refine (List.append_inj hbodies ?_).2
    rw [List.length_map, List.length_map, h.tracksFront.length_eq]
  · have hfirst := hentry label hpending
    cases lines with
    | nil => exact hfirst
    | cons first rest => exact hfirst

/-! ## Emitted lines -/

/-- The labels of the emitted code, each at one place. -/
theorem nodup_labels (h : routine.Joined pieces) : routine.flushed.labels.Nodup :=
  h.tracks.nodup_labels.sublist (Buffer.labels_flush_sublist Fusion.combine _)

/-- The lines in front are emitted as they are. -/
theorem exists_lines_flushed (h : routine.Joined pieces) :
    ∃ code, bodies code = (Piece.lines pieces).map (·.retarget routine.fullBuffer.resolve) ∧
      routine.flushed.lines = routine.prologue.1.lines.toList ++
        clean Fusion.combine (referenced routine.fullBuffer.resolvedLines) code ∧
      ∀ label, routine.prologue.1.pendingLabel = some label →
        entry (clean Fusion.combine (referenced routine.fullBuffer.resolvedLines) code)
          routine.flushed.trailingLabel = some label := by
  obtain ⟨code, hresolved, hbodies, hentry⟩ := h.exists_resolvedLines
  refine ⟨code, hbodies, ?_, fun label hpending => entry_clean (hentry label hpending)⟩
  have hsteady : ∀ line ∈ routine.prologue.1.lines.toList, Fusion.combine.Steady line :=
    fun line hm => (h.frontLine hm).steady
  rw [← clean_append hsteady, ← hresolved]
  exact lines_flush Fusion.combine routine.fullBuffer

variable {body : List (Line Instr)}

/-- A jump within the lines in front leads to the place of its label. -/
theorem find_front (h : routine.Joined pieces)
    (hlines : routine.flushed.lines = routine.prologue.1.lines.toList ++ body)
    (hentry : ∀ label, routine.prologue.1.pendingLabel = some label →
      entry body routine.flushed.trailingLabel = some label)
    (hline : Piece.lineOf label routine.prologuePieces = some index) :
    routine.flushed.program.find label =
      some ((Piece.lines routine.prologuePieces).drop index ++ bodies body) := by
  have hat := h.labelAt_prologue hline
  have hle := h.tracksFront.length_eq ▸ Piece.lineOf_le hline
  have hrest : bodies (routine.prologue.1.lines.toList.drop index ++ body) =
      (Piece.lines routine.prologuePieces).drop index ++ bodies body := by
    rw [← h.tracksFront.bodies, bodies, List.map_append, List.map_drop]
    rfl
  have hplace : entry (routine.prologue.1.lines.toList.drop index ++ body)
      routine.flushed.trailingLabel = some label := by
    rcases Nat.lt_or_eq_of_le hle with hlt | rfl
    · rw [List.drop_eq_getElem_cons hlt]
      rwa [Buffer.labelAt_of_lt hlt] at hat
    · rw [List.drop_length, List.nil_append]
      rw [Buffer.labelAt_length] at hat
      exact hentry label hat
  have hsplit : routine.flushed.lines = routine.prologue.1.lines.toList.take index ++
      (routine.prologue.1.lines.toList.drop index ++ body) := by
    rw [hlines, ← List.append_assoc, List.take_append_drop]
  have hnodup := h.nodup_labels
  rw [Flushed.labels, hsplit] at hnodup
  rw [Flushed.program, hsplit, find_entry hnodup hplace, hrest]

/-- A target of the code is not carried by a line in front, also where it is an alias. -/
theorem resolve_notMem_carried (h : routine.Joined pieces) {target : Label}
    (htarget : ∀ number, target = .point number → number < routine.nextLabel) :
    routine.fullBuffer.resolve target ∉ carried routine.prologue.1.lines.toList := by
  intro hm
  obtain ⟨index, hlt, hat⟩ := Buffer.labelAt_of_mem_carried hm
  have hfull : routine.fullBuffer.labelAt index = some (routine.fullBuffer.resolve target) := by
    rw [fullBuffer, Buffer.append_labelAt_of_lt hlt, ← fullBuffer, hat]
  have hlength : index ≤ routine.fullBuffer.lines.toList.length := by
    have hjoined := h.tracks.length_eq
    rw [Piece.lines_append, List.length_append, ← h.tracksFront.length_eq] at hjoined
    omega
  have hline := h.tracks.carries hlength hfull
  by_cases hmarked : target ∈ Piece.marks (routine.prologuePieces ++ pieces)
  · -- the label stands for one of the code, whose line comes later
    have hnot : target ∉ Piece.marks routine.prologuePieces := by
      intro hfront
      obtain ⟨number, hle, he⟩ := exists_of_mem_marks_prologuePieces hfront
      have hbound := htarget number he
      omega
    obtain ⟨place, hplace⟩ := Option.isSome_iff_exists.mp (Piece.lineOf_isSome_iff.mpr hmarked)
    have hsame := h.tracks.carries (h.tracks.length_eq ▸ Piece.lineOf_le hplace)
      (h.tracks.labelAt_resolve hplace)
    rw [hline, Option.some.injEq] at hsame
    rw [Piece.lineOf_append_right hnot] at hplace
    obtain ⟨offset, -, hoffset⟩ := Option.map_eq_some_iff.mp hplace
    rw [h.tracksFront.length_eq] at hlt
    omega
  · rw [h.tracks.resolve_of_notMem hmarked] at hline
    exact hmarked (Buffer.Tracks.mem_of_lineOf hline)

theorem inside {code : List (Line Instr)} (h : routine.Joined pieces)
    (hbodies : bodies code = (Piece.lines pieces).map (·.retarget routine.fullBuffer.resolve))
    (hlines : routine.flushed.lines = routine.prologue.1.lines.toList ++
      clean Fusion.combine (referenced routine.fullBuffer.resolvedLines) code)
    {line : Line Instr}
    (hm : line ∈ clean Fusion.combine (referenced routine.fullBuffer.resolvedLines) code)
    (htarget : line.target = some label) {place : List (LineBody Instr)}
    (hfind : routine.flushed.program.find label = some place) :
    place <:+ bodies (clean Fusion.combine (referenced routine.fullBuffer.resolvedLines) code) := by
  -- the passes make no new targets
  have hreferenced : label ∈ referenced code := by
    apply referenced_fuseLines_subset fun hf => (Fusion.rule_of_combine hf).target
    apply referenced_dropUnreachable_subset
    apply referenced_dropJumps_subset
    exact List.mem_filterMap.mpr ⟨line, hm, htarget⟩
  obtain ⟨source, hsource, hlabel⟩ := List.mem_filterMap.mp hreferenced
  have hbody : source.toLineBody ∈ bodies code := List.mem_map_of_mem hsource
  rw [hbodies] at hbody
  obtain ⟨original, horiginal, he⟩ := List.mem_map.mp hbody
  have hlabel' : original.target.map routine.fullBuffer.resolve = some label := by
    rw [← hlabel, ← he]
    rfl
  obtain ⟨target, htarget', rfl⟩ := Option.map_eq_some_iff.mp hlabel'
  rw [Flushed.program, hlines] at hfind
  refine find_append_suffix (h.resolve_notMem_carried fun number he => ?_) hfind
  exact h.targeted original horiginal number (he ▸ htarget')

end Joined

/-! ## Running the lines in front -/

section Run
variable {ω : Type} {Z : Processor ω} {names : List String} {supplied : ω → Nat}
variable {P : Program Instr} {rest : List (LineBody Instr)}

theorem exec_assignLine (hruns : Z.Runs names supplied) {slot : Local} (hm : slot.name ∈ names)
    (value : Operand) (s : Processor.State ω) :
    Z.machine.exec (assignLine slot value) s = (Z.assign slot.name value.text s, .next) := by
  have hother : Primitive.ofName? "SET" = none := rfl
  rw [Processor.exec_plain rfl]
  simp only [assignLine, Local.operand, Operand.reference]
  rw [Processor.effect_other hother]
  simp only [Processor.effectOther, Processor.readAll, hruns.read_reference hm]
  rw [hruns.set slot.name hm]
  rfl

theorem exec_testLine (hruns : Z.Runs names supplied) {param : Local} (hm : param.name ∈ names)
    (number : Nat) (s : Processor.State ω) :
    Z.machine.exec (testLine param (.point number)) s =
      (s, if names.idxOf param.name < supplied s.world then .jump (.point number) else .next) := by
  have hother : Primitive.ofName? "ASSIGNED?" = none := rfl
  have heffect : Z.effect (testLine param (.point number)).code s =
      (Z.other "ASSIGNED?" [Z.value ("'" ++ param.name)] s).toEffect := by
    rw [Processor.effect_other hother]
    simp only [testLine, Local.operand, Operand.reference, Processor.effectOther, Processor.readAll,
      hruns.read_reference hm]
  obtain ⟨hstate, hholds⟩ := hruns.assigned param.name hm s
  have hrun : Z.machine.run (testLine param (.point number)) s =
      (s, if names.idxOf param.name < supplied s.world then .jump (.point number) else .next) := by
    show ((Z.effect (testLine param (.point number)).code s).state,
      if (Z.effect (testLine param (.point number)).code s).holds then Exit.jump (.point number)
      else .next) = _
    rw [heffect, hstate, hholds]
    simp only [decide_eq_true_eq]
    rfl
  simp only [Machine.exec, hrun]
  split <;> rfl

theorem reaches_localPieces (hruns : Z.Runs names supplied) (slots : List Local)
    (hslots : ∀ slot ∈ slots, slot.name ∈ names) (s : Processor.State ω) :
    Z.machine.Reaches P (.running (Piece.lines (localPieces slots) ++ rest) s)
      (.running rest (Z.assignDefaults slots s)) := by
  induction slots generalizing s with
  | nil => exact .refl _
  | cons slot slots ih =>
    have hrest : ∀ slot ∈ slots, slot.name ∈ names := fun slot hm => hslots slot (.tail _ hm)
    simp only [localPieces]
    cases hvalue : slot.value with
    | none =>
      rw [Processor.assignDefaults_cons_none hvalue]
      exact ih hrest s
    | some value =>
      rw [Processor.assignDefaults_cons_some hvalue]
      have hexec := exec_assignLine hruns (hslots slot List.mem_cons_self) value s
      exact (Machine.Reaches.of_next hexec).trans (ih hrest _)

/-- The parameters from the first one without an argument on get their default values. Along the
parameters, each label leads behind the assignment that it skips. -/
theorem reaches_optionalPieces (hruns : Z.Runs names supplied) (hnodup : names.Nodup)
    {others : List (Piece Instr)} (params : List Local) (next : Nat) {before behind : List String}
    (hnames : names = before ++ (params.map (·.name) ++ behind))
    (hmarks : (Piece.marks (optionalPieces params next ++ others)).Nodup)
    (hfind : ∀ label index, Piece.lineOf label (optionalPieces params next ++ others) = some index →
      P.find label = some ((Piece.lines (optionalPieces params next ++ others)).drop index ++ rest))
    {count : Nat} {s : Processor.State ω} (hcount : supplied s.world = count) :
    Z.machine.Reaches P (.running (Piece.lines (optionalPieces params next ++ others) ++ rest) s)
      (.running (Piece.lines others ++ rest)
        (Z.assignDefaults (params.drop (count - before.length)) s)) := by
  induction params generalizing next before s with
  | nil =>
    rw [List.drop_nil]
    exact .refl _
  | cons param params ih =>
    have hm : param.name ∈ names := by simp [hnames]
    have hindex : names.idxOf param.name = before.length := by
      rw [hnames] at hnodup
      have hnot : param.name ∉ before := fun hbefore =>
        List.disjoint_of_nodup_append hnodup hbefore (by simp)
      rw [hnames, List.idxOf_append_of_notMem hnot]
      simp
    have hnames' : names = (before ++ [param.name]) ++ (params.map (·.name) ++ behind) := by
      rw [hnames]
      simp
    have hlength : (before ++ [param.name]).length = before.length + 1 := List.length_append
    cases hvalue : param.value with
    | none =>
      simp only [optionalPieces, hvalue] at hmarks hfind ⊢
      have hrun := ih next hnames' hmarks hfind hcount
      rw [hlength] at hrun
      rcases Nat.lt_or_ge before.length count with hlt | hge
      · rwa [show count - before.length = count - (before.length + 1) + 1 by omega,
          List.drop_succ_cons]
      · rw [show count - before.length = 0 by omega, List.drop_zero,
          Processor.assignDefaults_cons_none hvalue]
        rwa [show count - (before.length + 1) = 0 by omega, List.drop_zero] at hrun
    | some value =>
      simp only [optionalPieces, hvalue, List.cons_append, Piece.marks, Piece.lines,
        List.nodup_cons] at hmarks hfind ⊢
      have hskip := hfind (.point next) 2 (by simp [Piece.lineOf])
      have hfind' : ∀ label index,
          Piece.lineOf label (optionalPieces params (next + 1) ++ others) = some index →
          P.find label = some ((Piece.lines (optionalPieces params (next + 1) ++ others)).drop index ++
            rest) := by
        intro label index hline
        have hne : Label.point next ≠ label := fun he =>
          hmarks.1 (he ▸ Buffer.Tracks.mem_of_lineOf hline)
        exact hfind label (index + 2) (by simp [Piece.lineOf, hne, hline])
      have htest := exec_testLine hruns hm next s
      rw [hindex, hcount] at htest
      rcases Nat.lt_or_ge before.length count with hlt | hge
      · -- the argument was given, so the jump skips the assignment
        rw [if_pos hlt] at htest
        have hrun := ih (next + 1) hnames' hmarks.2 hfind' hcount
        rw [hlength] at hrun
        rw [show count - before.length = count - (before.length + 1) + 1 by omega,
          List.drop_succ_cons]
        exact (Machine.Reaches.of_jump htest hskip).trans hrun
      · rw [if_neg (by omega)] at htest
        have hassign := exec_assignLine hruns hm value s
        have hrun := ih (next + 1) (s := Z.assign param.name value.text s) hnames' hmarks.2 hfind'
          ((congrArg supplied (Processor.world_assign ..)).trans hcount)
        rw [hlength, show count - (before.length + 1) = 0 by omega, List.drop_zero] at hrun
        rw [show count - before.length = 0 by omega, List.drop_zero,
          Processor.assignDefaults_cons_some hvalue]
        exact (Machine.Reaches.of_next htest).trans ((Machine.Reaches.of_next hassign).trans hrun)

end Run

/-- The variables that may need their default value where the caller gives a number of arguments: the
optional parameters without one, and the local variables. -/
def withoutArgument (routine : Routine) (count : Nat) : List Local :=
  routine.optional.toList.drop (count - routine.required.size) ++ routine.locals.toList

/-- The lines in front lead to the body, in a state where the default values are assigned. -/
theorem reaches_prologue {ω : Type} {Z : Processor ω} {supplied : ω → Nat} {routine : Routine}
    {pieces : List (Piece Instr)} {body : List (Line Instr)} (h : routine.Joined pieces)
    (hnodup : routine.slotNames.Nodup) (hruns : Z.Runs routine.slotNames supplied)
    (hlines : routine.flushed.lines = routine.prologue.1.lines.toList ++ body)
    (hentry : ∀ label, routine.prologue.1.pendingLabel = some label →
      entry body routine.flushed.trailingLabel = some label) (s : Processor.State ω) :
    Z.machine.Reaches routine.flushed.program (.running routine.flushed.program.start s)
      (.running (bodies body) (Z.assignDefaults (routine.withoutArgument (supplied s.world)) s)) := by
  have hstart : routine.flushed.program.start =
      Piece.lines routine.prologuePieces ++ bodies body := by
    show bodies routine.flushed.lines = _
    rw [hlines, ← h.tracksFront.bodies, bodies, List.map_append]
    rfl
  have hnames : routine.slotNames = routine.required.toList.map (·.name) ++
      (routine.optional.toList.map (·.name) ++ routine.locals.toList.map (·.name)) := by
    simp [slotNames, slots]
  have hlocals : ∀ slot ∈ routine.locals.toList, slot.name ∈ routine.slotNames := by
    intro slot hm
    exact List.mem_map_of_mem (List.mem_append_right _ hm)
  have hoptional := reaches_optionalPieces hruns hnodup routine.optional.toList routine.nextLabel hnames
    (nodup_marks_prologuePieces routine) (fun label index => h.find_front hlines hentry)
    (rfl : supplied s.world = _)
  rw [hstart, withoutArgument, Processor.assignDefaults_append]
  rw [List.length_map, Array.length_toList] at hoptional
  exact hoptional.trans (reaches_localPieces hruns _ hlocals _)

/-! ## Routines built by calls -/

/-- The code that calls make uses labels that the routine issued, and places none of them twice. -/
structure WellLabelled (start : Routine) (calls : List Call) : Prop where
  nodup : (Piece.marks (start.pieces calls)).Nodup
  marked : ∀ label ∈ Piece.marks (start.pieces calls), label ∈ start.issued calls
  targeted : ∀ body ∈ Piece.lines (start.pieces calls), ∀ number,
    body.target = some (.point number) → .point number ∈ start.issued calls

theorem WellLabelled.joined {name : String} {version : Version} {isEntryPoint cleansStack : Bool}
    {calls : List Call} (hversion : 5 ≤ version.number)
    (h : (new name version isEntryPoint cleansStack).WellLabelled calls) :
    ((new name version isEntryPoint cleansStack).after calls).Joined
      ((new name version isEntryPoint cleansStack).pieces calls) where
  version := by
    rw [version_after]
    exact decide_eq_false (Nat.not_lt.mpr hversion)
  buffer := buffer_after calls _
  nodup := h.nodup
  marked number hm := by
    obtain ⟨number', hlt, he⟩ := exists_of_mem_issued (h.marked _ hm)
    cases he
    exact hlt
  targeted body hbody number htarget := by
    obtain ⟨number', hlt, he⟩ := exists_of_mem_issued (h.targeted body hbody number htarget)
    cases he
    exact hlt

/-- The emitted code of a routine assigns default values and goes on with the body. -/
structure AssignsDefaults {ω : Type} (Z : Processor ω) (supplied : ω → Nat) (routine : Routine)
    (issued : List Label) (pieces : List (Piece Instr)) (body : List (Line Instr)) : Prop where
  /-- No line in front is fused or dropped. -/
  lines : routine.flushed.lines = routine.prologue.1.lines.toList ++ body
  /-- The body is what the passes make of the code of the routine alone. -/
  origin : ∃ code, bodies code = (Piece.lines pieces).map (·.retarget routine.fullBuffer.resolve) ∧
    body = clean Fusion.combine (referenced routine.fullBuffer.resolvedLines) code
  /-- Whatever the number of arguments, the body starts with the default values assigned. -/
  reaches : ∀ s, Z.machine.Reaches routine.flushed.program
    (.running routine.flushed.program.start s)
    (.running (bodies body) (Z.assignDefaults (routine.withoutArgument (supplied s.world)) s))
  /-- The labels of the lines in front are new ones. -/
  fresh : ∀ label ∈ referenced routine.prologue.1.lines.toList, label ∉ issued
  /-- Jumps of the body stay in the body. -/
  inside : ∀ line ∈ body, ∀ label, line.target = some label →
    ∀ place, routine.flushed.program.find label = some place → place <:+ bodies body

/-- Routines of version 5 or later assign default values before the body, whatever the body is. -/
theorem exists_assignsDefaults {ω : Type} (Z : Processor ω) (supplied : ω → Nat) (name : String)
    (version : Version) (isEntryPoint cleansStack : Bool) (calls : List Call) (start : Routine)
    (hstart : start = new name version isEntryPoint cleansStack) (hversion : 5 ≤ version.number)
    (hlabels : start.WellLabelled calls) (hruns : Z.Runs (start.after calls).slotNames supplied) :
    ∃ body, AssignsDefaults Z supplied (start.after calls) (start.issued calls) (start.pieces calls)
      body := by
  subst hstart
  have hjoined := hlabels.joined hversion
  have hnodup : ((new name version isEntryPoint cleansStack).after calls).slotNames.Nodup :=
    nodup_slotNames_after calls List.nodup_nil
  obtain ⟨code, hbodies, hlines, hentry⟩ := hjoined.exists_lines_flushed
  refine ⟨_, hlines, ⟨code, hbodies, rfl⟩, reaches_prologue hjoined hnodup hruns hlines hentry, ?_, ?_⟩
  · intro label hm hissued
    obtain ⟨line, hline, htarget⟩ := List.mem_filterMap.mp hm
    obtain ⟨number, hlt, rfl⟩ := exists_of_mem_issued hissued
    have hfront := hjoined.target_mem_marks hline htarget
    obtain ⟨number', hle, he⟩ := exists_of_mem_marks_prologuePieces hfront
    cases he
    omega
  · intro line hm label htarget place hfind
    exact hjoined.inside hbodies hlines hm htarget hfind

/-- Two optional parameters, of which the second takes the value of the first, and a loop that starts
right behind them. -/
def countingCalls : List Call :=
  let count : Operand := .var "A" .routine
  [.required "A", .optional "B" (some (.number 7)), .optional "C" (some (.var "B" .routine)), .newLabel,
    .mark (.point 0), .emit (.binary .add count (.number 1) (some count)), .emit (.jump (.point 0))]

/-- A processor for the routine. A reference has the index of its variable as value, and the number of
arguments is all that is kept besides variables, stack and output. -/
def countingProcessor : Processor Nat where
  isVariable text := ["A", "B", "C"].contains text
  value text :=
    match text.toInt? with
    | some number => BitVec.ofInt 16 number
    | none => BitVec.ofNat 16 (["'A", "'B", "'C"].idxOf text)
  value_number number := by
    show (match (number.repr).toInt? with
      | some number => BitVec.ofInt 16 number
      | none => BitVec.ofNat 16 (["'A", "'B", "'C"].idxOf number.repr)) = _
    rw [Int.toInt?_repr]
  printed text := text
  bottom := 0
  other op values s :=
    match op, values with
    | "SET", [index, value] =>
      { state := s.set (["A", "B", "C"].getD index.toNat "") value, holds := false, value := 0, result := 0 }
    | "ASSIGNED?", [index] => { state := s, holds := index.toNat < s.world, value := 0, result := 0 }
    | _, _ => { state := s, holds := false, value := 0, result := 0 }

/-- A reference is no numeral, since it starts with a quote. -/
theorem toInt?_reference (name : String) : ("'" ++ name).toInt? = none := by
  rw [String.toInt?_eq_none_iff, ← Bool.not_eq_true, String.isInt_iff]
  rintro (hnat | ⟨digits, heq, -⟩)
  · have hquote := (String.isNat_iff.mp hnat).2.1 '\x27' (by simp)
    exact absurd hquote (by decide)
  · have hhead := congrArg (·.toList.head?) heq
    simp at hhead

theorem value_reference (name : String) :
    countingProcessor.value ("'" ++ name) = BitVec.ofNat 16 (["'A", "'B", "'C"].idxOf ("'" ++ name)) := by
  simp only [countingProcessor, toInt?_reference]

theorem runs_countingProcessor : countingProcessor.Runs ["A", "B", "C"] id where
  reference := by decide
  set name hm value s := by
    rw [value_reference]
    simp only [List.mem_cons, List.not_mem_nil, or_false] at hm
    rcases hm with rfl | rfl | rfl <;> rfl
  assigned name hm s := by
    rw [value_reference]
    simp only [List.mem_cons, List.not_mem_nil, or_false] at hm
    rcases hm with rfl | rfl | rfl <;> exact ⟨rfl, rfl⟩

/-- The loop of the routine starts at the label of the last line in front. -/
theorem exists_assignsDefaults_counting :
    ∃ start : Routine, start = new "COUNT" { number := 5 } false false ∧
      start.WellLabelled countingCalls ∧
      countingProcessor.Runs (start.after countingCalls).slotNames id ∧
      (start.after countingCalls).fullBuffer.resolve (.point 0) = .point 2 ∧
      ∃ body, AssignsDefaults countingProcessor id (start.after countingCalls)
        (start.issued countingCalls) (start.pieces countingCalls) body := by
  have hlabels : (new "COUNT" { number := 5 } false false).WellLabelled countingCalls := by
    have htargets : ∀ body ∈ Piece.lines (pieces (new "COUNT" { number := 5 } false false) countingCalls),
        body.target = none ∨ body.target = some (.point 0) := by decide
    refine ⟨by decide, by decide, fun body hm number htarget => ?_⟩
    rcases htargets body hm with hnone | hsome
    · rw [hnone] at htarget
      cases htarget
    · cases hsome.symm.trans htarget
      decide
  have hruns : countingProcessor.Runs
      ((new "COUNT" { number := 5 } false false).after countingCalls).slotNames id :=
    runs_countingProcessor
  refine ⟨_, rfl, hlabels, hruns, by decide, ?_⟩
  exact exists_assignsDefaults countingProcessor id "COUNT" { number := 5 } false false countingCalls _
    rfl (by decide) hlabels hruns

end Routine

end StoryAsm
