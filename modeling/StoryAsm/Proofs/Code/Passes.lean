import StoryAsm.Proofs.Code.Machine

/-!
# The passes of a flush keep the runs

Each pass of a flush changes the lines only where no run can tell: two lines become one that does what
both did (`sameRuns_fuseLines`), lines that no run reaches go (`sameRuns_dropUnreachable`), and so do
jumps to the line that follows (`sameRuns_dropJumps`).

The passes rely on two facts that each of them hands on to the next: every target is one of the
referenced labels (`TargetsIn`), and no label is carried by two lines (`carried`).
-/

namespace StoryAsm

variable {α : Type}

/-- A combiner that keeps the meaning of the lines it fuses, as long as these are `good` ones. -/
structure Combiner.SoundOn (M : Machine α) (combine : Combiner α) (good : Line α → Prop) :
    Prop where
  exec_fused : ∀ {a b f}, good a → good b → combine a b = some f →
    ∀ s, M.exec f s = M.execBoth a.toLineBody b.toLineBody s
  target_fused : ∀ {a b f}, good a → good b → combine a b = some f →
    f.target = none ∨ f.target = a.target ∨ f.target = b.target
  good_fused : ∀ {a b f}, good a → good b → combine a b = some f → good (a.fuse b f)

namespace Code

def bodies (lines : List (Line α)) : List (LineBody α) :=
  lines.map (·.toLineBody)

/-- The labels that lines carry, in the order of the lines. -/
def carried (lines : List (Line α)) : List Label :=
  lines.filterMap (·.label)

/-- The lines from the first one that carries the label. -/
def linesFrom (label : Label) : List (Line α) → Option (List (Line α))
  | [] => none
  | line :: rest => if line.label = some label then some (line :: rest) else linesFrom label rest

/-- Lines as a program, perhaps with a label behind the last one. -/
def program (lines : List (Line α)) (trailing : Option Label) : Program α where
  start := bodies lines
  find label :=
    match linesFrom label lines with
    | some rest => some (bodies rest)
    | none => if trailing = some label then some [] else none

/-- Every target of the lines is in the list. -/
def TargetsIn (labels : List Label) (lines : List (Line α)) : Prop :=
  ∀ line ∈ lines, ∀ label, line.target = some label → label ∈ labels

section
variable {labels : List Label} {lines rest : List (Line α)} {label : Label}
variable {trailing : Option Label}

theorem TargetsIn.mono (h : TargetsIn labels lines) (hsub : rest ⊆ lines) :
    TargetsIn labels rest :=
  fun line hline => h line (hsub hline)

theorem targetsIn_referenced (lines : List (Line α)) : TargetsIn (referenced lines) lines :=
  fun line hline _ ht => List.mem_filterMap.mpr ⟨line, hline, ht⟩

theorem linesFrom_cons_eq {line : Line α} (h : line.label = some label) :
    linesFrom label (line :: rest) = some (line :: rest) := if_pos h

theorem linesFrom_cons_ne {line : Line α} (h : line.label ≠ some label) :
    linesFrom label (line :: rest) = linesFrom label rest := if_neg h

theorem linesFrom_suffix (h : linesFrom label lines = some rest) : rest <:+ lines := by
  induction lines with
  | nil => simp [linesFrom] at h
  | cons line lines ih =>
    simp only [linesFrom] at h
    split at h
    · cases h; exact List.suffix_rfl
    · exact (ih h).trans (List.suffix_cons ..)

theorem linesFrom_head (h : linesFrom label lines = some rest) :
    ∃ line ∈ lines, line.label = some label := by
  induction lines with
  | nil => simp [linesFrom] at h
  | cons line lines ih =>
    by_cases hl : line.label = some label
    · exact ⟨line, List.mem_cons_self, hl⟩
    · rw [linesFrom_cons_ne hl] at h
      obtain ⟨line', hm, hl'⟩ := ih h
      exact ⟨line', .tail _ hm, hl'⟩

theorem linesFrom_eq_none (h : label ∉ carried lines) : linesFrom label lines = none := by
  cases hl : linesFrom label lines with
  | none => rfl
  | some rest =>
    obtain ⟨line, hm, hline⟩ := linesFrom_head hl
    exact absurd (List.mem_filterMap.mpr ⟨line, hm, hline⟩) h

theorem isLabelledIn_of_mem {line : Line α} (hl : line.label = some label)
    (hm : label ∈ labels) : line.isLabelledIn labels = true := by
  simp [Line.isLabelledIn, hl, hm]

/-- Related lines from every label give related places of the two programs. -/
theorem program_find_rel {R : List (LineBody α) → List (LineBody α) → Prop}
    {S : List (Line α) → List (Line α) → Prop} {xs ys : List (Line α)}
    (h : Option.Rel S (linesFrom label xs) (linesFrom label ys))
    (hS : ∀ xs ys, S xs ys → R (bodies xs) (bodies ys)) (hnil : R [] []) :
    Option.Rel R ((program xs trailing).find label) ((program ys trailing).find label) := by
  cases hx : linesFrom label xs <;> cases hy : linesFrom label ys <;> rw [hx, hy] at h <;>
    cases h <;> simp only [program, hx, hy]
  · split
    · exact .some hnil
    · exact .none
  · rename_i hrel
    exact .some (hS _ _ hrel)

end

/-! ## Fusion -/

section Fusion
variable {combine : Combiner α} {labels : List Label} {a b : Line α} {f : LineBody α}
variable {before after lines : List (Line α)} {trailing : Option Label}

theorem pushFused_induction {P : List (Line α) → Prop}
    (hstep : ∀ before a b f after, combine a b = some f → b.isLabelledIn labels = false →
      P (before ++ a :: b :: after) → P (before ++ a.fuse b f :: after))
    (stack : List (Line α)) (line : Line α) (rest : List (Line α))
    (h : P (stack.reverse ++ line :: rest)) :
    P ((pushFused combine labels stack line).reverse ++ rest) := by
  fun_induction pushFused combine labels stack line with
  | case1 line => simpa using h
  | case2 line last before fused hfused ih =>
    split at hfused
    · cases hfused
    · rename_i hlabel
      apply ih
      simp only [List.reverse_cons, List.append_assoc, List.singleton_append] at h
      exact hstep _ _ _ _ _ hfused (by simpa using hlabel) h
  | case3 line last before hnone => simpa using h

/-- What one fusion keeps is kept by all of them. -/
theorem fuseLines_induction {P : List (Line α) → Prop}
    (hstep : ∀ before a b f after, combine a b = some f → b.isLabelledIn labels = false →
      P (before ++ a :: b :: after) → P (before ++ a.fuse b f :: after))
    (h : P lines) : P (fuseLines combine labels lines) := by
  have hfold : ∀ stack : List (Line α), P (stack.reverse ++ lines) →
      P (lines.foldl (pushFused combine labels) stack).reverse := by
    clear h
    induction lines with
    | nil => intro stack h; simpa using h
    | cons line rest ih =>
      intro stack h
      exact ih _ (pushFused_induction hstep stack line rest h)
  exact hfold [] h

theorem carried_fuse_sublist (before after : List (Line α)) (a b : Line α) (f : LineBody α) :
    (carried (before ++ a.fuse b f :: after)).Sublist (carried (before ++ a :: b :: after)) := by
  simp only [carried, List.filterMap_append, List.filterMap_cons, Line.fuse]
  apply List.Sublist.append_left
  cases a.label <;> cases b.label <;> simp

theorem carried_fuseLines_sublist (combine : Combiner α) (labels : List Label)
    (lines : List (Line α)) :
    (carried (fuseLines combine labels lines)).Sublist (carried lines) :=
  fuseLines_induction (P := fun current => (carried current).Sublist (carried lines))
    (fun _ _ _ _ _ _ _ h => (carried_fuse_sublist ..).trans h) (.refl _)

/-- The places of the code with two lines, and those of the code with one line instead. -/
inductive FusedAt (labels : List Label) (a b : Line α) (f : LineBody α) (after : List (Line α)) :
    List (Line α) → List (Line α) → Prop where
  | same {rest : List (Line α)} : TargetsIn labels rest → FusedAt labels a b f after rest rest
  | ahead (front : List (Line α)) : TargetsIn labels (front ++ a :: b :: after) →
    FusedAt labels a b f after (front ++ a :: b :: after) (front ++ a.fuse b f :: after)

theorem linesFrom_fuse {label : Label} (hl : b.isLabelledIn labels = false)
    (hm : label ∈ labels) (ht : TargetsIn labels (before ++ a :: b :: after)) :
    Option.Rel (FusedAt labels a b f after) (linesFrom label (before ++ a :: b :: after))
      (linesFrom label (before ++ a.fuse b f :: after)) := by
  induction before with
  | nil =>
    have hb : b.label ≠ some label := fun h => by simp [isLabelledIn_of_mem h hm] at hl
    by_cases ha : a.label = some label
    · have hf : (a.fuse b f).label = some label := by simp [Line.fuse, ha]
      rw [List.nil_append, List.nil_append, linesFrom_cons_eq ha, linesFrom_cons_eq hf]
      exact .some (.ahead [] ht)
    · have hf : (a.fuse b f).label ≠ some label := by
        cases hal : a.label <;> simp_all [Line.fuse]
      rw [List.nil_append, List.nil_append, linesFrom_cons_ne ha, linesFrom_cons_ne hb,
        linesFrom_cons_ne hf]
      cases hrest : linesFrom label after with
      | none => exact .none
      | some rest =>
        refine .some (.same (ht.mono fun line hline => ?_))
        exact .tail _ (.tail _ ((linesFrom_suffix hrest).subset hline))
  | cons line before ih =>
    by_cases hline : line.label = some label
    · rw [List.cons_append, List.cons_append, linesFrom_cons_eq hline, linesFrom_cons_eq hline]
      exact .some (.ahead (line :: before) ht)
    · rw [List.cons_append, List.cons_append, linesFrom_cons_ne hline, linesFrom_cons_ne hline]
      exact ih (ht.mono (List.subset_cons_self ..))

variable {M : Machine α} {good : Line α → Prop}

/-- One fusion keeps the runs: no run enters the code between the two lines. -/
theorem sameRuns_fuse (hsound : combine.SoundOn M good) (ha : good a) (hb : good b)
    (hf : combine a b = some f) (hl : b.isLabelledIn labels = false)
    (ht : TargetsIn labels (before ++ a :: b :: after)) :
    M.SameRuns (program (before ++ a :: b :: after) trailing)
      (program (before ++ a.fuse b f :: after) trailing) := by
  refine .of_lockstep (R := fun x y => ∃ xs ys, FusedAt labels a b f after xs ys ∧
    x = bodies xs ∧ y = bodies ys) ⟨_, _, .ahead before ht, rfl, rfl⟩ ?_
  -- related places stay related over a jump, since labels of jumps are referenced
  have hjump : ∀ line : Line α, (∀ label, line.target = some label → label ∈ labels) →
      ∀ s label, (M.exec line.toLineBody s).2 = .jump label →
      Option.Rel (fun x y => ∃ xs ys, FusedAt labels a b f after xs ys ∧
        x = bodies xs ∧ y = bodies ys)
        ((program (before ++ a :: b :: after) trailing).find label)
        ((program (before ++ a.fuse b f :: after) trailing).find label) := by
    intro line hline s label he
    refine program_find_rel (linesFrom_fuse hl (hline _ (Machine.exec_jump_target he).1) ht) ?_ ?_
    · exact fun xs ys h => ⟨xs, ys, h, rfl, rfl⟩
    · exact ⟨[], [], .same (by simp [TargetsIn]), rfl, rfl⟩
  rintro _ _ s ⟨xs, ys, hplace, rfl, rfl⟩
  cases hplace with
  | same hts =>
    cases xs with
    | nil => exact .of_rel .complete
    | cons line rest =>
      refine .of_exec_eq rfl (fun _ => ⟨rest, rest, .same ?_, rfl, rfl⟩) (hjump line ?_ s)
      · exact hts.mono (List.subset_cons_self ..)
      · exact hts line List.mem_cons_self
  | ahead front hts =>
    cases front with
    | cons line front =>
      refine .of_exec_eq rfl (fun _ => ⟨_, _, .ahead front ?_, rfl, rfl⟩) (hjump line ?_ s)
      · exact hts.mono (List.subset_cons_self ..)
      · exact hts line List.mem_cons_self
    | nil =>
      have hfused := hsound.exec_fused ha hb hf s
      have hafter : TargetsIn labels after := hts.mono fun line h => .tail _ (.tail _ h)
      simp only [Machine.execBoth] at hfused
      cases hexec : M.exec a.toLineBody s with
      | mk s' exit =>
        rw [hexec] at hfused
        cases exit with
        | next =>
          apply Machine.Matched.of_step_left
          simp only [bodies, List.nil_append, List.map_cons, Machine.step, hexec, Machine.proceed]
          refine .of_exec_eq hfused.symm (fun _ => ⟨after, after, .same hafter, rfl, rfl⟩) ?_
          exact hjump b (hts b (by simp)) s'
        | jump label =>
          refine .of_exec_eq (hexec.trans hfused.symm) (by simp [hexec]) ?_
          exact hjump a (hts a (by simp)) s
        | stop value =>
          refine .of_exec_eq (hexec.trans hfused.symm) (by simp [hexec]) ?_
          exact hjump a (hts a (by simp)) s

theorem targetsIn_fuse (hf : f.target = none ∨ f.target = a.target ∨ f.target = b.target)
    (ht : TargetsIn labels (before ++ a :: b :: after)) :
    TargetsIn labels (before ++ a.fuse b f :: after) := by
  intro line hline label hlabel
  rcases List.mem_append.mp hline with hline | hline
  · exact ht line (List.mem_append_left _ hline) label hlabel
  · rcases List.mem_cons.mp hline with rfl | hline
    · rcases hf with h | h | h
      · cases h.symm.trans hlabel
      · exact ht a (by simp) label (h.symm.trans hlabel)
      · exact ht b (by simp) label (h.symm.trans hlabel)
    · exact ht line (by simp [hline]) label hlabel

theorem sameRuns_fuseLines (trailing : Option Label) (hsound : combine.SoundOn M good)
    (hgood : ∀ line ∈ lines, good line) (ht : TargetsIn labels lines) :
    TargetsIn labels (fuseLines combine labels lines) ∧
      M.SameRuns (program lines trailing) (program (fuseLines combine labels lines) trailing) := by
  -- along the fusions all lines stay good ones
  suffices h : (∀ line ∈ fuseLines combine labels lines, good line) ∧
      TargetsIn labels (fuseLines combine labels lines) ∧
      M.SameRuns (program lines trailing) (program (fuseLines combine labels lines) trailing) from
    h.2
  refine fuseLines_induction (P := fun current => (∀ line ∈ current, good line) ∧
    TargetsIn labels current ∧ M.SameRuns (program lines trailing) (program current trailing))
    ?_ ⟨hgood, ht, .refl _⟩
  rintro before a b f after hf hl ⟨hall, hts, hruns⟩
  have ha : good a := hall a (by simp)
  have hb : good b := hall b (by simp)
  refine ⟨?_, targetsIn_fuse (hsound.target_fused ha hb hf) hts,
    hruns.trans (sameRuns_fuse hsound ha hb hf hl hts)⟩
  intro line hline
  rcases List.mem_append.mp hline with hline | hline
  · exact hall line (List.mem_append_left _ hline)
  · rcases List.mem_cons.mp hline with rfl | hline
    · exact hsound.good_fused ha hb hf
    · exact hall line (by simp [hline])

end Fusion

/-! ## Unreachable lines -/

section Unreachable
variable {labels : List Label} {lines : List (Line α)}

@[simp] theorem addDebugBefore_toLineBody (line : Line α) (debug : List String) :
    (line.addDebugBefore debug).toLineBody = line.toLineBody := rfl

@[simp] theorem addDebugBefore_label (line : Line α) (debug : List String) :
    (line.addDebugBefore debug).label = line.label := rfl

theorem carried_dropUnreachable_sublist (labels : List Label) (reachable : Bool)
    (debug : List String) (lines : List (Line α)) :
    (carried (dropUnreachable labels reachable debug lines).1).Sublist (carried lines) := by
  induction lines generalizing reachable debug with
  | nil => exact .refl _
  | cons line rest ih =>
    simp only [dropUnreachable]
    split
    · simp only [carried, List.filterMap_cons, addDebugBefore_label]
      split
      · exact ih ..
      · exact (ih ..).cons_cons _
    · simp only [carried, List.filterMap_cons]
      split
      · exact ih ..
      · exact (ih ..).cons _

/-- A referenced label is still there, and from it on the code is what was kept. -/
theorem linesFrom_dropUnreachable {label : Label} (hm : label ∈ labels)
    (ht : TargetsIn labels lines) (reachable : Bool) (debug : List String) :
    Option.Rel (fun xs ys => TargetsIn labels xs ∧
        bodies ys = bodies (dropUnreachable labels true [] xs).1)
      (linesFrom label lines)
      (linesFrom label (dropUnreachable labels reachable debug lines).1) := by
  induction lines generalizing reachable debug with
  | nil => exact .none
  | cons line rest ih =>
    have hrest := ht.mono (List.subset_cons_self line rest)
    simp only [dropUnreachable]
    split
    · by_cases hl : line.label = some label
      · have hl' : (line.addDebugBefore debug).label = some label := hl
        rw [linesFrom_cons_eq hl, linesFrom_cons_eq hl']
        exact .some ⟨ht, by simp [dropUnreachable, bodies]⟩
      · have hl' : (line.addDebugBefore debug).label ≠ some label := hl
        rw [linesFrom_cons_ne hl, linesFrom_cons_ne hl']
        exact ih hrest _ _
    · rename_i hdropped
      have hl : line.label ≠ some label := by
        intro h
        simp [isLabelledIn_of_mem h hm] at hdropped
      rw [linesFrom_cons_ne hl]
      exact ih hrest _ _

theorem sameRuns_dropUnreachable {M : Machine α} (trailing : Option Label)
    (ht : TargetsIn labels lines) :
    M.SameRuns (program lines trailing)
      (program (dropUnreachable labels true [] lines).1 trailing) := by
  refine .of_lockstep (R := fun x y => ∃ rest, TargetsIn labels rest ∧ x = bodies rest ∧
    y = bodies (dropUnreachable labels true [] rest).1) ⟨lines, ht, rfl, rfl⟩ ?_
  rintro _ _ s ⟨rest, hts, rfl, rfl⟩
  cases rest with
  | nil => exact .of_rel .complete
  | cons line rest =>
    have hrest := hts.mono (List.subset_cons_self line rest)
    simp only [dropUnreachable, Bool.true_or, if_true, bodies, List.map_cons,
      addDebugBefore_toLineBody]
    refine .of_exec_eq rfl ?_ ?_
    · intro hnext
      rw [Machine.exec_next_kind hnext]
      exact ⟨rest, hrest, rfl, rfl⟩
    · intro label hjump
      have hm := hts line List.mem_cons_self label (Machine.exec_jump_target hjump).1
      refine program_find_rel (linesFrom_dropUnreachable hm ht true []) ?_ ⟨[], ?_, rfl, rfl⟩
      · rintro xs ys ⟨hxs, hys⟩
        exact ⟨xs, hxs, rfl, hys⟩
      · simp [TargetsIn]

end Unreachable

/-! ## Jumps to the next line -/

section Jumps
variable {lines : List (Line α)}

theorem dropJumps_cons (debug : List String) (line : Line α) (rest : List (Line α)) :
    dropJumps debug (line :: rest) =
      if rest.head?.any line.jumpsTo then dropJumps (debug ++ line.debug) rest
      else line.addDebugBefore debug :: dropJumps [] rest := rfl

/-- What is known where a jump is dropped. -/
theorem jumpsTo_head {line : Line α} {rest : List (Line α)}
    (h : rest.head?.any line.jumpsTo = true) :
    ∃ next rest' target, rest = next :: rest' ∧ line.kind = .branchAlways ∧ line.label = none ∧
      line.target = some target ∧ next.label = some target := by
  cases rest with
  | nil => simp at h
  | cons next rest' =>
    simp only [List.head?_cons, Option.any_some, Line.jumpsTo, decide_eq_true_eq,
      Option.isSome_iff_exists] at h
    obtain ⟨hkind, hlabel, ⟨target, ht⟩, hnext⟩ := h
    exact ⟨next, rest', target, rfl, hkind, hlabel, ht, by rw [← hnext, ht]⟩

theorem bodies_dropJumps (debug : List String) (lines : List (Line α)) :
    bodies (dropJumps debug lines) = bodies (dropJumps [] lines) := by
  induction lines generalizing debug with
  | nil => rfl
  | cons line rest ih =>
    simp only [dropJumps_cons]
    split
    · rw [ih, ih ([] ++ line.debug)]
    · simp [bodies]

/-- Lines that carry a label are kept, so every label stays where it was. -/
theorem linesFrom_dropJumps (label : Label) (debug : List String) (lines : List (Line α)) :
    Option.Rel (fun xs ys => bodies ys = bodies (dropJumps [] xs))
      (linesFrom label lines) (linesFrom label (dropJumps debug lines)) := by
  induction lines generalizing debug with
  | nil => exact .none
  | cons line rest ih =>
    rw [dropJumps_cons]
    by_cases hl : line.label = some label
    · have hkeep : ¬rest.head?.any line.jumpsTo = true := by
        intro h
        obtain ⟨_, _, _, _, _, hnone, _⟩ := jumpsTo_head h
        simp [hnone] at hl
      have hl' : (line.addDebugBefore debug).label = some label := hl
      rw [if_neg hkeep, linesFrom_cons_eq hl, linesFrom_cons_eq hl']
      exact .some (by simp [dropJumps_cons, hkeep, bodies])
    · rw [linesFrom_cons_ne hl]
      split
      · exact ih _
      · have hl' : (line.addDebugBefore debug).label ≠ some label := hl
        rw [linesFrom_cons_ne hl']
        exact ih _

/-- Where no label is carried twice, the lines from the label of a line start with this line. -/
theorem linesFrom_label {label : Label} {line : Line α} {rest : List (Line α)}
    (hnodup : (carried lines).Nodup) (hsuffix : line :: rest <:+ lines)
    (hl : line.label = some label) : linesFrom label lines = some (line :: rest) := by
  obtain ⟨before, rfl⟩ := hsuffix
  induction before with
  | nil => exact linesFrom_cons_eq hl
  | cons first before ih =>
    simp only [carried, List.cons_append, List.filterMap_cons] at hnodup
    rw [List.cons_append, linesFrom_cons_ne, ih]
    · split at hnodup
      · exact hnodup
      · exact hnodup.of_cons
    · intro h
      simp [h, List.filterMap_append, hl] at hnodup

/-- A dropped jump would have gone to the line that follows, which is there with its label. -/
theorem sameRuns_dropJumps {M : Machine α} (trailing : Option Label)
    (hnodup : (carried lines).Nodup)
    (hpoint : ∀ label ∈ carried lines, ∃ number, label = .point number) :
    M.SameRuns (program lines trailing) (program (dropJumps [] lines) trailing) := by
  refine .of_lockstep (R := fun x y => ∃ rest, rest <:+ lines ∧ x = bodies rest ∧
    y = bodies (dropJumps [] rest)) ⟨lines, List.suffix_rfl, rfl, rfl⟩ ?_
  have hjump : ∀ label, Option.Rel (fun x y => ∃ rest, rest <:+ lines ∧ x = bodies rest ∧
      y = bodies (dropJumps [] rest)) ((program lines trailing).find label)
      ((program (dropJumps [] lines) trailing).find label) := by
    intro label
    have h := linesFrom_dropJumps label [] lines
    refine program_find_rel (S := fun xs ys => xs <:+ lines ∧
      bodies ys = bodies (dropJumps [] xs)) ?_ ?_ ⟨[], List.nil_suffix, rfl, rfl⟩
    · cases hx : linesFrom label lines <;> cases hy : linesFrom label (dropJumps [] lines) <;>
        rw [hx, hy] at h <;> cases h
      · exact .none
      · rename_i hrel
        exact .some ⟨linesFrom_suffix hx, hrel⟩
    · rintro xs ys ⟨hxs, hys⟩
      exact ⟨xs, hxs, rfl, hys⟩
  have hkept : ∀ line rest s, line :: rest <:+ lines → ¬rest.head?.any line.jumpsTo = true →
      M.Matched (program lines trailing) (program (dropJumps [] lines) trailing)
        (fun x y => ∃ rest, rest <:+ lines ∧ x = bodies rest ∧ y = bodies (dropJumps [] rest))
        (.running (bodies (line :: rest)) s)
        (.running (bodies (dropJumps [] (line :: rest))) s) := by
    intro line rest s hsuffix hkeep
    rw [dropJumps_cons, if_neg hkeep]
    refine .of_exec_eq rfl (fun _ => ⟨rest, ?_, rfl, rfl⟩) fun label _ => hjump label
    exact (List.suffix_cons ..).trans hsuffix
  rintro _ _ s ⟨rest, hsuffix, rfl, rfl⟩
  cases rest with
  | nil => exact .of_rel .complete
  | cons line rest =>
    by_cases hdrop : rest.head?.any line.jumpsTo = true
    case neg => exact hkept line rest s hsuffix hdrop
    obtain ⟨next, rest, target, rfl, hkind, -, htarget, hnext⟩ := jumpsTo_head hdrop
    have hsuffix' : next :: rest <:+ lines := (List.suffix_cons ..).trans hsuffix
    have hfrom := linesFrom_label hnodup hsuffix' hnext
    obtain ⟨number, rfl⟩ := hpoint target
      (List.mem_filterMap.mpr ⟨next, hsuffix'.subset List.mem_cons_self, hnext⟩)
    -- the jump takes one step to the next line, which is kept because it has a label
    apply Machine.Matched.of_step_left
    have hstep : M.step (program lines trailing) (.running (bodies (line :: next :: rest)) s) =
        .running (bodies (next :: rest)) s := by
      simp [bodies, Machine.step, Machine.exec_always hkind htarget, Machine.proceed, program,
        hfrom]
    rw [hstep, dropJumps_cons, if_pos hdrop, bodies_dropJumps]
    apply hkept next rest s hsuffix'
    intro h
    obtain ⟨_, _, _, _, _, hnone, _⟩ := jumpsTo_head h
    simp [hnone] at hnext

end Jumps

end Code

end StoryAsm
