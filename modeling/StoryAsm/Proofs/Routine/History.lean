import StoryAsm.Proofs.Routine.Call

/-!
# What calls leave in a routine

A call that is not refused puts pieces into the code of the routine (`Routine.Call.pieces`), declares a
variable or issues a label. After a sequence of calls the buffer is filled with all their pieces
(`Routine.buffer_after`), all variables have different names (`Routine.nodup_slotNames_after`), and the labels
that were issued are those below the next free number (`Routine.exists_of_mem_issued`).
-/

namespace StoryAsm

def Answer.label? : Answer → Option Label
  | .label issued => some issued
  | _ => none

namespace Routine

variable {routine : Routine}

/-- A routine before the first call. -/
def new (name : String) (version : Version) (isEntryPoint cleansStack : Bool) : Routine :=
  { name, version, isEntryPoint, cleansStack }

/-- The names of the variables, in the order in which arguments go to them. -/
def slotNames (routine : Routine) : List String :=
  routine.slots.map (·.name)

namespace Call

/-- What the call puts into the code of the routine, if it is not refused. -/
def pieces (routine : Routine) : Call → List (Piece Instr)
  | mark label => [.mark label]
  | debug record => [.debug record]
  | emit emission =>
    match emission.lines routine.version routine.cleansStack with
    | .error _ => []
    | .ok bodies => bodies.map .line
  | required _ | optional _ _ | slot _ _ | newLabel | place _ => []

theorem fill_lines (bodies : List (LineBody Instr)) (buffer : Buffer Instr) :
    buffer.fill (bodies.map .line) = bodies.foldl Buffer.addLine buffer := by
  rw [Buffer.fill, List.foldl_map]
  rfl

theorem buffer_changed (call : Call) (routine : Routine) :
    (call.changed routine).buffer = routine.buffer.fill (call.pieces routine) := by
  cases call with
  | emit emission =>
    simp only [changed, pieces]
    cases emission.lines routine.version routine.cleansStack with
    | error error => rfl
    | ok bodies => exact (fill_lines bodies routine.buffer).symm
  | _ => rfl

theorem version_changed (call : Call) (routine : Routine) :
    (call.changed routine).version = routine.version := by
  cases call with
  | emit emission =>
    simp only [changed]
    split <;> rfl
  | _ => rfl

/-- A name that the routine takes for a variable is not the name of another. -/
theorem notMem_slotNames {name : String} (h : routine.slotRefusal name = none) :
    Symbol.ofName name ∉ routine.slotNames := by
  intro hm
  obtain ⟨slot, hslot, he⟩ := List.mem_map.mp hm
  have htaken : routine.slots.any (·.name == Symbol.ofName name) = true :=
    List.any_eq_true.mpr ⟨slot, hslot, by simp [he]⟩
  simp only [slotRefusal, htaken, if_true] at h
  split at h
  · cases h
  · split at h <;> cases h

/-- A call that declares a variable puts its name among the others, and no other call changes them. -/
theorem slotNames_changed {call : Call} (h : call.refusal routine = none) :
    (call.changed routine).slotNames = routine.slotNames ∨
      ∃ name, name ∉ routine.slotNames ∧
        ((call.changed routine).slotNames).Perm (name :: routine.slotNames) := by
  cases call with
  | required name =>
    refine .inr ⟨Symbol.ofName name, notMem_slotNames h, ?_⟩
    simp only [slotNames, slots, changed, Array.toList_push, List.append_assoc, List.map_append]
    exact List.perm_middle
  | optional name value =>
    refine .inr ⟨Symbol.ofName name, notMem_slotNames h, ?_⟩
    simp only [slotNames, slots, changed, Array.toList_push, ← List.append_assoc, List.map_append]
    rw [List.append_assoc _ (List.map _ [_])]
    exact List.perm_middle
  | slot name value =>
    refine .inr ⟨Symbol.ofName name, notMem_slotNames h, ?_⟩
    simp only [slotNames, slots, changed, Array.toList_push, ← List.append_assoc, List.map_append]
    exact List.perm_append_singleton ..
  | emit emission =>
    simp only [changed]
    split <;> exact .inl rfl
  | newLabel | mark | debug | place => exact .inl rfl

theorem nextLabel_changed (call : Call) (routine : Routine) :
    (call.changed routine).nextLabel = routine.nextLabel ∧ (call.answer routine).label? = none ∨
      (call.changed routine).nextLabel = routine.nextLabel + 1 ∧
        (call.answer routine).label? = some (.point routine.nextLabel) := by
  cases call with
  | newLabel => exact .inr ⟨rfl, rfl⟩
  | emit emission =>
    simp only [changed]
    split <;> exact .inl ⟨rfl, rfl⟩
  | _ => exact .inl ⟨rfl, rfl⟩

theorem snd_run_bind_pure {α β : Type} (x : RoutineM α) (f : α → β) (routine : Routine) :
    ((x >>= fun a => pure (f a)).run.run routine).2 = (x.run.run routine).2 := by
  rw [run_run_bind]
  cases x.run.run routine with
  | mk result routine' => cases result <;> rfl

/-- What is returned does not matter for the routine. -/
theorem apply_eq_perform (call : Call) (routine : Routine) :
    call.apply routine = (call.perform.run.run routine).2 := by
  cases call with
  | required name => exact (snd_run_bind_pure ..).trans (snd_run_bind_pure ..).symm
  | optional name value => exact (snd_run_bind_pure ..).trans (snd_run_bind_pure ..).symm
  | slot name value => exact (snd_run_bind_pure ..).trans (snd_run_bind_pure ..).symm
  | newLabel => rfl
  | place span => rfl
  | mark label => exact (snd_run_bind_pure (markLabel label) (fun _ => Answer.done) routine).symm
  | debug record => exact (snd_run_bind_pure (addDebug record) (fun _ => Answer.done) routine).symm
  | emit emission => exact (snd_run_bind_pure (Routine.emit emission) (fun _ => Answer.done) routine).symm

/-- The routine stays as it is where the call is refused. -/
theorem apply_cases (call : Call) (routine : Routine) :
    call.refusal routine = none ∧ call.apply routine = call.changed routine ∨
      (∃ error, call.refusal routine = some error) ∧ call.apply routine = routine := by
  rw [apply_eq_perform, run_perform]
  cases call.refusal routine with
  | none => exact .inl ⟨rfl, rfl⟩
  | some error => exact .inr ⟨⟨error, rfl⟩, rfl⟩

end Call

/-! ## Sequences of calls -/

/-- The routine after the calls. -/
def after (routine : Routine) (calls : List Call) : Routine :=
  calls.foldl (fun routine call => call.apply routine) routine

/-- What the calls that are not refused put into the code. -/
def pieces (routine : Routine) : List Call → List (Piece Instr)
  | [] => []
  | call :: calls =>
    (if call.refusal routine = none then call.pieces routine else []) ++
      pieces (call.apply routine) calls

/-- The labels that the calls return. -/
def issued (routine : Routine) : List Call → List Label
  | [] => []
  | call :: calls =>
    (if call.refusal routine = none then (call.answer routine).label?.toList else []) ++
      issued (call.apply routine) calls

/-- What every call keeps that is not refused holds after all calls. -/
theorem after_induction {P : Routine → Prop}
    (hstep : ∀ (routine : Routine) (call : Call), P routine → call.refusal routine = none →
      P (call.changed routine))
    (calls : List Call) (h : P routine) : P (routine.after calls) := by
  induction calls generalizing routine with
  | nil => exact h
  | cons call calls ih =>
    have hnext : P (call.apply routine) := by
      rcases call.apply_cases routine with ⟨hnone, happly⟩ | ⟨-, happly⟩
      · rw [happly]
        exact hstep routine call h hnone
      · rwa [happly]
    exact ih hnext

theorem buffer_after (calls : List Call) (routine : Routine) :
    (routine.after calls).buffer = routine.buffer.fill (routine.pieces calls) := by
  induction calls generalizing routine with
  | nil => rfl
  | cons call calls ih =>
    show ((call.apply routine).after calls).buffer = _
    rw [ih, pieces, Buffer.fill_append]
    rcases call.apply_cases routine with ⟨hnone, happly⟩ | ⟨⟨error, hsome⟩, happly⟩
    · rw [if_pos hnone, happly, call.buffer_changed]
    · rw [if_neg (by simp [hsome]), happly]
      rfl

theorem version_after (calls : List Call) (routine : Routine) :
    (routine.after calls).version = routine.version :=
  after_induction (P := fun other => other.version = routine.version)
    (fun _ call h _ => (call.version_changed _).trans h) calls rfl

theorem nodup_slotNames_after (calls : List Call) (h : routine.slotNames.Nodup) :
    (routine.after calls).slotNames.Nodup := by
  refine after_induction (P := fun routine => routine.slotNames.Nodup) ?_ calls h
  intro routine call h hnone
  rcases Call.slotNames_changed hnone with he | ⟨name, hname, hperm⟩
  · rwa [he]
  · exact hperm.nodup_iff.mpr (List.nodup_cons.mpr ⟨hname, h⟩)

theorem nextLabel_le_after (calls : List Call) (routine : Routine) :
    routine.nextLabel ≤ (routine.after calls).nextLabel := by
  refine after_induction (P := fun other => routine.nextLabel ≤ other.nextLabel) ?_ calls (Nat.le_refl _)
  intro other call h _
  rcases call.nextLabel_changed other with ⟨hnext, -⟩ | ⟨hnext, -⟩ <;> omega

/-- All labels that were issued have numbers below the next one. -/
theorem exists_of_mem_issued {calls : List Call} {label : Label} (h : label ∈ routine.issued calls) :
    ∃ number < (routine.after calls).nextLabel, label = .point number := by
  induction calls generalizing routine with
  | nil => simp [issued] at h
  | cons call calls ih =>
    simp only [issued, List.mem_append] at h
    rcases h with h | h
    · split at h
      · rename_i hnone
        rcases call.nextLabel_changed routine with ⟨-, hlabel⟩ | ⟨hnext, hlabel⟩
        · simp [hlabel] at h
        · rw [hlabel, Option.toList_some, List.mem_singleton] at h
          refine ⟨routine.nextLabel, ?_, h⟩
          have happly : call.apply routine = call.changed routine := by
            rcases call.apply_cases routine with ⟨-, happly⟩ | ⟨⟨error, hsome⟩, -⟩
            · exact happly
            · simp [hnone] at hsome
          have hle := nextLabel_le_after calls (call.apply routine)
          rw [happly, hnext] at hle
          show routine.nextLabel < ((call.apply routine).after calls).nextLabel
          rw [happly]
          omega
      · simp at h
    · exact ih h

end Routine

end StoryAsm
