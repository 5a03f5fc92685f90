import StoryAsm.Output.Files

/-!
# File names at the end of paths

Paths that differ in parts without meaning alone have the same route. If a text without a slash is put at
the end of a path, it goes to the end of the file name, whatever the path is
(`Path.exists_fileName?_append`). So the files of the segments never have the same route
(`Segment.place_injective`).
-/

namespace StoryAsm

namespace Path

/-- What a path says, without the parts that carry no meaning. -/
abbrev Route := List Component

def route (path : String) : Route :=
  (components path).map (·.1)

def Component.name? : Component → Option String
  | name text => some text
  | _ => none

theorem fileName?_eq_of_route_eq {path path' : String} (h : route path = route path') :
    fileName? path = fileName? path' := by
  have hlast : ∀ path, fileName? path = (route path).getLast?.bind Component.name? := by
    intro path
    rw [fileName?, route, List.getLast?_map]
    cases (components path).getLast? with
    | none => rfl
    | some entry =>
      obtain ⟨component, upTo⟩ := entry
      cases component <;> rfl
  rw [hlast, hlast, h]

/-! ## The last part -/

theorem splitSlash_of_not_mem {ys : List Char} (h : '/' ∉ ys) : splitSlash ys = [ys] := by
  induction ys with
  | nil => rfl
  | cons c ys ih =>
    rw [List.mem_cons, not_or] at h
    rw [splitSlash, if_neg (Ne.symm h.1), ih h.2]

/-- What is put at the end and has no slash goes to the last part. -/
theorem exists_splitSlash_append (xs : List Char) :
    ∃ before last, ∀ ys, '/' ∉ ys → splitSlash (xs ++ ys) = before ++ [last ++ ys] := by
  induction xs with
  | nil => exact ⟨[], [], fun ys => splitSlash_of_not_mem⟩
  | cons c xs ih =>
    obtain ⟨before, last, h⟩ := ih
    by_cases hslash : c = '/'
    · refine ⟨[] :: before, last, fun ys hys => ?_⟩
      rw [List.cons_append, splitSlash, if_pos hslash, h ys hys]
      rfl
    · -- The character joins the first part, which is the last one if there are no others.
      cases before with
      | nil =>
        refine ⟨[], c :: last, fun ys hys => ?_⟩
        rw [List.cons_append, splitSlash, if_neg hslash, h ys hys]
        rfl
      | cons part before =>
        refine ⟨(c :: part) :: before, last, fun ys hys => ?_⟩
        rw [List.cons_append, splitSlash, if_neg hslash, h ys hys]
        rfl

theorem exists_parts_append (front : String) :
    ∃ before last, ∀ suffix : String, '/' ∉ suffix.toList →
      parts (front ++ suffix) = before ++ [last ++ suffix] := by
  obtain ⟨before, last, h⟩ := exists_splitSlash_append front.toList
  refine ⟨before.map String.ofList, String.ofList last, fun suffix hsuffix => ?_⟩
  rw [parts, String.toList_append, h _ hsuffix, List.map_append, List.map_singleton,
    String.ofList_append, String.ofList_toList]

/-! ## The last component -/

/-- The part is a name. -/
def IsName (part : String) : Prop :=
  part ≠ "" ∧ part ≠ "." ∧ part ≠ ".."

theorem isName_append {suffix : String} {c : Char} (hmem : c ∈ suffix.toList) (hdot : c ≠ '.')
    (text : String) : IsName (text ++ suffix) := by
  have hchar : c ∈ (text ++ suffix).toList := by
    rw [String.toList_append]
    exact List.mem_append_right _ hmem
  refine ⟨?_, ?_, ?_⟩ <;> intro heq <;> rw [heq] at hchar
  · cases hchar
  · exact hdot (List.mem_singleton.mp hchar)
  · simp only [String.reduceToList, List.mem_cons, List.not_mem_nil, or_false, or_self] at hchar
    exact hdot hchar

theorem IsName.ofPart {part : String} (h : IsName part) : Component.ofPart part = .name part :=
  if_neg h.2.2

theorem exists_getLast?_scan {part : String} (h : IsName part) (upTo : String) (before : List String) :
    ∃ whole, (scan upTo (before ++ [part])).getLast? = some (.name part, whole) := by
  induction before generalizing upTo with
  | nil =>
    refine ⟨upTo ++ "/" ++ part, ?_⟩
    rw [List.nil_append, scan, if_neg (by exact fun hskip => hskip.elim h.1 h.2.1), h.ofPart]
    rfl
  | cons first before ih =>
    obtain ⟨whole, hlast⟩ := ih (upTo ++ "/" ++ first)
    refine ⟨whole, ?_⟩
    rw [List.cons_append, scan]
    split
    · exact hlast
    · rw [List.getLast?_cons, hlast]
      rfl

/-- If the last part is a name, it is the file name. -/
theorem fileName?_of_parts {path part : String} {before : List String}
    (hparts : parts path = before ++ [part]) (h : IsName part) : fileName? path = some part := by
  have hlater (entry : Component × String) (upTo : String) (before : List String) :
      ∃ whole, (entry :: scan upTo (before ++ [part])).getLast? = some (.name part, whole) := by
    obtain ⟨whole, hlast⟩ := exists_getLast?_scan h upTo before
    refine ⟨whole, ?_⟩
    rw [List.getLast?_cons, hlast]
    rfl
  have hlast : ∃ whole, (components path).getLast? = some (.name part, whole) := by
    rw [components, hparts]
    split
    · rename_i heq
      exact absurd heq (List.append_ne_nil_of_right_ne_nil _ (List.cons_ne_nil _ _))
    · rename_i heq
      rcases List.append_eq_cons_iff.mp heq with ⟨-, heq⟩ | ⟨_, -, heq⟩
      · exact absurd (List.cons.inj heq).1 h.1
      · exact absurd heq.symm (List.append_ne_nil_of_right_ne_nil _ (List.cons_ne_nil _ _))
    · rename_i heq
      rcases List.append_eq_cons_iff.mp heq with ⟨-, heq⟩ | ⟨rest, -, rfl⟩
      · exact absurd (List.cons.inj heq).1 h.1
      · exact hlater _ _ rest
    · rename_i heq
      rcases List.append_eq_cons_iff.mp heq with ⟨-, heq⟩ | ⟨rest, -, rfl⟩
      · exact absurd (List.cons.inj heq).1 h.2.1
      · exact hlater _ _ rest
    · rename_i heq
      rcases List.append_eq_cons_iff.mp heq with ⟨-, heq⟩ | ⟨rest, -, rfl⟩
      · cases heq
        exact ⟨part, by rw [h.ofPart]; rfl⟩
      · exact hlater _ _ rest
  obtain ⟨whole, hlast⟩ := hlast
  rw [fileName?, hlast]

/-- What is put at the end of a path and has no slash goes to the end of the file name. -/
theorem exists_fileName?_append (front : String) :
    ∃ last, ∀ suffix : String, '/' ∉ suffix.toList → (∃ c ∈ suffix.toList, c ≠ '.') →
      fileName? (front ++ suffix) = some (last ++ suffix) := by
  obtain ⟨before, last, hparts⟩ := exists_parts_append front
  refine ⟨last, fun suffix hslash ⟨c, hmem, hdot⟩ => ?_⟩
  exact fileName?_of_parts (hparts suffix hslash) (isName_append hmem hdot last)

end Path

/-! ## Segments -/

namespace Segment

/-- What the name of a segment's file has after the base name. -/
def suffix (segment : Segment) : String :=
  segment.ending ++ ".zap"

theorem suffix_injective : Function.Injective suffix := by
  intro segment segment'
  cases segment <;> cases segment' <;> decide

theorem startsWith_append_suffix (base : String) (segment : Segment) :
    (base ++ segment.suffix).startsWith "/" = base.startsWith "/" := by
  have hsuffix : ¬"/".toList <+: segment.suffix.toList := by cases segment <;> decide
  rw [Bool.eq_iff_iff, String.startsWith_string_iff, String.startsWith_string_iff, String.toList_append]
  cases base.toList with
  | nil => exact iff_of_false hsuffix (by decide)
  | cons c rest => simp [List.cons_prefix_cons]

/-- The files of all segments have paths that differ at their ends alone. -/
theorem exists_path_eq_append (dir base : String) :
    ∃ front, ∀ segment, path dir base segment = front ++ segment.suffix := by
  have hname : ∀ segment, fileName base segment = base ++ segment.suffix := fun segment =>
    String.append_assoc
  simp only [path, Path.join, hname, startsWith_append_suffix]
  by_cases habsolute : base.startsWith "/" = true
  · simp only [habsolute, ↓reduceIte]
    exact ⟨base, fun _ => rfl⟩
  · simp only [habsolute, Bool.false_eq_true, ↓reduceIte]
    split
    · exact ⟨dir ++ base, fun _ => String.append_assoc.symm⟩
    · exact ⟨dir ++ "/" ++ base, fun _ => String.append_assoc.symm⟩

/-- Where the segment's file is. -/
def place (dir base : String) (segment : Segment) : Path.Route :=
  Path.route (segment.path dir base)

/-- The files of two segments are never at the same place. -/
theorem place_injective (dir base : String) : Function.Injective (place dir base) := by
  intro segment segment' h
  obtain ⟨front, hpath⟩ := exists_path_eq_append dir base
  obtain ⟨last, hlast⟩ := Path.exists_fileName?_append front
  have hname : ∀ segment, Path.fileName? (path dir base segment) = some (last ++ segment.suffix) := by
    intro segment
    rw [hpath]
    exact hlast _ (by cases segment <;> decide) ⟨'z', by cases segment <;> decide, by decide⟩
  have hsame := Path.fileName?_eq_of_route_eq h
  rw [hname, hname] at hsame
  exact suffix_injective ((String.append_right_inj last).mp (Option.some.inj hsame))

end Segment

end StoryAsm
