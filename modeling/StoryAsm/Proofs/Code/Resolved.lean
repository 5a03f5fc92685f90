import StoryAsm.Proofs.Code.Script

/-!
# Where labels resolve to

If no label is marked twice, every chain of aliases comes to an end
(`Buffer.Tracks.wellFounded_standsFor`). It ends at the label of the line that is added next after the mark,
or at the label that still waits for a line (`Script.resolved`).
-/

namespace StoryAsm

variable {α : Type}

namespace Piece

variable {before after : List (Piece α)} {label : Label}

theorem lineOf_mark (h : (marks (before ++ .mark label :: after)).Nodup) :
    lineOf label (before ++ .mark label :: after) = some (lines before).length := by
  rw [marks_append] at h
  have hnew : label ∉ marks before := fun hm => List.disjoint_of_nodup_append h hm List.mem_cons_self
  rw [lineOf_append_right hnew]
  simp [lineOf]

end Piece

namespace Buffer

/-- What becomes of the labels of a buffer that was filled with the pieces. -/
structure Resolved (pieces : List (Piece α)) (buffer : Buffer α) : Prop where
  /-- No chain of aliases goes on forever. -/
  finite : WellFounded fun next label => buffer.StandsFor label next
  ends : ∀ label, buffer.EndsAt label (buffer.resolve label)
  /-- The first line after the mark of a label carries what the label resolves to. -/
  carried : ∀ {before label after body rest}, pieces = before ++ .mark label :: after →
    Piece.lines after = body :: rest →
    ∃ line, buffer.lines.toList[(Piece.lines before).length]? = some line ∧
      line.toLineBody = body ∧ line.label = some (buffer.resolve label)
  /-- Without such a line, it waits. -/
  waits : ∀ {before label after}, pieces = before ++ .mark label :: after →
    Piece.lines after = [] → buffer.pendingLabel = some (buffer.resolve label)
  /-- Labels are told apart by the lines between them. -/
  agree : ∀ {before first between second after},
    pieces = before ++ .mark first :: (between ++ .mark second :: after) →
    (buffer.resolve first = buffer.resolve second ↔ Piece.lines between = [])

namespace Tracks

variable {pieces before after : List (Piece α)} {buffer : Buffer α} {label first second : Label}
  {i j : Nat}

/-- A step along the aliases goes to a label that was marked earlier. -/
theorem wellFounded_standsFor (h : Tracks pieces buffer) :
    WellFounded fun next label => buffer.StandsFor label next :=
  Subrelation.wf (fun hnext => h.idxOf_lt hnext) (measure fun label => (Piece.marks pieces).idxOf label).wf

/-- Labels resolve to the same one if and only if they stand at the same line. -/
theorem resolve_eq_resolve_iff (h : Tracks pieces buffer) (hi : Piece.lineOf first pieces = some i)
    (hj : Piece.lineOf second pieces = some j) :
    buffer.resolve first = buffer.resolve second ↔ i = j := by
  have hfirst := h.labelAt_resolve hi
  have hsecond := h.labelAt_resolve hj
  have hle : ∀ {label k}, Piece.lineOf label pieces = some k → k ≤ buffer.lines.toList.length :=
    fun hk => h.length_eq ▸ Piece.lineOf_le hk
  constructor
  · intro heq
    have hcarried := h.carries (hle hi) hfirst
    rw [heq, h.carries (hle hj) hsecond] at hcarried
    exact (Option.some.inj hcarried).symm
  · rintro rfl
    exact Option.some.inj (hfirst.symm.trans hsecond)

theorem exists_line_of_labelAt (h : Tracks pieces buffer)
    (hlt : i < (Piece.lines pieces).length) (hat : buffer.labelAt i = some label) :
    ∃ line, buffer.lines.toList[i]? = some line ∧
      (Piece.lines pieces)[i]? = some line.toLineBody ∧ line.label = some label := by
  rw [← h.length_eq] at hlt
  have hget := List.getElem?_eq_getElem hlt
  refine ⟨_, hget, ?_, ?_⟩
  · rw [← h.bodies, List.getElem?_map, hget]
    rfl
  · rwa [labelAt, hget] at hat

/-- The first line after the mark of a label carries what the label resolves to. -/
theorem exists_line_of_mark {body : LineBody α} {rest : List (LineBody α)}
    (h : Tracks (before ++ .mark label :: after) buffer)
    (hnodup : (Piece.marks (before ++ .mark label :: after)).Nodup)
    (hlines : Piece.lines after = body :: rest) :
    ∃ line, buffer.lines.toList[(Piece.lines before).length]? = some line ∧
      line.toLineBody = body ∧ line.label = some (buffer.resolve label) := by
  have hall : Piece.lines (before ++ .mark label :: after) = Piece.lines before ++ body :: rest := by
    rw [Piece.lines_append, Piece.lines, hlines]
  obtain ⟨line, hline, hbody, hlabel⟩ := h.exists_line_of_labelAt (by simp [hall])
    (h.labelAt_resolve (Piece.lineOf_mark hnodup))
  refine ⟨line, hline, ?_, hlabel⟩
  simpa [hall] using hbody.symm

/-- Without such a line, the label that it resolves to waits. -/
theorem pendingLabel_of_mark (h : Tracks (before ++ .mark label :: after) buffer)
    (hnodup : (Piece.marks (before ++ .mark label :: after)).Nodup) (hlines : Piece.lines after = []) :
    buffer.pendingLabel = some (buffer.resolve label) := by
  have hat := h.labelAt_resolve (Piece.lineOf_mark hnodup)
  have hlength := h.length_eq
  rw [Piece.lines_append, Piece.lines, hlines, List.append_nil] at hlength
  rwa [labelAt, ← hlength, List.getElem?_length] at hat

theorem resolve_eq_resolve_iff_of_marks {between : List (Piece α)}
    (h : Tracks (before ++ .mark first :: (between ++ .mark second :: after)) buffer)
    (hnodup : (Piece.marks (before ++ .mark first :: (between ++ .mark second :: after))).Nodup) :
    buffer.resolve first = buffer.resolve second ↔ Piece.lines between = [] := by
  -- the pieces before the second mark are those before the first one, the mark and those between
  have hsplit : before ++ .mark first :: (between ++ .mark second :: after) =
      (before ++ .mark first :: between) ++ .mark second :: after := by simp
  have hfirst := Piece.lineOf_mark hnodup
  rw [hsplit] at h hnodup hfirst
  rw [h.resolve_eq_resolve_iff hfirst (Piece.lineOf_mark hnodup), Piece.lines_append, Piece.lines,
    List.length_append, Nat.left_eq_add, List.length_eq_zero_iff]

end Tracks

end Buffer

/-- **Resolving a label ends at the right place**: whatever a buffer was filled with, if no label is marked
twice then following aliases ends, a marked label resolves to the label of the first line after its mark
or else to the label that waits, and two marked labels resolve to the same one if and only if there is no
line between their marks. -/
theorem Script.resolved (script : Script α) (h : (Piece.marks script.pieces).Nodup) :
    Buffer.Resolved script.pieces script.buffer := by
  have htracks := script.tracks h
  refine
    { finite := htracks.wellFounded_standsFor
      ends := htracks.acyclic.endsAt_resolve
      carried := ?_, waits := ?_, agree := ?_ }
  · intro before label after body rest hpieces hlines
    rw [hpieces] at h htracks
    exact htracks.exists_line_of_mark h hlines
  · intro before label after hpieces hlines
    rw [hpieces] at h htracks
    exact htracks.pendingLabel_of_mark h hlines
  · intro before first between second after hpieces
    rw [hpieces] at h htracks
    exact htracks.resolve_eq_resolve_iff_of_marks h

/-- Labels are marked before a line, in front of and inside of an appended buffer, and at the end. -/
def aliasScript : Script Unit :=
  .mark (.append (.mark (.mark .new (.point 0)) (.point 1))
    (.mark (.line (.mark .new (.point 2)) { code := () }) (.point 3))) .returnTrue

theorem Buffer.resolved_aliasScript :
    (Piece.marks aliasScript.pieces).Nodup ∧ Resolved aliasScript.pieces aliasScript.buffer ∧
      aliasScript.buffer.resolve (.point 2) = .point 0 ∧
      aliasScript.buffer.resolve .returnTrue = .point 3 := by
  have hnodup : (Piece.marks aliasScript.pieces).Nodup := by decide
  exact ⟨hnodup, aliasScript.resolved hnodup, by decide, by decide⟩

end StoryAsm
