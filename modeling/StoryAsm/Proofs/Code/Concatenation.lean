import Mathlib.Data.List.Induction
import StoryAsm.Proofs.Code.FlushMeaning

/-!
# Appending a buffer is filling it further

A buffer that is filled on its own and then appended leads to the same code as filling the first buffer
with the same pieces (`Buffer.flush_append_eq_flush_fill`).

The two buffers have the same lines (`Buffer.SameLines`) but not the same aliases. A label of the appended
buffer may stand for the first label of its line there, and that one for the label that waited in the first
buffer; filled further, the first buffer has an alias from each of them to the label that waited. Both
chains end at the label that the line carries, because both buffers track the same pieces.

Aliases are taken over one by one, in any order (`Buffer.appendVia`).
-/

namespace StoryAsm.Buffer

variable {α : Type}

/-! ## Lines -/

theorem markLabel_eq (buffer : Buffer α) (label : Label) :
    buffer.markLabel label =
      { buffer with
        pendingLabel := buffer.pendingLabel.or (some label)
        aliases := newAlias buffer.pendingLabel (some label) ++ buffer.aliases } :=
  markLabel?_eq buffer (some label)

/-- The two buffers differ in their aliases at most. -/
structure SameLines (buffer other : Buffer α) : Prop where
  lines : buffer.lines = other.lines
  pendingLabel : buffer.pendingLabel = other.pendingLabel
  pendingDebug : buffer.pendingDebug = other.pendingDebug

namespace SameLines

variable {a b c : Buffer α}

theorem trans (hab : SameLines a b) (hbc : SameLines b c) : SameLines a c :=
  ⟨hab.lines.trans hbc.lines, hab.pendingLabel.trans hbc.pendingLabel,
    hab.pendingDebug.trans hbc.pendingDebug⟩

theorem labelAt_eq (h : SameLines a b) (index : Nat) : a.labelAt index = b.labelAt index := by
  simp only [labelAt, h.lines, h.pendingLabel]

theorem add (h : SameLines a b) (piece : Piece α) : SameLines (a.add piece) (b.add piece) := by
  cases piece with
  | mark label =>
    rw [Buffer.add, Buffer.add, markLabel_eq, markLabel_eq]
    exact ⟨h.lines, congrArg (·.or (some label)) h.pendingLabel, h.pendingDebug⟩
  | debug text => exact ⟨h.lines, h.pendingLabel, congrArg (· ++ [text]) h.pendingDebug⟩
  | line body =>
    refine ⟨?_, rfl, rfl⟩
    simp only [Buffer.add, addLine, h.lines, h.pendingLabel, h.pendingDebug]

theorem append (h : SameLines a b) (buffer : Buffer α) : SameLines (buffer ++ a) (buffer ++ b) := by
  cases ha : a.lines.toList with
  | nil =>
    have hb : b.lines.toList = [] := by rw [← h.lines, ha]
    rw [append_of_nil ha, append_of_nil hb, h.pendingLabel, h.pendingDebug]
    exact ⟨rfl, rfl, rfl⟩
  | cons first rest =>
    have hb : b.lines.toList = first :: rest := by rw [← h.lines, ha]
    rw [append_of_cons ha, append_of_cons hb]
    exact ⟨rfl, h.pendingLabel, h.pendingDebug⟩

end SameLines

/-- A piece is added to the appended buffer, or after the buffer is appended. -/
theorem sameLines_append_add (buffer other : Buffer α) (piece : Piece α) :
    SameLines (buffer ++ other.add piece) ((buffer ++ other).add piece) := by
  cases h : other.lines.toList with
  | nil =>
    cases piece with
    | mark label =>
      have hnone : (other.markLabel label).lines.toList = [] := by rw [markLabel_eq, h]
      rw [add, append_of_nil hnone, add, append_of_nil h, markLabel_eq, markLabel_eq]
      exact ⟨rfl, (Option.or_assoc ..).symm, rfl⟩
    | debug text =>
      have hnone : (other.addDebug text).lines.toList = [] := h
      rw [add, append_of_nil hnone, add, append_of_nil h]
      exact ⟨rfl, rfl, (List.append_assoc ..).symm⟩
    | line body =>
      have hone : (other.addLine body).lines.toList =
          [{ body with label := other.pendingLabel, debug := other.pendingDebug }] := by
        simp [addLine, h]
      rw [add, append_of_cons hone, add, append_of_nil h]
      exact ⟨by simp [addLine], rfl, rfl⟩
  | cons first rest =>
    cases piece with
    | mark label =>
      have hcons : (other.markLabel label).lines.toList = first :: rest := by rw [markLabel_eq, h]
      rw [add, append_of_cons hcons, add, append_of_cons h, markLabel_eq, markLabel_eq]
      exact ⟨rfl, rfl, rfl⟩
    | debug text =>
      have hcons : (other.addDebug text).lines.toList = first :: rest := h
      rw [add, append_of_cons hcons, add, append_of_cons h]
      exact ⟨rfl, rfl, rfl⟩
    | line body =>
      have hcons : (other.addLine body).lines.toList =
          first :: (rest ++ [{ body with label := other.pendingLabel, debug := other.pendingDebug }]) := by
        simp [addLine, h]
      rw [add, append_of_cons hcons, add, append_of_cons h]
      exact ⟨by simp [addLine], rfl, rfl⟩

theorem sameLines_append_fill (buffer : Buffer α) (pieces : List (Piece α)) :
    SameLines (buffer ++ ({} : Buffer α).fill pieces) (buffer.fill pieces) := by
  induction pieces using List.reverseRecOn with
  | nil =>
    show SameLines (buffer ++ ({} : Buffer α)) buffer
    rw [append_of_nil rfl]
    exact ⟨rfl, Option.or_none, List.append_nil _⟩
  | append_singleton pieces piece ih =>
    rw [fill_append, fill_append]
    exact (sameLines_append_add ..).trans (ih.add piece)

/-! ## Aliases -/

/-- The entries of a map of aliases, each once, in some order. -/
structure Enumerates (entries aliases : List (Label × Label)) : Prop where
  nodup : (entries.map (·.1)).Nodup
  lookup : ∀ label, entries.lookup label = aliases.lookup label

/-- All of the second buffer after the first. The aliases of the second are taken over in the order of
the list. -/
def appendVia (entries : List (Label × Label)) (buffer other : Buffer α) : Buffer α :=
  entries.foldl (fun (merged : Buffer α) entry => { merged with aliases := entry :: merged.aliases })
    buffer ++ { other with aliases := [] }

theorem appendVia_eq (entries : List (Label × Label)) (buffer other : Buffer α) :
    appendVia entries buffer other = buffer ++ { other with aliases := entries.reverse } := by
  have hfold : entries.foldl (fun (merged : Buffer α) entry =>
      { merged with aliases := entry :: merged.aliases }) buffer =
        { buffer with aliases := entries.reverse ++ buffer.aliases } := by
    induction entries generalizing buffer with
    | nil => rfl
    | cons entry entries ih => rw [List.foldl_cons, ih, List.reverse_cons, List.append_assoc]; rfl
  rw [appendVia, hfold]
  rfl

variable {pieces : List (Piece α)} {buffer other : Buffer α} {entries : List (Label × Label)}

theorem mem_of_lookup {aliases : List (Label × Label)} {label first : Label}
    (h : aliases.lookup label = some first) : (label, first) ∈ aliases := by
  obtain ⟨before, after, rfl, -⟩ := List.lookup_eq_some_iff.mp h
  exact List.mem_append_right _ List.mem_cons_self

theorem Enumerates.mem_aliases {aliases : List (Label × Label)} (h : Enumerates entries aliases)
    {label first : Label} (hm : (label, first) ∈ entries) : (label, first) ∈ aliases := by
  apply mem_of_lookup
  rw [← h.lookup]
  obtain ⟨before, after, rfl⟩ := List.append_of_mem hm
  refine List.lookup_eq_some_iff.mpr ⟨before, after, rfl, fun entry hentry => ?_⟩
  -- a second entry for the label would stand in front of this one
  have hnodup := h.nodup
  rw [List.map_append, List.map_cons] at hnodup
  have hne := (List.nodup_append.mp hnodup).2.2 entry.1 (List.mem_map_of_mem hentry) label
    List.mem_cons_self
  simpa using Ne.symm hne

theorem Enumerates.exists_mem {aliases : List (Label × Label)} (h : Enumerates entries aliases)
    {label first : Label} (hm : (label, first) ∈ aliases) : ∃ first', (label, first') ∈ entries := by
  cases hl : entries.lookup label with
  | some first' => exact ⟨first', mem_of_lookup hl⟩
  | none =>
    rw [h.lookup] at hl
    have hkey := List.lookup_eq_none_iff.mp hl _ hm
    simp at hkey

/-- What a buffer knows about labels does not depend on the order of its aliases. -/
theorem Tracks.reorder (h : Tracks pieces buffer) (hentries : Enumerates entries buffer.aliases) :
    Tracks pieces { buffer with aliases := entries.reverse } where
  bodies := h.bodies
  carries := h.carries
  leads hm := h.leads (hentries.mem_aliases (List.mem_reverse.mp hm))
  known hline := by
    rcases h.known hline with ⟨first, hm⟩ | hat
    · obtain ⟨first', hm'⟩ := hentries.exists_mem hm
      exact .inl ⟨first', List.mem_reverse.mpr hm'⟩
    · exact .inr hat

/-- Chains of aliases may differ on the way, but end at the label of the same line. -/
theorem Tracks.resolve_eq (h : Tracks pieces buffer) (h' : Tracks pieces other)
    (hsame : SameLines buffer other) (label : Label) : buffer.resolve label = other.resolve label := by
  by_cases hm : label ∈ Piece.marks pieces
  · obtain ⟨index, hline⟩ := Option.isSome_iff_exists.mp (Piece.lineOf_isSome_iff.mpr hm)
    apply Option.some.inj
    rw [← h.labelAt_resolve hline, ← h'.labelAt_resolve hline]
    exact hsame.labelAt_eq index
  · rw [h.resolve_of_notMem hm, h'.resolve_of_notMem hm]

theorem Tracks.flush_eq (h : Tracks pieces buffer) (h' : Tracks pieces other)
    (hsame : SameLines buffer other) (combine : Combiner α) :
    buffer.flush combine = other.flush combine := by
  have hresolve : buffer.resolve = other.resolve := funext (h.resolve_eq h' hsame)
  have hlines : buffer.resolvedLines = other.resolvedLines := by
    rw [resolvedLines, resolvedLines, hresolve, hsame.lines]
  simp only [flush, hlines, hsame.pendingLabel, hsame.pendingDebug]

/-- Four labels for one line, three of them in the appended buffer, which has two aliases. Two of its labels
are jumped to. -/
def seam : List (Piece Nat) × List (Piece Nat) :=
  ([.line { code := 1 }, .debug ".LINE 1", .mark (.point 0)],
    [.mark (.point 1), .debug ".LINE 2", .mark (.point 2), .mark (.point 3),
      .line { code := 2, target := some (.point 3), kind := .branchPositive },
      .line { code := 3, target := some (.point 1), kind := .branchNegative }, .mark (.point 4)])

/-- **Appending a buffer that was filled with some pieces is the same as adding the pieces**, once the
buffer is flushed. The aliases of the appended buffer may be taken over in any order. -/
theorem flush_append_eq_flush_fill (combine : Combiner α) (first second : List (Piece α))
    (hnodup : (Piece.marks (first ++ second)).Nodup) :
    (({} : Buffer α).fill first ++ ({} : Buffer α).fill second).flush combine =
        (({} : Buffer α).fill (first ++ second)).flush combine ∧
      ∀ entries, Enumerates entries (({} : Buffer α).fill second).aliases →
        (appendVia entries (({} : Buffer α).fill first) (({} : Buffer α).fill second)).flush combine =
          (({} : Buffer α).fill (first ++ second)).flush combine := by
  have hmarks := hnodup
  rw [Piece.marks_append] at hmarks
  have hdisjoint := List.disjoint_of_nodup_append hmarks
  have hfirst : Tracks first (({} : Buffer α).fill first) := Tracks.new.fill hmarks.of_append_left
  have hsecond : Tracks second (({} : Buffer α).fill second) := Tracks.new.fill hmarks.of_append_right
  have hboth : Tracks (first ++ second) (({} : Buffer α).fill (first ++ second)) :=
    Tracks.new.fill hnodup
  have hsame := sameLines_append_fill (({} : Buffer α).fill first) second
  rw [← fill_append] at hsame
  refine ⟨(hfirst.append hsecond hdisjoint).flush_eq hboth hsame combine, fun entries hentries => ?_⟩
  rw [appendVia_eq]
  have hreordered : SameLines { ({} : Buffer α).fill second with aliases := entries.reverse }
      (({} : Buffer α).fill second) := ⟨rfl, rfl, rfl⟩
  exact (hfirst.append (hsecond.reorder hentries) hdisjoint).flush_eq hboth
    ((hreordered.append _).trans hsame) combine

/-- The aliases are taken over in the order that is not that of the marks. They lead on to the label that
waits in the first buffer. -/
theorem flush_append_eq_flush_fill_seam :
    (Piece.marks (seam.1 ++ seam.2)).Nodup ∧
      Enumerates [(.point 3, .point 1), (.point 2, .point 1)] (({} : Buffer Nat).fill seam.2).aliases ∧
      (({} : Buffer Nat).fill (seam.1 ++ seam.2)).aliases =
        [(.point 3, .point 0), (.point 2, .point 0), (.point 1, .point 0)] ∧
      (appendVia [(.point 3, .point 1), (.point 2, .point 1)] (({} : Buffer Nat).fill seam.1)
          (({} : Buffer Nat).fill seam.2)).flush Combiner.adding =
        (({} : Buffer Nat).fill (seam.1 ++ seam.2)).flush Combiner.adding ∧
      Code.referenced ((({} : Buffer Nat).fill (seam.1 ++ seam.2)).flush Combiner.adding).lines =
        [.point 0, .point 0] := by
  have hnodup : (Piece.marks (seam.1 ++ seam.2)).Nodup := by decide
  have hentries : Enumerates [(.point 3, .point 1), (.point 2, .point 1)]
      (({} : Buffer Nat).fill seam.2).aliases := ⟨by decide, fun _ => rfl⟩
  obtain ⟨-, hany⟩ := flush_append_eq_flush_fill Combiner.adding seam.1 seam.2 hnodup
  exact ⟨hnodup, hentries, by decide, hany _ hentries, by decide⟩

end StoryAsm.Buffer
