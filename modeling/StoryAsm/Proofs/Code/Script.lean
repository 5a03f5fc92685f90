import Mathlib.Data.List.Nodup
import StoryAsm.Proofs.Code.Aliases

/-!
# Scripts of buffer calls

A script is a sequence of calls that fill a buffer, where a buffer that is appended has a script of its
own. Its pieces are the calls in the order in which they take effect. Each label of the pieces stands
before the line that is added next (`Piece.lineOf`).

The buffer keeps track of this (`Buffer.Tracks`): a label is carried by its line, or waits for it, or is
an alias of a label that was marked earlier at the same line. So the chain of aliases from a label ends,
and it ends at the label that its line carries (`Buffer.Tracks.labelAt_resolve`).
-/

namespace StoryAsm

open Relation

variable {α : Type}

/-- What a call adds to a buffer. -/
inductive Piece (α : Type) where
  | mark (label : Label)
  | debug (text : String)
  | line (body : LineBody α)

namespace Piece

/-- The labels that are marked. -/
def marks : List (Piece α) → List Label
  | [] => []
  | mark label :: rest => label :: marks rest
  | debug _ :: rest | line _ :: rest => marks rest

/-- The lines that are added. -/
def lines : List (Piece α) → List (LineBody α)
  | [] => []
  | line body :: rest => body :: lines rest
  | mark _ :: rest | debug _ :: rest => lines rest

/-- The index of the line that is added next after a label is marked. -/
def lineOf (label : Label) : List (Piece α) → Option Nat
  | [] => none
  | mark other :: rest => if other = label then some 0 else lineOf label rest
  | debug _ :: rest => lineOf label rest
  | line _ :: rest => (lineOf label rest).map (· + 1)

variable {label : Label} {xs ys : List (Piece α)}

@[simp] theorem marks_append (xs ys : List (Piece α)) :
    marks (xs ++ ys) = marks xs ++ marks ys := by
  induction xs with
  | nil => rfl
  | cons piece xs ih => cases piece <;> simp [marks, ih]

@[simp] theorem lines_append (xs ys : List (Piece α)) :
    lines (xs ++ ys) = lines xs ++ lines ys := by
  induction xs with
  | nil => rfl
  | cons piece xs ih => cases piece <;> simp [lines, ih]

theorem lineOf_append (label : Label) (xs ys : List (Piece α)) :
    lineOf label (xs ++ ys) =
      (lineOf label xs).or ((lineOf label ys).map (· + (lines xs).length)) := by
  induction xs with
  | nil => simp [lineOf, lines]
  | cons piece xs ih =>
    cases piece with
    | mark other =>
      simp only [List.cons_append, lineOf, lines]
      split
      · rfl
      · exact ih
    | debug text => simpa [lineOf, lines] using ih
    | line body =>
      simp only [List.cons_append, lineOf, lines, List.length_cons, ih]
      cases lineOf label xs <;> simp [Function.comp_def, Nat.add_assoc]

theorem lineOf_isSome_iff : (lineOf label xs).isSome ↔ label ∈ marks xs := by
  induction xs with
  | nil => simp [lineOf, marks]
  | cons piece xs ih =>
    cases piece with
    | mark other =>
      by_cases h : other = label
      · simp [lineOf, marks, h]
      · simp [lineOf, marks, h, Ne.symm h, ih]
    | debug text => simpa [lineOf, marks] using ih
    | line body => simpa [lineOf, marks] using ih

theorem lineOf_eq_none_iff : lineOf label xs = none ↔ label ∉ marks xs := by
  rw [← lineOf_isSome_iff, Option.not_isSome_iff_eq_none]

theorem lineOf_le {index : Nat} (h : lineOf label xs = some index) :
    index ≤ (lines xs).length := by
  induction xs generalizing index with
  | nil => simp [lineOf] at h
  | cons piece xs ih =>
    cases piece with
    | mark other =>
      simp only [lineOf] at h
      split at h
      · cases h; exact Nat.zero_le _
      · exact ih h
    | debug text => exact ih h
    | line body =>
      simp only [lineOf, Option.map_eq_some_iff] at h
      obtain ⟨index', h, rfl⟩ := h
      exact Nat.succ_le_succ (ih h)

theorem lineOf_append_left (h : label ∈ marks xs) :
    lineOf label (xs ++ ys) = lineOf label xs := by
  rw [lineOf_append]
  obtain ⟨index, hi⟩ := Option.isSome_iff_exists.mp (lineOf_isSome_iff.mpr h)
  simp [hi]

theorem lineOf_append_right (h : label ∉ marks xs) :
    lineOf label (xs ++ ys) = (lineOf label ys).map (· + (lines xs).length) := by
  rw [lineOf_append, lineOf_eq_none_iff.mpr h, Option.none_or]

end Piece

/-- A sequence of calls on a new buffer. -/
inductive Script (α : Type) where
  | new
  | mark (before : Script α) (label : Label)
  | debug (before : Script α) (text : String)
  | line (before : Script α) (body : LineBody α)
  /-- Another buffer is filled and then appended. -/
  | append (before other : Script α)

namespace Script

def buffer : Script α → Buffer α
  | new => {}
  | mark before label => before.buffer.markLabel label
  | debug before text => before.buffer.addDebug text
  | line before body => before.buffer.addLine body
  | append before other => before.buffer ++ other.buffer

def pieces : Script α → List (Piece α)
  | new => []
  | mark before label => before.pieces ++ [.mark label]
  | debug before text => before.pieces ++ [.debug text]
  | line before body => before.pieces ++ [.line body]
  | append before other => before.pieces ++ other.pieces

end Script

namespace Buffer

/-- The label of the line at an index, or the label that waits behind the last line. -/
def labelAt (buffer : Buffer α) (index : Nat) : Option Label :=
  match buffer.lines.toList[index]? with
  | some line => line.label
  | none => buffer.pendingLabel

/-! ## Appended buffers -/

/-- The alias that a label becomes where another one waits already. -/
def newAlias : Option Label → Option Label → List (Label × Label)
  | some first, some second => if first = second then [] else [(second, first)]
  | _, _ => []

theorem markLabel?_eq (buffer : Buffer α) (label : Option Label) :
    buffer.markLabel? label =
      { buffer with
        pendingLabel := buffer.pendingLabel.or label
        aliases := newAlias buffer.pendingLabel label ++ buffer.aliases } := by
  obtain ⟨lines, pending, debug, aliases⟩ := buffer
  cases label <;> cases pending <;> simp [markLabel?, markLabel, newAlias]
  split <;> rfl

theorem foldl_replay (lines : List (Line α)) (buffer : Buffer α)
    (hlabel : buffer.pendingLabel = none) (hdebug : buffer.pendingDebug = []) :
    lines.foldl replay buffer = { buffer with lines := buffer.lines ++ lines.toArray } := by
  induction lines generalizing buffer with
  | nil => simp
  | cons line rest ih =>
    have hreplay : buffer.replay line = { buffer with lines := buffer.lines.push line } := by
      obtain ⟨body, label, debug⟩ := line
      simp [replay, markLabel?_eq, addLine, hlabel, hdebug, newAlias]
    rw [List.foldl_cons, hreplay, ih { buffer with lines := buffer.lines.push line } hlabel hdebug]
    simp

theorem append_of_nil {buffer other : Buffer α} (h : other.lines.toList = []) :
    buffer ++ other =
      { lines := buffer.lines
        pendingLabel := buffer.pendingLabel.or other.pendingLabel
        pendingDebug := buffer.pendingDebug ++ other.pendingDebug
        aliases := newAlias buffer.pendingLabel (other.labelAt 0) ++
          (other.aliases ++ buffer.aliases) } := by
  show append buffer other = _
  simp only [append, ← Array.foldl_toList, h, List.foldl_nil, markLabel?_eq, labelAt]
  rfl

theorem append_of_cons {buffer other : Buffer α} {first : Line α} {rest : List (Line α)}
    (h : other.lines.toList = first :: rest) :
    buffer ++ other =
      { lines := buffer.lines ++ ({ first with
          label := buffer.pendingLabel.or first.label
          debug := buffer.pendingDebug ++ first.debug } :: rest).toArray
        pendingLabel := other.pendingLabel
        pendingDebug := other.pendingDebug
        aliases := newAlias buffer.pendingLabel (other.labelAt 0) ++
          (other.aliases ++ buffer.aliases) } := by
  show append buffer other = _
  simp only [append, ← Array.foldl_toList, h, List.foldl_cons, replay, addLine, markLabel?_eq,
    labelAt]
  rw [foldl_replay rest _ rfl rfl]
  simp [newAlias]

theorem append_aliases (buffer other : Buffer α) :
    (buffer ++ other).aliases =
      newAlias buffer.pendingLabel (other.labelAt 0) ++ (other.aliases ++ buffer.aliases) := by
  cases h : other.lines.toList with
  | nil => rw [append_of_nil h]
  | cons first rest => rw [append_of_cons h]

theorem append_bodies (buffer other : Buffer α) :
    (buffer ++ other).lines.toList.map (·.toLineBody) =
      buffer.lines.toList.map (·.toLineBody) ++ other.lines.toList.map (·.toLineBody) := by
  cases h : other.lines.toList with
  | nil => simp [append_of_nil h]
  | cons first rest => simp [append_of_cons h]

theorem append_labelAt_of_lt {buffer other : Buffer α} {index : Nat}
    (hi : index < buffer.lines.toList.length) :
    (buffer ++ other).labelAt index = buffer.labelAt index := by
  cases h : other.lines.toList with
  | nil => simp only [append_of_nil h, labelAt, List.getElem?_eq_getElem hi]
  | cons first rest =>
    simp only [append_of_cons h, labelAt, Array.toList_append, List.getElem?_append_left hi,
      List.getElem?_eq_getElem hi]

/-- Where two buffers meet, the label that waits in the first is preferred. -/
theorem append_labelAt_length (buffer other : Buffer α) :
    (buffer ++ other).labelAt buffer.lines.toList.length =
      buffer.pendingLabel.or (other.labelAt 0) := by
  cases h : other.lines.toList with
  | nil => simp [append_of_nil h, labelAt, h]
  | cons first rest => simp [append_of_cons h, labelAt, h]

theorem append_labelAt_add {buffer other : Buffer α} {index : Nat}
    (hpos : 0 < index) (hi : index ≤ other.lines.toList.length) :
    (buffer ++ other).labelAt (buffer.lines.toList.length + index) = other.labelAt index := by
  cases h : other.lines.toList with
  | nil => simp [h] at hi; omega
  | cons first rest =>
    obtain ⟨index, rfl⟩ := Nat.exists_eq_succ_of_ne_zero (Nat.ne_of_gt hpos)
    simp only [append_of_cons h, labelAt, Array.toList_append,
      List.getElem?_append_right (Nat.le_add_right ..), Nat.add_sub_cancel_left, h,
      List.getElem?_cons_succ]

/-- Every call is the same as appending a buffer with this one call. -/
theorem markLabel_eq_append (buffer : Buffer α) (label : Label) :
    buffer.markLabel label = buffer ++ ({} : Buffer α).markLabel label := by
  rw [append_of_nil rfl]
  exact (markLabel?_eq buffer (some label)).trans (by simp [markLabel, labelAt])

theorem addDebug_eq_append (buffer : Buffer α) (text : String) :
    buffer.addDebug text = buffer ++ ({} : Buffer α).addDebug text := by
  rw [append_of_nil rfl]
  simp [addDebug, labelAt, newAlias]

theorem addLine_eq_append (buffer : Buffer α) (body : LineBody α) :
    buffer.addLine body = buffer ++ ({} : Buffer α).addLine body := by
  rw [append_of_cons rfl]
  simp [addLine, labelAt, newAlias]

/-! ## Labels and their lines -/

/-- What a buffer knows about the labels of the pieces it was filled with. -/
structure Tracks (pieces : List (Piece α)) (buffer : Buffer α) : Prop where
  bodies : buffer.lines.toList.map (·.toLineBody) = Piece.lines pieces
  /-- A line carries a label that was marked for it. -/
  carries : ∀ {index label}, index ≤ buffer.lines.toList.length →
    buffer.labelAt index = some label → Piece.lineOf label pieces = some index
  /-- An alias leads to a label that was marked earlier for the same line. -/
  leads : ∀ {label first}, (label, first) ∈ buffer.aliases → first ∈ Piece.marks pieces ∧
    Piece.lineOf label pieces = Piece.lineOf first pieces ∧
    (Piece.marks pieces).idxOf first < (Piece.marks pieces).idxOf label
  /-- A label that was marked is an alias or carried by its line. -/
  known : ∀ {label index}, Piece.lineOf label pieces = some index →
    (∃ first, (label, first) ∈ buffer.aliases) ∨ buffer.labelAt index = some label

namespace Tracks

variable {pieces xs ys : List (Piece α)} {buffer b c : Buffer α} {label : Label} {index : Nat}

theorem length_eq (h : Tracks pieces buffer) :
    buffer.lines.toList.length = (Piece.lines pieces).length := by
  rw [← h.bodies, List.length_map]

theorem new : Tracks [] ({} : Buffer α) where
  bodies := rfl
  carries _ h := by simp [labelAt] at h
  leads h := by simp at h
  known h := by simp [Piece.lineOf] at h

theorem oneMark (label : Label) : Tracks [.mark label] (({} : Buffer α).markLabel label) where
  bodies := rfl
  carries hi h := by
    simp only [markLabel, labelAt, List.getElem?_nil, Option.some.injEq] at h
    simp only [markLabel, List.length_nil, Nat.le_zero_eq] at hi
    simp [Piece.lineOf, h, hi]
  leads h := by simp [markLabel] at h
  known h := by
    simp only [Piece.lineOf] at h
    split at h
    · rename_i he
      cases h
      exact .inr (by simp [markLabel, labelAt, he])
    · cases h

theorem oneDebug (text : String) : Tracks [.debug text] (({} : Buffer α).addDebug text) where
  bodies := rfl
  carries _ h := by simp [labelAt, addDebug] at h
  leads h := by simp [addDebug] at h
  known h := by simp [Piece.lineOf] at h

theorem oneLine (body : LineBody α) : Tracks [.line body] (({} : Buffer α).addLine body) where
  bodies := rfl
  carries {index label} _ h := by cases index <;> simp [labelAt, addLine] at h
  leads h := by simp [addLine] at h
  known h := by simp [Piece.lineOf] at h

theorem pending_lineOf (h : Tracks xs b) (hp : b.pendingLabel = some label) :
    Piece.lineOf label xs = some (Piece.lines xs).length := by
  rw [← h.length_eq]
  exact h.carries (Nat.le_refl _) (by simp [labelAt, hp])

theorem mem_of_lineOf (h : Piece.lineOf label xs = some index) : label ∈ Piece.marks xs :=
  Piece.lineOf_isSome_iff.mp (by simp [h])

/-- The label that waits and the label that comes next are marked for one line. -/
theorem newAlias_leads (hb : Tracks xs b) (hc : Tracks ys c)
    (hdisj : List.Disjoint (Piece.marks xs) (Piece.marks ys)) {first : Label}
    (h : (label, first) ∈ newAlias b.pendingLabel (c.labelAt 0)) :
    first ∈ Piece.marks (xs ++ ys) ∧
      Piece.lineOf label (xs ++ ys) = Piece.lineOf first (xs ++ ys) ∧
      (Piece.marks (xs ++ ys)).idxOf first < (Piece.marks (xs ++ ys)).idxOf label := by
  cases hp : b.pendingLabel with
  | none => simp [hp, newAlias] at h
  | some waiting =>
    cases hl : c.labelAt 0 with
    | none => simp [hp, hl, newAlias] at h
    | some next =>
      simp only [hp, hl, newAlias] at h
      split at h
      · simp at h
      simp only [List.mem_singleton, Prod.mk.injEq] at h
      obtain ⟨rfl, rfl⟩ := h
      have hfirst := hb.pending_lineOf hp
      have hnext := hc.carries (Nat.zero_le _) hl
      have hmem := mem_of_lineOf hfirst
      have hnot : label ∉ Piece.marks xs := fun hm => hdisj hm (mem_of_lineOf hnext)
      refine ⟨by simp [hmem], ?_, ?_⟩
      · rw [Piece.lineOf_append_left hmem, Piece.lineOf_append_right hnot, hfirst, hnext]
        simp
      · rw [Piece.marks_append, List.idxOf_append_of_mem hmem, List.idxOf_append_of_notMem hnot]
        exact Nat.lt_add_right _ (List.idxOf_lt_length_of_mem hmem)

theorem append (hb : Tracks xs b) (hc : Tracks ys c)
    (hdisj : List.Disjoint (Piece.marks xs) (Piece.marks ys)) : Tracks (xs ++ ys) (b ++ c) where
  bodies := by rw [append_bodies, hb.bodies, hc.bodies, Piece.lines_append]
  carries {index label} hi h := by
    rcases Nat.lt_trichotomy index b.lines.toList.length with hlt | rfl | hgt
    · rw [append_labelAt_of_lt hlt] at h
      have hline := hb.carries (Nat.le_of_lt hlt) h
      rwa [Piece.lineOf_append_left (mem_of_lineOf hline)]
    · rw [append_labelAt_length, Option.or_eq_some_iff] at h
      rw [hb.length_eq]
      rcases h with h | ⟨-, h⟩
      · have hline := hb.pending_lineOf h
        rwa [Piece.lineOf_append_left (mem_of_lineOf hline)]
      · have hline := hc.carries (Nat.zero_le _) h
        rw [Piece.lineOf_append_right fun hm => hdisj hm (mem_of_lineOf hline), hline]
        simp
    · obtain ⟨k, rfl⟩ := Nat.exists_eq_add_of_le (Nat.le_of_lt hgt)
      have hk : k ≤ c.lines.toList.length := by
        have hlen := congrArg List.length (append_bodies b c)
        simp only [List.length_map, List.length_append] at hlen
        omega
      rw [append_labelAt_add (by omega) hk] at h
      have hline := hc.carries hk h
      rw [Piece.lineOf_append_right fun hm => hdisj hm (mem_of_lineOf hline), hline, hb.length_eq]
      simp [Nat.add_comm]
  leads {label first} h := by
    rw [append_aliases] at h
    rcases List.mem_append.mp h with h | h
    · exact newAlias_leads hb hc hdisj h
    rcases List.mem_append.mp h with h | h
    · obtain ⟨hm, hline, hidx⟩ := hc.leads h
      have hl : label ∈ Piece.marks ys := by
        rw [← Piece.lineOf_isSome_iff, hline, Piece.lineOf_isSome_iff]; exact hm
      have hfirst : first ∉ Piece.marks xs := fun hx => hdisj hx hm
      have hlabel : label ∉ Piece.marks xs := fun hx => hdisj hx hl
      refine ⟨by simp [hm], ?_, ?_⟩
      · rw [Piece.lineOf_append_right hlabel, Piece.lineOf_append_right hfirst, hline]
      · rw [Piece.marks_append, List.idxOf_append_of_notMem hlabel,
          List.idxOf_append_of_notMem hfirst]
        omega
    · obtain ⟨hm, hline, hidx⟩ := hb.leads h
      have hl : label ∈ Piece.marks xs := by
        rw [← Piece.lineOf_isSome_iff, hline, Piece.lineOf_isSome_iff]; exact hm
      refine ⟨by simp [hm], ?_, ?_⟩
      · rw [Piece.lineOf_append_left hl, Piece.lineOf_append_left hm, hline]
      · rwa [Piece.marks_append, List.idxOf_append_of_mem hl, List.idxOf_append_of_mem hm]
  known {label index} h := by
    rw [append_aliases]
    by_cases hx : label ∈ Piece.marks xs
    · rw [Piece.lineOf_append_left hx] at h
      rcases hb.known h with ⟨first, hm⟩ | hat
      · exact .inl ⟨first, by simp [hm]⟩
      right
      have hi := Piece.lineOf_le h
      rw [← hb.length_eq] at hi
      rcases Nat.lt_or_eq_of_le hi with hlt | rfl
      · rwa [append_labelAt_of_lt hlt]
      · rw [append_labelAt_length]
        simp only [labelAt, List.getElem?_length] at hat
        simp [hat]
    · rw [Piece.lineOf_append_right hx] at h
      obtain ⟨k, hk, rfl⟩ := Option.map_eq_some_iff.mp h
      rcases hc.known hk with ⟨first, hm⟩ | hat
      · exact .inl ⟨first, by simp [hm]⟩
      rw [Nat.add_comm, ← hb.length_eq]
      rcases Nat.eq_zero_or_pos k with rfl | hpos
      · rw [Nat.add_zero, append_labelAt_length, hat]
        cases hp : b.pendingLabel with
        | none => exact .inr rfl
        | some waiting =>
          have hne : waiting ≠ label := fun he =>
            hx (he ▸ mem_of_lineOf (hb.pending_lineOf hp))
          exact .inl ⟨waiting, by simp [newAlias, hne]⟩
      · right
        rwa [append_labelAt_add hpos (hc.length_eq ▸ Piece.lineOf_le hk)]

/-! ## Resolved labels -/

/-- An alias leads to a label that was marked earlier. -/
theorem idxOf_lt (h : Tracks pieces buffer) {next : Label} (hnext : buffer.StandsFor label next) :
    (Piece.marks pieces).idxOf next < (Piece.marks pieces).idxOf label :=
  (h.leads hnext.mem_aliases).2.2

theorem acyclic (h : Tracks pieces buffer) : buffer.Acyclic := by
  have hearlier : ∀ {label last}, TransGen buffer.StandsFor label last →
      (Piece.marks pieces).idxOf last < (Piece.marks pieces).idxOf label := by
    intro label last hchain
    induction hchain with
    | single hnext => exact h.idxOf_lt hnext
    | tail _ hnext ih => exact Nat.lt_trans (h.idxOf_lt hnext) ih
  exact fun label hcircle => Nat.lt_irrefl _ (hearlier hcircle)

/-- Labels along a chain of aliases stand at the same line. -/
theorem lineOf_of_reached (h : Tracks pieces buffer) {last : Label}
    (hreached : ReflTransGen buffer.StandsFor label last) :
    Piece.lineOf last pieces = Piece.lineOf label pieces := by
  induction hreached with
  | refl => rfl
  | tail _ hnext ih => rw [← ih, (h.leads hnext.mem_aliases).2.1]

/-- A marked label resolves to the label of its line. -/
theorem labelAt_resolve (h : Tracks pieces buffer) (hline : Piece.lineOf label pieces = some index) :
    buffer.labelAt index = some (buffer.resolve label) := by
  have hends := h.acyclic.endsAt_resolve label
  rw [← h.lineOf_of_reached hends.reached] at hline
  rcases h.known hline with ⟨first, hm⟩ | hat
  · have hkey := List.lookup_eq_none_iff.mp hends.lookup_eq_none _ hm
    simp at hkey
  · exact hat

theorem lookup_of_notMem (h : Tracks pieces buffer) (hm : label ∉ Piece.marks pieces) :
    buffer.aliases.lookup label = none := by
  refine List.lookup_eq_none_iff.mpr fun entry hentry => ?_
  simp only [bne_iff_ne, ne_eq]
  rintro rfl
  obtain ⟨hfirst, hline, -⟩ := h.leads hentry
  rw [← Piece.lineOf_isSome_iff, hline, Piece.lineOf_isSome_iff] at hm
  exact hm hfirst

theorem resolve_of_notMem (h : Tracks pieces buffer) (hm : label ∉ Piece.marks pieces) :
    buffer.resolve label = label :=
  (endsAt_self (h.lookup_of_notMem hm)).resolve_eq

end Tracks

end Buffer

/-- The buffer of a script in which no label is marked twice. -/
theorem Script.tracks (script : Script α) (h : (Piece.marks script.pieces).Nodup) :
    Buffer.Tracks script.pieces script.buffer := by
  induction script with
  | new => exact .new
  | mark before label ih =>
    simp only [pieces, Piece.marks_append, buffer] at h ⊢
    rw [Buffer.markLabel_eq_append]
    exact (ih h.of_append_left).append (.oneMark label) (List.disjoint_of_nodup_append h)
  | debug before text ih =>
    simp only [pieces, Piece.marks_append, buffer] at h ⊢
    rw [Buffer.addDebug_eq_append]
    exact (ih h.of_append_left).append (.oneDebug text) (List.disjoint_of_nodup_append h)
  | line before body ih =>
    simp only [pieces, Piece.marks_append, buffer] at h ⊢
    rw [Buffer.addLine_eq_append]
    exact (ih h.of_append_left).append (.oneLine body) (List.disjoint_of_nodup_append h)
  | append before other ihb iho =>
    simp only [pieces, Piece.marks_append] at h ⊢
    exact (ihb h.of_append_left).append (iho h.of_append_right)
      (List.disjoint_of_nodup_append h)

/-! ## Buffers filled piece by piece -/

namespace Buffer

/-- Add one piece to a buffer. -/
def add (buffer : Buffer α) : Piece α → Buffer α
  | .mark label => buffer.markLabel label
  | .debug text => buffer.addDebug text
  | .line body => buffer.addLine body

/-- Add pieces to a buffer, one after the other. -/
def fill (buffer : Buffer α) (pieces : List (Piece α)) : Buffer α :=
  pieces.foldl add buffer

theorem fill_append (buffer : Buffer α) (xs ys : List (Piece α)) :
    buffer.fill (xs ++ ys) = (buffer.fill xs).fill ys := List.foldl_append

theorem add_eq_append (buffer : Buffer α) (piece : Piece α) :
    buffer.add piece = buffer ++ ({} : Buffer α).add piece := by
  cases piece with
  | mark label => exact markLabel_eq_append buffer label
  | debug text => exact addDebug_eq_append buffer text
  | line body => exact addLine_eq_append buffer body

theorem Tracks.one (piece : Piece α) : Tracks [piece] (({} : Buffer α).add piece) := by
  cases piece with
  | mark label => exact .oneMark label
  | debug text => exact .oneDebug text
  | line body => exact .oneLine body

theorem Tracks.fill {xs ys : List (Piece α)} {buffer : Buffer α} (h : Tracks xs buffer)
    (hnodup : (Piece.marks (xs ++ ys)).Nodup) : Tracks (xs ++ ys) (buffer.fill ys) := by
  induction ys generalizing xs buffer with
  | nil => simpa [Buffer.fill] using h
  | cons piece ys ih =>
    rw [List.append_cons] at hnodup ⊢
    refine ih ?_ hnodup
    rw [add_eq_append]
    rw [Piece.marks_append, Piece.marks_append] at hnodup
    exact h.append (.one piece) (List.disjoint_of_nodup_append hnodup.of_append_left)

end Buffer

end StoryAsm
