import StoryAsm.Text.Quoted

/-!
# Reading quoted texts

A literal ends where its text ends, whatever the text is: reading a literal gives the text back and leaves
what follows it (`Text.readQuoted_quote`), unless that starts with a quote. Nothing but literals is read
(`Text.readQuoted_eq_some_iff`).
-/

namespace StoryAsm.Text

theorem readInside_quote (rest : List Char) :
    readInside ('"' :: '"' :: rest) = (readInside rest).map fun read => ('"' :: read.1, read.2) := rfl

theorem readInside_cons {c : Char} (h : c ≠ '"') (rest : List Char) :
    readInside (c :: rest) = (readInside rest).map fun read => (c :: read.1, read.2) := by
  rw [readInside.eq_3 c rest fun _ hc _ => h hc, if_neg h]

theorem readInside_end {rest : List Char} (h : rest.head? ≠ some '"') :
    readInside ('"' :: rest) = some ([], rest) := by
  cases rest with
  | nil => rfl
  | cons c rest =>
    have hc : c ≠ '"' := fun heq => h (congrArg some heq)
    rw [readInside.eq_3 '"' (c :: rest) fun _ _ heq => hc (List.cons.inj heq).1, if_pos rfl]

theorem readInside_doubleQuotes (text : List Char) {rest : List Char} (h : rest.head? ≠ some '"') :
    readInside (doubleQuotes text ++ '"' :: rest) = some (text, rest) := by
  induction text with
  | nil => exact readInside_end h
  | cons c text ih =>
    rw [doubleQuotes]
    split
    · rename_i hc
      rw [List.cons_append, List.cons_append, readInside_quote, ih, hc]
      rfl
    · rename_i hc
      rw [List.cons_append, readInside_cons hc, ih]
      rfl

theorem toList_quote (text : String) :
    (quote text).toList = '"' :: doubleQuotes text.toList ++ ['"'] := by
  rw [quote, String.toList_ofList]

theorem readQuoted_quote (text : String) {rest : List Char} (h : rest.head? ≠ some '"') :
    readQuoted ((quote text).toList ++ rest) = some (text.toList, rest) := by
  rw [toList_quote, List.append_assoc, List.cons_append, List.singleton_append]
  exact readInside_doubleQuotes _ h

/-- What is read as the inside of a literal is one, and its closing quote is not followed by another. -/
theorem eq_append_of_readInside {input text rest : List Char} (h : readInside input = some (text, rest)) :
    input = doubleQuotes text ++ '"' :: rest ∧ rest.head? ≠ some '"' := by
  fun_induction readInside input generalizing text with
  | case1 => cases h
  | case2 input ih =>
    obtain ⟨⟨text', rest'⟩, hread, heq⟩ := Option.map_eq_some_iff.mp h
    obtain ⟨rfl, rfl⟩ := Prod.mk.inj heq
    obtain ⟨rfl, hrest⟩ := ih hread
    exact ⟨rfl, hrest⟩
  | case3 input hsingle =>
    obtain ⟨rfl, rfl⟩ := Prod.mk.inj (Option.some.inj h)
    refine ⟨rfl, fun hhead => ?_⟩
    obtain ⟨rest, hrest⟩ := List.head?_eq_some_iff.mp hhead
    exact hsingle rest rfl hrest
  | case4 c input _ hc ih =>
    obtain ⟨⟨text', rest'⟩, hread, heq⟩ := Option.map_eq_some_iff.mp h
    obtain ⟨rfl, rfl⟩ := Prod.mk.inj heq
    obtain ⟨rfl, hrest⟩ := ih hread
    rw [doubleQuotes, if_neg hc]
    exact ⟨rfl, hrest⟩

theorem readQuoted_eq_some_iff {text : String} {input rest : List Char} :
    readQuoted input = some (text.toList, rest) ↔
      input = (quote text).toList ++ rest ∧ rest.head? ≠ some '"' := by
  constructor
  · intro h
    cases input with
    | nil => cases h
    | cons c input =>
      by_cases hc : c = '"'
      · subst hc
        obtain ⟨rfl, hrest⟩ := eq_append_of_readInside h
        rw [toList_quote, List.append_assoc]
        exact ⟨rfl, hrest⟩
      · rw [readQuoted.eq_2 (c :: input) fun _ heq => hc (List.cons.inj heq).1] at h
        cases h
  · rintro ⟨rfl, hrest⟩
    exact readQuoted_quote text hrest

/-- Reading the inside of a literal takes at least its closing quote. -/
theorem length_lt_of_readInside {input text rest : List Char} (h : readInside input = some (text, rest)) :
    rest.length < input.length := by
  rw [(eq_append_of_readInside h).1, List.length_append, List.length_cons]
  omega

theorem length_lt_of_readQuoted {input text rest : List Char} (h : readQuoted input = some (text, rest)) :
    rest.length < input.length := by
  cases input with
  | nil => cases h
  | cons c input =>
    by_cases hc : c = '"'
    · subst hc
      exact Nat.lt_succ_of_lt (length_lt_of_readInside h)
    · rw [readQuoted.eq_2 (c :: input) fun _ heq => hc (List.cons.inj heq).1] at h
      cases h

end StoryAsm.Text
