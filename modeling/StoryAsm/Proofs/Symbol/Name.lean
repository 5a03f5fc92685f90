import StoryAsm.Symbol.Name

/-!
# Symbols of names

The symbol of a name holds only characters that symbols may hold, so taking the symbol of a symbol once
more changes nothing, also with the mark of properties in front of it.
-/

namespace StoryAsm.Symbol

open StoryAsm.Text

theorem isSymbolChar_of_isAlphanum {c : Char} (h : c.isAlphanum = true) : isSymbolChar c = true := by
  simp [isSymbolChar, isAlphanumeric, h]

theorem isAlphanum_digitChar {digit : Nat} (h : digit < 16) : digit.digitChar.isAlphanum = true := by
  have hall : ∀ digit < 16, digit.digitChar.isAlphanum = true := by decide
  exact hall digit h

theorem isAlphanum_of_mem_toDigits {n : Nat} {c : Char} (h : c ∈ Nat.toDigits 16 n) :
    c.isAlphanum = true := by
  induction n using Nat.strongRecOn with
  | ind n ih =>
    rw [Nat.toDigits_eq_if (by decide)] at h
    split at h
    · rename_i hn
      rw [List.mem_singleton.mp h]
      exact isAlphanum_digitChar hn
    · rename_i hn
      rcases List.mem_append.mp h with h | h
      · exact ih (n / 16) (by omega) h
      · rw [List.mem_singleton.mp h]
        exact isAlphanum_digitChar (Nat.mod_lt _ (by decide))

theorem isSymbolChar_of_mem_encodeChar {c d : Char} (h : d ∈ encodeChar c) :
    isSymbolChar d = true := by
  simp only [encodeChar] at h
  split at h
  · rw [List.mem_singleton.mp h]
    assumption
  · simp only [escapeChar, List.mem_cons, List.leftpad, List.mem_append, List.mem_replicate] at h
    rcases h with rfl | ⟨-, rfl⟩ | h
    · rfl
    · rfl
    · exact isSymbolChar_of_isAlphanum (isAlphanum_of_mem_toDigits h)

theorem all_isSymbolChar_ofName (name : String) : (ofName name).toList.all isSymbolChar = true := by
  simp only [ofName]
  split
  · rfl
  split
  · rfl
  split
  · rfl
  · rw [String.toList_ofList, List.all_flatMap, List.all_eq_true]
    intro c _
    exact List.all_eq_true.mpr fun d hd => isSymbolChar_of_mem_encodeChar hd

theorem flatMap_encodeChar {chars : List Char} (h : chars.all isSymbolChar = true) :
    chars.flatMap encodeChar = chars := by
  induction chars with
  | nil => rfl
  | cons c chars ih =>
    obtain ⟨hc, hchars⟩ : isSymbolChar c = true ∧ chars.all isSymbolChar = true := by simpa using h
    rw [List.flatMap_cons, ih hchars]
    simp [encodeChar, hc]

/-- A text that could be a symbol is its own symbol. -/
theorem ofName_of_all {text : String} (h : text.toList.all isSymbolChar = true) :
    ofName text = text := by
  have hne : ∀ {mark : String}, mark.toList.all isSymbolChar = false → text ≠ mark := by
    rintro mark hmark rfl
    cases h.symm.trans hmark
  simp only [ofName]
  rw [if_neg (hne rfl), if_neg (hne rfl), if_neg (hne rfl), flatMap_encodeChar h, String.ofList_toList]

/-- A symbol with a mark in front is a symbol. -/
theorem ofName_append_ofName {mark : String} (h : mark.toList.all isSymbolChar = true) (name : String) :
    ofName (mark ++ ofName name) = mark ++ ofName name := by
  apply ofName_of_all
  rw [String.toList_append, List.all_append, h, all_isSymbolChar_ofName]
  rfl

end StoryAsm.Symbol
