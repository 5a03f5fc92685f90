import StoryAsm.Proofs.Story.Define
import StoryAsm.Story.Layout

/-!
# Symbols in the output

A symbol holds none of the characters with which the output sets off its parts, and it is its own
symbol, also behind the mark of properties. So a property is written under the very symbol that was
claimed for it (`Story.symbolKept_property`).
-/

namespace StoryAsm

/-- The characters that set off names in the output: blanks and line ends, and the marks of lists,
quoted texts, labels, values, stores, branches, references and directives. -/
def Statement.separators : List Char :=
  [' ', '\t', '\n', ',', '"', ':', '=', '>', '/', '\\', '\x27', '.']

namespace Symbol

open Text

theorem isSymbolChar_iff {c : Char} :
    isSymbolChar c = true ↔ isAlphanumeric c = true ∨ c ∈ ['?', '#', '-', '$'] := by
  simp [isSymbolChar, or_assoc]

theorem isSymbolChar_of_mem_ofName {name : String} {c : Char} (h : c ∈ (ofName name).toList) :
    isSymbolChar c = true :=
  List.all_eq_true.mp (all_isSymbolChar_ofName name) c h

theorem separator_notMem_ofName {c : Char} (hc : c ∈ Statement.separators) (name : String) :
    c ∉ (ofName name).toList := by
  have hall : Statement.separators.all (!isSymbolChar ·) = true := rfl
  intro hm
  have hsymbol := List.all_eq_true.mp hall c hc
  rw [isSymbolChar_of_mem_ofName hm] at hsymbol
  cases hsymbol

end Symbol

namespace Story

/-- A property that is accepted is written under the symbol that is claimed for it. -/
theorem property_of_defineProperty {story story' : Story} {name : String} {id : PropertyId}
    (h : (defineProperty name).run.run story = (.ok id, story')) :
    ∃ property, story'.properties = story.properties.push property ∧
      property.symbol = "P?" ++ Symbol.ofName name ∧
      story.symbols.define property.symbol .property = .ok story'.symbols ∧
      .assign property.symbol (toString property.number) ∈ story'.assignments := by
  rw [run_defineProperty] at h
  obtain ⟨hfits, hfresh⟩ := Definition.outcome_eq_ok h
  rw [Definition.outcome_of_fits hfits hfresh] at h
  cases h
  refine ⟨_, rfl, rfl, if_neg hfresh, ?_⟩
  simp only [assignments, List.mem_append, List.mem_map, List.mem_mergeSort]
  refine .inl (.inr ⟨_, Array.mem_toList_iff.mpr Array.mem_push_self, rfl⟩)

/-- The symbol of a name holds letters, digits and four marks only, and no separator of the output. It is
its own symbol, also with the mark of properties in front, so what is claimed for a property is what is
written for it. -/
theorem symbolKept_property (name : String) :
    (∀ c ∈ (Symbol.ofName name).toList,
      Text.isAlphanumeric c = true ∨ c ∈ ['?', '#', '-', '$']) ∧
    Symbol.ofName (Symbol.ofName name) = Symbol.ofName name ∧
    Symbol.ofName ("P?" ++ Symbol.ofName name) = "P?" ++ Symbol.ofName name ∧
    (∀ c ∈ Statement.separators, c ∉ (Symbol.ofName name).toList) ∧
    ∀ story story' id, (defineProperty name).run.run story = (.ok id, story') →
      ∃ property, story'.properties = story.properties.push property ∧
        property.symbol = "P?" ++ Symbol.ofName name ∧
        story.symbols.define property.symbol .property = .ok story'.symbols ∧
        .assign property.symbol (toString property.number) ∈ story'.assignments := by
  refine ⟨fun c hc => ?_, ?_, ?_, fun c hc => ?_, fun story story' id h => ?_⟩
  · exact Symbol.isSymbolChar_iff.mp (Symbol.isSymbolChar_of_mem_ofName hc)
  · exact Symbol.ofName_of_all (Symbol.all_isSymbolChar_ofName name)
  · exact Symbol.ofName_append_ofName rfl name
  · exact Symbol.separator_notMem_ofName hc name
  · exact property_of_defineProperty h

/-- A new story takes a property whose name holds a separator. -/
theorem symbolKept_property_tooBig :
    let start : Story := { version := { number := 3 }, wantsDebug := false }
    ∃ story' id, (defineProperty "TOO BIG?").run.run start = (.ok id, story') ∧
      ∃ property, story'.properties = start.properties.push property ∧
        property.symbol = "P?TOO$0020BIG?" ∧
        start.symbols.define property.symbol .property = .ok story'.symbols ∧
        .assign property.symbol (toString property.number) ∈ story'.assignments := by
  intro start
  have hsymbol : Symbol.ofName "TOO BIG?" = "TOO$0020BIG?" := by decide
  have hfits : (Definition.property "TOO BIG?").Fits start := by
    show start.properties.size < start.version.maxProperties
    decide
  have hfresh : ¬start.symbols.contains ((Definition.property "TOO BIG?").symbol start) = true := by
    simp [start, SymbolTable.contains]
  have hrun := (run_defineProperty start "TOO BIG?").trans (Definition.outcome_of_fits hfits hfresh)
  refine ⟨_, _, hrun, ?_⟩
  have hkept := (symbolKept_property "TOO BIG?").2.2.2.2 start _ _ hrun
  rwa [hsymbol] at hkept

end Story

end StoryAsm
