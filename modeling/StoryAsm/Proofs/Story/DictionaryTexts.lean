import StoryAsm.Proofs.Story.Generated
import StoryAsm.Proofs.Story.Vocabulary
import StoryAsm.Proofs.Symbol.Name
import StoryAsm.Proofs.Text.Casing

/-!
# Dictionary texts

Words are told apart by their symbols, which are in upper case, and they are written in lower case. Words
with the same text have the same symbol, so only one of them is accepted, unless one holds a capital whose
lower case has another upper case (`HasOrphan`). Without such words the texts of the dictionary are strictly
ascending. A word with such a capital is accepted beside its own lower case
(`Story.distinctTexts_after`).
-/

namespace StoryAsm

open Text

/-! ## Symbols of words -/

/-- The word holds a capital whose lower case has another upper case. -/
def HasOrphan (word : String) : Prop :=
  ∃ c ∈ word.toList, c ∈ orphanCapitals

namespace Symbol

theorem orphan_mem_encodeChar {c d : Char} (hc : c ∈ orphanCapitals) : c ∈ encodeChar d ↔ c = d := by
  have hsymbol : orphanCapitals.all isSymbolChar = true := by decide +kernel
  have hall : orphanCapitals.all (fun c => !c.isAlphanum && c != '$' && c != '0') = true := by decide
  have hascii := List.all_eq_true.mp hall c hc
  simp only [Bool.and_eq_true, Bool.not_eq_true', bne_iff_ne] at hascii
  obtain ⟨⟨halphanum, hdollar⟩, hzero⟩ := hascii
  unfold encodeChar
  split
  case isTrue => exact List.mem_singleton
  case isFalse hd =>
    constructor
    · intro h
      rw [escapeChar, List.mem_cons, List.leftpad, List.mem_append] at h
      rcases h with h | h | h
      · exact absurd h hdollar
      · exact absurd (List.eq_of_mem_replicate h) hzero
      · rw [isAlphanum_of_mem_toDigits h] at halphanum
        cases halphanum
    · rintro rfl
      exact absurd (List.all_eq_true.mp hsymbol c hc) hd

/-- Orphans are kept in symbols. -/
theorem orphan_mem_ofName {c : Char} (hc : c ∈ orphanCapitals) (name : String) :
    c ∈ (ofName name).toList ↔ c ∈ name.toList := by
  have hmark : ∀ {text : String}, text.toList.all (·.toNat < 128) = true → c ∉ text.toList :=
    orphan_notMem_of_ascii hc
  unfold ofName
  split
  case isTrue h => exact iff_of_false (hmark (by decide)) (h ▸ hmark (by decide))
  split
  case isTrue h => exact iff_of_false (hmark (by decide)) (h ▸ hmark (by decide))
  split
  case isTrue h => exact iff_of_false (hmark (by decide)) (h ▸ hmark (by decide))
  case isFalse =>
    simp only [String.toList_ofList, List.mem_flatMap, orphan_mem_encodeChar hc, exists_eq_right']

end Symbol

namespace Story

/-- The symbol of a word is that of its lower case, unless the word has an orphan. -/
theorem wordSymbol_lowerCase_eq_iff (word : String) :
    wordSymbol (lowerCase word) = wordSymbol word ↔ ¬HasOrphan word := by
  constructor
  · rintro heq ⟨c, hmem, hc⟩
    have hsymbol : c ∈ (wordSymbol word).toList := by
      rw [wordSymbol, String.toList_append, List.mem_append, Symbol.orphan_mem_ofName hc]
      exact .inr (orphan_mem_upperCase hc hmem)
    rw [← heq, wordSymbol, String.toList_append, List.mem_append, Symbol.orphan_mem_ofName hc] at hsymbol
    rcases hsymbol with hsymbol | hsymbol
    · exact orphan_notMem_of_ascii hc (by decide) hsymbol
    · exact orphan_notMem_upperCase_lowerCase word hc hsymbol
  · intro h
    rw [wordSymbol, upperCase_lowerCase fun c hmem hc => h ⟨c, hmem, hc⟩, wordSymbol]

end Story

theorem Lexeme.symbol_eq_of_text_eq {a b : Lexeme} (h : a.text = b.text) (ha : ¬HasOrphan a.word)
    (hb : ¬HasOrphan b.word) : a.symbol = b.symbol := by
  have hlower : lowerCase a.word = lowerCase b.word := h
  calc Story.wordSymbol a.word = Story.wordSymbol (lowerCase a.word) :=
        ((Story.wordSymbol_lowerCase_eq_iff a.word).mpr ha).symm
    _ = Story.wordSymbol (lowerCase b.word) := by rw [hlower]
    _ = Story.wordSymbol b.word := (Story.wordSymbol_lowerCase_eq_iff b.word).mpr hb

/-! ## Texts in the data segment -/

/-- The text of a dictionary record. -/
def Statement.dictionaryText? : Statement → Option String
  | dictionaryWord text => some text
  | _ => none

theorem dictionaryText?_body {table : Table} {statement : Statement} (h : statement ∈ table.body) :
    statement.dictionaryText? = none := by
  obtain ⟨run, -, rfl⟩ := List.mem_map.mp h
  rfl

theorem dictionaryText?_propertyStatements {object : Object} {limit number : Nat} {value : PropertyValue}
    {statements : List Statement} (h : object.propertyStatements limit number value = .ok statements)
    {statement : Statement} (hmem : statement ∈ statements) : statement.dictionaryText? = none := by
  cases value with
  | byte operand | word operand =>
    cases h
    rw [List.mem_cons, List.mem_singleton] at hmem
    rcases hmem with rfl | rfl <;> rfl
  | table table =>
    simp only [Object.propertyStatements] at h
    split at h
    · cases h
    · cases h
      rcases List.mem_cons.mp hmem with rfl | hmem
      · rfl
      · exact dictionaryText?_body hmem

namespace Story

variable {story : Story} {lexicon : List Lexeme}

theorem dictionaryText?_tables (story : Story) (isPure : Bool) :
    ∀ statement ∈ story.tableStatements isPure, statement.dictionaryText? = none := by
  intro statement hmem
  obtain ⟨table, -, hmem⟩ := List.mem_flatMap.mp hmem
  rcases List.mem_cons.mp hmem with rfl | hmem
  · rfl
  · rcases List.mem_cons.mp hmem with rfl | hmem
    · rfl
    · exact dictionaryText?_body hmem

theorem dictionaryTexts_vocabulary (story : Story) :
    story.vocabulary.filterMap Statement.dictionaryText? = story.sortedWords.map (·.text) := by
  have hrecord : ∀ word : Word, ∀ size,
      (word.statements size).filterMap Statement.dictionaryText? = [word.text] := by
    intro word size
    have hbody : word.table.body.filterMap Statement.dictionaryText? = [] :=
      List.filterMap_eq_nil_iff.mpr fun _ hmem => dictionaryText?_body hmem
    have hzeros : ∀ count,
        List.filterMap Statement.dictionaryText? (List.replicate count (.data .byte ["0"])) = [] :=
      fun count => List.filterMap_eq_nil_iff.mpr fun statement hmem => by
        rw [List.eq_of_mem_replicate hmem]
        rfl
    rw [Word.statements, List.filterMap_append, List.filterMap_append, hbody, hzeros]
    rfl
  rw [vocabulary, List.filterMap_append]
  show (story.sortedWords.flatMap _).filterMap Statement.dictionaryText? = _
  rw [List.filterMap_flatMap]
  induction story.sortedWords with
  | nil => rfl
  | cons word words ih =>
    rw [List.flatMap_cons, ih, List.map_cons]
    exact congrArg (· ++ words.map (·.text)) (hrecord word story.wordDataSize)

theorem dictionaryText?_propertyTables {tables : List Statement} (h : story.propertyTables = .ok tables) :
    ∀ statement ∈ tables, statement.dictionaryText? = none := by
  obtain ⟨all, hall, h⟩ := bind_eq_ok.mp h
  cases h
  intro statement hmem
  obtain ⟨table, htable, hmem⟩ := List.mem_flatMap.mp hmem
  obtain ⟨object, -, hstatements⟩ := exists_of_mem_mapM hall htable
  obtain ⟨properties, hproperties, hstatements⟩ := bind_eq_ok.mp hstatements
  cases hstatements
  simp only [List.mem_cons, List.mem_append, List.cons_append, List.not_mem_nil, or_false] at hmem
  rcases hmem with rfl | rfl | rfl | hmem | rfl
  · rfl
  · rfl
  · cases object.description <;> rfl
  · obtain ⟨statements, hvalue, hmem⟩ := List.mem_flatten.mp hmem
    obtain ⟨entry, -, hvalue⟩ := exists_of_mem_mapM hproperties hvalue
    exact dictionaryText?_propertyStatements hvalue hmem
  · rfl

/-- The texts of the data segment are those of the words. -/
theorem dictionaryTexts_data {data : List Statement} (hdata : story.dataStatements = .ok data) :
    data.filterMap Statement.dictionaryText? = story.sortedWords.map (·.text) := by
  obtain ⟨tables, htables, hdata⟩ := bind_eq_ok.mp hdata
  obtain rfl := Except.ok.inj hdata
  have hmap : ∀ {ι : Type} {f : ι → Statement}, (∀ x, (f x).dictionaryText? = none) →
      ∀ xs : List ι, (xs.map f).filterMap Statement.dictionaryText? = [] :=
    filterMap_map_eq_nil Statement.dictionaryText?
  have hassignments : story.assignments.filterMap Statement.dictionaryText? = [] := by
    simp only [assignments, List.filterMap_append]
    rw [hmap fun _ => rfl, hmap fun _ => rfl, hmap fun _ => rfl, hmap fun _ => rfl]
    rfl
  have hobjects : story.objectStatements.filterMap Statement.dictionaryText? = [] := by
    rw [objectStatements, List.filterMap_append, hmap fun _ => rfl, hmap fun _ => rfl]
    rfl
  have hproperties : tables.filterMap Statement.dictionaryText? = [] :=
    List.filterMap_eq_nil_iff.mpr (dictionaryText?_propertyTables htables)
  have htableStatements : ∀ isPure,
      (story.tableStatements isPure).filterMap Statement.dictionaryText? = [] := fun isPure =>
    List.filterMap_eq_nil_iff.mpr (story.dictionaryText?_tables isPure)
  have hdebug : List.filterMap Statement.dictionaryText?
      (if story.wantsDebug then .blank :: story.debugRecords.map .debug else []) = [] := by
    split
    · exact hmap (fun _ => rfl) story.debugRecords
    · rfl
  have hmark : ∀ name, List.filterMap Statement.dictionaryText? [.blank, .label name] = [] := fun _ => rfl
  simp only [List.filterMap_append, hassignments, hmap (f := Global.statement) fun _ => rfl, hobjects,
    hproperties, htableStatements, hdebug, hmark, dictionaryTexts_vocabulary, List.nil_append,
    List.append_nil]

/-! ## Accepted words -/

theorem nodup_symbols (hconsistent : story.Consistent) (h : story.words.toList = lexicon.map (·.entry)) :
    lexicon.Pairwise fun a b => a.symbol ≠ b.symbol := by
  have hnodup := hconsistent.nodup .word
  rw [names, h, List.map_map, List.map_congr_left fun lexeme _ => lexeme.name_entry] at hnodup
  exact List.pairwise_map.mp hnodup

/-- Only one of the words with a text is accepted, orphans apart. -/
theorem pairwise_text (hconsistent : story.Consistent) (h : story.words.toList = lexicon.map (·.entry)) :
    lexicon.Pairwise fun a b => a.text = b.text → HasOrphan a.word ∨ HasOrphan b.word := by
  refine (nodup_symbols hconsistent h).imp fun {a b} hsymbol htext => ?_
  by_contra hnone
  obtain ⟨ha, hb⟩ := not_or.mp hnone
  exact hsymbol (Lexeme.symbol_eq_of_text_eq htext ha hb)

theorem pairwise_lt_sortedWords (hconsistent : story.Consistent)
    (h : story.words.toList = lexicon.map (·.entry)) (hnone : ∀ lexeme ∈ lexicon, ¬HasOrphan lexeme.word) :
    (story.sortedWords.map (·.text)).Pairwise (· < ·) := by
  have hdistinct : (lexicon.map (·.text)).Nodup := by
    refine List.pairwise_map.mpr ((pairwise_text hconsistent h).imp_of_mem fun ha hb hapart htext => ?_)
    rcases hapart htext with horphan | horphan
    · exact hnone _ ha horphan
    · exact hnone _ hb horphan
  have hordered := ordered_mergeSort Lexeme.text lexicon
  rw [sortedWords_eq h, List.map_map]
  have hne := List.pairwise_map.mp ((hordered.perm.map (·.text)).nodup_iff.mpr hdistinct)
  exact List.pairwise_map.mpr ((hordered.ascending.and hne).imp fun hboth => Std.lt_of_le_of_ne hboth.1 hboth.2)

/-- What is written has the texts of the words. -/
theorem exists_dictionaryTexts {base : String} {keeps : Bool} {fault : Segment → Stage → Option DiskError}
    (hok : (story.output base keeps fault).1 = .ok ()) :
    ∃ data, (story.output base keeps fault).2.data = some (sourceText data) ∧
      data.filterMap Statement.dictionaryText? = story.sortedWords.map (·.text) := by
  obtain ⟨data, hdata, -, hwritten⟩ := exists_output_eq_sourceText hok
  obtain ⟨routines, registry, log, hclosed⟩ := story.exists_closed
  refine ⟨data, hwritten, ?_⟩
  rw [dictionaryTexts_data hdata, hclosed]
  rfl

/-! ## Two words -/

theorem Consistent.contains_iff (h : story.Consistent) (name : String) :
    story.symbols.contains name = true ↔ ∃ kind, name ∈ story.names kind := by
  rw [Definition.contains_iff_kind?]
  exact exists_congr fun kind => h.kinds name kind

theorem Call.enter_word (story : Story) (lexicon : List Lexeme) (word : String) :
    (Call.define (.word word)).enter story lexicon =
      if story.symbols.contains (wordSymbol word) then lexicon else lexicon ++ [⟨word, []⟩] := by
  cases hcontains : story.symbols.contains (wordSymbol word) with
  | true =>
    have hrefusal : (Call.define (.word word)).refusal story = some (.duplicateSymbol (wordSymbol word)) := by
      show Definition.rejection story (.word word) = _
      simp [Definition.rejection, Definition.refusal, Definition.symbol, hcontains]
    simp only [enter, result_of_refusal_eq_some hrefusal, if_true]
  | false =>
    have hrefusal : (Call.define (.word word)).refusal story = none :=
      Definition.rejection_eq_none_iff.mpr ⟨trivial, by simp [Definition.symbol, hcontains]⟩
    simp only [enter, result_of_refusal_eq_none hrefusal, Bool.false_eq_true, if_false]

/-- A new story takes a word, and then all words with another symbol. -/
theorem lexicon_pair {number : Int} {wantsDebug : Bool} {start : Story}
    (hstart : Story.new number wantsDebug = .ok start) (first second : String) :
    start.lexicon [.define (.word first), .define (.word second)] =
      if wordSymbol second = wordSymbol first then [⟨first, []⟩] else [⟨first, []⟩, ⟨second, []⟩] := by
  have horderly := orderly_new hstart
  have hfresh : ¬start.symbols.contains (wordSymbol first) = true := by
    rw [horderly.consistent.contains_iff]
    rintro ⟨kind, hmem⟩
    rw [names_new hstart kind] at hmem
    cases hmem
  have hrefusal : (Call.define (.word first)).refusal start = none :=
    Definition.rejection_eq_none_iff.mpr ⟨trivial, hfresh⟩
  have hnext : (Call.define (.word first)).next start = Definition.record start (.word first) :=
    Call.next_of_refusal_eq_none hrefusal
  have hcontains : ((Call.define (.word first)).next start).symbols.contains (wordSymbol second) = true ↔
      wordSymbol second = wordSymbol first := by
    rw [(horderly.next (.define (.word first))).consistent.contains_iff, hnext]
    simp only [Definition.names_record, names_new hstart]
    constructor
    · rintro ⟨kind, hmem⟩
      split at hmem
      · exact List.mem_singleton.mp hmem
      · cases hmem
    · intro heq
      exact ⟨.word, by simp [Definition.kind, Definition.symbol, heq]⟩
  show ((Call.define (.word second)).enter _ ((Call.define (.word first)).enter start [])) = _
  rw [Call.enter_word, Call.enter_word, if_neg hfresh]
  simp only [hcontains, List.nil_append]
  split <;> rfl

/-- **Texts and accepted words**: whichever calls are made on a new story, two accepted words have the same
text only if one of them has an orphan. The texts that are written are those of the accepted words, and
without orphans they are strictly ascending. A word with an orphan is accepted beside its lower case, and no
other word is. -/
theorem distinctTexts_after (number : Int) (wantsDebug : Bool) {start : Story}
    (hstart : Story.new number wantsDebug = .ok start) (calls : List Call) :
    ((start.lexicon calls).Pairwise fun a b => a.text = b.text → HasOrphan a.word ∨ HasOrphan b.word) ∧
    (∀ base keeps fault, ((start.after calls).output base keeps fault).1 = .ok () →
      ∃ data, ((start.after calls).output base keeps fault).2.data = some (sourceText data) ∧
        (data.filterMap Statement.dictionaryText?).Perm ((start.lexicon calls).map (·.text)) ∧
        ((∀ lexeme ∈ start.lexicon calls, ¬HasOrphan lexeme.word) →
          (data.filterMap Statement.dictionaryText?).Pairwise (· < ·))) ∧
    ∀ word, lowerCase (lowerCase word) = lowerCase word ∧
      (start.lexicon [.define (.word word), .define (.word (lowerCase word))] =
        [⟨word, []⟩, ⟨lowerCase word, []⟩] ↔ HasOrphan word) := by
  have hwords := words_lexicon hstart calls
  have hconsistent := ((orderly_new hstart).after calls).consistent
  refine ⟨pairwise_text hconsistent hwords, ?_, ?_⟩
  · intro base keeps fault hok
    obtain ⟨data, hwritten, htexts⟩ := exists_dictionaryTexts hok
    refine ⟨data, hwritten, ?_, fun horphans => ?_⟩
    · rw [htexts, sortedWords_eq hwords, List.map_map]
      exact (List.mergeSort_perm _ _).map _
    · rw [htexts]
      exact pairwise_lt_sortedWords hconsistent hwords horphans
  · intro word
    refine ⟨lowerCase_lowerCase word, ?_⟩
    rw [lexicon_pair hstart]
    split
    case isTrue h =>
      exact iff_of_false (fun heq => by cases heq) ((wordSymbol_lowerCase_eq_iff word).mp h)
    case isFalse h =>
      exact iff_of_true rfl (Classical.not_not.mp (mt (wordSymbol_lowerCase_eq_iff word).mpr h))

theorem distinctTexts_lampWords :
    ∃ start, Story.new 3 false = .ok start ∧
      (start.lexicon lampWords).map (·.word) = ["Lamp", "cat"] ∧
      (∀ lexeme ∈ start.lexicon lampWords, ¬HasOrphan lexeme.word) ∧
      ∀ base keeps, ∃ data,
        ((start.after lampWords).output base keeps fun _ _ => none).2.data = some (sourceText data) ∧
        (data.filterMap Statement.dictionaryText?).Perm ["lamp", "cat"] ∧
        (data.filterMap Statement.dictionaryText?).Pairwise (· < ·) := by
  obtain ⟨start, hstart, hbare, hlexicon⟩ : ∃ start, Story.new 3 false = .ok start ∧
      start.objects = #[] ∧ start.lexicon lampWords =
        [⟨"Lamp", [.byte 128, .wordOperand (.symbol "LAMP")]⟩, ⟨"cat", [.byte 16]⟩] :=
    ⟨_, rfl, rfl, by decide +kernel⟩
  have hnone : ∀ lexeme ∈ start.lexicon lampWords, ¬HasOrphan lexeme.word := by
    rintro lexeme hlexeme ⟨c, hmem, hc⟩
    have hascii : (start.lexicon lampWords).all (·.word.toList.all (·.toNat < 128)) = true := by
      rw [hlexicon]
      decide
    exact orphan_notMem_of_ascii hc (List.all_eq_true.mp hascii lexeme hlexeme) hmem
  have hwords : ∀ call ∈ lampWords, call.OnWords := by
    simp [lampWords, Call.OnWords.define, Call.OnWords.entries]
  refine ⟨start, hstart, by rw [hlexicon]; rfl, hnone, fun base keeps => ?_⟩
  have hok := output_eq_ok (tablesFit_of_onWords hwords hbare) base keeps
  obtain ⟨data, hwritten, hperm, hascending⟩ :=
    (distinctTexts_after 3 false hstart lampWords).2.1 base keeps _ hok
  rw [hlexicon] at hperm
  exact ⟨data, hwritten, hperm, hascending hnone⟩

/-- The letter k and the sign for kelvin are accepted both, and the dictionary has their text twice. -/
theorem sameText_kelvin :
    ∃ start, Story.new 3 false = .ok start ∧
      start.lexicon [.define (.word "k"), .define (.word "\u212a")] = [⟨"k", []⟩, ⟨"\u212a", []⟩] ∧
      ∀ base keeps, ∃ data,
        ((start.after [.define (.word "k"), .define (.word "\u212a")]).output base keeps
          fun _ _ => none).2.data = some (sourceText data) ∧
        data.filterMap Statement.dictionaryText? = ["k", "k"] := by
  obtain ⟨start, hstart, hbare, hlexicon, hwords⟩ : ∃ start, Story.new 3 false = .ok start ∧
      start.objects = #[] ∧
      start.lexicon [.define (.word "k"), .define (.word "\u212a")] = [⟨"k", []⟩, ⟨"\u212a", []⟩] ∧
      (start.after [.define (.word "k"), .define (.word "\u212a")]).words.toList.map (·.text) =
        List.replicate 2 "k" :=
    ⟨_, rfl, rfl, by decide +kernel, by decide +kernel⟩
  have honWords : ∀ call ∈ [Call.define (.word "k"), .define (.word "\u212a")], call.OnWords := by
    simp [Call.OnWords.define]
  refine ⟨start, hstart, hlexicon, fun base keeps => ?_⟩
  obtain ⟨data, hwritten, htexts⟩ :=
    exists_dictionaryTexts (output_eq_ok (tablesFit_of_onWords honWords hbare) base keeps)
  have hperm : (data.filterMap Statement.dictionaryText?).Perm (List.replicate 2 "k") := by
    rw [htexts, ← hwords]
    exact (List.mergeSort_perm _ _).map _
  exact ⟨data, hwritten, List.perm_replicate.mp hperm⟩

end Story

end StoryAsm
