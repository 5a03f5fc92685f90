import Mathlib.Data.List.Forall2
import Mathlib.Data.List.Perm.Basic
import StoryAsm.Proofs.Story.Introduced
import StoryAsm.Proofs.Story.Numbering
import StoryAsm.Proofs.Table

/-!
# The vocabulary

The words that a story accepted are a list with the entries that were added to each (`Lexeme`); they are
the words that the story has, whichever calls are made (`Story.words_after`). In the data segment they
stand in the order of their texts, one record for each, and all records have the same length
(`Story.VocabularyWritten`).
-/

namespace StoryAsm

open Text

/-! ## Stable order -/

/-- The list in ascending order of the keys, where elements with the same key stay in their order. -/
structure Ordered {α : Type} (key : α → String) (xs ordered : List α) : Prop where
  perm : ordered.Perm xs
  ascending : ordered.Pairwise fun a b => key a ≤ key b
  stable : ∀ text, (ordered.filter fun x => key x = text) = xs.filter fun x => key x = text

theorem ordered_mergeSort {α : Type} (key : α → String) (xs : List α) :
    Ordered key xs (xs.mergeSort fun a b => decide (key a ≤ key b)) := by
  have htrans : ∀ a b c : α, decide (key a ≤ key b) = true → decide (key b ≤ key c) = true →
      decide (key a ≤ key c) = true := by
    intro a b c hab hbc
    exact decide_eq_true (String.le_trans (of_decide_eq_true hab) (of_decide_eq_true hbc))
  have htotal : ∀ a b : α, (decide (key a ≤ key b) || decide (key b ≤ key a)) = true := by
    intro a b
    rw [Bool.or_eq_true, decide_eq_true_eq, decide_eq_true_eq]
    exact String.le_total (key a) (key b)
  have hperm := List.mergeSort_perm xs fun a b => decide (key a ≤ key b)
  refine ⟨hperm, (List.pairwise_mergeSort htrans htotal xs).imp of_decide_eq_true, fun text => ?_⟩
  -- Elements with one key are in order already, so sorting keeps them as a sublist.
  have hsame : (xs.filter fun x => key x = text).Pairwise fun a b => decide (key a ≤ key b) = true := by
    refine List.pairwise_of_forall_mem_list fun a ha b hb => ?_
    have hkey : key a = key b :=
      (of_decide_eq_true (List.mem_filter.mp ha).2).trans (of_decide_eq_true (List.mem_filter.mp hb).2).symm
    exact decide_eq_true (hkey ▸ String.le_refl _)
  have hsub := (List.sublist_mergeSort htrans htotal hsame List.filter_sublist).filter
    fun x => decide (key x = text)
  simp only [List.filter_filter, Bool.and_self] at hsub
  exact (hsub.eq_of_length (hperm.filter _).length_eq.symm).symm

/-! ## Accepted words -/

/-- A word that was accepted, as it was given, and the entries that were added to its table. -/
structure Lexeme where
  word : String
  entries : List Entry
  deriving DecidableEq

namespace Lexeme

/-- The dictionary text. -/
def text (lexeme : Lexeme) : String :=
  lowerCase lexeme.word

def symbol (lexeme : Lexeme) : String :=
  Story.wordSymbol lexeme.word

def values (lexeme : Lexeme) : List (Width × String) :=
  lexeme.entries.map (·.value)

def add (added : List Entry) (lexeme : Lexeme) : Lexeme :=
  { lexeme with entries := lexeme.entries ++ added }

/-- The word that the story has for it. -/
def entry (lexeme : Lexeme) : Word where
  table := (Table.new lexeme.symbol true).add lexeme.entries
  text := lexeme.text

theorem entry_add (added : List Entry) (lexeme : Lexeme) :
    (lexeme.add added).entry = { lexeme.entry with table := lexeme.entry.table.add added } := by
  simp [entry, add, Table.add, symbol, text]

theorem name_entry (lexeme : Lexeme) : lexeme.entry.table.name = lexeme.symbol :=
  Table.name_add _ lexeme.entries

theorem entries_entry (lexeme : Lexeme) : lexeme.entry.table.entries.toList = lexeme.entries :=
  Table.entries_add _ lexeme.entries

theorem size_entry (lexeme : Lexeme) : lexeme.entry.table.size = byteCount lexeme.values := by
  rw [Table.size_eq, entries_entry]
  rfl

end Lexeme

namespace Story

/-- The accepted words after the call. -/
def Call.enter (story : Story) (lexicon : List Lexeme) : Call → List Lexeme
  | .define (.word word) =>
    match (Call.define (.word word)).result story with
    | .ok _ => lexicon ++ [⟨word, []⟩]
    | .error _ => lexicon
  | .wordEntries id added => lexicon.modify id.index (·.add added)
  | _ => lexicon

/-- The accepted words after calls, where `lexicon` are those before. -/
def lexiconFrom (story : Story) (lexicon : List Lexeme) : List Call → List Lexeme
  | [] => lexicon
  | call :: calls => (call.next story).lexiconFrom (call.enter story lexicon) calls

/-- The words that calls define and that are accepted, in their order. -/
def lexicon (story : Story) (calls : List Call) : List Lexeme :=
  story.lexiconFrom [] calls

/-- The call defines a word or adds to the table of one. -/
inductive Call.OnWords : Call → Prop where
  | define (word : String) : OnWords (.define (.word word))
  | entries (id : WordId) (added : List Entry) : OnWords (.wordEntries id added)

variable {story : Story} {lexicon : List Lexeme}

/-- What a call does to the words, it does to the accepted words. -/
theorem Call.words_next (call : Call) (h : story.words.toList = lexicon.map (·.entry)) :
    (call.next story).words.toList = (call.enter story lexicon).map (·.entry) := by
  cases hrefusal : call.refusal story with
  | some error =>
    have henter : call.enter story lexicon = lexicon := by
      cases call with
      | define definition =>
        cases definition with
        | word word => simp only [enter, result_of_refusal_eq_some hrefusal]
        | _ => rfl
      | wordEntries => cases hrefusal
      | _ => rfl
    obtain ⟨registry, hleft⟩ := call.exists_left story
    rw [next_of_refusal_eq_some hrefusal, hleft, henter]
    exact h
  | none =>
    rw [next_of_refusal_eq_none hrefusal]
    cases call with
    | define definition =>
      cases definition with
      | word word =>
        simp only [enter, result_of_refusal_eq_none hrefusal]
        show (story.words.push _).toList = _
        rw [Array.toList_push, h, List.map_append]
        rfl
      | _ => exact h
    | wordEntries id added =>
      simp only [enter, changed, Array.toList_modify, h]
      apply List.ext_getElem?
      intro index
      simp only [List.getElem?_modify, List.getElem?_map]
      split
      · cases lexicon[index]? with
        | none => rfl
        | some lexeme => exact congrArg some (lexeme.entry_add added).symm
      · cases lexicon[index]? <;> rfl
    | sequencePoint | finishRoutine | registry =>
      simp only [changed]
      split <;> exact h
    | _ => exact h

theorem words_after (calls : List Call) (h : story.words.toList = lexicon.map (·.entry)) :
    (story.after calls).words.toList = (story.lexiconFrom lexicon calls).map (·.entry) := by
  induction calls generalizing story lexicon with
  | nil => exact h
  | cons call calls ih => exact ih (call.words_next h)

theorem words_lexicon {number : Int} {wantsDebug : Bool} {start : Story}
    (hstart : Story.new number wantsDebug = .ok start) (calls : List Call) :
    (start.after calls).words.toList = (start.lexicon calls).map (·.entry) := by
  obtain ⟨version, -, h⟩ := bind_eq_ok.mp hstart
  obtain rfl := Except.ok.inj h
  exact words_after calls rfl

end Story

/-! ## Records -/

/-- A record of the dictionary: its label, its text and the directives up to the next one. -/
structure DictionaryRecord where
  symbol : String
  text : String
  directives : List Statement

def DictionaryRecord.statements (record : DictionaryRecord) : List Statement :=
  .label record.symbol :: .dictionaryWord record.text :: record.directives

/-- The record is that of the word: its data are the values of the word, and zeros up to the size. -/
structure DictionaryRecord.Of (size : Nat) (lexeme : Lexeme) (record : DictionaryRecord) : Prop where
  symbol_eq : record.symbol = lexeme.symbol
  text_eq : record.text = lexeme.text
  data : ∀ statement ∈ record.directives, ∃ width values, statement = .data width values
  values : ∃ zeros, valuesOf record.directives = lexeme.values ++ List.replicate zeros (.byte, "0")
  size_eq : byteCount (valuesOf record.directives) = size

namespace Lexeme

/-- The record that is written for the word. -/
def record (size : Nat) (lexeme : Lexeme) : DictionaryRecord where
  symbol := lexeme.symbol
  text := lexeme.text
  directives := lexeme.entry.table.body ++
    List.replicate (size - lexeme.entry.table.size) (.data .byte ["0"])

theorem valuesOf_record (size : Nat) (lexeme : Lexeme) :
    valuesOf (lexeme.record size).directives =
      lexeme.values ++ List.replicate (size - lexeme.entry.table.size) (.byte, "0") := by
  have hzeros : ∀ count, valuesOf (List.replicate count (.data .byte ["0"])) =
      List.replicate count (.byte, "0") := by
    intro count
    induction count with
    | zero => rfl
    | succ count ih =>
      rw [List.replicate_succ, List.replicate_succ, ← ih]
      rfl
  rw [record, valuesOf_append, Table.valuesOf_body, hzeros, entries_entry]
  rfl

theorem statements_record (size : Nat) (lexeme : Lexeme) :
    (lexeme.record size).statements = lexeme.entry.statements size := by
  rw [Word.statements, name_entry]
  rfl

theorem of_record {size : Nat} {lexeme : Lexeme} (h : byteCount lexeme.values ≤ size) :
    (lexeme.record size).Of size lexeme where
  symbol_eq := rfl
  text_eq := rfl
  data statement hmem := by
    rcases List.mem_append.mp hmem with hmem | hmem
    · obtain ⟨run, -, rfl⟩ := List.mem_map.mp hmem
      exact ⟨_, _, rfl⟩
    · exact ⟨_, _, List.eq_of_mem_replicate hmem⟩
  values := ⟨_, lexeme.valuesOf_record size⟩
  size_eq := by
    rw [valuesOf_record, byteCount_append, byteCount_replicate, size_entry]
    simp only [Width.bytes]
    omega

end Lexeme

/-! ## The greatest size -/

/-- The greatest of the sizes, or zero if there are none. -/
structure IsLargest (sizes : List Nat) (largest : Nat) : Prop where
  le : ∀ size ∈ sizes, size ≤ largest
  mem : sizes ≠ [] → largest ∈ sizes
  zero : sizes = [] → largest = 0

theorem isLargest_foldl_max (sizes : List Nat) : IsLargest sizes (sizes.foldl max 0) := by
  have hfold : ∀ (sizes : List Nat) (start : Nat), start ≤ sizes.foldl max start ∧
      (∀ size ∈ sizes, size ≤ sizes.foldl max start) ∧
      (sizes.foldl max start = start ∨ sizes.foldl max start ∈ sizes) := by
    intro sizes
    induction sizes with
    | nil => exact fun start => ⟨Nat.le_refl start, by simp, .inl rfl⟩
    | cons size sizes ih =>
      intro start
      obtain ⟨hstart, hall, hmem⟩ := ih (max start size)
      refine ⟨Nat.le_trans (Nat.le_max_left _ _) hstart, ?_, ?_⟩
      · intro other hother
        rcases List.mem_cons.mp hother with rfl | hother
        · exact Nat.le_trans (Nat.le_max_right _ _) hstart
        · exact hall other hother
      · rw [List.foldl_cons]
        grind
  obtain ⟨-, hall, hmem⟩ := hfold sizes 0
  refine ⟨hall, fun hne => ?_, fun hnil => by rw [hnil]; rfl⟩
  rcases hmem with hzero | hmem
  · -- All sizes are zero then.
    obtain ⟨size, hsize⟩ := List.exists_mem_of_ne_nil sizes hne
    have hle := hall size hsize
    rw [hzero] at hle ⊢
    exact Nat.le_zero.mp hle ▸ hsize
  · exact hmem

namespace Story

variable {story : Story} {lexicon : List Lexeme}

theorem isLargest_wordDataSize (h : story.words.toList = lexicon.map (·.entry)) :
    IsLargest (lexicon.map fun lexeme => byteCount lexeme.values) story.wordDataSize := by
  have hsize : story.wordDataSize = (lexicon.map fun lexeme => byteCount lexeme.values).foldl max 0 := by
    rw [wordDataSize, ← Array.foldl_toList, h, List.foldl_map, List.foldl_map]
    simp only [Lexeme.size_entry]
  rw [hsize]
  exact isLargest_foldl_max _

theorem sortedWords_eq (h : story.words.toList = lexicon.map (·.entry)) :
    story.sortedWords = (lexicon.mergeSort fun a b => decide (a.text ≤ b.text)).map (·.entry) := by
  rw [sortedWords, h]
  symm
  apply List.map_mergeSort
  intro first _ second _
  rfl

/-! ## The dictionary in the data segment -/

/-- The head of the dictionary: the separators, the length of the records and their number. -/
def dictionaryHead (length count : Nat) : List Statement :=
  [.data .byte ["3"], .data .byte ["46", "44", "34"], .data .byte [toString length],
    .data .word [toString count]]

/-- The data segment has a dictionary of the words. Behind its label and its head are the records, in the
order of the texts, up to the next blank line. -/
def VocabularyWritten (version : Version) (lexicon : List Lexeme) (data : List Statement) : Prop :=
  ∃ (before rest : List Statement) (largest : Nat) (ordered : List Lexeme)
    (records : List DictionaryRecord),
    data = before ++ .label "VOCAB" :: dictionaryHead (version.zwordBytes + largest) records.length ++
      records.flatMap (·.statements) ++ rest ∧
    .label "VOCAB" ∉ before ∧ rest.head? = some .blank ∧
    IsLargest (lexicon.map fun lexeme => byteCount lexeme.values) largest ∧
    Ordered Lexeme.text lexicon ordered ∧
    List.Forall₂ (fun lexeme record => record.Of largest lexeme) ordered records

theorem vocabulary_eq (h : story.words.toList = lexicon.map (·.entry)) :
    story.vocabulary =
      dictionaryHead (story.version.zwordBytes + story.wordDataSize) lexicon.length ++
        ((lexicon.mergeSort fun a b => decide (a.text ≤ b.text)).map
          (·.record story.wordDataSize)).flatMap (·.statements) := by
  have hcount : story.words.size = lexicon.length := by
    rw [← Array.length_toList, h, List.length_map]
  rw [vocabulary, sortedWords_eq h, hcount, List.flatMap_map, List.flatMap_map]
  simp only [Lexeme.statements_record]
  rfl

theorem mem_symbols_of_label {name : String} {statements : List Statement}
    (h : .label name ∈ statements) : name ∈ statements.filterMap Statement.symbol? :=
  List.mem_filterMap.mpr ⟨.label name, h, rfl⟩

theorem label_notMem_tables (h : story.Consistent) (isPure : Bool) :
    .label "VOCAB" ∉ story.tableStatements isPure := by
  intro hmem
  have hname := mem_symbols_of_label hmem
  rw [symbols_tables] at hname
  have hall : "VOCAB" ∈ story.tables.toList.map (·.name) :=
    (List.filter_sublist.map _).subset hname
  rw [h.tables] at hall
  obtain ⟨index, -, heq⟩ := List.mem_map.mp hall
  have hhead := congrArg (·.toList.head?) heq
  rw [show s!"TBL?{index}" = "TBL?" ++ toString index from rfl] at hhead
  simp at hhead

theorem label_notMem_propertyTables {tables : List Statement} (h : story.propertyTables = .ok tables) :
    .label "VOCAB" ∉ tables := by
  intro hmem
  have hname := mem_symbols_of_label hmem
  rw [symbols_propertyTables h] at hname
  obtain ⟨object, -, heq⟩ := List.mem_map.mp hname
  have hhead := congrArg (·.toList.head?) heq
  simp at hhead

theorem head?_tableStatements_append (story : Story) (isPure : Bool) (rest : List Statement) :
    (story.tableStatements isPure ++ .blank :: rest).head? = some .blank := by
  rw [tableStatements]
  cases story.tables.toList.filter (·.isPure == isPure) <;> rfl

theorem vocabularyWritten_of_dataStatements {data : List Statement} (hconsistent : story.Consistent)
    (h : story.words.toList = lexicon.map (·.entry)) (hdata : story.dataStatements = .ok data) :
    VocabularyWritten story.version lexicon data := by
  obtain ⟨tables, htables, hdata⟩ := bind_eq_ok.mp hdata
  obtain rfl := Except.ok.inj hdata
  have hordered := ordered_mergeSort Lexeme.text lexicon
  have hlargest := isLargest_wordDataSize h
  refine ⟨story.assignments ++ [.blank, .label "GLOBAL"] ++ story.orderedGlobals.map (·.statement) ++
      [.blank, .label "OBJECT"] ++ story.objectStatements ++ tables ++ story.tableStatements false ++
      [.blank, .label "IMPURE", .blank], story.tableStatements true ++ .blank :: .label "ENDLOD" ::
      (if story.wantsDebug then .blank :: story.debugRecords.map .debug else []),
    story.wordDataSize, lexicon.mergeSort fun a b => decide (a.text ≤ b.text),
    (lexicon.mergeSort fun a b => decide (a.text ≤ b.text)).map (·.record story.wordDataSize),
    ?_, ?_, story.head?_tableStatements_append _ _, hlargest, hordered, ?_⟩
  · rw [vocabulary_eq h, List.length_map, List.length_mergeSort]
    simp only [List.append_assoc, List.cons_append, List.nil_append]
  · have htables' := label_notMem_propertyTables htables
    have hfalse := label_notMem_tables hconsistent false
    simp only [List.mem_append, not_or]
    refine ⟨⟨⟨⟨⟨⟨⟨?_, by decide⟩, ?_⟩, by decide⟩, ?_⟩, htables'⟩, hfalse⟩, by decide⟩
    · simp [assignments]
    · simp [Global.statement]
    · simp [objectStatements, Object.record]
  · rw [List.forall₂_map_right_iff]
    refine List.forall₂_same.mpr fun lexeme hmem => Lexeme.of_record (hlargest.le _ ?_)
    exact List.mem_map_of_mem (hordered.perm.mem_iff.mp hmem)

theorem Call.OnWords.objects_next {call : Call} (h : call.OnWords) (story : Story) :
    (call.next story).objects = story.objects := by
  cases hrefusal : call.refusal story with
  | some error =>
    rw [next_of_refusal_eq_some hrefusal]
    cases h <;> rfl
  | none =>
    rw [next_of_refusal_eq_none hrefusal]
    cases h <;> rfl

/-- Calls on words leave nothing that could not be written. -/
theorem tablesFit_of_onWords {calls : List Call} (h : ∀ call ∈ calls, call.OnWords)
    (hbare : story.objects = #[]) : (story.after calls).TablesFit := by
  induction calls generalizing story with
  | nil =>
    intro object hmem
    rw [show (story.after []).objects = #[] from hbare] at hmem
    exact absurd hmem (Array.not_mem_empty object)
  | cons call calls ih =>
    have hnext := (h call List.mem_cons_self).objects_next story
    exact ih (fun call' hmem => h call' (List.mem_cons_of_mem _ hmem)) (hnext.trans hbare)

theorem version_after (calls : List Call) (story : Story) : (story.after calls).version = story.version :=
  after_induction (P := fun reached => reached.version = story.version)
    (fun reached call h => (call.version_next reached).trans h) calls rfl

/-- **The vocabulary is well formed**: whichever calls are made on a new story, its data segment has a
dictionary with one record for each word that was accepted, in the order of their texts, and all records
have the same length. Calls on words alone can always be written. -/
theorem vocabularyWritten_after (number : Int) (wantsDebug : Bool) {start : Story}
    (hstart : Story.new number wantsDebug = .ok start) (calls : List Call) :
    (∀ base keeps fault, ((start.after calls).output base keeps fault).1 = .ok () →
      ∃ data, ((start.after calls).output base keeps fault).2.data = some (sourceText data) ∧
        VocabularyWritten start.version (start.lexicon calls) data) ∧
    ((∀ call ∈ calls, call.OnWords) → ∀ base keeps,
      ((start.after calls).output base keeps fun _ _ => none).1 = .ok ()) := by
  constructor
  · intro base keeps fault hok
    obtain ⟨data, hdata, -, hwritten⟩ := exists_output_eq_sourceText hok
    refine ⟨data, hwritten, ?_⟩
    have hconsistent := (((orderly_new hstart).after calls).after (start.after calls).closings).consistent
    have hversion : (start.after calls).closed.version = start.version :=
      (sameNames_closed (start.after calls)).version.trans (version_after calls start)
    obtain ⟨routines, registry, log, hclosed⟩ := (start.after calls).exists_closed
    have hwords : (start.after calls).closed.words.toList = (start.lexicon calls).map (·.entry) := by
      rw [hclosed]
      exact words_lexicon hstart calls
    rw [← hversion]
    exact vocabularyWritten_of_dataStatements hconsistent hwords hdata
  · intro hwords base keeps
    have hbare : start.objects = #[] := by
      obtain ⟨version, -, h⟩ := bind_eq_ok.mp hstart
      obtain rfl := Except.ok.inj h
      rfl
    exact output_eq_ok (tablesFit_of_onWords hwords hbare) base keeps

/-- A word with data, another spelling of it, and a word that comes before it in the dictionary. -/
def lampWords : List Call :=
  [.define (.word "Lamp"), .wordEntries ⟨0⟩ [.byte 128, .wordOperand (.symbol "LAMP")],
    .define (.word "LAMP"), .define (.word "cat"), .wordEntries ⟨1⟩ [.byte 16]]

theorem vocabularyWritten_lampWords :
    ∃ start, Story.new 3 false = .ok start ∧ (∀ call ∈ lampWords, call.OnWords) ∧
      ∀ base keeps, ∃ data,
        ((start.after lampWords).output base keeps fun _ _ => none).2.data = some (sourceText data) ∧
        VocabularyWritten start.version
          [⟨"Lamp", [.byte 128, .wordOperand (.symbol "LAMP")]⟩, ⟨"cat", [.byte 16]⟩] data := by
  obtain ⟨start, hstart, hlexicon⟩ : ∃ start, Story.new 3 false = .ok start ∧
      start.lexicon lampWords =
        [⟨"Lamp", [.byte 128, .wordOperand (.symbol "LAMP")]⟩, ⟨"cat", [.byte 16]⟩] :=
    ⟨_, rfl, by decide +kernel⟩
  have hwords : ∀ call ∈ lampWords, call.OnWords := by
    simp [lampWords, Call.OnWords.define, Call.OnWords.entries]
  obtain ⟨hwritten, hok⟩ := vocabularyWritten_after 3 false hstart lampWords
  refine ⟨start, hstart, hwords, fun base keeps => ?_⟩
  rw [← hlexicon]
  exact hwritten base keeps _ (hok hwords base keeps)

end Story

end StoryAsm
