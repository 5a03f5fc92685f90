import StoryAsm.Proofs.Story.DictionaryTexts
import StoryAsm.Proofs.Story.Layout
import StoryAsm.Proofs.World.Flags
import StoryAsm.Proofs.World.Properties

/-!
# Numbers of the layout

Some numbers in the data segment are not given by a call but come from the layout: the words of flags of
an object, the sizes of properties, and the length and the number of the records of the dictionary. Flags
and properties always fit the directives that carry them (`Story.fits_of_mem_data`). The numbers of the
dictionary fit if and only if the words do, and there is no limit on the words (`Story.numbersFit_after`).
-/

namespace StoryAsm

open Text

/-- The words of flags and the size of a property fit, where `limit` is the greatest size. -/
def Statement.Fits (limit : Nat) : Statement → Prop
  | object _ flags _ _ _ _ => ∀ word ∈ flags, word ≤ 65535
  | property size _ => size ≤ limit
  | _ => True

theorem Table.fits_body (table : Table) (limit : Nat) : ∀ statement ∈ table.body, statement.Fits limit := by
  intro statement hmem
  obtain ⟨run, -, rfl⟩ := List.mem_map.mp hmem
  trivial

theorem Object.fits_written {entry : Nat × PropertyValue} {limit : Nat}
    (h : (written entry).size ≤ limit) :
    ∀ statement ∈ (written entry).statements, statement.Fits limit := by
  intro statement hmem
  rcases List.mem_cons.mp hmem with rfl | hmem
  · exact h
  · obtain ⟨width, values, rfl⟩ := data_written entry statement hmem
    trivial

theorem Object.fits_tableStatements {object : Object} {limit : Nat} {statements : List Statement}
    (hlimit : 2 ≤ limit) (h : object.tableStatements limit = .ok statements) :
    ∀ statement ∈ statements, statement.Fits limit := by
  have hfit := tablesFit_of_tableStatements h
  obtain ⟨shortName, hname, rfl⟩ := exists_of_tableStatements h
  intro statement hmem
  simp only [List.cons_append, List.mem_cons, List.mem_append, List.not_mem_nil, or_false] at hmem
  rcases hmem with rfl | rfl | hmem | rfl
  · trivial
  · cases hdescription : object.description with
    | none =>
      rw [hdescription] at hname
      cases hname
      trivial
    | some text =>
      rw [hdescription] at hname
      cases hname
      trivial
  · rw [List.flatMap_map] at hmem
    obtain ⟨entry, hentry, hmem⟩ := List.mem_flatMap.mp hmem
    have hbounds := bounds_written hlimit hfit (mem_sortedProperties.mp hentry)
    exact fits_written hbounds.2 statement hmem
  · trivial

namespace Story

variable {story : Story} {lexicon : List Lexeme}

theorem fits_objects (story : Story) (limit : Nat) :
    ∀ statement ∈ story.objectStatements, statement.Fits limit := by
  intro statement hmem
  rcases List.mem_append.mp hmem with hmem | hmem
  · obtain ⟨index, -, rfl⟩ := List.mem_map.mp hmem
    trivial
  · obtain ⟨object, -, rfl⟩ := List.mem_map.mp hmem
    exact List.forall_mem_map.mpr fun index _ => Nat.le_of_lt_succ (Object.flagWord_lt _ index)

theorem fits_propertyTables {tables : List Statement} (h : story.propertyTables = .ok tables) :
    ∀ statement ∈ tables, statement.Fits story.version.maxPropertyLength := by
  obtain ⟨all, hall, h⟩ := bind_eq_ok.mp h
  cases h
  intro statement hmem
  obtain ⟨table, htable, hmem⟩ := List.mem_flatMap.mp hmem
  obtain ⟨object, -, hstatements⟩ := exists_of_mem_mapM hall htable
  rcases List.mem_cons.mp hmem with rfl | hmem
  · trivial
  · exact Object.fits_tableStatements story.version.two_le_maxPropertyLength hstatements statement hmem

theorem fits_tables (story : Story) (isPure : Bool) (limit : Nat) :
    ∀ statement ∈ story.tableStatements isPure, statement.Fits limit := by
  intro statement hmem
  obtain ⟨table, -, hmem⟩ := List.mem_flatMap.mp hmem
  rcases List.mem_cons.mp hmem with rfl | hmem
  · trivial
  · rcases List.mem_cons.mp hmem with rfl | hmem
    · trivial
    · exact table.fits_body limit statement hmem

theorem fits_vocabulary (story : Story) (limit : Nat) :
    ∀ statement ∈ story.vocabulary, statement.Fits limit := by
  intro statement hmem
  rcases List.mem_append.mp hmem with hmem | hmem
  · simp only [List.mem_cons, List.not_mem_nil, or_false] at hmem
    rcases hmem with rfl | rfl | rfl | rfl <;> trivial
  · obtain ⟨word, -, hmem⟩ := List.mem_flatMap.mp hmem
    simp only [Word.statements, List.mem_append, List.mem_cons, List.not_mem_nil, or_false] at hmem
    rcases hmem with ((rfl | rfl) | hmem) | hmem
    · trivial
    · trivial
    · exact word.table.fits_body limit statement hmem
    · rw [List.eq_of_mem_replicate hmem]
      trivial

theorem fits_assignments (story : Story) (limit : Nat) :
    ∀ statement ∈ story.assignments, statement.Fits limit := by
  intro statement hmem
  simp only [assignments, List.mem_append, List.mem_map] at hmem
  rcases hmem with ((⟨name, -, rfl⟩ | ⟨flag, -, rfl⟩) | ⟨property, -, rfl⟩) | ⟨constant, -, rfl⟩ <;> trivial

/-- Flags and properties fit, whatever is in the story. -/
theorem fits_of_mem_data {data : List Statement} (hdata : story.dataStatements = .ok data) :
    ∀ statement ∈ data, statement.Fits story.version.maxPropertyLength := by
  have hglobals : ∀ statement ∈ story.orderedGlobals.map (·.statement),
      statement.Fits story.version.maxPropertyLength :=
    List.forall_mem_map.mpr fun _ _ => trivial
  exact forall_mem_data hdata trivial (fun _ => trivial) (story.fits_assignments _) hglobals
    (story.fits_objects _) fits_propertyTables (fun isPure => story.fits_tables isPure _)
    (story.fits_vocabulary _) fun _ _ _ => trivial

/-! ## The head of the dictionary -/

/-- The numbers of the layout, and the directives that they fit. -/
structure NumbersFit (version : Version) (lexicon : List Lexeme) (data : List Statement) : Prop where
  /-- The head of the dictionary has the length of its records in a byte, and the number of the words in a
  word. The length fits if the data of each word leave room for its text. -/
  dictionary : ∃ before rest length,
    data = before ++ .label "VOCAB" :: dictionaryHead length lexicon.length ++ rest ∧
    .label "VOCAB" ∉ before ∧
    (length ≤ 255 ↔ ∀ lexeme ∈ lexicon, version.zwordBytes + byteCount lexeme.values ≤ 255)
  flags : ∀ {name words parent sibling child table},
    .object name words parent sibling child table ∈ data → ∀ word ∈ words, word ≤ 65535
  properties : ∀ {size number}, .property size number ∈ data →
    size ≤ if version.number ≤ 3 then 8 else 64

theorem add_le_iff_of_isLargest {sizes : List Nat} {largest base bound : Nat}
    (h : IsLargest sizes largest) (hbase : base ≤ bound) :
    base + largest ≤ bound ↔ ∀ size ∈ sizes, base + size ≤ bound := by
  constructor
  · intro hle size hmem
    exact Nat.le_trans (Nat.add_le_add_left (h.le size hmem) base) hle
  · intro hall
    by_cases hnil : sizes = []
    · rw [h.zero hnil]
      exact hbase
    · exact hall largest (h.mem hnil)

theorem numbersFit_of_dataStatements {data : List Statement} (hconsistent : story.Consistent)
    (h : story.words.toList = lexicon.map (·.entry)) (hdata : story.dataStatements = .ok data) :
    NumbersFit story.version lexicon data where
  dictionary := by
    obtain ⟨before, rest, largest, ordered, records, rfl, hbefore, -, hlargest, hordered, hrecords⟩ :=
      vocabularyWritten_of_dataStatements hconsistent h hdata
    have hbase : story.version.zwordBytes ≤ 255 := by
      rw [Version.zwordBytes]
      split <;> decide
    have hcount : records.length = lexicon.length := hrecords.length_eq.symm.trans hordered.perm.length_eq
    refine ⟨before, records.flatMap (·.statements) ++ rest, story.version.zwordBytes + largest, ?_, hbefore, ?_⟩
    · rw [hcount, List.append_assoc]
    · rw [add_le_iff_of_isLargest hlargest hbase, List.forall_mem_map]
  flags hmem := fits_of_mem_data hdata _ hmem
  properties {size number} hmem := by
    have hsize : size ≤ story.version.maxPropertyLength := fits_of_mem_data hdata _ hmem
    rw [Version.maxPropertyLength] at hsize
    split at hsize <;> split <;> omega

/-! ## Many words -/

/-- All words are accepted that have symbols of their own. -/
theorem lexiconFrom_define (words : List String) (story : Story) (lexicon : List Lexeme)
    (hnodup : (words.map wordSymbol).Nodup)
    (hfresh : ∀ word ∈ words, ¬story.symbols.contains (wordSymbol word) = true) :
    story.lexiconFrom lexicon (words.map fun word => .define (.word word)) =
      lexicon ++ words.map fun word => ⟨word, []⟩ := by
  induction words generalizing story lexicon with
  | nil => exact (List.append_nil lexicon).symm
  | cons word words ih =>
    obtain ⟨hword, hrest⟩ := List.nodup_cons.mp hnodup
    have hnew := hfresh word List.mem_cons_self
    have hnext : (Call.define (.word word)).next story = Definition.record story (.word word) :=
      Call.next_of_refusal_eq_none (Definition.rejection_eq_none_iff.mpr ⟨trivial, hnew⟩)
    have hkept : ∀ other ∈ words,
        ¬(Definition.record story (.word word)).symbols.contains (wordSymbol other) = true := by
      intro other hother htaken
      rcases (Definition.contains_record ..).mp htaken with heq | htaken
      · exact hword (List.mem_map.mpr ⟨other, hother, heq.symm⟩)
      · exact hfresh other (.tail _ hother) htaken
    rw [List.map_cons, lexiconFrom, Call.enter_word, if_neg hnew, hnext, ih _ _ hrest hkept,
      List.append_assoc]
    rfl

/-- A word of the letter A alone. -/
def wordOfLength (length : Nat) : String :=
  String.ofList (List.replicate length 'A')

theorem wordSymbol_wordOfLength (length : Nat) :
    wordSymbol (wordOfLength length) = "W?" ++ wordOfLength length := by
  have hupper : upperCase (wordOfLength length) = wordOfLength length := by
    have hletter : upperChar 'A' = ['A'] := rfl
    rw [upperCase, wordOfLength, String.toList_ofList, List.flatMap_replicate, hletter,
      List.flatten_replicate_singleton]
  have hall : (wordOfLength length).toList.all Symbol.isSymbolChar = true := by
    rw [wordOfLength, String.toList_ofList, List.all_eq_true]
    intro c hc
    rw [List.eq_of_mem_replicate hc]
    rfl
  rw [wordSymbol, hupper, Symbol.ofName_of_all hall]

theorem nodup_wordSymbol (count : Nat) :
    (((List.range count).map wordOfLength).map wordSymbol).Nodup := by
  rw [List.map_map]
  refine List.nodup_range.map ?_
  intro length length' h
  simp only [Function.comp_apply, wordSymbol_wordOfLength] at h
  replace h := (String.append_right_inj "W?").mp h
  simpa [wordOfLength] using congrArg (·.toList.length) h

/-- A word with a number of zeros as data. -/
theorem byteCount_zeros (word : String) (size : Nat) :
    byteCount (Lexeme.values ⟨word, List.replicate size (.byte 0)⟩) = size := by
  rw [Lexeme.values, List.map_replicate, byteCount_replicate]
  exact Nat.mul_one size

/-- Calls that define a number of words and add data to the first. -/
def manyWords (count size : Nat) : List Call :=
  ((List.range (count + 1)).map wordOfLength).map (fun word => .define (.word word)) ++
    [.wordEntries ⟨0⟩ (List.replicate size (.byte 0))]

theorem onWords_manyWords (count size : Nat) : ∀ call ∈ manyWords count size, call.OnWords := by
  intro call hmem
  rcases List.mem_append.mp hmem with hmem | hmem
  · obtain ⟨word, -, rfl⟩ := List.mem_map.mp hmem
    exact .define word
  · rw [List.mem_singleton.mp hmem]
    exact .entries _ _

theorem lexiconFrom_append (calls calls' : List Call) (story : Story) (lexicon : List Lexeme) :
    story.lexiconFrom lexicon (calls ++ calls') =
      (story.after calls).lexiconFrom (story.lexiconFrom lexicon calls) calls' := by
  induction calls generalizing story lexicon with
  | nil => rfl
  | cons call calls ih => exact ih _ _

/-- The sizes of the data of these words. -/
theorem sizes_manyWords {number : Int} {wantsDebug : Bool} {start : Story}
    (hstart : Story.new number wantsDebug = .ok start) (count size : Nat) :
    (start.lexicon (manyWords count size)).map (fun lexeme => byteCount lexeme.values) =
      size :: List.replicate count 0 := by
  have hfresh : ∀ word ∈ (List.range (count + 1)).map wordOfLength,
      ¬start.symbols.contains (wordSymbol word) = true := by
    intro word _
    rw [(orderly_new hstart).consistent.contains_iff]
    rintro ⟨kind, hmem⟩
    rw [names_new hstart kind] at hmem
    cases hmem
  rw [lexicon, manyWords, lexiconFrom_append, lexiconFrom_define _ _ _ (nodup_wordSymbol _) hfresh,
    List.range_succ_eq_map]
  simp only [lexiconFrom, Call.enter, List.nil_append, List.map_cons, List.modify_zero_cons, List.map_map]
  refine congrArg₂ _ (byteCount_zeros _ size) ?_
  exact List.eq_replicate_iff.mpr ⟨by simp, List.forall_mem_map.mpr fun _ _ => rfl⟩

/-! ## Stories -/

section
variable {number : Int} {wantsDebug : Bool} {start : Story}

theorem exists_numbersFit (hstart : Story.new number wantsDebug = .ok start) {calls : List Call}
    {base : String} {keeps : Bool} {fault : Segment → Stage → Option DiskError}
    (hok : ((start.after calls).output base keeps fault).1 = .ok ()) :
    ∃ data, ((start.after calls).output base keeps fault).2.data = some (sourceText data) ∧
      NumbersFit start.version (start.lexicon calls) data := by
  obtain ⟨data, hdata, -, hwritten⟩ := exists_output_eq_sourceText hok
  have hconsistent := (((orderly_new hstart).after calls).after (start.after calls).closings).consistent
  have hversion : (start.after calls).closed.version = start.version :=
    (sameNames_closed (start.after calls)).version.trans (version_after calls start)
  obtain ⟨routines, registry, log, hclosed⟩ := (start.after calls).exists_closed
  have hwords : (start.after calls).closed.words.toList = (start.lexicon calls).map (·.entry) := by
    rw [hclosed]
    exact words_lexicon hstart calls
  rw [← hversion]
  exact ⟨data, hwritten, numbersFit_of_dataStatements hconsistent hwords hdata⟩

theorem objects_new (hstart : Story.new number wantsDebug = .ok start) : start.objects = #[] := by
  obtain ⟨version, -, h⟩ := bind_eq_ok.mp hstart
  obtain rfl := Except.ok.inj h
  rfl

/-- **Numbers of the layout**: whichever calls are made on a new story, in what is written the words of
flags fit a word, the sizes of properties are at most 8 or 64, and the numbers in the head of the dictionary
fit if and only if the words do. But a story takes any number of words, with any size of data. -/
theorem numbersFit_after (number : Int) (wantsDebug : Bool) {start : Story}
    (hstart : Story.new number wantsDebug = .ok start) :
    (∀ calls base keeps fault, ((start.after calls).output base keeps fault).1 = .ok () →
      ∃ data, ((start.after calls).output base keeps fault).2.data = some (sourceText data) ∧
        NumbersFit start.version (start.lexicon calls) data) ∧
    ∀ count size, ∃ calls,
      (start.lexicon calls).map (fun lexeme => byteCount lexeme.values) = size :: List.replicate count 0 ∧
      ∀ base keeps, ((start.after calls).output base keeps fun _ _ => none).1 = .ok () := by
  refine ⟨fun calls base keeps fault hok => exists_numbersFit hstart hok, fun count size => ?_⟩
  have hfit := tablesFit_of_onWords (onWords_manyWords count size) (objects_new hstart)
  exact ⟨manyWords count size, sizes_manyWords hstart count size, output_eq_ok hfit⟩

end

/-- An object with a flag and with a property that is as long as it can be, and a word with data. -/
def fullLamp : List Call :=
  [.define (.object "LAMP"), .define (.flag "LIT"), .change ⟨0⟩ (.setFlag ⟨0, 31⟩),
    .define (.property "SIZE"), .give ⟨0⟩ ⟨0, 31⟩ .table,
    .change ⟨0⟩ (.entries ⟨0, 31⟩ (List.replicate 4 (.word 1))),
    .define (.word "lamp"), .wordEntries ⟨0⟩ [.byte 128, .wordOperand (.symbol "LAMP")]]

theorem numbersFit_fullLamp :
    ∃ start, Story.new 3 false = .ok start ∧
      ((start.after fullLamp).output "game" false fun _ _ => none).1 = .ok () ∧
      ∃ data, ((start.after fullLamp).output "game" false fun _ _ => none).2.data = some (sourceText data) ∧
        NumbersFit start.version [⟨"lamp", [.byte 128, .wordOperand (.symbol "LAMP")]⟩] data := by
  obtain ⟨start, hstart, hok, hlexicon⟩ : ∃ start, Story.new 3 false = .ok start ∧
      ((start.after fullLamp).output "game" false fun _ _ => none).1 = .ok () ∧
      start.lexicon fullLamp = [⟨"lamp", [.byte 128, .wordOperand (.symbol "LAMP")]⟩] :=
    ⟨_, rfl, by decide +kernel, by decide +kernel⟩
  rw [← hlexicon]
  exact ⟨start, hstart, hok, (numbersFit_after 3 false hstart).1 fullLamp "game" false _ hok⟩

/-- The data of the word leave no room for its text in a record of 255 bytes. -/
def longWord : List Call :=
  [.define (.word "lamp"), .wordEntries ⟨0⟩ (List.replicate 252 (.byte 0))]

theorem length_gt_longWord :
    ∃ start, Story.new 3 false = .ok start ∧
      ((start.after longWord).output "game" false fun _ _ => none).1 = .ok () ∧
      ∃ before rest length,
        ((start.after longWord).output "game" false fun _ _ => none).2.data =
          some (sourceText (before ++ .label "VOCAB" :: dictionaryHead length 1 ++ rest)) ∧
        .label "VOCAB" ∉ before ∧ 255 < length := by
  obtain ⟨start, hstart, hbytes, hlexicon⟩ : ∃ start, Story.new 3 false = .ok start ∧
      start.version.zwordBytes = 4 ∧
      start.lexicon longWord = [⟨"lamp", List.replicate 252 (.byte 0)⟩] :=
    ⟨_, rfl, rfl, by decide +kernel⟩
  have hwords : ∀ call ∈ longWord, call.OnWords := by
    intro call hmem
    rcases List.mem_cons.mp hmem with rfl | hmem
    · exact .define "lamp"
    · rw [List.mem_singleton.mp hmem]
      exact .entries _ _
  have hok := output_eq_ok (tablesFit_of_onWords hwords (objects_new hstart)) "game" false
  obtain ⟨data, hwritten, hfit⟩ := exists_numbersFit hstart hok
  obtain ⟨before, rest, length, rfl, hbefore, hlength⟩ := hfit.dictionary
  rw [hlexicon] at hwritten hlength
  refine ⟨start, hstart, hok, before, rest, length, hwritten, hbefore, Nat.lt_of_not_le fun hle => ?_⟩
  have hroom := hlength.mp hle _ List.mem_cons_self
  rw [hbytes, byteCount_zeros] at hroom
  exact absurd hroom (by decide)

end Story

end StoryAsm
