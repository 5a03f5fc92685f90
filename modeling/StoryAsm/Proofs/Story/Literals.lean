import StoryAsm.Proofs.Routine.Legible
import StoryAsm.Proofs.Story.DictionaryTexts
import StoryAsm.Proofs.Story.Strings
import StoryAsm.Proofs.World.Properties

/-!
# Literals in the segments

A story writes texts that it does not choose: what is printed, the descriptions of objects, words, names of
files and strings. Each stands in a statement as a literal (`Statement.Carries`) and is followed by something
other than a quote, so that it can be read from its first quote on. What is left is the rest of the
statement and all statements behind it, whatever the text is (`Statement.Carries.exists_readsAt`). So no text
ends its literal early in what is written (`Story.delimited_after`).
-/

namespace StoryAsm

open Text

/-! ## Statements with literals -/

/-- In the source, the literal behind `front` is read as the text, and `back` is left. -/
structure ReadsAt (source : String) (front : List Char) (text : String) (back : List Char) : Prop where
  source_eq : source.toList = front ++ (quote text).toList ++ back
  read_eq : readQuoted (source.toList.drop front.length) = some (text.toList, back)

namespace Statement

/-- The statement is written with a literal of the text. -/
inductive Carries : Statement → String → Prop where
  | description (text : String) : Carries (.shortName text) text
  | word (text : String) : Carries (.dictionaryWord text) text
  | string (name text : String) : Carries (.packedString name text) text
  | inserted (file : String) : Carries (.insert file) file
  | path (id : Nat) (file : String) : Carries (.debug (Registry.fileRecord id file)) file
  | stem (id : Nat) (file : String) :
    Carries (.debug (Registry.fileRecord id file)) ((Path.fileStem? file).getD file)
  | printed (text : String) (label : Option Label) (debug : List String) :
    Carries (.code { code := { op := "PRINTI", args := [quote text] }, label, debug }) text
  /-- A text that is printed with a new line and a true return. -/
  | printedReturn (text : String) (label : Option Label) (debug : List String) :
    Carries
      (.code { code := { op := "PRINTR", args := [quote text] }, kind := .heavyTerminator, label, debug }) text

variable {statement : Statement} {text : String}

theorem toList_text_fileRecord (id : Nat) (file : String) :
    (debug (Registry.fileRecord id file)).text.toList =
      "\t.DEBUG-FILE ".toList ++ (toString id).toList ++ [','] ++
        (quote ((Path.fileStem? file).getD file)).toList ++ ',' :: ((quote file).toList ++ ['\n']) := by
  show (indented (".DEBUG-FILE " ++ toString id ++ "," ++ quote ((Path.fileStem? file).getD file) ++ "," ++
    quote file)).toList = _
  simp [indented]

/-- The line of an instruction with one operand that neither stores nor branches. -/
theorem exists_toList_text_code {op : String} (hop : op ≠ Instr.newlineReturn) (arg : String)
    (kind : LineKind) (label : Option Label) (debug : List String) :
    ∃ front, (code { code := { op, args := [arg] }, kind, label, debug }).text.toList =
      front ++ arg.toList ++ ['\n'] := by
  refine ⟨(Line.debugText debug).toList ++ Row.labelChars label ++ '\t' :: (op.toList ++ [' ']), ?_⟩
  cases label <;> cases kind <;>
    simp [Statement.text, Line.text, Line.instrText, Row.labelChars, hop]

/-- A literal is followed by something other than a quote. -/
theorem Carries.exists_toList_text (h : statement.Carries text) :
    ∃ left c right, statement.text.toList = left ++ (quote text).toList ++ c :: right ∧ c ≠ '"' := by
  have hline : (∃ left, statement.text.toList = left ++ (quote text).toList ++ ['\n']) →
      ∃ left c right, statement.text.toList = left ++ (quote text).toList ++ c :: right ∧ c ≠ '"' := by
    rintro ⟨left, htext⟩
    exact ⟨left, '\n', [], htext, by decide⟩
  cases h with
  | description => exact hline ⟨"\t.STRL ".toList, by simp [Statement.text, indented]⟩
  | word => exact hline ⟨"\t.ZWORD ".toList, by simp [Statement.text, indented]⟩
  | string name =>
    exact hline ⟨"\t.GSTR ".toList ++ name.toList ++ [','], by simp [Statement.text, indented]⟩
  | inserted => exact hline ⟨"\t.INSERT ".toList, by simp [Statement.text, indented]⟩
  | path id =>
    refine hline ⟨"\t.DEBUG-FILE ".toList ++ (toString id).toList ++ [','] ++
      (quote ((Path.fileStem? text).getD text)).toList ++ [','], ?_⟩
    rw [toList_text_fileRecord]
    simp only [List.append_assoc, List.cons_append, List.nil_append]
  | stem id file => exact ⟨_, ',', _, toList_text_fileRecord id file, by decide⟩
  | printed _ label debug => exact hline (exists_toList_text_code (by decide) _ _ label debug)
  | printedReturn _ label debug => exact hline (exists_toList_text_code (by decide) _ _ label debug)

/-- Wherever the statement stands, its literal is read to its end and no further. -/
theorem Carries.exists_readsAt (h : statement.Carries text) (before after : List Statement) :
    ∃ left right, statement.text.toList = left ++ (quote text).toList ++ right ∧
      ReadsAt (sourceText (before ++ statement :: after)) ((sourceText before).toList ++ left) text
        (right ++ (sourceText after).toList) := by
  obtain ⟨left, c, right, htext, hc⟩ := h.exists_toList_text
  have hsource : (sourceText (before ++ statement :: after)).toList = (sourceText before).toList ++ left ++
      ((quote text).toList ++ (c :: right ++ (sourceText after).toList)) := by
    rw [sourceText_append, ← List.singleton_append, sourceText_append, sourceText_singleton,
      String.toList_append, String.toList_append, htext]
    simp only [List.append_assoc]
  refine ⟨left, c :: right, htext, ?_, ?_⟩
  · rw [hsource, List.append_assoc _ _ (c :: right ++ _)]
  · rw [hsource, List.drop_left]
    exact readQuoted_quote text (by simpa using hc)

end Statement

/-! ## Lines that print texts -/

theorem LineBody.Written.exists_carries {line : Line Instr} (h : line.toLineBody.Written)
    (hop : line.code.op = "PRINTI" ∨ line.code.op = "PRINTR") :
    ∃ text, Statement.Carries (.code line) text := by
  obtain ⟨text, hbody⟩ := h.exists_eq_print hop
  obtain ⟨body, label, debug⟩ := line
  rcases hbody with rfl | rfl
  · exact ⟨text, .printed text label debug⟩
  · exact ⟨text, .printedReturn text label debug⟩

namespace Routine

/-- The lines of the routine can be read, before it is finished and in its body. -/
structure Clear (routine : Routine) : Prop where
  readable : routine.Readable
  written : ∀ body ∈ routine.body, ∀ line, .code line ∈ body → line.toLineBody.Written

variable {routine : Routine}

theorem clear_new (name : String) (version : Version) (isEntryPoint cleansStack : Bool) :
    (new name version isEntryPoint cleansStack).Clear where
  readable := readable_new name version isEntryPoint cleansStack
  written := by simp [new]

theorem Clear.changed (h : routine.Clear) {call : Call} (hcall : call.OfStory) :
    (call.changed routine).Clear where
  readable := h.readable.changed hcall
  written := by
    rw [call.body_changed]
    exact h.written

theorem mem_lines_of_mem_statements {place : Option (Nat × Span)} {line : Line Instr}
    (h : .code line ∈ routine.statements place) : line ∈ routine.flushed.lines := by
  simpa [statements, headStatement, codeStatements] using h

theorem Clear.finish (h : routine.Clear) (place : Option (Nat × Span)) : (routine.finish place).Clear where
  readable := {
    bodies := by simp [Routine.finish, Code.bodies]
    directives := by simp [Routine.finish, Buffer.directives, Code.directives]
    slots := h.readable.slots }
  written := by
    rintro body ⟨⟩ line hline
    exact h.readable.written_flushed line (mem_lines_of_mem_statements hline)

end Routine

namespace Story

variable {story : Story}

/-- A call with operands of the story. -/
def Call.OfStory : Call → Prop
  | routine _ call => call.OfStory
  | _ => True

theorem clear_modify {routines : Array Routine} (h : ∀ routine ∈ routines, routine.Clear) (place : Nat)
    {f : Routine → Routine} (hf : ∀ routine, routine.Clear → (f routine).Clear) :
    ∀ routine ∈ routines.modify place f, routine.Clear := by
  intro routine hmem
  obtain ⟨index, hget⟩ := Array.mem_iff_getElem?.mp hmem
  rw [Array.getElem?_modify] at hget
  split at hget
  · obtain ⟨before, hbefore, rfl⟩ := Option.map_eq_some_iff.mp hget
    exact hf before (h before (Array.mem_of_getElem? hbefore))
  · exact h routine (Array.mem_of_getElem? hget)

theorem clear_next (h : ∀ routine ∈ story.routines, routine.Clear) {call : Call} (hcall : call.OfStory) :
    ∀ routine ∈ (call.next story).routines, routine.Clear := by
  cases hrefusal : call.refusal story with
  | some error =>
    rw [Call.next_of_refusal_eq_some hrefusal, Call.routines_left]
    exact h
  | none =>
    rw [Call.next_of_refusal_eq_none hrefusal]
    cases call with
    | define definition =>
      cases definition with
      | routine name isEntryPoint cleansStack =>
        intro routine hmem
        rcases Array.mem_push.mp hmem with hmem | rfl
        · exact h routine hmem
        · exact Routine.clear_new _ _ _ _
      | _ => exact h
    | routine id call => exact clear_modify h id.index fun routine hclear => hclear.changed hcall
    | sequencePoint id span =>
      simp only [Call.changed]
      split
      · have hrecord : (Routine.Call.debug (story.registry.lineRecord span).1).OfStory :=
          ⟨story.registry, span, rfl⟩
        exact clear_modify h id.index fun routine hclear => hclear.changed hrecord
      · exact h
    | finishRoutine id =>
      simp only [Call.changed]
      split
      · exact h
      · exact clear_modify h id.index fun routine hclear => hclear.finish _
    | registry =>
      simp only [Call.changed]
      split <;> exact h
    | _ => exact h

theorem clear_after {calls : List Call} (hcalls : ∀ call ∈ calls, call.OfStory)
    (h : ∀ routine ∈ story.routines, routine.Clear) :
    ∀ routine ∈ (story.after calls).routines, routine.Clear := by
  induction calls generalizing story with
  | nil => exact h
  | cons call calls ih =>
    obtain ⟨hcall, hrest⟩ := List.forall_mem_cons.mp hcalls
    exact ih hrest (clear_next h hcall)

theorem clear_closed (h : ∀ routine ∈ story.routines, routine.Clear) :
    ∀ routine ∈ story.closed.routines, routine.Clear := by
  refine clear_after (fun call hcall => ?_) h
  obtain ⟨index, -, rfl⟩ := List.mem_map.mp hcall
  trivial

theorem written_of_mem_main (h : ∀ routine ∈ story.routines, routine.Clear) {base : String}
    {line : Line Instr} (hline : .code line ∈ story.mainStatements base) : line.toLineBody.Written := by
  have hheader : .code line ∉ headerStatements story.version := by simp [headerStatements]
  have hmem : ∃ routine ∈ story.routines, .code line ∈ routine.body.getD [] := by
    simp only [mainStatements, List.mem_append] at hline
    rcases hline with (((hline | hline) | hline) | hline) | hline
    · simp at hline
    · split at hline
      · exact absurd hline hheader
      · cases hline
    · simp at hline
    · simpa using hline
    · simp at hline
  obtain ⟨routine, hroutine, hline⟩ := hmem
  cases hbody : routine.body with
  | none =>
    rw [hbody] at hline
    cases hline
  | some body =>
    rw [hbody] at hline
    exact (h routine hroutine).written body hbody line hline

/-! ## Texts of the data -/

theorem shortName_mem_data {data : List Statement} (hdata : story.dataStatements = .ok data)
    {object : Object} (hobject : object ∈ story.objects) {text : String}
    (htext : object.description = some text) : .shortName text ∈ data := by
  obtain ⟨tables, htables, hdata⟩ := bind_eq_ok.mp hdata
  obtain rfl := Except.ok.inj hdata
  have hmem : .shortName text ∈ tables := by
    obtain ⟨all, hall, htables⟩ := bind_eq_ok.mp htables
    obtain rfl := Except.ok.inj htables
    obtain ⟨table, htable, hstatements⟩ := exists_mem_of_mapM hall object (Array.mem_toList_iff.mpr hobject)
    obtain ⟨shortName, hshort, rfl⟩ := Object.exists_of_tableStatements hstatements
    rw [htext] at hshort
    obtain rfl : shortName = .shortName text := hshort
    exact List.mem_flatMap.mpr ⟨_, htable, by simp⟩
  simp [hmem]

theorem dictionaryWord_mem_data {data : List Statement} (hdata : story.dataStatements = .ok data)
    {word : Word} (hword : word ∈ story.words) : .dictionaryWord word.text ∈ data := by
  have hmem : word.text ∈ data.filterMap Statement.dictionaryText? := by
    rw [dictionaryTexts_data hdata]
    exact List.mem_map_of_mem (List.mem_mergeSort.mpr (Array.mem_toList_iff.mpr hword))
  obtain ⟨statement, hstatement, htext⟩ := List.mem_filterMap.mp hmem
  cases statement with
  | dictionaryWord text =>
    cases htext
    exact hstatement
  | _ => cases htext

theorem fileRecord_mem_data {data : List Statement} (hdata : story.dataStatements = .ok data)
    (hdebug : story.wantsDebug = true) {file : String} (hfile : file ∈ story.registry.files) :
    ∃ id, .debug (Registry.fileRecord id file) ∈ data := by
  have hrecord :
      Registry.fileRecord (fileIdIn story.registry.files.toList file) file ∈ story.debugRecords := by
    obtain ⟨named, hrecords, -⟩ := story.exists_debugRecords_eq
    rw [hrecords, List.append_assoc, Registry.fileIds, List.map_map]
    exact List.mem_append_left _ (mem_fileTexts (Array.mem_toList_iff.mpr hfile))
  obtain ⟨tables, -, hdata⟩ := bind_eq_ok.mp hdata
  obtain rfl := Except.ok.inj hdata
  refine ⟨fileIdIn story.registry.files.toList file, List.mem_append_right _ ?_⟩
  rw [if_pos hdebug]
  exact List.mem_cons_of_mem _ (List.mem_map_of_mem hrecord)

theorem packedString_mem_strings {content : String} (h : content ∈ story.pool.strings) :
    ∃ name, .packedString name content ∈ story.stringStatements := by
  obtain ⟨index, hget⟩ := List.mem_iff_getElem?.mp (Array.mem_toList_iff.mpr h)
  exact ⟨_, List.mem_map_of_mem (Pool.mem_sortedStrings.mpr ⟨index, hget, rfl⟩)⟩

/-! ## Written stories -/

/-- The texts that the story was given are literals of its segments, and they are read there as they were
given. -/
structure Delimited (story : Story) (main data strings : List Statement) : Prop where
  /-- Wherever a literal stands, it is read to its end, and what stands behind it is left. -/
  reads : ∀ segment ∈ [main, data, strings], ∀ before statement after text,
    segment = before ++ statement :: after → statement.Carries text →
      ∃ left right, statement.text.toList = left ++ (quote text).toList ++ right ∧
        ReadsAt (sourceText segment) ((sourceText before).toList ++ left) text
          (right ++ (sourceText after).toList)
  descriptions : ∀ object ∈ story.objects, ∀ text ∈ object.description, .shortName text ∈ data
  words : ∀ word ∈ story.words, .dictionaryWord word.text ∈ data
  files : story.wantsDebug = true → ∀ file ∈ story.registry.files,
    ∃ id, .debug (Registry.fileRecord id file) ∈ data
  pooled : ∀ content ∈ story.pool.strings, ∃ name, .packedString name content ∈ strings

/-- Lines that print a text have a literal of it. -/
def PrintsLiterals (main : List Statement) : Prop :=
  ∀ line, .code line ∈ main → line.code.op = "PRINTI" ∨ line.code.op = "PRINTR" →
    ∃ text, Statement.Carries (.code line) text

theorem delimited_of_dataStatements {data : List Statement} (hdata : story.dataStatements = .ok data)
    (base : String) : story.Delimited (story.mainStatements base) data story.stringStatements where
  reads := by
    rintro segment - before statement after text rfl hcarries
    exact hcarries.exists_readsAt before after
  descriptions _ hobject _ htext := shortName_mem_data hdata hobject htext
  words _ hword := dictionaryWord_mem_data hdata hword
  files hdebug _ hfile := fileRecord_mem_data hdata hdebug hfile
  pooled _ hcontent := packedString_mem_strings hcontent

theorem printsLiterals_main (h : ∀ routine ∈ story.routines, routine.Clear) (base : String) :
    PrintsLiterals (story.mainStatements base) :=
  fun _ hline hop => (written_of_mem_main h hline).exists_carries hop

theorem clear_new {number : Int} {wantsDebug : Bool} (h : Story.new number wantsDebug = .ok story) :
    ∀ routine ∈ story.routines, routine.Clear := by
  obtain ⟨version, -, h⟩ := bind_eq_ok.mp h
  obtain rfl := Except.ok.inj h
  exact fun routine hmem => absurd hmem (Array.not_mem_empty routine)

/-- **Literals delimit themselves**: what is read as a text is its literal, up to a quote that no other
follows, and every literal in front of anything but a quote is read so. In the segments of a story, this
goes for all texts that calls gave to it, whatever characters they have. -/
theorem delimited_after (text : String) (input rest : List Char) (number : Int) (wantsDebug : Bool)
    {start : Story} (hstart : Story.new number wantsDebug = .ok start) (calls : List Call) :
    (readQuoted input = some (text.toList, rest) ↔
      input = (quote text).toList ++ rest ∧ rest.head? ≠ some '"') ∧
    ∀ base keeps fault, ((start.after calls).output base keeps fault).1 = .ok () →
      ∃ main data strings,
        ((start.after calls).output base keeps fault).2.main = some (sourceText main) ∧
        ((start.after calls).output base keeps fault).2.data = some (sourceText data) ∧
        ((start.after calls).output base keeps fault).2.strings = some (sourceText strings) ∧
        (start.after calls).closed.Delimited main data strings ∧
        ((∀ call ∈ calls, call.OfStory) → PrintsLiterals main) := by
  refine ⟨readQuoted_eq_some_iff, fun base keeps fault hok => ?_⟩
  obtain ⟨data, hdata, htexts⟩ := exists_output_eq_allTexts hok
  rw [htexts]
  refine ⟨_, data, _, rfl, rfl, rfl, delimited_of_dataStatements hdata base, fun hcalls => ?_⟩
  exact printsLiterals_main (clear_closed (clear_after hcalls (clear_new hstart))) base

/-- Texts with quotes at either end, in the middle, and alone. -/
def quotedCalls : List Call :=
  [.define (.routine "MAIN" true false), .routine ⟨0⟩ (.place (.point "a\"b.zil" 1 1)),
    .routine ⟨0⟩ (.emit (.printText "\"hi\"")), .routine ⟨0⟩ (.emit .newLine),
    .routine ⟨0⟩ (.emit (.ret (.number 1))), .define (.object "LAMP"),
    .change ⟨0⟩ (.description (some "a \"lamp\"")), .define (.word "d\"or"), .string "\"\""]

theorem delimited_quotedCalls :
    readQuoted ['"', '"', '"', '"', '\n'] = some (['"'], ['\n']) ∧
    ∃ start, Story.new 3 true = .ok start ∧
      ∃ main data strings,
        ((start.after quotedCalls).output "game" false fun _ _ => none).2.main = some (sourceText main) ∧
        ((start.after quotedCalls).output "game" false fun _ _ => none).2.data = some (sourceText data) ∧
        ((start.after quotedCalls).output "game" false fun _ _ => none).2.strings = some (sourceText strings) ∧
        (start.after quotedCalls).closed.Delimited main data strings ∧ PrintsLiterals main := by
  obtain ⟨start, hstart, hempty⟩ : ∃ start, Story.new 3 true = .ok start ∧
      (start.after quotedCalls).objects.toList.all (·.properties.isEmpty) = true :=
    ⟨_, rfl, by decide +kernel⟩
  have hcalls : ∀ call ∈ quotedCalls, call.OfStory := by
    simp [quotedCalls, Call.OfStory, Routine.Call.OfStory, Emission.operands, Operand.OfStory]
  obtain ⟨hread, hwritten⟩ :=
    delimited_after "\"" ['"', '"', '"', '"', '\n'] ['\n'] 3 true hstart quotedCalls
  have hok := output_eq_ok (tablesFit_of_isEmpty hempty) "game" false
  obtain ⟨main, data, strings, hmain, hdata, hstrings, hdelimited, hprints⟩ := hwritten "game" false _ hok
  exact ⟨hread.mpr (by decide), start, hstart, main, data, strings, hmain, hdata, hstrings, hdelimited,
    hprints hcalls⟩

end Story

end StoryAsm
