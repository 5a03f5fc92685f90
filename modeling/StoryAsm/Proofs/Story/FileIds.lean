import StoryAsm.Proofs.Code.Directives
import StoryAsm.Proofs.Routine.History
import StoryAsm.Proofs.Story.DebugInfo
import StoryAsm.Proofs.Story.Introduced
import StoryAsm.Proofs.Story.Layout

/-!
# Ids of source files in debug records

Debug records name a source file by its id. Ids are handed out while a story is built and also while it
is finished, and records with ids go to two segments, one of which lists the files. What the calls on a
story mention (`Mention`) does not depend on ids: it tells which files were named and which records
belong where. All records of a finished story are what was mentioned, written with the ids under which
the data segment lists the files (`Story.fileIdsAgree_after`).

Files are only ever added to the list, so an id that was once handed out stays right
(`Story.Recorded.note`).
-/

namespace StoryAsm

/-! ## Files and their ids -/

/-- The id of a file in a list of files. -/
def fileIdIn (files : List String) (file : String) : Nat :=
  files.idxOf file + 1

/-- The files after one was named. -/
def addFile (files : List String) (file : String) : List String :=
  if file ∈ files then files else files ++ [file]

theorem prefix_addFile (files : List String) (file : String) : files <+: addFile files file := by
  unfold addFile
  split
  · exact List.prefix_rfl
  · exact List.prefix_append ..

theorem nodup_addFile {files : List String} (h : files.Nodup) (file : String) :
    (addFile files file).Nodup := by
  unfold addFile
  split
  · exact h
  · rename_i hnew
    exact nodup_append_singleton h hnew

theorem eraseDups_append_singleton (files : List String) (file : String) :
    (files ++ [file]).eraseDups = addFile files.eraseDups file := by
  rw [List.eraseDups_append, addFile]
  simp only [List.mem_eraseDups, List.removeAll]
  by_cases h : file ∈ files
  · rw [if_pos h]
    simp [h]
  · rw [if_neg h]
    simp [h, List.eraseDups_cons]

namespace Registry

/-- The map has the ids of the files in the list, and no others. -/
theorem lookup_ids (registry : Registry) (file : String) :
    registry.ids.lookup file =
      if file ∈ registry.files.toList then some (fileIdIn registry.files.toList file) else none := by
  rw [registry.inStep file]
  cases h : registry.files.toList.idxOf? file with
  | none =>
    rw [if_neg (List.idxOf?_eq_none_iff.mp h)]
    rfl
  | some index =>
    have hmem : file ∈ registry.files.toList := by
      by_contra hnew
      rw [List.idxOf?_eq_none_iff.mpr hnew] at h
      cases h
    rw [if_pos hmem, fileIdIn, List.idxOf_eq_getD_idxOf?, h]
    rfl

theorem fileId_of_mem {registry : Registry} {file : String} (h : file ∈ registry.files.toList) :
    registry.fileId file = (fileIdIn registry.files.toList file, registry) := by
  have hid := registry.lookup_ids file
  rw [if_pos h] at hid
  unfold fileId
  split
  · rename_i id hsome
    rw [← Option.some.inj (hsome.symm.trans hid)]
  · rename_i hnone
    cases hnone.symm.trans hid

/-- A file that is not known is added to the list and to the map. -/
theorem fileId_of_notMem {registry : Registry} {file : String} (h : file ∉ registry.files.toList) :
    (registry.fileId file).1 = registry.files.toList.length + 1 ∧
      (registry.fileId file).2.files.toList = registry.files.toList ++ [file] ∧
      (registry.fileId file).2.ids = (file, registry.files.toList.length + 1) :: registry.ids ∧
      (registry.fileId file).2.stored = registry.stored := by
  have hid := registry.lookup_ids file
  rw [if_neg h] at hid
  unfold fileId
  split
  · rename_i id hsome
    cases hsome.symm.trans hid
  · simp

theorem toList_files_fileId (registry : Registry) (file : String) :
    (registry.fileId file).2.files.toList = addFile registry.files.toList file := by
  rw [addFile]
  split
  · rename_i hmem
    rw [fileId_of_mem hmem]
  · rename_i hnew
    exact (fileId_of_notMem hnew).2.1

theorem stored_fileId (registry : Registry) (file : String) :
    (registry.fileId file).2.stored = registry.stored := by
  unfold fileId
  split <;> rfl

/-- The id that is handed out is the one of the file in the new list. -/
theorem fst_fileId (registry : Registry) (file : String) :
    (registry.fileId file).1 = fileIdIn (addFile registry.files.toList file) file := by
  rw [addFile]
  split
  · rename_i hmem
    rw [fileId_of_mem hmem]
  · rename_i hnew
    rw [(fileId_of_notMem hnew).1, fileIdIn, List.idxOf_append_of_notMem hnew, List.idxOf_cons_self,
      Nat.add_zero]

/-! The records that name a file, with its id. -/

def fileText (id : Nat) (file : String) : String :=
  s!".DEBUG-FILE {id},{Text.quote ((Path.fileStem? file).getD file)},{Text.quote file}"

def lineText (id : Nat) (span : Span) : String :=
  s!".DEBUG-LINE {id},{span.startLine},{span.startColumn}"

def routineText (id : Nat) (span : Span) (names : List String) : String :=
  s!".DEBUG-ROUTINE {id},{span.startLine},{span.startColumn}," ++
    ",".intercalate (names.map Text.quote)

def routineEndText (id : Nat) (span : Span) : String :=
  s!".DEBUG-ROUTINE-END {id},{span.endLine},{span.endColumn}"

def objectText (object name : String) (id : Nat) (span : Span) : String :=
  s!".DEBUG-OBJECT {object},{Text.quote name}," ++
    s!"{id},{span.startLine},{span.startColumn},{id},{span.endLine},{span.endColumn}"

theorem lineRecord_eq (registry : Registry) (span : Span) :
    registry.lineRecord span =
      (lineText (registry.fileId span.file).1 span, (registry.fileId span.file).2) := rfl

theorem markObject_eq (registry : Registry) (object name : String) (span : Span) :
    registry.markObject object name span =
      (registry.fileId span.file).2.store (objectText object name (registry.fileId span.file).1 span) :=
  rfl

end Registry

/-- The names in the record of a routine: its own and those of its variables. -/
def Routine.recordNames (routine : Routine) : List String :=
  routine.name :: routine.slots.map (·.name)

theorem Routine.startRecord_eq (routine : Routine) (file : Nat) (span : Span) :
    routine.startRecord file span = Registry.routineText file span routine.recordNames := by
  delta startRecord Registry.routineText recordNames
  rw [List.map_cons, List.map_map]
  rfl

theorem Routine.endRecord_eq (file : Nat) (span : Span) :
    endRecord file span = Registry.routineEndText file span := rfl

/-! ## What is mentioned -/

/-- What a call has the debug registry or a routine note. -/
inductive Mention where
  /-- A file that gets an id. -/
  | seen (file : String)
  /-- A sequence point in the code of a routine. -/
  | line (index : Nat) (span : Span)
  /-- A directive that is put into the code of a routine as it is. -/
  | directive (index : Nat) (text : String)
  /-- A routine that was finished, and where it stands. -/
  | finished (index : Nat) (routine : Routine) (span : Span)
  | object (object name : String) (span : Span)
  /-- A record that names no file. -/
  | record (text : String)

namespace Mention

/-- The source file of the span, or the file itself. -/
def file? : Mention → Option String
  | seen file => some file
  | line _ span | finished _ _ span | object _ _ span => some span.file
  | directive .. | record _ => none

/-- The routine in whose code it is noted. -/
def index? : Mention → Option Nat
  | line index _ | directive index _ | finished index _ _ => some index
  | seen _ | object .. | record _ => none

/-- The directive in front of a routine. -/
def front? (ids : String → Nat) (index : Nat) : Mention → Option String
  | finished place routine span =>
    if place = index then some (Registry.routineText (ids span.file) span routine.recordNames) else none
  | _ => none

/-- The directive in the code of a routine. -/
def inner? (ids : String → Nat) (index : Nat) : Mention → Option String
  | line place span => if place = index then some (Registry.lineText (ids span.file) span) else none
  | directive place text => if place = index then some text else none
  | _ => none

/-- The directive behind a routine. -/
def back? (ids : String → Nat) (index : Nat) : Mention → Option String
  | finished place _ span => if place = index then some (Registry.routineEndText (ids span.file) span) else none
  | _ => none

/-- The record that is stored for the data segment. -/
def stored? (ids : String → Nat) : Mention → Option String
  | object name text span => some (Registry.objectText name text (ids span.file) span)
  | record text => some text
  | _ => none

/-- The files that are named, in the order in which they are seen first. -/
def files (mentions : List Mention) : List String :=
  (mentions.filterMap file?).eraseDups

/-- The directives of a routine and its code. -/
def directivesOf (ids : String → Nat) (index : Nat) (mentions : List Mention) : List String :=
  mentions.filterMap (front? ids index) ++ mentions.filterMap (inner? ids index) ++
    mentions.filterMap (back? ids index)

def records (ids : String → Nat) (mentions : List Mention) : List String :=
  mentions.filterMap (stored? ids)

variable {ids ids' : String → Nat} {index : Nat} {mention : Mention} {mentions : List Mention}

section
variable (h : ∀ file, mention.file? = some file → ids file = ids' file)
include h

theorem front?_congr (index : Nat) : mention.front? ids index = mention.front? ids' index := by
  cases mention with
  | finished place routine span => simp only [front?, h span.file rfl]
  | _ => rfl

theorem inner?_congr (index : Nat) : mention.inner? ids index = mention.inner? ids' index := by
  cases mention with
  | line place span => simp only [inner?, h span.file rfl]
  | _ => rfl

theorem back?_congr (index : Nat) : mention.back? ids index = mention.back? ids' index := by
  cases mention with
  | finished place routine span => simp only [back?, h span.file rfl]
  | _ => rfl

theorem stored?_congr : mention.stored? ids = mention.stored? ids' := by
  cases mention with
  | object name text span => simp only [stored?, h span.file rfl]
  | _ => rfl

end

/-- Only the ids of files that are named matter. -/
theorem directivesOf_congr
    (h : ∀ mention ∈ mentions, ∀ file, mention.file? = some file → ids file = ids' file) (index : Nat) :
    directivesOf ids index mentions = directivesOf ids' index mentions := by
  simp only [directivesOf]
  rw [List.filterMap_congr fun mention hm => front?_congr (h mention hm) index,
    List.filterMap_congr fun mention hm => inner?_congr (h mention hm) index,
    List.filterMap_congr fun mention hm => back?_congr (h mention hm) index]

theorem records_congr
    (h : ∀ mention ∈ mentions, ∀ file, mention.file? = some file → ids file = ids' file) :
    records ids mentions = records ids' mentions :=
  List.filterMap_congr fun mention hm => stored?_congr (h mention hm)

/-- Nothing is noted in a routine that is not mentioned. -/
theorem texts_eq_none (h : mention.index? ≠ some index) (ids : String → Nat) :
    mention.front? ids index = none ∧ mention.inner? ids index = none ∧
      mention.back? ids index = none := by
  cases mention with
  | line place span | directive place text | finished place routine span =>
    have hne : place ≠ index := fun he => h (congrArg some he)
    simp [front?, inner?, back?, hne]
  | _ => exact ⟨rfl, rfl, rfl⟩

theorem texts_around (h : mention.index? ≠ some index) (ids : String → Nat) (texts : List String) :
    (mention.front? ids index).toList ++ (texts ++ (mention.inner? ids index).toList) ++
      (mention.back? ids index).toList = texts := by
  obtain ⟨hfront, hinner, hback⟩ := texts_eq_none h ids
  simp [hfront, hinner, hback]

theorem files_append_singleton (mentions : List Mention) (mention : Mention) :
    files (mentions ++ [mention]) =
      match mention.file? with
      | some file => addFile (files mentions) file
      | none => files mentions := by
  unfold files
  rw [List.filterMap_append]
  cases h : mention.file? with
  | none => simp [h]
  | some file =>
    simp only [List.filterMap_cons, h, List.filterMap_nil]
    exact eraseDups_append_singleton ..

theorem filterMap_append_singleton (f : Mention → Option String) (mentions : List Mention)
    (mention : Mention) :
    (mentions ++ [mention]).filterMap f = mentions.filterMap f ++ (f mention).toList := by
  rw [List.filterMap_append]
  cases h : f mention <;> simp [h]

/-- What is mentioned of another routine changes nothing. -/
theorem directivesOf_append_of_ne (h : mention.index? ≠ some index) :
    directivesOf ids index (mentions ++ [mention]) = directivesOf ids index mentions := by
  obtain ⟨hfront, hinner, hback⟩ := texts_eq_none h ids
  simp only [directivesOf, filterMap_append_singleton, hfront, hinner, hback, Option.toList_none,
    List.append_nil]

/-- What is mentioned of a routine that is not finished stands around or behind its code. -/
theorem directivesOf_append_of_unfinished
    (h : ∀ mention ∈ mentions, ∀ finished span, mention ≠ .finished index finished span)
    (mention : Mention) :
    directivesOf ids index (mentions ++ [mention]) =
      (mention.front? ids index).toList ++
        (directivesOf ids index mentions ++ (mention.inner? ids index).toList) ++
        (mention.back? ids index).toList := by
  have hnone : ∀ mention ∈ mentions, mention.front? ids index = none ∧ mention.back? ids index = none := by
    intro mention hm
    cases mention with
    | finished place routine span =>
      have hne : place ≠ index := by
        rintro rfl
        exact h _ hm routine span rfl
      simp [front?, back?, hne]
    | _ => exact ⟨rfl, rfl⟩
  have hfront : mentions.filterMap (front? ids index) = [] :=
    List.filterMap_eq_nil_iff.mpr fun mention hm => (hnone mention hm).1
  have hback : mentions.filterMap (back? ids index) = [] :=
    List.filterMap_eq_nil_iff.mpr fun mention hm => (hnone mention hm).2
  simp only [directivesOf, filterMap_append_singleton, hfront, hback, List.nil_append, List.append_nil]

theorem mem_files {file : String} (hm : mention ∈ mentions) (hfile : mention.file? = some file) :
    file ∈ files mentions :=
  List.mem_eraseDups.mpr (List.mem_filterMap.mpr ⟨mention, hm, hfile⟩)

end Mention

/-! ## Directives of statements -/

def Statement.directives : Statement → List String
  | debug record => [record]
  | code line => line.debug
  | _ => []

theorem directives_map_debug (records : List String) :
    List.flatMap Statement.directives (records.map .debug) = records := by
  simp [List.flatMap_map, Statement.directives]

namespace Routine

theorem directives_codeStatements (flushed : Flushed Instr) :
    (codeStatements flushed).flatMap Statement.directives = flushed.directives := by
  obtain ⟨lines, trailingDebug, trailingLabel⟩ := flushed
  have hlines : List.flatMap Statement.directives (lines.map .code) = Code.directives lines := by
    simp [Code.directives, List.flatMap_map, Statement.directives]
  have hlabel : List.flatMap Statement.directives (trailingLabel.toList.map .lastLabel) = [] := by
    cases trailingLabel <;> rfl
  simp only [codeStatements, List.flatMap_append, hlines, directives_map_debug, hlabel, List.append_nil]
  rfl

/-- The lines that assign default values carry no directives. -/
theorem directives_fullBuffer (routine : Routine) :
    routine.fullBuffer.directives = routine.buffer.directives := by
  have hfront : routine.prologue.1.directives = [] := by
    rw [← prologue_plain]
    simp [Buffer.directives, Buffer.plain, Code.directives, Line.plain]
  rw [fullBuffer, Buffer.directives_append, hfront, List.nil_append]

theorem directives_statements (routine : Routine) (place : Option (Nat × Span)) :
    (routine.statements place).flatMap Statement.directives =
      place.toList.map (fun (file, span) => routine.startRecord file span) ++
        routine.buffer.directives ++ place.toList.map (fun (file, span) => endRecord file span) := by
  have hcode :
      (codeStatements routine.flushed).flatMap Statement.directives = routine.buffer.directives := by
    rw [directives_codeStatements, flushed, Buffer.directives_flush, directives_fullBuffer]
  have hstart : List.flatMap Statement.directives
      (if routine.isEntryPoint then [.label "START"] else []) = [] := by
    split <;> rfl
  simp only [statements, List.flatMap_append, hcode, hstart]
  cases place <;> simp [Statement.directives, headStatement]

/-- The directives that the routine has: those of its body, if it is finished. -/
def directives (routine : Routine) : List String :=
  match routine.body with
  | some body => body.flatMap Statement.directives
  | none => routine.buffer.directives

/-- The lines of a body carry the directives of the buffer, with those of its place around them. -/
theorem directives_finish {routine : Routine} (h : routine.isFinished = false)
    (place : Option (Nat × Span)) :
    (routine.finish place).directives =
      place.toList.map (fun (file, span) => routine.startRecord file span) ++
        routine.directives ++ place.toList.map (fun (file, span) => endRecord file span) := by
  have hbody : routine.body = none := by simpa [isFinished] using h
  have hopen : routine.directives = routine.buffer.directives := by simp only [directives, hbody]
  rw [hopen, ← directives_statements]
  rfl

theorem texts_pieces {call : Call} (h : ∀ record, call ≠ .debug record) (routine : Routine) :
    Piece.texts (call.pieces routine) = [] := by
  cases call with
  | debug record => exact absurd rfl (h record)
  | emit emission =>
    simp only [Call.pieces]
    split
    · rfl
    · exact Piece.texts_map_line _
  | _ => rfl

/-- Only directives that are put into the code change those that it has. -/
theorem directives_changed {call : Call} (h : ∀ record, call ≠ .debug record) (routine : Routine) :
    (call.changed routine).directives = routine.directives := by
  have hbuffer : (call.changed routine).buffer.directives = routine.buffer.directives := by
    rw [call.buffer_changed, Buffer.directives_fill, texts_pieces h, List.append_nil]
  simp only [directives, call.body_changed, hbuffer]

theorem directives_debug {routine : Routine} (h : routine.isFinished = false) (record : String) :
    ((Call.debug record).changed routine).directives = routine.directives ++ [record] := by
  have hbody : routine.body = none := by simpa [isFinished] using h
  simp only [directives, Call.changed, hbody, Buffer.directives_addDebug]

theorem isFinished_changed (call : Call) (routine : Routine) :
    (call.changed routine).isFinished = routine.isFinished := by
  rw [isFinished, call.body_changed, isFinished]

end Routine

/-! ## Mentions of calls -/

def Registry.Call.mention : Registry.Call → Mention
  | fileId file => .seen file
  | lineRecord span => .seen span.file
  | markObject object name span => .object object name span
  | markAction action name => .record s!".DEBUG-ACTION {action},{Text.quote name}"
  | map key value => .record s!".DEBUG-MAP {Text.quote key}={Text.quote value}"
  | store record => .record record

namespace Story

/-- What a call mentions on a story that wants debug information. A sequence point that is refused names
its file all the same. -/
def Call.mention? (story : Story) : Call → Option Mention
  | sequencePoint id span =>
    some (if story.routineRefusal id Routine.refusal = none then .line id.index span
      else .seen span.file)
  | routine id (.debug text) =>
    if story.routineRefusal id Routine.refusal = none then some (.directive id.index text) else none
  | finishRoutine id =>
    match story.routines[id.index]? with
    | none => none
    | some found => if found.isFinished then none else found.span.map (.finished id.index found)
  | registry call => some call.mention
  | _ => none

/-- What the calls mention, one after the other. -/
def mentions (story : Story) : List Call → List Mention
  | [] => []
  | call :: calls => (call.mention? story).toList ++ mentions (call.next story) calls

/-- The ids of the files that the registry knows. -/
def fileIdOf (story : Story) : String → Nat :=
  fileIdIn story.registry.files.toList

/-- All directives and records of the story are what was mentioned, with the ids that files have now. -/
structure Recorded (story : Story) (mentions : List Mention) : Prop where
  wantsDebug : story.wantsDebug = true
  nodup : story.registry.files.toList.Nodup
  files : story.registry.files.toList = Mention.files mentions
  stored : story.registry.stored.toList = Mention.records story.fileIdOf mentions
  code : ∀ {index routine}, story.routines[index]? = some routine →
    routine.directives = Mention.directivesOf story.fileIdOf index mentions
  bounded : ∀ mention ∈ mentions, ∀ index, mention.index? = some index → index < story.routines.size
  unfinished : ∀ {index routine}, story.routines[index]? = some routine → routine.isFinished = false →
    ∀ mention ∈ mentions, ∀ finished span, mention ≠ .finished index finished span

/-- What a call does that mentions nothing: the directives of all routines stay. -/
structure Unnoted (story story' : Story) : Prop where
  wantsDebug : story'.wantsDebug = story.wantsDebug
  registry : story'.registry = story.registry
  size : story.routines.size ≤ story'.routines.size
  routines : ∀ {index routine'}, story'.routines[index]? = some routine' →
    (∃ routine, story.routines[index]? = some routine ∧ routine'.directives = routine.directives ∧
      (routine'.isFinished = false → routine.isFinished = false)) ∨
    (story.routines.size ≤ index ∧ routine'.directives = [])

/-- What a call does that mentions something. -/
structure Noted (story story' : Story) (mention : Mention) : Prop where
  wantsDebug : story'.wantsDebug = story.wantsDebug
  size : story'.routines.size = story.routines.size
  files : story'.registry.files.toList =
    match mention.file? with
    | some file => addFile story.registry.files.toList file
    | none => story.registry.files.toList
  stored : story'.registry.stored.toList =
    story.registry.stored.toList ++ (mention.stored? story'.fileIdOf).toList
  isOpen : ∀ index, mention.index? = some index → story.IsOpen index
  routines : ∀ {index routine'}, story'.routines[index]? = some routine' →
    ∃ routine, story.routines[index]? = some routine ∧
      (routine'.isFinished = false → routine.isFinished = false ∧
        ∀ finished span, mention ≠ .finished index finished span) ∧
      routine'.directives = (mention.front? story'.fileIdOf index).toList ++
        (routine.directives ++ (mention.inner? story'.fileIdOf index).toList) ++
        (mention.back? story'.fileIdOf index).toList

/-- What a call does, where it may mention something. -/
def Notes (story story' : Story) : Option Mention → Prop
  | some mention => Noted story story' mention
  | none => Unnoted story story'

variable {story story' : Story} {mentions : List Mention} {mention : Mention}

theorem Recorded.keep (h : story.Recorded mentions) (hkeep : Unnoted story story') :
    story'.Recorded mentions where
  wantsDebug := hkeep.wantsDebug.trans h.wantsDebug
  nodup := by
    rw [hkeep.registry]
    exact h.nodup
  files := by
    rw [hkeep.registry]
    exact h.files
  stored := by
    rw [fileIdOf, hkeep.registry]
    exact h.stored
  code {index routine'} hget := by
    rw [fileIdOf, hkeep.registry]
    rcases hkeep.routines hget with ⟨routine, hold, hdirectives, -⟩ | ⟨hnew, hdirectives⟩
    · rw [hdirectives]
      exact h.code hold
    · -- nothing was mentioned of a routine that is new
      have hnone : ∀ mention ∈ mentions, mention.index? ≠ some index := by
        intro mention hm he
        have hlt := h.bounded mention hm index he
        omega
      rw [hdirectives, Mention.directivesOf]
      symm
      simp only [List.append_eq_nil_iff, List.filterMap_eq_nil_iff]
      exact ⟨⟨fun mention hm => (Mention.texts_eq_none (hnone mention hm) _).1,
        fun mention hm => (Mention.texts_eq_none (hnone mention hm) _).2.1⟩,
        fun mention hm => (Mention.texts_eq_none (hnone mention hm) _).2.2⟩
  bounded mention hm index he := Nat.lt_of_lt_of_le (h.bounded mention hm index he) hkeep.size
  unfinished {index routine'} hget hopen mention hm finished span he := by
    rcases hkeep.routines hget with ⟨routine, hold, -, hfinished⟩ | ⟨hnew, -⟩
    · exact h.unfinished hold (hfinished hopen) mention hm finished span he
    · have hlt := h.bounded mention hm index (by rw [he]; rfl)
      omega

/-- The files that are known are a beginning of those known later. -/
theorem Noted.prefix_files (hnoted : Noted story story' mention) :
    story.registry.files.toList <+: story'.registry.files.toList := by
  rw [hnoted.files]
  split
  · exact prefix_addFile ..
  · exact List.prefix_rfl

/-- What was mentioned before is written with the same ids. -/
theorem Recorded.fileIdOf_eq (h : story.Recorded mentions) (hnoted : Noted story story' mention) :
    ∀ old ∈ mentions, ∀ file, old.file? = some file → story.fileIdOf file = story'.fileIdOf file := by
  intro old hm file hfile
  have hmem : file ∈ story.registry.files.toList := by
    rw [h.files]
    exact Mention.mem_files hm hfile
  exact congrArg (· + 1) (hnoted.prefix_files.idxOf_eq_of_mem hmem)

theorem Recorded.note (h : story.Recorded mentions) (hnoted : Noted story story' mention) :
    story'.Recorded (mentions ++ [mention]) where
  wantsDebug := hnoted.wantsDebug.trans h.wantsDebug
  nodup := by
    rw [hnoted.files]
    split
    · exact nodup_addFile h.nodup _
    · exact h.nodup
  files := by
    rw [hnoted.files, Mention.files_append_singleton, h.files]
  stored := by
    rw [hnoted.stored, h.stored, Mention.records_congr (h.fileIdOf_eq hnoted)]
    exact (Mention.filterMap_append_singleton ..).symm
  code {index routine'} hget := by
    obtain ⟨routine, hold, -, hdirectives⟩ := hnoted.routines hget
    rw [hdirectives, h.code hold, Mention.directivesOf_congr (h.fileIdOf_eq hnoted)]
    by_cases hindex : mention.index? = some index
    · obtain ⟨routine', hget', hopen⟩ := hnoted.isOpen index hindex
      obtain rfl := Option.some.inj (hold.symm.trans hget')
      exact (Mention.directivesOf_append_of_unfinished (h.unfinished hold hopen) mention).symm
    · rw [Mention.directivesOf_append_of_ne hindex, Mention.texts_around hindex]
  bounded := by
    intro other hm index he
    rw [hnoted.size]
    rcases List.mem_append.mp hm with hm | hm
    · exact h.bounded other hm index he
    · cases List.mem_singleton.mp hm
      obtain ⟨routine, hget, -⟩ := hnoted.isOpen index he
      exact (Array.getElem?_eq_some_iff.mp hget).1
  unfinished {index routine'} hget hopen := by
    obtain ⟨routine, hold, hfinished, -⟩ := hnoted.routines hget
    intro other hm finished span
    rcases List.mem_append.mp hm with hm | hm
    · exact h.unfinished hold (hfinished hopen).1 other hm finished span
    · cases List.mem_singleton.mp hm
      exact (hfinished hopen).2 finished span

/-! ## What calls note -/

theorem unnoted_of_eq (hdebug : story'.wantsDebug = story.wantsDebug)
    (hregistry : story'.registry = story.registry) (hroutines : story'.routines = story.routines) :
    Unnoted story story' where
  wantsDebug := hdebug
  registry := hregistry
  size := Nat.le_of_eq (by rw [hroutines])
  routines {index routine'} hget := by
    rw [hroutines] at hget
    exact .inl ⟨routine', hget, rfl, id⟩

theorem unnoted_modify {place : Nat} {f : Routine → Routine} {log : Array Log.Event}
    (hf : ∀ routine, story.routines[place]? = some routine →
      (f routine).directives = routine.directives ∧
        ((f routine).isFinished = false → routine.isFinished = false)) :
    Unnoted story { story with routines := story.routines.modify place f, log } where
  wantsDebug := rfl
  registry := rfl
  size := by simp
  routines {index routine'} hget := by
    simp only [Array.getElem?_modify] at hget
    left
    split at hget
    · rename_i he
      subst he
      obtain ⟨routine, hold, rfl⟩ := Option.map_eq_some_iff.mp hget
      exact ⟨routine, hold, hf routine hold⟩
    · exact ⟨routine', hget, rfl, id⟩

theorem unnoted_record (definition : Definition) : Unnoted story (definition.record story) := by
  cases definition with
  | routine name isEntryPoint cleansStack =>
    refine ⟨rfl, rfl, ?_, fun {index routine'} hget => ?_⟩
    · show story.routines.size ≤ (story.routines.push _).size
      simp
    · have hget' : (story.routines.push _)[index]? = some routine' := hget
      rw [Array.getElem?_push] at hget'
      split at hget'
      · rename_i he
        obtain rfl := Option.some.inj hget'
        exact .inr ⟨by omega, rfl⟩
      · exact .inl ⟨routine', hget', rfl, id⟩
  | _ => exact unnoted_of_eq rfl rfl rfl

/-- A change of the registry alone. -/
theorem noted_registry {registry : Registry} (hindex : mention.index? = none)
    (hfiles : registry.files.toList =
      match mention.file? with
      | some file => addFile story.registry.files.toList file
      | none => story.registry.files.toList)
    (hstored : registry.stored.toList = story.registry.stored.toList ++
      (mention.stored? (fileIdIn registry.files.toList)).toList) :
    Noted story { story with registry } mention where
  wantsDebug := rfl
  size := rfl
  files := hfiles
  stored := hstored
  isOpen index he := by simp [hindex] at he
  routines {index routine'} hget := by
    have hne : mention.index? ≠ some index := by simp [hindex]
    refine ⟨routine', hget, fun hopen => ⟨hopen, ?_⟩, ?_⟩
    · rintro finished span rfl
      cases hindex
    · exact (Mention.texts_around hne _ _).symm

/-- A change of a routine that is open, perhaps after its file was named. -/
theorem noted_modify (mention : Mention) {registry : Registry} {place : Nat} {routine : Routine}
    {f : Routine → Routine} {log : Array Log.Event} (hget : story.routines[place]? = some routine)
    (hopen : routine.isFinished = false) (hindex : mention.index? = some place)
    (hfiles : registry.files.toList =
      match mention.file? with
      | some file => addFile story.registry.files.toList file
      | none => story.registry.files.toList)
    (hstored : registry.stored = story.registry.stored)
    (hfinished : (f routine).isFinished = false → ∀ finished span, mention ≠ .finished place finished span)
    (hdirectives : (f routine).directives =
      (mention.front? (fileIdIn registry.files.toList) place).toList ++
        (routine.directives ++ (mention.inner? (fileIdIn registry.files.toList) place).toList) ++
        (mention.back? (fileIdIn registry.files.toList) place).toList) :
    Noted story { story with routines := story.routines.modify place f, registry, log } mention where
  wantsDebug := rfl
  size := by simp
  files := hfiles
  stored := by
    have hnone : ∀ ids, mention.stored? ids = none := by
      intro ids
      cases mention with
      | seen | object | record => cases hindex
      | line | directive | finished => rfl
    rw [hnone]
    simp [hstored]
  isOpen index he := by
    obtain rfl := Option.some.inj (hindex.symm.trans he)
    exact ⟨routine, hget, hopen⟩
  routines {index routine'} hget' := by
    simp only [Array.getElem?_modify] at hget'
    split at hget'
    · rename_i he
      subst he
      rw [hget] at hget'
      obtain rfl := Option.some.inj hget'
      exact ⟨routine, hget, fun h => ⟨hopen, hfinished h⟩, hdirectives⟩
    · rename_i hother
      have hne : mention.index? ≠ some index := by
        rw [hindex]
        exact fun he => hother (Option.some.inj he)
      refine ⟨routine', hget', fun h => ⟨h, ?_⟩, ?_⟩
      · rintro finished span rfl
        exact hne rfl
      · exact (Mention.texts_around hne _ _).symm

theorem noted_registryCall (call : Registry.Call) :
    Noted story { story with registry := (call.apply story.registry).2 } call.mention := by
  cases call with
  | fileId file =>
    refine noted_registry rfl (Registry.toList_files_fileId ..) ?_
    show (story.registry.fileId file).2.stored.toList = _ ++ []
    rw [Registry.stored_fileId, List.append_nil]
  | lineRecord span =>
    refine noted_registry rfl (Registry.toList_files_fileId ..) ?_
    show (story.registry.fileId span.file).2.stored.toList = _ ++ []
    rw [Registry.stored_fileId, List.append_nil]
  | markObject object name span =>
    have hfiles : ((story.registry.markObject object name span).files).toList =
        addFile story.registry.files.toList span.file := Registry.toList_files_fileId ..
    refine noted_registry rfl hfiles ?_
    show (story.registry.markObject object name span).stored.toList = _ ++
      [Registry.objectText object name
        (fileIdIn (story.registry.markObject object name span).files.toList span.file) span]
    rw [hfiles, Registry.markObject_eq, ← Registry.fst_fileId]
    simp [Registry.store, Registry.stored_fileId]
  | markAction action name => exact noted_registry rfl rfl (by simp [Registry.Call.apply,
      Registry.markAction, Registry.store, Registry.Call.mention, Mention.stored?])
  | map key value => exact noted_registry rfl rfl (by simp [Registry.Call.apply,
      Registry.map, Registry.store, Registry.Call.mention, Mention.stored?])
  | store record => exact noted_registry rfl rfl (by simp [Registry.Call.apply,
      Registry.store, Registry.Call.mention, Mention.stored?])

/-- A sequence point names its file, and where it is taken it puts a directive into the code. -/
theorem noted_sequencePoint (hdebug : story.wantsDebug = true) (id : RoutineId) (span : Span) :
    Noted story ((Call.sequencePoint id span).next story)
      (if story.routineRefusal id Routine.refusal = none then .line id.index span
        else .seen span.file) := by
  have hrefusal : (Call.sequencePoint id span).refusal story =
      story.routineRefusal id Routine.refusal := by
    simp only [Call.refusal, hdebug, if_true]
  cases h : story.routineRefusal id Routine.refusal with
  | some error =>
    rw [Call.next_of_refusal_eq_some (hrefusal.trans h), if_neg (by simp)]
    simp only [Call.left]
    rw [if_pos hdebug]
    exact noted_registryCall (.lineRecord span)
  | none =>
    rw [Call.next_of_refusal_eq_none (hrefusal.trans h), if_pos rfl]
    simp only [Call.changed]
    rw [if_pos hdebug]
    cases hget : story.routines[id.index]? with
    | none => simp [routineRefusal, hget] at h
    | some routine =>
      have hopen := Routine.isFinished_of_refusal ((routineRefusal_of_get hget).symm.trans h)
      refine noted_modify (.line id.index span) hget hopen rfl (Registry.toList_files_fileId ..)
        (Registry.stored_fileId ..) (fun _ _ _ he => by cases he) ?_
      rw [Routine.directives_debug hopen, Registry.lineRecord_eq, Registry.toList_files_fileId,
        Registry.fst_fileId]
      simp [Mention.front?, Mention.inner?, Mention.back?]

/-- A routine that is finished names the file where it stands. -/
theorem noted_finishRoutine (hdebug : story.wantsDebug = true) {id : RoutineId} {routine : Routine}
    {span : Span} (hget : story.routines[id.index]? = some routine)
    (hopen : routine.isFinished = false) (hspan : routine.span = some span) :
    Noted story ((Call.finishRoutine id).changed story) (.finished id.index routine span) := by
  have hplace : story.placeOf routine = (some ((story.registry.fileId span.file).1, span),
      (story.registry.fileId span.file).2) := by
    simp only [placeOf, hspan, hdebug]
  simp only [Call.changed, hget, hplace]
  refine noted_modify (.finished id.index routine span) hget hopen rfl
    (Registry.toList_files_fileId ..) (Registry.stored_fileId ..) ?_ ?_
  · intro hfinished
    cases hfinished
  · rw [Routine.directives_finish hopen, Registry.toList_files_fileId, Registry.fst_fileId]
    simp [Mention.front?, Mention.inner?, Mention.back?, Routine.startRecord_eq, Routine.endRecord_eq]

theorem unnoted_finishRoutine {id : RoutineId} {routine : Routine}
    (hget : story.routines[id.index]? = some routine) (hopen : routine.isFinished = false)
    (hspan : routine.span = none) : Unnoted story ((Call.finishRoutine id).changed story) := by
  have hplace : story.placeOf routine = (none, story.registry) := by
    simp only [placeOf, hspan]
  simp only [Call.changed, hget, hplace]
  refine unnoted_modify fun other hother => ?_
  obtain rfl := Option.some.inj (hget.symm.trans hother)
  refine ⟨?_, fun _ => hopen⟩
  rw [Routine.directives_finish hopen]
  simp

/-- A call on a routine other than a directive leaves the directives alone. -/
theorem Call.notes_routine (id : RoutineId) (call : Routine.Call) :
    Notes story ((Call.routine id call).next story) ((Call.routine id call).mention? story) := by
  by_cases hdirective : ∃ text, call = .debug text
  · obtain ⟨text, rfl⟩ := hdirective
    have hrefusal : (Call.routine id (.debug text)).refusal story =
        story.routineRefusal id Routine.refusal := rfl
    cases h : story.routineRefusal id Routine.refusal with
    | some error =>
      have hmention : (Call.routine id (.debug text)).mention? story = none := by
        simp only [mention?, h, reduceCtorEq, if_false]
      rw [hmention, next_of_refusal_eq_some (hrefusal.trans h)]
      exact unnoted_of_eq rfl rfl rfl
    | none =>
      have hmention : (Call.routine id (.debug text)).mention? story =
          some (.directive id.index text) := by
        simp only [mention?, h, if_true]
      rw [hmention, next_of_refusal_eq_none (hrefusal.trans h)]
      cases hget : story.routines[id.index]? with
      | none => simp [routineRefusal, hget] at h
      | some routine =>
        have hopen := Routine.isFinished_of_refusal ((routineRefusal_of_get hget).symm.trans h)
        refine noted_modify (.directive id.index text) hget hopen rfl rfl rfl
          (fun _ _ _ he => by cases he) ?_
        rw [Routine.directives_debug hopen]
        simp [Mention.front?, Mention.inner?, Mention.back?]
  · have hne : ∀ text, call ≠ .debug text := fun text he => hdirective ⟨text, he⟩
    have hmention : (Call.routine id call).mention? story = none := by
      cases call with
      | debug text => exact absurd rfl (hne text)
      | _ => rfl
    rw [hmention]
    cases h : (Call.routine id call).refusal story with
    | some error =>
      rw [next_of_refusal_eq_some h]
      exact unnoted_of_eq rfl rfl rfl
    | none =>
      rw [next_of_refusal_eq_none h]
      refine unnoted_modify fun routine _ => ⟨Routine.directives_changed hne routine, ?_⟩
      rw [Routine.isFinished_changed]
      exact fun hopen => hopen

theorem Call.notes_finishRoutine (id : RoutineId) (hdebug : story.wantsDebug = true) :
    Notes story ((Call.finishRoutine id).next story) ((Call.finishRoutine id).mention? story) := by
  cases hget : story.routines[id.index]? with
  | none =>
    have hrefusal : (finishRoutine id).refusal story = some .unknownHandle := by
      simp only [refusal, routineRefusal, hget]
    have hmention : (finishRoutine id).mention? story = none := by simp only [mention?, hget]
    rw [hmention, next_of_refusal_eq_some hrefusal]
    exact unnoted_of_eq rfl rfl rfl
  | some routine =>
    have hrefusal : (finishRoutine id).refusal story = routine.refusal := routineRefusal_of_get hget
    have hmention : (finishRoutine id).mention? story =
        if routine.isFinished then none else routine.span.map (.finished id.index routine) := by
      simp only [mention?, hget]
    rw [hmention]
    cases hopen : routine.isFinished with
    | true =>
      rw [Routine.refusal, hopen] at hrefusal
      rw [next_of_refusal_eq_some hrefusal]
      exact unnoted_of_eq rfl rfl rfl
    | false =>
      rw [Routine.refusal, hopen] at hrefusal
      rw [next_of_refusal_eq_none hrefusal]
      cases hspan : routine.span with
      | none => exact unnoted_finishRoutine hget hopen hspan
      | some span => exact noted_finishRoutine hdebug hget hopen hspan

/-- A call notes what it mentions and nothing else. -/
theorem Call.notes (call : Call) (hdebug : story.wantsDebug = true) :
    Notes story (call.next story) (call.mention? story) := by
  cases call with
  | sequencePoint id span => exact noted_sequencePoint hdebug id span
  | registry call =>
    rw [next_of_refusal_eq_none rfl]
    simp only [changed]
    rw [if_pos hdebug]
    exact noted_registryCall call
  | finishRoutine id => exact notes_finishRoutine id hdebug
  | routine id call => exact notes_routine id call
  | define definition =>
    cases h : (define definition).refusal story with
    | some error =>
      rw [next_of_refusal_eq_some h]
      exact unnoted_of_eq rfl rfl rfl
    | none =>
      rw [next_of_refusal_eq_none h]
      exact unnoted_record definition
  | give id property gift =>
    cases h : (give id property gift).refusal story with
    | some error =>
      rw [next_of_refusal_eq_some h]
      exact unnoted_of_eq rfl rfl rfl
    | none =>
      rw [next_of_refusal_eq_none h]
      exact unnoted_of_eq rfl rfl rfl
  | number | string | globalValue | propertyValue | tableEntries | wordEntries | change =>
    exact unnoted_of_eq rfl rfl rfl

theorem Recorded.next (h : story.Recorded mentions) (call : Call) :
    (call.next story).Recorded (mentions ++ (call.mention? story).toList) := by
  have hnotes := call.notes h.wantsDebug
  cases hmention : call.mention? story with
  | none =>
    rw [hmention] at hnotes
    rw [Option.toList_none, List.append_nil]
    exact h.keep hnotes
  | some mention =>
    rw [hmention] at hnotes
    exact h.note hnotes

theorem Recorded.after (h : story.Recorded mentions) (calls : List Call) :
    (story.after calls).Recorded (mentions ++ story.mentions calls) := by
  induction calls generalizing story mentions with
  | nil =>
    rw [Story.mentions, List.append_nil]
    exact h
  | cons call calls ih =>
    rw [Story.mentions, ← List.append_assoc]
    exact ih (h.next call)

theorem recorded_new {number : Int} {start : Story} (h : Story.new number true = .ok start) :
    start.Recorded [] := by
  obtain ⟨version, -, hnew⟩ := bind_eq_ok.mp h
  obtain rfl := Except.ok.inj hnew
  exact ⟨rfl, List.nodup_nil, rfl, rfl, fun hget => by simp at hget, by simp, fun hget => by simp at hget⟩

/-! ## Finished stories -/

variable {base : String} {keeps : Bool} {fault : Segment → Stage → Option DiskError}

theorem directives_mainStatements (story : Story) (base : String) :
    (story.mainStatements base).flatMap Statement.directives =
      story.routines.toList.flatMap fun routine => (routine.body.getD []).flatMap Statement.directives := by
  have hheader : List.flatMap Statement.directives
      (if story.version.hasHeaderBlock then headerStatements story.version else []) = [] := by
    split <;> rfl
  simp only [mainStatements, List.flatMap_append, hheader]
  simp [Statement.directives, List.flatMap_assoc]

/-- The code of all routines, one after the other. -/
theorem Recorded.directives_main (h : story.Recorded mentions)
    (hfinished : ∀ routine ∈ story.routines, ∃ body, routine.body = some body) (base : String) :
    (story.mainStatements base).flatMap Statement.directives =
      (List.range story.routines.size).flatMap fun index =>
      Mention.directivesOf (fileIdIn (Mention.files mentions)) index mentions := by
  have hids : story.fileIdOf = fileIdIn (Mention.files mentions) := congrArg fileIdIn h.files
  have hrange : (List.range story.routines.size) = story.routines.toList.zipIdx.map Prod.snd := by
    rw [List.zipIdx_map_snd, ← List.range_eq_range', Array.length_toList]
  rw [directives_mainStatements, hrange, List.flatMap_map]
  nth_rewrite 1 [← List.zipIdx_map_fst 0 story.routines.toList]
  rw [List.flatMap_map]
  refine List.flatMap_congr fun entry hentry => ?_
  obtain ⟨routine, index⟩ := entry
  have hget : story.routines[index]? = some routine := by
    simpa [List.mem_zipIdx_iff_getElem?] using hentry
  obtain ⟨body, hbody⟩ := hfinished routine (Array.mem_of_getElem? hget)
  have hcode := h.code hget
  rw [Routine.directives, hbody, hids] at hcode
  rw [hbody]
  exact hcode

/-- A record that gives a name to a symbol and names no file. -/
def IsNaming (record : String) : Prop :=
  ∃ directive symbol name : String, directive ∈ ["ATTR", "PROP", "GLOBAL", "ARRAY"] ∧
    record = s!".DEBUG-{directive} {symbol},{Text.quote name}"

theorem isNaming_map {ι : Type} {directive : String}
    (hmem : directive ∈ ["ATTR", "PROP", "GLOBAL", "ARRAY"]) (symbol name : ι → String) (xs : List ι) :
    ∀ record ∈ xs.map (fun x => s!".DEBUG-{directive} {symbol x},{Text.quote (name x)}"),
      IsNaming record := by
  intro record hrecord
  obtain ⟨x, -, rfl⟩ := List.mem_map.mp hrecord
  exact ⟨directive, symbol x, name x, hmem, rfl⟩

/-- Files come first and stored records last. -/
theorem exists_debugRecords_eq (story : Story) : ∃ named,
    story.debugRecords = story.registry.fileIds.map (fun (id, file) => Registry.fileRecord id file) ++
      named ++ story.registry.stored.toList ∧ ∀ record ∈ named, IsNaming record := by
  have hmiddle : ∀ files flags properties globals tables stored : List String,
      files ++ flags ++ properties ++ globals ++ tables ++ stored =
        files ++ (flags ++ properties ++ globals ++ tables) ++ stored := by
    intros
    simp only [List.append_assoc]
  refine ⟨_, hmiddle _ _ _ _ _ _, ?_⟩
  simp only [List.forall_mem_append]
  exact ⟨⟨⟨isNaming_map (by decide) _ _ _, isNaming_map (by decide) _ _ _⟩,
    isNaming_map (by decide) _ _ _⟩, isNaming_map (by decide) _ _ _⟩

/-- Without the debug records, no statement of the data segment carries a directive. -/
theorem directives_data {data : List Statement} (hdebug : story.wantsDebug = true)
    (hdata : story.dataStatements = .ok data) : data.flatMap Statement.directives = story.debugRecords := by
  rw [dataStatements_plain hdebug] at hdata
  cases hplain : story.plain.dataStatements with
  | error error =>
    rw [hplain] at hdata
    cases hdata
  | ok plain =>
    rw [hplain] at hdata
    obtain rfl := Except.ok.inj hdata
    have hnone : plain.flatMap Statement.directives = [] := by
      refine List.flatMap_eq_nil_iff.mpr fun statement hmem => ?_
      cases lays_of_mem_data hplain statement hmem with
      | debug hwants => cases hwants
      | _ => rfl
    rw [List.flatMap_append, hnone, List.nil_append]
    exact directives_map_debug story.debugRecords

/-- The debug records of both segments go by one list of files, in which `ids` has their places. -/
structure FileIdsAgree (mentions : List Mention) (ids : List (String × Nat)) (routines : Nat)
    (main data : List Statement) : Prop where
  /-- Each file has one id. -/
  distinct : (Mention.files mentions).Nodup
  /-- The map of ids is in step with the files in the order in which they were seen first. -/
  inStep : Registry.InStep (Mention.files mentions) ids
  /-- The data segment lists the files in the order in which they were seen first, from 1 on, and then
  the records with the ids of that list. -/
  records : ∃ named, data.flatMap Statement.directives =
      (Mention.files mentions).zipIdx.map (fun (file, index) => Registry.fileText (index + 1) file) ++
        named ++ Mention.records (fileIdIn (Mention.files mentions)) mentions ∧
    ∀ record ∈ named, IsNaming record
  /-- So do the directives of the routines, in the main segment. -/
  code : main.flatMap Statement.directives = (List.range routines).flatMap fun index =>
    Mention.directivesOf (fileIdIn (Mention.files mentions)) index mentions
  /-- Every file that is mentioned is listed with the id that is used for it. -/
  listed : ∀ mention ∈ mentions, ∀ file, mention.file? = some file →
    Registry.fileText (fileIdIn (Mention.files mentions) file) file ∈ data.flatMap Statement.directives

theorem mem_fileTexts {files : List String} {file : String} (h : file ∈ files) :
    Registry.fileText (fileIdIn files file) file ∈
      files.zipIdx.map (fun (file, index) => Registry.fileText (index + 1) file) := by
  refine List.mem_map.mpr ⟨(file, files.idxOf file), ?_, rfl⟩
  rw [List.mem_zipIdx_iff_getElem?]
  exact List.getElem?_idxOf h

theorem Recorded.fileIdsAgree (h : story.Recorded mentions)
    (hfinished : ∀ routine ∈ story.routines, ∃ body, routine.body = some body) {data : List Statement}
    (hdata : story.dataStatements = .ok data) (base : String) :
    FileIdsAgree mentions story.registry.ids story.routines.size (story.mainStatements base) data := by
  have hids : story.fileIdOf = fileIdIn (Mention.files mentions) := congrArg fileIdIn h.files
  obtain ⟨named, hrecords, hnamed⟩ := story.exists_debugRecords_eq
  have hfiles : story.registry.fileIds.map (fun (id, file) => Registry.fileRecord id file) =
      (Mention.files mentions).zipIdx.map
        (fun (file, index) => Registry.fileText (index + 1) file) := by
    rw [Registry.fileIds, List.map_map, h.files]
    rfl
  rw [hfiles, h.stored, hids, ← directives_data h.wantsDebug hdata] at hrecords
  refine ⟨h.files ▸ h.nodup, h.files ▸ story.registry.inStep, ⟨named, hrecords, hnamed⟩,
    h.directives_main hfinished base, ?_⟩
  intro mention hm file hfile
  rw [hrecords, List.append_assoc]
  exact List.mem_append_left _ (mem_fileTexts (Mention.mem_files hm hfile))

/-- **Records of both segments name files by the ids that the data segment lists**, whichever calls are
made before the story is finished. -/
theorem fileIdsAgree_after (number : Int) {start : Story} (hstart : Story.new number true = .ok start)
    (calls : List Call) (base : String) (keeps : Bool) (fault : Segment → Stage → Option DiskError)
    (hok : ((start.after calls).output base keeps fault).1 = .ok ()) :
    ∃ main data,
      ((start.after calls).output base keeps fault).2.main = some (sourceText main) ∧
      ((start.after calls).output base keeps fault).2.data = some (sourceText data) ∧
      FileIdsAgree (start.mentions (calls ++ (start.after calls).closings))
        (start.after calls).closed.registry.ids (start.after calls).routines.size main data := by
  obtain ⟨data, hdata, hmain, hwritten⟩ := exists_output_eq_sourceText hok
  have hrecorded := (recorded_new hstart).after (calls ++ (start.after calls).closings)
  rw [List.nil_append, after_append] at hrecorded
  refine ⟨_, data, hmain, hwritten, ?_⟩
  rw [← (sameNames_closed (start.after calls)).size_routines]
  exact Recorded.fileIdsAgree hrecorded (fun _ => exists_body_of_mem_closed) hdata base

/-- A sequence point, an object and the places of two routines, in three files. The second routine is
finished with the story, and its file gets an id only then. -/
def threeFiles : List Call :=
  [.define (.routine "MAIN" true false), .routine ⟨0⟩ (.place (.point "a.zil" 1 1)),
    .sequencePoint ⟨0⟩ (.point "b.zil" 2 3), .routine ⟨0⟩ (.emit .newLine), .finishRoutine ⟨0⟩,
    .define (.routine "LATE" false false), .routine ⟨1⟩ (.place (.point "c.zil" 7 1)),
    .registry (.markObject "CLOAK" "cloak" (.point "b.zil" 9 1))]

theorem fileIdsAgree_after_threeFiles :
    ∃ start main data, Story.new 5 true = .ok start ∧
      ((start.after threeFiles).output "story" false fun _ _ => none).1 = .ok () ∧
      Mention.files (start.mentions (threeFiles ++ (start.after threeFiles).closings)) =
        ["b.zil", "a.zil", "c.zil"] ∧
      FileIdsAgree (start.mentions (threeFiles ++ (start.after threeFiles).closings))
        [("c.zil", 3), ("a.zil", 2), ("b.zil", 1)] 2 main data := by
  obtain ⟨start, hstart, hobjects, hsize, hids, hfiles⟩ : ∃ start, Story.new 5 true = .ok start ∧
      (start.after threeFiles).objects.size = 0 ∧ (start.after threeFiles).routines.size = 2 ∧
      (start.after threeFiles).closed.registry.ids = [("c.zil", 3), ("a.zil", 2), ("b.zil", 1)] ∧
      Mention.files (start.mentions (threeFiles ++ (start.after threeFiles).closings)) =
        ["b.zil", "a.zil", "c.zil"] :=
    ⟨_, rfl, by decide +kernel, by decide +kernel, by decide +kernel, by decide +kernel⟩
  have hfit : (start.after threeFiles).TablesFit := by
    intro object hobject
    rw [Array.eq_empty_of_size_eq_zero hobjects] at hobject
    exact absurd hobject (Array.not_mem_empty object)
  have hok := output_eq_ok hfit "story" false
  obtain ⟨main, data, -, -, hagree⟩ :=
    fileIdsAgree_after 5 hstart threeFiles "story" false (fun _ _ => none) hok
  rw [hsize, hids] at hagree
  exact ⟨start, main, data, hstart, hok, hfiles, hagree⟩

end Story

end StoryAsm
