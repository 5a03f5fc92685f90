import Mathlib.Data.List.Basic
import StoryAsm.Proofs.Operand.Pool
import StoryAsm.Proofs.Text.Quoted
import StoryAsm.Proofs.World.Fit

/-!
# The string segment

Each string of a story has a line in the string segment with its name and its text. The text may hold any
characters, also quotes and ends of lines. Reading the lines (`Story.readStrings`) gives the names and the
texts of the pool (`Story.readStrings_stringStatements`), which depend only on what was asked of it
(`Story.interned_requests`).
-/

namespace StoryAsm

open Text

/-- The names of the strings with their texts, in ascending order of the texts. -/
def Pool.namedStrings (pool : Pool) : List (String × String) :=
  pool.sortedStrings.map fun entry => (entry.2.text, entry.1)

namespace Story

/-! ## Reading the segment -/

/-- Reads the line of a string: its name and its text, and what follows the line. -/
def readPacked (input : List Char) : Option ((String × String) × List Char) :=
  (input.dropPrefix? "\t.GSTR ".toList).bind fun line =>
    -- a name has no comma, while the text behind it may have any
    let name := line.takeWhile (· ≠ ',')
    (readQuoted (line.drop (name.length + 1))).bind fun read =>
      (read.2.dropPrefix? ['\n']).map fun rest =>
        ((String.ofList name, String.ofList read.1), rest)

theorem length_le_of_dropPrefix? {input mark rest : List Char} (h : input.dropPrefix? mark = some rest) :
    rest.length ≤ input.length := by
  obtain ⟨front, rfl, -⟩ := List.dropPrefix?_eq_some_iff.mp h
  rw [List.length_append]
  exact Nat.le_add_left ..

theorem length_lt_of_readPacked {input rest : List Char} {entry : String × String}
    (h : readPacked input = some (entry, rest)) : rest.length < input.length := by
  obtain ⟨line, hline, h⟩ := Option.bind_eq_some_iff.mp h
  obtain ⟨⟨content, behind⟩, hread, h⟩ := Option.bind_eq_some_iff.mp h
  obtain ⟨rest', hrest, heq⟩ := Option.map_eq_some_iff.mp h
  obtain ⟨-, rfl⟩ := Prod.mk.inj heq
  calc rest'.length
    _ ≤ behind.length := length_le_of_dropPrefix? hrest
    _ < (line.drop _).length := length_lt_of_readQuoted hread
    _ ≤ line.length := (List.drop_sublist ..).length_le
    _ ≤ input.length := length_le_of_dropPrefix? hline

/-- Reads a whole segment: the names and the texts of its strings. -/
def readStrings (input : List Char) : Option (List (String × String)) :=
  if input = [] then some []
  else
    match _h : readPacked input with
    | none => none
    | some (entry, rest) => (readStrings rest).map (entry :: ·)
termination_by input.length
decreasing_by exact length_lt_of_readPacked ‹_›

theorem readStrings_of_readPacked {input rest : List Char} {entry : String × String}
    (h : readPacked input = some (entry, rest)) :
    readStrings input = (readStrings rest).map (entry :: ·) := by
  have hne : input ≠ [] := by
    rintro rfl
    exact Nat.not_lt_zero _ (length_lt_of_readPacked h)
  rw [readStrings, if_neg hne]
  split
  · rename_i hnone
    rw [hnone] at h
    cases h
  · rename_i hsome
    obtain ⟨rfl, rfl⟩ := Prod.mk.inj (Option.some.inj (hsome.symm.trans h))
    rfl

theorem toList_text_packedString (name content : String) :
    (Statement.packedString name content).text.toList =
      "\t.GSTR ".toList ++ (name.toList ++ ',' :: ((quote content).toList ++ ['\n'])) := by
  simp [Statement.text, Statement.indented]

theorem readPacked_text {name : String} (hname : ',' ∉ name.toList) (content : String) (rest : List Char) :
    readPacked ((Statement.packedString name content).text.toList ++ rest) =
      some ((name, content), rest) := by
  have hmark : ∀ mark line : List Char, (mark ++ line).dropPrefix? mark = some line :=
    fun mark line => List.dropPrefix?_append_of_beq line (beq_self_eq_true mark)
  have hletters : ∀ c ∈ name.toList, decide (c ≠ ',') = true := by
    intro c hc
    rw [decide_eq_true_eq]
    rintro rfl
    exact hname hc
  have htake : ∀ line, (name.toList ++ ',' :: line).takeWhile (· ≠ ',') = name.toList := by
    intro line
    rw [List.takeWhile_append_of_pos hletters]
    simp
  have hdrop : ∀ line, (name.toList ++ ',' :: line).drop (name.toList.length + 1) = line := by
    intro line
    simp
  have hread := @readQuoted_quote content (['\n'] ++ rest) (by simp)
  rw [toList_text_packedString, List.append_assoc, List.append_assoc, List.cons_append, List.append_assoc,
    readPacked, hmark, Option.bind_some]
  simp only [htake, hdrop]
  rw [hread, Option.bind_some, hmark, String.ofList_toList, String.ofList_toList]
  rfl

theorem readStrings_sourceText (entries : List (String × String))
    (h : ∀ entry ∈ entries, ',' ∉ entry.1.toList) :
    readStrings (sourceText (entries.map fun entry => .packedString entry.1 entry.2)).toList =
      some entries := by
  induction entries with
  | nil => rw [readStrings]; rfl
  | cons entry entries ih =>
    have hline := readPacked_text (h entry List.mem_cons_self) entry.2
    have hrest := ih fun other hother => h other (List.mem_cons_of_mem _ hother)
    rw [List.map_cons, ← List.singleton_append, sourceText_append, sourceText_singleton,
      String.toList_append, readStrings_of_readPacked (hline _), hrest]
    rfl

/-! ## Strings of a story -/

variable {story : Story}

theorem comma_notMem_text_string (index : Nat) (content : String) :
    ',' ∉ (Operand.string index content).text.toList := by
  have htext : (Operand.string index content).text = "STR?" ++ toString index := rfl
  rw [htext, String.toList_append, List.mem_append]
  rintro (hmark | hdigit)
  · exact absurd hmark (by decide)
  · rw [Nat.toString_eq_ofList_toDigits, String.toList_ofList] at hdigit
    exact absurd (Nat.isDigit_of_mem_toDigits (by decide) (by decide) hdigit) (by decide)

theorem readStrings_stringStatements (story : Story) :
    readStrings (sourceText story.stringStatements).toList = some story.pool.namedStrings := by
  have hstatements : story.stringStatements =
      story.pool.namedStrings.map fun entry => .packedString entry.1 entry.2 := by
    rw [Pool.namedStrings, List.map_map]
    rfl
  rw [hstatements]
  refine readStrings_sourceText _ fun entry hentry => ?_
  obtain ⟨⟨content, operand⟩, hmem, rfl⟩ := List.mem_map.mp hentry
  obtain ⟨index, -, rfl⟩ := Pool.mem_sortedStrings.mp hmem
  exact comma_notMem_text_string index content

theorem strings_output {base : String} {keeps : Bool} {fault : Segment → Stage → Option DiskError}
    (hok : (story.output base keeps fault).1 = .ok ()) :
    (story.output base keeps fault).2.strings = some (sourceText story.stringStatements) := by
  obtain ⟨data, -, htexts⟩ := exists_output_eq_allTexts hok
  obtain ⟨routines, registry, log, hclosed⟩ := story.exists_closed
  rw [htexts, hclosed]
  rfl

/-- What a call asks of the pool. -/
def Call.request? : Call → Option Pool.Request
  | number value => some (.number value)
  | string content => some (.string content)
  | _ => none

theorem Call.pool_next (call : Call) (story : Story) :
    (call.next story).pool = story.pool.after call.request?.toList := by
  cases h : call.refusal story with
  | some error =>
    obtain ⟨registry, hleft⟩ := call.exists_left story
    rw [next_of_refusal_eq_some h, hleft]
    cases call with
    | number | string => cases h
    | _ => rfl
  | none =>
    rw [next_of_refusal_eq_none h]
    cases call with
    | define definition => cases definition <;> rfl
    | sequencePoint | registry =>
      simp only [changed]
      split <;> rfl
    | finishRoutine id =>
      simp only [changed]
      split <;> rfl
    | _ => rfl

/-- The pool of a story has what the calls asked for. -/
theorem pool_after (calls : List Call) (story : Story) :
    (story.after calls).pool = story.pool.after (calls.filterMap Call.request?) := by
  induction calls generalizing story with
  | nil => rfl
  | cons call calls ih =>
    have hstep : (story.after (call :: calls)).pool = ((call.next story).after calls).pool := rfl
    rw [hstep, ih, call.pool_next]
    cases h : call.request? with
    | none =>
      rw [List.filterMap_cons_none h]
      rfl
    | some request =>
      rw [List.filterMap_cons_some h]
      rfl

/-- **Strings are interned**: whatever is asked of the pool of a story, requests get the same instance if
and only if they ask for the same, and different strings have different names. The string segment has each
text once, in ascending order, and reading it gives the names and the texts back. -/
theorem interned_requests (requests : List Pool.Request) {story : Story}
    (hpool : story.pool = ({} : Pool).after requests) :
    Pool.Interned requests (({} : Pool).made requests) story.pool ∧
    ∀ base keeps fault, (story.output base keeps fault).1 = .ok () →
      ∃ text, (story.output base keeps fault).2.strings = some text ∧
        readStrings text.toList = some story.pool.namedStrings := by
  refine ⟨?_, fun base keeps fault hok => ⟨_, strings_output hok, story.readStrings_stringStatements⟩⟩
  rw [hpool, Pool.after_eq]
  exact Pool.interned_holding requests

/-- Strings with quotes, with an end of line and with nothing at all. -/
def stringCalls : List Call :=
  [.string "say \"hi\"", .number 5, .define (.global "FOO"), .string "", .string "say \"hi\"",
    .string "a\nb", .number 0]

theorem interned_stringCalls :
    ∃ start, Story.new 3 false = .ok start ∧
      Pool.Interned (.zero :: .stack :: stringCalls.filterMap Call.request?)
        (({} : Pool).made (.zero :: .stack :: stringCalls.filterMap Call.request?))
        (start.after stringCalls).pool ∧
      ∃ text, ((start.after stringCalls).output "game" false fun _ _ => none).2.strings = some text ∧
        readStrings text.toList = some [("STR?1", ""), ("STR?2", "a\nb"), ("STR?0", "say \"hi\"")] := by
  obtain ⟨start, hstart, hnew, hempty, hstrings⟩ : ∃ start, Story.new 3 false = .ok start ∧
      start.pool = {} ∧
      (start.after stringCalls).objects.toList.all (·.properties.isEmpty) = true ∧
      (start.after stringCalls).pool.strings = #["say \"hi\"", "", "a\nb"] :=
    ⟨_, rfl, rfl, by decide +kernel, by decide +kernel⟩
  have hsorted : (start.after stringCalls).pool.sortedStrings =
      [("", .string 1 ""), ("a\nb", .string 2 "a\nb"), ("say \"hi\"", .string 0 "say \"hi\"")] := by
    rw [Pool.sortedStrings, hstrings]
    simp [List.mergeSort]
  have hpool := pool_after stringCalls start
  rw [hnew] at hpool
  obtain ⟨hinterned, hwritten⟩ :=
    interned_requests (.zero :: .stack :: stringCalls.filterMap Call.request?) hpool
  have hok := output_eq_ok (tablesFit_of_isEmpty hempty) "game" false
  obtain ⟨text, htext, hread⟩ := hwritten "game" false _ hok
  rw [Pool.namedStrings, hsorted] at hread
  exact ⟨start, hstart, hinterned, text, htext, hread⟩

end Story

end StoryAsm
