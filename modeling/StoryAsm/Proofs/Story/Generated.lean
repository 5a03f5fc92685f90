import StoryAsm.Proofs.Story.Introduced
import StoryAsm.Proofs.Text.Parts

/-!
# Generated symbols

The symbols that the segments need are not in the symbol table, so a call can define one of them again.
No two generated symbols are the same. Each symbol that is written is therefore defined once if and only
if no call defined a generated symbol, and only the name of a constant, a global, a routine, an object or
a flag can be one (`Story.definedSymbols_after`).
-/

namespace StoryAsm

/-- The symbol of a thing of the kind is its name, with no mark in front. -/
def SymbolKind.keepsName : SymbolKind → Bool
  | .constant | .global | .routine | .object | .flag => true
  | .table | .property | .word => false

namespace Story

variable {story : Story}

/-! ## Names of generated symbols -/

/-- The generated symbols that are the same in all stories. -/
def marks : List String :=
  ["GLOBAL", "OBJECT", "IMPURE", "VOCAB", "ENDLOD", "START", "FSTR?DUMMY", "WORDS"]

theorem sublist_marks (story : Story) (keeps : Bool) :
    (["GLOBAL", "OBJECT", "IMPURE", "VOCAB", "ENDLOD"] ++ story.starts ++
      if keeps then [] else ["FSTR?DUMMY", "WORDS"]).Sublist marks := by
  unfold starts
  cases story.entryPoint.isSome <;> cases keeps <;> decide

/-- The name could be that of a generated symbol in some story. -/
def Reserved (name : String) : Prop :=
  name ∈ marks ∨ (∃ index : Nat, name = "STR?" ++ toString index) ∨ ∃ object, name = "?PTBL?" ++ object

theorem reserved_of_mem_generated {keeps : Bool} {name : String} (h : name ∈ story.generated keeps) :
    Reserved name := by
  rcases List.mem_append.mp h with h | h
  · rcases List.mem_append.mp h with h | h
    · exact .inl ((sublist_marks story keeps).subset h)
    · obtain ⟨index, -, rfl⟩ := List.mem_map.mp h
      exact .inr (.inl ⟨index, rfl⟩)
  · obtain ⟨object, -, rfl⟩ := List.mem_map.mp h
    exact .inr (.inr ⟨object, rfl⟩)

/-- The first characters of a name. They tell symbols of different origins apart. -/
def lead (name : String) : List Char :=
  name.toList.take 3

theorem lead_append {mark : String} (h : 3 ≤ mark.toList.length) (rest : String) :
    lead (mark ++ rest) = lead mark := by
  rw [lead, String.toList_append, List.take_append_of_le_length h, lead]

def reservedLeads : List (List Char) :=
  marks.map lead ++ [lead "STR?", lead "?PTBL?"]

theorem lead_of_reserved {name : String} (h : Reserved name) : lead name ∈ reservedLeads := by
  rcases h with h | ⟨index, rfl⟩ | ⟨object, rfl⟩
  · exact List.mem_append_left _ (List.mem_map_of_mem h)
  · rw [lead_append (by decide)]
    decide
  · rw [lead_append (by decide)]
    decide

/-- The names of properties and words have a question mark that no reserved name has. -/
theorem not_reserved_of_mark {mark rest : String} (hmark : mark.toList[1]? = some '?') :
    ¬Reserved (mark ++ rest) := by
  intro hreserved
  have hall : ∀ start ∈ reservedLeads, start[1]? ≠ some '?' := by decide
  apply hall _ (lead_of_reserved hreserved)
  rw [lead, String.toList_append, List.getElem?_take_of_lt (by decide),
    List.getElem?_append_left (List.getElem?_eq_some_iff.mp hmark).1, hmark]

theorem not_reserved_of_mem_freeHeaders {name : String} (h : name ∈ story.freeHeaders) :
    ¬Reserved name := by
  have hall : ∀ header ∈ headerSymbols, lead header ∉ reservedLeads := by decide
  intro hreserved
  unfold freeHeaders at h
  split at h
  · exact hall name (List.mem_of_mem_filter h) (lead_of_reserved hreserved)
  · cases h

theorem Orderly.keepsName_of_reserved (h : story.Orderly) {kind : SymbolKind} {name : String}
    (hmem : name ∈ story.names kind) (hreserved : Reserved name) : kind.keepsName = true := by
  cases kind with
  | constant | global | routine | object | flag => rfl
  | table =>
    obtain ⟨index, -, rfl⟩ := List.mem_map.mp hmem
    have hlead := lead_of_reserved hreserved
    rw [show s!"TBL?{index}" = "TBL?" ++ toString index from rfl, lead_append (by decide)] at hlead
    exact absurd hlead (by decide)
  | property =>
    obtain ⟨property, -, rfl⟩ := List.mem_map.mp hmem
    have hmark : "P?".toList[1]? = some '?' := by decide
    exact absurd hreserved (not_reserved_of_mark hmark)
  | word =>
    obtain ⟨rest, rfl⟩ := h.words name hmem
    exact absurd hreserved (not_reserved_of_mark (by decide))

/-! ## Symbols that are defined twice -/

theorem Consistent.nodup_generated (h : story.Consistent) (keeps : Bool) :
    (story.generated keeps).Nodup := by
  have hmarks : marks.Nodup := by decide
  refine List.nodup_append.mpr ⟨List.nodup_append.mpr ⟨hmarks.sublist (sublist_marks story keeps),
    List.nodup_range.map (numbered_injective "STR?"), ?_⟩,
    (h.nodup .object).map fun _ _ => (String.append_right_inj _).mp, ?_⟩
  · intro name hmem name' hmem' hname
    obtain ⟨index, -, rfl⟩ := List.mem_map.mp hmem'
    have hlead : lead name ∈ marks.map lead :=
      List.mem_map_of_mem ((sublist_marks story keeps).subset hmem)
    rw [hname, lead_append (by decide)] at hlead
    exact absurd hlead (by decide)
  · intro name hmem name' hmem' hname
    obtain ⟨object, -, rfl⟩ := List.mem_map.mp hmem'
    have hlead : lead name ∈ marks.map lead ++ [lead "STR?"] := by
      rcases List.mem_append.mp hmem with hmem | hmem
      · exact List.mem_append_left _ (List.mem_map_of_mem ((sublist_marks story keeps).subset hmem))
      · obtain ⟨index, -, rfl⟩ := List.mem_map.mp hmem
        rw [lead_append (by decide)]
        decide
    rw [hname, lead_append (by decide)] at hlead
    exact absurd hlead (by decide)

/-- Nothing but a definition with the name of a generated symbol defines a symbol twice. -/
theorem Consistent.nodup_symbols_iff (h : story.Consistent) (keeps : Bool) :
    (SymbolKind.all.flatMap story.names ++ story.freeHeaders ++ story.generated keeps).Nodup ↔
      ∀ kind, ∀ name ∈ story.names kind, name ∉ story.generated keeps := by
  have hall : ∀ kind, kind ∈ SymbolKind.all := by
    intro kind
    cases kind <;> decide
  have hmem : ∀ {name}, name ∈ SymbolKind.all.flatMap story.names ↔ ∃ kind, name ∈ story.names kind := by
    intro name
    rw [List.mem_flatMap]
    exact exists_congr fun kind => and_iff_right (hall kind)
  constructor
  · intro hnodup kind name hname hgenerated
    exact (List.nodup_append.mp hnodup).2.2 name
      (List.mem_append_left _ (hmem.mpr ⟨kind, hname⟩)) name hgenerated rfl
  · intro hapart
    refine List.nodup_append.mpr ⟨List.nodup_append.mpr ⟨h.nodup_names, nodup_freeHeaders story, ?_⟩,
      h.nodup_generated keeps, ?_⟩
    · intro name hname header hheader hsame
      obtain ⟨kind, hname⟩ := hmem.mp hname
      exact h.ne_of_mem_freeHeaders kind header hheader name hname hsame.symm
    · rintro name hname _ hgenerated rfl
      rcases List.mem_append.mp hname with hname | hheader
      · obtain ⟨kind, hname⟩ := hmem.mp hname
        exact hapart kind name hname hgenerated
      · exact not_reserved_of_mem_freeHeaders hheader (reserved_of_mem_generated hgenerated)

/-! ## Names that calls define -/

/-- The names of a kind that the call defines: none if it is refused. -/
def Call.accepted (story : Story) : Call → SymbolKind → List String
  | .define definition, kind =>
    match (Call.define definition).result story with
    | .ok _ => if kind = definition.kind then [definition.symbol story] else []
    | .error _ => []
  | _, _ => []

/-- The names of a kind that calls define, in their order. -/
def accepted (story : Story) : List Call → SymbolKind → List String
  | [], _ => []
  | call :: calls, kind => call.accepted story kind ++ (call.next story).accepted calls kind

theorem Call.names_next (call : Call) (story : Story) (kind : SymbolKind) :
    (call.next story).names kind = story.names kind ++ call.accepted story kind := by
  cases call with
  | define definition =>
    have hrun := (Call.define definition).run_perform story
    cases hrejection : (Call.define definition).refusal story with
    | some error =>
      rw [hrejection] at hrun
      rw [accepted, result, next, hrun]
      exact (List.append_nil _).symm
    | none =>
      rw [hrejection] at hrun
      rw [accepted, result, next, hrun]
      refine (definition.names_record kind).trans ?_
      split
      · rfl
      · exact (List.append_nil _).symm
  | _ =>
    refine ((sameNames_next ?_).names kind).trans (List.append_nil _).symm
    intro definition hdefine
    cases hdefine

theorem names_after (calls : List Call) (story : Story) (kind : SymbolKind) :
    (story.after calls).names kind = story.names kind ++ story.accepted calls kind := by
  induction calls generalizing story with
  | nil => exact (List.append_nil _).symm
  | cons call calls ih =>
    show ((call.next story).after calls).names kind = _
    rw [ih, call.names_next, List.append_assoc]
    rfl

theorem names_new {number : Int} {wantsDebug : Bool} (h : Story.new number wantsDebug = .ok story)
    (kind : SymbolKind) : story.names kind = [] := by
  obtain ⟨version, -, h⟩ := bind_eq_ok.mp h
  obtain rfl := Except.ok.inj h
  cases kind <;> rfl

/-! ## Stories that were written -/

theorem Orderly.withLog (h : story.Orderly) (log : Array Log.Event) :
    Orderly { story with log } where
  consistent := ⟨h.consistent.kinds, h.consistent.nodup, h.consistent.tables⟩
  bodies := h.bodies
  starts := h.starts
  words := h.words

/-- What is written when a story is finished, and the symbols that it defines. -/
theorem Orderly.symbols_finish {story' : Story} {texts : SegmentTexts} {base : String}
    {keeps : Bool} {fault : Segment → Stage → Option DiskError} (h : story.Orderly)
    (hwrites : Writes (finish (.memory base keeps fault)) story {} () story' texts) :
    story'.Orderly ∧ (∀ kind, story'.names kind = story.names kind) ∧
      ∃ data, story'.dataStatements = .ok data ∧ texts = story'.allTexts base keeps data ∧
        ((story'.written base keeps data).filterMap Statement.symbol?).Perm
          (SymbolKind.all.flatMap story'.names ++ story'.freeHeaders ++ story'.generated keeps) := by
  obtain ⟨closed, hclosed, ⟨log, rfl⟩, data, hdata, htexts⟩ := exists_of_writes_finish hwrites
  obtain rfl : closed = story.closed :=
    congrArg Prod.snd (hclosed.symm.trans (run_finishRoutines story))
  have horderly : Orderly { story.closed with log } := (h.after story.closings).withLog log
  exact ⟨horderly, (sameNames_closed story).names, data, hdata, htexts,
    symbols_written horderly (fun _ => exists_body_of_mem_closed) hdata base keeps⟩

/-- How the symbols that calls define and the generated symbols share the statements of a story. -/
structure DefinedSymbols (start : Story) (calls : List Call) (story : Story) (keeps : Bool)
    (statements : List Statement) : Prop where
  /-- Statements define the names that calls defined, the header symbols that the story lacks and the
  generated symbols. -/
  symbols : (statements.filterMap Statement.symbol?).Perm
    (SymbolKind.all.flatMap (start.accepted calls) ++ story.freeHeaders ++ story.generated keeps)
  /-- Each symbol is defined once if and only if no call defined a generated symbol. -/
  nodup_iff : (statements.filterMap Statement.symbol?).Nodup ↔
    ∀ kind, ∀ name ∈ start.accepted calls kind, name ∉ story.generated keeps
  /-- No call did if the kinds that keep their names have no reserved name. -/
  apart : (∀ kind, kind.keepsName = true → ∀ name ∈ start.accepted calls kind, ¬Reserved name) →
    ∀ kind, ∀ name ∈ start.accepted calls kind, name ∉ story.generated keeps

/-- **Names that calls define are apart from generated symbols if none of them is reserved**, whichever
calls are made on a new story before it is written. -/
theorem definedSymbols_after (number : Int) (wantsDebug : Bool) {start : Story}
    (hstart : Story.new number wantsDebug = .ok start) (calls : List Call) {base : String} {keeps : Bool}
    {fault : Segment → Stage → Option DiskError} {story : Story} {texts : SegmentTexts}
    (hwrites : Writes (finish (.memory base keeps fault)) (start.after calls) {} () story texts) :
    ∃ data, story.dataStatements = .ok data ∧ texts = story.allTexts base keeps data ∧
      DefinedSymbols start calls story keeps (story.written base keeps data) := by
  obtain ⟨horderly, hnames, data, hdata, htexts, hperm⟩ :=
    ((orderly_new hstart).after calls).symbols_finish hwrites
  have haccepted : ∀ kind, story.names kind = start.accepted calls kind := by
    intro kind
    rw [hnames, names_after, names_new hstart, List.nil_append]
  refine ⟨data, hdata, htexts, ?_, ?_, ?_⟩
  · rw [← funext haccepted]
    exact hperm
  · rw [hperm.nodup_iff, horderly.consistent.nodup_symbols_iff]
    simp only [haccepted]
  · intro hfree kind name hmem hgenerated
    have hreserved := reserved_of_mem_generated hgenerated
    rw [← haccepted] at hmem
    have hkeeps := horderly.keepsName_of_reserved hmem hreserved
    rw [haccepted] at hmem
    exact hfree kind hkeeps name hmem hreserved

/-- A story with an object and a string defines each symbol once, the table of the object and the string
among them. -/
theorem definedSymbols_lamp :
    ∃ start story texts data, Story.new 3 false = .ok start ∧
      Writes (finish (.memory "game" false fun _ _ => none))
        (start.after [.define (.object "LAMP"), .string "Brass."]) {} () story texts ∧
      DefinedSymbols start [.define (.object "LAMP"), .string "Brass."] story false
        (story.written "game" false data) ∧
      ((story.written "game" false data).filterMap Statement.symbol?).Nodup := by
  obtain ⟨start, hstart⟩ : ∃ start, Story.new 3 false = .ok start := ⟨_, rfl⟩
  have haccepted : ∀ kind, ∀ name ∈ start.accepted [.define (.object "LAMP"), .string "Brass."] kind,
      name = "LAMP" := by
    cases hstart
    intro kind name hmem
    have hlamp : Symbol.ofName "LAMP" = "LAMP" := Symbol.ofName_of_all (by decide)
    cases kind with
    | object => exact (List.mem_singleton.mp hmem).trans hlamp
    | _ => cases hmem
  have hbare : (start.after [.define (.object "LAMP"), .string "Brass."]).Bare := by
    cases hstart
    refine ⟨fun routine hmem => absurd hmem (Array.not_mem_empty routine), fun object hmem => ?_,
      fun word hmem => absurd hmem (Array.not_mem_empty word)⟩
    rcases Array.mem_push.mp hmem with hmem | rfl
    · exact absurd hmem (Array.not_mem_empty object)
    · rfl
  obtain ⟨tables, htables⟩ := hbare.exists_propertyTables
  obtain ⟨_, story, texts, hwrites⟩ := exists_writes_finish hbare.routines htables
  obtain ⟨data, -, -, hsymbols⟩ := definedSymbols_after 3 false hstart _ hwrites
  refine ⟨start, story, texts, data, hstart, hwrites, hsymbols, hsymbols.nodup_iff.mpr ?_⟩
  refine hsymbols.apart fun kind _ name hmem hreserved => ?_
  rw [haccepted kind name hmem] at hreserved
  exact absurd (lead_of_reserved hreserved) (by decide)

/-- A global named `GLOBAL` is defined, and the story is written with two definitions of the name. -/
theorem not_nodup_globalMark :
    ∃ start story texts data, Story.new 3 false = .ok start ∧
      start.accepted [.define (.global "GLOBAL")] .global = ["GLOBAL"] ∧
      Writes (finish (.memory "game" false fun _ _ => none))
        (start.after [.define (.global "GLOBAL")]) {} () story texts ∧
      "GLOBAL" ∈ story.generated false ∧ story.dataStatements = .ok data ∧
      texts = story.allTexts "game" false data ∧
      ¬((story.written "game" false data).filterMap Statement.symbol?).Nodup := by
  obtain ⟨start, hstart⟩ : ∃ start, Story.new 3 false = .ok start := ⟨_, rfl⟩
  have haccepted : start.accepted [.define (.global "GLOBAL")] .global = ["GLOBAL"] := by
    cases hstart
    show [Symbol.ofName "GLOBAL"] = _
    rw [Symbol.ofName_of_all (by decide)]
  obtain ⟨_, story, texts, hwrites⟩ : ∃ a story texts,
      Writes (finish (.memory "game" false fun _ _ => none))
        (start.after [.define (.global "GLOBAL")]) {} a story texts := by
    cases hstart
    exact exists_writes_finish (fun routine hmem => absurd hmem (Array.not_mem_empty routine)) rfl
  obtain ⟨horderly, hnames, data, hdata, htexts, hperm⟩ :=
    ((orderly_new hstart).after _).symbols_finish hwrites
  have hgenerated : "GLOBAL" ∈ story.generated false := by simp [generated]
  refine ⟨start, story, texts, data, hstart, haccepted, hwrites, hgenerated, hdata, htexts, ?_⟩
  rw [hperm.nodup_iff, horderly.consistent.nodup_symbols_iff]
  intro hapart
  refine hapart .global "GLOBAL" ?_ hgenerated
  rw [hnames, names_after, haccepted]
  exact List.mem_append_right _ (List.mem_singleton.mpr rfl)

end Story

end StoryAsm
