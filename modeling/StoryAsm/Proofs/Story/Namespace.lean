import StoryAsm.Proofs.Story.Define

/-!
# One namespace

The symbol table lists exactly the things that the story has, each under one name and with its kind
(`Story.Consistent`). A definition under a name that is not taken keeps to this
(`Story.Consistent.record`).
-/

namespace StoryAsm

/-- The symbols of the things of a kind that the story has. -/
def Story.names (story : Story) : SymbolKind → List String
  | .constant => story.constants.toList.map (·.1)
  | .global => story.globals.toList.map (·.name)
  | .table => (List.range story.tables.size).map fun index => s!"TBL?{index}"
  | .routine => story.routines.toList.map (·.name)
  | .object => story.objects.toList.map (·.name)
  | .property => story.properties.toList.map (·.symbol)
  | .flag => story.flags.toList.map (·.name)
  | .word => story.words.toList.map (·.table.name)

namespace Definition

variable {story : Story}

theorem names_record (definition : Definition) (kind : SymbolKind) :
    (definition.record story).names kind =
      if kind = definition.kind then story.names kind ++ [definition.symbol story]
      else story.names kind := by
  cases definition <;> cases kind <;>
    simp [record, claimed, Story.names, Definition.kind, symbol, List.range_succ, Property.symbol]

end Definition

namespace Story

/-- The symbol table and the things that the story has agree. -/
structure Consistent (story : Story) : Prop where
  kinds : ∀ name kind, story.symbols.kind? name = some kind ↔ name ∈ story.names kind
  nodup : ∀ kind, (story.names kind).Nodup
  tables : story.tables.toList.map (·.name) = story.names .table

theorem Consistent.symbol_notMem {story : Story} (h : story.Consistent) {definition : Definition}
    (hfresh : ¬story.symbols.contains (definition.symbol story) = true) (kind : SymbolKind) :
    definition.symbol story ∉ story.names kind := fun hmem =>
  hfresh ((Definition.contains_iff_kind? _ _).mpr ⟨kind, (h.kinds _ _).mpr hmem⟩)

theorem Consistent.record {story : Story} (h : story.Consistent) {definition : Definition}
    (hfresh : ¬story.symbols.contains (definition.symbol story) = true) :
    (definition.record story).Consistent where
  kinds name kind := by
    rw [Definition.kind?_record, Definition.names_record]
    by_cases hname : definition.symbol story = name
    · subst hname
      have hnot := h.symbol_notMem hfresh kind
      by_cases hkind : kind = definition.kind
      · simp [hkind]
      · simp [hkind, Ne.symm hkind, hnot]
    · rw [if_neg hname, h.kinds]
      split
      · simp [Ne.symm hname]
      · rfl
  nodup kind := by
    rw [Definition.names_record]
    split
    · exact nodup_append_singleton (h.nodup kind) (h.symbol_notMem hfresh kind)
    · exact h.nodup kind
  tables := by
    have htables := h.tables
    cases definition <;>
      simp_all [Definition.record, Definition.claimed, names, Definition.symbol, List.range_succ]

theorem consistent_new (version : Version) (wantsDebug : Bool) (log : Array Log.Event) :
    Consistent { version, wantsDebug, log } where
  kinds name kind := by
    cases kind <;> simp [SymbolTable.kind?, names]
  nodup kind := by
    cases kind <;> exact .nil
  tables := rfl

end Story

end StoryAsm
