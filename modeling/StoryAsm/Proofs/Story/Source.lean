import StoryAsm.Proofs.Routine.Legible
import StoryAsm.Proofs.Story.Introduced
import StoryAsm.Proofs.Story.Layout

/-!
# Reading the data segment

The statements of the data segment are read back from what is written for them, one after the other
(`Statement.read?_text`, `readSource_sourceText`). They can be read if their names and values are tokens and
their debug records end with the line. In a story all names are tokens, so its data segment is read as the
statements that it was written for, if its operands are tokens as well (`Story.readSource_data`,
`Story.exists_readSource_output`).
-/

namespace StoryAsm

open Text

/-! ## Readers -/

/-- The token that the input begins with, and what follows it. -/
def readToken (input : List Char) : String × List Char :=
  (String.ofList (input.takeWhile isTokenChar), input.dropWhile isTokenChar)

/-- The rest of the line, and what follows the line. -/
def readLine? (input : List Char) : Option (List Char × List Char) :=
  match input.dropWhile (· ≠ '\n') with
  | [] => none
  | _ :: rest => some (input.takeWhile (· ≠ '\n'), rest)

/-- Values with commas between them, up to the end of the line. -/
def readValues? (input : List Char) : Option (List String × List Char) := do
  let (line, rest) ← readLine? input
  return ((line.splitOn ',').map String.ofList, rest)

/-- A literal at the end of the line. -/
def readLiteral? (input : List Char) : Option (String × List Char) :=
  match readQuoted input with
  | some (text, '\n' :: rest) => some (String.ofList text, rest)
  | _ => none

namespace Statement

/-- An object record with the values. -/
def ofRecord? (values : List String) : Option Statement := do
  let table :: child :: sibling :: parent :: more := values.reverse | none
  let name :: flags := more.reverse | none
  return .object name (← flags.mapM (·.toNat?)) parent sibling child table

/-- A name at the end of the line, with a value or without. -/
def readBinding? (input : List Char) : Option (String × Option String × List Char) :=
  match readToken input with
  | (name, '\n' :: rest) => some (name, none, rest)
  | (name, '=' :: rest) =>
    match readToken rest with
    | (value, '\n' :: rest) => some (name, some value, rest)
    | _ => none
  | _ => none

/-- What stands behind the name of a directive. -/
def readOperands? (directive : String) (input : List Char) : Option (Statement × List Char) := do
  match directive with
  | "GVAR" =>
    let (name, value, rest) ← readBinding? input
    return (.global name value, rest)
  | "BYTE" =>
    let (values, rest) ← readValues? input
    return (.data .byte values, rest)
  | "WORD" =>
    let (values, rest) ← readValues? input
    return (.data .word values, rest)
  | "OBJECT" =>
    let (values, rest) ← readValues? input
    return (← ofRecord? values, rest)
  | "PROP" =>
    let (values, rest) ← readValues? input
    let [size, number] ← values.mapM (·.toNat?) | none
    return (.property size number, rest)
  | "STRL" =>
    let (text, rest) ← readLiteral? input
    return (.shortName text, rest)
  | "ZWORD" =>
    let (text, rest) ← readLiteral? input
    return (.dictionaryWord text, rest)
  | _ => none

/-- A directive behind its period. A debug record is taken as it is. -/
def readDirective? (input : List Char) : Option (Statement × List Char) :=
  if "DEBUG-".toList.isPrefixOf input then
    (readLine? input).map fun (line, rest) => (.debug (String.ofList ('.' :: line)), rest)
  else
    match readToken input with
    | (directive, ' ' :: rest) => readOperands? directive rest
    | _ => none

def readAssignment? (input : List Char) : Option (Statement × List Char) :=
  match readBinding? input with
  | some (name, some value, rest) => some (.assign name value, rest)
  | _ => none

def readLabel? (input : List Char) : Option (Statement × List Char) :=
  match readToken input with
  | (name, ':' :: ':' :: '\n' :: rest) => some (.label name, rest)
  | _ => none

/-- The statement that the input begins with, and what follows it. -/
def read? (input : List Char) : Option (Statement × List Char) :=
  if input.head? = some '\n' then some (.blank, input.tail)
  else if input.head? ≠ some '\t' then readLabel? input
  else if input.tail.head? = some '.' then readDirective? input.tail.tail
  else readAssignment? input.tail

end Statement

/-- The statements of a segment. -/
def readSource (input : List Char) : Option (List Statement) :=
  if input = [] then some []
  else
    match Statement.read? input with
    | none => none
    | some (statement, rest) =>
      if rest.length < input.length then (readSource rest).map (statement :: ·) else none
termination_by input.length

/-! ## Statements that can be read -/

theorem readToken_append {token : String} (h : IsToken token) {c : Char} (hc : isTokenChar c = false)
    (rest : List Char) : readToken (token.toList ++ c :: rest) = (token, c :: rest) := by
  have hall := List.all_eq_true.mp h
  rw [readToken, List.takeWhile_append_of_pos hall, List.dropWhile_append_of_pos hall]
  simp [hc]

theorem readLine?_append {line : List Char} (h : '\n' ∉ line) (rest : List Char) :
    readLine? (line ++ '\n' :: rest) = some (line, rest) := by
  have hall : ∀ c ∈ line, decide (c ≠ '\n') = true := by
    intro c hc
    rw [decide_eq_true_eq]
    rintro rfl
    exact h hc
  rw [readLine?, List.takeWhile_append_of_pos hall, List.dropWhile_append_of_pos hall]
  simp

theorem readLiteral?_quote (text : String) (rest : List Char) :
    readLiteral? ((quote text).toList ++ '\n' :: rest) = some (text, rest) := by
  rw [readLiteral?, readQuoted_quote text (by simp)]
  simp

theorem IsToken.notMem {token : String} (h : IsToken token) {c : Char} (hc : isTokenChar c = false) :
    c ∉ token.toList := by
  intro hmem
  rw [List.all_eq_true.mp h c hmem] at hc
  cases hc

theorem IsToken.head?_ne {token : String} (h : IsToken token) {c mark : Char} (hc : isTokenChar c = false)
    (hmark : mark ≠ c) (rest : List Char) : (token.toList ++ mark :: rest).head? ≠ some c := by
  cases hchars : token.toList with
  | nil => simpa using hmark
  | cons first chars =>
    intro heq
    have hfirst : first = c := Option.some.inj heq
    exact h.notMem hc (by simp [hchars, hfirst])

theorem notMem_intercalate {values : List String} (h : ∀ value ∈ values, IsToken value) :
    '\n' ∉ [','].intercalate (values.map String.toList) := by
  cases values with
  | nil => simp
  | cons value values =>
    obtain ⟨hfirst, hrest⟩ := List.forall_mem_cons.mp h
    rw [List.map_cons, LineBody.intercalate_comma, List.mem_append, List.mem_flatMap]
    rintro (hmem | ⟨other, hother, hmem⟩)
    · exact hfirst.notMem (by decide) hmem
    · exact (hrest other hother).notMem (by decide) ((List.mem_cons.mp hmem).resolve_left (by decide))

theorem readValues?_intercalate {values : List String} (hne : values ≠ [])
    (h : ∀ value ∈ values, IsToken value) (rest : List Char) :
    readValues? ((",".intercalate values).toList ++ '\n' :: rest) = some (values, rest) := by
  have hcomma : ∀ value ∈ values.map String.toList, ',' ∉ value :=
    List.forall_mem_map.mpr fun value hmem => (h value hmem).notMem (by decide)
  have hsplit := List.splitOn_intercalate ',' hcomma (by simpa using hne)
  rw [String.toList_intercalate, readValues?, show ",".toList = [','] from rfl,
    readLine?_append (notMem_intercalate h)]
  show some ((List.splitOn ',' ([','].intercalate (values.map String.toList))).map String.ofList, rest) = _
  rw [hsplit, List.map_map]
  simp

namespace Statement

/-- The statement belongs to the data segment, and its parts can be told apart. -/
def Legible : Statement → Prop
  | blank | shortName _ | dictionaryWord _ | property .. => True
  | label name => IsToken name
  | assign name value => IsToken name ∧ IsToken value
  | global name value => IsToken name ∧ ∀ text ∈ value, IsToken text
  | data _ values => values ≠ [] ∧ ∀ text ∈ values, IsToken text
  | object name _ parent sibling child table =>
    IsToken name ∧ IsToken parent ∧ IsToken sibling ∧ IsToken child ∧ IsToken table
  | debug record => ∃ rest, record.toList = ".DEBUG-".toList ++ rest ∧ '\n' ∉ rest
  | _ => False

theorem mapM_toNat? (numbers : List Nat) :
    numbers.mapM ((·.toNat?) ∘ toString) = some numbers := by
  induction numbers with
  | nil => rfl
  | cons number numbers ih =>
    have hnumber : (toString number).toNat? = some number := Nat.toNat?_repr number
    rw [List.mapM_cons, Function.comp_apply, hnumber, ih]
    rfl

theorem ofRecord?_append (name : String) (flags : List Nat) (parent sibling child table : String) :
    ofRecord? ([name] ++ flags.map toString ++ [parent, sibling, child, table]) =
      some (.object name flags parent sibling child table) := by
  simp [ofRecord?, mapM_toNat?]

theorem readLabel?_append {name : String} (h : IsToken name) (rest : List Char) :
    readLabel? (name.toList ++ ':' :: ':' :: '\n' :: rest) = some (.label name, rest) := by
  rw [readLabel?, readToken_append h (by decide)]
  rfl

theorem readBinding?_binding {name : String} {value : Option String} (hname : IsToken name)
    (hvalue : ∀ text ∈ value, IsToken text) (rest : List Char) :
    readBinding? ((binding name value).toList ++ '\n' :: rest) = some (name, value, rest) := by
  cases value with
  | none =>
    rw [binding, readBinding?, readToken_append hname (by decide)]
    rfl
  | some text =>
    have hchars : (binding name (some text)).toList ++ '\n' :: rest =
        name.toList ++ '=' :: (text.toList ++ '\n' :: rest) := by simp [binding]
    have hrest := readToken_append (hvalue text rfl) (show isTokenChar '\n' = false by decide) rest
    rw [hchars, readBinding?, readToken_append hname (by decide)]
    simp only [hrest]

theorem readDirective?_append {directive : String} (h : IsToken directive)
    (hdebug : directive.toList.head? ≠ some 'D') (input : List Char) :
    readDirective? (directive.toList ++ ' ' :: input) = readOperands? directive input := by
  -- The names of all directives that have operands differ from debug records in their first letter.
  have hfirst : ¬"DEBUG-".toList.isPrefixOf (directive.toList ++ ' ' :: input) = true := by
    rw [List.isPrefixOf_iff_prefix]
    rintro ⟨rest, hrest⟩
    cases hchars : directive.toList with
    | nil =>
      rw [hchars] at hrest
      cases hrest
    | cons c chars =>
      rw [hchars] at hrest hdebug
      exact hdebug (congrArg List.head? hrest).symm
  rw [readDirective?, if_neg hfirst, readToken_append h (by decide)]
  rfl

theorem read?_directive {directive : String} (h : IsToken directive)
    (hdebug : directive.toList.head? ≠ some 'D') (operands : String) (rest : List Char) :
    read? ((indented ("." ++ directive ++ " " ++ operands)).toList ++ rest) =
      readOperands? directive (operands.toList ++ '\n' :: rest) := by
  have hchars : (indented ("." ++ directive ++ " " ++ operands)).toList ++ rest =
      '\t' :: '.' :: (directive.toList ++ ' ' :: (operands.toList ++ '\n' :: rest)) := by simp [indented]
  rw [hchars, read?, if_neg (by simp), if_neg (by simp), if_pos (by simp), List.tail_cons, List.tail_cons,
    readDirective?_append h hdebug]

variable {statement : Statement}

/-- Reading what is written for a statement gives the statement back, and leaves what follows it. -/
theorem read?_text (h : statement.Legible) (rest : List Char) :
    read? (statement.text.toList ++ rest) = some (statement, rest) := by
  cases statement with
  | blank => rfl
  | label name =>
    have hchars : (label name).text.toList ++ rest = name.toList ++ ':' :: ':' :: '\n' :: rest := by
      simp [text]
    rw [hchars, read?, if_neg (IsToken.head?_ne h (by decide) (by decide) _),
      if_pos (IsToken.head?_ne h (by decide) (by decide) _), readLabel?_append h]
  | assign name value =>
    have hchars : (assign name value).text.toList ++ rest =
        '\t' :: ((binding name (some value)).toList ++ '\n' :: rest) := by simp [text, indented]
    have hfirst : ((binding name (some value)).toList ++ '\n' :: rest).head? ≠ some '.' := by
      rw [binding, String.toList_append, String.toList_append, List.append_assoc, List.append_assoc]
      exact IsToken.head?_ne h.1 (by decide) (by decide) _
    have hvalue : ∀ text ∈ some value, IsToken text := by simpa using h.2
    rw [hchars, read?, if_neg (by simp), if_neg (by simp), List.tail_cons, if_neg hfirst, readAssignment?,
      readBinding?_binding h.1 hvalue]
  | global name value =>
    refine (read?_directive (show IsToken "GVAR" by decide) (by decide) _ rest).trans ?_
    rw [readOperands?, readBinding?_binding h.1 h.2]
    rfl
  | data width values =>
    have hvalues := readValues?_intercalate h.1 h.2 rest
    cases width with
    | byte =>
      refine (read?_directive (show IsToken "BYTE" by decide) (by decide) _ rest).trans ?_
      rw [readOperands?, hvalues]
      rfl
    | word =>
      refine (read?_directive (show IsToken "WORD" by decide) (by decide) _ rest).trans ?_
      rw [readOperands?, hvalues]
      rfl
  | object name flags parent sibling child table =>
    obtain ⟨hname, hparent, hsibling, hchild, htable⟩ := h
    have hvalues : ∀ value ∈ [name] ++ flags.map toString ++ [parent, sibling, child, table],
        IsToken value := by
      simp only [List.forall_mem_append, List.forall_mem_cons, List.forall_mem_map]
      exact ⟨⟨⟨hname, List.forall_mem_nil _⟩, fun flag _ => .toString_nat flag⟩, hparent, hsibling, hchild,
        htable, List.forall_mem_nil _⟩
    refine (read?_directive (show IsToken "OBJECT" by decide) (by decide) _ rest).trans ?_
    rw [readOperands?, readValues?_intercalate (by simp) hvalues]
    show (ofRecord? _ >>= fun object => some (object, rest)) = _
    rw [ofRecord?_append]
    rfl
  | shortName text =>
    refine (read?_directive (show IsToken "STRL" by decide) (by decide) _ rest).trans ?_
    rw [readOperands?, readLiteral?_quote]
    rfl
  | dictionaryWord text =>
    refine (read?_directive (show IsToken "ZWORD" by decide) (by decide) _ rest).trans ?_
    rw [readOperands?, readLiteral?_quote]
    rfl
  | property size number =>
    have hvalues : ∀ value ∈ [size, number].map toString, IsToken value :=
      List.forall_mem_map.mpr fun value _ => .toString_nat value
    have htext : (property size number).text =
        indented ("." ++ "PROP" ++ " " ++ ",".intercalate ([size, number].map toString)) := by
      simp only [text, List.map_cons, List.map_nil, String.intercalate_cons_cons,
        String.intercalate_singleton, ← String.append_assoc]
      rfl
    rw [htext, read?_directive (by decide) (by decide), readOperands?,
      readValues?_intercalate (by simp) hvalues]
    show (([size, number].map toString).mapM (·.toNat?) >>= fun _ => _) = _
    rw [List.mapM_map, mapM_toNat?]
    rfl
  | debug record =>
    obtain ⟨line, hline, hend⟩ := h
    have hchars : (debug record).text.toList ++ rest =
        '\t' :: '.' :: ("DEBUG-".toList ++ line ++ '\n' :: rest) := by simp [text, indented, hline]
    have hline' : '\n' ∉ "DEBUG-".toList ++ line := by simpa using hend
    rw [hchars, read?, if_neg (by simp), if_neg (by simp), if_pos (by simp), List.tail_cons, List.tail_cons,
      readDirective?, if_pos (by simp), readLine?_append hline']
    have hrecord : String.ofList ('.' :: ("DEBUG-".toList ++ line)) = record := by
      rw [← String.toList_inj, String.toList_ofList, hline]
      rfl
    simp only [Option.map_some, hrecord]
  | packedString | frequentString | entry | version | insert | endOfSource | routine | code | lastLabel =>
    exact h.elim

theorem text_ne_nil (h : statement.Legible) : statement.text.toList ≠ [] := by
  intro hnil
  have hread := read?_text h []
  rw [hnil] at hread
  cases hread

end Statement

/-- The statements of a segment are read back from its text. -/
theorem readSource_sourceText {statements : List Statement}
    (h : ∀ statement ∈ statements, statement.Legible) :
    readSource (sourceText statements).toList = some statements := by
  induction statements with
  | nil => rw [readSource, if_pos (by simp [sourceText])]
  | cons statement statements ih =>
    obtain ⟨hfirst, hrest⟩ := List.forall_mem_cons.mp h
    have hne := Statement.text_ne_nil hfirst
    rw [← List.singleton_append, sourceText_append, sourceText_singleton, String.toList_append, readSource,
      if_neg (by simp [hne]), Statement.read?_text hfirst]
    have hlt : (sourceText statements).toList.length <
        (statement.text.toList ++ (sourceText statements).toList).length := by
      have hpos := List.length_pos_iff.mpr hne
      rw [List.length_append]
      omega
    simp only [if_pos hlt, ih hrest, Option.map_some, List.singleton_append]

/-! ## Names and values of stories -/

theorem Definition.isToken_symbol (definition : Definition) (story : Story) :
    IsToken (definition.symbol story) := by
  cases definition with
  | constant name _ | global name | routine name _ _ | object name | flag name => exact .ofName name
  | table _ => exact .append (a := "TBL?") (by decide) (.toString_nat _)
  | property name => exact .append (a := "P?") (by decide) (.ofName name)
  | word text => exact .append (a := "W?") (by decide) (.ofName _)

namespace Story

variable {story start : Story} {data : List Statement}

/-- All names are tokens. -/
def TokenNames (story : Story) : Prop :=
  ∀ kind, ∀ name ∈ story.names kind, IsToken name

theorem tokenNames_new {number : Int} {wantsDebug : Bool} (h : Story.new number wantsDebug = .ok story) :
    story.TokenNames := by
  obtain ⟨version, -, h⟩ := bind_eq_ok.mp h
  obtain rfl := Except.ok.inj h
  intro kind name hmem
  cases kind <;> cases hmem

theorem TokenNames.next (h : story.TokenNames) (call : Call) : (call.next story).TokenNames := by
  intro kind name hmem
  rcases call.next_cases story with ⟨definition, -, hnext⟩ | hsame
  · rw [hnext, Definition.names_record] at hmem
    split at hmem
    · rcases List.mem_append.mp hmem with hmem | hmem
      · exact h kind name hmem
      · rw [List.mem_singleton.mp hmem]
        exact definition.isToken_symbol story
    · exact h kind name hmem
  · rw [hsame.names] at hmem
    exact h kind name hmem

theorem TokenNames.after (h : story.TokenNames) (calls : List Call) : (story.after calls).TokenNames :=
  after_induction (fun _ call h => h.next call) calls h

theorem TokenNames.isToken_of_cites (h : story.TokenNames)
    (hoperands : ∀ operand, story.Uses operand → IsToken operand.text) {text : String}
    (hcites : story.Cites text) : IsToken text := by
  cases hcites with
  | number value => exact .toString_int value
  | operand huses => exact hoperands _ huses
  | object hobject => exact h .object _ (List.mem_map_of_mem (Array.mem_toList_iff.mpr hobject))
  | table hobject =>
    exact .append (by decide) (h .object _ (List.mem_map_of_mem (Array.mem_toList_iff.mpr hobject)))

theorem TokenNames.isToken_of_symbol? (h : story.TokenNames) (hconsistent : story.Consistent)
    (hdata : story.dataStatements = .ok data) {statement : Statement} (hmem : statement ∈ data)
    {name : String} (hname : statement.symbol? = some name) : IsToken name := by
  have hheaders : ∀ header ∈ headerSymbols, IsToken header := by decide
  have hmarks : ∀ mark ∈ ["GLOBAL", "OBJECT", "IMPURE", "VOCAB", "ENDLOD"], IsToken mark := by decide
  have hall := (symbols_data hconsistent hdata).subset (List.mem_filterMap.mpr ⟨statement, hmem, hname⟩)
  simp only [List.mem_append] at hall
  rcases hall with ((((((((hfree | hflag) | hproperty) | hconstant) | hglobal) | hobject) | htable) | hword) |
    hmark) | htables
  · unfold freeHeaders at hfree
    split at hfree
    · exact hheaders name (List.mem_of_mem_filter hfree)
    · cases hfree
  · exact h _ name hflag
  · exact h _ name hproperty
  · exact h _ name hconstant
  · exact h _ name hglobal
  · exact h _ name hobject
  · exact h _ name htable
  · exact h _ name hword
  · exact hmarks name hmark
  · obtain ⟨object, hobject, rfl⟩ := List.mem_map.mp htables
    exact .append (by decide) (h _ object hobject)

/-- A statement of the data segment can be read if its symbol is a token and so are the texts that the
segment refers to. -/
theorem Lays.legible {statement : Statement} (h : story.Lays statement)
    (hsymbol : ∀ name, statement.symbol? = some name → IsToken name)
    (hcites : ∀ text, story.Cites text → IsToken text)
    (hrecords : story.wantsDebug = true → ∀ record ∈ story.debugRecords, (Statement.debug record).Legible) :
    statement.Legible := by
  cases h with
  | blank | shortName | property | dictionaryWord => trivial
  | label name => exact hsymbol name rfl
  | assign name hvalue => exact ⟨hsymbol name rfl, hcites _ hvalue⟩
  | global name hvalue => exact ⟨hsymbol name rfl, fun text htext => hcites text (hvalue text htext)⟩
  | data width hne hvalues => exact ⟨hne, fun text htext => hcites text (hvalues text htext)⟩
  | object name flags hparent hsibling hchild htable =>
    exact ⟨hsymbol name rfl, hcites _ hparent, hcites _ hsibling, hcites _ hchild, hcites _ htable⟩
  | debug hwants hrecord => exact hrecords hwants _ hrecord

/-- Whatever the calls are: if the operands that they gave are tokens, the text of the data segment is read
as the statements of the segment. -/
theorem readSource_data {number : Int} {wantsDebug : Bool} (hstart : Story.new number wantsDebug = .ok start)
    (calls : List Call)
    (hoperands : ∀ operand, (start.after calls).Uses operand → IsToken operand.text)
    (hrecords : (start.after calls).wantsDebug = true →
      ∀ record ∈ (start.after calls).debugRecords, (Statement.debug record).Legible)
    (hdata : (start.after calls).dataStatements = .ok data) :
    readSource (sourceText data).toList = some data := by
  have hnames := (tokenNames_new hstart).after calls
  have hconsistent := ((orderly_new hstart).after calls).consistent
  refine readSource_sourceText fun statement hmem => ?_
  exact (lays_of_mem_data hdata statement hmem).legible
    (fun _ hname => hnames.isToken_of_symbol? hconsistent hdata hmem hname)
    (fun _ hcites => hnames.isToken_of_cites hoperands hcites) hrecords

/-- What is written to the data segment is read as the statements of the finished story. -/
theorem exists_readSource_output {number : Int} {wantsDebug : Bool}
    (hstart : Story.new number wantsDebug = .ok start) (calls : List Call) {base : String} {keeps : Bool}
    {fault : Segment → Stage → Option DiskError}
    (hoperands : ∀ operand, (start.after calls).closed.Uses operand → IsToken operand.text)
    (hrecords : (start.after calls).closed.wantsDebug = true →
      ∀ record ∈ (start.after calls).closed.debugRecords, (Statement.debug record).Legible)
    (hok : ((start.after calls).output base keeps fault).1 = .ok ()) :
    ∃ data text, (start.after calls).closed.dataStatements = .ok data ∧
      ((start.after calls).output base keeps fault).2.data = some text ∧
      readSource text.toList = some data := by
  obtain ⟨data, hdata, -, hwritten⟩ := exists_output_eq_sourceText hok
  refine ⟨data, _, hdata, hwritten, ?_⟩
  rw [closed, ← after_append] at hoperands hrecords hdata
  exact readSource_data hstart _ hoperands hrecords hdata

end Story

end StoryAsm
