import StoryAsm.Proofs.Symbol.Name
import StoryAsm.Proofs.Text.Parts

/-!
# Names with the same symbol

The escape of a character has four digits up to the code point U+FFFF, and five or six above it. So the
escape of a character above U+FFFF may begin with the escape of another character, and the digits that
follow may as well be characters of a name. A character whose escape does not begin so is `Symbol.Whole`.
Names of whole characters have different symbols, and every other character shares its symbol with a
longer name (`Symbol.distinguished_iff_whole`).
-/

namespace StoryAsm.Symbol

open StoryAsm.Text

/-! ## Digits of escapes -/

/-- The digits of an escape. -/
def hexCode (code : Nat) : List Char :=
  List.leftpad 4 '0' (Nat.toDigits 16 code)

/-- The value of a hexadecimal digit. -/
def digitValue (c : Char) : Nat :=
  if c.isDigit then c.toNat - 48 else c.toNat - 87

/-- The number that hexadecimal digits stand for. -/
def hexValue (digits : List Char) : Nat :=
  digits.foldl (fun value digit => 16 * value + digitValue digit) 0

theorem digitValue_digitChar {digit : Nat} (h : digit < 16) : digitValue digit.digitChar = digit := by
  have hall : ∀ digit < 16, digitValue digit.digitChar = digit := by decide
  exact hall digit h

theorem hexValue_concat (digits : List Char) (digit : Char) :
    hexValue (digits ++ [digit]) = 16 * hexValue digits + digitValue digit := by
  simp [hexValue]

theorem hexValue_toDigits (code : Nat) : hexValue (Nat.toDigits 16 code) = code := by
  induction code using Nat.strongRecOn with
  | ind code ih =>
    rw [Nat.toDigits_eq_if (by decide)]
    split
    · rename_i hcode
      simpa [hexValue] using digitValue_digitChar hcode
    · have hmod : code % 16 < 16 := Nat.mod_lt _ (by decide)
      rw [hexValue_concat, ih (code / 16) (by omega), digitValue_digitChar hmod]
      omega

theorem hexValue_zeros (count : Nat) (digits : List Char) :
    hexValue (List.replicate count '0' ++ digits) = hexValue digits := by
  have hzeros : hexValue (List.replicate count '0') = 0 := by
    induction count with
    | zero => rfl
    | succ count ih =>
      rw [List.replicate_succ', hexValue_concat, ih]
      rfl
  simp only [hexValue] at hzeros ⊢
  rw [List.foldl_append, hzeros]

theorem hexValue_hexCode (code : Nat) : hexValue (hexCode code) = code := by
  rw [hexCode, List.leftpad, hexValue_zeros, hexValue_toDigits]

theorem hexCode_inj {code code' : Nat} (h : hexCode code = hexCode code') : code = code' := by
  rw [← hexValue_hexCode code, h, hexValue_hexCode]

theorem four_le_length_hexCode (code : Nat) : 4 ≤ (hexCode code).length := by
  rw [hexCode, List.length_leftpad]
  exact Nat.le_max_left ..

theorem length_hexCode {code : Nat} (h : code < 0x10000) : (hexCode code).length = 4 := by
  have hlength : (Nat.toDigits 16 code).length ≤ 4 :=
    (Nat.length_toDigits_le_iff (by decide) (by decide)).mpr h
  rw [hexCode, List.length_leftpad]
  exact Nat.max_eq_left hlength

theorem isSymbolChar_of_mem_hexCode {code : Nat} {c : Char} (h : c ∈ hexCode code) :
    isSymbolChar c = true ∧ c ≠ '$' := by
  have hdigit : c.isAlphanum = true := by
    rcases List.mem_append.mp h with h | h
    · rw [(List.mem_replicate.mp h).2]
      rfl
    · exact isAlphanum_of_mem_toDigits h
  refine ⟨isSymbolChar_of_isAlphanum hdigit, ?_⟩
  rintro rfl
  cases hdigit

/-! ## What characters contribute -/

theorem encodeChar_of_isSymbolChar {c : Char} (h : isSymbolChar c = true) : encodeChar c = [c] :=
  if_pos h

theorem encodeChar_of_escaped {c : Char} (h : isSymbolChar c = false) :
    encodeChar c = '$' :: hexCode c.toNat := by
  rw [encodeChar, h]
  rfl

theorem encodeChar_ne_nil (c : Char) : encodeChar c ≠ [] := by
  cases hc : isSymbolChar c with
  | true => simp [encodeChar_of_isSymbolChar hc]
  | false => simp [encodeChar_of_escaped hc]

theorem flatMap_encodeChar_eq_nil {chars : List Char} (h : chars.flatMap encodeChar = []) :
    chars = [] := by
  cases chars with
  | nil => rfl
  | cons c chars =>
    rw [List.flatMap_cons] at h
    exact absurd (List.append_eq_nil_iff.mp h).1 (encodeChar_ne_nil c)

/-- The escape of the character does not begin with the escape of another. -/
def Whole (c : Char) : Prop :=
  isSymbolChar c = false → ∀ first rest, isSymbolChar first = false →
    hexCode c.toNat = hexCode first.toNat ++ rest → rest = []

theorem whole_of_lt {c : Char} (h : c.toNat < 0x10000) : Whole c := by
  intro _ first rest _ hcode
  have hlength := congrArg List.length hcode
  have hfour := four_le_length_hexCode first.toNat
  rw [length_hexCode h, List.length_append] at hlength
  exact List.length_eq_zero_iff.mp (by omega)

/-- Where two parts of a symbol agree, either both characters are kept and the same, or both are
escaped. -/
theorem encodeChar_append_cases {c d : Char} {xs ys : List Char} (hc : c ≠ '$') (hd : d ≠ '$')
    (h : encodeChar c ++ xs = encodeChar d ++ ys) :
    c = d ∧ xs = ys ∨ isSymbolChar c = false ∧ isSymbolChar d = false ∧
      hexCode c.toNat ++ xs = hexCode d.toNat ++ ys := by
  cases hkept : isSymbolChar c with
  | true =>
    rw [encodeChar_of_isSymbolChar hkept] at h
    cases hkept' : isSymbolChar d with
    | true =>
      rw [encodeChar_of_isSymbolChar hkept'] at h
      exact .inl (List.cons.inj h)
    | false =>
      rw [encodeChar_of_escaped hkept'] at h
      exact absurd (List.cons.inj h).1 hc
  | false =>
    rw [encodeChar_of_escaped hkept] at h
    cases hkept' : isSymbolChar d with
    | true =>
      rw [encodeChar_of_isSymbolChar hkept'] at h
      exact absurd (List.cons.inj h).1.symm hd
    | false =>
      rw [encodeChar_of_escaped hkept'] at h
      exact .inr ⟨rfl, rfl, (List.cons.inj h).2⟩

theorem eq_of_hexCode_eq {c d : Char} (h : hexCode c.toNat = hexCode d.toNat) : c = d :=
  Char.toNat_inj.mp (hexCode_inj h)

/-- Whole characters are told apart where two symbols are compared from the left. -/
theorem encodeChar_append_inj {c d : Char} {xs ys : List Char} (hc : c ≠ '$') (hd : d ≠ '$')
    (hwhole : Whole c) (hwhole' : Whole d) (h : encodeChar c ++ xs = encodeChar d ++ ys) :
    c = d ∧ xs = ys := by
  rcases encodeChar_append_cases hc hd h with heq | ⟨hescaped, hescaped', h⟩
  · exact heq
  · rcases List.append_eq_append_iff.mp h with ⟨rest, hcode, htail⟩ | ⟨rest, hcode, htail⟩
    · have hrest := hwhole' hescaped' c rest hescaped hcode
      subst hrest
      exact ⟨(eq_of_hexCode_eq (by simpa using hcode)).symm, htail⟩
    · have hrest := hwhole hescaped d rest hescaped' hcode
      subst hrest
      exact ⟨eq_of_hexCode_eq (by simpa using hcode), htail.symm⟩

theorem flatMap_encodeChar_inj {chars chars' : List Char} (hchars : ∀ c ∈ chars, c ≠ '$' ∧ Whole c)
    (hchars' : ∀ c ∈ chars', c ≠ '$' ∧ Whole c)
    (h : chars.flatMap encodeChar = chars'.flatMap encodeChar) : chars = chars' :=
  flatMap_inj (fun c _ => encodeChar_ne_nil c)
    (fun hc hd => encodeChar_append_inj hc.1 hd.1 hc.2 hd.2) hchars hchars' h

/-! ## Names -/

/-- The name holds no escape and is not one of the words for punctuation. -/
structure IsPlain (name : String) : Prop where
  dollar : '$' ∉ name.toList
  mark : name ≠ "." ∧ name ≠ "," ∧ name ≠ "\""

theorem IsPlain.toList_ofName {name : String} (h : IsPlain name) :
    (ofName name).toList = name.toList.flatMap encodeChar := by
  obtain ⟨hperiod, hcomma, hquote⟩ := h.mark
  rw [ofName, if_neg hperiod, if_neg hcomma, if_neg hquote, String.toList_ofList]

theorem IsPlain.eq_of_ofName_eq {a b : String} (ha : IsPlain a) (hb : IsPlain b)
    (hwhole : ∀ c ∈ a.toList ++ b.toList, Whole c) (h : ofName a = ofName b) : a = b := by
  have hchars : ∀ {name : String}, IsPlain name → (∀ c ∈ name.toList, Whole c) →
      ∀ c ∈ name.toList, c ≠ '$' ∧ Whole c :=
    fun hplain hwhole c hm => ⟨fun hc => hplain.dollar (hc ▸ hm), hwhole c hm⟩
  have hlist : (ofName a).toList = (ofName b).toList := by rw [h]
  rw [ha.toList_ofName, hb.toList_ofName] at hlist
  refine String.toList_inj.mp (flatMap_encodeChar_inj (hchars ha ?_) (hchars hb ?_) hlist)
  · exact fun c hm => hwhole c (List.mem_append_left _ hm)
  · exact fun c hm => hwhole c (List.mem_append_right _ hm)

/-- A whole character alone is the only name with its symbol. -/
theorem IsPlain.eq_singleton {c : Char} {name : String} (hc : IsPlain (String.singleton c))
    (hname : IsPlain name) (hwhole : Whole c) (h : ofName name = ofName (String.singleton c)) :
    name = String.singleton c := by
  have hdollar : c ≠ '$' := by
    rintro rfl
    exact hc.dollar (by simp)
  have hlist : (ofName name).toList = (ofName (String.singleton c)).toList := by rw [h]
  rw [hname.toList_ofName, hc.toList_ofName, String.toList_singleton, List.flatMap_singleton] at hlist
  refine String.toList_inj.mp ?_
  rw [String.toList_singleton]
  cases hchars : name.toList with
  | nil =>
    rw [hchars] at hlist
    exact absurd hlist.symm (encodeChar_ne_nil c)
  | cons d chars =>
    have hdollar' : d ≠ '$' := by
      rintro rfl
      exact hname.dollar (by simp [hchars])
    rw [hchars, List.flatMap_cons, ← List.append_nil (encodeChar c)] at hlist
    rcases encodeChar_append_cases hdollar' hdollar hlist with ⟨rfl, htail⟩ | ⟨hd, hescaped, hcode⟩
    · rw [flatMap_encodeChar_eq_nil htail]
    · rw [List.append_nil] at hcode
      have htail := hwhole hescaped d _ hd hcode.symm
      rw [htail, List.append_nil] at hcode
      rw [flatMap_encodeChar_eq_nil htail, eq_of_hexCode_eq hcode]

/-- A character that is not whole has a second name: the character whose escape its own begins with, and
the digits that follow. -/
theorem IsPlain.exists_ne_singleton {c : Char} (hc : IsPlain (String.singleton c)) (h : ¬Whole c) :
    ∃ name, IsPlain name ∧ ofName name = ofName (String.singleton c) ∧ name ≠ String.singleton c := by
  simp only [Whole, Classical.not_forall] at h
  obtain ⟨hescaped, first, rest, hfirst, hcode, hrest⟩ := h
  have hdigits : ∀ d ∈ rest, isSymbolChar d = true ∧ d ≠ '$' := fun d hd =>
    isSymbolChar_of_mem_hexCode (hcode ▸ List.mem_append_right _ hd)
  have hlong : 1 < (first :: rest).length := Nat.succ_lt_succ (List.length_pos_iff.mpr hrest)
  have hne : ∀ {text : String}, text.toList.length = 1 → String.ofList (first :: rest) ≠ text := by
    rintro text hlength rfl
    rw [String.toList_ofList] at hlength
    omega
  have hplain : IsPlain (String.ofList (first :: rest)) := by
    refine ⟨?_, hne rfl, hne rfl, hne rfl⟩
    rw [String.toList_ofList]
    intro hm
    rcases List.mem_cons.mp hm with rfl | hm
    · cases hfirst
    · exact (hdigits _ hm).2 rfl
  refine ⟨_, hplain, String.toList_inj.mp ?_, hne (by simp)⟩
  have hkept : rest.flatMap encodeChar = rest :=
    flatMap_encodeChar (List.all_eq_true.mpr fun d hd => (hdigits d hd).1)
  rw [hplain.toList_ofName, hc.toList_ofName, String.toList_ofList, String.toList_singleton,
    List.flatMap_cons, List.flatMap_singleton, hkept, encodeChar_of_escaped hfirst,
    encodeChar_of_escaped hescaped, hcode]
  rfl

/-- Names of whole characters are told apart by their symbols. This is exact: a character alone is the
only name with its symbol if and only if it is whole. All characters up to U+FFFF are whole. -/
theorem distinguished_iff_whole {a b : String} (ha : IsPlain a) (hb : IsPlain b) :
    ((∀ c ∈ a.toList ++ b.toList, Whole c) → ofName a = ofName b → a = b) ∧
    (∀ c : Char, IsPlain (String.singleton c) →
      ((∀ name, IsPlain name → ofName name = ofName (String.singleton c) → name = String.singleton c) ↔
        Whole c)) ∧
    ∀ c : Char, c.toNat < 0x10000 → Whole c := by
  refine ⟨ha.eq_of_ofName_eq hb, fun c hc => ⟨fun h => ?_, fun hwhole name hname => ?_⟩,
    fun c => whole_of_lt⟩
  · refine Classical.byContradiction fun hwhole => ?_
    obtain ⟨name, hname, hsymbol, hne⟩ := hc.exists_ne_singleton hwhole
    exact hne (h name hname hsymbol)
  · exact hc.eq_singleton hname hwhole

/-- Two names in which digits follow an escape. -/
theorem distinguished_periods :
    IsPlain ".0" ∧ IsPlain ".00" ∧ (∀ c ∈ ".0".toList ++ ".00".toList, Whole c) ∧
      ofName ".0" ≠ ofName ".00" := by
  have hone : IsPlain ".0" := ⟨by decide, by decide⟩
  have htwo : IsPlain ".00" := ⟨by decide, by decide⟩
  obtain ⟨hdistinguished, -, hlow⟩ := distinguished_iff_whole hone htwo
  have hwhole : ∀ c ∈ ".0".toList ++ ".00".toList, Whole c := by
    have hchars : (".0".toList ++ ".00".toList).all (fun c => c.toNat < 0x10000) = true := by decide
    exact fun c hc => hlow c (of_decide_eq_true (List.all_eq_true.mp hchars c hc))
  exact ⟨hone, htwo, hwhole, fun h => absurd (hdistinguished hwhole h) (by decide)⟩

/-- A character for private use, before the digit 1. -/
def privateOne : String :=
  String.ofList [Char.ofNat 0xe000, '1']

/-- The tag character for languages. -/
def languageTag : String :=
  String.ofList [Char.ofNat 0xe0001]

/-- Two different names have the symbol `$e0001`. -/
theorem ofName_privateOne :
    IsPlain privateOne ∧ IsPlain languageTag ∧ privateOne ≠ languageTag ∧
      ofName privateOne = ofName languageTag := by
  refine ⟨⟨by decide, by decide⟩, ⟨by decide, by decide⟩, by decide, by decide +kernel⟩

end StoryAsm.Symbol
