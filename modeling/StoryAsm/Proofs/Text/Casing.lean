import StoryAsm.Text.Casing

/-!
# Upper case of lower case

A text and its lower case have the same upper case (`upperCase_lowerCase`), unless the text holds one of six
capitals whose lower case has another upper case (`orphanCapitals`). Those are their own upper case, and the
upper case of a lower case never holds one (`orphan_notMem_upperCase_lowerCase`). Lower case is idempotent
(`lowerCase_lowerCase`).

What the case tables have to do with each other is checked on whole tables (`FitBut`): the code points
of a table are the bits of a number, so two tables have none in common if the numbers have no bit in common.
-/

namespace StoryAsm.Text

/-! ## Runs -/

/-- `count` bits, one in every `step`. -/
def stripes (step count : Nat) : Nat :=
  ((1 <<< (step * count)) - 1) / ((1 <<< step) - 1) ||| 1

/-- The quotient is the sum of a geometric series. -/
theorem exists_quotient {step : Nat} (hstep : 0 < step) (count : Nat) :
    ∃ quotient, 1 <<< (step * count) = quotient * ((1 <<< step) - 1) + 1 ∧
      ∀ index < count, quotient.testBit (step * index) = true := by
  induction count with
  | zero => exact ⟨0, by simp, fun index h => absurd h (Nat.not_lt_zero index)⟩
  | succ count ih =>
    obtain ⟨quotient, hsum, hbits⟩ := ih
    have hbase : 0 < 1 <<< step := by
      rw [Nat.one_shiftLeft]
      exact Nat.two_pow_pos step
    refine ⟨1 <<< step * quotient + 1, ?_, ?_⟩
    · have hnext : 1 <<< (step * (count + 1)) = 1 <<< (step * count) * 1 <<< step := by
        simp only [Nat.one_shiftLeft, Nat.mul_succ, Nat.pow_add]
      rw [hnext, hsum]
      generalize 1 <<< step = base at hbase
      obtain ⟨base, rfl⟩ := Nat.exists_eq_succ_of_ne_zero (Nat.ne_of_gt hbase)
      simp only [Nat.succ_eq_add_one, Nat.add_sub_cancel]
      grind
    · intro index hindex
      rw [Nat.one_shiftLeft, Nat.testBit_two_pow_mul_add _ (Nat.one_lt_two_pow (Nat.ne_of_gt hstep))]
      cases index with
      | zero => simp [hstep]
      | succ index =>
        rw [if_neg (by rw [Nat.mul_succ]; omega), Nat.mul_succ, Nat.add_sub_cancel]
        exact hbits index (Nat.lt_of_succ_lt_succ hindex)

theorem testBit_stripes {step count index : Nat} (h : index < count) :
    (stripes step count).testBit (step * index) = true := by
  rw [stripes, Nat.testBit_or]
  rcases Nat.eq_zero_or_pos step with rfl | hstep
  · simp
  · obtain ⟨quotient, hsum, hbits⟩ := exists_quotient hstep count
    have hbase : 0 < (1 <<< step) - 1 := by
      rw [Nat.one_shiftLeft]
      have htwo : 1 < 2 ^ step := Nat.one_lt_two_pow (Nat.ne_of_gt hstep)
      omega
    rw [hsum, Nat.add_sub_cancel, Nat.mul_div_cancel _ hbase, hbits index h, Bool.true_or]

namespace CaseRun

variable {run : CaseRun} {code : Nat}

/-- The code points that the run maps. -/
def Has (run : CaseRun) (code : Nat) : Prop :=
  run.first ≤ code ∧ code ≤ run.last ∧ (code - run.first) % run.step = 0

/-- The image of a code point of the run. -/
def imageOf (run : CaseRun) (code : Nat) : Nat :=
  run.image + (code - run.first)

theorem map?_of_has (h : run.Has code) : run.map? code = some (run.imageOf code) :=
  if_pos h

theorem map?_eq_none (h : ¬run.Has code) : run.map? code = none :=
  if_neg h

theorem map?_eq_some {image : Nat} (h : run.map? code = some image) :
    run.Has code ∧ image = run.imageOf code := by
  by_cases hcode : run.Has code
  · rw [map?_of_has hcode] at h
    exact ⟨hcode, (Option.some.inj h).symm⟩
  · rw [map?_eq_none hcode] at h
    cases h

theorem exists_index (h : run.Has code) :
    ∃ index < (run.last - run.first) / run.step + 1, code = run.first + run.step * index := by
  obtain ⟨hfirst, hlast, hstep⟩ := h
  refine ⟨(code - run.first) / run.step, ?_, ?_⟩
  · exact Nat.lt_succ_of_le (Nat.div_le_div_right (Nat.sub_le_sub_right hlast _))
  · rw [Nat.mul_div_cancel' (Nat.dvd_of_mod_eq_zero hstep), Nat.add_sub_cancel' hfirst]

/-- The code points of the run, one by one. -/
def codes (run : CaseRun) : List Nat :=
  (List.range ((run.last - run.first) / run.step + 1)).map fun index => run.first + run.step * index

theorem mem_codes (h : run.Has code) : code ∈ run.codes := by
  obtain ⟨index, hindex, rfl⟩ := exists_index h
  exact List.mem_map_of_mem (List.mem_range.mpr hindex)

/-- The code points of the run, as the bits of a number. -/
def mask (run : CaseRun) : Nat :=
  stripes run.step ((run.last - run.first) / run.step + 1) <<< run.first

theorem testBit_mask (h : run.Has code) : run.mask.testBit code = true := by
  obtain ⟨index, hindex, rfl⟩ := exists_index h
  rw [mask, Nat.testBit_shiftLeft, Nat.add_sub_cancel_left, testBit_stripes hindex, Bool.and_true]
  exact decide_eq_true (Nat.le_add_right _ _)

theorem Has.inverse (h : run.Has code) : run.inverse.Has (run.imageOf code) := by
  obtain ⟨hfirst, hlast, hstep⟩ := h
  refine ⟨Nat.le_add_right _ _, Nat.add_le_add_left (Nat.sub_le_sub_right hlast _) _, ?_⟩
  show (run.image + (code - run.first) - run.image) % run.step = 0
  rw [Nat.add_sub_cancel_left, hstep]

/-- All code points of the run are characters. -/
def InChars (run : CaseRun) : Prop :=
  run.last < 0xd800 ∨ 0xdfff < run.first ∧ run.last < 0x110000

instance (run : CaseRun) : Decidable run.InChars :=
  inferInstanceAs (Decidable (_ ∨ _))

theorem toNat_ofNat (h : run.InChars) (hcode : run.Has code) : (Char.ofNat code).toNat = code := by
  obtain ⟨hfirst, hlast, -⟩ := hcode
  have hvalid : code.isValidChar := by
    unfold Nat.isValidChar
    rcases h with h | h <;> omega
  rw [Char.ofNat, dif_pos hvalid]
  rfl

theorem imageOf_inverse (h : run.Has code) : run.inverse.imageOf (run.imageOf code) = code := by
  have hfirst := h.1
  show run.first + (run.image + (code - run.first) - run.image) = code
  omega

end CaseRun

/-! ## Tables -/

section Table

variable {expansions : List (Nat × List Nat)} {runs : List CaseRun} {run : CaseRun} {c : Char} {code : Nat}

/-- A character is mapped to itself, by an expansion or by a run. -/
theorem mapCase_cases (expansions : List (Nat × List Nat)) (runs : List CaseRun) (c : Char) :
    mapCase expansions runs c = [c] ∨
    (∃ entry ∈ expansions, entry.1 = c.toNat ∧ mapCase expansions runs c = entry.2.map Char.ofNat) ∨
    ∃ run ∈ runs, run.Has c.toNat ∧ mapCase expansions runs c = [Char.ofNat (run.imageOf c.toNat)] := by
  unfold mapCase
  split
  case h_1 image hlookup =>
    obtain ⟨before, after, rfl, -⟩ := List.lookup_eq_some_iff.mp hlookup
    exact .inr (.inl ⟨(c.toNat, image), List.mem_append_right _ List.mem_cons_self, rfl, rfl⟩)
  case h_2 =>
    cases hfind : runs.findSome? (·.map? c.toNat) with
    | none => exact .inl rfl
    | some image =>
      obtain ⟨run, hrun, hmap⟩ := List.exists_of_findSome?_eq_some hfind
      obtain ⟨hhas, rfl⟩ := CaseRun.map?_eq_some hmap
      exact .inr (.inr ⟨run, hrun, hhas, rfl⟩)

/-- The images of a code point that the table has. -/
def images? (expansions : List (Nat × List Nat)) (runs : List CaseRun) (code : Nat) : Option (List Nat) :=
  (expansions.lookup code).or ((runs.findSome? (·.map? code)).map fun image => [image])

theorem mapCase_eq (expansions : List (Nat × List Nat)) (runs : List CaseRun) (c : Char) :
    mapCase expansions runs c = ((images? expansions runs c.toNat).map (·.map Char.ofNat)).getD [c] := by
  unfold mapCase images?
  cases expansions.lookup c.toNat with
  | some image => rfl
  | none => cases runs.findSome? (·.map? c.toNat) <;> rfl

/-- The code points of the runs. -/
def runMask (runs : List CaseRun) : Nat :=
  runs.foldr (fun run bits => run.mask ||| bits) 0

theorem testBit_runMask (hrun : run ∈ runs) (h : run.Has code) : (runMask runs).testBit code = true := by
  induction runs with
  | nil => cases hrun
  | cons first runs ih =>
    rw [runMask, List.foldr_cons, Nat.testBit_or]
    rcases List.mem_cons.mp hrun with rfl | hrun
    · rw [CaseRun.testBit_mask h, Bool.true_or]
    · rw [← runMask, ih hrun, Bool.or_true]

/-- The code points that have an expansion. -/
def expansionMask (expansions : List (Nat × List Nat)) : Nat :=
  runMask (expansions.map fun entry => ⟨entry.1, entry.1, 1, entry.1⟩)

theorem testBit_expansionMask {entry : Nat × List Nat} (h : entry ∈ expansions) :
    (expansionMask expansions).testBit entry.1 = true :=
  testBit_runMask (List.mem_map_of_mem h) ⟨Nat.le_refl _, Nat.le_refl _, Nat.mod_one _⟩

theorem testBit_eq_false_of_and {left right : Nat} (h : left &&& right = 0) (hbit : left.testBit code = true) :
    right.testBit code = false := by
  have hboth := congrArg (·.testBit code) h
  simpa only [Nat.testBit_and, hbit, Bool.true_and, Nat.zero_testBit] using hboth

theorem mapCase_eq_self (hexpansions : (expansionMask expansions).testBit c.toNat = false)
    (hruns : (runMask runs).testBit c.toNat = false) : mapCase expansions runs c = [c] := by
  rcases mapCase_cases expansions runs c with h | ⟨entry, hentry, hcode, -⟩ | ⟨run, hrun, hhas, -⟩
  · exact h
  · rw [← hcode, testBit_expansionMask hentry] at hexpansions
    cases hexpansions
  · rw [testBit_runMask hrun hhas] at hruns
    cases hruns

/-- No two runs have a code point in common, and no run has one of those that were seen. -/
def apart (seen : Nat) : List CaseRun → Bool
  | [] => true
  | run :: runs => run.mask &&& seen == 0 && apart (run.mask ||| seen) runs

theorem testBit_seen {seen : Nat} (happart : apart seen runs = true) (hrun : run ∈ runs)
    (h : run.Has code) : seen.testBit code = false := by
  induction runs generalizing seen with
  | nil => cases hrun
  | cons first runs ih =>
    obtain ⟨hfirst, hrest⟩ := Bool.and_eq_true_iff.mp happart
    rcases List.mem_cons.mp hrun with rfl | hrun
    · exact testBit_eq_false_of_and (beq_iff_eq.mp hfirst) (CaseRun.testBit_mask h)
    · have hseen := ih hrest hrun
      rw [Nat.testBit_or, Bool.or_eq_false_iff] at hseen
      exact hseen.2

theorem findSome?_map? {seen : Nat} (happart : apart seen runs = true) (hrun : run ∈ runs)
    (h : run.Has code) : runs.findSome? (·.map? code) = some (run.imageOf code) := by
  induction runs generalizing seen with
  | nil => cases hrun
  | cons first runs ih =>
    obtain ⟨-, hrest⟩ := Bool.and_eq_true_iff.mp happart
    rw [List.findSome?_cons]
    rcases List.mem_cons.mp hrun with rfl | hrun
    · rw [CaseRun.map?_of_has h]
    · have hnone : first.map? code = none := by
        refine CaseRun.map?_eq_none fun hfirst => ?_
        have hseen := testBit_seen hrest hrun h
        rw [Nat.testBit_or, CaseRun.testBit_mask hfirst] at hseen
        cases hseen
      rw [hnone]
      exact ih hrest hrun

/-- In a table without overlaps, what is in a run is mapped by it. -/
theorem mapCase_of_has (happart : apart (expansionMask expansions) runs = true) (hrun : run ∈ runs)
    (h : run.Has c.toNat) : mapCase expansions runs c = [Char.ofNat (run.imageOf c.toNat)] := by
  have hseen := testBit_seen happart hrun h
  have hlookup : expansions.lookup c.toNat = none := by
    refine List.lookup_eq_none_iff.mpr fun entry hentry => bne_iff_ne.mpr fun heq => ?_
    rw [heq, testBit_expansionMask hentry] at hseen
    cases hseen
  rw [mapCase, hlookup, findSome?_map? happart hrun h]
  rfl

end Table

/-! ## Letters -/

theorem upperChar_of_not_ascii {c : Char} (h : ¬c.toNat < 128) :
    upperChar c = mapCase upperExpansions upperRuns c :=
  if_neg h

theorem lowerChar_of_not_ascii {c : Char} (h : ¬c.toNat < 128) :
    lowerChar c = mapCase lowerExpansions lowerRuns c :=
  if_neg h

/-- The characters, as the bits of a number. -/
def charMask (chars : List Char) : Nat :=
  expansionMask (chars.map fun c => (c.toNat, []))

theorem testBit_charMask {chars : List Char} {c : Char} (h : c ∈ chars) :
    (charMask chars).testBit c.toNat = true :=
  testBit_expansionMask (List.mem_map_of_mem (f := fun c : Char => (c.toNat, [])) h)

/-- The tables of upper and lower case fit together, but for some orphans. -/
structure FitBut (orphans : List Char) : Prop where
  upper_apart : apart (expansionMask upperExpansions) upperRuns = true
  /-- Capitals are not in the table of upper case. -/
  capitals_apart : (runMask casePairs ||| charMask orphans) &&&
    (runMask upperRuns ||| expansionMask upperExpansions) = 0
  /-- The images of lower case are not in the table of lower case. -/
  images_apart : runMask (lowerRuns.map (·.inverse)) &&&
    (runMask lowerRuns ||| expansionMask lowerExpansions) = 0
  /-- The images of upper case are no orphans. -/
  orphans_apart : runMask (upperRuns.map (·.inverse)) &&& charMask orphans = 0
  inChars : ∀ run ∈ lowerRuns ++ upperRuns, run.inverse.InChars
  pairs : ∀ run ∈ casePairs, 128 ≤ run.image
  /-- A letter that is not the capital of its lower case is an orphan, or it has the same upper case. -/
  variants : ∀ run ∈ lowerVariants, ∀ code ∈ run.codes, Char.ofNat code ∈ orphans ∨
    128 ≤ run.imageOf code ∧ ∃ images ∈ images? upperExpansions upperRuns code,
      images? upperExpansions upperRuns (run.imageOf code) = some images
  /-- One of them has its lower case in ASCII. -/
  variants_ascii : ∀ run ∈ lowerVariants, ∀ code ∈ run.codes, run.imageOf code < 128 →
    lowerChar (Char.ofNat (run.imageOf code)) = [Char.ofNat (run.imageOf code)]
  expansions_orphan : ∀ entry ∈ lowerExpansions, Char.ofNat entry.1 ∈ orphans
  expansions_lower : ∀ entry ∈ lowerExpansions, ∀ code ∈ entry.2,
    lowerChar (Char.ofNat code) = [Char.ofNat code]
  expansions_upper : ∀ entry ∈ upperExpansions, ∀ code ∈ entry.2, Char.ofNat code ∉ orphans
  ascii_upper : ∀ code < 128,
    (lowerChar (Char.ofNat code)).flatMap upperChar = upperChar (Char.ofNat code)
  ascii_lower : ∀ code < 128, (lowerChar (Char.ofNat code)).all (fun d => lowerChar d == [d]) = true
  ascii_ascii : ∀ code < 128, (upperChar (Char.ofNat code)).all (·.toNat < 128) = true
  beyond_ascii : orphans.all (128 ≤ ·.toNat) = true
  lower_orphan : orphans.all (fun c => lowerChar c != [c]) = true
  /-- The two lower cases of the sigma. -/
  sigma : lowerChar 'Σ' = ['σ'] ∧ upperChar 'ς' = upperChar 'Σ' ∧ lowerChar 'ς' = ['ς']

/-- The capitals whose lower case has another upper case: the dotted I, the theta symbol, the sharp s, and
the signs for ohm, kelvin and angstrom. -/
def orphans : { orphans : List Char // FitBut orphans } where
  val := ['\u0130', '\u03f4', '\u1e9e', '\u2126', '\u212a', '\u212b']
  property := {
    upper_apart := by decide +kernel
    capitals_apart := by decide +kernel
    images_apart := by decide +kernel
    orphans_apart := by decide +kernel
    inChars := by decide +kernel
    pairs := by decide +kernel
    variants := by decide +kernel
    variants_ascii := by decide +kernel
    expansions_orphan := by decide +kernel
    expansions_lower := by decide +kernel
    expansions_upper := by decide +kernel
    ascii_upper := by decide +kernel
    ascii_lower := by decide +kernel
    ascii_ascii := by decide +kernel
    beyond_ascii := by decide +kernel
    lower_orphan := by decide +kernel
    sigma := by decide +kernel }

def orphanCapitals : List Char :=
  orphans.val

theorem tables_fit : FitBut orphanCapitals :=
  orphans.property

theorem toNat_image {run : CaseRun} {code : Nat} (hrun : run ∈ lowerRuns ++ upperRuns) (h : run.Has code) :
    (Char.ofNat (run.imageOf code)).toNat = run.imageOf code :=
  CaseRun.toNat_ofNat (tables_fit.inChars run hrun) h.inverse

/-- A pair maps the small letter back. -/
theorem upperChar_imageOf {c : Char} {run : CaseRun} (hrun : run ∈ casePairs) (h : run.Has c.toNat) :
    upperChar (Char.ofNat (run.imageOf c.toNat)) = [c] := by
  have hlower : run ∈ lowerRuns := List.mem_append_right _ hrun
  have hcode := toNat_image (List.mem_append_left _ hlower) h
  have hupper : run.inverse ∈ upperRuns := List.mem_append_right _ (List.mem_map_of_mem hrun)
  have hhas := h.inverse
  rw [← hcode] at hhas
  have hle : run.image ≤ run.imageOf c.toNat := Nat.le_add_right _ _
  have hbeyond := tables_fit.pairs run hrun
  rw [upperChar_of_not_ascii (by omega), mapCase_of_has tables_fit.upper_apart hupper hhas, hcode,
    CaseRun.imageOf_inverse h, Char.ofNat_toNat]

/-- A variant has the upper case of its small letter. -/
theorem upperChar_variant {c : Char} {run : CaseRun} (hrun : run ∈ lowerVariants) (hhas : run.Has c.toNat)
    (hascii : ¬c.toNat < 128) (h : c ∉ orphanCapitals) :
    upperChar (Char.ofNat (run.imageOf c.toNat)) = upperChar c := by
  have hlower : run ∈ lowerRuns := List.mem_append_left _ hrun
  have hcode := toNat_image (List.mem_append_left _ hlower) hhas
  have hvariant := tables_fit.variants run hrun c.toNat (CaseRun.mem_codes hhas)
  rw [Char.ofNat_toNat] at hvariant
  obtain ⟨hbeyond, images, himages, hsame⟩ := hvariant.resolve_left h
  rw [upperChar_of_not_ascii (by omega), upperChar_of_not_ascii hascii, mapCase_eq, mapCase_eq, hcode, hsame,
    Option.mem_def.mp himages]
  rfl

theorem upperChar_eq_self {c : Char} (hascii : ¬c.toNat < 128)
    (h : (runMask casePairs ||| charMask orphanCapitals).testBit c.toNat = true) : upperChar c = [c] := by
  have hbits := testBit_eq_false_of_and tables_fit.capitals_apart h
  rw [Nat.testBit_or, Bool.or_eq_false_iff] at hbits
  rw [upperChar_of_not_ascii hascii, mapCase_eq_self hbits.2 hbits.1]

theorem not_ascii_of_orphan {c : Char} (h : c ∈ orphanCapitals) : ¬c.toNat < 128 :=
  Nat.not_lt.mpr (of_decide_eq_true (List.all_eq_true.mp tables_fit.beyond_ascii c h))

theorem orphan_notMem_of_ascii {c : Char} (hc : c ∈ orphanCapitals) {text : List Char}
    (h : text.all (·.toNat < 128) = true) : c ∉ text := fun hmem =>
  not_ascii_of_orphan hc (of_decide_eq_true (List.all_eq_true.mp h c hmem))

theorem upperChar_orphan {c : Char} (h : c ∈ orphanCapitals) : upperChar c = [c] := by
  refine upperChar_eq_self (not_ascii_of_orphan h) ?_
  rw [Nat.testBit_or, testBit_charMask h, Bool.or_true]

/-- The upper case of the lower case is the upper case, for all letters but the orphans. -/
theorem flatMap_upperChar_lowerChar {c : Char} (h : c ∉ orphanCapitals) :
    (lowerChar c).flatMap upperChar = upperChar c := by
  by_cases hascii : c.toNat < 128
  · have hcode := tables_fit.ascii_upper c.toNat hascii
    rwa [Char.ofNat_toNat] at hcode
  rw [lowerChar_of_not_ascii hascii]
  rcases mapCase_cases lowerExpansions lowerRuns c with hself | ⟨entry, hentry, hcode, -⟩ |
    ⟨run, hrun, hhas, himage⟩
  · rw [hself, List.flatMap_singleton]
  · have horphan := tables_fit.expansions_orphan entry hentry
    rw [hcode, Char.ofNat_toNat] at horphan
    exact absurd horphan h
  rw [himage, List.flatMap_singleton]
  rcases List.mem_append.mp hrun with hvariant | hpair
  · exact upperChar_variant hvariant hhas hascii h
  · have hbit : (runMask casePairs ||| charMask orphanCapitals).testBit c.toNat = true := by
      rw [Nat.testBit_or, testBit_runMask hpair hhas, Bool.true_or]
    rw [upperChar_imageOf hpair hhas, upperChar_eq_self hascii hbit]

/-- Lower case is its own lower case. -/
theorem lowerChar_of_mem_lowerChar {c d : Char} (h : d ∈ lowerChar c) : lowerChar d = [d] := by
  by_cases hascii : c.toNat < 128
  · have hall := tables_fit.ascii_lower c.toNat hascii
    rw [Char.ofNat_toNat] at hall
    exact beq_iff_eq.mp (List.all_eq_true.mp hall d h)
  rw [lowerChar_of_not_ascii hascii] at h
  rcases mapCase_cases lowerExpansions lowerRuns c with hself | ⟨entry, hentry, -, himage⟩ |
    ⟨run, hrun, hhas, himage⟩
  · rw [hself, List.mem_singleton] at h
    rw [h, lowerChar_of_not_ascii hascii, hself]
  · rw [himage] at h
    obtain ⟨code, hcode, rfl⟩ := List.mem_map.mp h
    exact tables_fit.expansions_lower entry hentry code hcode
  rw [himage, List.mem_singleton] at h
  have hcode := toNat_image (List.mem_append_left _ hrun) hhas
  rw [← h] at hcode
  by_cases hsmall : d.toNat < 128
  · rcases List.mem_append.mp hrun with hvariant | hpair
    · have hlower := tables_fit.variants_ascii run hvariant c.toNat (CaseRun.mem_codes hhas) (by omega)
      rwa [← h] at hlower
    · have hbeyond := tables_fit.pairs run hpair
      have hle : run.image ≤ run.imageOf c.toNat := Nat.le_add_right _ _
      omega
  · have hmem : run.inverse ∈ lowerRuns.map (·.inverse) := List.mem_map_of_mem hrun
    have hbits := testBit_eq_false_of_and tables_fit.images_apart (testBit_runMask hmem hhas.inverse)
    rw [Nat.testBit_or, Bool.or_eq_false_iff, ← hcode] at hbits
    rw [lowerChar_of_not_ascii hsmall, mapCase_eq_self hbits.2 hbits.1]

/-- An orphan is the upper case of itself only. -/
theorem eq_of_orphan_mem_upperChar {c d : Char} (hd : d ∈ orphanCapitals) (h : d ∈ upperChar c) :
    d = c := by
  by_cases hascii : c.toNat < 128
  · have hall := tables_fit.ascii_ascii c.toNat hascii
    rw [Char.ofNat_toNat] at hall
    exact absurd h (orphan_notMem_of_ascii hd hall)
  rw [upperChar_of_not_ascii hascii] at h
  rcases mapCase_cases upperExpansions upperRuns c with hself | ⟨entry, hentry, -, himage⟩ |
    ⟨run, hrun, hhas, himage⟩
  · rwa [hself, List.mem_singleton] at h
  · rw [himage] at h
    obtain ⟨code, hcode, rfl⟩ := List.mem_map.mp h
    exact absurd hd (tables_fit.expansions_upper entry hentry code hcode)
  · rw [himage, List.mem_singleton] at h
    have hcode := toNat_image (List.mem_append_right _ hrun) hhas
    have hmem : run.inverse ∈ upperRuns.map (·.inverse) := List.mem_map_of_mem hrun
    have hbit := testBit_eq_false_of_and tables_fit.orphans_apart (testBit_runMask hmem hhas.inverse)
    rw [← hcode, ← h, testBit_charMask hd] at hbit
    cases hbit

/-! ## Texts -/

theorem toList_upperCase (text : String) : (upperCase text).toList = text.toList.flatMap upperChar :=
  String.toList_ofList

theorem toList_lowerCase (text : String) : (lowerCase text).toList = lowerFrom [] text.toList :=
  String.toList_ofList

/-- A character in a text goes to its lower case, or it is a sigma in its final form. -/
theorem exists_lowerFrom_cons (before : List Char) (c : Char) (rest : List Char) :
    ∃ image, lowerFrom before (c :: rest) = image ++ lowerFrom (c :: before) rest ∧
      (image = lowerChar c ∨ c = 'Σ' ∧ image = ['ς']) := by
  refine ⟨_, rfl, ?_⟩
  split
  case isTrue hsigma =>
    split
    · exact .inr ⟨hsigma, rfl⟩
    · exact .inl (by rw [hsigma, tables_fit.sigma.1])
  case isFalse => exact .inl rfl

theorem flatMap_upperChar_lowerFrom {text : List Char} (h : ∀ c ∈ text, c ∉ orphanCapitals)
    (before : List Char) : (lowerFrom before text).flatMap upperChar = text.flatMap upperChar := by
  induction text generalizing before with
  | nil => rfl
  | cons c rest ih =>
    obtain ⟨hc, hrest⟩ := List.forall_mem_cons.mp h
    obtain ⟨image, hlower, himage⟩ := exists_lowerFrom_cons before c rest
    have hupper : image.flatMap upperChar = upperChar c := by
      rcases himage with rfl | ⟨rfl, rfl⟩
      · exact flatMap_upperChar_lowerChar hc
      · rw [List.flatMap_singleton, tables_fit.sigma.2.1]
    rw [hlower, List.flatMap_append, hupper, ih hrest, List.flatMap_cons]

/-- **Lower case keeps the upper case** of a text without orphans. -/
theorem upperCase_lowerCase {text : String} (h : ∀ c ∈ text.toList, c ∉ orphanCapitals) :
    upperCase (lowerCase text) = upperCase text := by
  rw [← String.toList_inj, toList_upperCase, toList_lowerCase, flatMap_upperChar_lowerFrom h,
    toList_upperCase]

theorem lowerChar_of_mem_lowerFrom {before text : List Char} {d : Char} (h : d ∈ lowerFrom before text) :
    lowerChar d = [d] := by
  induction text generalizing before with
  | nil => cases h
  | cons c rest ih =>
    obtain ⟨image, hlower, himage⟩ := exists_lowerFrom_cons before c rest
    rw [hlower] at h
    rcases List.mem_append.mp h with h | h
    · rcases himage with rfl | ⟨-, rfl⟩
      · exact lowerChar_of_mem_lowerChar h
      · rw [List.mem_singleton.mp h, tables_fit.sigma.2.2]
    · exact ih h

theorem lowerFrom_eq_self {text : List Char} (h : ∀ d ∈ text, lowerChar d = [d]) (before : List Char) :
    lowerFrom before text = text := by
  induction text generalizing before with
  | nil => rfl
  | cons d rest ih =>
    obtain ⟨hd, hrest⟩ := List.forall_mem_cons.mp h
    obtain ⟨image, hlower, himage⟩ := exists_lowerFrom_cons before d rest
    rcases himage with rfl | ⟨rfl, -⟩
    · rw [hlower, hd, ih hrest, List.singleton_append]
    · rw [tables_fit.sigma.1] at hd
      exact absurd hd (by decide)

theorem lowerCase_lowerCase (text : String) : lowerCase (lowerCase text) = lowerCase text := by
  rw [← String.toList_inj, toList_lowerCase, toList_lowerCase]
  exact lowerFrom_eq_self (fun _ hmem => lowerChar_of_mem_lowerFrom hmem) []

/-- The orphans of a text are in its upper case. -/
theorem orphan_mem_upperCase {text : String} {c : Char} (hc : c ∈ orphanCapitals) (h : c ∈ text.toList) :
    c ∈ (upperCase text).toList := by
  rw [toList_upperCase]
  refine List.mem_flatMap.mpr ⟨c, h, ?_⟩
  rw [upperChar_orphan hc]
  exact List.mem_singleton_self c

theorem orphan_notMem_upperCase_lowerCase (text : String) {c : Char} (hc : c ∈ orphanCapitals) :
    c ∉ (upperCase (lowerCase text)).toList := by
  intro h
  rw [toList_upperCase, toList_lowerCase] at h
  obtain ⟨d, hd, hupper⟩ := List.mem_flatMap.mp h
  obtain rfl := eq_of_orphan_mem_upperChar hc hupper
  have hlower := List.all_eq_true.mp tables_fit.lower_orphan c hc
  exact bne_iff_ne.mp hlower (lowerChar_of_mem_lowerFrom hd)

end StoryAsm.Text
