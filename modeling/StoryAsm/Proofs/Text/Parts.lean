/-!
# Texts that can be taken apart

A run of characters of one sort ends where another sort begins (`append_inj_of_head`), and a text made of
parts of which none begins another determines its parts (`flatMap_inj`).
-/

namespace StoryAsm

/-- Two runs of things with a property agree if what follows them begins with things without it. -/
theorem append_inj_of_head {α : Type} {p : α → Bool} {xs ys rest rest' : List α}
    (hxs : ∀ x ∈ xs, p x = true) (hys : ∀ y ∈ ys, p y = true)
    (hrest : ∀ x ∈ rest.head?, p x = false) (hrest' : ∀ x ∈ rest'.head?, p x = false)
    (h : xs ++ rest = ys ++ rest') : xs = ys ∧ rest = rest' := by
  have hboth : ∀ {zs tail : List α}, (∀ z ∈ zs, p z = true) → (∀ x ∈ tail.head?, p x = false) →
      (zs ++ tail).takeWhile p = zs := by
    intro zs tail hzs htail
    rw [List.takeWhile_append_of_pos hzs]
    cases tail with
    | nil => simp
    | cons x tail => simp [htail x rfl]
  have hprefix : xs = ys := by rw [← hboth hxs hrest, h, hboth hys hrest']
  subst hprefix
  exact ⟨rfl, List.append_cancel_left h⟩

/-- A text is made of its parts in one way, if parts are told apart from the left. -/
theorem flatMap_inj {α : Type} {code : α → List Char} {P : α → Prop}
    (hne : ∀ a, P a → code a ≠ [])
    (hcode : ∀ {a b xs ys}, P a → P b → code a ++ xs = code b ++ ys → a = b ∧ xs = ys)
    {xs ys : List α} (hxs : ∀ a ∈ xs, P a) (hys : ∀ a ∈ ys, P a)
    (h : xs.flatMap code = ys.flatMap code) : xs = ys := by
  induction xs generalizing ys with
  | nil =>
    cases ys with
    | nil => rfl
    | cons b ys =>
      rw [List.flatMap_cons] at h
      exact absurd (List.append_eq_nil_iff.mp h.symm).1 (hne b (hys b List.mem_cons_self))
  | cons a xs ih =>
    cases ys with
    | nil =>
      rw [List.flatMap_cons] at h
      exact absurd (List.append_eq_nil_iff.mp h).1 (hne a (hxs a List.mem_cons_self))
    | cons b ys =>
      obtain ⟨ha, hrest⟩ := List.forall_mem_cons.mp hxs
      obtain ⟨hb, hrest'⟩ := List.forall_mem_cons.mp hys
      rw [List.flatMap_cons, List.flatMap_cons] at h
      obtain ⟨rfl, htail⟩ := hcode ha hb h
      rw [ih hrest hrest' htail]

/-- Different numbers are written differently. -/
theorem numbered_injective (mark : String) : Function.Injective fun n : Nat => mark ++ toString n := by
  intro n m h
  replace h := (String.append_right_inj mark).mp h
  rw [Nat.toString_eq_ofList_toDigits, Nat.toString_eq_ofList_toDigits, String.ofList_inj] at h
  rw [← Nat.ofDigitChars_ten_toDigits (n := n), h, Nat.ofDigitChars_ten_toDigits]

end StoryAsm
