/-!
# Operations that can fail

Operations on a state that can fail, and what they yield: a value and a new state (`Yields`). For some
operations the condition under which they succeed is known (`Decides`), and some do not change a part of
the state (`Keeps`); sequences and loops of such operations are of this kind again. Where it is known why
an operation is refused, what it does is a function of the state (`settled`).
-/

namespace StoryAsm

theorem bind_eq_ok {ε α β : Type} {x : Except ε α} {f : α → Except ε β} {b : β} :
    (x >>= f) = .ok b ↔ ∃ a, x = .ok a ∧ f a = .ok b := by
  constructor
  · intro h
    cases x with
    | error e => cases h
    | ok a => exact ⟨a, rfl, h⟩
  · rintro ⟨a, rfl, h⟩
    exact h

theorem bind_eq_error {ε α β : Type} {x : Except ε α} {f : α → Except ε β} {e : ε} :
    (x >>= f) = .error e ↔ x = .error e ∨ ∃ a, x = .ok a ∧ f a = .error e := by
  constructor
  · intro h
    cases x with
    | error e' =>
      cases h
      exact .inl rfl
    | ok a => exact .inr ⟨a, rfl, h⟩
  · rintro (rfl | ⟨a, rfl, h⟩)
    · rfl
    · exact h

theorem exists_of_mem_mapM {ε α β : Type} {f : α → Except ε β} {xs : List α} {ys : List β}
    (h : xs.mapM f = .ok ys) {y : β} (hy : y ∈ ys) : ∃ x ∈ xs, f x = .ok y := by
  induction xs generalizing ys with
  | nil =>
    cases h
    cases hy
  | cons x xs ih =>
    rw [List.mapM_cons] at h
    obtain ⟨z, hz, h⟩ := bind_eq_ok.mp h
    obtain ⟨zs, hzs, h⟩ := bind_eq_ok.mp h
    cases h
    rcases List.mem_cons.mp hy with rfl | hy
    · exact ⟨x, List.mem_cons_self, hz⟩
    · obtain ⟨x', hx', hok⟩ := ih hzs hy
      exact ⟨x', List.mem_cons_of_mem _ hx', hok⟩

theorem exists_mapM_eq_ok {ε α β : Type} {f : α → Except ε β} {xs : List α}
    (h : ∀ x ∈ xs, ∃ y, f x = .ok y) : ∃ ys, xs.mapM f = .ok ys := by
  induction xs with
  | nil => exact ⟨[], rfl⟩
  | cons x xs ih =>
    obtain ⟨y, hy⟩ := h x List.mem_cons_self
    obtain ⟨ys, hys⟩ := ih fun x' hx' => h x' (List.mem_cons_of_mem _ hx')
    exact ⟨y :: ys, by rw [List.mapM_cons, hy, hys]; rfl⟩

theorem exists_mem_of_mapM {ε α β : Type} {f : α → Except ε β} {xs : List α} {ys : List β}
    (h : xs.mapM f = .ok ys) : ∀ x ∈ xs, ∃ y ∈ ys, f x = .ok y := by
  induction xs generalizing ys with
  | nil =>
    intro x hx
    cases hx
  | cons x xs ih =>
    rw [List.mapM_cons] at h
    obtain ⟨y, hy, h⟩ := bind_eq_ok.mp h
    obtain ⟨ys, hys, h⟩ := bind_eq_ok.mp h
    cases h
    intro x' hx'
    rcases List.mem_cons.mp hx' with rfl | hx'
    · exact ⟨y, List.mem_cons_self, hy⟩
    · obtain ⟨y', hmem, hy'⟩ := ih hys x' hx'
      exact ⟨y', List.mem_cons_of_mem _ hmem, hy'⟩

/-- The error is that of the first element that has one. -/
theorem exists_of_mapM_eq_error {ε α β : Type} {f : α → Except ε β} {xs : List α} {e : ε}
    (h : xs.mapM f = .error e) :
    ∃ before x after, xs = before ++ x :: after ∧ (∀ y ∈ before, ∃ b, f y = .ok b) ∧
      f x = .error e := by
  induction xs with
  | nil => cases h
  | cons x xs ih =>
    rw [List.mapM_cons] at h
    cases hx : f x with
    | error e' =>
      rw [hx] at h
      cases h
      exact ⟨[], x, xs, rfl, by simp, hx⟩
    | ok b =>
      rw [hx] at h
      cases hxs : xs.mapM f with
      | ok bs =>
        rw [hxs] at h
        cases h
      | error e' =>
        rw [hxs] at h
        cases h
        obtain ⟨before, x', after, rfl, hbefore, hx'⟩ := ih hxs
        refine ⟨x :: before, x', after, rfl, ?_, hx'⟩
        intro y hy
        rcases List.mem_cons.mp hy with rfl | hy
        · exact ⟨b, hx⟩
        · exact hbefore y hy

theorem eq_ok_of_guard {ε α β : Type} {c : Prop} [Decidable c] {e : ε} {f : β → Except ε α}
    {x : Except ε α} {a : α} (h : (if c then throw e >>= f else x) = .ok a) : x = .ok a := by
  split at h
  · cases h
  · exact h

/-- An operation in sequence: after a failure the state stays as it is then. -/
theorem run_run_bind {ε σ α β : Type} (x : ExceptT ε (StateM σ) α)
    (f : α → ExceptT ε (StateM σ) β) (s : σ) :
    (x >>= f).run.run s =
      match x.run.run s with
      | (.ok a, s') => (f a).run.run s'
      | (.error e, s') => (.error e, s') := by
  simp only [ExceptT.run_bind, StateT.run_bind]
  rcases x.run.run s with ⟨_ | _, _⟩ <;> rfl

variable {ε σ α β : Type}

theorem run_run_get_bind (f : σ → ExceptT ε (StateM σ) β) (s : σ) :
    (get >>= f).run.run s = (f s).run.run s := rfl

/-- A check that throws before the rest. -/
theorem run_run_guard {c : Prop} [Decidable c] (e : ε) (f : α → ExceptT ε (StateM σ) β)
    (x : ExceptT ε (StateM σ) β) (s : σ) :
    (if c then throw e >>= f else x).run.run s = if c then (.error e, s) else x.run.run s := by
  split <;> rfl

/-- The operation succeeds with a value, and leaves a state behind. -/
def Yields (x : ExceptT ε (StateM σ) α) (s : σ) (a : α) (s' : σ) : Prop :=
  x.run.run s = (.ok a, s')

theorem not_yields_throw {e : ε} {s s' : σ} {a : α} :
    ¬Yields (throw e : ExceptT ε (StateM σ) α) s a s' := by
  intro h
  cases h

theorem yields_bind {x : ExceptT ε (StateM σ) α} {f : α → ExceptT ε (StateM σ) β} {s s' : σ} {b : β} :
    Yields (x >>= f) s b s' ↔ ∃ a m, Yields x s a m ∧ Yields (f a) m b s' := by
  simp only [Yields, run_run_bind]
  rcases x.run.run s with ⟨e | a, m⟩
  · constructor
    · intro h
      cases h
    · rintro ⟨a, m', h, -⟩
      cases h
  · constructor
    · intro h
      exact ⟨a, m, rfl, h⟩
    · rintro ⟨a', m', h, h'⟩
      cases h
      exact h'

/-- A loop over a list. What holds at first and is kept by every turn holds in the end. -/
theorem yields_forIn {ι : Type} {body : ι → PUnit → ExceptT ε (StateM σ) (ForInStep PUnit)}
    {I : List ι → σ → Prop} {all : List ι} {s s' : σ} {a : PUnit}
    (hbody : ∀ before x after, all = before ++ x :: after → ∀ s step s', I before s →
      Yields (body x ⟨⟩) s step s' → step = .yield ⟨⟩ ∧ I (before ++ [x]) s')
    (hs : I [] s) (h : Yields (forIn all ⟨⟩ body) s a s') : I all s' := by
  have hloop : ∀ rest before s, all = before ++ rest → I before s →
      Yields (forIn rest ⟨⟩ body) s a s' → I all s' := by
    intro rest
    induction rest with
    | nil =>
      intro before s hall hI h
      rw [List.append_nil] at hall
      cases h
      exact hall ▸ hI
    | cons x rest ih =>
      intro before s hall hI h
      rw [List.forIn_cons] at h
      obtain ⟨step, m, hturn, h⟩ := yields_bind.mp h
      obtain ⟨rfl, hI'⟩ := hbody before x rest hall s step m hI hturn
      exact ih (before ++ [x]) m (by simp [hall]) hI' h
  exact hloop all [] s rfl hs h

/-- Where the operation succeeds, what `view` shows of the state stays as it is. -/
def Keeps {τ : Type} (view : σ → τ) (x : ExceptT ε (StateM σ) α) : Prop :=
  ∀ s a s', Yields x s a s' → view s' = view s

namespace Keeps

variable {τ : Type} {view : σ → τ}

theorem pure (a : α) : Keeps view (Pure.pure a : ExceptT ε (StateM σ) α) := by
  intro s a s' h
  cases h
  rfl

theorem throw (e : ε) : Keeps view (MonadExcept.throw e : ExceptT ε (StateM σ) α) := by
  intro s a s' h
  exact absurd h not_yields_throw

theorem get : Keeps view (MonadState.get : ExceptT ε (StateM σ) σ) := by
  intro s a s' h
  cases h
  rfl

theorem modify {g : σ → σ} (hg : ∀ s, view (g s) = view s) :
    Keeps view (modify g : ExceptT ε (StateM σ) PUnit) := by
  intro s a s' h
  cases h
  exact hg s

theorem modifyGet {g : σ → α × σ} (hg : ∀ s, view (g s).2 = view s) :
    Keeps view (MonadStateOf.modifyGet g : ExceptT ε (StateM σ) α) := by
  intro s a s' h
  cases h
  exact hg s

theorem bind {x : ExceptT ε (StateM σ) α} {f : α → ExceptT ε (StateM σ) β} (hx : Keeps view x)
    (hf : ∀ a, Keeps view (f a)) : Keeps view (x >>= f) := by
  intro s b s' h
  obtain ⟨a, m, hfirst, hrest⟩ := yields_bind.mp h
  exact (hf a m b s' hrest).trans (hx s a m hfirst)

theorem forIn {ι : Type} {body : ι → β → ExceptT ε (StateM σ) (ForInStep β)}
    (hbody : ∀ x b, Keeps view (body x b)) (all : List ι) (b : β) :
    Keeps view (ForIn.forIn all b body) := by
  induction all generalizing b with
  | nil => exact pure b
  | cons x all ih =>
    rw [List.forIn_cons]
    refine bind (hbody x b) fun step => ?_
    cases step with
    | done b' => exact pure b'
    | yield b' => exact ih b'

theorem mapM {ι : Type} {f : ι → ExceptT ε (StateM σ) α} (hf : ∀ x, Keeps view (f x))
    (all : List ι) : Keeps view (all.mapM f) := by
  induction all with
  | nil => exact pure []
  | cons x all ih =>
    rw [List.mapM_cons]
    exact bind (hf x) fun a => bind ih fun as => pure (a :: as)

end Keeps

/-- What an operation returns and leaves behind: `left` where it is refused, and `next` otherwise. -/
def settled (refusal : Option ε) (answer : α) (next left : σ) : Except ε α × σ :=
  match refusal with
  | some e => (.error e, left)
  | none => (.ok answer, next)

theorem settled_eq_error {refusal : Option ε} {answer : α} {next left s : σ} {e : ε} :
    settled refusal answer next left = (.error e, s) ↔ refusal = some e ∧ left = s := by
  cases refusal <;> simp [settled]

theorem settled_eq_ok {refusal : Option ε} {answer a : α} {next left s : σ} :
    settled refusal answer next left = (.ok a, s) ↔ refusal = none ∧ answer = a ∧ next = s := by
  cases refusal <;> simp [settled]

/-- Something is made of what the operation returns. -/
theorem run_run_bind_pure {x : ExceptT ε (StateM σ) α} {s next left : σ} {refusal : Option ε} {a : α}
    (h : x.run.run s = settled refusal a next left) (f : α → β) :
    (x >>= fun a => pure (f a)).run.run s = settled refusal (f a) next left := by
  rw [run_run_bind, h]
  cases refusal with
  | some e => rfl
  | none => rfl

/-- The operation succeeds from the state if and only if `C` holds, and then `post` holds of what it
yields. -/
def Decides (x : ExceptT ε (StateM σ) α) (s : σ) (C : Prop) (post : α → σ → Prop) : Prop :=
  (C → ∃ a s', Yields x s a s' ∧ post a s') ∧ ((∃ a s', Yields x s a s') → C)

namespace Decides

variable {x : ExceptT ε (StateM σ) α} {s : σ} {C C' : Prop} {post post' : α → σ → Prop}

theorem pure {a : α} (h : post a s) : Decides (Pure.pure a : ExceptT ε (StateM σ) α) s True post :=
  ⟨fun _ => ⟨a, s, rfl, h⟩, fun _ => trivial⟩

theorem throw {e : ε} : Decides (MonadExcept.throw e : ExceptT ε (StateM σ) α) s False post :=
  ⟨False.elim, fun ⟨_, _, h⟩ => not_yields_throw h⟩

theorem modify {g : σ → σ} {post : PUnit → σ → Prop} (h : post ⟨⟩ (g s)) :
    Decides (modify g : ExceptT ε (StateM σ) PUnit) s True post :=
  ⟨fun _ => ⟨⟨⟩, g s, rfl, h⟩, fun _ => trivial⟩

theorem modifyGet {g : σ → α × σ} (h : post (g s).1 (g s).2) :
    Decides (MonadStateOf.modifyGet g : ExceptT ε (StateM σ) α) s True post :=
  ⟨fun _ => ⟨(g s).1, (g s).2, rfl, h⟩, fun _ => trivial⟩

theorem get_bind {f : σ → ExceptT ε (StateM σ) α} (h : Decides (f s) s C post) :
    Decides (get >>= f) s C post := h

theorem mono (h : Decides x s C post) (hC : C ↔ C') (hpost : C' → ∀ a s', post a s' → post' a s') :
    Decides x s C' post' := by
  refine ⟨fun hc => ?_, fun hx => hC.mp (h.2 hx)⟩
  obtain ⟨a, s', hy, hp⟩ := h.1 (hC.mpr hc)
  exact ⟨a, s', hy, hpost hc a s' hp⟩

theorem post_of_yields (h : Decides x s C post) {a : α} {s' : σ} (hy : Yields x s a s') :
    post a s' := by
  obtain ⟨a', s'', hy', hp⟩ := h.1 (h.2 ⟨a, s', hy⟩)
  cases hy.symm.trans hy'
  exact hp

/-- One operation after the other. The condition of the second is known once the first succeeded. -/
theorem bind {f : α → ExceptT ε (StateM σ) β} {post' : β → σ → Prop} (hx : Decides x s C post)
    (hf : C → ∀ a m, post a m → Decides (f a) m C' post') : Decides (x >>= f) s (C ∧ C') post' := by
  constructor
  · rintro ⟨hC, hC'⟩
    obtain ⟨a, m, hy, hp⟩ := hx.1 hC
    obtain ⟨b, s', hy', hp'⟩ := (hf hC a m hp).1 hC'
    exact ⟨b, s', yields_bind.mpr ⟨a, m, hy, hy'⟩, hp'⟩
  · rintro ⟨b, s', hy⟩
    obtain ⟨a, m, hy, hy'⟩ := yields_bind.mp hy
    have hC := hx.2 ⟨a, m, hy⟩
    exact ⟨hC, (hf hC a m (hx.post_of_yields hy)).2 ⟨b, s', hy'⟩⟩

/-- What follows an operation that succeeds anyway. -/
theorem andThen {f : α → ExceptT ε (StateM σ) β} {post' : β → σ → Prop} (hx : Decides x s True post)
    (hf : ∀ a m, post a m → Decides (f a) m C post') : Decides (x >>= f) s C post' :=
  (hx.bind fun _ => hf).mono (and_iff_right trivial) fun _ _ _ h => h

/-- Something is made of what the operation yields. -/
theorem bind_pure {f : α → β} {post' : β → σ → Prop} (hx : Decides x s C post)
    (hpost : ∀ a s', post a s' → post' (f a) s') :
    Decides (x >>= fun a => Pure.pure (f a)) s C post' :=
  (hx.bind fun _ a m h => pure (hpost a m h)).mono (and_iff_left trivial) fun _ _ _ h => h

theorem forall_split_cons {ι : Type} {C : List ι → ι → Prop} {before rest : List ι} {x : ι} :
    (C before x ∧ ∀ pre y post, rest = pre ++ y :: post → C (before ++ [x] ++ pre) y) ↔
      ∀ pre y post, x :: rest = pre ++ y :: post → C (before ++ pre) y := by
  constructor
  · rintro ⟨hx, hrest⟩ pre y post he
    cases pre with
    | nil =>
      cases he
      simpa using hx
    | cons z pre =>
      cases he
      simpa using hrest pre y post rfl
  · intro h
    refine ⟨by simpa using h [] x rest rfl, fun pre y post he => ?_⟩
    simpa using h (x :: pre) y post (by rw [he, List.cons_append])

/-- A loop over a list. The condition of a turn may depend on the turns before it. -/
theorem forIn {ι : Type} {body : ι → PUnit → ExceptT ε (StateM σ) (ForInStep PUnit)}
    {I : List ι → σ → Prop} {C : List ι → ι → Prop} {all : List ι}
    (hbody : ∀ before x after, all = before ++ x :: after → ∀ s, I before s →
      Decides (body x ⟨⟩) s (C before x) fun step s' => step = .yield ⟨⟩ ∧ I (before ++ [x]) s')
    (hs : I [] s) :
    Decides (ForIn.forIn all ⟨⟩ body) s (∀ before x after, all = before ++ x :: after → C before x)
      fun _ s' => I all s' := by
  have hloop : ∀ rest before s, all = before ++ rest → I before s →
      Decides (ForIn.forIn rest ⟨⟩ body) s (∀ pre x post, rest = pre ++ x :: post → C (before ++ pre) x)
        fun _ s' => I all s' := by
    intro rest
    induction rest with
    | nil =>
      intro before s hall hI
      rw [List.append_nil] at hall
      have hend : Decides (Pure.pure ⟨⟩ : ExceptT ε (StateM σ) PUnit) s True fun _ s' => I all s' :=
        pure (hall ▸ hI)
      exact hend.mono (by simp) fun _ _ _ h => h
    | cons x rest ih =>
      intro before s hall hI
      rw [List.forIn_cons]
      refine ((hbody before x rest hall s hI).bind fun _ step m hstep => ?_).mono
        forall_split_cons fun _ _ _ h => h
      obtain ⟨rfl, hI'⟩ := hstep
      exact ih (before ++ [x]) m (by simp [hall]) hI'
  simpa using hloop all [] s rfl hs

/-- A loop whose turns do not depend on each other. -/
theorem forIn_mem {ι : Type} {body : ι → PUnit → ExceptT ε (StateM σ) (ForInStep PUnit)}
    {I : σ → Prop} {C : ι → Prop} {all : List ι}
    (hbody : ∀ x ∈ all, ∀ s, I s →
      Decides (body x ⟨⟩) s (C x) fun step s' => step = .yield ⟨⟩ ∧ I s')
    (hs : I s) : Decides (ForIn.forIn all ⟨⟩ body) s (∀ x ∈ all, C x) fun _ s' => I s' := by
  have hloop : Decides (ForIn.forIn all ⟨⟩ body) s
      (∀ before x after, all = before ++ x :: after → C x) fun _ s' => I s' := by
    refine forIn (I := fun _ => I) (C := fun _ => C) ?_ hs
    rintro before x after rfl
    exact hbody x (List.mem_append_right before List.mem_cons_self)
  refine hloop.mono ⟨fun h x hx => ?_, fun h _ x _ hall => h x (by simp [hall])⟩ fun _ _ _ h => h
  obtain ⟨before, after, hall⟩ := List.append_of_mem hx
  exact h before x after hall

end Decides

end StoryAsm
