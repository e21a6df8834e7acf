/-!
# Outcomes of actions

Sessions, calculators of layouts and pages are all worked on by actions of one shape: an action
finds a state, leaves a state, and either has an answer or fails. `outcome` is what comes of an
action in a state, and `Yields` says that the answer is a given one. The lemmas take an action
apart into its steps, so that what an action yields can be read off its text.
-/

namespace HostDecl

variable {ε σ α β : Type}

/-- What comes of an action in a state, and the state that it leaves. -/
def outcome (e : ExceptT ε (StateM σ) α) (s : σ) : Except ε α × σ :=
  e.run.run s

/-- In the state `s` the action answers `a` and leaves `s'`. -/
def Yields (e : ExceptT ε (StateM σ) α) (s : σ) (a : α) (s' : σ) : Prop :=
  outcome e s = (.ok a, s')

/-! ## Outcomes step by step -/

theorem outcome_pure (a : α) (s : σ) :
    outcome (pure a : ExceptT ε (StateM σ) α) s = (.ok a, s) := rfl

theorem outcome_throw (x : ε) (s : σ) :
    outcome (throw x : ExceptT ε (StateM σ) α) s = (.error x, s) := rfl

theorem outcome_get (s : σ) :
    outcome (get : ExceptT ε (StateM σ) σ) s = (.ok s, s) := rfl

theorem outcome_modify (f : σ → σ) (s : σ) :
    outcome (modify f : ExceptT ε (StateM σ) Unit) s = (.ok (), f s) := rfl

theorem outcome_bind (e : ExceptT ε (StateM σ) α) (f : α → ExceptT ε (StateM σ) β) (s : σ) :
    outcome (e >>= f) s = match outcome e s with
      | (.ok a, t) => outcome (f a) t
      | (.error x, t) => (.error x, t) := by
  show outcome (ExceptT.bind e f) s = _
  rcases h : outcome e s with ⟨x | a, t⟩ <;>
    simp only [outcome, ExceptT.bind, ExceptT.run, ExceptT.mk, ExceptT.bindCont, StateT.run,
      bind, StateT.bind] at h ⊢ <;>
    rw [h]
  rfl

/-- A change with a guard: where the guard refuses it, the state stays as it is. -/
theorem outcome_guarded (p : σ → Prop) [DecidablePred p] (x : ε) (f : σ → σ) (s : σ) :
    outcome (do if p (← get) then throw x else modify f : ExceptT ε (StateM σ) Unit) s =
      if p s then (.error x, s) else (.ok (), f s) := by
  rw [outcome_bind, outcome_get]
  dsimp only
  split <;> rfl

/-! ## What an action yields -/

theorem Yields.unique {e : ExceptT ε (StateM σ) α} {s t t' : σ} {a a' : α}
    (h : Yields e s a t) (h' : Yields e s a' t') : a = a' ∧ t = t' := by
  have := h.symm.trans h'
  simpa using this

theorem yields_pure {a b : α} {s t : σ} :
    Yields (pure a : ExceptT ε (StateM σ) α) s b t ↔ b = a ∧ t = s := by
  simp [Yields, outcome_pure, eq_comm]

theorem yields_throw {x : ε} {b : α} {s t : σ} :
    Yields (throw x : ExceptT ε (StateM σ) α) s b t ↔ False := by
  simp [Yields, outcome_throw]

theorem yields_get {a s t : σ} :
    Yields (get : ExceptT ε (StateM σ) σ) s a t ↔ a = s ∧ t = s := by
  simp [Yields, outcome_get, eq_comm]

theorem yields_modify {f : σ → σ} {u : Unit} {s t : σ} :
    Yields (modify f : ExceptT ε (StateM σ) Unit) s u t ↔ t = f s := by
  simp [Yields, outcome_modify, eq_comm]

theorem yields_bind {e : ExceptT ε (StateM σ) α} {f : α → ExceptT ε (StateM σ) β} {s t : σ}
    {b : β} : Yields (e >>= f) s b t ↔ ∃ a u, Yields e s a u ∧ Yields (f a) u b t := by
  unfold Yields
  rw [outcome_bind]
  constructor
  · intro h
    rcases he : outcome e s with ⟨x | a, u⟩ <;> rw [he] at h
    · simp at h
    · exact ⟨a, u, rfl, h⟩
  · rintro ⟨a, u, he, hf⟩
    rw [he]
    exact hf

theorem yields_guarded {p : σ → Prop} [DecidablePred p] {x : ε} {f : σ → σ} {u : Unit} {s t : σ} :
    Yields (do if p (← get) then throw x else modify f : ExceptT ε (StateM σ) Unit) s u t ↔
      ¬ p s ∧ t = f s := by
  rw [Yields, outcome_guarded]
  split <;> rename_i h <;> simp [h, eq_comm]

/-! ## Lists of actions -/

theorem yields_forM_nil {f : α → ExceptT ε (StateM σ) Unit} {u : Unit} {s t : σ} :
    Yields (([] : List α).forM f) s u t ↔ t = s := by
  rw [List.forM, yields_pure]
  simp

theorem yields_forM_cons {f : α → ExceptT ε (StateM σ) Unit} {x : α} {xs : List α} {u : Unit}
    {s t : σ} : Yields ((x :: xs).forM f) s u t ↔
      ∃ r, Yields (f x) s () r ∧ Yields (xs.forM f) r u t := by
  rw [List.forM, yields_bind]
  constructor
  · rintro ⟨_, r, h⟩
    exact ⟨r, h⟩
  · rintro ⟨r, h⟩
    exact ⟨(), r, h⟩

/-- A loop over two lists is a loop over the first and then one over the second. -/
theorem yields_forM_append {f : α → ExceptT ε (StateM σ) Unit} {xs ys : List α} {u : Unit}
    {s t : σ} : Yields ((xs ++ ys).forM f) s u t ↔
      ∃ r, Yields (xs.forM f) s () r ∧ Yields (ys.forM f) r u t := by
  induction xs generalizing s with
  | nil =>
      simp only [List.nil_append, yields_forM_nil, exists_eq_left]
  | cons x xs ih =>
      simp only [List.cons_append, yields_forM_cons, ih]
      constructor
      · rintro ⟨q, hx, r, hxs, hys⟩
        exact ⟨r, ⟨q, hx, hxs⟩, hys⟩
      · rintro ⟨r, ⟨q, hx, hxs⟩, hys⟩
        exact ⟨q, hx, r, hxs, hys⟩

/-- An invariant of the state and of the elements done so far holds after the whole loop. -/
theorem Yields.forM_inv {f : α → ExceptT ε (StateM σ) Unit} {P : List α → σ → Prop} {xs : List α}
    (step : ∀ done x todo s t, xs = done ++ x :: todo → P done s → Yields (f x) s () t →
      P (done ++ [x]) t)
    {u : Unit} {s t : σ} (h : Yields (xs.forM f) s u t) (hs : P [] s) : P xs t := by
  suffices ∀ todo done s, xs = done ++ todo → P done s → Yields (todo.forM f) s u t → P xs t from
    this xs [] s rfl hs h
  intro todo
  induction todo with
  | nil =>
      intro done s hxs hP hy
      obtain rfl := yields_forM_nil.mp hy
      rwa [hxs, List.append_nil]
  | cons x todo ih =>
      intro done s hxs hP hy
      obtain ⟨r, hx, hrest⟩ := yields_forM_cons.mp hy
      exact ih (done ++ [x]) r (by simp [hxs]) (step done x todo s r hxs hP hx) hrest

/-- A loop succeeds exactly if each turn does, where an invariant says when a turn does. -/
theorem exists_yields_forM_iff {f : α → ExceptT ε (StateM σ) Unit} {P : List α → σ → Prop}
    {C : List α → α → Prop} {xs : List α}
    (hC : ∀ done x todo s, xs = done ++ x :: todo → P done s →
      ((∃ t, Yields (f x) s () t) ↔ C done x))
    (step : ∀ done x todo s t, xs = done ++ x :: todo → P done s → Yields (f x) s () t →
      P (done ++ [x]) t)
    {s : σ} (hs : P [] s) :
    (∃ t, Yields (xs.forM f) s () t) ↔ ∀ done x todo, xs = done ++ x :: todo → C done x := by
  suffices ∀ todo done s, xs = done ++ todo → P done s → ((∃ t, Yields (todo.forM f) s () t) ↔
      ∀ done' x todo', todo = done' ++ x :: todo' → C (done ++ done') x) by
    simpa using this xs [] s rfl hs
  intro todo
  induction todo with
  | nil =>
      intro done s _ _
      refine ⟨fun _ done' x todo' h => by simp at h, fun _ => ⟨s, yields_forM_nil.mpr rfl⟩⟩
  | cons y todo ih =>
      intro done s hxs hP
      constructor
      · rintro ⟨t, hy⟩ done' x todo' hsplit
        obtain ⟨r, hhead, hrest⟩ := yields_forM_cons.mp hy
        cases done' with
        | nil =>
            obtain ⟨rfl, rfl⟩ := List.cons.inj hsplit
            rw [List.append_nil]
            exact (hC done _ _ s hxs hP).mp ⟨r, hhead⟩
        | cons z done' =>
            obtain ⟨rfl, rfl⟩ := List.cons.inj hsplit
            have hnext := (ih (done ++ [y]) r (by simp [hxs])
              (step done y _ s r hxs hP hhead)).mp ⟨t, hrest⟩
            simpa using hnext done' x todo' rfl
      · intro hall
        obtain ⟨r, hhead⟩ := (hC done y todo s hxs hP).mpr (by simpa using hall [] y todo rfl)
        obtain ⟨t, hrest⟩ := (ih (done ++ [y]) r (by simp [hxs])
          (step done y todo s r hxs hP hhead)).mpr fun done' x todo' hsplit => by
            simpa using hall (y :: done') x todo' (by rw [hsplit]; rfl)
        exact ⟨t, yields_forM_cons.mpr ⟨r, hhead, hrest⟩⟩

theorem yields_mapM_nil {f : α → ExceptT ε (StateM σ) β} {bs : List β} {s t : σ} :
    Yields (([] : List α).mapM f) s bs t ↔ bs = [] ∧ t = s := by
  rw [List.mapM_nil, yields_pure]

theorem yields_mapM_cons {f : α → ExceptT ε (StateM σ) β} {x : α} {xs : List α} {bs : List β}
    {s t : σ} : Yields ((x :: xs).mapM f) s bs t ↔
      ∃ b bs' r, bs = b :: bs' ∧ Yields (f x) s b r ∧ Yields (xs.mapM f) r bs' t := by
  rw [List.mapM_cons, yields_bind]
  constructor
  · rintro ⟨b, r, hb, h⟩
    obtain ⟨bs', r', hbs, h⟩ := yields_bind.1 h
    obtain ⟨rfl, rfl⟩ := yields_pure.1 h
    exact ⟨b, bs', r, rfl, hb, hbs⟩
  · rintro ⟨b, bs', r, rfl, hb, hbs⟩
    exact ⟨b, r, hb, yields_bind.2 ⟨bs', t, hbs, yields_pure.2 ⟨rfl, rfl⟩⟩⟩

/-- A list of actions that only look at the state. -/
theorem yields_mapM_read {f : α → ExceptT ε (StateM σ) β} {ok : α → Prop} {g : α → β} {s : σ}
    (h : ∀ x b t, Yields (f x) s b t ↔ ok x ∧ b = g x ∧ t = s) (xs : List α) {bs : List β}
    {t : σ} : Yields (xs.mapM f) s bs t ↔ (∀ x ∈ xs, ok x) ∧ bs = xs.map g ∧ t = s := by
  induction xs generalizing bs with
  | nil =>
      rw [yields_mapM_nil]
      simp
  | cons x xs ih =>
      rw [yields_mapM_cons]
      constructor
      · rintro ⟨b, bs', r, rfl, hx, hxs⟩
        obtain ⟨hok, rfl, rfl⟩ := (h x b r).mp hx
        obtain ⟨hall, rfl, rfl⟩ := ih.mp hxs
        exact ⟨List.forall_mem_cons.mpr ⟨hok, hall⟩, rfl, rfl⟩
      · rintro ⟨hall, rfl, rfl⟩
        obtain ⟨hok, hall⟩ := List.forall_mem_cons.mp hall
        exact ⟨_, _, _, rfl, (h x _ _).mpr ⟨hok, rfl, rfl⟩, ih.mpr ⟨hall, rfl, rfl⟩⟩

end HostDecl
