/-!
# How programs end

Commands are programs that work on a state and may end early.  `Ends` states what holds where such a
program ends: `after` behind its answer, `early` where it has ended early, which may depend on what
it ended with.  There is one law for each way to put programs together, so that a statement about a
program follows its text.
-/

namespace Parley

/-- Whether a program, begun in a state with `before`, ends behind its answer in one with `after`,
or early in one with `early`. -/
def Ends {ε σ α : Type} (before : σ → Prop) (x : ExceptT ε (StateM σ) α) (after : α → σ → Prop)
    (early : ε → σ → Prop) : Prop :=
  ∀ s, before s → match x.run.run s with
    | (.ok a, t) => after a t
    | (.error e, t) => early e t

namespace Ends

variable {ε σ α β : Type} {before tighter : σ → Prop} {after looser : α → σ → Prop}
  {early sooner : ε → σ → Prop}
  {final : β → σ → Prop} {done : PUnit → σ → Prop} {x : ExceptT ε (StateM σ) α}

theorem answer {a : α} (holds : ∀ s, before s → after a s) :
    Ends before (pure a : ExceptT ε (StateM σ) α) after early := holds

theorem stop {e : ε} (holds : ∀ s, before s → early e s) :
    Ends before (throw e : ExceptT ε (StateM σ) α) after early := holds

/-- Nothing is done behind an early end. -/
theorem stop_bind {e : ε} {f : α → ExceptT ε (StateM σ) β} (holds : ∀ s, before s → early e s) :
    Ends before (throw e >>= f) final early := holds

theorem change {f : σ → σ} (holds : ∀ s, before s → done ⟨⟩ (f s)) :
    Ends before (modify f : ExceptT ε (StateM σ) PUnit) done early := holds

theorem write {t : σ} (holds : ∀ s, before s → done ⟨⟩ t) :
    Ends before (set t : ExceptT ε (StateM σ) PUnit) done early := holds

/-- A program goes on from where the one before it ends. -/
theorem bind {f : α → ExceptT ε (StateM σ) β} (first : Ends before x after early)
    (next : ∀ a, Ends (after a) (f a) final early) : Ends before (x >>= f) final early := by
  intro s start
  have here := first s start
  have runs : (x >>= f).run.run s = match x.run.run s with
      | (.ok a, t) => (f a).run.run t
      | (.error e, t) => (.error e, t) := by
    simp only [ExceptT.run_bind, StateT.run_bind]
    rcases x.run.run s with ⟨_ | _, _⟩ <;> rfl
  rw [runs]
  split at here
  next a t ended => exact next a t here
  next => exact here

/-- Nothing is done behind a program that always ends early. -/
theorem halt {f : α → ExceptT ε (StateM σ) β} (first : Ends before x (fun _ _ => False) early) :
    Ends before (x >>= f) final early :=
  first.bind fun _ _ impossible => impossible.elim

/-- A program that reads the state goes on knowing it. -/
theorem read {f : σ → ExceptT ε (StateM σ) β}
    (next : ∀ s, before s → Ends (· = s) (f s) final early) :
    Ends before (get >>= f) final early :=
  fun s start => next s start s rfl

/-- A program that is run in a state ends in one of the two ways. -/
theorem outcome {s : σ} (h : Ends before x after early) (start : before s) :
    (∃ a t, (x.run s).run = (.ok a, t) ∧ after a t) ∨
      ∃ e t, (x.run s).run = (.error e, t) ∧ early e t := by
  have here := h s start
  rcases ran : x.run.run s with ⟨e | a, t⟩ <;> rw [ran] at here
  · exact .inr ⟨e, t, ran, here⟩
  · exact .inl ⟨a, t, ran, here⟩

/-- What is known of no state is known throughout. -/
theorem known {p : Prop} (h : p → Ends before x after early) :
    Ends (fun s => p ∧ before s) x after early :=
  fun s start => h start.1 s start.2

/-- What follows from how a program begins is known throughout. -/
theorem since {p : Prop} (follows : ∀ s, before s → p) (h : p → Ends before x after early) :
    Ends before x after early :=
  fun s start => h (follows s start) s start

/-- More may be known before a program than it needs. -/
theorem starting (h : Ends before x after early) (start : ∀ s, tighter s → before s) :
    Ends tighter x after early :=
  fun s known => h s (start s known)

/-- A program that reads the state goes on knowing what was known of it. -/
theorem reading {f : σ → ExceptT ε (StateM σ) β}
    (next : ∀ s, before s → Ends before (f s) final early) :
    Ends before (get >>= f) final early :=
  .read fun s start => (next s start).starting fun _ same => same ▸ start

/-- Less may be demanded behind a program than it assures. -/
theorem ending (h : Ends before x after early) (holds : ∀ a s, after a s → looser a s) :
    Ends before x looser early := by
  intro s known
  have here := h s known
  split at here
  next a t ended => exact holds a t here
  next => exact here

/-- Less may be demanded where a program ends early than it assures. -/
theorem stopping (h : Ends before x after early) (holds : ∀ e s, early e s → sooner e s) :
    Ends before x after sooner := by
  intro s known
  have here := h s known
  split at here
  next => exact here
  next e t ended => exact holds e t here

/-- What holds of every state that is found for some value holds wherever there is one. -/
theorem given {γ : Type} {found : γ → σ → Prop} (h : ∀ c, Ends (found c) x after early) :
    Ends (fun s => ∃ c, found c s) x after early :=
  fun s ⟨c, known⟩ => h c s known

end Ends

/-- Whether a program keeps an invariant, however it ends. -/
def Stays {ε σ α : Type} (inv : σ → Prop) (x : ExceptT ε (StateM σ) α) : Prop :=
  Ends inv x (fun _ => inv) (fun _ => inv)

namespace Stays

variable {ε σ α β : Type} {inv : σ → Prop} {x : ExceptT ε (StateM σ) α}

theorem answer {a : α} : Stays inv (pure a : ExceptT ε (StateM σ) α) :=
  Ends.answer fun _ => id

theorem stop {e : ε} : Stays inv (throw e : ExceptT ε (StateM σ) α) :=
  Ends.stop fun _ => id

theorem change {f : σ → σ} (keeps : ∀ s, inv s → inv (f s)) :
    Stays inv (modify f : ExceptT ε (StateM σ) PUnit) :=
  Ends.change keeps

theorem write {t : σ} (holds : inv t) : Stays inv (set t : ExceptT ε (StateM σ) PUnit) :=
  Ends.write fun _ _ => holds

theorem bind {f : α → ExceptT ε (StateM σ) β} (first : Stays inv x) (next : ∀ a, Stays inv (f a)) :
    Stays inv (x >>= f) :=
  Ends.bind first next

/-- A program that reads the state goes on knowing that the invariant holds of it. -/
theorem read {f : σ → ExceptT ε (StateM σ) β} (next : ∀ s, inv s → Stays inv (f s)) :
    Stays inv (get >>= f) :=
  Ends.reading next

end Stays

end Parley
