import Parley.Record.Values

/-!
# Readings that succeed

A reading or an operation that has a result is taken apart into steps that each have one.  The
statements are equivalences: read from left to right they open a success, and from right to left
they put one together.  One that fails does so at its first step that fails.
-/

namespace Parley

section Except

variable {ε ε' α β γ : Type}

theorem bind_eq_ok {x : Except ε α} {f : α → Except ε β} {b : β} :
    (x >>= f) = .ok b ↔ ∃ a, x = .ok a ∧ f a = .ok b := by
  cases x with
  | error e => simp [bind, Except.bind]
  | ok a => simp [bind, Except.bind]

theorem map_eq_ok {x : Except ε α} {f : α → β} {b : β} :
    x.map f = .ok b ↔ ∃ a, x = .ok a ∧ f a = b := by
  cases x <;> simp [Except.map]

theorem mapError_eq_ok {x : Except ε α} {f : ε → ε'} {a : α} :
    x.mapError f = .ok a ↔ x = .ok a := by
  cases x with
  | error e => exact ⟨fun h => (nomatch h), fun h => (nomatch h)⟩
  | ok b =>
      constructor
      · intro h
        cases h
        rfl
      · intro h
        cases h
        rfl

theorem toOption_eq_some {x : Except ε α} {a : α} : x.toOption = some a ↔ x = .ok a := by
  cases x <;> simp [Except.toOption]

theorem bind_eq_error {x : Except ε α} {f : α → Except ε β} {e : ε} :
    (x >>= f) = .error e ↔ x = .error e ∨ ∃ a, x = .ok a ∧ f a = .error e := by
  cases x with
  | error e' => simp [bind, Except.bind]
  | ok a => simp [bind, Except.bind]

theorem map_eq_error {x : Except ε α} {f : α → β} {e : ε} :
    x.map f = .error e ↔ x = .error e := by
  cases x <;> simp [Except.map]

theorem mapError_eq_error {x : Except ε α} {f : ε → ε'} {e : ε'} :
    x.mapError f = .error e ↔ ∃ e', x = .error e' ∧ f e' = e := by
  cases x with
  | error e' =>
      constructor
      · intro h
        cases h
        exact ⟨e', rfl, rfl⟩
      · rintro ⟨_, same, rfl⟩
        cases same
        rfl
  | ok a =>
      constructor
      · intro h
        cases h
      · rintro ⟨_, same, -⟩
        cases same

/-- A check of all items succeeds if it does so on each. -/
theorem forM_eq_ok {f : α → Except ε Unit} {l : List α} :
    l.forM f = .ok () ↔ ∀ a ∈ l, f a = .ok () := by
  induction l with
  | nil => simp [List.forM, pure, Except.pure]
  | cons a rest ih =>
      have first : (a :: rest).forM f = f a >>= fun _ => rest.forM f := rfl
      rw [first, bind_eq_ok, List.forall_mem_cons, ← ih]
      exact ⟨fun ⟨_, here, others⟩ => ⟨here, others⟩, fun ⟨here, others⟩ => ⟨(), here, others⟩⟩

/-- Items that are read one by one give a list if each is read. -/
theorem mapM_map_eq_ok {read : β → Except ε γ} {write : α → β} {view : α → γ} {l : List α}
    (reads : ∀ a ∈ l, read (write a) = .ok (view a)) :
    (l.map write).mapM read = .ok (l.map view) := by
  induction l with
  | nil => rfl
  | cons a rest ih =>
      obtain ⟨here, others⟩ := List.forall_mem_cons.mp reads
      rw [List.map_cons, List.mapM_cons, here, ih others]
      rfl

/-- Items that are read one by one give a list if and only if each is read. -/
theorem exists_mapM_eq_ok {f : α → Except ε β} {l : List α} :
    (∃ bs, l.mapM f = .ok bs) ↔ ∀ a ∈ l, ∃ b, f a = .ok b := by
  induction l with
  | nil => exact ⟨fun _ a member => (nomatch member), fun _ => ⟨[], rfl⟩⟩
  | cons a rest ih =>
      rw [List.forall_mem_cons, ← ih]
      simp only [List.mapM_cons, bind_eq_ok]
      constructor
      · rintro ⟨_, b, here, bs, others, -⟩
        exact ⟨⟨b, here⟩, bs, others⟩
      · rintro ⟨⟨b, here⟩, bs, others⟩
        exact ⟨b :: bs, b, here, bs, others, rfl⟩

/-- Items that are read one by one fail with what the first of them fails with that is not read. -/
theorem mapM_eq_error {f : α → Except ε β} {l : List α} {e : ε} :
    l.mapM f = .error e ↔ ∃ before a after, l = before ++ a :: after ∧
      (∀ x ∈ before, ∃ b, f x = .ok b) ∧ f a = .error e := by
  induction l with
  | nil => simp [pure, Except.pure]
  | cons a rest ih =>
      rw [List.mapM_cons, bind_eq_error]
      constructor
      · rintro (here | ⟨b, here, failed⟩)
        · exact ⟨[], a, rest, rfl, fun _ member => (nomatch member), here⟩
        · rcases bind_eq_error.mp failed with others | ⟨_, -, other⟩
          · obtain ⟨before, x, after, rfl, read, failed⟩ := ih.mp others
            exact ⟨a :: before, x, after, rfl, List.forall_mem_cons.mpr ⟨⟨b, here⟩, read⟩, failed⟩
          · cases other
      · rintro ⟨before, x, after, same, read, failed⟩
        cases before with
        | nil =>
            obtain ⟨rfl, rfl⟩ := List.cons.inj same
            exact .inl failed
        | cons first before =>
            obtain ⟨rfl, rfl⟩ := List.cons.inj same
            obtain ⟨⟨b, here⟩, read⟩ := List.forall_mem_cons.mp read
            exact .inr ⟨b, here, bind_eq_error.mpr (.inl (ih.mpr ⟨_, _, _, rfl, read, failed⟩))⟩

/-- Each item of a list that is read was read from one of its sources. -/
theorem exists_of_mem_mapM {f : α → Except ε β} {l : List α} {bs : List β}
    (read : l.mapM f = .ok bs) : ∀ b ∈ bs, ∃ a ∈ l, f a = .ok b := by
  induction l generalizing bs with
  | nil =>
      cases read
      exact fun b member => nomatch member
  | cons a rest ih =>
      rw [List.mapM_cons] at read
      obtain ⟨b, here, read⟩ := bind_eq_ok.mp read
      obtain ⟨others, there, read⟩ := bind_eq_ok.mp read
      cases read
      intro c member
      rcases List.mem_cons.mp member with rfl | member
      · exact ⟨a, List.mem_cons_self, here⟩
      · obtain ⟨x, later, made⟩ := ih there c member
        exact ⟨x, List.mem_cons_of_mem _ later, made⟩

end Except

namespace Checked

variable {α β : Type}

@[simp] theorem map_ok (f : α → β) (a : α) : f <$> (ok a : Checked α) = ok (f a) := rfl

@[simp] theorem seq_ok (f : α → β) (a : α) : (ok f <*> ok a : Checked β) = ok (f a) := rfl

@[simp] theorem under_ok (step : Step) (a : α) : (ok a).under step = ok a := rfl

@[simp] theorem titled_ok (title : String) (a : α) : (ok a).titled title = .ok a := rfl

@[simp] theorem text_str (s : String) : text (.str s) = ok s := rfl

@[simp] theorem flag_bool (b : Bool) : flag (.bool b) = ok b := rfl

@[simp] theorem number_float (x : Binary64) : number (.float x) = ok x := rfl

theorem map_eq_ok {f : α → β} {x : Checked α} {b : β} :
    f <$> x = ok b ↔ ∃ a, x = ok a ∧ f a = b := by
  cases x with
  | ok a => simp
  | faults found => simp [Functor.map, map]

theorem seq_eq_ok {f : Checked (α → β)} {x : Checked α} {b : β} :
    f <*> x = ok b ↔ ∃ g a, f = ok g ∧ x = ok a ∧ g a = b := by
  cases f <;> cases x <;> simp [Seq.seq, ap]

theorem under_eq_ok {step : Step} {x : Checked α} {a : α} : x.under step = ok a ↔ x = ok a := by
  cases x <;> simp [under]

/-- A field that has to be there is read if there is a value that is read. -/
theorem needed_eq_ok {fields : Fields} {key : String} {read : Json → Checked α} {a : α} :
    needed fields key read = ok a ↔ ∃ v, fields.get? key = some v ∧ read v = ok a := by
  rw [needed]
  cases fields.get? key with
  | some v => simp [under_eq_ok]
  | none => simp [fault, under]

theorem titled_eq_ok {title : String} {x : Checked α} {a : α} :
    x.titled title = .ok a ↔ x = ok a := by
  cases x <;> simp [titled]

theorem nonemptyText_eq_ok {v : Json} {s : String} :
    nonemptyText v = ok s ↔ v = .str s ∧ s ≠ "" := by
  cases v with
  | str t =>
      by_cases h : t = ""
      · simp [nonemptyText, h, fault]
      · simp only [nonemptyText, String.isEmpty_iff, h, if_false, ok.injEq, Json.str.injEq]
        exact ⟨fun same => ⟨same, same ▸ h⟩, And.left⟩
  | _ => simp [nonemptyText, fault]

end Checked

end Parley
