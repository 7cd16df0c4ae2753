import Parley.Proofs.Document.Migration

/-!
# Records with a field set anew

The data of a node are changed by setting some of their stored fields and reading all of them again.
Each field of what is read comes of the value under its own key, by a reading that takes a stored
value as it is.  So the fields that are not set stay as they were, and a field that is set holds
what its new value is read as; a key that the record does not have is passed over.
-/

namespace Parley

namespace Fields

variable {fields other : Fields} {key : String} {v w : Json}

theorem get?_eq_none_iff : fields.get? key = none ↔ key ∉ fields.map (·.1) := by
  rw [get?, List.lookup_eq_none_iff]
  simp only [List.mem_map, not_exists, not_and, bne_iff_ne]
  exact ⟨fun apart f there same => apart f there same.symm, fun apart f there same =>
    apart f there same.symm⟩

theorem keys_put (there : fields.get? key = some v) :
    (fields.put key w).map (·.1) = fields.map (·.1) := by
  induction fields with
  | nil => cases there
  | cons f rest ih =>
      obtain ⟨k, u⟩ := f
      rw [get?_cons] at there
      by_cases here : k = key
      · simp [put, here]
      · have there : Fields.get? rest key = some v := by simpa [Ne.symm here] using there
        simp [put, here, ih there]

/-- Objects with the same keys in the same order and the same values under them are the same. -/
theorem ext_get? (keys : fields.map (·.1) = other.map (·.1)) (distinct : (fields.map (·.1)).Nodup)
    (values : ∀ k, fields.get? k = other.get? k) : fields = other := by
  induction fields generalizing other with
  | nil => simpa using keys.symm
  | cons f rest ih =>
      cases other with
      | nil => cases keys
      | cons f' rest' =>
          obtain ⟨k, u⟩ := f
          obtain ⟨k', u'⟩ := f'
          obtain ⟨rfl, behind⟩ := List.cons.inj keys
          obtain ⟨absent, distinct⟩ := List.nodup_cons.mp distinct
          have first : some u = some u' := by simpa using values k
          cases first
          refine congrArg _ (ih behind distinct fun j => ?_)
          by_cases here : j = k
          · subst here
            rw [get?_eq_none_iff.mpr absent, get?_eq_none_iff.mpr (behind ▸ absent)]
          · simpa [here] using values j

end Fields

/-- Whether stored fields are those of a record that was read of given ones: under each key that is
given there is what its own reading makes of the value. -/
def Settles (reading : String → Json → Checked Json) (given stored : Fields) : Prop :=
  ∀ key v w, given.get? key = some v → stored.get? key = some w → reading key v = .ok w

namespace Settles

variable {reading : String → Json → Checked Json} {given stored new : Fields} {key : String}
  {v w : Json}

theorem nil : Settles reading given [] := fun _ _ _ _ stored => nomatch stored

/-- A record is read field by field. -/
theorem field {α : Type} {read : Json → Checked α} {absent a : α}
    (here : Checked.field given key read absent = .ok a)
    (settled : ∀ v, read v = .ok a → reading key v = .ok w)
    (others : Settles reading given stored) :
    Settles reading given ((key, w) :: stored) := by
  intro k v' w' there found
  rw [Fields.get?_cons] at found
  split at found
  next same =>
    cases found
    subst same
    rw [Checked.field, there] at here
    exact settled v' (Checked.under_eq_ok.mp here)
  next => exact others k v' w' there found

variable (own : Settles reading stored stored) (again : Settles reading given new)
  (keys : new.map (·.1) = stored.map (·.1))

include own again keys

/-- What is given as it was stored stays as it was. -/
theorem kept (same : given.get? key = stored.get? key) : new.get? key = stored.get? key := by
  cases there : stored.get? key with
  | none => rw [Fields.get?_eq_none_iff, keys, ← Fields.get?_eq_none_iff, there]
  | some v =>
      cases found : new.get? key with
      | none =>
          rw [Fields.get?_eq_none_iff, keys, ← Fields.get?_eq_none_iff, there] at found
          cases found
      | some w =>
          have before := own key v v there there
          have after := again key v w (same.trans there) found
          cases before.symm.trans after
          rfl

omit again in
/-- A record with one of its fields set anew holds what the value is read as, and its other fields
stay as they were; a key that it does not have is passed over. -/
theorem put (distinct : (stored.map (·.1)).Nodup) (again : Settles reading (stored.put key v) new) :
    (stored.get? key = none ∧ new = stored) ∨
      ∃ u w, stored.get? key = some u ∧ reading key v = .ok w ∧ new = stored.put key w := by
  have others {k : String} (different : k ≠ key) : new.get? k = stored.get? k :=
    own.kept again keys (Fields.get?_put_of_ne stored v different)
  have distinct' : (new.map (·.1)).Nodup := keys ▸ distinct
  cases there : stored.get? key with
  | none =>
      refine .inl ⟨rfl, Fields.ext_get? keys distinct' fun k => ?_⟩
      by_cases here : k = key
      · subst here
        rw [there, Fields.get?_eq_none_iff, keys, ← Fields.get?_eq_none_iff, there]
      · exact others here
  | some u =>
      obtain ⟨w, found⟩ : ∃ w, new.get? key = some w := by
        refine Option.ne_none_iff_exists'.mp fun none => ?_
        rw [Fields.get?_eq_none_iff, keys, ← Fields.get?_eq_none_iff, there] at none
        cases none
      have read := again key v w (Fields.get?_put_self stored key v) found
      have keys' : new.map (·.1) = (stored.put key w).map (·.1) := by
        rw [keys, Fields.keys_put there]
      refine .inr ⟨u, w, rfl, read, Fields.ext_get? keys' distinct' fun k => ?_⟩
      by_cases here : k = key
      · subst here
        rw [found, Fields.get?_put_self]
      · rw [others here, Fields.get?_put_of_ne stored w here]

end Settles

end Parley
