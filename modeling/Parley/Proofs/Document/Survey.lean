import Parley.Document.Compile

/-!
# The conditionals that are kept

A set of conditionals is closed if both branches of each lead to a result or to a conditional of the
set.  The survey of a graph starts with all conditionals and drops one after the other.  What it
keeps is closed, and each closed set of conditionals is kept: a conditional of such a set cannot be
the first one of it that is dropped.
-/

namespace Parley.Compile

variable {nodes : List Node} {edges : List Edge} {kept large ids : List String} {id : String}

/-- A branch that is sound while some conditionals are kept is sound while more of them are. -/
theorem branchFlaw?_mono {port : Port} (more : kept ⊆ large)
    (sound : branchFlaw? nodes edges kept id port = none) :
    branchFlaw? nodes edges large id port = none := by
  rw [branchFlaw?] at sound ⊢
  split at sound
  next => cases sound
  next target _ =>
    split at sound
    next => rfl
    next =>
      split at sound
      next member =>
        have member : target ∈ large := more (by simpa using member)
        simp [member]
      next => cases sound
    next => cases sound

theorem flaw?_eq_none : flaw? nodes edges kept id = none ↔
    branchFlaw? nodes edges kept id .conditionTrue = none ∧
      branchFlaw? nodes edges kept id .conditionFalse = none := by
  simp [flaw?]

theorem flaw?_mono (more : kept ⊆ large) (sound : flaw? nodes edges kept id = none) :
    flaw? nodes edges large id = none := by
  obtain ⟨onTrue, onFalse⟩ := flaw?_eq_none.mp sound
  exact flaw?_eq_none.mpr ⟨branchFlaw?_mono more onTrue, branchFlaw?_mono more onFalse⟩

/-- Whether nothing is wrong with any of some conditionals while they are kept together. -/
def Closed (nodes : List Node) (edges : List Edge) (kept : List String) : Prop :=
  ∀ id ∈ kept, flaw? nodes edges kept id = none

/-- The ids of the conditionals, in order. -/
def conditionals (nodes : List Node) : List String := (nodes.filter Node.isConditional).map (·.id)

namespace Survey

/-- What holds of a survey of some conditionals at any time: each of them is either kept or dropped,
and nothing is dropped that could be kept. -/
structure Fair (nodes : List Node) (edges : List Edge) (ids : List String) (s : Survey) :
    Prop where
  listed : s.kept ⊆ ids
  dropped_iff : ∀ id, (s.dropped.lookup id).isSome = true ↔ id ∈ ids ∧ id ∉ s.kept
  greatest : ∀ closed ⊆ ids, Closed nodes edges closed → closed ⊆ s.kept

variable {s : Survey}

/-- The conditionals that have a reason for being dropped are the others. -/
theorem Fair.mem_dropped (h : Fair nodes edges ids s) :
    id ∈ s.dropped.map (·.1) ↔ id ∈ ids ∧ id ∉ s.kept := by
  rw [← h.dropped_iff, List.lookup_isSome_iff, List.mem_map]
  exact exists_congr fun entry => and_congr_right fun _ => by rw [beq_iff_eq, eq_comm]

/-- A look at a conditional leaves the survey as it is or drops the conditional. -/
theorem visit_cases (nodes : List Node) (edges : List Edge) (s : Survey) (id : String) :
    (visit nodes edges s id = s ∧ (id ∈ s.kept → flaw? nodes edges s.kept id = none)) ∨
      ∃ reason, id ∈ s.kept ∧ flaw? nodes edges s.kept id = some reason ∧
        visit nodes edges s id = ⟨s.kept.filter (· != id), s.dropped ++ [(id, reason)]⟩ := by
  rw [visit]
  split
  next member =>
    have member : id ∈ s.kept := by simpa using member
    split
    next reason flaw => exact .inr ⟨reason, member, flaw, rfl⟩
    next sound => exact .inl ⟨rfl, fun _ => sound⟩
  next absent => exact .inl ⟨rfl, fun member => absurd member (by simpa using absent)⟩

theorem Fair.visit (h : Fair nodes edges ids s) :
    Fair nodes edges ids (visit nodes edges s id) := by
  obtain ⟨same, -⟩ | ⟨reason, member, flaw, result⟩ := visit_cases nodes edges s id
  · exact same.symm ▸ h
  · rw [result]
    refine ⟨fun x there => h.listed (List.mem_filter.mp there).1, fun x => ?_, ?_⟩
    · have before := h.dropped_iff x
      by_cases here : x = id
      · simp [here, List.lookup_append, h.listed member]
      · have other : (x == id) = false := beq_eq_false_iff_ne.mpr here
        simpa [here, List.lookup_append, List.lookup_cons, other] using before
    · intro closed inside sound x there
      have still : x ∈ s.kept := h.greatest closed inside sound there
      refine List.mem_filter.mpr ⟨still, ?_⟩
      -- A member of a closed set has no flaw, as all of that set is kept.
      have unflawed : x ≠ id := by
        rintro rfl
        have fine := flaw?_mono (h.greatest closed inside sound) (sound x there)
        rw [fine] at flaw
        cases flaw
      simpa using unflawed

section Preserved

variable {P : Survey → Prop} (step : ∀ s id, P s → P (visit nodes edges s id))

include step

/-- What each look at a conditional preserves is preserved by a pass. -/
theorem pass_preserves (holds : P s) (visited : List String) : P (pass nodes edges visited s) := by
  induction visited generalizing s with
  | nil => exact holds
  | cons id rest ih => exact ih (step s id holds)

/-- What each look at a conditional preserves holds when nothing is dropped any more. -/
theorem settle_preserves (holds : P s) : P (settle nodes edges ids s) := by
  fun_induction Survey.settle nodes edges ids s with
  | case1 s next fewer ih => exact ih (pass_preserves step holds ids)
  | case2 s next done => exact pass_preserves step holds ids

end Preserved

theorem Fair.pass (h : Fair nodes edges ids s) (visited : List String) :
    Fair nodes edges ids (pass nodes edges visited s) :=
  pass_preserves (fun _ _ => Fair.visit) h visited

theorem visit_length_le : (visit nodes edges s id).kept.length ≤ s.kept.length := by
  obtain ⟨same, -⟩ | ⟨reason, -, -, result⟩ := visit_cases nodes edges s id
  · exact Nat.le_of_eq (congrArg (·.kept.length) same)
  · rw [result]
    exact List.length_filter_le _ _

theorem pass_length_le (visited : List String) :
    (pass nodes edges visited s).kept.length ≤ s.kept.length := by
  induction visited generalizing s with
  | nil => exact Nat.le_refl _
  | cons id rest ih => exact Nat.le_trans ih visit_length_le

/-- A pass that drops nothing finds nothing wrong with what it looks at. -/
theorem pass_unchanged {visited : List String}
    (same : s.kept.length ≤ (pass nodes edges visited s).kept.length) :
    pass nodes edges visited s = s ∧
      ∀ id ∈ visited, id ∈ s.kept → flaw? nodes edges s.kept id = none := by
  induction visited with
  | nil => exact ⟨rfl, fun _ member => nomatch member⟩
  | cons id rest ih =>
      have first : pass nodes edges (id :: rest) s =
          pass nodes edges rest (Survey.visit nodes edges s id) := rfl
      obtain ⟨kept, sound⟩ | ⟨reason, member, -, result⟩ := visit_cases nodes edges s id
      · rw [first, kept] at same ⊢
        obtain ⟨unchanged, others⟩ := ih same
        refine ⟨unchanged, fun x visited => ?_⟩
        rcases List.mem_cons.mp visited with rfl | visited
        · exact sound
        · exact others x visited
      · have fewer : (s.kept.filter (· != id)).length < s.kept.length :=
          List.length_filter_lt_length_iff_exists.mpr ⟨id, member, by simp⟩
        rw [first, result] at same
        exact absurd (Nat.le_trans same (pass_length_le rest)) (Nat.not_le.mpr fewer)

theorem Fair.settle (h : Fair nodes edges ids s) :
    Fair nodes edges ids (settle nodes edges ids s) :=
  settle_preserves (fun _ _ => Fair.visit) h

/-- When nothing is dropped any more, what is kept is closed. -/
theorem settle_closed (h : Fair nodes edges ids s) :
    Closed nodes edges (settle nodes edges ids s).kept := by
  fun_induction Survey.settle nodes edges ids s with
  | case1 s next fewer ih => exact ih (h.pass ids)
  | case2 s next done =>
      obtain ⟨same, sound⟩ := pass_unchanged (Nat.le_of_not_lt done)
      have same : next = s := same
      rw [same]
      exact fun id member => sound id (h.listed member) member

theorem fair_start : Fair nodes edges ids { kept := ids.eraseDups } where
  listed id member := List.mem_eraseDups.mp member
  dropped_iff id := by simp
  greatest closed inside _ id member := List.mem_eraseDups.mpr (inside member)

/-- Each conditional of a graph is either kept or dropped. -/
theorem ofGraph_fair (nodes : List Node) (edges : List Edge) :
    Fair nodes edges (conditionals nodes) (ofGraph nodes edges) :=
  fair_start.settle

/-- What is kept of a graph is closed. -/
theorem ofGraph_closed (nodes : List Node) (edges : List Edge) :
    Closed nodes edges (ofGraph nodes edges).kept :=
  settle_closed fair_start

end Survey

end Parley.Compile
