import Mathlib.Data.List.Nodup
import Mathlib.Data.List.Perm.Basic
import Parley.Document.Compile

/-!
# Lists without repetition and the order of actions

A result lists each action that it offers once.  Putting them in order only moves them, and a list
that has been put in order keeps its order when it is read as the order to follow.
-/

namespace Parley

/-- Where one item alone gives something, that is all there is. -/
theorem flatMap_eq_of_unique {α β : Type} {l : List α} {f : α → List β} {a : α} (distinct : l.Nodup)
    (member : a ∈ l) (others : ∀ b ∈ l, b ≠ a → f b = []) : l.flatMap f = f a := by
  obtain ⟨before, after, rfl⟩ := List.append_of_mem member
  have apart := List.nodup_middle.mp distinct
  obtain ⟨absent, -⟩ := List.nodup_cons.mp apart
  have none (b : α) (there : b ∈ before ++ after) : f b = [] := by
    refine others b ?_ fun same => absent (same ▸ there)
    rcases List.mem_append.mp there with there | there
    · exact List.mem_append_left _ there
    · exact List.mem_append_right _ (List.mem_cons_of_mem _ there)
  rw [List.flatMap_append, List.flatMap_cons,
    List.flatMap_eq_nil_iff.mpr fun b there => none b (List.mem_append_left _ there),
    List.flatMap_eq_nil_iff.mpr fun b there => none b (List.mem_append_right _ there)]
  simp

/-- The items with one of two properties that exclude each other, picked by one and then by the
other. -/
theorem filter_or_perm {α : Type} {p q : α → Bool} (apart : ∀ a, p a = true → q a = false)
    (l : List α) : (l.filter p ++ l.filter q).Perm (l.filter fun a => p a || q a) := by
  have left : (l.filter fun a => p a || q a).filter p = l.filter p := by
    rw [List.filter_filter]
    congr 1
    funext a
    cases p a <;> rfl
  have right : (l.filter fun a => p a || q a).filter (!p ·) = l.filter q := by
    rw [List.filter_filter]
    congr 1
    funext a
    cases inside : p a with
    | true => simp [apart a inside]
    | false => simp
  have parts := List.filter_append_perm p (l.filter fun a => p a || q a)
  rwa [left, right] at parts

/-- Picking the items of a list by distinct keys, one key after the other, picks each of them
once. -/
theorem flatMap_filter_perm {α : Type} {keys : List String} (distinct : keys.Nodup)
    (key : α → String)
    (p : α → Bool) (l : List α) :
    (keys.flatMap fun k => l.filter fun a => key a == k && p a).Perm
      (l.filter fun a => keys.contains (key a) && p a) := by
  induction keys with
  | nil => simp
  | cons k rest ih =>
      obtain ⟨absent, distinct⟩ := List.nodup_cons.mp distinct
      have apart (a : α) (here : (key a == k && p a) = true) :
          (rest.contains (key a) && p a) = false := by
        obtain ⟨rfl, -⟩ : key a = k ∧ p a = true := by simpa using here
        simp [absent]
      have split : (fun a => (k :: rest).contains (key a) && p a) =
          fun a => (key a == k && p a) || (rest.contains (key a) && p a) := by
        funext a
        rw [List.contains_cons, Bool.and_or_distrib_right]
      rw [List.flatMap_cons, split]
      exact ((ih distinct).append_left _).trans (filter_or_perm apart l)

section Repetition

variable {α : Type} [BEq α]

theorem eraseDups_sublist (l : List α) : l.eraseDups.Sublist l := by
  cases l with
  | nil => exact List.Sublist.refl _
  | cons a rest =>
      rw [List.eraseDups_cons]
      exact ((eraseDups_sublist _).trans List.filter_sublist).cons_cons a
termination_by l.length
decreasing_by
  have shorter := List.length_filter_le (fun b => !b == a) rest
  simp only [List.length_cons]
  omega

variable [LawfulBEq α]

theorem nodup_eraseDups (l : List α) : l.eraseDups.Nodup := by
  cases l with
  | nil => exact List.nodup_nil
  | cons a rest =>
      rw [List.eraseDups_cons]
      refine List.nodup_cons.mpr ⟨fun again => ?_, nodup_eraseDups _⟩
      have member := List.mem_eraseDups.mp again
      simp at member
termination_by l.length
decreasing_by
  have shorter := List.length_filter_le (fun b => !b == a) rest
  simp only [List.length_cons]
  omega

/-- Erasing repetitions shortens exactly the lists that have some. -/
theorem length_eraseDups_eq {l : List α} : l.eraseDups.length = l.length ↔ l.Nodup := by
  constructor
  · intro same
    have whole := (eraseDups_sublist l).eq_of_length same
    exact whole ▸ nodup_eraseDups l
  · intro distinct
    have all : l.Subperm l.eraseDups :=
      List.subperm_of_subset distinct fun a member => List.mem_eraseDups.mpr member
    exact Nat.le_antisymm (eraseDups_sublist l).length_le all.length_le

theorem eraseDups_eq_self {l : List α} (distinct : l.Nodup) : l.eraseDups = l :=
  (eraseDups_sublist l).eq_of_length (length_eraseDups_eq.mpr distinct)

end Repetition

section Sorting

variable {α : Type} {le : α → α → Bool} (trans : ∀ a b c, le a b → le b c → le a c)
  (total : ∀ a b, le a b || le b a)

include trans total

/-- Sorting puts the first item behind the smaller ones and before the others. -/
theorem exists_mergeSort_cons (a : α) (l : List α) : ∃ before behind,
    (a :: l).mergeSort le = before ++ a :: behind ∧ l.mergeSort le = before ++ behind ∧
      before = (l.mergeSort le).filter (!le a ·) ∧ behind = (l.mergeSort le).filter (le a ·) := by
  obtain ⟨before, behind, whole, rest, smaller⟩ := List.mergeSort_cons trans total a l
  have ordered := List.pairwise_mergeSort trans total (a :: l)
  rw [whole] at ordered
  have larger := (List.pairwise_cons.mp (List.pairwise_append.mp ordered).2.1).1
  refine ⟨before, behind, whole, rest, ?_, ?_⟩
  · rw [rest, List.filter_append, List.filter_eq_self.mpr smaller,
      List.filter_eq_nil_iff.mpr fun b there => by simp [larger b there], List.append_nil]
  · have none : before.filter (le a ·) = [] :=
      List.filter_eq_nil_iff.mpr fun b there => by simpa using smaller b there
    rw [rest, List.filter_append, none, List.filter_eq_self.mpr larger, List.nil_append]

/-- Sorting is stable: items keep their order when others are sorted with them. -/
theorem mergeSort_sublist {l m : List α} (part : l.Sublist m) :
    (l.mergeSort le).Sublist (m.mergeSort le) := by
  induction part with
  | slnil => exact List.Sublist.refl _
  | @cons l m a _ ih =>
      obtain ⟨before, behind, whole, rest, -⟩ := exists_mergeSort_cons trans total a m
      rw [whole]
      exact ih.trans (rest ▸ (List.sublist_cons_self a behind).append_left before)
  | @cons_cons l m a _ ih =>
      obtain ⟨before, behind, whole, -, rfl, rfl⟩ := exists_mergeSort_cons trans total a l
      obtain ⟨before', behind', whole', -, rfl, rfl⟩ := exists_mergeSort_cons trans total a m
      rw [whole, whole']
      exact (ih.filter _).append ((ih.filter _).cons_cons a)

end Sorting

namespace Compile

variable {connected order : List String} {preferred : Option String}

/-- The actions other than the preferred one, those that an order lists before the others. -/
def ranked (connected : List String) (preferred : Option String) (order : List String) :
    List String :=
  (connected.filter (some · != preferred)).mergeSort fun a b =>
    decide (order.idxOf a ≤ order.idxOf b)

theorem orderActions_eq (connected : List String) (preferred : Option String)
    (order : List String) :
    orderActions connected preferred order =
      preferred.toList.filter connected.contains ++ ranked connected preferred order := by
  cases preferred with
  | none => rfl
  | some p =>
      dsimp only [orderActions, Option.toList_some]
      cases chosen : connected.contains p with
      | true => rw [List.filter_cons_of_pos chosen]; rfl
      | false => rw [List.filter_cons_of_neg (Bool.eq_false_iff.mp chosen)]; rfl

theorem rank_trans (order : List String) (a b c : String)
    (first : decide (order.idxOf a ≤ order.idxOf b) = true)
    (second : decide (order.idxOf b ≤ order.idxOf c) = true) :
    decide (order.idxOf a ≤ order.idxOf c) = true :=
  decide_eq_true (Nat.le_trans (of_decide_eq_true first) (of_decide_eq_true second))

theorem rank_total (order : List String) (a b : String) :
    (decide (order.idxOf a ≤ order.idxOf b) || decide (order.idxOf b ≤ order.idxOf a)) = true := by
  simpa using Nat.le_total _ _

theorem mem_ranked {id : String} :
    id ∈ ranked connected preferred order ↔ id ∈ connected ∧ some id ≠ preferred := by
  simp [ranked]

/-- Putting distinct actions in order moves them and does nothing else. -/
theorem orderActions_perm (preferred : Option String) (order : List String)
    (distinct : connected.Nodup) :
    (orderActions connected preferred order).Perm connected := by
  have rest : (ranked connected preferred order).Perm
      (connected.filter (some · != preferred)) := List.mergeSort_perm _ _
  have first : (preferred.toList.filter connected.contains).Perm
      (connected.filter (!some · != preferred)) := by
    cases preferred with
    | none => simp
    | some p =>
        have only : connected.filter (!some · != some p) = connected.filter (· == p) := by
          congr 1
          funext id
          simp [bne]
        rw [only, List.filter_beq]
        by_cases chosen : p ∈ connected
        · simp [chosen, List.count_eq_one_of_mem distinct chosen]
        · simp [chosen, List.count_eq_zero_of_not_mem chosen]
  rw [orderActions_eq]
  refine (first.append rest).trans (List.perm_append_comm.trans ?_)
  exact List.filter_append_perm _ _

theorem mem_orderActions {id : String} (distinct : connected.Nodup) :
    id ∈ orderActions connected preferred order ↔ id ∈ connected :=
  (orderActions_perm preferred order distinct).mem_iff

/-- Actions keep their order when others are offered behind them. -/
theorem orderActions_sublist {larger : List String} (more : connected.Sublist larger)
    (preferred : Option String)
    (order : List String) :
    (orderActions connected preferred order).Sublist (orderActions larger preferred order) := by
  rw [orderActions_eq, orderActions_eq]
  refine List.Sublist.append ?_ ?_
  · refine List.monotone_filter_right _ fun id there => ?_
    rw [List.contains_iff_mem] at there ⊢
    exact more.subset there
  · exact mergeSort_sublist (rank_trans order) (rank_total order) (more.filter _)

/-- Leaving the preferred action out of the ordered ones leaves the others in their order. -/
theorem filter_orderActions :
    (orderActions connected preferred order).filter (some · != preferred) =
      ranked connected preferred order := by
  rw [orderActions_eq, List.filter_append]
  have none : (preferred.toList.filter connected.contains).filter (some · != preferred) = [] := by
    cases preferred <;> simp
  have all : (ranked connected preferred order).filter (some · != preferred) =
      ranked connected preferred order := by
    apply List.filter_eq_self.mpr
    intro id member
    simpa using (mem_ranked.mp member).2
  rw [none, all, List.nil_append]

/-- A list without repetition is in the order of its own indices. -/
theorem pairwise_idxOf {l : List String} (distinct : l.Nodup) :
    l.Pairwise fun a b => l.idxOf a ≤ l.idxOf b := by
  rw [List.pairwise_iff_getElem]
  intro i j hi hj before
  rw [distinct.idxOf_getElem i hi, distinct.idxOf_getElem j hj]
  exact Nat.le_of_lt before

/-- Actions that were put in order keep it when they are ordered again, with the order of all but
the preferred one. -/
theorem orderActions_stable (distinct : connected.Nodup) :
    let ordered := orderActions connected preferred order
    orderActions ordered preferred (ordered.filter (some · != preferred)) = ordered := by
  intro ordered
  have same (id : String) : ordered.contains id = connected.contains id := by
    rw [Bool.eq_iff_iff, List.contains_iff_mem, List.contains_iff_mem]
    exact mem_orderActions distinct
  have distinctRest : (ranked connected preferred order).Nodup := by
    rw [← filter_orderActions]
    exact ((orderActions_perm preferred order distinct).nodup_iff.mpr distinct).filter _
  rw [orderActions_eq, ranked, filter_orderActions, List.mergeSort_of_pairwise]
  · rw [funext same]
    exact (orderActions_eq connected preferred order).symm
  · exact (pairwise_idxOf distinctRest).imp fun le => decide_eq_true le

end Compile

end Parley
