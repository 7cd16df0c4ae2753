import Parley.Proofs.Document.Order

/-!
# The rank of an action

An order of actions gives each listed one the place where it comes first, and all others the same
place behind these.  Apart from the preferred action, which is put in front, actions stand by these
places, and actions of one place stand as they came.
-/

namespace Parley

/-- Whether one item stands before another one in a list. -/
def Precedes (l : List String) (a b : String) : Prop := [a, b].Sublist l

namespace Precedes

variable {l m : List String} {a b : String}

theorem mono (before : Precedes l a b) (part : l.Sublist m) : Precedes m a b :=
  List.Sublist.trans before part

theorem filter {p : String → Bool} (before : Precedes l a b) (first : p a = true)
    (second : p b = true) : Precedes (l.filter p) a b := by
  have kept := List.Sublist.filter p before
  rwa [List.filter_cons_of_pos first, List.filter_cons_of_pos second] at kept

/-- Of two items of a list one stands before the other. -/
theorem total (different : a ≠ b) (here : a ∈ l) (there : b ∈ l) :
    Precedes l a b ∨ Precedes l b a := by
  obtain ⟨before, behind, rfl⟩ := List.append_of_mem here
  rcases List.mem_append.mp there with there | there
  · exact .inr ((List.singleton_sublist.mpr there).append
      (List.singleton_sublist.mpr (List.mem_cons_self ..)))
  · have there : b ∈ behind := (List.mem_cons.mp there).resolve_left different.symm
    exact .inl (((List.singleton_sublist.mpr there).cons_cons a).trans
      (List.sublist_append_right ..))

end Precedes

namespace Compile

variable {connected order : List String} {preferred : Option String} {a b : String}

/-- The others stand by the places at which the order lists them first. -/
theorem pairwise_ranked :
    (ranked connected preferred order).Pairwise fun a b => order.idxOf a ≤ order.idxOf b := by
  have sorted := List.pairwise_mergeSort (rank_trans order) (rank_total order)
    (connected.filter (some · != preferred))
  exact sorted.imp fun le => of_decide_eq_true le

/-- What has an earlier place stands before. -/
theorem precedes_ranked_of_lt (here : a ∈ ranked connected preferred order)
    (there : b ∈ ranked connected preferred order) (earlier : order.idxOf a < order.idxOf b) :
    Precedes (ranked connected preferred order) a b := by
  have different : a ≠ b := by
    rintro rfl
    exact Nat.lt_irrefl _ earlier
  refine (Precedes.total different here there).resolve_right fun reverse => ?_
  have least := List.pairwise_pair.mp (pairwise_ranked.sublist reverse)
  exact Nat.not_le.mpr earlier least

/-- What has the same place stands as it came. -/
theorem precedes_ranked_of_eq (same : order.idxOf a = order.idxOf b)
    (before : Precedes connected a b) (first : some a ≠ preferred) (second : some b ≠ preferred) :
    Precedes (ranked connected preferred order) a b := by
  have kept : Precedes (connected.filter (some · != preferred)) a b :=
    before.filter (by simpa using first) (by simpa using second)
  exact List.pair_sublist_mergeSort (rank_trans order) (rank_total order)
    (decide_eq_true (Nat.le_of_eq same)) kept

theorem ranked_sublist : (ranked connected preferred order).Sublist
    (orderActions connected preferred order) := by
  rw [orderActions_eq]
  exact List.sublist_append_right ..

/-- The preferred action comes first if it is there at all. -/
theorem head?_orderActions {p : String} :
    (orderActions connected (some p) order).head? = some p ↔ p ∈ connected := by
  rw [orderActions_eq, Option.toList_some]
  by_cases chosen : p ∈ connected
  · simp [chosen]
  · have absent : p ∉ ranked connected (some p) order := fun there => chosen (mem_ranked.mp there).1
    have none : [p].filter connected.contains = [] := by simpa using chosen
    rw [none, List.nil_append]
    exact iff_of_false (fun first => absent (List.mem_of_mem_head? first)) chosen

/-- Actions are put in order by a stable ranking.  Each stays; the preferred one comes first if it
is offered; of the others, those that the order lists come before those that it does not list, the
former by the places at which they are listed first and the latter as they came.  What was put in
order stays as it is when it is put in the order of all but the preferred one. -/
theorem orderActions_ranked (distinct : connected.Nodup) (preferred : Option String)
    (order : List String) :
    let ordered := orderActions connected preferred order
    ordered.Perm connected ∧
      (∀ p, preferred = some p → (ordered.head? = some p ↔ p ∈ connected)) ∧
      (∀ a ∈ connected, ∀ b ∈ connected, some a ≠ preferred → some b ≠ preferred →
        (a ∈ order → b ∉ order → Precedes ordered a b) ∧
        (a ∈ order → b ∈ order → order.idxOf a < order.idxOf b → Precedes ordered a b) ∧
        (a ∉ order → b ∉ order → Precedes connected a b → Precedes ordered a b)) ∧
      orderActions ordered preferred (ordered.filter (some · != preferred)) = ordered := by
  intro ordered
  refine ⟨orderActions_perm preferred order distinct, ?_, ?_, orderActions_stable distinct⟩
  · rintro p rfl
    exact head?_orderActions
  · intro a here b there first second
    have rankedHere : a ∈ ranked connected preferred order := mem_ranked.mpr ⟨here, first⟩
    have rankedThere : b ∈ ranked connected preferred order := mem_ranked.mpr ⟨there, second⟩
    refine ⟨fun listed unlisted => ?_, fun _ _ earlier => ?_, fun unlisted unlisted' before => ?_⟩
    · have earlier : order.idxOf a < order.idxOf b := by
        rw [List.idxOf_eq_length unlisted]
        exact List.idxOf_lt_length_iff.mpr listed
      exact (precedes_ranked_of_lt rankedHere rankedThere earlier).mono ranked_sublist
    · exact (precedes_ranked_of_lt rankedHere rankedThere earlier).mono ranked_sublist
    · have same : order.idxOf a = order.idxOf b := by
        rw [List.idxOf_eq_length unlisted, List.idxOf_eq_length unlisted']
      exact (precedes_ranked_of_eq same before first second).mono ranked_sublist

/-- The order lists `fight` twice, the preferred `trade` and an id that is not offered. -/
theorem orderActions_ranked_of_repeated :
    let connected := ["talk", "leave", "trade", "fight", "sleep"]
    let order := ["fight", "gone", "trade", "leave", "fight"]
    let ordered := orderActions connected (some "trade") order
    connected.Nodup ∧ ordered = ["trade", "fight", "leave", "talk", "sleep"] ∧
      ordered.Perm connected ∧ (ordered.head? = some "trade" ↔ "trade" ∈ connected) ∧
      Precedes ordered "leave" "talk" ∧ Precedes ordered "fight" "leave" ∧
      Precedes ordered "talk" "sleep" ∧
      orderActions ordered (some "trade") ["fight", "leave", "talk", "sleep"] = ordered := by
  intro connected order ordered
  have distinct : connected.Nodup := by decide
  have sorted : ordered = ["trade", "fight", "leave", "talk", "sleep"] := by
    simp [ordered, connected, order, orderActions, List.mergeSort]
  have rest : ordered.filter (some · != some "trade") = ["fight", "leave", "talk", "sleep"] := by
    rw [sorted]
    decide
  have before : Precedes connected "talk" "sleep" := by
    have part : ["talk", "sleep"].isSublist connected = true := by decide
    exact List.isSublist_iff_sublist.mp part
  obtain ⟨same, first, others, again⟩ := orderActions_ranked distinct (some "trade") order
  refine ⟨distinct, sorted, same, first "trade" rfl, ?_, ?_, ?_, rest ▸ again⟩
  · exact (others "leave" (by decide) "talk" (by decide) (by decide) (by decide)).1
      (by decide) (by decide)
  · exact (others "fight" (by decide) "leave" (by decide) (by decide) (by decide)).2.1
      (by decide) (by decide) (by decide)
  · exact (others "talk" (by decide) "sleep" (by decide) (by decide) (by decide)).2.2
      (by decide) (by decide) before

end Compile

end Parley
