import Mathlib.Data.List.Perm.Subperm
import Mathlib.Logic.Function.Iterate
import Mathlib.Logic.Relation
import Parley.Proofs.Document.Order
import Parley.Proofs.Graph.Inspection

/-!
# The nodes that no path reaches

The search of an inspection takes one node after the other out of a queue and puts the ends of its
edges behind the others, unless they were seen before.  Seen stays what a path of edges leads to,
and edges from what was seen lead to what was seen, unless their source still waits in the queue.
An edge puts at most one id in the queue, so there are no more rounds than edges, and one for the
entry; then the queue is empty and what was seen is what is reached.
-/

namespace Parley

namespace Graph

/-- An edge leads from one id to another. -/
def Joins (g : Graph) (source target : String) : Prop :=
  ∃ e ∈ g.edges, e.source = source ∧ e.target = target

/-- A path of edges leads from the entry to an id. -/
def Reaches (g : Graph) (id : String) : Prop := Relation.ReflTransGen g.Joins g.entryId id

end Graph

namespace Inspection

/-- A search on its way: the ids that were seen, and those whose edges were not yet followed. -/
structure Search where
  seen : List String
  queue : List String

namespace Search

/-- The search starts at the entry. -/
def start (g : Graph) : Search := ⟨[g.entryId], [g.entryId]⟩

/-- Follows an edge. -/
def follow (s : Search) (e : Edge) : Search :=
  if s.seen.contains e.target then s else ⟨s.seen ++ [e.target], s.queue ++ [e.target]⟩

/-- Follows the edges of the first id in the queue. -/
def round (g : Graph) (s : Search) : Search :=
  match s.queue with
  | [] => s
  | id :: queue => (g.edgesFrom id none).foldl follow ⟨s.seen, queue⟩

/-- The rounds that the queue may still take: its length, and one for each edge whose target was not
seen. -/
def cost (g : Graph) (s : Search) : Nat := unseen g.edges s.seen + s.queue.length

/-- What holds of a search from round to round. -/
structure Fair (g : Graph) (s : Search) : Prop where
  entry : g.entryId ∈ s.seen
  reached : ∀ id ∈ s.seen, g.Reaches id
  /-- An edge that leaves what was seen leads to what was seen, unless its source waits. -/
  closed : ∀ e ∈ g.edges, e.source ∈ s.seen → e.source ∉ s.queue → e.target ∈ s.seen
  queued : ∀ id ∈ s.queue, id ∈ s.seen

end Search

section Fresh

variable {edges : List Edge} {seen : List String} {id target : String}

theorem mem_fresh : target ∈ fresh edges seen id ↔
    (∃ e ∈ edges, e.source = id ∧ e.target = target) ∧ target ∉ seen := by
  simp only [fresh, List.mem_eraseDups, List.mem_filter, List.mem_map, beq_iff_eq,
    Bool.not_eq_true', List.contains_eq_mem, decide_eq_false_iff_not, and_assoc]

theorem nodup_fresh : (fresh edges seen id).Nodup := nodup_eraseDups _

/-- What is seen for the first time is paid for by the edges that lead there. -/
theorem unseen_fresh (edges : List Edge) (seen : List String) (id : String) :
    unseen edges (seen ++ fresh edges seen id) + (fresh edges seen id).length ≤
      unseen edges seen := by
  have inside : fresh edges seen id ⊆
      (edges.filter fun e => (fresh edges seen id).contains e.target).map (·.target) := by
    intro target new
    obtain ⟨⟨e, there, -, rfl⟩, -⟩ := mem_fresh.mp new
    exact List.mem_map.mpr ⟨e, List.mem_filter.mpr ⟨there, by simpa using new⟩, rfl⟩
  have few := (List.subperm_of_subset nodup_fresh inside).length_le
  rw [List.length_map] at few
  have parts : unseen edges seen = unseen edges (seen ++ fresh edges seen id) +
      (edges.filter fun e => (fresh edges seen id).contains e.target).length := by
    rw [unseen, unseen, ← List.countP_eq_length_filter,
      List.countP_eq_countP_filter_add edges (fun e => !seen.contains e.target)
        (fun e => !(fresh edges seen id).contains e.target), List.countP_filter, List.countP_filter]
    congr 1
    · refine List.countP_congr fun e _ => ?_
      simp
    · refine List.countP_congr fun e _ => ?_
      have apart : e.target ∈ fresh edges seen id → e.target ∉ seen :=
        fun new => (mem_fresh.mp new).2
      simpa using apart
  omega

end Fresh

namespace Search

variable {g : Graph} {s : Search} {id : String}

/-- Following several edges in turn adds their targets that were not seen, each once. -/
theorem foldl_follow (edges : List Edge) (seen queue : List String) :
    edges.foldl follow ⟨seen, queue⟩ =
      ⟨seen ++ ((edges.map (·.target)).filter (!seen.contains ·)).eraseDups,
        queue ++ ((edges.map (·.target)).filter (!seen.contains ·)).eraseDups⟩ := by
  induction edges generalizing seen queue with
  | nil => simp
  | cons e rest ih =>
      by_cases old : e.target ∈ seen
      · rw [List.foldl_cons, follow, if_pos (by simpa using old), ih]
        simp [old]
      · have later : (rest.map (·.target)).filter (!(seen ++ [e.target]).contains ·) =
            ((rest.map (·.target)).filter (!seen.contains ·)).filter (!· == e.target) := by
          rw [List.filter_filter]
          refine List.filter_congr fun target _ => ?_
          rw [Bool.eq_iff_iff]
          simp [and_comm]
        rw [List.foldl_cons, follow, if_neg (by simpa using old), ih, later, List.map_cons,
          List.filter_cons_of_pos (by simpa using old), List.eraseDups_cons]
        simp

theorem round_nil (empty : s.queue = []) : round g s = s := by
  rw [round, empty]

theorem round_cons (seen queue : List String) : round g ⟨seen, id :: queue⟩ =
    ⟨seen ++ fresh g.edges seen id, queue ++ fresh g.edges seen id⟩ := by
  have leaving : g.edgesFrom id none = g.edges.filter (·.source == id) := by
    simp [Graph.edgesFrom]
  simp only [round, foldl_follow, leaving, fresh]

/-- The search in one call goes round by round. -/
theorem spread_round (s : Search) :
    spread g.edges (round g s).seen (round g s).queue = spread g.edges s.seen s.queue := by
  obtain ⟨seen, queue⟩ := s
  cases queue with
  | nil => rw [round_nil rfl]
  | cons id queue => rw [round_cons, spread]

theorem spread_rounds (s : Search) (rounds : Nat) :
    spread g.edges ((round g)^[rounds] s).seen ((round g)^[rounds] s).queue =
      spread g.edges s.seen s.queue := by
  induction rounds with
  | zero => rfl
  | succ rounds ih => rw [Function.iterate_succ_apply', spread_round, ih]

theorem cost_round (waiting : s.queue ≠ []) : cost g (round g s) < cost g s := by
  obtain ⟨seen, queue⟩ := s
  cases queue with
  | nil => exact absurd rfl waiting
  | cons id queue =>
      rw [round_cons]
      have paid := unseen_fresh g.edges seen id
      simp only [cost, List.length_append, List.length_cons]
      omega

/-- The queue is empty after as many rounds as may be left. -/
theorem queue_rounds (rounds : Nat) (enough : cost g s ≤ rounds) :
    ((round g)^[rounds] s).queue = [] := by
  induction rounds generalizing s with
  | zero =>
      rw [cost] at enough
      exact List.length_eq_zero_iff.mp (show s.queue.length = 0 by omega)
  | succ rounds ih =>
      rw [Function.iterate_succ_apply]
      by_cases empty : s.queue = []
      · rw [round_nil empty, Function.iterate_fixed (round_nil empty), empty]
      · have less := cost_round (g := g) empty
        exact ih (by omega)

theorem cost_start (g : Graph) : cost g (start g) ≤ g.edges.length + 1 :=
  Nat.add_le_add_right List.countP_le_length 1

theorem Fair.start (g : Graph) : Fair g (start g) where
  entry := List.mem_singleton_self _
  reached := fun _ there => List.mem_singleton.mp there ▸ Relation.ReflTransGen.refl
  closed := fun _ _ seen waits => absurd seen waits
  queued := fun _ there => there

/-- A round keeps what holds of a search. -/
theorem Fair.round (fair : Fair g s) : Fair g (round g s) := by
  obtain ⟨seen, queue⟩ := s
  cases queue with
  | nil => rwa [round_nil rfl]
  | cons id queue =>
      rw [round_cons]
      refine ⟨List.mem_append_left _ fair.entry, fun target there => ?_,
        fun e member left free => ?_, fun target there => ?_⟩
      · rcases List.mem_append.mp there with there | new
        · exact fair.reached target there
        · obtain ⟨joined, -⟩ := mem_fresh.mp new
          exact (fair.reached id (fair.queued id List.mem_cons_self)).tail joined
      · have past : e.source ∈ seen :=
          (List.mem_append.mp left).resolve_right fun new => free (List.mem_append_right _ new)
        by_cases first : e.source = id
        · by_cases old : e.target ∈ seen
          · exact List.mem_append_left _ old
          · exact List.mem_append_right _ (mem_fresh.mpr ⟨⟨e, member, first, rfl⟩, old⟩)
        · refine List.mem_append_left _ (fair.closed e member past fun waits => ?_)
          rcases List.mem_cons.mp waits with same | waits
          · exact first same
          · exact free (List.mem_append_left _ waits)
      · rcases List.mem_append.mp there with there | new
        · exact List.mem_append_left _ (fair.queued target (List.mem_cons_of_mem _ there))
        · exact List.mem_append_right _ new

theorem Fair.rounds (fair : Fair g s) (rounds : Nat) : Fair g ((Search.round g)^[rounds] s) := by
  induction rounds with
  | zero => exact fair
  | succ rounds ih =>
      rw [Function.iterate_succ_apply']
      exact ih.round

/-- A search whose queue is empty has seen exactly what is reached. -/
theorem Fair.exact (fair : Fair g s) (empty : s.queue = []) : id ∈ s.seen ↔ g.Reaches id := by
  refine ⟨fair.reached id, fun path => ?_⟩
  induction path with
  | refl => exact fair.entry
  | tail _ joined seen =>
      obtain ⟨e, member, rfl, rfl⟩ := joined
      exact fair.closed e member seen (by simp [empty])

/-- A search ends within one round for each edge and one for the entry. -/
theorem rounds_start (g : Graph) :
    (round g)^[g.edges.length + 1] (start g) = ⟨Inspection.reached g, []⟩ := by
  have empty := queue_rounds (g := g) (s := start g) _ (cost_start g)
  have whole := spread_rounds (g := g) (start g) (g.edges.length + 1)
  rw [empty, spread] at whole
  calc (round g)^[g.edges.length + 1] (start g)
      = ⟨((round g)^[g.edges.length + 1] (start g)).seen, []⟩ := by rw [← empty]
    _ = ⟨Inspection.reached g, []⟩ := by rw [whole]; rfl

end Search

/-- The warning on a node that no path reaches. -/
def unreachable (n : Node) : Check :=
  Check.warning "unreachable_node"
    (n.kind.word ++ " node '" ++ n.id ++ "' cannot be reached from the entry") (some n.id)

section Reached

variable {g : Graph} {found : List Check} {name passed other id : String}

theorem mem_reached : id ∈ reached g ↔ g.Reaches id := by
  have fair := (Search.Fair.start g).rounds (g.edges.length + 1)
  rw [Search.rounds_start] at fair
  exact fair.exact rfl

/-- Whether a path leads to an id is found by searching for as many rounds as there are edges. -/
instance : DecidablePred g.Reaches := fun id =>
  decidable_of_iff (id ∈ ((Search.round g)^[g.edges.length + 1] (Search.start g)).seen)
    (by rw [Search.rounds_start]; exact mem_reached)

/-- The nodes that no path reaches are warned about in their order, or else one check passes. -/
theorem reachability_eq (g : Graph) : reachability g =
    if ∀ n ∈ g.nodes, g.Reaches n.id then
      [Check.passed "unreachable_node" "Every node is reachable from the entry"]
    else (g.nodes.filter fun n => ¬ g.Reaches n.id).map unreachable := by
  have same : (g.nodes.filter fun n => !(reached g).contains n.id) =
      g.nodes.filter fun n => ¬ g.Reaches n.id :=
    List.filter_congr fun n _ => by rw [Bool.eq_iff_iff]; simp [mem_reached]
  rw [reachability, same, concern, List.isEmpty_map]
  by_cases all : ∀ n ∈ g.nodes, g.Reaches n.id
  · rw [if_pos all, if_pos]
    simpa [List.filter_eq_nil_iff] using all
  · rw [if_neg all, if_neg]
    · rfl
    · simpa [List.filter_eq_nil_iff] using all

/-- A concern has no check of a name that neither its pass nor its findings have. -/
theorem filter_concern (apart : name ≠ other) (named : ∀ c ∈ found, c.name ≠ other) :
    (concern found name passed).filter (·.name == other) = [] := by
  refine List.filter_eq_nil_iff.mpr fun c member => ?_
  rcases mem_concern.mp member with there | ⟨-, rfl⟩
  · simpa using named c there
  · simpa [Check.passed] using apart

/-- The checks called `unreachable_node` are those on the paths from the entry. -/
theorem filter_checks (g : Graph) :
    (ofGraph g).checks.filter (·.name == "unreachable_node") = reachability g := by
  have integrity : (integrity g).filter (·.name == "unreachable_node") = [] := by
    refine filter_concern (by decide) fun c member => ?_
    obtain ⟨v, -, rfl⟩ := List.mem_map.mp member
    simp [Check.failure]
  have entry : (entry g).filter (·.name == "unreachable_node") = [] := by
    rw [Inspection.entry]
    split <;> rfl
  have actions : (actions g).filter (·.name == "unreachable_node") = [] := by
    refine filter_concern (by decide) fun c member => ?_
    obtain ⟨n, -, check⟩ := List.mem_flatMap.mp member
    obtain ⟨d, -, -, rfl⟩ := mem_actionChecks.mp check
    simp [Check.warning]
  have conditionals : (conditionals g).filter (·.name == "unreachable_node") = [] := by
    refine filter_concern (by decide) fun c member => ?_
    obtain ⟨n, -, check⟩ := List.mem_flatMap.mp member
    obtain ⟨d, -, -, rfl⟩ := mem_conditionalChecks.mp check
    simp [Check.warning]
  have results : (results g).filter (·.name == "unreachable_node") = [] := by
    refine filter_concern (by decide) fun c member => ?_
    obtain ⟨n, -, check⟩ := List.mem_flatMap.mp member
    rcases (of_mem_resultChecks check).2 with named | named <;> simp [named]
  have own : (reachability g).filter (·.name == "unreachable_node") = reachability g := by
    refine List.filter_eq_self.mpr fun c member => ?_
    rcases mem_concern.mp member with there | ⟨-, rfl⟩
    · obtain ⟨n, -, rfl⟩ := List.mem_map.mp there
      rfl
    · rfl
  simp only [ofGraph, List.filter_append, integrity, entry, actions, conditionals, results, own,
    List.nil_append]

/-- The search of an inspection ends, within a round for each edge and one for the entry, and its
findings are exact: a node is warned about if and only if no path of edges leads from the entry to
its id, once for each such node and in the order of the nodes, and the one check passes if and only
if there is none. -/
theorem reachability_exact (g : Graph) :
    (Search.round g)^[g.edges.length + 1] (Search.start g) = ⟨reached g, []⟩ ∧
      (∀ n ∈ g.nodes, Check.Warns (ofGraph g).checks "unreachable_node" n.id ↔
        ¬ g.Reaches n.id) ∧
      (ofGraph g).checks.filter (·.name == "unreachable_node") =
        if ∀ n ∈ g.nodes, g.Reaches n.id then
          [Check.passed "unreachable_node" "Every node is reachable from the entry"]
        else (g.nodes.filter fun n => ¬ g.Reaches n.id).map unreachable := by
  refine ⟨Search.rounds_start g, fun n there => ⟨?_, fun away => ?_⟩,
    (filter_checks g).trans (reachability_eq g)⟩
  · rintro ⟨c, member, warning, named, pinned⟩
    have kept : c ∈ reachability g := by
      rw [← filter_checks]
      exact List.mem_filter.mpr ⟨member, by simp [named]⟩
    obtain ⟨m, left, rfl⟩ := List.mem_map.mp (mem_found kept (by simp [warning]))
    obtain ⟨-, away⟩ := List.mem_filter.mp left
    rw [← Option.some.inj pinned, ← mem_reached]
    simpa using away
  · have left : n ∈ g.nodes.filter fun n => !(reached g).contains n.id :=
      List.mem_filter.mpr ⟨there, by simpa [mem_reached] using away⟩
    have found : unreachable n ∈ (ofGraph g).checks :=
      List.mem_append_right _ (mem_concern.mpr (.inl (List.mem_map_of_mem left)))
    exact ⟨_, found, rfl, rfl, rfl⟩

/-- A cycle ends the search, an edge to an id without a node is followed, and an edge into what is
reached does not make its source reached. -/
example :
    let g : Graph := ⟨[], [⟨"", "initial", "initial_target", "a", ""⟩, ⟨"", "a", "", "b", ""⟩,
      ⟨"", "b", "", "a", ""⟩, ⟨"", "b", "", "gone", ""⟩, ⟨"", "c", "", "a", ""⟩], "initial"⟩
    ["a", "b", "c", "gone"].filter (fun id => g.Reaches id) = ["a", "b", "gone"] := by
  decide

end Reached

end Inspection

end Parley
