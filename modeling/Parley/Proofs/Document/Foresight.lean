import Parley.Proofs.Document.Rows
import Parley.Proofs.Graph.Entered
import Parley.Proofs.Graph.Inspection

/-!
# What an inspection foresees

An inspection judges each conditional by its own edges, while the compiler also drops a conditional
whose branch leads to one that was dropped.  So the conditionals that an inspection warns about are
the roots of what the compiler drops: a conditional is dropped exactly if a path of branches leads
from it to such a root.  The set of the others is closed, and each closed set is kept.
-/

namespace Parley

open Compile

open Relation (ReflTransGen)

namespace Graph

/-- Whether a branch of one node leads to another one. -/
def Branches (g : Graph) (id next : String) : Prop :=
  ∃ port ∈ Port.outputs .conditional, first? g.edges id port = some next

/-- Whether a path of branches leads from a node to a conditional that an inspection warns about. -/
def Doomed (g : Graph) (id : String) : Prop :=
  ∃ root, ReflTransGen g.Branches id root ∧
    Check.Warns (Inspection.ofGraph g).checks "unwired_conditional" root

variable {g : Graph} {id next source target : String} {port : Port} {e : Edge} {n : Node}

theorem first?_eq_none_iff :
    first? g.edges id port = none ↔ g.edgesFrom id (some port.name) = [] := by
  simp [first?, edgesFrom, List.filter_eq_nil_iff, eq_comm (a := port.name)]

theorem Doomed.branch (branch : g.Branches id next) (doomed : g.Doomed next) : g.Doomed id := by
  obtain ⟨root, path, warned⟩ := doomed
  exact ⟨root, path.head branch, warned⟩

/-- An edge that matches and leaves a port leaves an output of its source and reaches an input of
its target. -/
theorem Matched.ends (fits : g.Matched e) (leaves : e.sourceHandle = port.name) :
    ∃ m n, g.node? e.source = some m ∧ g.node? e.target = some n ∧
      port ∈ Port.outputs m.kind ∧ port.input ∈ Port.inputs n.kind := by
  obtain ⟨m, n, hm, hn, legal⟩ := fits
  obtain ⟨output, owned, named, reached, -⟩ := Port.problem?_eq_none.mp legal
  obtain rfl := Port.name_injective (named.trans leaves)
  exact ⟨m, n, hm, hn, owned, reached⟩

section Matched

variable (matched : ∀ e ∈ g.edges, g.Matched e)

include matched

theorem ends_of_first? (led : first? g.edges source port = some target) :
    (∃ m ∈ g.nodes, m.id = source ∧ port ∈ Port.outputs m.kind) ∧
      ∃ n ∈ g.nodes, n.id = target ∧ port.input ∈ Port.inputs n.kind := by
  obtain ⟨e, member, rfl, leaves, rfl⟩ := first?_eq_some led
  obtain ⟨m, n, hm, hn, owned, reached⟩ := (matched e member).ends leaves
  exact ⟨⟨m, node?_mem hm, node?_id hm, owned⟩, n, node?_mem hn, node?_id hn, reached⟩

/-- What a result offers are actions. -/
theorem leadsToAction_of_all (distinct : g.ids.Nodup)
    (offers : target ∈ all g.edges source .resultActions) :
    leadsToAction g.nodes target = true := by
  obtain ⟨e, member, rfl, leaves, rfl⟩ := mem_all.mp offers
  obtain ⟨m, n, -, hn, -, reached⟩ := (matched e member).ends leaves
  have kind : n.kind = .action := by
    cases kind : n.kind <;> simp [Port.inputs, Port.input, kind] at reached ⊢
  have known : kind? g.nodes e.target = some .action :=
    (kind?_eq_some distinct).mpr ⟨n, node?_mem hn, node?_id hn, kind⟩
  simp [leadsToAction, known]

section Kept

variable (distinct : g.ids.Nodup)

include distinct

/-- A conditional that is not doomed is kept, since those that are not doomed form a closed set. -/
theorem kept_of_not_doomed (member : id ∈ conditionals g.nodes) (safe : ¬ g.Doomed id) :
    id ∈ (Survey.ofGraph g.nodes g.edges).kept := by
  classical
  let closed := (conditionals g.nodes).filter fun x => ¬ g.Doomed x
  have inside : closed ⊆ conditionals g.nodes := fun _ there => (List.mem_filter.mp there).1
  have sound : Closed g.nodes g.edges closed := by
    refine closed_iff.mpr fun x there port output => ?_
    obtain ⟨listed, safe⟩ : x ∈ conditionals g.nodes ∧ ¬ g.Doomed x := by
      simpa [closed] using there
    cases led : first? g.edges x port with
    | none =>
        obtain ⟨n, member, named, kind⟩ := mem_conditionals.mp listed
        have warned := Inspection.warns_unwired.mpr
          ⟨n, member, named, kind, port, output, first?_eq_none_iff.mp led⟩
        exact absurd ⟨x, .refl, warned⟩ safe
    | some target =>
        obtain ⟨-, n, member, rfl, trigger⟩ := ends_of_first? matched led
        have stays (kind : n.kind = .conditional) : n.id ∈ closed := by
          have next : ¬ g.Doomed n.id := fun doomed => safe (.branch ⟨port, output, led⟩ doomed)
          simpa [closed, next] using mem_conditionals.mpr ⟨n, member, rfl, kind⟩
        have reaches : port.input = .nodeTrigger := by
          revert output
          cases port <;> decide
        obtain ⟨type, made⟩ := ref?_of_trigger distinct member (reaches ▸ trigger) stays
        exact ⟨_, made⟩
  have safe : id ∈ closed := by simpa [closed, safe] using member
  exact (Survey.ofGraph_fair g.nodes g.edges).greatest closed inside sound safe

/-- A doomed node is a conditional that is not kept: its root has a branch that leads nowhere, and
what is kept is closed. -/
theorem dropped_of_doomed (doomed : g.Doomed id) :
    id ∈ conditionals g.nodes ∧ id ∉ (Survey.ofGraph g.nodes g.edges).kept := by
  have closed := Survey.ofGraph_closed g.nodes g.edges
  obtain ⟨root, path, warned⟩ := doomed
  induction path using ReflTransGen.head_induction_on with
  | refl =>
      obtain ⟨n, member, named, kind, port, output, free⟩ := Inspection.warns_unwired.mp warned
      refine ⟨mem_conditionals.mpr ⟨n, member, named, kind⟩, fun kept => ?_⟩
      obtain ⟨r, made⟩ := closed_iff.mp closed _ kept port output
      rw [first?_eq_none_iff.mpr free] at made
      cases made
  | @head id next branch _ ih =>
      obtain ⟨port, output, led⟩ := branch
      obtain ⟨listed, gone⟩ := ih
      obtain ⟨⟨m, member, named, owned⟩, -⟩ := ends_of_first? matched led
      refine ⟨mem_conditionals.mpr ⟨m, member, named, Port.kind_unique owned output⟩,
        fun kept => ?_⟩
      obtain ⟨r, made⟩ := closed_iff.mp closed _ kept port output
      rw [led] at made
      exact gone (mem_kept_of_ref? distinct listed made)

/-- The doomed nodes are the conditionals that are dropped. -/
theorem doomed_iff : g.Doomed id ↔
    id ∈ conditionals g.nodes ∧ id ∉ (Survey.ofGraph g.nodes g.edges).kept := by
  refine ⟨dropped_of_doomed matched distinct, fun ⟨listed, gone⟩ => ?_⟩
  by_contra safe
  exact gone (kept_of_not_doomed matched distinct listed safe)

/-- No reference can be made to where an edge leads exactly if that is doomed. -/
theorem ref?_eq_none_iff (led : first? g.edges source port = some target)
    (reaches : port.input = .nodeTrigger) :
    ref? g.nodes (Survey.ofGraph g.nodes g.edges).kept (some target) = none ↔
      g.Doomed target := by
  obtain ⟨-, n, member, rfl, trigger⟩ := ends_of_first? matched led
  rw [reaches] at trigger
  rw [doomed_iff matched distinct]
  constructor
  · intro none
    by_contra safe
    have stays (kind : n.kind = .conditional) : n.id ∈ (Survey.ofGraph g.nodes g.edges).kept := by
      by_contra gone
      exact safe ⟨mem_conditionals.mpr ⟨n, member, rfl, kind⟩, gone⟩
    obtain ⟨type, made⟩ := ref?_of_trigger distinct member trigger stays
    rw [none] at made
    cases made
  · rintro ⟨listed, gone⟩
    by_contra some
    obtain ⟨r, made⟩ := Option.ne_none_iff_exists'.mp some
    exact gone (mem_kept_of_ref? distinct listed made)

end Kept

end Matched

section Compiled

variable (h : g.Entered) (matched : ∀ e ∈ g.edges, g.Matched e) {npc : String}
  {interaction : Option Interaction}

include h matched

/-- There is no document exactly if the entry is not connected or leads to a doomed conditional. -/
theorem compile_eq_empty_iff {reason : EmptyReason} :
    compile g.nodes g.edges npc interaction = .empty reason ↔
      first? g.edges g.entryId .initialTarget = none ∧ reason = .notConnected ∨
        ∃ target, first? g.edges g.entryId .initialTarget = some target ∧ g.Doomed target ∧
          reason = .unusable target := by
  obtain ⟨entry, found, named⟩ := h.find?_isEntry
  simp only [compile_eq_empty, found, reduceCtorEq, false_and, false_or, Option.some.injEq,
    exists_eq_left', named]
  refine or_congr Iff.rfl (exists_congr fun target => and_congr_right fun led => ?_)
  rw [ref?_eq_none_iff matched h.distinct led rfl]

/-- Where all edges match, each warning of the compiler is about an action that leads to nothing or
about a conditional that is dropped. -/
theorem of_mem_warnings {c : Check}
    (member : c ∈ warnings g.nodes g.edges (Survey.ofGraph g.nodes g.edges)) :
    c.severity = .warn ∧ (c.name = "dangling_action" ∨ c.name = "dropped_condition") ∧
      ∃ id, c.node = some id := by
  rcases warnings_cases member with ⟨n, -, -, -, message, rfl⟩ |
    ⟨n, -, target, offers, other, -⟩ | ⟨n, -, -, -, message, rfl⟩
  · exact ⟨rfl, .inl rfl, n.id, rfl⟩
  · rw [leadsToAction_of_all matched h.distinct offers] at other
    cases other
  · exact ⟨rfl, .inr rfl, n.id, rfl⟩

/-- The compiler warns about dropping exactly the doomed conditionals. -/
theorem warns_dropped : Check.Warns (warnings g.nodes g.edges (Survey.ofGraph g.nodes g.edges))
    "dropped_condition" id ↔ g.Doomed id := by
  rw [doomed_iff matched h.distinct, ← mem_droppedIds, droppedIds, List.mem_filterMap]
  constructor
  · rintro ⟨c, member, -, named, pinned⟩
    exact ⟨c, List.mem_filter.mpr ⟨member, beq_iff_eq.mpr named⟩, pinned⟩
  · rintro ⟨c, member, pinned⟩
    obtain ⟨member, named⟩ := List.mem_filter.mp member
    exact ⟨c, member, (of_mem_warnings h matched member).1, beq_iff_eq.mp named, pinned⟩

/-- No reference can be made to where an action leads exactly if that is nowhere or doomed. -/
theorem ref?_actionResult_eq_none : ref? g.nodes (Survey.ofGraph g.nodes g.edges).kept
    (first? g.edges id .actionResult) = none ↔ first? g.edges id .actionResult = none ∨
      ∃ target, first? g.edges id .actionResult = some target ∧ g.Doomed target := by
  cases led : first? g.edges id .actionResult with
  | none => simp [ref?]
  | some target => simp [ref?_eq_none_iff matched h.distinct led rfl]

/-- The compiler warns about the actions that an inspection warns about, and about those that lead
to a doomed conditional. -/
theorem warns_danglingAction :
    Check.Warns (warnings g.nodes g.edges (Survey.ofGraph g.nodes g.edges)) "dangling_action" id ↔
      Check.Warns (Inspection.ofGraph g).checks "dangling_action" id ∨
        ∃ target, first? g.edges id .actionResult = some target ∧ g.Doomed target := by
  rw [Inspection.warns_dangling]
  constructor
  · rintro ⟨c, member, -, named, pinned⟩
    rcases warnings_cases member with ⟨n, there, kind, none, message, rfl⟩ |
      ⟨n, -, target, -, -, message, rfl⟩ | ⟨n, -, -, dropped, message, rfl⟩
    · obtain rfl : n.id = id := Option.some.inj pinned
      exact ((ref?_actionResult_eq_none h matched).mp none).imp_left fun free =>
        ⟨n, there, rfl, kind, first?_eq_none_iff.mp free⟩
    · exact absurd named (show "non_action_target" ≠ "dangling_action" by decide)
    · exact absurd named (show "dropped_condition" ≠ "dangling_action" by decide)
  · rintro (⟨n, there, rfl, kind, free⟩ | ⟨target, led, doomed⟩)
    · have none := (ref?_actionResult_eq_none h matched).mpr (.inl (first?_eq_none_iff.mpr free))
      obtain ⟨message, member⟩ := exists_dangling there kind none
      exact ⟨_, member, rfl, rfl, rfl⟩
    · obtain ⟨⟨n, there, rfl, owned⟩, -⟩ := ends_of_first? matched led
      have kind : n.kind = .action := Port.kind_unique owned (l := .action) (by decide)
      have none := (ref?_actionResult_eq_none h matched).mpr (.inr ⟨target, led, doomed⟩)
      obtain ⟨message, member⟩ := exists_dangling there kind none
      exact ⟨_, member, rfl, rfl, rfl⟩

end Compiled

end Graph

/-- What an inspection foresees of exporting a graph that is reached.  There is no document exactly
if the inspection fails, which it does where the entry is not connected, or if the entry leads to a
doomed conditional.  If there is a document, the compiler warns about conditionals that are doomed,
about actions that the inspection warns about and about actions that lead to a doomed conditional,
and about nothing else. -/
theorem inspection_foresees {g : Graph} (run : g.Reached) (npc : String)
    (interaction : Option Interaction) :
    (∀ reason, compile g.nodes g.edges npc interaction = .empty reason ↔
      Check.anyFailure (Inspection.ofGraph g).checks = true ∧ reason = .notConnected ∨
        ∃ target, first? g.edges g.entryId .initialTarget = some target ∧ g.Doomed target ∧
          reason = .unusable target) ∧
      ∀ d ws, compile g.nodes g.edges npc interaction = .compiled d ws →
        (∀ id, Check.Warns ws "dropped_condition" id ↔ g.Doomed id) ∧
        (∀ id, Check.Warns ws "dangling_action" id ↔
          Check.Warns (Inspection.ofGraph g).checks "dangling_action" id ∨
            ∃ target, first? g.edges id .actionResult = some target ∧ g.Doomed target) ∧
        ∀ c ∈ ws, c.severity = .warn ∧
          (c.name = "dangling_action" ∨ c.name = "dropped_condition") ∧ ∃ id, c.node = some id := by
  have matched : ∀ e ∈ g.edges, g.Matched e := fun e member => (run.sound.fits e member).ends
  have h : g.Entered := run.sound.entered
  have fails : Check.anyFailure (Inspection.ofGraph g).checks = true ↔
      first? g.edges g.entryId .initialTarget = none := by
    rw [Inspection.anyFailure_checks, Graph.first?_eq_none_iff]
    exact or_iff_right (not_not_intro run.sound.violations_eq_nil)
  refine ⟨fun reason => ?_, fun d ws compiled => ?_⟩
  · rw [Graph.compile_eq_empty_iff h matched, fails]
  · obtain ⟨r, -, -, rfl⟩ := compile_eq_compiled.mp compiled
    exact ⟨fun id => Graph.warns_dropped h matched, fun id => Graph.warns_danglingAction h matched,
      fun c member => Graph.of_mem_warnings h matched member⟩

/-- A dialogue that begins at a given node.  The action `leave` leads to the conditional `rich`, one
branch of which leads to the conditional `known`, which has no branches. -/
def Graph.chained (first : String) : Graph :=
  Graph.empty.after (.countingFrom 0) [
    .createNode (.str "result") .omitted (.str "hello"),
    .createNode (.str "action") .omitted (.str "leave"),
    .createNode (.str "conditional") .omitted (.str "rich"),
    .createNode (.str "conditional") .omitted (.str "known"),
    .connect "hello" "result_actions" "leave" "action_owner",
    .connect "leave" "action_result" "rich" "node_trigger",
    .connect "rich" "condition_true" "known" "node_trigger",
    .connect "rich" "condition_false" "hello" "node_trigger",
    .connect Node.entryId "initial_target" first "node_trigger"]

theorem Graph.chained_reached {first : String} (known : first ∈ ["hello", "rich"]) :
    (chained first).Reached := by
  apply Reached.after .refl
  simp only [List.mem_cons, List.not_mem_nil, or_false] at known
  rcases known with rfl | rfl
  all_goals
    refine ⟨trivial, ?_, trivial, ?_, trivial, ?_, trivial, ?_, trivial, ?_, trivial, ?_, trivial,
      ?_, trivial, ?_, trivial, ?_, trivial⟩ <;> decide

/-- The dialogue that begins at `hello` has a document, from which two conditionals are missing. -/
theorem inspection_foresees_of_chained :
    let g := Graph.chained "hello"
    let checks := (Inspection.ofGraph g).checks
    g.Reached ∧
      (∃ d ws, compile g.nodes g.edges "guide" none = .compiled d ws ∧
        droppedIds ws = ["rich", "known"]) ∧
      (∀ reason, compile g.nodes g.edges "guide" none = .empty reason ↔
        Check.anyFailure checks = true ∧ reason = .notConnected ∨
          ∃ target, first? g.edges g.entryId .initialTarget = some target ∧ g.Doomed target ∧
            reason = .unusable target) ∧
      ∀ d ws, compile g.nodes g.edges "guide" none = .compiled d ws →
        (∀ id, Check.Warns ws "dropped_condition" id ↔ g.Doomed id) ∧
        (∀ id, Check.Warns ws "dangling_action" id ↔
          Check.Warns checks "dangling_action" id ∨
            ∃ target, first? g.edges id .actionResult = some target ∧ g.Doomed target) ∧
        ∀ c ∈ ws, c.severity = .warn ∧
          (c.name = "dangling_action" ∨ c.name = "dropped_condition") ∧
            ∃ id, c.node = some id := by
  intro g checks
  have run : g.Reached := Graph.chained_reached (by decide)
  exact ⟨run, ⟨_, _, rfl, by decide +kernel⟩, inspection_foresees run "guide" none⟩

/-- The conditional `rich` is dropped, and nothing is left for `leave` to lead to.  If the dialogue
begins at `hello`, the compiler warns about both, and if it begins at `rich`, there is no document;
but the inspection warns about neither of them, and it does not fail. -/
theorem inspection_overlooks :
    let g := Graph.chained "hello"
    let lost := Graph.chained "rich"
    let d : Document := {
      npc := "guide"
      actions := [{ id := "leave" }]
      results := [{ id := "hello", actions := ["leave"] }]
      initial := ⟨"hello", .result⟩ }
    let ws := [
      Check.warning "dangling_action" "Action 'leave' leads to unusable node 'rich'" "leave",
      Check.warning "dropped_condition"
        "Condition 'rich' was left out: 'condition_true' leads to dropped condition 'known'" "rich",
      Check.warning "dropped_condition"
        "Condition 'known' was left out: 'condition_true' is not connected" "known"]
    (g.Reached ∧ compile g.nodes g.edges "guide" none = .compiled d ws ∧
      ∀ id ∈ ["leave", "rich"],
        ¬ Check.Warns (Inspection.ofGraph g).checks "dangling_action" id ∧
          ¬ Check.Warns (Inspection.ofGraph g).checks "unwired_conditional" id) ∧
      lost.Reached ∧
        compile lost.nodes lost.edges "guide" none = .empty (.unusable "rich") ∧
        Check.anyFailure (Inspection.ofGraph lost).checks = false := by
  intro g lost d ws
  refine ⟨⟨Graph.chained_reached (by decide), by decide +kernel, ?_⟩,
    Graph.chained_reached (by decide), by decide +kernel, ?_⟩
  · simp only [Inspection.warns_dangling, Inspection.warns_unwired]
    decide +kernel
  · rw [Bool.eq_false_iff, Ne, Inspection.anyFailure_checks]
    decide +kernel

end Parley
