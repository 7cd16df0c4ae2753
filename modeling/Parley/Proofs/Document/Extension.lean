import Parley.Proofs.Document.Order
import Parley.Proofs.Document.Rows
import Parley.Proofs.Graph.Change

/-!
# What connecting leaves in a document

An edge is added behind all others, and where several edges leave a port the first one counts.  So
what a branch or an action leads to stays what it is.  A set of conditionals that is closed stays
closed, and more of them are kept; a result offers its actions in the old order, with a new one
somewhere among them.  A document that was compiled before an edge was added is therefore contained
in the one that is compiled after it.
-/

namespace Parley

/-- Whether all that the row of an action says is still said by another row. -/
def ActionRow.StaysIn (r r' : ActionRow) : Prop :=
  r' = { r with target := r'.target } ∧ ∀ t, r.target = some t → r'.target = some t

/-- Whether all that the row of a result says is still said by another row, which may offer more. -/
def ResultRow.StaysIn (r r' : ResultRow) : Prop :=
  r' = { r with actions := r'.actions } ∧ r.actions.Sublist r'.actions

/-- Whether all that a document says is still said by another one.  It begins alike and has the same
actions and results, in their order, and more conditions may lie among those that it has. -/
structure Document.StaysIn (d d' : Document) : Prop where
  initial : d'.initial = d.initial
  actions : List.Forall₂ ActionRow.StaysIn d.actions d'.actions
  results : List.Forall₂ ResultRow.StaysIn d.results d'.results
  conditions : d.conditions.Sublist d'.conditions

section Rows

variable {α β γ : Type} {l : List α}

/-- Where each item gives related results or none, so do all of them in order. -/
theorem forall₂_filterMap {R : β → γ → Prop} {f : α → Option β} {g : α → Option γ}
    (related : ∀ a ∈ l, Option.Rel R (f a) (g a)) :
    List.Forall₂ R (l.filterMap f) (l.filterMap g) := by
  induction l with
  | nil => exact .nil
  | cons a rest ih =>
      have ih := ih fun b member => related b (List.mem_cons_of_mem _ member)
      have here := related a List.mem_cons_self
      rw [List.filterMap_cons, List.filterMap_cons]
      generalize f a = x, g a = y at here
      cases here with
      | none => exact ih
      | some pair => exact .cons pair ih

/-- Where each result stays what it is, the results are among those that there are then. -/
theorem filterMap_sublist {f g : α → Option β} (stays : ∀ a ∈ l, ∀ b, f a = some b → g a = some b) :
    (l.filterMap f).Sublist (l.filterMap g) := by
  induction l with
  | nil => exact List.Sublist.refl _
  | cons a rest ih =>
      have ih := ih fun b member => stays b (List.mem_cons_of_mem _ member)
      rw [List.filterMap_cons, List.filterMap_cons]
      cases found : f a with
      | some b =>
          rw [stays a List.mem_cons_self b found]
          exact ih.cons_cons b
      | none =>
          cases g a with
          | none => exact ih
          | some b => exact ih.cons b

end Rows

namespace Compile

variable {nodes : List Node} {edges : List Edge} {kept larger : List String}
  {id source target : String} {port : Port} {r : Ref} (later : List Edge)

/-- The first edge stays the first one. -/
theorem first?_append (led : first? edges source port = some target) :
    first? (edges ++ later) source port = some target := by
  obtain ⟨e, found, rfl⟩ := Option.map_eq_some_iff.mp led
  simp [first?, found]

/-- A reference stays what it is when edges are added and more conditionals are kept. -/
theorem ref?_append (more : kept ⊆ larger)
    (made : ref? nodes kept (first? edges id port) = some r) :
    ref? nodes larger (first? (edges ++ later) id port) = some r := by
  obtain ⟨led, kind⟩ := ref?_eq_some.mp made
  refine ref?_eq_some.mpr ⟨first?_append later led, kind.imp_right ?_⟩
  rintro ⟨type, conditional, stays⟩
  exact ⟨type, conditional, more stays⟩

/-- A closed set stays closed when edges are added. -/
theorem Closed.append (closed : Closed nodes edges kept) :
    Closed nodes (edges ++ later) kept := by
  refine closed_iff.mpr fun id member port output => ?_
  obtain ⟨r, made⟩ := closed_iff.mp closed id member port output
  exact ⟨r, ref?_append later (List.Subset.refl _) made⟩

/-- What is kept is kept when edges are added. -/
theorem kept_append (nodes : List Node) (edges : List Edge) :
    (Survey.ofGraph nodes edges).kept ⊆ (Survey.ofGraph nodes (edges ++ later)).kept :=
  (Survey.ofGraph_fair nodes (edges ++ later)).greatest _
    (Survey.ofGraph_fair nodes edges).listed ((Survey.ofGraph_closed nodes edges).append later)

/-- What a result offers it still offers when edges are added, and the rest comes behind. -/
theorem offered_append (nodes : List Node) (edges : List Edge) (id : String) :
    (offered nodes edges id).Sublist (offered nodes (edges ++ later) id) := by
  rw [offered, offered, all, all, List.filter_append, List.map_append, List.filter_append,
    List.eraseDups_append]
  exact List.sublist_append_left _ _

/-- All that a compiled document says is still said when edges are added behind the others. -/
theorem staysIn_append {npc : String} {interaction : Option Interaction} {d : Document}
    {ws : List Check} (compiled : compile nodes edges npc interaction = .compiled d ws) :
    ∃ d' ws', compile nodes (edges ++ later) npc interaction = .compiled d' ws' ∧
      d.StaysIn d' := by
  have more := kept_append later nodes edges
  obtain ⟨initial, begins, rfl, -⟩ := compile_eq_compiled.mp compiled
  obtain ⟨entry, found, made⟩ := initial_eq_ok.mp begins
  have begins' := initial_eq_ok.mpr ⟨entry, found, ref?_append later more made⟩
  refine ⟨_, _, compile_eq_compiled.mpr ⟨initial, begins', rfl, rfl⟩, rfl, ?_, ?_, ?_⟩
  · show List.Forall₂ _ (actionRows ..) (actionRows ..)
    rw [actionRows_eq, actionRows_eq]
    refine forall₂_filterMap fun n _ => ?_
    rw [actionRow?, actionRow?]
    cases n.payload with
    | action data => exact .some ⟨rfl, fun t given => ref?_append later more given⟩
    | _ => exact .none
  · show List.Forall₂ _ (resultRows ..) (resultRows ..)
    rw [resultRows_eq, resultRows_eq]
    refine forall₂_filterMap fun n _ => ?_
    rw [resultRow?, resultRow?]
    cases n.payload with
    | result data =>
        exact .some ⟨rfl, orderActions_sublist (offered_append later nodes edges n.id) _ _⟩
    | _ => exact .none
  · show (conditionRows ..).Sublist (conditionRows ..)
    rw [conditionRows_eq, conditionRows_eq]
    refine filterMap_sublist fun n member r row => ?_
    obtain ⟨data, payload, stays, made⟩ := (keptRow?_eq_some member).mp row
    obtain ⟨onTrue, onFalse, madeTrue, madeFalse, rfl⟩ := conditionRow?_eq_some.mp made
    exact (keptRow?_eq_some member).mpr ⟨data, payload, more stays, conditionRow?_eq_some.mpr
      ⟨onTrue, onFalse, ref?_append later more madeTrue, ref?_append later more madeFalse, rfl⟩⟩

end Compile

namespace Graph

variable {g : Graph} {s : IdSupply} {source sourceHandle target targetHandle : String}

/-- Connecting adds edges behind the others: one, or none if it is refused or was done before. -/
theorem edit_connect_graph : ∃ later,
    (g.edit s (.connect source sourceHandle target targetHandle)).graph =
      { g with edges := g.edges ++ later } := by
  rw [edit]
  cases connected : g.connect source sourceHandle target targetHandle with
  | error failure => exact ⟨[], by simp [settled, Except.map]⟩
  | ok result =>
      obtain ⟨changed, e⟩ := result
      cases changed with
      | none => exact ⟨[], by simp [settled, Except.map]⟩
      | some g' =>
          obtain ⟨-, -, -, -, rfl⟩ := connect_eq_ok connected
          exact ⟨[e], rfl⟩

end Graph

/-- Connecting never loses what was exported.  If a graph compiles into a document, then after a
connection it compiles into one that has all of it: the same beginning, the same actions and results
with every target that they had and with the offered actions in their order, and every condition as
it was. -/
theorem connect_loses_nothing {g : Graph} {npc : String} {interaction : Option Interaction}
    {d : Document} {ws : List Check}
    (compiled : compile g.nodes g.edges npc interaction = .compiled d ws) (s : IdSupply)
    (source sourceHandle target targetHandle : String) :
    let g' := (g.edit s (.connect source sourceHandle target targetHandle)).graph
    ∃ d' ws', compile g'.nodes g'.edges npc interaction = .compiled d' ws' ∧ d.StaysIn d' := by
  intro g'
  obtain ⟨later, added⟩ : ∃ later, g' = { g with edges := g.edges ++ later } :=
    Graph.edit_connect_graph
  rw [added]
  exact Compile.staysIn_append later compiled

/-- The conditional `known` gets its second branch.  It can be exported then, and with it the
conditional `rich`, which leads to it, and the target of the action `leave`. -/
theorem connect_loses_nothing_of_branch :
    let g := Graph.empty.after (.countingFrom 0) [
      .createNode (.str "result") .omitted (.str "hello"),
      .createNode (.str "action") .omitted (.str "leave"),
      .createNode (.str "conditional") .omitted (.str "rich"),
      .createNode (.str "conditional") .omitted (.str "known"),
      .connect Node.entryId "initial_target" "hello" "node_trigger",
      .connect "hello" "result_actions" "leave" "action_owner",
      .connect "leave" "action_result" "rich" "node_trigger",
      .connect "rich" "condition_true" "known" "node_trigger",
      .connect "rich" "condition_false" "hello" "node_trigger",
      .connect "known" "condition_true" "hello" "node_trigger"]
    let g' := (g.edit (.countingFrom 0)
      (.connect "known" "condition_false" "hello" "node_trigger")).graph
    let hello : Ref := ⟨"hello", .result⟩
    let d : Document := {
      npc := "guide"
      actions := [{ id := "leave" }]
      results := [{ id := "hello", actions := ["leave"] }]
      initial := hello }
    let d' : Document := { d with
      actions := [{ id := "leave", target := some ⟨"rich", .condition⟩ }]
      conditions := [{ id := "rich", onTrue := ⟨"known", .condition⟩, onFalse := hello },
        { id := "known", onTrue := hello, onFalse := hello }] }
    let ws := [
      Check.warning "dangling_action" "Action 'leave' leads to unusable node 'rich'" "leave",
      Check.warning "dropped_condition"
        "Condition 'rich' was left out: 'condition_true' leads to dropped condition 'known'" "rich",
      Check.warning "dropped_condition"
        "Condition 'known' was left out: 'condition_false' is not connected" "known"]
    compile g.nodes g.edges "guide" none = .compiled d ws ∧
      compile g'.nodes g'.edges "guide" none = .compiled d' [] ∧ d.StaysIn d' := by
  intro g g' hello d d' ws
  have before : compile g.nodes g.edges "guide" none = .compiled d ws := by decide +kernel
  have after : compile g'.nodes g'.edges "guide" none = .compiled d' [] := by decide +kernel
  obtain ⟨d'', ws', result, stays⟩ := connect_loses_nothing before (.countingFrom 0)
    "known" "condition_false" "hello" "node_trigger"
  obtain ⟨rfl, -⟩ := Outcome.compiled.inj (after.symm.trans result)
  exact ⟨before, after, stays⟩

end Parley
