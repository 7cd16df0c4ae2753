import Parley.Proofs.Document.Outgoing
import Parley.Proofs.Document.Rows

/-!
# Compiling never fails

A row is made of a conditional that is kept only where both of its branches are references.
`compileStrictly` insists on that: it makes one row after the other and fails at the first node that
has no point and at the first conditional that is kept without a reference.  The second kind of
failure never occurs, whatever nodes and edges there are, also where nodes of different kinds have
one id: conditionals are surveyed by id, and the survey and the references look at the same node,
the last one with an id.  So `compileStrictly` comes to what `compileUnread` comes to, and nodes
with points always compile.

There is a document exactly if the first entry leads to a result or to a conditional that can be
exported.  Entries behind the first one begin nothing.
-/

namespace Parley

open Compile

/-- How compiling could fail. -/
inductive CompileFault where
  /-- A row or the document does not take a value. -/
  | invalid (e : Invalid)
  /-- A branch of a conditional that is kept leads to nothing that can be referred to. -/
  | unresolved (id : String)

namespace Compile

/-- The rows of the nodes that have one, made one after the other.  A row takes the place of its
node, which has to be a point. -/
def makeRows {α : Type} (name : String) (row : Node → Except CompileFault (Option α))
    (nodes : List Node) : Except CompileFault (List α) :=
  nodes.filterMapM fun n => do
    match ← row n with
    | none => pure none
    | some r =>
      match placeFault? name n with
      | some e => .error (.invalid e)
      | none => pure (some r)

/-- The row of a node, if it is a conditional that was not dropped.  Then both of its branches have
to be references. -/
def strictRow (nodes : List Node) (edges : List Edge) (s : Survey) (n : Node) :
    Except CompileFault (Option ConditionRow) :=
  match n.payload with
  | .conditional d =>
    if (s.dropped.lookup n.id).isSome then .ok none
    else
      match conditionRow? nodes edges s.kept n d with
      | some r => .ok (some r)
      | none => .error (.unresolved n.id)
  | _ => .ok none

end Compile

/-- Compiles nodes and edges for a character whose id is any value, and fails where a row or the
document cannot be made. -/
def compileStrictly (nodes : List Node) (edges : List Edge) (npc : Json)
    (interaction : Option Interaction) : Except CompileFault Outcome :=
  let s := Survey.ofGraph nodes edges
  match initial nodes edges s.kept with
  | .error reason => .ok (.empty reason)
  | .ok initial => do
    let actions ← makeRows "ActionRow" (fun n => .ok (actionRow? nodes edges s.kept n)) nodes
    let results ← makeRows "ResultRow" (fun n => .ok (resultRow? nodes edges n)) nodes
    let conditions ← makeRows "ConditionRow" (strictRow nodes edges s) nodes
    let npc ← (((Checked.text npc).under (.name "npc")).titled Document.title).mapError .invalid
    pure (.compiled { npc, interaction, actions, results, conditions, initial }
      (warnings nodes edges s))

namespace Compile

variable {nodes : List Node} {edges : List Edge} {kept : List String} {id : String}

/-- Where a row can be made of each node that should have one, only the place of such a node is a
reason to fail. -/
theorem makeRows_eq {α : Type} {name : String} {row : Node → Except CompileFault (Option α)}
    {made : Node → Option α} (rows : ∀ n ∈ nodes, row n = .ok (made n)) :
    makeRows name row nodes =
      match (nodes.filter fun n => (made n).isSome).findSome? (placeFault? name) with
      | some e => .error (.invalid e)
      | none => .ok (nodes.filterMap made) := by
  induction nodes with
  | nil => rfl
  | cons n rest ih =>
      have ih := ih fun m member => rows m (List.mem_cons_of_mem _ member)
      rw [makeRows] at ih
      rw [makeRows, List.filterMapM_cons, rows n List.mem_cons_self, ih]
      cases here : made n with
      | none => simp [here, bind, Except.bind, pure, Except.pure]
      | some r =>
          cases fault : placeFault? name n with
          | some e => simp [here, fault, bind, Except.bind]
          | none =>
              cases later : (rest.filter fun n => (made n).isSome).findSome? (placeFault? name) <;>
                simp [here, fault, later, bind, Except.bind, pure, Except.pure]

section Conditionals

variable (edges) {n : Node} (member : n ∈ nodes)

include member

/-- Both branches of a conditional that was not dropped are references. -/
theorem strictRow_eq : strictRow nodes edges (Survey.ofGraph nodes edges) n =
    .ok (keptRow? nodes edges (Survey.ofGraph nodes edges) n) := by
  rw [strictRow, keptRow?]
  cases data : n.payload with
  | conditional d =>
      have dropped := dropped_isSome edges member (Node.kind_eq_conditional.mpr ⟨d, data⟩)
      by_cases kept : n.id ∈ (Survey.ofGraph nodes edges).kept
      · have stays := mt dropped.mp (not_not_intro kept)
        obtain ⟨r, made⟩ := Option.isSome_iff_exists.mp
          (conditionRow?_isSome (Survey.ofGraph_closed nodes edges) kept d)
        simp only [stays, made, Bool.false_eq_true, if_false]
      · simp only [dropped.mpr kept, if_true]
  | _ => rfl

/-- The conditionals that have rows are those that were not dropped. -/
theorem keptRow?_isSome_eq : (keptRow? nodes edges (Survey.ofGraph nodes edges) n).isSome =
    (n.isConditional && ((Survey.ofGraph nodes edges).dropped.lookup n.id).isNone) := by
  rw [Bool.eq_iff_iff, keptRow?_isSome edges member, Node.isConditional, Bool.and_eq_true,
    beq_iff_eq, ← Option.not_isSome, Bool.not_eq_true']
  refine and_congr_right fun kind => ?_
  rw [← Bool.not_eq_true, dropped_isSome edges member kind, not_not]

end Conditionals

/-- Insisting on the branches of conditionals makes no difference: compiling fails only for places
that are no points and for an id of the character that is no text. -/
theorem compileStrictly_eq (nodes : List Node) (edges : List Edge) (npc : Json)
    (interaction : Option Interaction) : compileStrictly nodes edges npc interaction =
      (compileUnread nodes edges npc interaction).mapError .invalid := by
  let s := Survey.ofGraph nodes edges
  have actions : nodes.filter (fun n => (actionRow? nodes edges s.kept n).isSome) =
      nodes.filter Node.isAction := by
    refine List.filter_congr fun n _ => ?_
    rw [actionRow?, Node.isAction, Node.kind]
    cases n.payload <;> rfl
  have results : nodes.filter (fun n => (resultRow? nodes edges n).isSome) =
      nodes.filter Node.isResult := by
    refine List.filter_congr fun n _ => ?_
    rw [resultRow?, Node.isResult, Node.kind]
    cases n.payload <;> rfl
  have conditions : nodes.filter (fun n => (keptRow? nodes edges s n).isSome) =
      nodes.filter fun n => n.isConditional && (s.dropped.lookup n.id).isNone :=
    List.filter_congr fun n member => keptRow?_isSome_eq edges member
  rw [compileStrictly, compileUnread, compile]
  cases initial nodes edges s.kept with
  | error reason => rfl
  | ok r =>
      dsimp only
      rw [makeRows_eq fun n _ => rfl, makeRows_eq fun n _ => rfl,
        makeRows_eq fun n member => strictRow_eq edges member, actions, results, conditions,
        misplaced?]
      cases (nodes.filter Node.isAction).findSome? (placeFault? "ActionRow") with
      | some e => rfl
      | none =>
          cases (nodes.filter Node.isResult).findSome? (placeFault? "ResultRow") with
          | some e => rfl
          | none =>
              cases (nodes.filter fun n => n.isConditional &&
                  (s.dropped.lookup n.id).isNone).findSome? (placeFault? "ConditionRow") with
              | some e => rfl
              | none =>
                  cases ((Checked.text npc).under (.name "npc")).titled Document.title <;> rfl

/-- Whether a conditional is one of some whose branches lead, by the last node with an id, to a
result or to one of them. -/
def Exportable (nodes : List Node) (edges : List Edge) (id : String) : Prop :=
  ∃ safe ⊆ conditionals nodes, id ∈ safe ∧
    ∀ x ∈ safe, ∀ port ∈ Port.outputs .conditional, ∃ target, first? edges x port = some target ∧
      (kind? nodes target = some .result ∨
        kind? nodes target = some .conditional ∧ target ∈ safe)

/-- Whether the dialogue has a beginning: the first entry leads to a result or to a conditional that
can be exported. -/
def Begins (nodes : List Node) (edges : List Edge) : Prop :=
  ∃ entry target, nodes.find? Node.isEntry = some entry ∧
    first? edges entry.id .initialTarget = some target ∧
    (kind? nodes target = some .result ∨
      kind? nodes target = some .conditional ∧ Exportable nodes edges target)

/-- The conditionals that are kept are those that can be exported. -/
theorem mem_kept_iff_exportable :
    id ∈ (Survey.ofGraph nodes edges).kept ↔ Exportable nodes edges id := by
  have fair := Survey.ofGraph_fair nodes edges
  have exportable : Exportable nodes edges id ↔
      ∃ safe ⊆ conditionals nodes, id ∈ safe ∧ Closed nodes edges safe := by
    simp only [Exportable, closed_iff, exists_ref?_iff]
  rw [exportable]
  constructor
  · exact fun stays => ⟨_, fair.listed, stays, Survey.ofGraph_closed nodes edges⟩
  · rintro ⟨safe, inside, member, closed⟩
    exact fair.greatest safe inside closed member

theorem exists_compiled_iff (npc : String) (interaction : Option Interaction) :
    (∃ d ws, compile nodes edges npc interaction = .compiled d ws) ↔ Begins nodes edges := by
  have begun : (∃ d ws, compile nodes edges npc interaction = .compiled d ws) ↔
      ∃ r, initial nodes edges (Survey.ofGraph nodes edges).kept = .ok r := by
    simp [compile_eq_compiled]
  simp only [begun, initial_eq_ok, Begins, ← mem_kept_iff_exportable]
  constructor
  · rintro ⟨r, entry, found, made⟩
    obtain ⟨target, led, kind⟩ := exists_ref?_iff.mp ⟨r, made⟩
    exact ⟨entry, target, found, led, kind⟩
  · rintro ⟨entry, target, found, led, kind⟩
    obtain ⟨r, made⟩ := exists_ref?_iff.mpr ⟨target, led, kind⟩
    exact ⟨r, entry, found, made⟩

end Compile

/-- Nodes with points compile, whatever ids they have, whatever the edges are and whoever the
character is: nothing fails, and both branches of each conditional that is kept are references.
There is a document exactly if the first entry leads, by its first edge, to a result or to a
conditional that can be exported; otherwise the graph is empty. -/
theorem compile_unfailing {nodes : List Node} (points : ∀ n ∈ nodes, ∃ p, n.position = .point p)
    (edges : List Edge) (npc : String) (interaction : Option Interaction) :
    compileStrictly nodes edges (.str npc) interaction =
      .ok (compile nodes edges npc interaction) ∧
    ((∃ d ws, compile nodes edges npc interaction = .compiled d ws) ↔ Begins nodes edges) ∧
    ((∃ reason, compile nodes edges npc interaction = .empty reason) ↔ ¬ Begins nodes edges) := by
  refine ⟨?_, exists_compiled_iff npc interaction, ?_⟩
  · rw [compileStrictly_eq, compileUnread_str points]
    rfl
  · rw [← exists_compiled_iff npc interaction]
    cases compile nodes edges npc interaction <;> simp

/-- Here a result and a conditional share each of two ids.  By the last node with an id, the entry
and the conditional `known` lead to a result, and the conditional `rich` leads to a conditional. -/
theorem compile_unfailing_of_shared_ids :
    let nodes : List Node := [.entry, { id := "rich", payload := .ofKind .conditional },
      { id := "known", payload := .ofKind .result },
      { id := "known", payload := .ofKind .conditional },
      { id := "rich", payload := .ofKind .result }]
    let edges : List Edge := [.join Node.entryId .initialTarget "rich" .nodeTrigger,
      .join "rich" .conditionTrue "known" .nodeTrigger,
      .join "rich" .conditionFalse "rich" .nodeTrigger,
      .join "known" .conditionTrue "rich" .nodeTrigger,
      .join "known" .conditionFalse "known" .nodeTrigger]
    (∀ n ∈ nodes, ∃ p, n.position = .point p) ∧
      (Survey.ofGraph nodes edges).kept = ["rich", "known"] ∧
      compileStrictly nodes edges (.str "guide") none = .ok (compile nodes edges "guide" none) ∧
      (∃ d ws, compile nodes edges "guide" none = .compiled d ws) ∧ Begins nodes edges := by
  intro nodes edges
  have points : ∀ n ∈ nodes, ∃ p, n.position = .point p := by
    simp only [nodes, List.forall_mem_cons]
    exact ⟨⟨_, rfl⟩, ⟨_, rfl⟩, ⟨_, rfl⟩, ⟨_, rfl⟩, ⟨_, rfl⟩, by simp⟩
  obtain ⟨strict, compiled, -⟩ := compile_unfailing points edges "guide" none
  have document : ∃ d ws, compile nodes edges "guide" none = .compiled d ws := ⟨_, _, rfl⟩
  exact ⟨points, by decide +kernel, strict, document, compiled.mp document⟩

/-- A second entry leads to a result by its first edge, but the first one leads nowhere, and there
is no document. -/
theorem compile_second_entry :
    let nodes : List Node := [.entry, { id := "start", payload := .ofKind .entry },
      { id := "hello", payload := .ofKind .result }]
    let edges : List Edge := [.join "start" .initialTarget "hello" .nodeTrigger]
    (∀ n ∈ nodes, ∃ p, n.position = .point p) ∧
      (∃ n ∈ nodes, n.kind = .entry ∧ first? edges n.id .initialTarget = some "hello" ∧
        kind? nodes "hello" = some .result) ∧
      compile nodes edges "" none = .empty .notConnected := by
  intro nodes edges
  refine ⟨?_, ⟨{ id := "start", payload := .ofKind .entry }, by simp [nodes], rfl,
    by decide +kernel, by decide +kernel⟩, by decide +kernel⟩
  simp only [nodes, List.forall_mem_cons]
  exact ⟨⟨_, rfl⟩, ⟨_, rfl⟩, ⟨_, rfl⟩, by simp⟩

end Parley
