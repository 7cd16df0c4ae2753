import Parley.Proofs.Document.Former
import Parley.Proofs.Document.Migrated
import Parley.Proofs.Document.Outgoing
import Parley.Proofs.Document.Reload

/-!
# Graphs migrated from the first version

A graph in the form of the first version is migrated to the document that it is compiled into.  The
entry and its edge are taken out and put in again; the edge then stands in front of the others,
which makes no difference to the compiler.
-/

namespace Parley

namespace Graph

open Compile

variable {g : Graph}

/-- The node that the entry leads to. -/
def start? (g : Graph) : Option String :=
  (g.nodes.find? Node.isEntry).bind fun entry => Compile.first? g.edges entry.id .initialTarget

/-- The nodes and edges of a graph in the form of the first version, which has no entry: the node
that it leads to is marked instead. -/
def creatorData (g : Graph) : Fields :=
  [("nodes", .arr ((g.nodes.filter (!·.isEntry)).map fun n =>
      Former.node (g.start? == some n.id) n)),
    ("edges", .arr ((g.edges.filter (·.source != Node.entryId)).map Former.edge))]

/-- The document of the first version that stands for a graph. -/
def former (g : Graph) (npc : String) : Fields :=
  [("npc", .str npc), ("creator_data", .obj g.creatorData)]

theorem Rooted.find?_isEntry (rooted : g.Rooted) :
    g.nodes.find? Node.isEntry = some Node.entry := by
  obtain ⟨others, front, -⟩ := rooted.front
  rw [front]
  rfl

/-- The edge that leaves the entry leads where the entry leads. -/
theorem Rooted.leaving_eq (rooted : g.Rooted) :
    g.edges.filter (·.source == Node.entryId) = g.start?.toList.map Edge.start := by
  obtain ⟨target, leaving⟩ := rooted.leaving
  have led : g.start? = target := by
    rw [start?, rooted.find?_isEntry, Option.bind_some]
    have first : first? g.edges Node.entryId .initialTarget = target := by
      rw [first?_eq_find?, leaving]
      cases target <;> rfl
    exact first
  rw [leaving, led]

/-- The node that the entry leads to is there, and it is no entry. -/
theorem exists_of_start? (regular : g.Regular) (arranged : g.Arranged) {t : String}
    (led : g.start? = some t) : ∃ n ∈ g.nodes.filter (!·.isEntry), n.id = t := by
  obtain ⟨entry, found, -⟩ := Option.bind_eq_some_iff.mp led
  rcases arranged.entry with none | rooted
  · have isEntry : entry.isEntry = true := List.find?_some found
    exact absurd isEntry (by simp [none entry (List.mem_of_find?_eq_some found)])
  · have leaving : Edge.start t ∈ g.edges.filter (·.source == Node.entryId) := by
      simp [rooted.leaving_eq, led]
    have member := (List.mem_filter.mp leaving).1
    obtain ⟨n, there, named⟩ := mem_ids.mp (arranged.known _ member)
    refine ⟨n, List.mem_filter.mpr ⟨there, ?_⟩, named⟩
    cases isEntry : n.isEntry with
    | false => rfl
    | true =>
        have loop : t = Node.entryId := named.symm.trans (regular.entry n there isEntry)
        exact absurd loop.symm (arranged.loopless _ member)

/-- An edge of the entry that is put in front still leaves the entry, and the others are not
mixed. -/
theorem filter_front {edges : List Edge} (id : String) :
    (edges.filter (·.source == Node.entryId) ++ edges.filter (·.source != Node.entryId)).filter
      (·.source == id) = edges.filter (·.source == id) := by
  rw [List.filter_append, List.filter_filter, List.filter_filter]
  by_cases here : id = Node.entryId
  · subst here
    simp
  · have apart (e : Edge) : (e.source == id && e.source == Node.entryId) = false := by
      by_cases same : e.source = id <;> simp [same, here]
    have within (e : Edge) : (e.source == id && e.source != Node.entryId) = (e.source == id) := by
      by_cases same : e.source = id <;> simp [same, here]
    simp [apart, within]

/-- The nodes of a graph behind a new entry, and its edges with the one that leaves the entry in
front, are compiled as the graph is; only a graph without an entry gets one that leads nowhere. -/
theorem compile_former (arranged : g.Arranged) (npc : String) :
    compile (Node.entry :: g.nodes.filter (!·.isEntry))
      (g.start?.toList.map Edge.start ++ g.edges.filter (·.source != Node.entryId)) npc none =
        match compile g.nodes g.edges npc none with
        | .empty .noEntry => .empty .notConnected
        | outcome => outcome := by
  rcases arranged.entry with free | rooted
  -- Without an entry no node is marked, and no edge leaves the new one.
  · have missing : g.nodes.find? Node.isEntry = none := by simpa using free
    have nowhere : g.start? = none := by
      rw [start?, missing]
      rfl
    have unconnected : first? (g.edges.filter (·.source != Node.entryId)) Node.entryId
        .initialTarget = none := by
      rw [first?_eq_find?, List.filter_filter]
      simp
    rw [compile_eq_empty.mpr (.inl ⟨missing, rfl⟩), nowhere]
    exact compile_eq_empty.mpr (.inr ⟨Node.entry, rfl, .inl ⟨unconnected, rfl⟩⟩)
  -- The entry comes back to its place in front of the nodes, its edge to the front of the edges.
  · obtain ⟨others, front, free⟩ := rooted.front
    have nodes : Node.entry :: g.nodes.filter (!·.isEntry) = g.nodes := by
      rw [front, List.filter_cons_of_neg (by decide), List.filter_eq_self.mpr (by simpa using free)]
    rw [nodes, ← rooted.leaving_eq, compile_congr filter_front]
    split
    next none => simp [compile_eq_empty, rooted.find?_isEntry] at none
    next => rfl

/-- The nodes of a graph are read back behind a new entry, and its edges behind the one that leaves
the entry. -/
theorem editorGraph_creatorData (regular : g.Regular) (arranged : g.Arranged)
    (chosen : ∀ n ∈ g.nodes, n.payload.preferred? ≠ some "") :
    Migration.editorGraph g.creatorData = .ok (Node.entry :: g.nodes.filter (!·.isEntry),
      g.start?.toList.map Edge.start ++ g.edges.filter (·.source != Node.entryId)) := by
  apply Former.editorGraph_former
  · intro n member flag
    obtain ⟨member, free⟩ := List.mem_filter.mp member
    exact Former.node_read flag (by simpa using free) (regular.named n member)
      (arranged.placed n member) (chosen n member)
  · intro e member
    exact Former.edge_read (regular.ported e (List.mem_filter.mp member).1)
  · intro t led
    exact exists_of_start? regular arranged led

/-- A graph in the form of the first version is upgraded to its own document. -/
theorem upgrade_former (regular : g.Regular) (arranged : g.Arranged)
    (chosen : ∀ n ∈ g.nodes, n.payload.preferred? ≠ some "") (npc : String) :
    Migration.upgrade (g.former npc) = match compile g.nodes g.edges npc none with
      | .compiled d _ => .ok d.fields
      | .empty .noEntry => .error (.format (.emptyGraph .notConnected))
      | .empty reason => .error (.format (.emptyGraph reason)) := by
  have read := editorGraph_creatorData regular arranged chosen
  have placed : ∀ n ∈ Node.entry :: g.nodes.filter (!·.isEntry), ∃ p, n.position = .point p := by
    intro n member
    rcases List.mem_cons.mp member with rfl | member
    · exact ⟨{}, rfl⟩
    · exact arranged.placed n (List.mem_filter.mp member).1
  have spoken : Migration.orElse ((g.former npc).get? "npc") (.str "") = .str npc := by
    by_cases empty : npc = ""
    · subst empty
      rfl
    · simp [former, Migration.orElse, Json.isVoid, empty]
  have graph : Migration.upgrade (g.former npc) = Migration.ofEditorGraph (g.former npc) := rfl
  have bare : Migration.placed? (g.former npc) = .ok none := rfl
  rw [graph, Migration.ofEditorGraph_of_drawn ⟨_, rfl, read⟩, bare]
  simp only [bind, Except.bind, Migration.compiled?]
  rw [spoken, compileUnread_str placed, compile_former arranged npc]
  cases compile g.nodes g.edges npc none with
  | compiled d ws => rfl
  | empty reason => cases reason <;> rfl

end Graph

/-- A graph that any edits lead to is migrated from the form of the first version to the document
that it is compiled into.  If it has no document, the reason is given; a graph whose entry was
overwritten gets a new one, which is not connected. -/
theorem migrate_former {g : Graph} (steps : Relation.ReflTransGen Graph.Step Graph.empty g)
    (chosen : ∀ n ∈ g.nodes, n.payload.preferred? ≠ some "") (npc : String) :
    migrate (.obj (g.former npc)) = match compile g.nodes g.edges npc none with
      | .compiled d _ => .ok (d.fields, 0)
      | .empty .noEntry => .error (.format (.emptyGraph .notConnected))
      | .empty reason => .error (.format (.emptyGraph reason)) := by
  have regular := Graph.Regular.empty.run steps
  have upgraded := Graph.upgrade_former regular (Graph.Arranged.empty.run steps) chosen npc
  cases outcome : compile g.nodes g.edges npc none with
  | compiled d ws =>
      rw [outcome] at upgraded
      have begins := (compiled_canonical regular outcome).begins
      exact Migration.migrate_eq_ok.mpr ⟨_, _, rfl, rfl, upgraded, d.hasList_actions,
        d.hasList_results, d.resolveEntry_fields begins⟩
  | empty reason =>
      rw [outcome] at upgraded
      rw [Migration.migrate_obj, upgraded]
      cases reason <;> rfl

/-- A result that prefers the second of its actions and closes the dialogue, and an action that
leads back to it: the entry is found by the flag on the result. -/
theorem migrate_former_of_preferred :
    let edits : List Edit := [
      .createNode (.str "result") .omitted (.str "hello"),
      .createNode (.str "action") .omitted (.str "ask"),
      .createNode (.str "action") .omitted (.str "leave"),
      .connect "hello" "result_actions" "ask" "action_owner",
      .connect "hello" "result_actions" "leave" "action_owner",
      .connect "ask" "action_result" "hello" "node_trigger",
      .connect Node.entryId "initial_target" "hello" "node_trigger",
      .updateData "hello" [("preferred", .str "leave"), ("close", .obj [("delay", .int 5)])]]
    let g := Graph.empty.after (.countingFrom 0) edits
    let d : Document := {
      npc := "guide"
      actions := [{ id := "ask", target := some ⟨"hello", .result⟩ }, { id := "leave" }]
      results := [{
        id := "hello"
        preferred := some "leave"
        actions := ["leave", "ask"]
        close := { delay := 5 } }]
      initial := ⟨"hello", .result⟩ }
    let ws := [Check.warning "dangling_action" "Action 'leave' has no result" "leave"]
    Relation.ReflTransGen Graph.Step Graph.empty g ∧
      (∀ n ∈ g.nodes, n.payload.preferred? ≠ some "") ∧
      compile g.nodes g.edges "guide" none = .compiled d ws ∧
      migrate (.obj (g.former "guide")) = .ok (d.fields, 0) := by
  intro edits g d ws
  have new : Graph.empty.RunsNew (.countingFrom 0) edits := by
    refine ⟨trivial, ?_, trivial, ?_, trivial, ?_, trivial, ?_, trivial, ?_, trivial, ?_, trivial,
      ?_, trivial, ?_, trivial⟩ <;> decide
  have run := (Graph.Reached.after .refl new).steps
  have chosen : ∀ n ∈ g.nodes, n.payload.preferred? ≠ some "" := by decide
  have compiled : compile g.nodes g.edges "guide" none = .compiled d ws := by decide +kernel
  refine ⟨run, chosen, compiled, ?_⟩
  rw [migrate_former run chosen "guide", compiled]

end Parley
