import Parley.Proofs.Document.Compiled
import Parley.Proofs.Document.Foresight
import Parley.Proofs.Document.Ranking
import Parley.Proofs.Graph.Assured

/-!
# The preferred action in a compiled document

The editor and the compiler each have a notion of what a result offers.  The editor takes the
targets of all edges on the port for actions; the compiler takes those of them that are actions.  In
a graph that is reached by editing these are the same, so the preferred action that the editor sets
is put in front by the compiler, whatever order is stored with the result.
-/

namespace Parley

namespace Graph

variable {g : Graph} {n : Node} {d : ResultData} {id : String}

/-- Asking for a preferred action sets it and nothing else. -/
theorem edit_syncPreferred (distinct : g.ids.Nodup) (found : g.node? id = some n)
    (result : n.payload = .result d) (s : IdSupply) :
    let choice := preferredAmong (g.connectedActions id) d.preferred
    g.edit s (.syncPreferred id) =
      ⟨g.put { n with payload := .result { d with preferred := choice } }, s,
        decide (choice ≠ d.preferred), .ok (.choice choice)⟩ := by
  intro choice
  rw [edit, syncPreferred_of found result]
  by_cases stays : choice = d.preferred
  · have same : { n with payload := .result { d with preferred := choice } } = n := by
      rw [stays, ← result]
    rw [if_pos stays, same, put_eq_self distinct (node?_mem found)]
    simp [settled, Except.map, choice, stays]
  · rw [if_neg stays]
    simp [settled, Except.map, stays, choice]

/-- What the compiler takes for the actions of a result is what the editor takes for them. -/
theorem offered_eq_connectedActions (distinct : g.ids.Nodup)
    (matched : ∀ e ∈ g.edges, g.Matched e) (id : String) :
    Compile.offered g.nodes g.edges id = g.connectedActions id := by
  have actions : (Compile.all g.edges id .resultActions).filter (Compile.leadsToAction g.nodes) =
      Compile.all g.edges id .resultActions :=
    List.filter_eq_self.mpr fun _ offers => leadsToAction_of_all matched distinct offers
  have same : Compile.all g.edges id .resultActions =
      (g.edgesFrom id (some Port.resultActions.name)).map (·.target) := by
    simp [Compile.all, edgesFrom, Bool.beq_comm]
  rw [Compile.offered, actions, same, connectedActions]

end Graph

namespace Compile

/-- A result has one row, which is made of its data. -/
theorem filter_resultRows {nodes : List Node} (distinct : (nodes.map (·.id)).Nodup)
    (edges : List Edge) {n : Node} {d : ResultData} (member : n ∈ nodes)
    (result : n.payload = .result d) :
    (resultRows nodes edges).filter (·.id == n.id) = [resultRow nodes edges n d] := by
  have ids : ((resultRows nodes edges).map (·.id)).Nodup :=
    resultRows_ids nodes edges ▸ nodup_filter_ids distinct Node.isResult
  have there : resultRow nodes edges n d ∈ resultRows nodes edges :=
    mem_resultRows.mpr ⟨n, member, d, result, rfl⟩
  refine List.perm_singleton.mp ((List.perm_ext_iff_of_nodup ?_ (List.nodup_singleton _)).mpr ?_)
  · exact ids.of_map.filter _
  · intro row
    rw [List.mem_filter, List.mem_singleton, beq_iff_eq]
    constructor
    · rintro ⟨row, named⟩
      exact List.inj_on_of_nodup_map ids row there named
    · rintro rfl
      exact ⟨there, rfl⟩

end Compile

open Compile

/-- A preferred action that is offered leads the row of its result, which moves what is offered. -/
theorem Graph.Sound.row_leads {g : Graph} {n : Node} {d : ResultData} {id p : String}
    (h : g.Sound) (found : g.node? id = some n) (result : n.payload = .result d)
    (preferred : d.preferred = some p) (there : p ∈ g.connectedActions id) :
    ∃ row, (resultRows g.nodes g.edges).filter (·.id == id) = [row] ∧ row.preferred = some p ∧
      row.actions.head? = some p ∧ row.actions.Perm (g.connectedActions id) := by
  obtain rfl : n.id = id := node?_id found
  have actions : (resultRow g.nodes g.edges n d).actions =
      orderActions (g.connectedActions n.id) (some p) d.order := by
    rw [resultRow, preferred,
      offered_eq_connectedActions h.distinct fun e member => (h.fits e member).ends]
  refine ⟨resultRow g.nodes g.edges n d, filter_resultRows h.distinct _ (node?_mem found) result,
    preferred, ?_, ?_⟩
  · rw [actions]
    exact head?_orderActions.mpr there
  · rw [actions]
    exact orderActions_perm (some p) d.order (nodup_eraseDups _)

/-- A preferred action that the editor was asked for leads the actions of the compiled document.
The answer is the choice that is stored with the result from then on, and nothing else about the
graph is different.  The choice of before stays if it is offered, and else the first action that is
offered is chosen, if there is one; to ask again changes nothing.  If an action is offered, then the
one row of the result in a compiled document prefers the first of its actions, and these are what is
offered. -/
theorem sync_leads {g : Graph} {id : String} {n : Node} {d : ResultData} (run : g.Reached)
    (found : g.node? id = some n) (result : n.payload = .result d) (s : IdSupply) :
    let offered := g.connectedActions id
    let synced := g.edit s (.syncPreferred id)
    ∃ choice,
      synced.answer = .ok (.choice choice) ∧
      synced.graph.node? id = some { n with payload := .result { d with preferred := choice } } ∧
      synced.graph = { g with nodes := g.nodes.map fun m =>
        if m.id = id then { n with payload := .result { d with preferred := choice } } else m } ∧
      (∀ p ∈ offered, d.preferred = some p → choice = some p) ∧
      ((∀ p ∈ offered, d.preferred ≠ some p) → choice = offered.head?.or d.preferred) ∧
      (∀ s', synced.graph.edit s' (.syncPreferred id) =
        ⟨synced.graph, s', false, .ok (.choice choice)⟩) ∧
      (offered ≠ [] → ∃ p ∈ offered, choice = some p ∧ ∀ npc interaction doc ws,
        compile synced.graph.nodes synced.graph.edges npc interaction = .compiled doc ws →
          ∃ row, doc.results.filter (·.id == id) = [row] ∧ row.preferred = some p ∧
            row.actions.head? = some p ∧ row.actions.Perm offered) := by
  intro offered synced
  have named : n.id = id := Graph.node?_id found
  let choice := Graph.preferredAmong offered d.preferred
  let n' : Node := { n with payload := .result { d with preferred := choice } }
  have once : synced = ⟨g.put n', s, decide (choice ≠ d.preferred), .ok (.choice choice)⟩ :=
    Graph.edit_syncPreferred run.sound.distinct found result s
  have sound : (g.put n').Sound := by
    have kept : synced.graph.Sound :=
      run.sound.changes trivial (Graph.edit_changes_of trivial fun _ copies => copies.elim)
    rwa [once] at kept
  have stored : (g.put n').node? id = some n' := by rw [Graph.node?_put, if_pos named.symm]
  have connected : (g.put n').connectedActions id = offered := by
    simp [Graph.connectedActions, Graph.edgesFrom, offered]
  refine ⟨choice, by rw [once], by rw [once, stored], ?_, ?_, Graph.preferredAmong_of_not_mem, ?_,
    ?_⟩
  · rw [once]
    exact Graph.put_of_node? found named
  · intro p there same
    simp only [choice, same, Graph.preferredAmong_of_mem there]
  · intro s'
    have again : Graph.preferredAmong ((g.put n').connectedActions id) choice = choice :=
      connected ▸ Graph.preferredAmong_idem offered d.preferred
    rw [once, Graph.edit_syncPreferred sound.distinct stored rfl s', again,
      Graph.put_eq_self sound.distinct (Graph.node?_mem stored)]
    simp
  · intro offers
    obtain ⟨p, there, chosen⟩ := Graph.exists_preferredAmong offers d.preferred
    refine ⟨p, there, chosen, fun npc interaction doc ws compiled => ?_⟩
    rw [once] at compiled
    obtain ⟨r, -, rfl, -⟩ := compile_eq_compiled.mp compiled
    exact connected ▸ sound.row_leads stored rfl chosen (connected ▸ there)

/-- The result `hello` offers three actions, prefers one that it does not offer and lists that one
and `trade` in its order.  The first action is chosen and comes before `trade`. -/
theorem sync_leads_of_stale :
    let edits : List Edit := [
      .createNode (.str "result") .omitted (.str "hello"),
      .createNode (.str "action") .omitted (.str "talk"),
      .createNode (.str "action") .omitted (.str "leave"),
      .createNode (.str "action") .omitted (.str "trade"),
      .updateData "hello" [("preferred", .str "gone"),
        ("order", .arr [.str "gone", .str "trade"])],
      .connect "hello" "result_actions" "talk" "action_owner",
      .connect "hello" "result_actions" "leave" "action_owner",
      .connect "hello" "result_actions" "trade" "action_owner",
      .connect Node.entryId "initial_target" "hello" "node_trigger"]
    let g := Graph.empty.after (.countingFrom 0) edits
    let d : ResultData := { preferred := some "gone", order := ["gone", "trade"] }
    let synced := (g.edit (.countingFrom 9) (.syncPreferred "hello")).graph
    g.Reached ∧ g.node? "hello" = some { id := "hello", payload := .result d } ∧
      synced.node? "hello" =
        some { id := "hello", payload := .result { d with preferred := some "talk" } } ∧
      (∀ s', (synced.edit s' (.syncPreferred "hello")).changed = false) ∧
      ∃ doc ws row, compile synced.nodes synced.edges "guide" none = .compiled doc ws ∧
        doc.results.filter (·.id == "hello") = [row] ∧ row.preferred = some "talk" ∧
        row.actions.head? = some "talk" ∧ row.actions.Perm ["talk", "leave", "trade"] := by
  intro edits g d synced
  have new : Graph.empty.RunsNew (.countingFrom 0) edits := by
    refine ⟨trivial, ?_, trivial, ?_, trivial, ?_, trivial, ?_, trivial, ?_, trivial, ?_, trivial,
      ?_, trivial, ?_, trivial, ?_, trivial⟩ <;> decide
  have run : g.Reached := Graph.Reached.after .refl new
  have found : g.node? "hello" = some { id := "hello", payload := .result d } := rfl
  have offered : g.connectedActions "hello" = ["talk", "leave", "trade"] := by decide +kernel
  obtain ⟨choice, -, stored, -, -, first, again, leads⟩ :=
    sync_leads run found rfl (.countingFrom 9)
  rw [offered] at first leads
  obtain rfl : choice = some "talk" := first (by decide)
  obtain ⟨p, -, chosen, leads⟩ := leads (List.cons_ne_nil _ _)
  obtain ⟨doc, ws, compiled⟩ : ∃ doc ws,
      compile synced.nodes synced.edges "guide" none = .compiled doc ws := ⟨_, _, rfl⟩
  obtain ⟨row, only, preferred, head, same⟩ := leads "guide" none doc ws compiled
  rw [← chosen] at preferred head
  exact ⟨run, found, stored, fun s' => congrArg (·.changed) (again s'), doc, ws, row, compiled,
    only, preferred, head, same⟩

end Parley
