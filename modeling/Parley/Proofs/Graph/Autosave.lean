import Parley.Proofs.Graph.Assured

/-!
# Drafts that are saved after each edit

A session that saves in memory keeps the draft in step with its graph: however its edits succeed or
fail, the draft is the stored form of the graph after each of them.  An edit saves once if it is
reported as a change and not at all otherwise; it is none if it fails or has nothing to change.
-/

namespace Parley

/-- Whether an edit of a graph has nothing to change by design: the connection is there already, no
edge has the id, nothing but entries is copied, or the preferred action needs no other choice. -/
def Edit.Idle (g : Graph) : Edit → Prop
  | .connect source sourceHandle target targetHandle =>
    ∃ x ∈ g.edges, x.id = Edge.idOf source sourceHandle target targetHandle
  | .disconnect id => ∀ x ∈ g.edges, x.id ≠ id
  | .duplicate ids _ => ∀ id ∈ ids, ∀ n, g.node? id = some n → n.isEntry = true
  | .syncPreferred id => ∀ n d, g.node? id = some n → n.payload = .result d →
    g.connectedActions id = [] ∨ ∃ choice ∈ d.preferred, choice ∈ g.connectedActions id
  | _ => False

namespace Graph

variable {g : Graph} {s : IdSupply} {e : Edit} {id : String}

/-- A connection with an id that is taken adds no edge. -/
theorem connect_taken {source sourceHandle target targetHandle : String}
    (taken : ∃ x ∈ g.edges, x.id = Edge.idOf source sourceHandle target targetHandle)
    {g' : Graph} {edge : Edge} :
    g.connect source sourceHandle target targetHandle ≠ .ok (some g', edge) := by
  intro connected
  obtain ⟨rfl, -, unknown, -, -⟩ := connect_eq_ok connected
  obtain ⟨x, member, same⟩ := taken
  exact unknown x member same

theorem settled_silent {α : Type} {r : Except Failure α} {answer : α → Option Graph × EditAnswer}
    (same : ∀ a, r = .ok a → (answer a).1 = none) :
    (g.settled s (r.map answer)).changed = false := by
  cases r with
  | error _ => rfl
  | ok a =>
      rcases answered : answer a with ⟨_ | g', _⟩
      · simp only [settled, Except.map, answered]
      · cases answered ▸ same a rfl

/-- An edit that is not reported leaves the graph as it was. -/
theorem settled_unchanged {r : Except Failure (Option Graph × EditAnswer)}
    (silent : (g.settled s r).changed = false) : (g.settled s r).graph = g := by
  match r with
  | .error _ => rfl
  | .ok (none, _) => rfl
  | .ok (some _, _) => cases silent

theorem duplicate_unchanged {ids : List String} {offset : Json} (placed : g.Placed)
    (silent : (g.duplicate ids offset s).changed = false) :
    (g.duplicate ids offset s).graph = g := by
  cases answer : (g.duplicate ids offset s).answer with
  | error f => exact (duplicate_refused placed answer).1
  | ok _ =>
      cases found : ids.mapM (g.require · "duplicate_nodes") with
      | error missing => rw [duplicate_missing offset s found]
      | ok sources =>
          rcases copied : copyAll offset s (sources.filter (!·.isEntry)) with
            ⟨copies, final, failure⟩
          rw [duplicate_found found copied] at silent answer ⊢
          cases failure with
          | some f => cases answer
          | none =>
              have none : copies = [] := by simpa using silent
              rw [none]
              rfl

/-- An edit that is not reported as a change leaves a graph whose nodes have points as it was. -/
theorem edit_unchanged (placed : g.Placed) (silent : (g.edit s e).changed = false) :
    (g.edit s e).graph = g := by
  cases e with
  | duplicate ids offset => exact duplicate_unchanged placed silent
  | disconnect id =>
      unfold edit at silent ⊢
      dsimp only at silent ⊢
      split at silent
      next => cases silent
      next => rfl
  | _ => exact settled_unchanged silent

/-- Where the preferred action is good, or there is none to offer, asking for one changes
nothing. -/
theorem syncPreferred_good
    (good : ∀ n d, g.node? id = some n → n.payload = .result d →
      g.connectedActions id = [] ∨ ∃ choice ∈ d.preferred, choice ∈ g.connectedActions id)
    {g' : Graph} {choice : Option String} : g.syncPreferred id ≠ .ok (some g', choice) := by
  intro synced
  obtain ⟨d, required, -⟩ := bind_eq_ok.mp synced
  obtain ⟨n, found, data⟩ := requireResult_eq_ok.mp required
  have stays : preferredAmong (g.connectedActions id) d.preferred = d.preferred := by
    rcases good n d found data with none | ⟨p, chosen, there⟩
    · simp [none]
    · rw [show d.preferred = some p from chosen, preferredAmong_of_mem there]
  rw [syncPreferred_of found data, if_pos stays] at synced
  cases synced

/-- An edit that has nothing to change is not reported as a change. -/
theorem edit_idle (idle : e.Idle g) : (g.edit s e).changed = false := by
  cases e with
  | connect source sourceHandle target targetHandle =>
      apply settled_silent
      rintro ⟨_ | g', edge⟩ connected
      · rfl
      · exact (connect_taken idle connected).elim
  | disconnect id =>
      have unknown : ∀ x ∈ g.edges, x.id ≠ id := idle
      have absent : g.disconnect id = none := by
        rw [disconnect, if_neg]
        simpa using unknown
      simp only [edit, absent]
  | duplicate ids offset =>
      have entries : ∀ id ∈ ids, ∀ n, g.node? id = some n → n.isEntry = true := idle
      cases found : ids.mapM (g.require · "duplicate_nodes") with
      | error missing => rw [edit, duplicate_missing offset s found]
      | ok sources =>
          have free : sources.filter (!·.isEntry) = [] := by
            refine List.filter_eq_nil_iff.mpr fun n member => ?_
            obtain ⟨id, listed, there⟩ := exists_of_mem_mapM found n member
            simp [entries id listed n (require_eq_ok.mp there)]
          have copied : copyAll offset s (sources.filter (!·.isEntry)) = ([], s, none) := by
            rw [free]
            rfl
          rw [edit, duplicate_found found copied]
          rfl
  | syncPreferred id =>
      apply settled_silent
      rintro ⟨_ | g', choice⟩ synced
      · rfl
      · exact (syncPreferred_good idle synced).elim
  | _ => exact idle.elim

end Graph

namespace Session

variable {s : Session} {n : Nat} {e : Edit}

/-- A session that saves a graph in memory, as it is opened and from then on. -/
def autosaving (g : Graph) (supply : IdSupply) (draft : Option Json) (saves : Nat) : Session :=
  (save { graph := g, supply, store := some (.memory draft saves) }).1

/-- The session after a row of edits. -/
def after (s : Session) : List Edit → Session
  | [] => s
  | e :: rest => (s.edit e).1.after rest

/-- Saving leaves the graph as it is. -/
@[simp] theorem save_graph : s.save.1.graph = s.graph := by
  unfold save
  split <;> rfl

/-- Saving leaves the ids to come as they are. -/
@[simp] theorem save_supply : s.save.1.supply = s.supply := by
  unfold save
  split <;> rfl

/-- A session holds the graph that its last edit leaves, whether or not the save succeeds. -/
theorem edit_graph : (s.edit e).1.graph = (s.graph.edit s.supply e).graph := by
  unfold edit
  dsimp only
  split
  next =>
    split
    next saved => exact (congrArg (·.1.graph) saved).symm.trans save_graph
    next saved => exact (congrArg (·.1.graph) saved).symm.trans save_graph
  next => rfl

/-- A session draws where its last edit stopped. -/
theorem edit_supply : (s.edit e).1.supply = (s.graph.edit s.supply e).supply := by
  unfold edit
  dsimp only
  split
  next =>
    split
    next saved => exact (congrArg (·.1.supply) saved).symm.trans save_supply
    next saved => exact (congrArg (·.1.supply) saved).symm.trans save_supply
  next => rfl

/-- Whether what is kept in memory, after a number of saves, is the stored form of the graph. -/
def InStep (s : Session) (saves : Nat) : Prop :=
  s.store = some (.memory (some s.graph.toJson) saves)

/-- An edit that is not reported as a change saves nothing. -/
theorem InStep.silent (h : s.InStep n) (placed : s.graph.Placed)
    (silent : (s.graph.edit s.supply e).changed = false) :
    (s.edit e).1.graph = s.graph ∧ (s.edit e).1.InStep n := by
  have kept := Graph.edit_unchanged placed silent
  simp only [edit, silent, kept]
  exact ⟨rfl, h⟩

/-- An edit that is reported as a change saves once, behind the change, whatever was kept before. -/
theorem inStep_of_changed {draft : Option Json} (store : s.store = some (.memory draft n))
    (changed : (s.graph.edit s.supply e).changed = true) :
    (s.edit e).1.InStep (n + 1) ∧
      (s.edit e).2 = (s.graph.edit s.supply e).answer.map (·, []) := by
  simp only [edit, changed, if_true, save, store]
  exact ⟨rfl, rfl⟩

theorem InStep.changed (h : s.InStep n) (changed : (s.graph.edit s.supply e).changed = true) :
    (s.edit e).1.InStep (n + 1) ∧
      (s.edit e).2 = (s.graph.edit s.supply e).answer.map (·, []) :=
  inStep_of_changed h changed

/-- What is kept stays in step through any edits, of which each saves at most once. -/
theorem InStep.after (h : s.InStep n) (placed : s.graph.Placed) {edits : List Edit}
    (typed : ∀ e ∈ edits, e.Typed) :
    (s.after edits).graph.Placed ∧ ∃ m, n ≤ m ∧ m ≤ n + edits.length ∧
      (s.after edits).InStep m := by
  induction edits generalizing s n with
  | nil => exact ⟨placed, n, Nat.le_refl _, Nat.le_refl _, h⟩
  | cons e rest ih =>
      obtain ⟨here, others⟩ := List.forall_mem_cons.mp typed
      cases changed : (s.graph.edit s.supply e).changed with
      | false =>
          obtain ⟨kept, h⟩ := h.silent placed changed
          obtain ⟨placed, m, low, high, h⟩ := ih h (kept ▸ placed) others
          exact ⟨placed, m, low, by simp only [List.length_cons]; omega, h⟩
      | true =>
          obtain ⟨h, -⟩ := h.changed changed
          obtain ⟨placed, m, low, high, h⟩ :=
            ih h (edit_graph (s := s) ▸ placed.edit here s.supply) others
          exact ⟨placed, m, by omega, by simp only [List.length_cons]; omega, h⟩

end Session

open Session in
/-- A session on any graph saves it in memory and is then edited, however its edits succeed or fail.
What is kept is the graph as it is now: after the first save, after any number of edits and after
any next one, which saves at most once.  An edit that fails or has nothing to change saves nothing
and leaves the graph as it was. -/
theorem autosave_keeps_draft {g : Graph} (placed : g.Placed) (supply : IdSupply)
    (draft : Option Json) (saves : Nat) {edits : List Edit} (typed : ∀ e ∈ edits, e.Typed) :
    let s := (autosaving g supply draft saves).after edits
    ∃ n, saves + 1 ≤ n ∧ n ≤ saves + 1 + edits.length ∧
      s.store = some (.memory (some s.graph.toJson) n) ∧
      ∀ e, let t := (s.edit e).1
        ∃ m, (m = n ∨ m = n + 1) ∧ t.store = some (.memory (some t.graph.toJson) m) ∧
          ((∃ f, (s.edit e).2 = .error f) ∨ e.Idle s.graph → m = n ∧ t.graph = s.graph) := by
  intro s
  have opened : (autosaving g supply draft saves).InStep (saves + 1) := rfl
  obtain ⟨there, n, low, high, h⟩ := opened.after placed typed
  refine ⟨n, low, high, h, fun e => ?_⟩
  cases changed : (s.graph.edit s.supply e).changed with
  | false =>
      obtain ⟨kept, same⟩ := InStep.silent h there changed
      exact ⟨n, .inl rfl, same, fun _ => ⟨rfl, kept⟩⟩
  | true =>
      obtain ⟨saved, answered⟩ := InStep.changed h changed
      refine ⟨n + 1, .inr rfl, saved, fun none => ?_⟩
      rcases none with ⟨f, failed⟩ | idle
      · have refused : (s.graph.edit s.supply e).answer = .error f := by
          cases answer : (s.graph.edit s.supply e).answer with
          | ok _ => rw [answered, answer] at failed; cases failed
          | error _ => rw [answered, answer] at failed; cases failed; rfl
        exact absurd ((Graph.edit_refused there refused).2.symm.trans changed) Bool.false_ne_true
      · exact absurd ((Graph.edit_idle idle).symm.trans changed) Bool.false_ne_true

/-- A result offers an action, and a node that is not there is deleted.  Offering the action again
saves nothing. -/
theorem autosave_keeps_draft_of_edits :
    let hello : Node := ⟨"hello", .point {}, .result {}⟩
    let leave : Node := ⟨"leave", .point {}, .action {}⟩
    let start : Graph := ⟨[.entry, hello, leave], [], Node.entryId⟩
    let offer : Edit := .connect "hello" "result_actions" "leave" "action_owner"
    let edits := [offer, .deleteNode "nobody"]
    let offered : Graph :=
      { start with edges := [.make "hello" "result_actions" "leave" "action_owner"] }
    let s := (Session.autosaving start (.countingFrom 0) none 0).after edits
    start.Placed ∧ (∀ e ∈ edits, e.Typed) ∧ s.graph = offered ∧
      s.store = some (.memory (some offered.toJson) 2) ∧
      (s.edit offer).1.store = some (.memory (some offered.toJson) 2) := by
  intro hello leave start offer edits offered s
  have placed : start.Placed := by
    refine List.forall_mem_cons.mpr ⟨⟨_, rfl⟩, ?_⟩
    simp [hello, leave]
  have typed : ∀ e ∈ edits, e.Typed := by simp [edits, offer, Edit.Typed]
  have graph : s.graph = offered := rfl
  have idle : offer.Idle offered := ⟨_, List.mem_singleton_self _, rfl⟩
  have store : s.store = some (.memory (some offered.toJson) 2) := rfl
  obtain ⟨n, -, -, kept, next⟩ := autosave_keeps_draft placed (.countingFrom 0) none 0 typed
  obtain ⟨m, -, again, silent⟩ := next offer
  obtain ⟨rfl, unchanged⟩ := silent (.inr (graph ▸ idle))
  refine ⟨placed, typed, graph, store, ?_⟩
  rw [again, unchanged, ← store]
  exact kept.symm

end Parley
