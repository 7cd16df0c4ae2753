import Mathlib.Data.List.Forall2
import Parley.Proofs.Graph.Assured
import Parley.Proofs.Graph.Payload
import Parley.Proofs.Graph.Sound

/-!
# Edits of data, by the fields that they name

An edit of the data of a node sets some of its fields and reads all of them again, and so does one
that adds an executor to a result or removes one.  However often that is done, a field that is not
named keeps its value, with every scalar of the type that it had, and the executors are those that
the edits add and remove one after the other.  Nothing else in the graph changes.
-/

namespace Parley

/-- Fields that are set under other keys do not matter to a key. -/
theorem Fields.get?_foldl_put {fields given : Fields} {key : String}
    (other : key ∉ given.map (·.1)) :
    (given.foldl (fun all f => Fields.put f.1 f.2 all) fields).get? key = fields.get? key := by
  induction given generalizing fields with
  | nil => rfl
  | cons f rest ih =>
      rw [List.map_cons, List.mem_cons, not_or] at other
      rw [List.foldl_cons, ih other.2, get?_put_of_ne _ _ other.1]

theorem Executor.toJson_injective : Function.Injective toJson := fun a b same => by
  have read := read_toJson a
  rw [same, read_toJson b] at read
  cases read
  rfl

/-- What holds of neighbours in two pairs of lists holds of the outer two, if it does so item by
item. -/
theorem forall₂_through {α β γ : Type} {R : α → β → Prop} {S : β → γ → Prop} {T : α → γ → Prop}
    (through : ∀ {a b c}, R a b → S b c → T a c) {as : List α} {bs : List β} {cs : List γ}
    (first : List.Forall₂ R as bs) (second : List.Forall₂ S bs cs) : List.Forall₂ T as cs := by
  induction first generalizing cs with
  | nil =>
      cases second
      exact .nil
  | cons here _ ih =>
      cases second with
      | cons there others => exact .cons (through here there) (ih others)

namespace Edit

/-- Whether an edit changes the data of a node that is there. -/
def OfData : Edit → Prop
  | .updateData _ _ => True
  | .addExecutor _ _ _ => True
  | .removeExecutor _ _ => True
  | _ => False

/-- Whether an edit gives a field of a node a new value. -/
def Sets (id key : String) : Edit → Prop
  | .updateData other fields => other = id ∧ key ∈ fields.map (·.1)
  | _ => False

/-- Whether an edit names a field of a node: it gives the field a new value, or adds or removes one
of the executors. -/
def Names (id key : String) : Edit → Prop
  | .addExecutor other _ _ => other = id ∧ key = "executors"
  | .removeExecutor other _ => other = id ∧ key = "executors"
  | e => e.Sets id key

/-- The executors of a node behind an edit that gives them no new value: one is added behind those
that were there, or the one at an index is taken out. -/
def executors (id : String) (before : List Executor) : Edit → List Executor
  | .addExecutor other type value =>
    if other = id then before ++ (Graph.makeExecutor type value).toOption.toList else before
  | .removeExecutor other index =>
    if other = id then
      ((Graph.position? before.length index).map before.eraseIdx).getD before
    else before
  | _ => before

instance : (e : Edit) → Decidable e.OfData
  | .updateData _ _ | .addExecutor _ _ _ | .removeExecutor _ _ => .isTrue trivial
  | .addNode _ | .createNode _ _ _ | .moveNode _ _ | .deleteNode _ | .reset | .duplicate _ _
  | .syncPreferred _ | .connect _ _ _ _ | .disconnect _ => .isFalse not_false

instance (id key : String) : (e : Edit) → Decidable (e.Sets id key)
  | .updateData other fields => inferInstanceAs (Decidable (other = id ∧ key ∈ fields.map (·.1)))
  | .addNode _ | .createNode _ _ _ | .moveNode _ _ | .deleteNode _ | .reset | .duplicate _ _
  | .syncPreferred _ | .addExecutor _ _ _ | .removeExecutor _ _ | .connect _ _ _ _
  | .disconnect _ => .isFalse not_false

instance (id key : String) : (e : Edit) → Decidable (e.Names id key)
  | .addExecutor other _ _ | .removeExecutor other _ =>
    inferInstanceAs (Decidable (other = id ∧ key = "executors"))
  | .updateData other fields => inferInstanceAs (Decidable (Sets id key (.updateData other fields)))
  | .addNode _ | .createNode _ _ _ | .moveNode _ _ | .deleteNode _ | .reset | .duplicate _ _
  | .syncPreferred _ | .connect _ _ _ _ | .disconnect _ => .isFalse not_false

end Edit

/-- What a row of edits of data leaves of a node: its id, its kind and its place, every field of its
data that no edit names, and the executors that the edits add and remove, unless one of them gives
them all a new value. -/
structure Node.Kept (edits : List Edit) (n n' : Node) : Prop where
  id : n'.id = n.id
  kind : n'.kind = n.kind
  position : n'.position = n.position
  fields : ∀ key, (∀ e ∈ edits, ¬ e.Names n.id key) →
    n'.payload.fields.get? key = n.payload.fields.get? key
  executors : ∀ d, n.payload = .result d → (∀ e ∈ edits, ¬ e.Sets n.id "executors") →
    ∃ d', n'.payload = .result d' ∧
      d'.executors = edits.foldl (Edit.executors n.id) d.executors
  /-- The flags of an entry are no fields of its data. -/
  entry : n.isEntry = true → n' = n

namespace Node.Kept

variable {e : Edit} {edits : List Edit} {n n' n'' : Node}

theorem nil (n : Node) : n.Kept [] n :=
  ⟨rfl, rfl, rfl, fun _ _ => rfl, fun d result _ => ⟨d, result, rfl⟩, fun _ => rfl⟩

/-- A node stays as it is if an edit is none of its executors. -/
theorem of_apart (apart : ∀ before, e.executors n.id before = before) : n.Kept [e] n :=
  ⟨rfl, rfl, rfl, fun _ _ => rfl, fun d result _ => ⟨d, result, (apart d.executors).symm⟩,
    fun _ => rfl⟩

theorem cons (first : n.Kept [e] n') (others : n'.Kept edits n'') : n.Kept (e :: edits) n'' where
  id := others.id.trans first.id
  kind := others.kind.trans first.kind
  position := others.position.trans first.position
  fields key unnamed := by
    obtain ⟨here, behind⟩ := List.forall_mem_cons.mp unnamed
    have later := others.fields key (first.id.symm ▸ behind)
    exact later.trans (first.fields key (List.forall_mem_singleton.mpr here))
  executors d result unset := by
    obtain ⟨here, behind⟩ := List.forall_mem_cons.mp unset
    obtain ⟨d', result', added⟩ := first.executors d result (List.forall_mem_singleton.mpr here)
    obtain ⟨d'', result'', final⟩ := others.executors d' result' (first.id.symm ▸ behind)
    refine ⟨d'', result'', ?_⟩
    rw [final, added, first.id]
    rfl
  entry isEntry := by
    obtain rfl := first.entry isEntry
    exact others.entry isEntry

end Node.Kept

namespace Graph

variable {g g' : Graph} {s : IdSupply} {e : Edit} {n : Node} {payload updated : Payload}
  {id key : String} {fields : Fields} {answer : EditAnswer} {d : ResultData}

/-- Data are read again without a change in the fields that are not named. -/
theorem updatePayload_kept (free : payload.kind ≠ .entry)
    (made : updatePayload payload fields = .ok updated) (other : key ∉ fields.map (·.1)) :
    updated.fields.get? key = payload.fields.get? key := by
  obtain ⟨-, read⟩ := updatePayload_eq_ok made
  have keys := Payload.keys_eq (updatePayload_kind made)
  exact (Payload.settles_self free).kept (Payload.settles read) keys (Fields.get?_foldl_put other)

/-- Fields of the data of a node are set. -/
theorem kept_updatePayload (free : n.isEntry = false)
    (made : updatePayload n.payload fields = .ok payload) :
    n.Kept [.updateData n.id fields] { n with payload } := by
  have notEntry : n.payload.kind ≠ .entry := by simpa [Node.isEntry, Node.kind] using free
  have kind := updatePayload_kind made
  have kept (key : String) (unset : key ∉ fields.map (·.1)) :=
    updatePayload_kept notEntry made unset
  refine ⟨rfl, kind, rfl, fun key unnamed => ?_, fun d result unset => ?_, fun isEntry => ?_⟩
  · exact kept key fun named => List.forall_mem_singleton.mp unnamed ⟨rfl, named⟩
  · have same := kept "executors" fun named => List.forall_mem_singleton.mp unset ⟨rfl, named⟩
    rw [result] at kind same
    cases payload with
    | result d' =>
        have same : d'.executors.map Executor.toJson = d.executors.map Executor.toJson := by
          simpa [Payload.fields, ResultData.fields] using same
        exact ⟨d', rfl, List.map_injective_iff.mpr Executor.toJson_injective same⟩
    | _ => cases kind
  · exact absurd isEntry (by simp [free])

/-- The executors of a result are set to those that an edit leaves. -/
theorem kept_executors (result : n.payload = .result d)
    (names : ∀ key, e.Names n.id key ↔ key = "executors") :
    n.Kept [e]
      { n with payload := .result { d with executors := e.executors n.id d.executors } } where
  id := rfl
  kind := by simp [Node.kind, result, Payload.kind]
  position := rfl
  fields key unnamed := by
    have other : key ≠ "executors" := mt (names key).mpr (unnamed e (List.mem_singleton_self e))
    simp [result, Payload.fields, ResultData.fields, other]
  executors d' same _ := by
    cases result.symm.trans same
    exact ⟨_, rfl, rfl⟩
  entry isEntry := absurd isEntry (by simp [n.isEntry_of_result result])

/-- An edit that succeeds has a result, which it answers. -/
theorem settled_answer {r : Except Failure (Option Graph × EditAnswer)}
    (done : (g.settled s r).answer = .ok answer) : ∃ next, r = .ok (next, answer) := by
  match r with
  | .error _ => cases done
  | .ok (none, _) => cases done; exact ⟨none, rfl⟩
  | .ok (some g', _) => cases done; exact ⟨some g', rfl⟩

/-- An edit of data that succeeds puts a node in its own place with other data, and is none of the
executors of any other node. -/
theorem edit_ofData (data : e.OfData) (done : (g.edit s e).answer = .ok answer) :
    ∃ n payload, g.node? n.id = some n ∧ n.Kept [e] { n with payload } ∧
      (∀ id, id ≠ n.id → ∀ before, e.executors id before = before) ∧
      (g.edit s e).graph = g.put { n with payload } := by
  cases e with
  | updateData id fields =>
      obtain ⟨_, ended⟩ := settled_answer done
      obtain ⟨⟨g', n'⟩, update, -⟩ := map_eq_ok.mp ended
      obtain ⟨n, payload, found, free, read, rfl, rfl⟩ := updateData_eq_ok update
      obtain rfl := node?_id found
      refine ⟨n, payload, found, kept_updatePayload free read, fun _ _ _ => rfl, ?_⟩
      rw [edit, update]
      rfl
  | addExecutor id type value =>
      obtain ⟨_, ended⟩ := settled_answer done
      obtain ⟨⟨g', x⟩, add, -⟩ := map_eq_ok.mp ended
      obtain ⟨d, required, made, set⟩ := addExecutor_eq_ok add
      obtain ⟨n, found, result⟩ := requireResult_eq_ok.mp required
      obtain rfl := node?_id found
      have behind : (Edit.addExecutor n.id type value).executors n.id d.executors =
          d.executors ++ [x] := by simp [Edit.executors, made, Except.toOption]
      refine ⟨n, _, found, kept_executors result fun key => by simp [Edit.Names],
        fun id other before => if_neg other.symm, ?_⟩
      cases (setExecutors_of found result _).symm.trans set
      rw [edit, add, behind]
      rfl
  | removeExecutor id index =>
      obtain ⟨_, ended⟩ := settled_answer done
      obtain ⟨g', remove, -⟩ := map_eq_ok.mp ended
      obtain ⟨d, i, required, there, set⟩ := removeExecutor_eq_ok remove
      obtain ⟨n, found, result⟩ := requireResult_eq_ok.mp required
      obtain rfl := node?_id found
      have without : (Edit.removeExecutor n.id index).executors n.id d.executors =
          d.executors.eraseIdx i := by simp [Edit.executors, there]
      refine ⟨n, _, found, kept_executors result fun key => by simp [Edit.Names],
        fun id other before => if_neg other.symm, ?_⟩
      cases (setExecutors_of found result _).symm.trans set
      rw [edit, remove, without]
      rfl
  | _ => exact data.elim

/-- An edit of data that succeeds leaves the edges as they are and keeps of every node, in its
place, what it does not name. -/
theorem edit_kept (distinct : g.ids.Nodup) (data : e.OfData)
    (done : (g.edit s e).answer = .ok answer) :
    (g.edit s e).graph.edges = g.edges ∧ (g.edit s e).graph.entryId = g.entryId ∧
      List.Forall₂ (Node.Kept [e]) g.nodes (g.edit s e).graph.nodes := by
  obtain ⟨n, payload, found, kept, apart, graph⟩ := edit_ofData data done
  have put : g.put { n with payload } = _ := put_of_node? found rfl
  rw [graph, put]
  refine ⟨rfl, rfl, List.forall₂_map_right_iff.mpr (List.forall₂_same.mpr fun m member => ?_)⟩
  split
  next same =>
    obtain rfl := eq_of_id_eq distinct member (node?_mem found) same
    exact kept
  next other => exact .of_apart (apart m.id other)

/-- Whether every edit of a row succeeds. -/
def Succeeds (g : Graph) (s : IdSupply) : List Edit → Prop
  | [] => True
  | e :: rest => (∃ answer, (g.edit s e).answer = .ok answer) ∧
    (g.edit s e).graph.Succeeds (g.edit s e).supply rest

instance (r : Except Failure EditAnswer) : Decidable (∃ answer, r = .ok answer) :=
  match r with
  | .ok answer => .isTrue ⟨answer, rfl⟩
  | .error _ => .isFalse fun ⟨_, same⟩ => nomatch same

instance decidableSucceeds (g : Graph) (s : IdSupply) :
    (edits : List Edit) → Decidable (g.Succeeds s edits)
  | [] => .isTrue trivial
  | e :: rest =>
    have := decidableSucceeds (g.edit s e).graph (g.edit s e).supply rest
    inferInstanceAs (Decidable (_ ∧ _))

/-- A row of edits of data leaves the edges as they are and keeps of every node, in its place, what
none of them names. -/
theorem after_kept {edits : List Edit} (distinct : g.ids.Nodup) (data : ∀ e ∈ edits, e.OfData)
    (succeeds : g.Succeeds s edits) :
    (g.after s edits).edges = g.edges ∧ (g.after s edits).entryId = g.entryId ∧
      List.Forall₂ (Node.Kept edits) g.nodes (g.after s edits).nodes := by
  induction edits generalizing g s with
  | nil => exact ⟨rfl, rfl, List.forall₂_same.mpr fun n _ => .nil n⟩
  | cons e rest ih =>
      obtain ⟨here, others⟩ := List.forall_mem_cons.mp data
      obtain ⟨⟨answer, done⟩, succeeds⟩ := succeeds
      obtain ⟨edges, entryId, nodes⟩ := edit_kept distinct here done
      have ids : (g.edit s e).graph.ids = g.ids := by
        have same : List.Forall₂ Eq (g.edit s e).graph.ids g.ids :=
          List.forall₂_map_left_iff.mpr
            (List.forall₂_map_right_iff.mpr (nodes.flip.imp fun _ _ kept => kept.id))
        rwa [List.forall₂_eq_eq_eq] at same
      obtain ⟨edges', entryId', nodes'⟩ := ih (ids ▸ distinct) others succeeds
      exact ⟨edges'.trans edges, entryId'.trans entryId, forall₂_through .cons nodes nodes'⟩

/-- A node that is put in takes the place of one with its id that was put in before. -/
theorem put_put (distinct : g.ids.Nodup) {m m' : Node} (member : n ∈ g.nodes) (same : m.id = n.id)
    (same' : m'.id = n.id) : (g.put m).put m' = g.put m' := by
  have found := node?_of_mem distinct member
  have there : (g.put m).node? n.id = some m := by rw [node?_put, if_pos same.symm]
  rw [put_of_node? there same', put_of_node? found same, put_of_node? found same']
  simp only [List.map_map, Function.comp_def]
  congr 2
  funext k
  by_cases named : k.id = n.id <;> simp [named, same]

/-- The last of the executors of a result, by its index from either end. -/
theorem position?_last {length : Nat} {index : Int} (last : index = -1 ∨ index = length) :
    position? (length + 1) index = some length := by
  rcases last with rfl | rfl
  · have inside : 0 ≤ (-1 : Int) + ↑(length + 1) ∧ (-1 : Int) + ↑(length + 1) < ↑(length + 1) := by
      omega
    have last : ((-1 : Int) + ↑(length + 1)).toNat = length := by omega
    rw [position?, if_pos (by decide : (-1 : Int) < 0), if_pos inside, last]
  · have plain : ¬ (length : Int) < 0 := by omega
    have inside : 0 ≤ (length : Int) ∧ (length : Int) < ↑(length + 1) := by omega
    rw [position?, if_neg plain, if_pos inside, Int.toNat_natCast]

/-- An executor that was added to a result is removed again, as the last one. -/
theorem removeExecutor_added {type value : Json} {x : Executor} {index : Int}
    (distinct : g.ids.Nodup) (member : n ∈ g.nodes) (result : n.payload = .result d)
    (added : g.addExecutor n.id type value = .ok (g', x))
    (last : index = -1 ∨ index = d.executors.length) (word : Checked.fitsWord index = true) :
    g'.removeExecutor n.id index = .ok g := by
  have found := node?_of_mem distinct member
  obtain ⟨d', required, -, set⟩ := addExecutor_eq_ok added
  obtain ⟨m, there, same⟩ := requireResult_eq_ok.mp required
  cases found.symm.trans there
  cases result.symm.trans same
  cases (setExecutors_of found result _).symm.trans set
  let grown : Node := { n with payload := .result { d with executors := d.executors ++ [x] } }
  have again : (g.put grown).node? n.id = some grown := by rw [node?_put, if_pos rfl]
  have asked : (g.put grown).requireResult n.id "remove_executor" = .ok _ :=
    requireResult_eq_ok.mpr ⟨grown, again, rfl⟩
  have shrunk : (d.executors ++ [x]).eraseIdx d.executors.length = d.executors := by
    rw [List.eraseIdx_append_of_length_le (Nat.le_refl _)]
    simp
  have back : { n with payload := .result d } = n := by rw [← result]
  have whole : (g.put grown).put n = g :=
    (put_put (m := grown) distinct member rfl rfl).trans (put_eq_self distinct member)
  rw [removeExecutor, asked]
  simp only [bind, Except.bind, word, Bool.not_true, Bool.false_eq_true, if_false,
    List.length_append, List.length_singleton, position?_last last, shrunk]
  rw [setExecutors_of again rfl]
  exact congrArg Except.ok (by simpa [grown, back] using whole)

/-- A row of edits of data that succeed touches only what the edits name.  The edges, the order of
the nodes, their ids, kinds and places stay as they are, and so does every field of the data of a
node that no edit names.  Where no edit gives the executors of a result a new value, they are those
that it had, with the ones that were added behind them and without the ones that were taken out.
And whenever an executor was added, to remove the last one restores the graph. -/
theorem data_edits_kept {edits : List Edit} (reached : g.Reached) (data : ∀ e ∈ edits, e.OfData)
    (succeeds : g.Succeeds s edits) :
    (g.after s edits).edges = g.edges ∧ (g.after s edits).entryId = g.entryId ∧
      List.Forall₂ (Node.Kept edits) g.nodes (g.after s edits).nodes ∧
      ∀ n ∈ g.nodes, ∀ d, n.payload = .result d → ∀ index : Int,
        index = -1 ∨ index = d.executors.length → Checked.fitsWord index = true →
        ∀ type value, let added := g.edit s (.addExecutor n.id type value)
          (∃ answer, added.answer = .ok answer) →
            added.graph.edit added.supply (.removeExecutor n.id index) =
              ⟨g, added.supply, true, .ok .done⟩ := by
  have distinct := reached.sound.distinct
  obtain ⟨edges, entryId, nodes⟩ := after_kept distinct data succeeds
  refine ⟨edges, entryId, nodes, fun n member d result index last word type value => ?_⟩
  rintro added ⟨answer, done⟩
  obtain ⟨_, ended⟩ := settled_answer done
  obtain ⟨⟨g', x⟩, add, -⟩ := map_eq_ok.mp ended
  have graph : added.graph = g' := by
    simp only [added, edit, add]
    rfl
  rw [graph, edit, removeExecutor_added distinct member result add last word]
  rfl

/-- A result is given amounts that are a truth value and a text, a message and a delay that is
spelled, and loses the first amount again; a conditional is told what to look at and keeps its
objective. -/
theorem data_edits_kept_of_amounts :
    let making : List Edit := [
      .createNode (.str "result") .omitted (.str "hello"),
      .createNode (.str "conditional") .omitted (.str "rich"),
      .updateData "rich" [("objective", .bool true)]]
    let edits : List Edit := [
      .addExecutor "hello" (.str "set_coins") (.bool true),
      .updateData "rich" [("value", .str "coins")],
      .addExecutor "hello" (.str "set_gems") (.str "1"),
      .updateData "hello" [("message", .str "Welcome"), ("close", .obj [("delay", .str "5")])],
      .removeExecutor "hello" (-2)]
    let s : IdSupply := .countingFrom 0
    let g := Graph.empty.after s making
    let g' := g.after s edits
    let added := g.edit s (.addExecutor "hello" (.str "set_gems") .null)
    g.Reached ∧ (∀ e ∈ edits, e.OfData) ∧ g.Succeeds s edits ∧
      (g'.node? "hello").map (·.payload) = some (.result {
        message := "Welcome", close := { delay := 5 }, executors := [.setGems (.text "1")] }) ∧
      (g'.node? "rich").map (·.payload) = some (.conditional {
        value := "coins", objective := .bool true }) ∧
      g'.edges = g.edges ∧ List.Forall₂ (Node.Kept edits) g.nodes g'.nodes ∧
      added.graph.edit added.supply (.removeExecutor "hello" (-1)) =
        ⟨g, added.supply, true, .ok .done⟩ := by
  intro making edits s g g' added
  have reached : g.Reached := by
    refine Reached.after .refl (s := s) ⟨trivial, ?_, trivial, ?_, trivial, ?_, trivial⟩ <;> decide
  have data : ∀ e ∈ edits, e.OfData := by decide
  have succeeds : g.Succeeds s edits := by decide
  obtain ⟨edges, -, nodes, restored⟩ := data_edits_kept reached data succeeds
  let hello : Node := ⟨"hello", .point {}, .result {}⟩
  have member : hello ∈ g.nodes := .tail _ (.head _)
  have done : ∃ answer, added.answer = .ok answer := by decide
  exact ⟨reached, data, succeeds, by decide, by decide, edges, nodes,
    restored hello member {} rfl (-1) (.inl rfl) (by decide) (.str "set_gems") .null done⟩

end Graph

end Parley
