import Parley.Proofs.Graph.Regular

/-!
# What connecting answers

The id of an edge is a row of four texts: the id of a node, the name of an output, the id of another
node and the name of an input, with a dash between the two pairs.  Ids of nodes are free and may
hold dashes and names of ports themselves, so two connections can have one id.  That takes an id of
a source which holds the name of a port with a dash behind it.

Connecting looks for an edge by its id alone.  So it answers the connection that is asked for,
unless another one has taken its id; then it answers that one and connects nothing.
-/

namespace Parley

/-- Texts with a mark in them that are the same are divided at the same mark, or one of the first
parts goes on with the mark behind the other. -/
theorem append_cons_eq_append_cons {α : Type} {x y b c : List α} {mark : α}
    (same : x ++ mark :: b = y ++ mark :: c) :
    x = y ∧ b = c ∨ x ++ [mark] <+: y ∨ y ++ [mark] <+: x := by
  rcases List.append_eq_append_iff.mp same with ⟨z, rfl, rest⟩ | ⟨z, rfl, rest⟩
  · cases z with
    | nil => exact .inl ⟨by simp, by simpa using rest⟩
    | cons a z =>
        obtain ⟨rfl, -⟩ := List.cons_eq_cons.mp rest
        exact .inr (.inl ⟨z, by simp⟩)
  · cases z with
    | nil => exact .inl ⟨by simp, by simpa [eq_comm] using rest⟩
    | cons a z =>
        obtain ⟨rfl, -⟩ := List.cons_eq_cons.mp rest
        exact .inr (.inr ⟨z, by simp⟩)

/-- A part that ends with a mark lies before an end without the mark. -/
theorem before_mark_of_append {α : Type} {x y rest : List α} {mark : α}
    (before : x ++ [mark] <+: y ++ rest) (absent : mark ∉ rest) : x ++ [mark] <+: y := by
  obtain ⟨z, same⟩ := before
  rcases List.append_eq_append_iff.mp same with ⟨w, inside, -⟩ | ⟨w, across, ends⟩
  · exact ⟨w, inside.symm⟩
  · rcases List.eq_nil_or_concat w with rfl | ⟨w, last, rfl⟩
    · exact ⟨[], by simpa using across⟩
    · rw [List.concat_eq_append, ← List.append_assoc] at across
      obtain ⟨-, marked⟩ := List.append_inj' across rfl
      obtain rfl : mark = last := by simpa using marked
      exact absurd (by simp [ends]) absent

namespace Port

/-- Whether an id holds the name of a port with a dash behind it. -/
def SpelledIn (port : Port) (id : String) : Prop := port.name.toList ++ ['-'] <:+: id.toList

instance (port : Port) (id : String) : Decidable (port.SpelledIn id) :=
  inferInstanceAs (Decidable (_ <:+: _))

theorem dash_not_mem_name (port : Port) : '-' ∉ port.name.toList := by
  cases port <;> decide

/-- No name of a port ends with that of another one. -/
theorem eq_of_suffix {p q : Port} (ends : p.name.toList <:+ q.name.toList) : p = q := by
  revert ends
  cases p <;> cases q <;> decide

/-- A text that ends with the name of a port is divided in one way only. -/
theorem append_name_inj {a b : List Char} {p q : Port}
    (same : a ++ p.name.toList = b ++ q.name.toList) : a = b ∧ p = q := by
  have left : p.name.toList <:+ b ++ q.name.toList := ⟨a, same⟩
  have right : q.name.toList <:+ b ++ q.name.toList := List.suffix_append _ _
  have whole : p = q := by
    rcases List.suffix_or_suffix_of_suffix left right with ends | ends
    · exact eq_of_suffix ends
    · exact (eq_of_suffix ends).symm
  subst whole
  exact ⟨List.append_cancel_right same, rfl⟩

end Port

namespace Edge

variable {s s' t t' : String} {p q i j : Port}

/-- A dash behind a port of one connection that lies in the first half of another one lies in the
id of its source. -/
theorem spelledIn_of_begins
    (inside : s.toList ++ p.name.toList ++ ['-'] <+: s'.toList ++ q.name.toList) :
    p.SpelledIn s' := by
  obtain ⟨rest, whole⟩ := before_mark_of_append inside q.dash_not_mem_name
  exact ⟨s.toList, rest, by simpa using whole⟩

/-- Two connections with one id are the same, unless a source spells the port of the other one. -/
theorem join_eq_of_id_eq (same : (join s p t i).id = (join s' q t' j).id) :
    join s p t i = join s' q t' j ∨ p.SpelledIn s' ∨ q.SpelledIn s := by
  have chars : s.toList ++ p.name.toList ++ '-' :: (t.toList ++ i.name.toList) =
      s'.toList ++ q.name.toList ++ '-' :: (t'.toList ++ j.name.toList) := by
    have chars := congrArg String.toList same
    simpa [join, make, idOf] using chars
  rcases append_cons_eq_append_cons chars with ⟨sources, targets⟩ | inside | inside
  · obtain ⟨source, rfl⟩ := Port.append_name_inj sources
    obtain ⟨target, rfl⟩ := Port.append_name_inj targets
    rw [String.toList_inj.mp source, String.toList_inj.mp target]
    exact .inl rfl
  · exact .inr (.inl (spelledIn_of_begins inside))
  · exact .inr (.inr (spelledIn_of_begins inside))

end Edge

namespace Graph

variable {g : Graph} {s : IdSupply} {source sourceHandle target targetHandle : String} {e : Edge}

open Relation (ReflTransGen)

/-- A connection is answered by itself, added to a graph in which its id was free, or by the edge
that has its id, in a graph that stays as it is. -/
theorem connect_cases
    (answered : (g.edit s (.connect source sourceHandle target targetHandle)).answer =
      .ok (.edge e)) :
    let asked := Edge.make source sourceHandle target targetHandle
    let after := (g.edit s (.connect source sourceHandle target targetHandle)).graph
    g.Fits asked ∧
      (e = asked ∧ (∀ x ∈ g.edges, x.id ≠ asked.id) ∧ after.edges = g.edges ++ [e] ∨
        g.edges.find? (·.id == asked.id) = some e ∧ after = g) := by
  intro asked after
  unfold edit at answered
  cases connected : g.connect source sourceHandle target targetHandle with
  | error failure => simp [connected, settled, Except.map] at answered
  | ok result =>
      obtain ⟨changed, answer⟩ := result
      obtain rfl : answer = e := by
        cases changed <;> simpa [connected, settled, Except.map] using answered
      have result : after = changed.getD g := by
        cases changed <;> simp [after, edit, connected, settled, Except.map]
      cases changed with
      | none =>
          obtain ⟨fits, found⟩ := connect_eq_there connected
          exact ⟨fits, .inr ⟨found, result⟩⟩
      | some g' =>
          obtain ⟨rfl, fits, unknown, -, rfl⟩ := connect_eq_ok connected
          exact ⟨fits, .inl ⟨rfl, unknown, congrArg edges result⟩⟩

/-- Connecting answers an edge of the graph after it.  That is the connection which was asked for
exactly if no other edge had its id before, and so it is wherever no source holds the name of a port
with a dash behind it. -/
theorem connect_answer (run : ReflTransGen Step Graph.empty g)
    (answered : (g.edit s (.connect source sourceHandle target targetHandle)).answer =
      .ok (.edge e)) :
    let asked := Edge.make source sourceHandle target targetHandle
    e ∈ (g.edit s (.connect source sourceHandle target targetHandle)).graph.edges ∧
      e.id = asked.id ∧ (e = asked ↔ ∀ x ∈ g.edges, x.id = asked.id → x = asked) ∧
      ((∀ x ∈ asked :: g.edges, ∀ port : Port, ¬ port.SpelledIn x.source) → e = asked) := by
  intro asked
  have regular := Regular.empty.run run
  obtain ⟨fits, ⟨rfl, free, after⟩ | ⟨found, after⟩⟩ := connect_cases answered
  · rw [after]
    exact ⟨by simp, rfl, iff_of_true rfl fun x member same => absurd same (free x member),
      fun _ => rfl⟩
  · have there : e ∈ g.edges := List.mem_of_find?_eq_some found
    have named : e.id = asked.id := by simpa using List.find?_some found
    refine ⟨by rwa [after], named, ⟨?_, fun only => only e there named⟩, fun plain => ?_⟩
    · rintro rfl x member same
      exact List.inj_on_of_nodup_map regular.edgesDistinct member there same
    · obtain ⟨p, joined⟩ := regular.ported e there
      obtain ⟨q, askedJoined⟩ := fits.ported
      have same : (Edge.join e.source p e.target p.input).id =
          (Edge.join asked.source q asked.target q.input).id := by
        rw [← joined, ← askedJoined]
        exact named
      rcases Edge.join_eq_of_id_eq same with whole | spelled | spelled
      · rwa [← joined, ← askedJoined] at whole
      · exact absurd spelled (plain asked List.mem_cons_self p)
      · exact absurd spelled (plain e (List.mem_cons_of_mem _ there) q)

/-- Here a connection is made a second time, between ids without the name of a port. -/
theorem connect_answer_of_repeated :
    let edits : List Edit := [
      .createNode (.str "result") .omitted (.str "hello"),
      .createNode (.str "action") .omitted (.str "take-leave"),
      .connect "hello" "result_actions" "take-leave" "action_owner"]
    let g := Graph.empty.after (.countingFrom 0) edits
    let asked := Edge.make "hello" "result_actions" "take-leave" "action_owner"
    let again := g.edit (.countingFrom 0)
      (.connect "hello" "result_actions" "take-leave" "action_owner")
    ReflTransGen Step Graph.empty g ∧ ∃ e, again.answer = .ok (.edge e) ∧
      e ∈ again.graph.edges ∧ e.id = asked.id ∧
      (e = asked ↔ ∀ x ∈ g.edges, x.id = asked.id → x = asked) ∧
      ((∀ x ∈ asked :: g.edges, ∀ port : Port, ¬ port.SpelledIn x.source) → e = asked) := by
  intro edits g asked again
  have new : Graph.empty.RunsNew (.countingFrom 0) edits := by
    refine ⟨trivial, ?_, trivial, ?_, trivial, ?_, trivial⟩ <;> decide
  have run : ReflTransGen Step Graph.empty g := (Reached.after .refl new).steps
  have answered : again.answer = .ok (.edge asked) := rfl
  exact ⟨run, asked, answered, connect_answer run answered⟩

/-- The id of a source may be made of that of another one: here the second connection is taken for
the first one, which is answered, and nothing is connected. -/
theorem connect_taken_id :
    let edits : List Edit := [
      .createNode (.str "action") .omitted (.str "a"),
      .createNode (.str "result") .omitted (.str "action_result-b"),
      .createNode (.str "action") .omitted (.str "aaction_result-"),
      .createNode (.str "result") .omitted (.str "b"),
      .connect "a" "action_result" "action_result-b" "node_trigger"]
    let g := Graph.empty.after (.countingFrom 0) edits
    let second := g.edit (.countingFrom 0)
      (.connect "aaction_result-" "action_result" "b" "node_trigger")
    g.Reached ∧ (∃ e, second.answer = .ok (.edge e) ∧ e.source = "a" ∧
      e.target = "action_result-b") ∧
      second.graph.edges = g.edges ∧ second.graph.edges.length = 1 := by
  intro edits g second
  have new : Graph.empty.RunsNew (.countingFrom 0) edits := by
    refine ⟨trivial, ?_, trivial, ?_, trivial, ?_, trivial, ?_, trivial, ?_, trivial⟩ <;> decide
  refine ⟨Reached.after .refl new, ⟨_, rfl, rfl, rfl⟩, rfl, rfl⟩

end Graph

end Parley
