import Parley.Proofs.Command.Ends
import Parley.Proofs.Command.Reported
import Parley.Proofs.Graph.Assured
import Parley.Proofs.Graph.Autosave
import Parley.Proofs.Project.Folder

/-!
# Commands that edit a graph

An edit command comes to the same as the edits that it asks for, or it ends early and leaves the
draft as it was.  Then it has said why, unless it misuses a field.
-/

namespace Parley

open Project (Keeps draftPath)

variable {start : FileTree} {folder : Path} {g : Graph} {supply : IdSupply}

/-- A result has the data of results. -/
theorem Node.result_of_isResult {n : Node} (isResult : n.isResult = true) :
    ∃ d, n.payload = .result d := by
  cases payload : n.payload with
  | result d => exact ⟨d, rfl⟩
  | _ => simp [Node.isResult, Node.kind, payload, Payload.kind] at isResult

namespace Session

variable {s : Session} {e : Edit}

/-- Whether a session saves in the folder of a project, where the draft now is that of a graph. -/
def Holds (start : FileTree) (folder : Path) (g : Graph) (s : Session) : Prop :=
  ∃ text tree, g.toJson.text Json.Layout.document = .ok text ∧
    s.store = some (.file (draftPath folder) tree) ∧ Keeps start folder text tree

/-- Saving writes the draft of the graph, unless it cannot be written; then the former one stays. -/
theorem save_cases (h : s.Holds start folder g) :
    (∃ events, s.save.2 = .ok events) ∧ s.save.1.Holds start folder s.graph ∨
      (∃ d, s.save.2 = .error (.digits d)) ∧ s.save.1.Holds start folder g := by
  obtain ⟨text, tree, written, store, keeps⟩ := h
  simp only [save, store, DraftStore.save]
  cases shown : s.graph.toJson.text Json.Layout.document with
  | ok new =>
      obtain ⟨tree', events, saved, keeps⟩ := keeps.save shown
      rw [saved]
      exact .inl ⟨⟨events, rfl⟩, new, tree', shown, rfl, keeps⟩
  | error e =>
      rw [Draft.save_refused keeps.leads shown keeps.spare]
      exact .inr ⟨⟨_, rfl⟩, text, tree, written, rfl, keeps⟩

/-- A graph that can be written is saved. -/
theorem save_assured (h : s.Holds start folder g) (placed : s.graph.Placed)
    (short : s.graph.Short) : ∃ events, s.save.2 = .ok events := by
  obtain ⟨text, tree, -, store, keeps⟩ := h
  obtain ⟨new, shown⟩ := placed.text_of_short short Json.Layout.document
  obtain ⟨tree', events, saved, -⟩ := keeps.save shown
  simp only [save, store, DraftStore.save, saved]
  exact ⟨events, rfl⟩

/-- Whether a session has a graph and saves it in the folder of a project. -/
structure Follows (start : FileTree) (folder : Path) (g : Graph) (supply : IdSupply) (s : Session) :
    Prop where
  graph : s.graph = g
  supply : s.supply = supply
  holds : s.Holds start folder g

/-- The session before the save that follows an edit. -/
def edited (s : Session) (e : Edit) : Session :=
  { s with
    graph := (s.graph.edit s.supply e).graph
    supply := (s.graph.edit s.supply e).supply
    changes := s.changes + 1 }

/-- An edit that is reported as a change answers behind the save. -/
theorem edit_of_changed (changed : (s.graph.edit s.supply e).changed = true) :
    s.edit e = ((s.edited e).save.1, (s.edited e).save.2.bind fun events =>
      (s.graph.edit s.supply e).answer.map (·, events)) := by
  rw [edit]
  simp only [changed, if_true]
  rcases saved : (s.edited e).save with ⟨t, _ | events⟩ <;>
    (rw [edited] at saved; simp only [saved]; rfl)

/-- A graph whose draft is kept can be written. -/
theorem Follows.short (h : s.Follows start folder g supply) (placed : g.Placed) : g.Short := by
  obtain ⟨-, -, text, -, written, -⟩ := h
  exact placed.short_of_text written

/-- An edit that succeeds leaves a session that follows it, and one that fails leaves the draft.  It
fails if it is refused, or if the graph behind it cannot be written. -/
theorem Follows.edit_cases (h : s.Follows start folder g supply) (placed : g.Placed) :
    (∃ answer events, (s.edit e).2 = .ok (answer, events) ∧ (g.edit supply e).answer = .ok answer ∧
        (s.edit e).1.Follows start folder (g.edit supply e).graph (g.edit supply e).supply) ∨
      (∃ f, (s.edit e).2 = .error f ∧
        ((∃ d, f = .digits d) ∨ (g.edit supply e).answer = .error f)) ∧
        (s.edit e).1.Holds start folder g := by
  obtain ⟨rfl, rfl, holds⟩ := h
  cases changed : (s.graph.edit s.supply e).changed with
  | false =>
      have kept := Graph.edit_unchanged placed changed
      have silent : s.edit e = ({ s with
          graph := (s.graph.edit s.supply e).graph
          supply := (s.graph.edit s.supply e).supply },
          (s.graph.edit s.supply e).answer.map (·, [])) := by
        simp [edit, changed]
      rw [silent]
      cases answered : (s.graph.edit s.supply e).answer with
      | error f => exact .inr ⟨⟨f, rfl, .inr rfl⟩, holds⟩
      | ok answer => exact .inl ⟨answer, [], rfl, rfl, rfl, rfl, kept.symm ▸ holds⟩
  | true =>
      rw [edit_of_changed changed]
      have before : (s.edited e).Holds start folder s.graph := holds
      cases answered : (s.graph.edit s.supply e).answer with
      | error f =>
          exact absurd (changed.symm.trans (Graph.edit_refused placed answered).2) (by simp)
      | ok answer =>
          rcases save_cases before with ⟨⟨events, saved⟩, holds⟩ | ⟨⟨d, failed⟩, holds⟩
          · rw [saved]
            exact .inl ⟨answer, events, rfl, rfl, save_graph, save_supply, holds⟩
          · rw [failed]
            exact .inr ⟨⟨_, rfl, .inl ⟨d, rfl⟩⟩, holds⟩

/-- An edit that is assured succeeds. -/
theorem Follows.edit_assured (h : s.Follows start folder g supply) (placed : g.Placed)
    (typed : e.Typed) (assured : g.Assures supply e) :
    ∃ answer events, (s.edit e).2 = .ok (answer, events) ∧ (g.edit supply e).answer = .ok answer ∧
      (s.edit e).1.Follows start folder (g.edit supply e).graph (g.edit supply e).supply := by
  refine (h.edit_cases placed).resolve_right ?_
  rintro ⟨⟨f, failed, -⟩, -⟩
  obtain ⟨rfl, rfl, holds⟩ := h
  obtain ⟨⟨answer, answered⟩, short⟩ := assured
  cases changed : (s.graph.edit s.supply e).changed with
  | false =>
      rw [edit] at failed
      simp [changed, answered, Except.map] at failed
  | true =>
      have before : (s.edited e).Holds start folder s.graph := holds
      obtain ⟨events, saved⟩ := save_assured before (placed.edit typed s.supply) short
      rw [edit_of_changed changed, saved, answered] at failed
      cases failed

end Session

namespace Command

/-- The edits that give a new node its text, where the node is told by the answer to making it. -/
def textEdits (text : Option String) : Except Failure EditAnswer → List Edit
  | .ok (.node n) =>
    (text.map fun text => .updateData n.id [(textField n.kind, .str text)]).toList
  | _ => []

/-- The edits that a command asks for, on a graph and with a supply of ids. -/
def EditCommand.edits (g : Graph) (supply : IdSupply) : EditCommand → List Edit
  | .addNode kind id x y text =>
    let create : Edit :=
      .createNode (.str kind) (.coordinates [.float x, .float y]) (Json.ofText? id)
    create :: textEdits text (g.edit supply create).answer
  | .connect source target branch =>
    match g.node? source, g.node? target with
    | some s, some t =>
      match sourcePort s.kind branch, targetPort t.kind with
      | some sourcePort, some targetPort =>
        .connect source sourcePort.name target targetPort.name ::
          if s.isResult then [.syncPreferred source] else []
      | _, _ => []
    | _, _ => []
  | .disconnect source target =>
    (((g.edgesFrom source none).filter (·.target == target)).map (·.id)).map .disconnect
  | .removeNode id => [.deleteNode id]
  | .setField id field value =>
    match g.node? id with
    | some n =>
      ((fieldUpdate n field value).map fun fields => [.updateData id fields]).toOption.getD []
    | none => []
  | .addExecutor result type value key =>
    match ExecutorType.ofJson? (.str type) with
    | some known =>
      ((executorValue known value key).map fun value => [.addExecutor result (.str type) value])
        |>.toOption.getD []
    | none => []

/-- Whether a line that is no error tells why a command ends early. -/
def EditCommand.Aside : EditCommand → Printed → Prop
  | .disconnect source target, p =>
    p = .line ("[yellow]No edge from " ++ source ++ " to " ++ target ++ "[/yellow]")
  | _, _ => False

/-- What a command may say of its success. -/
def EditCommand.Announces : EditCommand → String → Prop
  | .addNode _ _ _ _ _, text =>
    ∃ n : Node, text = "Added " ++ n.kind.word ++ " node [bold]" ++ n.id ++ "[/bold]"
  | .connect source target _, text => ∃ output input : Port,
    text = "Connected " ++ source ++ "." ++ output.name ++ " → " ++ target ++ "." ++ input.name
  | .disconnect _ _, text => ∃ n, text = "Removed " ++ Text.ofNat n ++ " edge(s)"
  | .removeNode id, text => ∃ n, text = "Removed " ++ id ++ " and " ++ Text.ofNat n ++ " edge(s)"
  | .setField id field value, text => text = id ++ "." ++ field ++ " = " ++ value
  | .addExecutor result _ _ _, text =>
    ∃ type : ExecutorType, text = "Added " ++ type.word ++ " executor to " ++ result

/-- Whether a line reports that a command has succeeded. -/
def EditCommand.Succeeds (c : EditCommand) (p : Printed) : Prop :=
  ∃ text, c.Announces text ∧ p = successLine text

/-- The failures of a command that it does not report. -/
def EditCommand.Misuses (g : Graph) : EditCommand → Failure → Prop
  | .setField id field _, f => ∃ n, g.node? id = some n ∧ Misuse n field f
  | _, _ => False

/-- Whether something that is said tells why a command ends early. -/
def Tells (aside : Printed → Prop) (p : Printed) : Prop := (∃ text, p = errorLine text) ∨ aside p

/-- Whether it is accounted for that a piece of work ends early: something is said that tells why,
or a failure is let through. -/
def Obstacle.Accounts (aside : Printed → Prop) (escapes : Failure → Prop) : Obstacle → Prop
  | .told p => Tells aside p
  | .failed f => escapes f

namespace Work

variable {P Q : Session → Prop} {early : Obstacle → Desk → Prop} {α : Type} {aside : Printed → Prop}
  {escapes : Failure → Prop}

/-- Whether a piece of work that ends early accounts for it and leaves a session as it should be. -/
def Halts (aside : Printed → Prop) (escapes : Failure → Prop) (Q : Session → Prop)
    (obstacle : Obstacle) (d : Desk) : Prop :=
  obstacle.Accounts aside escapes ∧ Q d.session

theorem report_ends {events : List Log.Event} :
    Ends (fun d => P d.session) (report events) (fun _ d => P d.session) early :=
  Ends.change fun _ holds => holds

theorem refuse_ends {text : String} {after : α → Desk → Prop} (holds : ∀ s, P s → Q s) :
    Ends (fun d => P d.session) (refuse text) after (Halts aside escapes Q) :=
  .stop fun d known => ⟨.inl ⟨text, rfl⟩, holds d.session known⟩

theorem fail_ends {f : Failure} {after : α → Desk → Prop}
    (known : isReported f = true ∨ escapes f) (holds : ∀ s, P s → Q s) :
    Ends (fun d => P d.session) (fail f) after (Halts aside escapes Q) := by
  rw [fail]
  split
  next => exact refuse_ends holds
  next silent => exact .stop fun d there => ⟨known.resolve_left silent, holds d.session there⟩

theorem ofExcept_ends {r : Except Failure α}
    (known : ∀ f, r = .error f → isReported f = true ∨ escapes f) (holds : ∀ s, P s → Q s) :
    Ends (fun d => P d.session) (ofExcept r) (fun a d => r = .ok a ∧ P d.session)
      (Halts aside escapes Q) := by
  cases r with
  | ok a => exact .answer fun _ there => ⟨rfl, there⟩
  | error f => exact fail_ends (known f rfl) holds

/-- The node is found in the graph that the session has. -/
theorem node_ends {id context : String} :
    Ends (fun d => d.session.Follows start folder g supply) (node id context)
      (fun n d => g.node? id = some n ∧ d.session.Follows start folder g supply)
      (Halts aside escapes (·.Holds start folder g)) := by
  refine .reading fun d follows => ?_
  have looked : Ends (fun d => d.session.Follows start folder g supply)
      (ofExcept (d.session.graph.require id context)) _ (Halts aside escapes _) :=
    ofExcept_ends (fun f failed => .inl (reports_require f failed)) fun _ follows => follows.holds
  refine looked.ending ?_
  rintro n _ ⟨found, still⟩
  exact ⟨Graph.require_eq_ok.mp (follows.graph ▸ found), still⟩

variable {e : Edit}

/-- An edit that succeeds in the session answers what it answers there. -/
theorem edit_answers {d : Desk} {answer : EditAnswer} {events : List Log.Event}
    {after : EditAnswer → Desk → Prop} (done : (d.session.edit e).2 = .ok (answer, events))
    (holds : ∀ t, t.session = (d.session.edit e).1 → after answer t) :
    Ends (· = d) (edit e) after early := by
  refine .read fun _ same => ?_
  subst same
  rcases run : Session.edit _ e with ⟨session, r⟩
  simp only [run] at done holds
  subst done
  rintro _ rfl
  exact holds _ rfl

/-- An edit that fails in the session ends early. -/
theorem edit_fails {d : Desk} {f : Failure} {after : EditAnswer → Desk → Prop}
    (failed : (d.session.edit e).2 = .error f) (known : isReported f = true ∨ escapes f)
    (holds : Q (d.session.edit e).1) : Ends (· = d) (edit e) after (Halts aside escapes Q) := by
  refine .read fun _ same => ?_
  subst same
  rcases run : Session.edit _ e with ⟨session, r⟩
  simp only [run] at failed holds
  subst failed
  have left : Ends (fun t : Desk => t.session = session)
      (ofExcept (.error f) : Work (EditAnswer × List Log.Event)) (fun _ _ => False)
      (Halts aside escapes Q) := fail_ends (P := (· = session)) known fun _ same => same ▸ holds
  exact .bind (.write fun _ _ => rfl) fun _ => left.halt

/-- An edit leads on to the graph after it, or ends early with the draft as it was. -/
theorem edit_ends (placed : g.Placed)
    (known : ∀ f, (g.edit supply e).answer = .error f → isReported f = true ∨ escapes f) :
    Ends (fun d => d.session.Follows start folder g supply) (edit e)
      (fun answer d => (g.edit supply e).answer = .ok answer ∧
        d.session.Follows start folder (g.edit supply e).graph (g.edit supply e).supply)
      (Halts aside escapes (·.Holds start folder g)) := by
  intro d follows
  obtain ⟨answer, events, done, answered, follows⟩ | ⟨⟨f, failed, cause⟩, holds⟩ :=
    follows.edit_cases (e := e) placed
  · exact edit_answers done (fun t same => ⟨answered, same ▸ follows⟩) d rfl
  · have known : isReported f = true ∨ escapes f := by
      obtain ⟨d, rfl⟩ | refused := cause
      · exact .inl rfl
      · exact known f refused
    exact edit_fails (Q := (·.Holds start folder g)) failed known holds d rfl

/-- An edit that is assured leads on to the graph after it. -/
theorem edit_leads (placed : g.Placed) (typed : e.Typed) (assured : g.Assures supply e) :
    Ends (fun d => d.session.Follows start folder g supply) (edit e)
      (fun answer d => (g.edit supply e).answer = .ok answer ∧
        d.session.Follows start folder (g.edit supply e).graph (g.edit supply e).supply)
      early := by
  intro d follows
  obtain ⟨answer, events, done, answered, follows⟩ := follows.edit_assured placed typed assured
  exact edit_answers done (fun t same => ⟨answered, same ▸ follows⟩) d rfl

/-- Whether the session on a desk follows a graph, whatever is left of the supply. -/
def At (start : FileTree) (folder : Path) (g : Graph) (d : Desk) : Prop :=
  ∃ supply, d.session.Follows start folder g supply

/-- A command may end by announcing its success. -/
theorem announce_ends {c : EditCommand} {text : String} (announces : c.Announces text) :
    Ends (fun d => d.session.Follows start folder g supply) (pure text : Work String)
      (fun said d => c.Announces said ∧ At start folder g d) early :=
  .answer fun _ follows => ⟨announces, supply, follows⟩

/-- The answer to deleting a node tells the edges that go with it. -/
theorem edges_of_answer {id : String} {answer : EditAnswer}
    (answered : (g.edit supply (.deleteNode id)).answer = .ok answer) :
    ∃ removed, answer = .edges removed := by
  rw [Graph.edit] at answered
  cases deleted : g.deleteNode id with
  | error f =>
      rw [deleted] at answered
      cases answered
  | ok done =>
      rw [deleted] at answered
      cases answered
      exact ⟨_, rfl⟩

theorem removeNode_ends (placed : g.Placed) {id : String} :
    Ends (fun d => d.session.Follows start folder g supply) (removeNode id)
      (fun text d => (EditCommand.removeNode id).Announces text ∧
        At start folder (g.after supply [.deleteNode id]) d)
      (Halts aside escapes (·.Holds start folder g)) := by
  refine .bind (edit_ends placed fun f failed =>
    .inl (reports_deleteNode.map f (error_of_settled failed))) fun answer =>
      .known fun answered => ?_
  obtain ⟨removed, rfl⟩ := edges_of_answer answered
  exact .bind report_ends fun _ => announce_ends ⟨_, rfl⟩

theorem setField_ends (placed : g.Placed) {id field value : String}
    (misuses : ∀ n f, g.node? id = some n → Misuse n field f → escapes f) :
    Ends (fun d => d.session.Follows start folder g supply) (setField id field value)
      (fun text d => (EditCommand.setField id field value).Announces text ∧ At start folder
        (g.after supply ((EditCommand.setField id field value).edits g supply)) d)
      (Halts aside escapes (·.Holds start folder g)) := by
  refine .bind node_ends fun n => .known fun found => ?_
  have reports {f : Failure} (cause : isReported f = true ∨ Misuse n field f) :
      isReported f = true ∨ escapes f := cause.imp_right (misuses n f found)
  refine .bind (ofExcept_ends (fun f failed => reports (fieldUpdate_eq_error failed))
    fun _ follows => follows.holds) fun fields => .known fun update => ?_
  have edits : (EditCommand.setField id field value).edits g supply = [.updateData id fields] := by
    simp only [EditCommand.edits, found, update]
    rfl
  rw [edits]
  refine .bind (edit_ends placed fun f failed => ?_) fun answer => .known fun _ =>
    announce_ends rfl
  exact reports (updateData_eq_error update (map_eq_error.mp (error_of_settled failed)))

theorem addExecutor_ends (placed : g.Placed) {result type value : String} {key : Option String} :
    Ends (fun d => d.session.Follows start folder g supply) (addExecutor result type value key)
      (fun text d => (EditCommand.addExecutor result type value key).Announces text ∧
        At start folder
          (g.after supply ((EditCommand.addExecutor result type value key).edits g supply)) d)
      (Halts aside escapes (·.Holds start folder g)) := by
  rw [addExecutor]
  cases found : ExecutorType.ofJson? (.str type) with
  | none => exact fail_ends (.inl rfl) fun _ follows => follows.holds
  | some known =>
      refine .bind (ofExcept_ends (fun f failed => .inl (reports_executorValue f failed))
        fun _ follows => follows.holds) fun read => .known fun spelled => ?_
      have edits : (EditCommand.addExecutor result type value key).edits g supply =
          [.addExecutor result (.str type) read] := by
        simp only [EditCommand.edits, found, spelled]
        rfl
      rw [edits]
      exact .bind (edit_ends placed fun f failed =>
        .inl (reports_addExecutor.map f (error_of_settled failed))) fun answer =>
          .known fun _ => announce_ends ⟨known, rfl⟩

/-- Edges are removed one after the other, and none of that fails. -/
theorem removeEdges_ends {ids : List String} (placed : g.Placed) :
    Ends (fun d => d.session.Follows start folder g supply) (removeEdges ids)
      (fun _ d => ∃ left,
        d.session.Follows start folder (g.after supply (ids.map .disconnect)) left) early := by
  induction ids generalizing g supply with
  | nil => exact .answer fun _ follows => ⟨supply, follows⟩
  | cons id ids ih =>
      refine .since (fun d follows => follows.short placed) fun short => ?_
      have typed : (Edit.disconnect id).Typed := trivial
      refine .bind (edit_leads placed typed (Graph.assures_disconnect short)) fun answer =>
        .known fun _ => ih (placed.edit typed supply)

theorem disconnect_ends (placed : g.Placed) {source target : String} :
    Ends (fun d => d.session.Follows start folder g supply) (disconnect source target)
      (fun text d => (EditCommand.disconnect source target).Announces text ∧ At start folder
        (g.after supply ((EditCommand.disconnect source target).edits g supply)) d)
      (Halts (EditCommand.disconnect source target).Aside escapes (·.Holds start folder g)) := by
  refine .reading fun d follows => ?_
  rw [follows.graph]
  dsimp only
  split
  next => exact .stop fun d follows => ⟨.inr rfl, follows.holds⟩
  next =>
    exact .bind (removeEdges_ends placed) fun _ => .answer fun _ follows => ⟨⟨_, rfl⟩, follows⟩

/-- A connection leaves the nodes as they are. -/
theorem node?_connect {source sourceHandle target targetHandle id : String} :
    (g.edit supply (.connect source sourceHandle target targetHandle)).graph.node? id =
      g.node? id := by
  rw [Graph.edit]
  cases connected : g.connect source sourceHandle target targetHandle with
  | error _ => rfl
  | ok done =>
      obtain ⟨_ | g', edge⟩ := done
      · rfl
      · obtain ⟨-, -, -, -, rfl⟩ := Graph.connect_eq_ok connected
        rfl

/-- What is reported of a connection changes nothing. -/
theorem tell_ends {answer : EditAnswer} {events : Edge → List Log.Event} {text : String} :
    Ends (fun d => d.session.Follows start folder g supply)
      (match answer with
        | .edge e => do
          report (events e)
          pure text
        | _ => pure text : Work String)
      (fun said d => said = text ∧ At start folder g d) early := by
  split
  next => exact .bind report_ends fun _ => .answer fun _ follows => ⟨rfl, supply, follows⟩
  next => exact .answer fun _ follows => ⟨rfl, supply, follows⟩

theorem connect_ends (placed : g.Placed) {source target : String} {branch : Option Bool} :
    Ends (fun d => d.session.Follows start folder g supply) (connect source target branch)
      (fun text d => (EditCommand.connect source target branch).Announces text ∧ At start folder
        (g.after supply ((EditCommand.connect source target branch).edits g supply)) d)
      (Halts aside escapes (·.Holds start folder g)) := by
  refine .bind node_ends fun s => .known fun leaves => ?_
  refine .bind node_ends fun t => .known fun reaches => ?_
  cases outputs : sourcePort s.kind branch with
  | none => exact refuse_ends fun _ follows => follows.holds
  | some output =>
      cases inputs : targetPort t.kind with
      | none => exact refuse_ends fun _ follows => follows.holds
      | some input =>
          let link : Edit := .connect source output.name target input.name
          have edits : (EditCommand.connect source target branch).edits g supply =
              link :: if s.isResult then [.syncPreferred source] else [] := by
            simp only [EditCommand.edits, leaves, reaches, outputs, inputs, link]
          have typed : link.Typed := trivial
          rw [edits]
          refine .bind (edit_ends placed fun f failed =>
            .inl (reports_connect.map f (error_of_settled failed))) fun answer => .known fun _ => ?_
          dsimp only
          split
          next isResult =>
            obtain ⟨data, result⟩ := Node.result_of_isResult isResult
            refine .since (fun d follows => follows.short (placed.edit typed supply))
              fun short => ?_
            have assured := Graph.assures_syncPreferred (s := (g.edit supply link).supply) short
              (node?_connect.trans leaves) result
            exact .bind (edit_leads (placed.edit typed supply) trivial assured) fun _ =>
              .known fun _ => tell_ends.ending fun _ _ told => ⟨⟨output, input, told.1⟩, told.2⟩
          next => exact tell_ends.ending fun _ _ told => ⟨⟨output, input, told.1⟩, told.2⟩

/-- The answer to making a node tells the node. -/
theorem createNode_of_answer {kind id : Json} {place : PlaceArgument} {n : Node}
    (answered : (g.edit supply (.createNode kind place id)).answer = .ok (.node n)) :
    (g.createNode kind place id supply).1 =
      .ok ((g.edit supply (.createNode kind place id)).graph, n) := by
  rw [Graph.edit] at answered ⊢
  rcases made : g.createNode kind place id supply with ⟨_ | ⟨g', m⟩, left⟩
  · rw [made] at answered
    cases answered
  · rw [made] at answered
    cases answered
    rfl

theorem node_of_answer {kind id : Json} {place : PlaceArgument} {answer : EditAnswer}
    (answered : (g.edit supply (.createNode kind place id)).answer = .ok answer) :
    ∃ n, answer = .node n := by
  rw [Graph.edit] at answered
  rcases made : g.createNode kind place id supply with ⟨_ | _, left⟩
  · rw [made] at answered
    cases answered
  · rw [made] at answered
    cases answered
    exact ⟨_, rfl⟩

theorem createNode_of_refusal {kind id : Json} {place : PlaceArgument} {f : Failure}
    (failed : (g.edit supply (.createNode kind place id)).answer = .error f) :
    (g.createNode kind place id supply).1 = .error f := by
  rw [Graph.edit] at failed
  rcases made : g.createNode kind place id supply with ⟨r, left⟩
  rw [made] at failed
  exact map_eq_error.mp (error_of_settled failed)

/-- The text of a node that was just made is set. -/
theorem assures_text_of_create {kind id : Json} {place : PlaceArgument} {n : Node} {s : IdSupply}
    (answered : (g.edit supply (.createNode kind place id)).answer = .ok (.node n))
    (short : (g.edit supply (.createNode kind place id)).graph.Short) (text : String) :
    (g.edit supply (.createNode kind place id)).graph.Assures s
      (.updateData n.id [(textField n.kind, .str text)]) := by
  have made := createNode_of_answer answered
  obtain ⟨free, standard, -, -, -, new⟩ := Graph.createNode_eq_ok made
  refine Graph.assures_text short ?_ free standard text
  rw [new, Graph.node?_put, if_pos rfl]

theorem addNode_ends (placed : g.Placed) {kind : String} {id text : Option String}
    {x y : Binary64} :
    Ends (fun d => d.session.Follows start folder g supply) (addNode kind id x y text)
      (fun said d => (EditCommand.addNode kind id x y text).Announces said ∧ At start folder
        (g.after supply ((EditCommand.addNode kind id x y text).edits g supply)) d)
      (Halts aside escapes (·.Holds start folder g)) := by
  let create : Edit := .createNode (.str kind) (.coordinates [.float x, .float y]) (Json.ofText? id)
  have typed : create.Typed := trivial
  refine .bind (edit_ends placed fun f failed =>
    .inl (reports_createNode f (createNode_of_refusal failed))) fun answer =>
      .known fun answered => ?_
  have edits : (EditCommand.addNode kind id x y text).edits g supply =
      create :: textEdits text (.ok answer) := by
    rw [EditCommand.edits, answered]
  rw [edits]
  obtain ⟨n, rfl⟩ := node_of_answer answered
  cases text with
  | none => exact .bind report_ends fun _ => announce_ends ⟨n, rfl⟩
  | some text =>
      refine .since (fun d follows => follows.short (placed.edit typed supply)) fun short => ?_
      have assured := assures_text_of_create
        (s := (g.edit supply create).supply) answered short text
      exact .bind (edit_leads (placed.edit typed supply) trivial assured) fun _ =>
        .known fun _ => .bind report_ends fun _ => announce_ends ⟨n, rfl⟩

end Work

/-- A command leads on to the graph after the edits that it asks for, or ends early with the draft
as it was and accounts for that. -/
theorem EditCommand.work_ends (placed : g.Placed) (c : EditCommand) :
    Ends (fun d => d.session.Follows start folder g supply) c.work
      (fun text d => c.Announces text ∧
        Work.At start folder (g.after supply (c.edits g supply)) d)
      (Work.Halts c.Aside (c.Misuses g) (·.Holds start folder g)) := by
  cases c with
  | addNode => exact Work.addNode_ends placed
  | connect => exact Work.connect_ends placed
  | disconnect => exact Work.disconnect_ends placed
  | removeNode => exact Work.removeNode_ends placed
  | setField => exact Work.setField_ends placed fun n f found misuse => ⟨n, found, misuse⟩
  | addExecutor => exact Work.addExecutor_ends placed

/-- Where the edits depend on a reading, they are those of what is read. -/
theorem exists_of_mem_toOption {α : Type} {r : Except Failure α} {edits : α → List Edit} {e : Edit}
    (member : e ∈ (r.map edits).toOption.getD []) : ∃ a, r = .ok a ∧ e ∈ edits a := by
  cases r with
  | error _ => cases member
  | ok a => exact ⟨a, rfl, member⟩

/-- The edits that a command asks for have arguments of the declared types, and none is a copy. -/
theorem EditCommand.edits_plain (c : EditCommand) :
    ∀ e ∈ c.edits g supply, e.Typed ∧ ¬ e.Copies := by
  intro e member
  cases c with
  | addNode kind id x y text =>
      rcases List.mem_cons.mp member with rfl | member
      · exact ⟨trivial, not_false⟩
      · unfold textEdits at member
        split at member
        next =>
          obtain ⟨_, -, rfl⟩ := Option.map_eq_some_iff.mp (Option.mem_toList.mp member)
          exact ⟨trivial, not_false⟩
        next => cases member
  | connect source target branch =>
      rw [edits] at member
      split at member
      next =>
        split at member
        next =>
          rcases List.mem_cons.mp member with rfl | member
          · exact ⟨trivial, not_false⟩
          · split at member
            next =>
              rw [List.mem_singleton.mp member]
              exact ⟨trivial, not_false⟩
            next => cases member
        next => cases member
      next => cases member
  | disconnect source target =>
      obtain ⟨_, -, rfl⟩ := List.mem_map.mp member
      exact ⟨trivial, not_false⟩
  | removeNode id =>
      rw [List.mem_singleton.mp member]
      exact ⟨trivial, not_false⟩
  | setField id field value =>
      rw [edits] at member
      split at member
      next n _ =>
        obtain ⟨fields, -, member⟩ := exists_of_mem_toOption member
        rw [List.mem_singleton.mp member]
        exact ⟨trivial, not_false⟩
      next => cases member
  | addExecutor result type value key =>
      rw [edits] at member
      split at member
      next known _ =>
        obtain ⟨v, -, member⟩ := exists_of_mem_toOption member
        rw [List.mem_singleton.mp member]
        exact ⟨trivial, not_false⟩
      next => cases member

end Command

end Parley
