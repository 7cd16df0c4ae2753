import Parley.Proofs.Command.Success
import Parley.Proofs.Graph.Payload

/-!
# Setting a field

A command that sets a field names a place in the data of a node: a field, a part of the close
setting, or the side of a port.  Where the command succeeds, the value of the place is what the text
stands for, as it is read there, and all else is as it was.  There is one exception: a port that the
node does not have.  Its side is set without an error, and nothing changes.
-/

namespace Parley

open Project (draftPath)

/-- A place in the data of a node: a field, or a part of one. -/
inductive Slot where
  | field (key : String)
  | part (key name : String)

namespace Slot

/-- The value at a place, if the place is there. -/
def get? (fields : Fields) : Slot → Option Json
  | .field key => fields.get? key
  | .part key name =>
    match fields.get? key with
    | some (.obj parts) => Fields.get? parts name
    | _ => none

/-- The data with another value at a place. -/
def put (fields : Fields) (v : Json) : Slot → Fields
  | .field key => fields.put key v
  | .part key name =>
    match fields.get? key with
    | some (.obj parts) => fields.put key (.obj (Fields.put name v parts))
    | _ => fields

/-- What a value is read as at a place in the data of nodes of a kind. -/
def reading (kind : Kind) (v : Json) : Slot → Checked Json
  | .field key => Payload.reading kind key v
  | .part key name => Payload.partReading key name v

/-- The place that a command to set a field names. -/
def ofField (field : String) : Slot :=
  match Command.sideField? field with
  | some port => .part "handle" port
  | none =>
    match field with
    | "close" => .part "close" "enabled"
    | "close.enabled" => .part "close" "enabled"
    | "close.delay" => .part "close" "delay"
    | field => .field field

/-- The value that a text stands for at a place. -/
def given (text : String) : Slot → Except DigitLimit Json
  | .part "close" _ => (Scalar.parse text).map Scalar.toJson
  | .field "objective" => (Scalar.parse text).map Scalar.toJson
  | .field "preferred" => .ok (if text == "null" then .null else .str text)
  | .field "order" => .ok (Json.ofTexts (Command.listed text))
  | _ => .ok (.str text)

/-- A field that is neither a part of another one nor the close setting is named by itself. -/
theorem ofField_of_other {field : String} (side : Command.sideField? field = none)
    (other : field ∉ Command.closeFields) : ofField field = .field field := by
  simp only [ofField, side]
  split <;> simp_all [Command.closeFields]

/-- Whether new data of a node have a value at a place, which is there and for which a text stands,
and are as they were everywhere else. -/
structure Sets (slot : Slot) (text : String) (n : Node) (payload : Payload) (w : Json) : Prop where
  converted : ∃ v, slot.given text = .ok v ∧ slot.reading n.kind v = .ok w
  there : slot.get? n.payload.fields ≠ none
  holds : slot.get? payload.fields = some w
  kind : payload.kind = n.kind
  others : payload.fields = slot.put n.payload.fields w

variable {slot : Slot} {text : String} {n : Node} {payload : Payload} {fields : Fields} {v w : Json}

/-- A place that is there has the value that was put there. -/
theorem get?_put (there : slot.get? fields ≠ none) : slot.get? (slot.put fields v) = some v := by
  cases slot with
  | field key => exact Fields.get?_put_self _ key v
  | part key name =>
      simp only [get?] at there
      split at there
      next parts found => simp only [get?, put, found, Fields.get?_put_self]
      next => exact absurd rfl there

theorem Sets.of_put (converted : ∃ v, slot.given text = .ok v ∧ slot.reading n.kind v = .ok w)
    (there : slot.get? n.payload.fields ≠ none) (kind : payload.kind = n.kind)
    (others : payload.fields = slot.put n.payload.fields w) : slot.Sets text n payload w :=
  ⟨converted, there, by rw [others, get?_put there], kind, others⟩

end Slot

namespace Command

variable {start : FileTree} {folder : Path} {g g' : Graph} {supply : IdSupply} {n m : Node}
  {id field text : String} {fields : Fields}

/-- Whether fields of the data of a node set a place in them to a value: a field, or the one that a
part of a close setting or the side of a port is of, with its other parts. -/
inductive Puts (n : Node) (v : Json) : Slot → Fields → Prop where
  | field (key : String) : Puts n v (.field key) [(key, v)]
  | part {key name : String} {parts : Fields}
      (listed : key = "close" ∧ name ∈ ["enabled", "delay"] ∨ key = "handle")
      (whole : n.payload.fields.get? key = some (.obj parts)) :
      Puts n v (.part key name) [(key, .obj (Fields.put name v parts))]

theorem dataPart_eq_ok {key : String} {parts : Fields} (found : dataPart n key = .ok parts) :
    n.payload.fields.get? key = some (.obj parts) := by
  unfold dataPart at found
  split at found
  next there =>
    cases found
    exact there
  next => cases found

theorem closeUpdate_eq_ok {name : String} (listed : name ∈ ["enabled", "delay"])
    (made : closeUpdate n name text = .ok fields) :
    ∃ v, (Slot.part "close" name).given text = .ok v ∧ Puts n v (.part "close" name) fields := by
  obtain ⟨parts, found, made⟩ := bind_eq_ok.mp made
  obtain ⟨scalar, read, made⟩ := bind_eq_ok.mp made
  cases made
  exact ⟨_, map_eq_ok.mpr ⟨scalar, mapError_eq_ok.mp read, rfl⟩,
    .part (.inl ⟨rfl, listed⟩) (dataPart_eq_ok found)⟩

/-- The fields that a command asks for set the place that it names to what its text stands for. -/
theorem puts_of_fieldUpdate (updates : fieldUpdate n field text = .ok fields) :
    ∃ v, (Slot.ofField field).given text = .ok v ∧ Puts n v (Slot.ofField field) fields := by
  cases side : sideField? field with
  | some port =>
      simp only [fieldUpdate, side] at updates
      simp only [Slot.ofField, side]
      obtain ⟨parts, found, rfl⟩ := map_eq_ok.mp updates
      exact ⟨_, rfl, .part (.inr rfl) (dataPart_eq_ok found)⟩
  | none =>
      simp only [fieldUpdate, side] at updates
      split at updates
      next => exact closeUpdate_eq_ok (by decide) updates
      next => exact closeUpdate_eq_ok (by decide) updates
      next => exact closeUpdate_eq_ok (by decide) updates
      next =>
        obtain ⟨scalar, read, rfl⟩ := map_eq_ok.mp updates
        exact ⟨_, map_eq_ok.mpr ⟨scalar, mapError_eq_ok.mp read, rfl⟩, .field _⟩
      next =>
        cases updates
        exact ⟨_, rfl, .field _⟩
      next =>
        cases updates
        exact ⟨_, rfl, .field _⟩
      next close enabled delay objective preferred order =>
        cases updates
        have others : field ∉ closeFields := by simp_all [closeFields]
        rw [Slot.ofField_of_other side others]
        refine ⟨.str text, ?_, .field field⟩
        unfold Slot.given
        split <;> simp_all

/-- The sides of ports are named with their ports. -/
theorem side_of_ofField {port : String} (named : Slot.ofField field = .part "handle" port) :
    (sideField? field).isSome = true := by
  cases side : sideField? field with
  | some port => rfl
  | none =>
      simp only [Slot.ofField, side] at named
      split at named <;> simp at named

/-- Every close setting has its two parts. -/
theorem part_of_close {name : String} {parts : Fields} (free : n.payload.kind ≠ .entry)
    (whole : n.payload.fields.get? "close" = some (.obj parts))
    (listed : name ∈ ["enabled", "delay"]) :
    Fields.get? parts name ≠ none := by
  have self := Payload.settles_self free _ _ _ whole whole
  obtain ⟨_, same, keys, -⟩ := Payload.settles_part free (by decide) self
  cases same
  rw [ne_eq, Fields.get?_eq_none_iff, keys]
  exact not_not_intro listed

/-- Data that are made up of fields that set a place have its value, or the place is the side of a
port that is not there and the data stay as they are. -/
theorem Puts.sets {slot : Slot} {v : Json} {payload : Payload} (puts : Puts n v slot fields)
    (given : slot.given text = .ok v) (free : n.payload.kind ≠ .entry)
    (made : Graph.updatePayload n.payload fields = .ok payload) :
    (∃ w, slot.Sets text n payload w) ∨ (∃ port, slot = .part "handle" port) ∧
      slot.get? n.payload.fields = none ∧ payload = n.payload := by
  have kind := Graph.updatePayload_kind made
  cases puts with
  | field key =>
      obtain ⟨u, w, held, read, fields⟩ := Graph.updatePayload_field free made
      exact .inl ⟨w, .of_put ⟨v, given, read⟩ (by simp [Slot.get?, held]) kind fields⟩
  | @part key name parts listed whole =>
      have parted : key ∈ ["close", "handle"] := by
        obtain ⟨rfl, -⟩ | rfl := listed <;> decide
      obtain ⟨absent, rfl⟩ | ⟨u, w, held, read, fields⟩ :=
        Graph.updatePayload_part free parted whole made
      · obtain ⟨rfl, listed⟩ | rfl := listed
        · exact absurd absent (part_of_close free whole listed)
        · exact .inr ⟨⟨name, rfl⟩, by simp only [Slot.get?, whole, absent], rfl⟩
      · refine .inl ⟨w, .of_put ⟨v, given, read⟩ ?_ kind ?_⟩
        · simp [Slot.get?, whole, held]
        · simp only [Slot.put, whole, fields]

/-- Whether a command to set a field finds what it needs and leads from one graph to another. -/
def Updates (g : Graph) (id field text : String) (g' : Graph) : Prop :=
  ∃ n fields m, g.node? id = some n ∧ fieldUpdate n field text = .ok fields ∧
    g.updateData id fields = .ok (g', m)

/-- A place of the data of a node is set, or it is the side of a port that the node does not have
and nothing changes. -/
theorem Updates.sets (h : Updates g id field text g') (distinct : g.ids.Nodup) :
    ∃ n, g.node? id = some n ∧
      ((∃ payload w, (Slot.ofField field).Sets text n payload w ∧
          g' = { g with
            nodes := g.nodes.map fun k => if k.id = id then { n with payload } else k }) ∨
        (sideField? field).isSome = true ∧ (Slot.ofField field).get? n.payload.fields = none ∧
          g' = g) := by
  obtain ⟨n, fields, _, found, updates, updated⟩ := h
  obtain ⟨n', payload, there, free, made, rfl, rfl⟩ := Graph.updateData_eq_ok updated
  cases found.symm.trans there
  have free : n.payload.kind ≠ .entry := by simpa [Node.isEntry, Node.kind] using free
  have same : n.id = id := Graph.node?_id found
  have moved : g.put { n with payload } = _ := Graph.put_of_node? found same
  obtain ⟨v, given, puts⟩ := puts_of_fieldUpdate updates
  refine ⟨n, found, ?_⟩
  obtain ⟨w, sets⟩ | ⟨⟨port, named⟩, absent, rfl⟩ := puts.sets given free made
  · exact .inl ⟨payload, w, sets, moved⟩
  · exact .inr ⟨side_of_ofField named, absent, Graph.put_eq_self distinct (Graph.node?_mem found)⟩

/-- The edits of a command to set a field lead to the graph that it updates. -/
theorem Updates.after (h : Updates g id field text g') :
    g.after supply ((EditCommand.setField id field text).edits g supply) = g' := by
  obtain ⟨n, fields, m, found, update, updated⟩ := h
  have edits : (EditCommand.setField id field text).edits g supply = [.updateData id fields] := by
    simp only [EditCommand.edits, found, update]
    rfl
  rw [edits, Graph.after, Graph.after, Graph.edit, updated]
  rfl

/-- A command to set a field succeeds only if it finds what it needs. -/
theorem setField_demands (proper : g.Proper) :
    (EditCommand.setField id field text).Demands g supply (∃ g', Updates g id field text g') := by
  intro start folder
  have placed : g.Placed := proper.entered.placed
  have work : Ends (fun d => d.session.Follows start folder g supply)
      (Work.setField id field text) (fun _ _ => ∃ g', Updates g id field text g')
      (Work.Halts (fun _ => False) (fun _ => True) (·.Holds start folder g)) := by
    refine .bind Work.node_ends fun n => .known fun found => ?_
    refine .bind (Work.ofExcept_ends (fun _ _ => .inr trivial) fun _ follows => follows.holds)
      fun fields => .known fun update => ?_
    refine .bind (Work.edit_ends placed fun _ _ => .inr trivial) fun answer =>
      .known fun answered => ?_
    obtain ⟨⟨g', m⟩, updated⟩ : ∃ made, g.updateData id fields = .ok made := by
      rw [Graph.edit] at answered
      cases updated : g.updateData id fields with
      | error f => rw [updated] at answered; cases answered
      | ok made => exact ⟨made, rfl⟩
    exact .answer fun _ _ => ⟨g', n, fields, m, found, update, updated⟩
  exact work.stopping fun _ _ _ => trivial

/-- A command to set a field succeeds if it leads to a graph that can be written. -/
theorem setField_assured (placed : g.Placed) (h : Updates g id field text g') (short : g'.Short) :
    (EditCommand.setField id field text).Assured g supply
      (id ++ "." ++ field ++ " = " ++ text) := by
  obtain ⟨n, fields, m, found, update, updated⟩ := h
  intro start folder
  have assured : g.Assures supply (.updateData id fields) := by
    rw [Graph.Assures, Graph.edit, updated]
    exact ⟨⟨_, rfl⟩, short⟩
  refine .bind (Work.node_found found) fun k => .known fun same => ?_
  subst same
  refine .bind (Work.ofExcept_found update) fun given => .known fun same => ?_
  subst same
  exact .bind (Work.edit_leads placed trivial assured) fun _ => .answer fun _ _ => rfl

/-- Where a command line has made a project, and others have followed, a command line that sets a
field of a node and succeeds has set the place that it names to what its text stands for, as that is
read there, and all else in the graph is as it was.  If it names a port that the node does not have,
then it succeeds too, and the graph is as it was. -/
theorem setField_outcome {w : World} {create line : Line} {lines : List Line} {i j : Invocation}
    {name npc : String} {parent project : Option Path}
    (asked : Request.read create.surroundings create.args = .ok (.run i))
    (asks : i.command = .init name parent npc) (made : (create.run w).1.exitCode = 0)
    (works : line.Works (runAll (create.run w).2 lines).files
      ((parent.getD i.projects).child name))
    (read : Request.read line.surroundings line.args = .ok (.run j))
    (sets : j.command = .edit project (.setField id field text))
    (succeeds : (line.run (runAll (create.run w).2 lines)).1.exitCode = 0) :
    let folder := (parent.getD i.projects).child name
    let before := runAll (create.run w).2 lines
    let slot := Slot.ofField field
    ∃ g g' n, (DraftStore.file (draftPath folder) before.files).open? = .ok g ∧
      (DraftStore.file (draftPath folder) (line.run before).2.files).open? = .ok g' ∧
      g.node? id = some n ∧
      ((∃ payload v, slot.Sets text n payload v ∧
          g' = { g with
            nodes := g.nodes.map fun k => if k.id = id then { n with payload } else k }) ∨
        (sideField? field).isSome = true ∧ slot.get? n.payload.fields = none ∧ g' = g) := by
  intro folder before slot
  obtain ⟨g, proper, ⟨g', updates⟩, opened, left⟩ :=
    lines_succeeded asked asks made works read sets succeeds fun _ _ => setField_demands
  obtain ⟨n, found, outcome⟩ := updates.sets proper.entered.distinct
  exact ⟨g, g', n, opened, updates.after ▸ left, found, outcome⟩

namespace Demo

/-- A command line that adds an action to the project. -/
def acting : Line := ⟨none, ["add-node", "action", "--id", "bow", "-p", "demo"]⟩

/-- What that command line asks for. -/
def action : Invocation := ⟨0, false, creation.projects, .edit (some ⟨none, ["demo"]⟩)
  (.addNode "action" (some "bow") .zero .zero none)⟩

/-- The graph with that action. -/
def acted : Graph := Graph.empty.put { id := "bow", payload := .action {} }

theorem acting_asked : Request.read acting.surroundings acting.args = .ok (.run action) := rfl

theorem acted_short : acted.Short :=
  Graph.Short.put (List.forall_mem_singleton.mpr rfl) Payload.short_action

theorem acting_assured {supply : IdSupply} :
    (EditCommand.addNode "action" (some "bow") .zero .zero none).Assured .empty supply
      "Added action node [bold]bow[/bold]" :=
  addNode_assured (n := { id := "bow", payload := .action {} })
    Graph.Proper.empty.entered.placed rfl acted_short

theorem after_acting {supply : IdSupply} : Graph.empty.after supply
    ((EditCommand.addNode "action" (some "bow") .zero .zero none).edits .empty supply) =
      acted := rfl

theorem acted_proper : acted.Proper ∧
    Keeps (create.run world).2.files home acted (runAll (create.run world).2 [acting]).files := by
  have single (w : World) : runAll w [acting] = (acting.run w).2 := rfl
  rw [single]
  exact run_leads .empty (keeps_of_init asked asks made) (console_eq []) acting_asked
    acting_assured rfl after_acting

/-- A command line sets a field of the project with the action, if that is possible. -/
theorem setting_leads {line : Line} {id field text : String} {g' : Graph}
    (asked : Request.read line.surroundings line.args =
      .ok (.run ⟨0, false, creation.projects, .edit (some ⟨none, ["demo"]⟩)
        (.setField id field text)⟩))
    (updates : Updates acted id field text g') (short : g'.Short)
    (shown : Console.markup.problem? (successLine (id ++ "." ++ field ++ " = " ++ text)) = none) :
    (line.run (runAll (create.run world).2 [acting])).1.exitCode = 0 ∧
      Keeps (create.run world).2.files home g'
        (line.run (runAll (create.run world).2 [acting])).2.files := by
  obtain ⟨proper, keeps⟩ := acted_proper
  have assured {supply : IdSupply} : (EditCommand.setField id field text).Assured acted supply
      (id ++ "." ++ field ++ " = " ++ text) := setField_assured proper.entered.placed updates short
  exact ⟨run_succeeds proper keeps (console_eq _) asked assured shown,
    (run_leads proper keeps (console_eq _) asked assured shown updates.after).2⟩

/-- A command line that sets the label of the action. -/
def labelling : Line := ⟨none, ["set", "bow", "label", "Bow", "-p", "demo"]⟩

/-- What that command line asks for. -/
def label : Invocation := ⟨0, false, creation.projects, .edit (some ⟨none, ["demo"]⟩)
  (.setField "bow" "label" "Bow")⟩

theorem labelling_asked : Request.read labelling.surroundings labelling.args = .ok (.run label) :=
  rfl

theorem labelling_succeeds :
    (labelling.run (runAll (create.run world).2 [acting])).1.exitCode = 0 := by
  have updates : Updates acted "bow" "label" "Bow"
      (acted.put { id := "bow", payload := .action { label := "Bow" } }) :=
    ⟨_, _, _, rfl, rfl, rfl⟩
  exact (setting_leads labelling_asked updates (acted_short.put Payload.short_action) rfl).1

/-- A command line that sets the side of a port that no action has. -/
def astray : Line := ⟨none, ["set", "bow", "handle.left", "left", "-p", "demo"]⟩

theorem astray_asked : Request.read astray.surroundings astray.args = .ok (.run
    ⟨0, false, creation.projects, .edit (some ⟨none, ["demo"]⟩)
      (.setField "bow" "handle.left" "left")⟩) := rfl

/-- The port is passed over. -/
theorem astray_updates : Updates acted "bow" "handle.left" "left" acted :=
  ⟨_, _, _, rfl, rfl, rfl⟩

theorem astray_leads : (astray.run (runAll (create.run world).2 [acting])).1.exitCode = 0 ∧
    Keeps (create.run world).2.files home acted
      (astray.run (runAll (create.run world).2 [acting])).2.files :=
  setting_leads astray_asked astray_updates acted_short rfl

end Demo

open Demo in
/-- The action of the demonstration gets a label. -/
theorem setField_outcome_of_demo :
    let before := runAll (create.run world).2 [acting]
    let slot := Slot.ofField "label"
    (create.run world).1.exitCode = 0 ∧ labelling.Works before.files home ∧
      (labelling.run before).1.exitCode = 0 ∧
      ∃ g g' n, (DraftStore.file (draftPath home) before.files).open? = .ok g ∧
        (DraftStore.file (draftPath home) (labelling.run before).2.files).open? = .ok g' ∧
        g.node? "bow" = some n ∧
        ((∃ payload v, slot.Sets "Bow" n payload v ∧
            g' = { g with
              nodes := g.nodes.map fun k => if k.id = "bow" then { n with payload } else k }) ∨
          (sideField? "label").isSome = true ∧ slot.get? n.payload.fields = none ∧ g' = g) := by
  have works : labelling.Works (runAll (create.run world).2 [acting]).files
      ((Option.getD none creation.projects).child "demo") :=
    Line.works_of_read leads acted_proper.2 labelling_asked rfl closing_named
  have outcome :=
    setField_outcome asked asks made works labelling_asked rfl labelling_succeeds
  exact ⟨made, works, labelling_succeeds, outcome⟩

open Demo in
/-- A side is set of a port that an action does not have.  The command line succeeds, and the graph
that is read back is the one that was there: the action has no such port. -/
theorem setField_port_missing :
    let before := runAll (create.run world).2 [acting]
    (create.run world).1.exitCode = 0 ∧ (astray.run before).1.exitCode = 0 ∧
      ∃ g n, (DraftStore.file (draftPath home) before.files).open? = .ok g ∧
        (DraftStore.file (draftPath home) (astray.run before).2.files).open? = .ok g ∧
        g.node? "bow" = some n ∧ (Slot.ofField "handle.left").get? n.payload.fields = none := by
  obtain ⟨proper, keeps⟩ := acted_proper
  obtain ⟨succeeds, kept⟩ := astray_leads
  exact ⟨made, succeeds, acted, _, keeps.open_eq proper, kept.open_eq proper, rfl, rfl⟩

end Command

end Parley
