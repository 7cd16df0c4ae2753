import Parley.Proofs.Graph.Operation
import Parley.Proofs.Record.Stored
import Parley.Proofs.Record.Update

/-!
# The data of a node with a field set anew

Setting a field of the data of a node, or one of the parts of its close setting or of the sides of
its ports, leaves all other fields and parts as they were.  What is set holds what its value is read
as.
-/

namespace Parley

/-- What a value under the key of a port is read as. -/
def Side.reading (_ : String) (v : Json) : Checked Json := Side.toJson <$> Side.read v

/-- What a value under a key of a close setting is read as. -/
def CloseBehavior.reading (key : String) (v : Json) : Checked Json :=
  if key = "enabled" then Json.bool <$> Checked.flag v
  else (fun n : Nat => Json.int n) <$> Checked.natural v

namespace Payload

/-- What a value is read as that holds the sides of the ports of nodes of a kind. -/
def handleReading (kind : Kind) (v : Json) : Checked Json :=
  match kind with
  | .entry => .ok v
  | .action => ActionHandles.toJson <$> ActionHandles.read v
  | .result => ResultHandles.toJson <$> ResultHandles.read v
  | .conditional => ConditionalHandles.toJson <$> ConditionalHandles.read v

/-- What a value under a key of the data of nodes of a kind is read as. -/
def reading (kind : Kind) (key : String) (v : Json) : Checked Json :=
  match key with
  | "preferred" => Json.ofText? <$> Checked.optional Checked.text v
  | "order" => Json.ofTexts <$> Checked.list Checked.text v
  | "close" => CloseBehavior.toJson <$> CloseBehavior.read v
  | "executors" =>
    (fun executors => Json.arr (executors.map Executor.toJson)) <$> Checked.list Executor.read v
  | "condition" => Operator.toJson <$> Operator.read v
  | "objective" => Scalar.toJson <$> Checked.scalar v
  | "handle" => handleReading kind v
  | _ => Json.str <$> Checked.text v

end Payload

variable {given : Fields}

/-- What is read is what the reading makes of it. -/
theorem read_of_eq {α : Type} {write : α → Json} {read : Json → Checked α} {a : α} {v : Json}
    (made : read v = .ok a) : write <$> read v = .ok (write a) :=
  Checked.map_eq_ok.mpr ⟨a, made, rfl⟩

theorem ActionData.settles {d : ActionData} (read : ActionData.read (.obj given) = .ok d) :
    Settles (Payload.reading .action) given d.fields := by
  obtain ⟨_, handle, first, placed, rfl⟩ := Checked.seq_eq_ok.mp read
  obtain ⟨label, named, rfl⟩ := Checked.map_eq_ok.mp first
  exact .field named (fun _ => read_of_eq) (.field placed (fun _ => read_of_eq) .nil)

theorem ResultData.settles {d : ResultData} (read : ResultData.read (.obj given) = .ok d) :
    Settles (Payload.reading .result) given d.fields := by
  obtain ⟨_, handle, five, placed, rfl⟩ := Checked.seq_eq_ok.mp read
  obtain ⟨_, executors, four, run, rfl⟩ := Checked.seq_eq_ok.mp five
  obtain ⟨_, close, three, closes, rfl⟩ := Checked.seq_eq_ok.mp four
  obtain ⟨_, order, two, ordered, rfl⟩ := Checked.seq_eq_ok.mp three
  obtain ⟨_, preferred, first, chosen, rfl⟩ := Checked.seq_eq_ok.mp two
  obtain ⟨message, told, rfl⟩ := Checked.map_eq_ok.mp first
  exact .field told (fun _ => read_of_eq) (.field chosen (fun _ => read_of_eq)
    (.field ordered (fun _ => read_of_eq) (.field closes (fun _ => read_of_eq)
      (.field run (fun _ => read_of_eq) (.field placed (fun _ => read_of_eq) .nil)))))

theorem ConditionalData.settles {d : ConditionalData}
    (read : ConditionalData.read (.obj given) = .ok d) :
    Settles (Payload.reading .conditional) given d.fields := by
  obtain ⟨_, handle, three, placed, rfl⟩ := Checked.seq_eq_ok.mp read
  obtain ⟨_, objective, two, aimed, rfl⟩ := Checked.seq_eq_ok.mp three
  obtain ⟨_, condition, first, compared, rfl⟩ := Checked.seq_eq_ok.mp two
  obtain ⟨value, told, rfl⟩ := Checked.map_eq_ok.mp first
  exact .field told (fun _ => read_of_eq) (.field compared (fun _ => read_of_eq)
    (.field aimed (fun _ => read_of_eq) (.field placed (fun _ => read_of_eq) .nil)))

theorem CloseBehavior.settles {c : CloseBehavior} (read : CloseBehavior.read (.obj given) = .ok c) :
    Settles CloseBehavior.reading given c.fields := by
  obtain ⟨_, delay, first, waits, rfl⟩ := Checked.seq_eq_ok.mp read
  obtain ⟨enabled, closes, rfl⟩ := Checked.map_eq_ok.mp first
  exact .field closes (fun _ => read_of_eq) (.field waits (fun _ => read_of_eq) .nil)

namespace Payload

variable {kind : Kind} {payload updated : Payload} {key part : String} {fields : Fields}
  {v w : Json}

/-- The data of a node are read field by field. -/
theorem settles (read : Payload.read kind (.obj given) = .ok payload) :
    Settles (reading kind) given payload.fields := by
  cases kind with
  | entry =>
      cases read
      exact .nil
  | action =>
      obtain ⟨d, made, rfl⟩ := Checked.map_eq_ok.mp read
      exact ActionData.settles made
  | result =>
      obtain ⟨d, made, rfl⟩ := Checked.map_eq_ok.mp read
      exact ResultData.settles made
  | conditional =>
      obtain ⟨d, made, rfl⟩ := Checked.map_eq_ok.mp read
      exact ConditionalData.settles made

/-- The keys of the parts of a field of nodes of a kind, where the field has parts. -/
def partKeys (kind : Kind) (key : String) : List String :=
  if key = "close" then ["enabled", "delay"]
  else match kind with
  | .entry => []
  | .action => ["owner", "result"]
  | .result => ["trigger", "actions"]
  | .conditional => ["trigger", "true", "false"]

/-- What a value of a part of a field is read as. -/
def partReading (key : String) : String → Json → Checked Json :=
  if key = "close" then CloseBehavior.reading else Side.reading

/-- The sides of ports are read one by one. -/
theorem settles_handle (free : kind ≠ .entry) (read : handleReading kind (.obj given) = .ok w) :
    ∃ sides, w = .obj sides ∧ sides.map (·.1) = partKeys kind "handle" ∧
      Settles Side.reading given sides := by
  cases kind with
  | entry => exact absurd rfl free
  | action =>
      obtain ⟨h, made, rfl⟩ := Checked.map_eq_ok.mp read
      obtain ⟨_, result, first, right, rfl⟩ := Checked.seq_eq_ok.mp made
      obtain ⟨owner, left, rfl⟩ := Checked.map_eq_ok.mp first
      exact ⟨_, rfl, rfl, .field left (fun _ => read_of_eq)
        (.field right (fun _ => read_of_eq) .nil)⟩
  | result =>
      obtain ⟨h, made, rfl⟩ := Checked.map_eq_ok.mp read
      obtain ⟨_, actions, first, right, rfl⟩ := Checked.seq_eq_ok.mp made
      obtain ⟨trigger, left, rfl⟩ := Checked.map_eq_ok.mp first
      exact ⟨_, rfl, rfl, .field left (fun _ => read_of_eq)
        (.field right (fun _ => read_of_eq) .nil)⟩
  | conditional =>
      obtain ⟨h, made, rfl⟩ := Checked.map_eq_ok.mp read
      obtain ⟨_, onFalse, two, right, rfl⟩ := Checked.seq_eq_ok.mp made
      obtain ⟨_, onTrue, first, also, rfl⟩ := Checked.seq_eq_ok.mp two
      obtain ⟨trigger, left, rfl⟩ := Checked.map_eq_ok.mp first
      exact ⟨_, rfl, rfl, .field left (fun _ => read_of_eq) (.field also (fun _ => read_of_eq)
        (.field right (fun _ => read_of_eq) .nil))⟩

/-- A field that has parts is read part by part. -/
theorem settles_part (free : kind ≠ .entry) (parted : key ∈ ["close", "handle"])
    (read : reading kind key (.obj given) = .ok w) :
    ∃ parts, w = .obj parts ∧ parts.map (·.1) = partKeys kind key ∧
      Settles (partReading key) given parts := by
  simp only [List.mem_cons, List.not_mem_nil, or_false] at parted
  rcases parted with rfl | rfl
  · obtain ⟨c, made, rfl⟩ := Checked.map_eq_ok.mp read
    exact ⟨c.fields, rfl, rfl, CloseBehavior.settles made⟩
  · exact settles_handle free read

theorem nodup_partKeys (kind : Kind) (key : String) : (partKeys kind key).Nodup := by
  unfold partKeys
  split
  next => decide
  next => cases kind <;> decide

theorem nodup_keys (payload : Payload) : (payload.fields.map (·.1)).Nodup := by
  cases payload <;>
    simp [Payload.fields, ActionData.fields, ResultData.fields, ConditionalData.fields]

theorem keys_eq (same : updated.kind = payload.kind) :
    updated.fields.map (·.1) = payload.fields.map (·.1) := by
  cases payload <;> cases updated <;> first | rfl | cases same

/-- Stored data are read as they are. -/
theorem settles_self (free : payload.kind ≠ .entry) :
    Settles (reading payload.kind) payload.fields payload.fields :=
  settles (Payload.read_fields free)

/-- The fields tell the data, other than those of an entry. -/
theorem eq_of_fields (same : updated.kind = payload.kind) (free : payload.kind ≠ .entry)
    (fields : updated.fields = payload.fields) : updated = payload := by
  have read := Payload.read_fields (same ▸ free)
  rw [same, fields, Payload.read_fields free] at read
  cases read
  rfl

end Payload

namespace Graph

variable {payload updated : Payload} {key part : String} {parts fields : Fields} {v : Json}

theorem updatePayload_eq_ok (made : updatePayload payload fields = .ok updated) :
    (∀ f ∈ fields, f.1 ∈ payload.fields.map (·.1)) ∧
      Payload.read payload.kind
        (.obj (fields.foldl (fun all f => Fields.put f.1 f.2 all) payload.fields)) =
          .ok updated := by
  dsimp only [updatePayload] at made
  split at made
  next => cases made
  next known =>
    refine ⟨fun f member => ?_, Checked.titled_eq_ok.mp (mapError_eq_ok.mp made)⟩
    have none : (fields.map (·.1)).filter (!(payload.fields.map (·.1)).contains ·) = [] := by
      simpa using known
    simpa using List.filter_eq_nil_iff.mp none f.1 (List.mem_map_of_mem member)

/-- Data with a field set hold what its value is read as, and their other fields are as they
were. -/
theorem updatePayload_field (free : payload.kind ≠ .entry)
    (made : updatePayload payload [(key, v)] = .ok updated) :
    ∃ u w, payload.fields.get? key = some u ∧ Payload.reading payload.kind key v = .ok w ∧
      updated.fields = payload.fields.put key w := by
  obtain ⟨known, read⟩ := updatePayload_eq_ok made
  have keys := Payload.keys_eq (updatePayload_kind made)
  obtain ⟨absent, -⟩ | held :=
    (Payload.settles_self free).put keys payload.nodup_keys (Payload.settles read)
  · exact absurd (List.forall_mem_singleton.mp known) (Fields.get?_eq_none_iff.mp absent)
  · exact held

/-- Data with a part of a field set hold what its value is read as, and their other fields and parts
are as they were.  A part that the field does not have is passed over. -/
theorem updatePayload_part (free : payload.kind ≠ .entry) (parted : key ∈ ["close", "handle"])
    (there : payload.fields.get? key = some (.obj parts))
    (made : updatePayload payload [(key, .obj (parts.put part v))] = .ok updated) :
    (parts.get? part = none ∧ updated = payload) ∨
      ∃ u w, parts.get? part = some u ∧ Payload.partReading key part v = .ok w ∧
        updated.fields = payload.fields.put key (.obj (parts.put part w)) := by
  obtain ⟨u, w, -, read, fields⟩ := updatePayload_field free made
  obtain ⟨new, rfl, keys, again⟩ := Payload.settles_part free parted read
  have self := Payload.settles_self free key _ _ there there
  obtain ⟨old, same, keys', own⟩ := Payload.settles_part free parted self
  cases same
  have distinct : (parts.map (·.1)).Nodup := keys' ▸ Payload.nodup_partKeys _ _
  obtain ⟨absent, rfl⟩ | ⟨u, w, held, converted, rfl⟩ :=
    own.put (keys.trans keys'.symm) distinct again
  · refine .inl ⟨absent, Payload.eq_of_fields (updatePayload_kind made) free ?_⟩
    rw [fields, Fields.put_eq_self there]
  · exact .inr ⟨u, w, held, converted, fields⟩

end Graph

end Parley
