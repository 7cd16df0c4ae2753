import Parley.Proofs.Graph.Text
import Parley.Proofs.Json.Size

/-!
# Graphs that are read can be written

A whole number in the data of a node is a delay or the value of a scalar.  Where it was read it came
as a whole number that is short, as a binary number of the range of a machine word, or as a text
that is not longer than the limit.  So a graph that is read from a stored form without long numbers
has none either.
-/

namespace Parley

namespace Text

variable {p : Char → Bool} {cs ds : List Char}

theorem length_trim_le : (trim p cs).length ≤ cs.length := by
  have inner := (List.dropWhile_sublist p (l := (cs.dropWhile p).reverse)).length_le
  have outer := (List.dropWhile_sublist p (l := cs)).length_le
  rw [List.length_reverse] at inner
  rw [trim, List.length_reverse]
  exact Nat.le_trans inner outer

theorem length_dropUnderscores : ((dropUnderscores? cs).getD cs).length ≤ cs.length := by
  rw [dropUnderscores?]
  split
  next => exact List.length_filter_le _ _
  next => exact Nat.le_refl _

theorem length_le_utf8ByteSize (s : String) : s.toList.length ≤ s.utf8ByteSize := by
  rw [← String.ofList_toList (s := s), String.toList_ofList]
  induction s.toList with
  | nil => exact Nat.zero_le _
  | cons c cs ih =>
      have positive := c.utf8Size_pos
      rw [String.ofList_cons, String.utf8ByteSize_append, String.utf8ByteSize_singleton,
        List.length_cons]
      omega

end Text

theorem Literal.length_takeSign_le (cs : List Char) : (takeSign cs).2.length ≤ cs.length := by
  unfold takeSign
  split
  · exact Nat.le_succ _
  · exact Nat.le_succ _
  · exact Nat.le_refl _

namespace Checked

open Json (Short)

variable {α : Type} {P : α → Prop} {v : Json} {n : Int} {a : α}

theorem length_dropZeros {cs : List Char} : (dropZeros cs).length ≤ cs.length := by
  unfold dropZeros
  dsimp only [Text.span]
  split
  next => exact (List.takeWhile_sublist _).length_le
  next => exact Nat.le_refl _

/-- A whole number that is spelled by a text is bounded by the length of the text. -/
theorem digitCount_spelled {cs : List Char} {k : Nat} (spelled : spelledInteger? cs = some n)
    (fits : cs.length ≤ k) (positive : 0 < k) : Binary64.digitCount n.natAbs ≤ k := by
  unfold spelledInteger? at spelled
  dsimp only at spelled
  split at spelled
  next =>
    have plain := Nat.le_trans Text.length_dropUnderscores (Nat.le_trans length_dropZeros fits)
    have size := Nat.le_trans (Literal.length_takeSign_le _) plain
    have count := Binary64.digitCount_number size positive
    cases spelled
    split <;> simpa using count
  next => cases spelled

/-- A whole number that is read of a short value is short. -/
theorem short_integer (short : v.Short) (read : integer v = .ok n) : (Json.int n).Short := by
  rw [Json.short_int]
  unfold integer at read
  split at read
  next =>
    cases read
    exact Json.short_int.mp short
  next b =>
    cases read
    cases b <;> decide
  next =>
    split at read
    next => cases read
    next =>
      split at read
      next =>
        split at read
        next range =>
          cases read
          have range := of_decide_eq_true range
          have bounds : Int64.minValue.toInt = -2 ^ 63 ∧ Int64.maxValue.toInt = 2 ^ 63 - 1 := by
            decide
          rw [bounds.1, bounds.2] at range
          rw [Binary64.digitCount_le (by decide)]
          calc n.natAbs < 10 ^ 19 := by omega
            _ ≤ 10 ^ DigitLimit.limit := Nat.pow_le_pow_right (by decide) (by decide)
        next => cases read
      next => cases read
  next s =>
    split at read
    next => cases read
    next fits =>
      split at read
      next spelled =>
        cases read
        have size := Nat.le_trans (Text.length_le_utf8ByteSize s) (Nat.le_of_not_lt fits)
        exact digitCount_spelled spelled (Nat.le_trans Text.length_trim_le size) (by decide)
      next => cases read
  next => cases read

theorem andThen_eq_ok {β : Type} {x : Checked α} {f : α → Checked β} {b : β} :
    x.andThen f = .ok b ↔ ∃ a, x = .ok a ∧ f a = .ok b := by
  cases x <;> simp [andThen]

theorem short_natural {n : Nat} (short : v.Short) (read : natural v = .ok n) :
    (Json.int n).Short := by
  obtain ⟨k, whole, positive⟩ := andThen_eq_ok.mp read
  split at positive
  next => cases positive
  next above =>
    cases positive
    rw [Int.toNat_of_nonneg (by omega)]
    exact short_integer short whole

theorem short_scalar {s : Scalar} (short : v.Short) (read : scalar v = .ok s) :
    s.toJson.Short := by
  unfold scalar at read
  split at read <;> cases read <;> exact short

/-- What holds of all that the value under a key is read as holds of the field under it, if it holds
of the value where there is none. -/
theorem field_of_found {fields : Fields} {key : String} {read : Json → Checked α} {absent : α}
    (reads : ∀ v a, fields.get? key = some v → read v = .ok a → P a) (otherwise : P absent)
    (made : field fields key read absent = .ok a) : P a := by
  unfold field at made
  split at made
  next v there => exact reads v a there (under_eq_ok.mp made)
  next =>
    cases made
    exact otherwise

/-- What holds of all that is read of short values holds of a field of a short object, if it holds
of the value where there is none. -/
theorem field_of_short {fields : Fields} {key : String} {read : Json → Checked α} {absent : α}
    (short : (Json.obj fields).Short) (reads : ∀ v a, v.Short → read v = .ok a → P a)
    (otherwise : P absent) (made : field fields key read absent = .ok a) : P a :=
  field_of_found (fun v a there => reads v a (short.get? there)) otherwise made

theorem items_of_short {read : Json → Checked α} {position : Nat} {vs : List Json} {as : List α}
    (short : ∀ v ∈ vs, v.Short) (reads : ∀ v a, v.Short → read v = .ok a → P a)
    (made : items read position vs = .ok as) : ∀ a ∈ as, P a := by
  induction vs generalizing position as with
  | nil =>
      cases made
      exact fun _ member => nomatch member
  | cons v vs ih =>
      obtain ⟨here, short⟩ := List.forall_mem_cons.mp short
      obtain ⟨_, rest, first, others, rfl⟩ := seq_eq_ok.mp made
      obtain ⟨a, item, rfl⟩ := map_eq_ok.mp first
      exact List.forall_mem_cons.mpr ⟨reads v a here (under_eq_ok.mp item), ih short others⟩

theorem list_of_short {read : Json → Checked α} {as : List α} (short : v.Short)
    (reads : ∀ v a, v.Short → read v = .ok a → P a) (made : list read v = .ok as) :
    ∀ a ∈ as, P a := by
  cases v with
  | arr vs => exact items_of_short (Json.short_arr.mp short) reads made
  | _ => cases made

end Checked

open Json (Short)

variable {v : Json}

namespace Executor

theorem short_toJson {e : Executor} (value : e.valueJson.Short) : e.toJson.Short :=
  Json.short_obj.mpr (List.forall_mem_cons.mpr ⟨rfl, List.forall_mem_singleton.mpr value⟩)

/-- The value of an executor is a text or holds a scalar. -/
theorem short_readValue {type : ExecutorType} {e : Executor} (short : v.Short)
    (read : readValue type v = .ok e) : e.valueJson.Short := by
  cases type with
  | dialogStore =>
      cases v with
      | obj fields =>
          obtain ⟨_, value, keyed, given, rfl⟩ := Checked.seq_eq_ok.mp read
          obtain ⟨key, -, rfl⟩ := Checked.map_eq_ok.mp keyed
          have value : value.toJson.Short := Checked.field_of_short (P := fun s => s.toJson.Short)
            short (fun _ _ => Checked.short_scalar) rfl given
          exact Json.short_obj.mpr
            (List.forall_mem_cons.mpr ⟨rfl, List.forall_mem_singleton.mpr value⟩)
      | _ => cases read
  | setCoins | setGems =>
      obtain ⟨amount, given, rfl⟩ := Checked.map_eq_ok.mp read
      exact Checked.short_scalar short given
  | command | openMarket =>
      obtain ⟨_, -, rfl⟩ := Checked.map_eq_ok.mp read
      rfl

theorem short_read {e : Executor} (short : v.Short) (read : Executor.read v = .ok e) :
    e.toJson.Short := by
  cases v with
  | obj fields =>
      rw [Executor.read] at read
      split at read
      next => cases read
      next =>
        split at read
        next type _ =>
          have value : e.valueJson.Short := Checked.field_of_short
            (P := fun e => e.valueJson.Short) short (fun _ _ => short_readValue)
            (by cases type <;> rfl) (Checked.under_eq_ok.mp read)
          exact short_toJson value
        next => cases read
  | _ => cases read

end Executor

theorem CloseBehavior.short_read {c : CloseBehavior} (short : v.Short)
    (read : CloseBehavior.read v = .ok c) : (Json.int c.delay).Short := by
  cases v with
  | obj fields =>
      obtain ⟨_, delay, flagged, given, rfl⟩ := Checked.seq_eq_ok.mp read
      obtain ⟨_, -, rfl⟩ := Checked.map_eq_ok.mp flagged
      have standard : (Json.int standardDelay).Short := by decide
      exact Checked.field_of_short (P := fun n : Nat => (Json.int n).Short) short
        (fun _ _ => Checked.short_natural) standard given
  | _ => cases read

namespace Payload

theorem short_action {d : ActionData} : (action d).Short := by
  simp [Short, fields, ActionData.fields, ActionHandles.toJson, Side.toJson]

theorem short_conditional {d : ConditionalData} (objective : d.objective.toJson.Short) :
    (conditional d).Short := by
  rw [Json.Short] at objective
  simp [Short, fields, ConditionalData.fields, ConditionalHandles.toJson, Side.toJson,
    Operator.toJson, objective]

/-- Data that are read of a short value are short. -/
theorem short_read {kind : Kind} {payload : Payload} (short : v.Short)
    (read : Payload.read kind v = .ok payload) : payload.Short := by
  cases kind with
  | entry =>
      cases v with
      | obj fields =>
          cases read
          exact short_ofKind .entry
      | _ => cases read
  | action =>
      obtain ⟨d, -, rfl⟩ := Checked.map_eq_ok.mp read
      exact short_action
  | result =>
      obtain ⟨d, made, rfl⟩ := Checked.map_eq_ok.mp read
      cases v with
      | obj fields =>
          obtain ⟨_, _, made₁, -, rfl⟩ := Checked.seq_eq_ok.mp made
          obtain ⟨_, executors, made₂, listed, rfl⟩ := Checked.seq_eq_ok.mp made₁
          obtain ⟨_, close, made₃, closed, rfl⟩ := Checked.seq_eq_ok.mp made₂
          obtain ⟨_, _, made₄, -, rfl⟩ := Checked.seq_eq_ok.mp made₃
          obtain ⟨_, _, made₅, -, rfl⟩ := Checked.seq_eq_ok.mp made₄
          obtain ⟨_, -, rfl⟩ := Checked.map_eq_ok.mp made₅
          have delay : (Json.int close.delay).Short := Checked.field_of_short
            (P := fun c : CloseBehavior => (Json.int c.delay).Short) short
            (fun _ _ => CloseBehavior.short_read) (by decide) closed
          have none : ∀ e ∈ ([] : List Executor), e.toJson.Short := fun _ member => nomatch member
          have items : ∀ e ∈ executors, e.toJson.Short := Checked.field_of_short
            (P := fun es : List Executor => ∀ e ∈ es, e.toJson.Short) short
            (fun _ _ short => Checked.list_of_short short fun _ _ => Executor.short_read)
            none listed
          exact short_result.mpr
            ⟨delay, Json.anyLongItem_eq_false.mpr (List.forall_mem_map.mpr items)⟩
      | _ => cases made
  | conditional =>
      obtain ⟨d, made, rfl⟩ := Checked.map_eq_ok.mp read
      cases v with
      | obj fields =>
          obtain ⟨_, _, made₁, -, rfl⟩ := Checked.seq_eq_ok.mp made
          obtain ⟨_, objective, made₂, compared, rfl⟩ := Checked.seq_eq_ok.mp made₁
          obtain ⟨_, _, made₃, -, rfl⟩ := Checked.seq_eq_ok.mp made₂
          obtain ⟨_, -, rfl⟩ := Checked.map_eq_ok.mp made₃
          have empty : (Scalar.text "").toJson.Short := rfl
          exact short_conditional (Checked.field_of_short (P := fun s : Scalar => s.toJson.Short)
            short (fun _ _ => Checked.short_scalar) empty compared)
      | _ => cases made

end Payload

namespace Node

theorem short_readFields {kind : Kind} {fields : Fields} {n : Node}
    (short : (Json.obj fields).Short) (read : readFields kind fields = .ok n) :
    n.payload.Short := by
  have data {n : Node} (made : Checked.field fields "data" (Payload.read kind) (.ofKind kind) =
      .ok n.payload) : n.payload.Short :=
    Checked.field_of_short short (fun _ _ => Payload.short_read) (Payload.short_ofKind kind) made
  cases kind with
  | entry =>
      obtain ⟨-, -, same⟩ := parts_of_readFields read
      obtain ⟨id, position, payload⟩ := n
      cases payload with
      | entry => rfl
      | _ => cases same
  | _ => exact data (parts_of_read read).2.2

theorem short_read {n : Node} (short : v.Short) (read : Node.read v = .ok n) :
    n.payload.Short := by
  obtain ⟨kind, fields, rfl, parts⟩ := readFields_of_read read
  exact short_readFields short parts

end Node

namespace Graph

theorem short_elements? {v : Json} {vs : List Json} (short : v.Short)
    (items : v.elements? = some vs) : ∀ w ∈ vs, w.Short := by
  cases v with
  | arr items' =>
      cases items
      exact Json.short_arr.mp short
  | obj fields =>
      cases items
      exact List.forall_mem_map.mpr fun _ _ => rfl
  | str s =>
      cases items
      exact List.forall_mem_map.mpr fun _ _ => rfl
  | _ => cases items

theorem short_elements {fields : Fields} {key : String} {vs : List Json}
    (short : (Json.obj fields).Short) (listed : elements fields key = .ok vs) :
    ∀ v ∈ vs, v.Short := by
  unfold elements at listed
  cases there : fields.get? key with
  | none =>
      rw [there] at listed
      cases listed
      exact List.forall_mem_nil _
  | some v =>
      cases items : v.elements? with
      | none => simp [there, items] at listed
      | some ws =>
          simp only [there, items] at listed
          cases listed
          exact short_elements? (short.get? there) items

/-- A graph that is read of a short value is short. -/
theorem short_of_ofJson {g : Graph} (short : v.Short) (read : ofJson v = .ok g) : g.Short := by
  cases v with
  | obj fields =>
      obtain ⟨vs, listed, read⟩ := bind_eq_ok.mp read
      obtain ⟨nodes, stored, read⟩ := bind_eq_ok.mp read
      obtain ⟨_, -, read⟩ := bind_eq_ok.mp read
      obtain ⟨edges, -, built⟩ := bind_eq_ok.mp read
      intro n member
      rcases nodes_of_build (mapError_eq_ok.mp built) n member with rfl | member
      · exact Payload.short_ofKind .entry
      · obtain ⟨w, there, made⟩ := exists_of_mem_mapM stored n member
        exact Node.short_read (short_elements short listed w there)
          (Checked.titled_eq_ok.mp (mapError_eq_ok.mp made))
  | _ => cases read

end Graph

end Parley
