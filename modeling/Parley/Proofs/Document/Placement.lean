import Parley.Proofs.Document.Loaded
import Parley.Proofs.Document.Migrated
import Parley.Proofs.Document.Rows
import Parley.Proofs.Graph.Size

/-!
# Placements that can be written

The whole numbers of the placement of a character are short where the value is that it was loaded
from, whichever version of a document that is.
-/

namespace Parley

open Json (Short)

variable {v : Json} {fields fields' : Fields} {i : Interaction}

/-- A quantity that is read of a short value is short. -/
theorem Checked.short_quantity {q : Quantity} (short : v.Short) (read : quantity v = .ok q) :
    q.toJson.Short := by
  have whole {n : Int} (read : integer v = .ok n) : (Quantity.whole n).toJson.Short :=
    short_integer short read
  unfold quantity at read
  split at read
  next =>
    cases read
    exact short
  next =>
    cases read
    rfl
  next =>
    split at read
    next read' =>
      cases read
      exact whole read'
    next =>
      cases read
      rfl
    next => cases read

theorem Checked.optional_of_short {α : Type} {P : α → Prop} {read : Json → Checked α}
    {o : Option α} (short : v.Short) (reads : ∀ v a, v.Short → read v = .ok a → P a)
    (made : optional read v = .ok o) : ∀ a ∈ o, P a := by
  unfold optional at made
  split at made
  next =>
    cases made
    exact fun _ member => nomatch member
  next =>
    obtain ⟨a, read, rfl⟩ := map_eq_ok.mp made
    intro a' member
    cases Option.mem_some.mp member
    exact reads v a short read

theorem Location.short_read {l : Location} (short : v.Short) (read : Location.read v = .ok l) :
    l.toJson.Short := by
  cases v with
  | obj fields =>
      obtain ⟨_, world, made₁, -, rfl⟩ := Checked.seq_eq_ok.mp read
      obtain ⟨_, rotation, made₂, turned, rfl⟩ := Checked.seq_eq_ok.mp made₁
      obtain ⟨_, z, made₃, third, rfl⟩ := Checked.seq_eq_ok.mp made₂
      obtain ⟨_, y, made₄, second, rfl⟩ := Checked.seq_eq_ok.mp made₃
      obtain ⟨x, first, rfl⟩ := Checked.map_eq_ok.mp made₄
      have field {key : String} {q : Quantity}
          (given : Checked.field fields key Checked.quantity (.whole 0) = .ok q) : q.toJson.Short :=
        Checked.field_of_short (P := fun q : Quantity => q.toJson.Short) short
          (fun _ _ => Checked.short_quantity) (by decide) given
      simp only [toJson, Json.short_obj, List.forall_mem_cons]
      exact ⟨field first, field second, field third, field turned, rfl, List.forall_mem_nil _⟩
  | _ => cases read

theorem Interaction.short_read (short : v.Short) (read : Interaction.read v = .ok i) :
    i.toJson.Short := by
  cases v with
  | obj fields =>
      obtain ⟨_, distance, made, given, rfl⟩ := Checked.seq_eq_ok.mp read
      obtain ⟨location, placed, rfl⟩ := Checked.map_eq_ok.mp made
      have place : location.toJson.Short := Checked.field_of_short
        (P := fun l : Location => l.toJson.Short) short (fun _ _ => Location.short_read) (by decide)
        placed
      have far : distance.toJson.Short := Checked.field_of_short
        (P := fun q : Quantity => q.toJson.Short) short (fun _ _ => Checked.short_quantity)
        (by decide) given
      simp only [toJson, Json.short_obj, List.forall_mem_cons]
      exact ⟨place, far, List.forall_mem_nil _⟩
  | _ => cases read

namespace Migration

/-- A bare location with short coordinates stands for a short placement. -/
theorem short_placement {location : Json} (short : location.Short)
    (placed : placement location = .ok v) : v.Short := by
  cases location with
  | obj coordinates =>
      cases placed
      have coordinate (key : String) : ((Fields.get? coordinates key).getD (.int 0)).Short := by
        cases there : Fields.get? coordinates key with
        | none => decide
        | some w => exact short.get? there
      simp only [Json.short_obj, List.forall_mem_cons]
      exact ⟨⟨coordinate "x", coordinate "y", coordinate "z", by decide, rfl,
        List.forall_mem_nil _⟩, by decide, List.forall_mem_nil _⟩
  | _ => cases placed

theorem short_placed {placed : Option Interaction} (short : (Json.obj fields).Short)
    (made : placed? fields = .ok placed) : ∀ i ∈ placed, i.toJson.Short := by
  unfold placed? at made
  split at made
  next =>
    cases made
    exact fun _ member => nomatch member
  next location there =>
    obtain ⟨v, stands, made⟩ := bind_eq_ok.mp made
    obtain ⟨i, read, rfl⟩ := map_eq_ok.mp made
    have spelled : v.Short := short_placement (short.get? there) (mapError_eq_ok.mp stands)
    intro i' member
    cases Option.mem_some.mp member
    exact Interaction.short_read spelled (Checked.titled_eq_ok.mp (mapError_eq_ok.mp read))

/-- A document has the placement that it is compiled with. -/
theorem interaction_of_compileUnread {nodes : List Node} {edges : List Edge} {npc : Json}
    {placed : Option Interaction} {d : Document} {warnings : List Check}
    (made : compileUnread nodes edges npc placed = .ok (.compiled d warnings)) :
    d.interaction = placed := by
  unfold compileUnread at made
  split at made
  next => cases made
  next d' warnings' compiled =>
    obtain ⟨r, -, rfl, -⟩ := Compile.compile_eq_compiled.mp compiled
    split at made
    next => cases made
    next =>
      obtain ⟨npc, -, same⟩ := map_eq_ok.mp made
      cases same
      rfl

/-- What an old graph is compiled to has the placement that it is compiled with. -/
theorem get?_interaction_of_compiled? {nodes : List Node} {edges : List Edge}
    {placed : Option Interaction} (up : compiled? fields nodes edges placed = .ok fields') :
    fields'.get? "interaction" = placed.map Interaction.toJson := by
  obtain ⟨outcome, made, stored⟩ := bind_eq_ok.mp up
  cases outcome with
  | empty reason => cases stored
  | compiled d warnings =>
      cases stored
      have kept : d.interaction = placed := interaction_of_compileUnread (mapError_eq_ok.mp made)
      rw [← kept]
      cases d with
      | mk npc interaction actions results conditions initial =>
          cases interaction <;> rfl

/-- The placement in the fields that a short document is brought up to is short. -/
theorem short_upgrade (short : (Json.obj fields).Short) (up : upgrade fields = .ok fields') :
    ∀ w ∈ fields'.get? "interaction", w.Short := by
  rcases detectVersion_cases fields with first | second | current
  · rw [upgrade, first] at up
    obtain ⟨graph, stored⟩ := exists_stored up (by simp)
    rw [ofEditorGraph_of_stored stored] at up
    obtain ⟨drawn, -, up⟩ := bind_eq_ok.mp up
    obtain ⟨placed, made, up⟩ := bind_eq_ok.mp up
    rw [get?_interaction_of_compiled? up]
    intro w member
    obtain ⟨i, there, rfl⟩ := Option.map_eq_some_iff.mp member
    exact short_placed short made i there
  · rw [upgrade, second] at up
    obtain ⟨v, stands, put⟩ := bind_eq_ok.mp up
    cases put
    rw [Fields.get?_put_self]
    intro w member
    cases Option.mem_some.mp member
    refine short_placement ?_ (mapError_eq_ok.mp stands)
    cases there : fields.get? "location" with
    | none => decide
    | some location => exact short.get? there
  · rw [upgrade, current] at up
    cases up
    exact fun w there => short.get? there

end Migration

/-- A value is read as a document if it is migrated to the stored form of one. -/
theorem Load.readDocument_eq_ok {d : Document} {version : Nat} :
    readDocument v = .ok (d, version) ↔
      ∃ fields, migrate v = .ok (fields, version) ∧ Document.read (.obj fields) = .ok d := by
  unfold readDocument
  split
  next unread => simp [unread]
  next unread => simp [unread]
  next unread => simp [unread]
  next fields version' migrated =>
    rw [migrated]
    cases made : Document.read (.obj fields) with
    | faults found => simp [Checked.titled, made]
    | ok d' => simp [made, eq_comm, and_comm]

/-- The placement of a character that is loaded of a short value is short. -/
theorem Load.short_interaction {l : Loaded} {events : List Log.Event} (short : v.Short)
    (loaded : load v = (.ok (.ok l), events)) : ∀ i ∈ l.interaction, i.toJson.Short := by
  obtain ⟨d, version, read, -, -, rfl, -⟩ := load_eq_ok loaded
  obtain ⟨present, migrated, made⟩ := readDocument_eq_ok.mp read
  obtain ⟨fields, upgraded, rfl, -, up, -, -, resolved⟩ := Migration.migrate_eq_ok.mp migrated
  have placed : ∀ w, present.get? "interaction" = some w → w.Short := by
    rw [Migration.get?_resolveEntry_of_ne resolved (by decide) (by decide) (by decide)]
    exact Migration.short_upgrade short up
  obtain ⟨_, _, made₁, -, rfl⟩ := Checked.seq_eq_ok.mp made
  obtain ⟨_, _, made₂, -, rfl⟩ := Checked.seq_eq_ok.mp made₁
  obtain ⟨_, _, made₃, -, rfl⟩ := Checked.seq_eq_ok.mp made₂
  obtain ⟨_, _, made₄, -, rfl⟩ := Checked.seq_eq_ok.mp made₃
  obtain ⟨_, interaction, made₅, given, rfl⟩ := Checked.seq_eq_ok.mp made₄
  obtain ⟨_, -, rfl⟩ := Checked.map_eq_ok.mp made₅
  have reads (w : Json) (o : Option Interaction) (there : present.get? "interaction" = some w)
      (read : Checked.optional Interaction.read w = .ok o) : ∀ i ∈ o, i.toJson.Short :=
    Checked.optional_of_short (placed w there) (fun _ _ => Interaction.short_read) read
  have none : ∀ i ∈ (none : Option Interaction), i.toJson.Short := fun _ member => nomatch member
  exact Checked.field_of_found (P := fun o => ∀ i ∈ o, i.toJson.Short) reads none given

end Parley
