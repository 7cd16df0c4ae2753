import Parley.Document.Basic
import Parley.Failure
import Parley.Yaml.Basic

/-!
# Project configurations

What a project says about its dialogue: its name, the character who speaks, where that character
stands, and where documents are written.  The place and the folder are kept as they were given; they
are checked when they are used, so that a project with a wrong number in it can still be opened.
-/

namespace Parley

/-- Where a character stands, as it was given. -/
structure PlaceSettings where
  x : Yaml := .ofInt 0
  y : Yaml := .ofInt 0
  z : Yaml := .ofInt 0
  rotation : Yaml := .ofInt 0
  world : Yaml := .text Location.standardWorld

/-- How players come to talk to a character, as it was given. -/
structure InteractionSettings where
  /-- Whether documents say where the character stands. -/
  enabled : Bool := true
  location : PlaceSettings := {}
  renderDistance : Yaml := .ofInt Interaction.standardDistance

/-- The configuration of a project. -/
structure Config where
  name : String
  npc : String := ""
  interaction : InteractionSettings := {}
  /-- The folder for documents, as it was given. -/
  outputFolder : Yaml := .text "exports"

namespace Config

/-- The entries of a map, where a value is asked for one. -/
def entries : Yaml → Except Failure (List (Yaml × Yaml))
  | .map _ entries => .ok entries
  | v => .error (.noAttribute v.typeName "get")

/-- The value under a key, or a given one. -/
def entryOr (fields : List (Yaml × Yaml)) (key : String) (absent : Yaml) : Yaml :=
  (Yaml.get? fields key).getD absent

/-- The entries of the map under a key; none if it is missing or void. -/
def innerEntries (fields : List (Yaml × Yaml)) (key : String) :
    Except Failure (List (Yaml × Yaml)) :=
  match Yaml.get? fields key with
  | none => .ok []
  | some v => if v.isVoid then .ok [] else entries v

/-- The name under a key; empty if it is missing or void. -/
def nameUnder (fields : List (Yaml × Yaml)) (key : String) : Except Failure String :=
  match Yaml.get? fields key with
  | none => .ok ""
  | some v => if v.isVoid then .ok "" else v.label.mapError .digits

/-- The place that entries give. -/
def placeOf (fields : List (Yaml × Yaml)) : PlaceSettings :=
  let standard : PlaceSettings := {}
  { x := entryOr fields "x" standard.x
    y := entryOr fields "y" standard.y
    z := entryOr fields "z" standard.z
    rotation := entryOr fields "rotation" standard.rotation
    world := entryOr fields "world" standard.world }

/-- The interaction that entries give. -/
def interactionOf (fields : List (Yaml × Yaml)) : Except Failure InteractionSettings := do
  let standard : InteractionSettings := {}
  let location ← innerEntries fields "location"
  pure {
    enabled := !(entryOr fields "enabled" (.bool true)).isVoid
    location := placeOf location
    renderDistance := entryOr fields "render_distance" standard.renderDistance }

/-- The configuration that entries give. -/
def ofEntries (fields : List (Yaml × Yaml)) : Except Failure Config := do
  let name ← nameUnder fields "name"
  let npc ← nameUnder fields "npc"
  let interaction ← interactionOf (← innerEntries fields "interaction")
  pure {
    name
    npc
    interaction
    outputFolder := entryOr fields "output_dir" (.text "exports") }

/-- Reads a value as a configuration. -/
def read (v : Yaml) : Except Failure Config := (entries v).bind ofEntries

/-- A map that is written down. -/
def made (fields : List (String × Yaml)) : Yaml :=
  .map .program (fields.map fun f => (.text f.1, f.2))

/-- The stored form of a place. -/
def placeToYaml (p : PlaceSettings) : Yaml :=
  made [("x", p.x), ("y", p.y), ("z", p.z), ("rotation", p.rotation), ("world", p.world)]

/-- The stored form of an interaction. -/
def interactionToYaml (i : InteractionSettings) : Yaml :=
  made [("enabled", .bool i.enabled), ("location", placeToYaml i.location),
    ("render_distance", i.renderDistance)]

/-- The stored form of a configuration. -/
def toYaml (c : Config) : Yaml :=
  made [("name", .text c.name), ("npc", .text c.npc),
    ("interaction", interactionToYaml c.interaction), ("output_dir", c.outputFolder)]

/-- The interaction for documents: none if it is switched off, and a fault if the place or distance
is none. -/
def documentInteraction (c : Config) : Except Invalid (Option Interaction) :=
  if !c.interaction.enabled then .ok none
  else do
    let location ← (Location.read (placeToYaml c.interaction.location).toJson).titled "Location"
    let interaction ← (Interaction.read (.obj [("location", location.toJson),
      ("render_distance", c.interaction.renderDistance.toJson)])).titled Interaction.title
    pure (some interaction)

/-- The value that a quantity is given by. -/
def ofQuantity (q : Quantity) : Yaml := .ofJson q.toJson

/-- Adopts the interaction of a document; one without any switches it off. -/
def applyInteraction (c : Config) : Option Interaction → Config
  | none => { c with interaction := { c.interaction with enabled := false } }
  | some i => { c with interaction := {
      enabled := true
      location := {
        x := ofQuantity i.location.x
        y := ofQuantity i.location.y
        z := ofQuantity i.location.z
        rotation := ofQuantity i.location.rotation
        world := .text i.location.world }
      renderDistance := ofQuantity i.renderDistance } }

end Config

end Parley
