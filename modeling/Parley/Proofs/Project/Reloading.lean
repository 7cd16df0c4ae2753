import Parley.Proofs.Document.File
import Parley.Proofs.Document.Placement
import Parley.Proofs.Project.Lasting
import Parley.Proofs.Project.Placement
import Parley.Proofs.Yaml.Written

/-!
# Configurations that are loaded again

The configurations that commands make are settled: where there should be a number or a text there is
one, and it can be written.  A settled one is loaded again from its file, as a settled one.  No
command takes the configuration of a project away, so a project that was made can be opened whatever
command lines follow.
-/

namespace Parley

open FileTree (place Within)
open Yaml (IsFlag IsNumber IsText Row Written)

/-- The entry for a row is found under its key. -/
theorem Yaml.get?_of_fits {rows : List Row} {es : List (Yaml × Yaml)}
    (fits : List.Forall₂ Row.Fits rows es) (distinct : (rows.map Row.key).Nodup) :
    ∀ r ∈ rows, ∃ v, get? es r.key = some v ∧ r.fits v := by
  induction fits with
  | nil => exact List.forall_mem_nil _
  | @cons r e rows es here more ih =>
      obtain ⟨key, v⟩ := e
      obtain ⟨rfl, fit⟩ := here
      obtain ⟨other, distinct⟩ := List.nodup_cons.mp distinct
      refine List.forall_mem_cons.mpr ⟨⟨v, by simp [get?], fit⟩, fun q member => ?_⟩
      obtain ⟨w, found, fit⟩ := ih distinct q member
      have apart : r.key ≠ q.key := fun same => other (same ▸ List.mem_map_of_mem member)
      refine ⟨w, ?_, fit⟩
      rw [← found]
      simp [get?, apart]

/-- Whether a place is given by numbers and a text. -/
structure PlaceSettings.Settled (p : PlaceSettings) : Prop where
  x : IsNumber p.x
  y : IsNumber p.y
  z : IsNumber p.z
  rotation : IsNumber p.rotation
  world : IsText p.world

/-- Whether an interaction has its place and distance given so. -/
structure InteractionSettings.Settled (i : InteractionSettings) : Prop where
  location : i.location.Settled
  renderDistance : IsNumber i.renderDistance

namespace Config

/-- Whether a configuration has numbers and texts where they should be. -/
structure Settled (c : Config) : Prop where
  interaction : c.interaction.Settled
  outputFolder : IsText c.outputFolder

variable {c : Config} {p : PlaceSettings} {i : InteractionSettings} {es : List (Yaml × Yaml)}
  {rows : List Row} {r : Row}

section Reading

variable (fits : List.Forall₂ Row.Fits rows es) (distinct : (rows.map Row.key).Nodup)
  (member : r ∈ rows)

include fits distinct member

theorem entryOr_of_fits (absent : Yaml) : r.fits (entryOr es r.key absent) := by
  obtain ⟨v, found, fit⟩ := Yaml.get?_of_fits fits distinct r member
  rwa [entryOr, found]

theorem nameUnder_of_fits (text : ∀ v, r.fits v → IsText v) :
    ∃ name, nameUnder es r.key = .ok name := by
  obtain ⟨v, found, fit⟩ := Yaml.get?_of_fits fits distinct r member
  obtain ⟨s, rfl⟩ := text v fit
  rw [nameUnder, found]
  dsimp only
  split
  · exact ⟨"", rfl⟩
  · exact ⟨s, rfl⟩

theorem innerEntries_of_fits {q : Row} {inside : List Row} (maps : ∀ v, r.fits v →
      ∃ es', v = .map .lines es' ∧ List.Forall₂ Row.Fits (q :: inside) es') :
    ∃ es', innerEntries es r.key = .ok es' ∧ List.Forall₂ Row.Fits (q :: inside) es' := by
  obtain ⟨v, found, fit⟩ := Yaml.get?_of_fits fits distinct r member
  obtain ⟨es', rfl, fits'⟩ := maps v fit
  obtain ⟨e, es', rfl⟩ : ∃ e more, es' = e :: more := by
    cases fits'
    exact ⟨_, _, rfl⟩
  refine ⟨e :: es', ?_, fits'⟩
  rw [innerEntries, found]
  rfl

end Reading

/-- What is written of a settled place is read back as a settled place. -/
theorem written_place (settled : p.Settled) (indent : Nat) :
    ∃ q inside, Written indent [(.text "x", p.x), (.text "y", p.y), (.text "z", p.z),
        (.text "rotation", p.rotation), (.text "world", p.world)] (q :: inside) ∧
      ((q :: inside).map Row.key).Nodup ∧
      ∀ es, List.Forall₂ Row.Fits (q :: inside) es → (placeOf es).Settled := by
  obtain ⟨x, y, z, rotation, s, world⟩ := settled
  refine ⟨_, _, .scalar (by decide) (Yaml.scalar_number x) (.scalar (by decide)
    (Yaml.scalar_number y) (.scalar (by decide) (Yaml.scalar_number z) (.scalar (by decide)
    (Yaml.scalar_number rotation) (.scalar (by decide) (world ▸ Yaml.scalar_text s) .nil)))),
    by simp, fun es fits => ?_⟩
  have found {r : Row} := entryOr_of_fits (r := r) fits (by simp)
  exact ⟨found (.head _) _, found (.tail _ (.head _)) _, found (.tail _ (.tail _ (.head _))) _,
    found (.tail _ (.tail _ (.tail _ (.head _)))) _,
    found (.tail _ (.tail _ (.tail _ (.tail _ (.head _))))) _⟩

/-- What is written of a settled interaction is read back as a settled interaction. -/
theorem written_interaction (settled : i.Settled) (indent : Nat) :
    ∃ q inside, Written indent [(.text "enabled", .bool i.enabled),
        (.text "location", placeToYaml i.location),
        (.text "render_distance", i.renderDistance)] (q :: inside) ∧
      ((q :: inside).map Row.key).Nodup ∧
      ∀ es, List.Forall₂ Row.Fits (q :: inside) es →
        ∃ i', interactionOf es = .ok i' ∧ i'.Settled := by
  obtain ⟨q, inside, within, apart, place⟩ :=
    written_place settled.location (indent + Yaml.stepWidth)
  refine ⟨_, _, .scalar (by decide) (Yaml.scalar_flag _) (.map (by decide) within apart
    (.scalar (by decide) (Yaml.scalar_number settled.renderDistance) .nil)), by simp,
    fun es fits => ?_⟩
  obtain ⟨es', found, fits'⟩ := innerEntries_of_fits fits (by simp) (.tail _ (.head _))
    fun _ fit => fit
  refine ⟨_, bind_eq_ok.mpr ⟨es', found, rfl⟩, place es' fits', ?_⟩
  exact entryOr_of_fits fits (by simp) (.tail _ (.tail _ (.head _))) _

/-- What is written of a settled configuration is read back as a settled configuration. -/
theorem written_config (settled : c.Settled) :
    ∃ entries q rows, c.toYaml = .map .program entries ∧ Written 0 entries (q :: rows) ∧
      ((q :: rows).map Row.key).Nodup ∧
      ∀ es, List.Forall₂ Row.Fits (q :: rows) es → ∃ c', ofEntries es = .ok c' ∧ c'.Settled := by
  obtain ⟨q, inside, within, apart, interaction⟩ :=
    written_interaction settled.interaction (0 + Yaml.stepWidth)
  obtain ⟨folder, output⟩ := settled.outputFolder
  refine ⟨[(.text "name", .text c.name), (.text "npc", .text c.npc),
    (.text "interaction", interactionToYaml c.interaction), (.text "output_dir", c.outputFolder)],
    _, _, rfl, .scalar (by decide) (Yaml.scalar_text _) (.scalar (by decide) (Yaml.scalar_text _)
    (.map (by decide) within apart (.scalar (by decide) (output ▸ Yaml.scalar_text folder) .nil))),
    by simp, fun es fits => ?_⟩
  obtain ⟨name, named⟩ := nameUnder_of_fits fits (by simp) (.head _) fun _ fit => fit
  obtain ⟨npc, spoken⟩ := nameUnder_of_fits fits (by simp) (.tail _ (.head _)) fun _ fit => fit
  obtain ⟨es', found, fits'⟩ := innerEntries_of_fits fits (by simp) (.tail _ (.tail _ (.head _)))
    fun _ fit => fit
  obtain ⟨i', read, settled'⟩ := interaction es' fits'
  refine ⟨_, bind_eq_ok.mpr ⟨name, named, bind_eq_ok.mpr ⟨npc, spoken, bind_eq_ok.mpr ⟨es', found,
    bind_eq_ok.mpr ⟨i', read, rfl⟩⟩⟩⟩, settled', ?_⟩
  exact entryOr_of_fits fits (by simp) (.tail _ (.tail _ (.tail _ (.head _)))) _

theorem isNumber_ofQuantity {q : Quantity} (short : q.toJson.Short) : IsNumber (ofQuantity q) := by
  cases q with
  | whole n => exact .int short
  | binary x => exact .float rfl

/-- The configuration of a new project is settled. -/
theorem settled_made (name npc : String) : Settled { name, npc } := by
  have whole (n : Nat) (short : (Json.int n).Short) : IsNumber (.ofInt n) := .int short
  exact ⟨⟨⟨whole 0 (by decide), whole 0 (by decide), whole 0 (by decide), whole 0 (by decide),
    ⟨_, rfl⟩⟩, whole _ (by decide)⟩, ⟨_, rfl⟩⟩

/-- A settled configuration adopts an interaction whose numbers can be written as a settled one. -/
theorem Settled.applyInteraction (settled : c.Settled) {o : Option Interaction}
    (short : ∀ i ∈ o, i.toJson.Short) : (c.applyInteraction o).Settled := by
  cases o with
  | none =>
      exact ⟨⟨settled.interaction.location, settled.interaction.renderDistance⟩,
        settled.outputFolder⟩
  | some i =>
      have short := short i rfl
      simp only [Interaction.toJson, Location.toJson, Json.short_obj, List.forall_mem_cons] at short
      obtain ⟨⟨x, y, z, rotation, -⟩, distance, -⟩ := short
      exact ⟨⟨⟨isNumber_ofQuantity x, isNumber_ofQuantity y, isNumber_ofQuantity z,
        isNumber_ofQuantity rotation, ⟨_, rfl⟩⟩, isNumber_ofQuantity distance⟩,
        settled.outputFolder⟩

/-- New projects have settled configurations, and importing leaves them settled. -/
theorem Settled.carried : Carried Settled where
  made := settled_made
  adopted _ _ _ _ settled short loaded := by
    obtain ⟨interaction, outputFolder⟩ :=
      settled.applyInteraction (Load.short_interaction short loaded)
    exact ⟨interaction, outputFolder⟩

end Config

namespace Project

variable {c : Config} {folder other : Path} {t t' : FileTree}

/-- The text of a settled configuration is parsed as a settled configuration, and its line ends are
in their one form. -/
theorem parseConfig_configText (settled : c.Settled) :
    (∃ c', parseConfig (configText c) = .ok c' ∧ c'.Settled) ∧
      Json.Lacks '\r' (configCharacters c) := by
  obtain ⟨entries, q, rows, stored, written, apart, reads⟩ := Config.written_config settled
  obtain ⟨es, read, fits, all⟩ := written.read apart
  obtain ⟨c', made, settled'⟩ := reads es fits
  have text : configText c = Yaml.write entries := by rw [configText, stored]
  refine ⟨⟨c', ?_, settled'⟩, fun d member => ?_⟩
  · rw [parseConfig, text, read]
    simp only [made]
    rfl
  · rintro rfl
    rw [← text, configText_eq, String.toList_ofList] at all
    cases all '\r' member

/-- Whether a folder is there with the file of a settled configuration. -/
structure Configured (folder : Path) (t : FileTree) : Prop where
  leads : t.Leads folder
  config : ∃ c : Config, c.Settled ∧
    t.at? (place folder ++ [configName]) = some (.file (.text (configText c)))

namespace Configured

/-- Changes elsewhere leave the configuration as it is. -/
theorem elsewhere (h : Configured folder t)
    (change : Within (· ≠ place folder ++ [configName]) t t') : Configured folder t' :=
  ⟨change.leads h.leads, by
    rw [change.others _ (by simp)]
    exact h.config⟩

/-- A file of another name is written elsewhere. -/
theorem named {name : String} (h : Configured folder t) (plain : name ≠ configName)
    (change : Within (· = place other ++ [name]) t t') : Configured folder t' :=
  h.elsewhere (change.named plain)

theorem folders {p : Path} (h : Configured folder t) : Configured folder (t.makeFolders p).1 := by
  obtain ⟨c, -, there⟩ := h.config
  exact h.elsewhere (FileTree.made_of_makeFolders.elsewhere there)

/-- The configuration is saved, or another one in another folder. -/
theorem saveConfig (h : Configured folder t) (settled : place other = place folder → c.Settled)
    (saved : Project.saveConfig t other c = .ok t') : Configured folder t' := by
  obtain ⟨change, file⟩ := FileTree.file_of_write (mapError_eq_ok.mp saved)
  rw [configPath_eq, FileTree.place_within (by decide)] at change file
  by_cases same : place other = place folder
  · exact ⟨change.leads h.leads, c, settled same, same ▸ file⟩
  · refine h.elsewhere (change.mono ?_)
    rintro _ rfl here
    exact same (List.append_cancel_right here)

/-- A draft is not saved in the place of the configuration. -/
theorem save {v : Json} (h : Configured folder t) :
    Configured folder (Draft.save t (draftPath other) v).1 := by
  have h := h.folders (p := other)
  obtain change | ⟨-, -, change, -⟩ := Draft.places_of_attempt t other v
  · exact h.named (by decide) change
  · refine h.elsewhere (change.mono ?_)
    rintro _ (rfl | rfl) here <;>
      exact absurd (congrArg List.getLast? here) (by simp [spareName, draftName, configName])

/-- Nor is a document. -/
theorem document {p : Path} {name : String} {d : Document} (h : Configured folder t) :
    Configured folder (DocumentFile.write t p name d).1 := by
  have h := h.folders (p := p)
  obtain only | ⟨text, -, done⟩ := DocumentFile.after_write (t := t) (d := d)
  · exact only ▸ h
  · obtain ⟨above, last, there⟩ := DocumentFile.exists_place p name
    have plain : last ++ ".json" ≠ configName := by
      intro same
      have ending := congrArg (fun s => s.toList.getLast?) same
      simp [configName] at ending
    exact h.elsewhere (Within.named plain (there ▸ (FileTree.file_of_write done).1))

/-- The file of the configuration is loaded as a settled configuration. -/
theorem loads_of_entry {e : FileEntry} (h : Configured folder t)
    (entry : t.entry? (configPath other) = some e) (same : place other = place folder) :
    ∃ c, Project.loadConfig t other = .ok c ∧ c.Settled := by
  obtain ⟨c, settled, there⟩ := h.config
  have here : e = .file (.text (configText c)) := by
    have found := FileTree.at?_of_entry entry
    rw [configPath_eq, FileTree.place_within (by decide), same, there] at found
    exact (Option.some.inj found).symm
  obtain ⟨⟨c', parsed, settled'⟩, even⟩ := parseConfig_configText settled
  refine ⟨c', ?_, settled'⟩
  rw [loadConfig_of_file (here ▸ entry) even, parsed]
  rfl

/-- The configuration is read as a settled one. -/
theorem loaded (h : Configured folder t) (same : place other = place folder)
    (loaded : Project.loadConfig t other = .ok c) : c.Settled := by
  obtain ⟨e, entry⟩ := Option.isSome_iff_exists.mp (has_of_loadConfig loaded)
  obtain ⟨c', parsed, settled⟩ := h.loads_of_entry entry same
  cases loaded.symm.trans parsed
  exact settled

/-- The settled configuration of a project stays, whatever is done. -/
theorem lasting : Lasting (Configured folder) (fun _ _ => True)
    (fun other c => place other = place folder → c.Settled) where
  folders _ _ h := h.folders
  newFolder _ _ h := by
    obtain ⟨c, -, there⟩ := h.config
    exact h.elsewhere (FileTree.made_of_makeNewFolder.elsewhere there)
  config _ _ _ _ h settled saved := h.saveConfig settled saved
  draft _ _ _ h _ := h.save
  document _ _ _ _ h := h.document
  log _ _ _ _ h added := h.named (by decide) (FileTree.within_of_append (by decide) added)
  opened _ _ _ _ _ _ _ _ _ := trivial
  loaded _ _ _ h loaded same := h.loaded same loaded
  graphs _ := .all
  configs _ :=
    { made := fun name npc _ => Config.settled_made name npc
      adopted := fun c v l events settled short loaded same =>
        Config.Settled.carried.adopted c v l events (settled same) short loaded }

end Configured

end Project

end Parley
