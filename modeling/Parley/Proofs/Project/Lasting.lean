import Parley.Document.File
import Parley.Proofs.Document.Text
import Parley.Proofs.Files.Growth
import Parley.Proofs.Graph.Proper
import Parley.Proofs.Json.LineEnds
import Parley.Proofs.Json.Size
import Parley.Proofs.Project.Folder

/-!
# What commands leave in a project

Commands change files by a handful of operations: they make folders, save configurations and drafts,
write documents and add to log files.  `Lasting` says of a property of the files that none of these
takes it away.  That there is a graph in the draft of a project is such a property: a draft is only
overwritten by another one, or by a document, and both are read as graphs.  What editing and loading
leave as it is holds of that graph as long as it does of the first one.
-/

namespace Parley

open FileTree (place Within)
open Project (draftPath draftName configName spareName)

variable {t t' : FileTree} {folder other : Path} {v : Json} {content : Content} {g : Graph}

/-- A draft that is not replaced leaves a change beside its place at most. -/
theorem Draft.within_of_replace {path : Path} {failure : Failure}
    (failed : replace t path v = (t', .error failure)) :
    Within (· = place (besides path)) t t' := by
  rw [replace] at failed
  split at failed
  next =>
    cases failed
    exact .refl
  next =>
    split at failed
    next =>
      cases failed
      exact .refl
    next tree written =>
      have here : tree = t' := congrArg Prod.fst failed
      exact here ▸ (FileTree.file_of_write written).1

/-- What a save leaves of the tree, once folders are made: a change beside the place of the draft at
most, or the draft in its place as well. -/
theorem Draft.places_of_attempt (t : FileTree) (other : Path) (v : Json) :
    Within (· = place other ++ [spareName]) (t.makeFolders other).1
        (save t (draftPath other) v).1 ∨
      ∃ text, v.text Json.Layout.document = .ok text ∧
        Within (Project.DraftPlace other) (t.makeFolders other).1 (save t (draftPath other) v).1 ∧
        (save t (draftPath other) v).1.at? (place other ++ [draftName]) =
          some (.file (.text text)) := by
  have spare : place (besides (draftPath other)) = place other ++ [spareName] := by
    rw [Project.besides_draftPath, FileTree.place_within (by decide)]
  rw [save, Project.parent_draftPath]
  rcases t.makeFolders other with ⟨between, e | _⟩
  · exact .inl .refl
  dsimp only
  rw [if_neg (by simp [Project.draftPath_eq, Path.within])]
  rcases done : replace between (draftPath other) v with ⟨tree, failed | saved⟩
  · have before := spare ▸ within_of_replace done
    refine .inl ?_
    dsimp only
    split
    next => exact before
    next =>
      split
      next removed => exact before.trans (spare ▸ FileTree.within_of_remove removed)
      next => exact before
  · have replaced : (replace between (draftPath other) v).2 = .ok saved := by rw [done]
    obtain ⟨_, _, -, written, -⟩ := replace_eq_ok.mp replaced
    rw [Project.besides_draftPath] at written
    have leads := FileTree.leads_of_refusal? (FileTree.write_eq_ok.mp written).1
    obtain ⟨events, again⟩ := (save_eq_ok leads).mpr replaced
    obtain ⟨text, shown, draft, -, change⟩ := places_of_save leads again
    exact .inr ⟨text, shown, change, draft⟩

/-- Folders stay where a draft is saved, whether or not the save succeeds. -/
theorem Draft.folder_of_save {z : List String} (there : t.at? z = some .folder) :
    (save t (draftPath other) v).1.at? z = some .folder := by
  have there := (FileTree.made_of_makeFolders (p := other)).grows.folders z there
  obtain change | ⟨-, -, change, -⟩ := Draft.places_of_attempt t other v
  · exact change.folders z there
  · exact change.folders z there

/-- What writing a document leaves of the tree: the folders that were made, or its file in them. -/
theorem DocumentFile.after_write {p : Path} {name : String} {d : Document} :
    (write t p name d).1 = (t.makeFolders p).1 ∨
      ∃ text, d.toJson.text Json.Layout.document = .ok text ∧
        (t.makeFolders p).1.write (place p name) text = .ok (write t p name d).1 := by
  rw [write]
  rcases t.makeFolders p with ⟨between, e | _⟩
  · exact .inl rfl
  dsimp only
  cases written : d.toJson.text Json.Layout.document with
  | error e => exact .inl rfl
  | ok text =>
      dsimp only
      cases done : between.write (place p name) text with
      | error e => exact .inl rfl
      | ok tree => exact .inr ⟨text, rfl, done⟩

/-- Properties of graphs that hold of those from which commands set out and that their edits
keep. -/
structure Graph.Carried (R : Graph → Prop) : Prop where
  empty : R .empty
  loaded : ∀ v (l : Loaded) events, load v = (.ok (.ok l), events) → R l.graph
  edit : ∀ (g : Graph) supply (e : Edit), R g → e.Typed → ¬ e.Copies → R (g.edit supply e).graph

theorem Graph.Carried.all : Graph.Carried fun _ => True where
  empty := trivial
  loaded _ _ _ _ := trivial
  edit _ _ _ _ _ _ := trivial

/-- Edits and loading leave graphs regular. -/
theorem Graph.Regular.carried : Graph.Carried Graph.Regular where
  empty := .empty
  loaded _ _ _ := Load.load_regular
  edit _ _ _ h typed _ := preserved_by_changes (P := Graph.Regular) Graph.Regular.change h
    (Graph.edit_changes typed)

/-- Properties of configurations that hold of those of new projects and that the adoption of a
document keeps. -/
structure Config.Carried (K : Config → Prop) : Prop where
  made : ∀ name npc, K { name, npc }
  adopted : ∀ c v (l : Loaded) events, K c → v.Short → load v = (.ok (.ok l), events) →
    K { c.applyInteraction l.interaction with npc := l.npc }

theorem Config.Carried.all : Config.Carried fun _ => True where
  made _ _ := trivial
  adopted _ _ _ _ _ _ _ := trivial

/-- Properties of files that outlast what is written into the folder of a project, as long as the
graphs and the configurations that are saved there are as they should be. -/
structure Outlasts (P : FileTree → Prop) (Q : Path → Graph → Prop) (K : Path → Config → Prop) :
    Prop where
  config : ∀ t folder c t', P t → K folder c → Project.saveConfig t folder c = .ok t' → P t'
  draft : ∀ t folder (g : Graph), P t → Q folder g → P (Draft.save t (draftPath folder) g.toJson).1
  log : ∀ (t : FileTree) folder line t',
    P t → t.append (Log.Session.fileOf folder) line = .ok t' → P t'

/-- Properties of files that no operation of a command takes away, as long as the graphs and the
configurations that are saved in a folder are as they should be.  Those that are opened and loaded
there are so in turn. -/
structure Lasting (P : FileTree → Prop) (Q : Path → Graph → Prop) (K : Path → Config → Prop) : Prop
    extends Outlasts P Q K where
  folders : ∀ (t : FileTree) (p : Path), P t → P (t.makeFolders p).1
  newFolder : ∀ (t : FileTree) (p : Path), P t → P (t.makeNewFolder p).1
  document : ∀ t p name d, P t → P (DocumentFile.write t p name d).1
  opened : ∀ t folder content v g, P t → t.entry? (draftPath folder) = some (.file content) →
    content.Holds v → Graph.ofJson v = .ok g → Q folder g
  loaded : ∀ t folder c, P t → Project.loadConfig t folder = .ok c → K folder c
  graphs : ∀ folder, Graph.Carried (Q folder)
  configs : ∀ folder, Config.Carried (K folder)

/-- Nothing is asked of the files, nor of the graphs and the configurations. -/
theorem Lasting.all : Lasting (fun _ => True) (fun _ _ => True) (fun _ _ => True) where
  config _ _ _ _ _ _ _ := trivial
  draft _ _ _ _ _ := trivial
  log _ _ _ _ _ _ := trivial
  folders _ _ _ := trivial
  newFolder _ _ _ := trivial
  document _ _ _ _ _ := trivial
  opened _ _ _ _ _ _ _ _ _ := trivial
  loaded _ _ _ _ _ := trivial
  graphs _ := .all
  configs _ := .all

namespace Project

/-- Whether a folder is there with a draft in which there is a graph. -/
structure Lives (folder : Path) (t : FileTree) : Prop where
  leads : t.Leads folder
  draft : ∃ content v g, t.at? (place folder ++ [draftName]) = some (.file content) ∧
    content.Holds v ∧ Graph.ofJson v = .ok g

/-- Whether a folder is there with a draft in which there is a graph that is as it should be. -/
structure Hosts (R : Graph → Prop) (folder : Path) (t : FileTree) : Prop where
  leads : t.Leads folder
  draft : ∃ content v g, t.at? (place folder ++ [draftName]) = some (.file content) ∧
    content.Holds v ∧ Graph.ofJson v = .ok g ∧ R g

/-- The graphs that may be saved in a folder without harm to the graph that another one hosts. -/
def Harmless (R : Graph → Prop) (folder other : Path) (g : Graph) : Prop :=
  g.Proper ∧ (place other = place folder → R g)

namespace Hosts

variable {R : Graph → Prop}

theorem mono {R' : Graph → Prop} (h : Hosts R folder t) (weaker : ∀ g, R g → R' g) :
    Hosts R' folder t := by
  obtain ⟨leads, content, v, g, there, holds, read, right⟩ := h
  exact ⟨leads, content, v, g, there, holds, read, weaker g right⟩

/-- Changes elsewhere leave the draft as it is. -/
theorem elsewhere (h : Hosts R folder t) (change : Within (· ≠ place folder ++ [draftName]) t t') :
    Hosts R folder t' :=
  ⟨change.leads h.leads, by
    rw [change.others _ (by simp)]
    exact h.draft⟩

/-- The same is there by another path to the folder. -/
theorem moved (h : Hosts R folder t) (leads : t.Leads other) (same : place other = place folder) :
    Hosts R other t :=
  ⟨leads, same ▸ h.draft⟩

/-- The draft may be overwritten by a text of another value that is read as such a graph. -/
theorem overwritten {text : String} {layout : Json.Layout} {places : List String → Prop}
    (h : Hosts R folder t) (change : Within places t t') (keyed : v.Keyed)
    (written : v.text layout = .ok text) (read : Graph.ofJson v = .ok g) (right : R g)
    (draft : t'.at? (place folder ++ [draftName]) = some (.file (.text text))) :
    Hosts R folder t' :=
  ⟨change.leads h.leads, _, v, g, draft, Content.holds_text layout keyed written, read, right⟩

/-- A file of another name is written elsewhere. -/
theorem named {name : String} (h : Hosts R folder t) (plain : name ≠ draftName)
    (change : Within (· = place other ++ [name]) t t') : Hosts R folder t' :=
  h.elsewhere (change.named plain)

theorem folders {p : Path} (h : Hosts R folder t) : Hosts R folder (t.makeFolders p).1 := by
  obtain ⟨content, v, g, there, -⟩ := h.draft
  exact h.elsewhere (FileTree.made_of_makeFolders.elsewhere there)

/-- A graph that is saved in any folder is there to be read, if it is saved at all. -/
theorem save (h : Hosts R folder t) (harmless : Harmless R folder other g) :
    Hosts R folder (Draft.save t (draftPath other) g.toJson).1 := by
  obtain ⟨proper, right⟩ := harmless
  have h := h.folders (p := other)
  obtain change | ⟨text, written, change, draft⟩ := Draft.places_of_attempt t other g.toJson
  · exact h.named (by decide) change
  · by_cases same : place other = place folder
    · have placed : g.Placed := proper.entered.placed
      exact h.overwritten change placed.keyed written proper.ofJson_toJson (right same)
        (same ▸ draft)
    · refine h.elsewhere (change.mono ?_)
      rintro _ (rfl | rfl) here
      · exact absurd (congrArg List.getLast? here) (by simp [spareName, draftName])
      · exact same (List.append_cancel_right here)

/-- A document is not written in the place of the draft, or it is read as the empty graph there. -/
theorem document {p : Path} {name : String} {d : Document} (h : Hosts R folder t)
    (empty : R .empty) :
    Hosts R folder (DocumentFile.write t p name d).1 := by
  have h := h.folders (p := p)
  obtain only | ⟨text, written, done⟩ := DocumentFile.after_write (t := t) (d := d)
  · exact only ▸ h
  · obtain ⟨change, file⟩ := FileTree.file_of_write done
    by_cases same : place folder ++ [draftName] = place (DocumentFile.place p name)
    · exact h.overwritten change d.keyed_toJson written d.ofJson_toJson empty (same ▸ file)
    · exact h.elsewhere (change.mono fun _ here there => same (there.symm.trans here))

/-- A graph that is read at the place of the draft is the one that is there. -/
theorem read {content : Content} (h : Hosts R folder t)
    (entry : t.entry? (draftPath other) = some (.file content)) (holds : content.Holds v)
    (read : Graph.ofJson v = .ok g) (same : place other = place folder) : R g := by
  obtain ⟨content', v', g', there, holds', read', right⟩ := h.draft
  unfold FileTree.entry? at entry
  split at entry
  next =>
    rw [draftPath_eq, FileTree.place_within (by decide), same] at entry
    cases there.symm.trans entry
    cases holds.unique holds'
    cases read.symm.trans read'
    exact right
  next => cases entry

/-- What commands carry from graph to graph holds of the graph in the draft of a project, whatever
is done. -/
theorem lasting (carried : Graph.Carried R) :
    Lasting (Hosts R folder) (Harmless R folder) (fun _ _ => True) where
  folders _ _ h := h.folders
  newFolder _ _ h := by
    obtain ⟨content, v, g, there, -⟩ := h.draft
    exact h.elsewhere (FileTree.made_of_makeNewFolder.elsewhere there)
  config _ _ _ _ h _ saved :=
    h.named (by decide) (FileTree.within_of_write (by decide) (mapError_eq_ok.mp saved))
  draft _ _ _ h := h.save
  document _ _ _ _ h := h.document carried.empty
  log _ _ _ _ h added := h.named (by decide) (FileTree.within_of_append (by decide) added)
  opened _ _ _ _ _ h entry holds read := ⟨.of_ofJson read, h.read entry holds read⟩
  loaded _ _ _ _ _ := trivial
  configs _ := .all
  graphs _ :=
    { empty := ⟨.empty, fun _ => carried.empty⟩
      loaded := fun v l events done => ⟨.of_load done, fun _ => carried.loaded v l events done⟩
      edit := fun g supply e h typed single =>
        ⟨h.1.edit typed single, fun same => carried.edit g supply e (h.2 same) typed single⟩ }

end Hosts

/-- That there is some graph is the least that a folder hosts. -/
theorem lives_iff : Lives folder t ↔ Hosts (fun _ => True) folder t :=
  ⟨fun ⟨leads, content, v, g, there, holds, read⟩ =>
      ⟨leads, content, v, g, there, holds, read, trivial⟩,
    fun ⟨leads, content, v, g, there, holds, read, _⟩ => ⟨leads, content, v, g, there, holds, read⟩⟩

namespace Lives

/-- The same is there by another path to the folder. -/
theorem moved (h : Lives folder t) (leads : t.Leads other) (same : place other = place folder) :
    Lives other t :=
  lives_iff.mpr ((lives_iff.mp h).moved leads same)

/-- Where there is a graph in the draft of a project, no command takes it away. -/
theorem lasting :
    Lasting (Lives folder) (Harmless (fun _ => True) folder) (fun _ _ => True) := by
  have alike : Lives folder = Hosts (fun _ => True) folder :=
    funext fun _ => propext lives_iff
  rw [alike]
  exact Hosts.lasting .all

end Lives

end Project

end Parley
