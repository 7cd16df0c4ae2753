import Parley.Proofs.Files.Steps
import Parley.Proofs.Json.LineEnds
import Parley.Proofs.Project.Folder

/-!
# Saving a draft file

A draft is written beside its place and moved there, so a save does all or nothing: the draft that
was there is lost only to the new one, and nothing is left beside it.  That holds on any disk that
does what it reports, wherever it gives up: a write may leave any part of the text behind.

What a save may leave in any case are the folders that it made.  A path can lead through one of them
and back, and then it may be a folder itself.  `FileTree.Treads` excludes that.
-/

namespace Parley

open FileTree (place Within)

namespace Draft

variable {tree made tree' : FileTree} {path p : Path} {draft : Json} {fields : Fields}
  {content : Content} {name : String} {failure : Failure}

/-- How texts are written and files are moved.  A disk may give up; then it answers why. -/
structure Disk where
  write : FileTree → Path → String → FileTree × Except Failure Unit
  move : FileTree → Path → Path → Except Failure FileTree

/-- Whether a file was begun at a path: there is any content now, or all is as it was. -/
def Begun (spare : Path) (tree tree' : FileTree) : Prop :=
  tree' = tree ∨ tree.at? (place spare) ≠ some .folder ∧
    ∃ content, tree' = tree.put spare (.file content)

namespace Disk

/-- The disk that gives up only where the tree refuses an operation. -/
def plain : Disk where
  write tree path text :=
    match tree.write path text with
    | .error e => (tree, .error (.file e))
    | .ok tree => (tree, .ok ())
  move tree source target := (tree.move source target).mapError .file

/-- Whether a disk does what it reports.  A write that gives up may have begun the file; a move that
gives up has moved nothing. -/
structure Faithful (disk : Disk) : Prop where
  wrote : ∀ {tree tree' path text}, disk.write tree path text = (tree', .ok ()) →
    tree.write path text = .ok tree'
  broke : ∀ {tree tree' path text failure}, disk.write tree path text = (tree', .error failure) →
    Begun path tree tree'
  moved : ∀ {tree tree' source target}, disk.move tree source target = .ok tree' →
    tree.move source target = .ok tree'

theorem plain_faithful : plain.Faithful where
  wrote {tree tree' path text} done := by
    simp only [plain] at done
    split at done
    next => cases done
    next written => cases done; exact written
  broke {tree tree' path text failure} done := by
    simp only [plain] at done
    split at done
    next => cases done; exact .inl rfl
    next => cases done
  moved done := mapError_eq_ok.mp done

end Disk

/-- Writes a draft beside its place on a disk and moves it there. -/
def replaceOn (disk : Disk) (tree : FileTree) (path : Path) (draft : Json) :
    FileTree × Except Failure FileTree :=
  match draft.text Json.Layout.document with
  | .error e => (tree, .error (.digits e))
  | .ok text =>
    match disk.write tree (besides path) text with
    | (tree, .error e) => (tree, .error e)
    | (written, .ok ()) => (written, disk.move written (besides path) path)

/-- Removes what a failed save leaves beside the place of the draft. -/
def cleaned (tree : FileTree) (path : Path) (e : Failure) :
    FileTree × Except Failure (List Log.Event) :=
  if !tree.has (besides path) then (tree, .error e)
  else match tree.remove (besides path) with
    | .ok tree => (tree, .error e)
    | .error e => (tree, .error (.file e))

/-- Saves a draft in a file on a disk. -/
def saveOn (disk : Disk) (tree : FileTree) (path : Path) (draft : Json) :
    FileTree × Except Failure (List Log.Event) :=
  match tree.makeFolders path.parent with
  | (tree, .error e) => (tree, .error (.file e))
  | (tree, .ok ()) =>
    if path.names.isEmpty then (tree, .error (.noName path))
    else match replaceOn disk tree path draft with
      | (_, .ok tree) => (tree, .ok [⟨Log.Logger.drafts, "draft_saved", .debug,
          [("path", .str path.text)]⟩])
      | (tree, .error e) => cleaned tree path e

theorem replaceOn_plain : replaceOn .plain tree path draft = replace tree path draft := by
  rw [replaceOn, replace]
  cases draft.text Json.Layout.document with
  | error e => rfl
  | ok text =>
      cases written : tree.write (besides path) text with
      | error e => simp [Disk.plain, written]
      | ok tree' => simp [Disk.plain, written]

/-- A draft is saved on a disk that gives up only where the tree refuses. -/
theorem saveOn_plain : saveOn .plain tree path draft = save tree path draft := by
  simp only [saveOn, save, replaceOn_plain]
  rfl

/-- The path beside that of a name in a folder is one in this folder. -/
theorem besides_within : besides (p.within name) = p.within (name ++ ".tmp") := by
  simp [besides, Path.addSuffix, Path.within, Path.name]

/-- A file that holds the text of an object is loaded as the object. -/
theorem load_of_entry (entry : tree.entry? path = some (.file content))
    (holds : content.Holds (.obj fields)) : load tree path = .ok (some (.obj fields)) := by
  obtain ⟨text, read, value⟩ := holds
  rw [load_of_file entry, read]
  simp only [Except.mapError, bind, Except.bind, value]
  rfl

/-- The name beside that of a draft is no step to a parent folder. -/
theorem spare_ne (name : String) : name ++ ".tmp" ≠ ".." := by
  intro same
  have size : name.length + 4 = 2 := by
    have size := congrArg String.length same
    rwa [String.length_append] at size
  omega

/-- The draft does not stand where it is written first. -/
theorem place_ne_besides (p : Path) (name : String) :
    place (p.within name) ≠ place (besides (p.within name)) := by
  rw [besides_within]
  exact FileTree.place_within_ne (by simp) (spare_ne name)

/-- A draft that is replaced is loaded as the draft, and there is nothing beside it. -/
theorem replaceOn_saved {disk : Disk} (faithful : disk.Faithful) (keyed : (Json.obj fields).Keyed)
    (named : path.names ≠ []) (done : (replaceOn disk tree path (.obj fields)).2 = .ok tree') :
    load tree' path = .ok (some (.obj fields)) ∧ tree'.has (besides path) = false := by
  obtain ⟨p, name, rfl⟩ : ∃ (p : Path) (name : String), path = p.within name :=
    ⟨_, _, Path.eq_within named⟩
  rw [replaceOn] at done
  split at done
  next => cases done
  next text shown =>
    split at done
    next => cases done
    next written reported =>
      have writing := faithful.wrote reported
      have moving := faithful.moved done
      have apart := place_ne_besides p name
      rw [besides_within] at writing moving apart ⊢
      obtain ⟨entry, none⟩ := FileTree.file_of_move apart.symm writing moving
      exact ⟨load_of_entry entry (Content.holds_text _ keyed shown), none⟩

/-- A draft that is not replaced was begun beside its place at most. -/
theorem replaceOn_failed {disk : Disk} (faithful : disk.Faithful)
    (failed : replaceOn disk tree path draft = (tree', .error failure)) :
    Begun (besides path) tree tree' := by
  rw [replaceOn] at failed
  split at failed
  next =>
    cases failed
    exact .inl rfl
  next =>
    split at failed
    next reported =>
      cases failed
      exact faithful.broke reported
    next written reported =>
      obtain rfl : written = tree' := congrArg Prod.fst failed
      obtain ⟨none, free, rfl⟩ := FileTree.write_eq_ok.mp (faithful.wrote reported)
      refine .inr ⟨?_, _, rfl⟩
      rwa [FileTree.hasFolder, FileTree.entry?_of_refusal? none, beq_eq_false_iff_ne] at free

theorem Begun.within {spare : Path} (h : Begun spare tree tree') :
    Within (· = place spare) tree tree' := by
  obtain rfl | ⟨free, content, rfl⟩ := h
  · exact .refl
  · exact .put free rfl

/-- Cleaning up after a failed save removes what was begun, or there was nothing to remove. -/
theorem cleaned_spares (failure : Failure) (h : Begun (besides path) tree tree') :
    ∃ after e, cleaned tree' path failure = (after, .error e) ∧
      Within (· = place (besides path)) tree after ∧
      (after.has (besides path) = false ∨ after = tree) := by
  rw [cleaned]
  cases there : tree'.has (besides path) with
  | false => exact ⟨tree', failure, by simp, h.within, .inl there⟩
  | true =>
      cases removed : tree'.remove (besides path) with
      | ok after =>
          obtain ⟨content, entry, rfl⟩ := FileTree.remove_eq_ok.mp removed
          have file := FileTree.at?_of_entry entry
          refine ⟨_, failure, by simp, h.within.trans (FileTree.within_of_remove removed), .inl ?_⟩
          exact FileTree.has_of_at? (FileTree.at?_erase_self (by simp [file]))
      | error e =>
          refine ⟨tree', .file e, by simp, h.within, .inr ?_⟩
          have folder : tree'.at? (place (besides path)) = some .folder :=
            FileTree.folder_of_remove there removed
          obtain rfl | ⟨free, content, rfl⟩ := h
          · rfl
          · cases (FileTree.at?_put_self free).symm.trans folder

/-- What a save that fails leaves: a draft file that was there, all that was at the path of the
draft, and beside it at most what was there. -/
structure Spared (tree after : FileTree) (path : Path) : Prop where
  file : ∀ content, tree.at? (place path) = some (.file content) →
    after.at? (place path) = some (.file content)
  draft : tree.Treads path → after.entry? path = tree.entry? path
  spare : tree.Treads path →
    after.has (besides path) = false ∨ after.entry? (besides path) = tree.entry? (besides path)

/-- Whether a save did all of its work or none. -/
def AllOrNothing (tree : FileTree) (path : Path) (fields : Fields) :
    FileTree × Except Failure (List Log.Event) → Prop
  | (after, .ok _) =>
    load after path = .ok (some (.obj fields)) ∧ after.has (besides path) = false
  | (after, .error _) =>
    Spared tree after path ∧ (tree.Treads path → load after path = load tree path)

theorem Spared.refl : Spared tree tree path := ⟨fun _ => id, fun _ => rfl, fun _ => .inr rfl⟩

/-- A draft that is spared is loaded as before, or not loaded for the same reason. -/
theorem Spared.load_eq {after : FileTree} (h : Spared tree after path) (treads : tree.Treads path) :
    load after path = load tree path := by
  have same := h.draft treads
  cases entry : tree.entry? path with
  | none =>
      rw [entry] at same
      rw [load, load, FileTree.has, FileTree.has, entry, same]
      rfl
  | some e =>
      rw [entry] at same
      cases e with
      | file content => rw [load_of_file entry, load_of_file same]
      | folder =>
          rw [load, load, FileTree.has_of_entry entry, FileTree.has_of_entry same,
            FileTree.readText, FileTree.readText, FileTree.content, FileTree.content, entry, same]

theorem AllOrNothing.of_spared {after : FileTree} {e : Failure} (h : Spared tree after path) :
    AllOrNothing tree path fields (after, .error e) := ⟨h, h.load_eq⟩

/-- Making folders and changing something beside the place of a draft spares the draft. -/
theorem Spared.of_within {after : FileTree}
    (change : Within (· = place (besides (p.within name))) (tree.makeFolders p).1 after)
    (clean : after.has (besides (p.within name)) = false ∨ after = (tree.makeFolders p).1) :
    Spared tree after (p.within name) where
  file content there := by
    have made : FileTree.Made _ tree (tree.makeFolders p).1 := FileTree.made_of_makeFolders
    have kept := (made.elsewhere there).others (place (p.within name)) (by simp)
    rw [change.others _ (place_ne_besides p name), kept, there]
  draft treads := by
    have onward : (tree.makeFolders p).1.Treads (p.within name) :=
      treads.of_within FileTree.made_of_makeFolders
    have outward : after.Treads (p.within name) := onward.of_within change
    rw [← treads.entry?_makeFolders, FileTree.entry?_of_passable onward.passable,
      FileTree.entry?_of_passable outward.passable, change.others _ (place_ne_besides p name)]
  spare treads := by
    refine clean.imp_right fun same => ?_
    rw [same, besides_within]
    exact (treads.beside (spare_ne name)).entry?_makeFolders

/-- A save on a disk that does what it reports does all of its work or none.  It leaves a draft that
is loaded as what was saved, and nothing beside it; or it fails, and a draft file that was there
stays as it is.  Where the path steps to parent folders out of folders that are there, nothing else
than the draft that was there is at its path after a failure, it is loaded as before, and nothing is
beside it that was not there before. -/
theorem save_all_or_nothing (keyed : (Json.obj fields).Keyed) (tree : FileTree) (path : Path) :
    AllOrNothing tree path fields (save tree path (.obj fields)) ∧
      ∀ disk : Disk, disk.Faithful →
        AllOrNothing tree path fields (saveOn disk tree path (.obj fields)) := by
  have all (disk : Disk) (faithful : disk.Faithful) :
      AllOrNothing tree path fields (saveOn disk tree path (.obj fields)) := by
    rw [saveOn]
    by_cases named : path.names = []
    · have start : tree.makeFolders path.parent = (tree, .ok ()) := by
        simp [FileTree.makeFolders, Path.parent, named, FileTree.makeFoldersTo]
      simp only [start, named, List.isEmpty_nil, if_true]
      exact .of_spared .refl
    · obtain ⟨p, name, rfl⟩ : ∃ (p : Path) (name : String), path = p.within name :=
        ⟨_, _, Path.eq_within named⟩
      rw [Path.parent_within]
      rcases making : tree.makeFolders p with ⟨made, e | _⟩
      · obtain rfl : (tree.makeFolders p).1 = made := congrArg Prod.fst making
        exact .of_spared (.of_within .refl (.inr rfl))
      · obtain rfl : (tree.makeFolders p).1 = made := congrArg Prod.fst making
        dsimp only
        rw [if_neg (by simpa using named)]
        rcases done : replaceOn disk (tree.makeFolders p).1 (p.within name) (.obj fields) with
          ⟨tree', failure | after⟩
        · obtain ⟨after, e, cleaned, change, clean⟩ :=
            cleaned_spares failure (replaceOn_failed faithful done)
          dsimp only
          rw [cleaned]
          exact .of_spared (.of_within change clean)
        · exact replaceOn_saved faithful keyed named (congrArg Prod.snd done)
  exact ⟨saveOn_plain ▸ all .plain Disk.plain_faithful, all⟩

/-- A draft takes the place of an older one, at a path that leads out of its folder and back.  It
does not take the place of the folder, and what was written beside that is removed. -/
theorem save_all_or_nothing_of_steps :
    let tree : FileTree := ⟨[(["demo"], .folder), (["demo", "graph.json"], .file (.text "[]"))]⟩
    let path : Path := ⟨none, ["demo", "..", "demo", "graph.json"]⟩
    let folder : Path := ⟨none, ["demo", "..", "demo"]⟩
    let fields : Fields := [("nodes", .arr [])]
    (Json.obj fields).Keyed ∧
      (∃ after events, save tree path (.obj fields) = (after, .ok events) ∧
        load after path = .ok (some (.obj fields)) ∧ after.has (besides path) = false) ∧
      ∃ after e, save tree folder (.obj fields) = (after, .error e) ∧
        after.entry? folder = tree.entry? folder ∧ load after folder = load tree folder ∧
        after.has (besides folder) = false := by
  intro tree path folder fields
  have keyed : (Json.obj fields).Keyed := by
    simp [fields]
  obtain ⟨saved, -⟩ := save_all_or_nothing keyed tree path
  obtain ⟨spared, -⟩ := save_all_or_nothing keyed tree folder
  have written : (save tree path (.obj fields)).2.isOk = true := by decide +kernel
  have refused : (save tree folder (.obj fields)).2.isOk = false := by decide +kernel
  have treads : tree.Treads folder := by decide
  have bare : tree.entry? (besides folder) = none := by decide
  refine ⟨keyed, ?_, ?_⟩
  · rcases done : save tree path (.obj fields) with ⟨after, failure | events⟩
    · rw [done] at written
      cases written
    · rw [done] at saved
      exact ⟨after, events, rfl, saved⟩
  · rcases done : save tree folder (.obj fields) with ⟨after, failure | events⟩
    · rw [done] at spared
      have clean : after.has (besides folder) = false :=
        (spared.1.spare treads).elim id fun same => by rw [FileTree.has, same, bare]; rfl
      exact ⟨after, failure, rfl, spared.1.draft treads, spared.2 treads, clean⟩
    · rw [done] at refused
      cases refused

/-- A path that leads into a folder that is not there and back to its name is a folder after the
save, which fails. -/
theorem save_makes_folder :
    let path : Path := ⟨none, ["x", "..", "x"]⟩
    (⟨[]⟩ : FileTree).has path = false ∧ ∃ after e,
      save ⟨[]⟩ path (.obj []) = (after, .error e) ∧ after.entry? path = some .folder :=
  ⟨by decide, _, _, rfl, by decide⟩

end Draft

end Parley
