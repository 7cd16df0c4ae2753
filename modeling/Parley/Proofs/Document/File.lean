import Parley.Document.File
import Parley.Proofs.Document.Reading
import Parley.Proofs.Document.Text
import Parley.Proofs.Json.Size
import Parley.Proofs.Project.Lasting
import Parley.Proofs.Record.Stored

/-!
# Document files read back

A document that is written to a file is read from it as the same fields, each number, truth value
and text as it was, and the fields are read as the same document.  What may keep it from being
written is the folder or a whole number that is too long; where neither does, it is written.
-/

namespace Parley

namespace FileTree

variable {t t' : FileTree} {p : Path} {s : String}

/-- A file that was written is read as the text in it. -/
theorem content_of_write (written : t.write p s = .ok t') : t'.content p = .ok (.text s) := by
  obtain ⟨none, -, -⟩ := write_eq_ok.mp written
  obtain ⟨change, there⟩ := file_of_write written
  -- The steps to parent folders on the path are still taken from folders.
  have passable : t'.passable p = true := by
    rw [passable, List.all_eq_true]
    intro n member
    have folder := change.folders _ (at?_of_refusal? none (List.mem_range.mp member))
    simp only [Bool.or_eq_true, beq_iff_eq]
    exact .inr folder
  rw [content, entry?_of_passable passable, there]

end FileTree

namespace DocumentFile

variable {tree tree' : FileTree} {folder path : Path} {name text : String} {fields : Fields}
  {layout : Json.Layout} {d : Document}

/-- Whether a folder takes the file of a dialogue: it is there or can be made, and nothing is in the
way of the file. -/
def Takes (tree : FileTree) (folder : Path) (name : String) : Prop :=
  ∃ made, tree.makeFolders folder = (made, .ok ()) ∧ made.refusal? (place folder name) = none ∧
    made.hasFolder (place folder name) = false

/-- What is read of a file after the text of an object was written to it. -/
theorem read_written (keyed : (Json.obj fields).Keyed)
    (made : (Json.obj fields).text layout = .ok text) (written : tree.write path text = .ok tree') :
    read tree' path = .ok (.ok fields) := by
  have there := FileTree.content_eq_ok.mp (FileTree.content_of_write written)
  exact read_eq_ok.mpr ⟨text, ⟨_, there, rfl⟩, Json.spelled_text keyed made⟩

/-- The last name at the place of the file of a dialogue ends as such files do. -/
theorem exists_place (folder : Path) (name : String) :
    ∃ above last, FileTree.place (place folder name) = above ++ [last ++ ".json"] := by
  obtain ⟨front, last, names⟩ := folder.exists_names_child name ".json" (by decide) (by decide)
  have plain : last ++ ".json" ≠ ".." := by
    intro same
    have size := congrArg (fun s => s.toList.length) same
    simp at size
  have within : place folder name =
      Path.within { place folder name with names := front } (last ++ ".json") := by
    rw [Path.within, ← names]
    rfl
  exact ⟨_, last, within ▸ FileTree.place_within plain⟩

/-- The whole numbers in a file that is read can be written. -/
theorem short_of_read (read : read tree path = .ok (.ok fields)) : (Json.obj fields).Short := by
  obtain ⟨text, -, spelled⟩ := read_eq_ok.mp read
  obtain ⟨ds, es, -, spells, -⟩ := spelled
  exact spells.short

/-- A document is written where a folder takes its file, unless a whole number in it is too long. -/
theorem exists_write (takes : Takes tree folder name) (short : d.toJson.Short) :
    ∃ (before : FileTree) (text : String) (tree' : FileTree),
      d.toJson.text Json.Layout.document = .ok text ∧
      before.write (place folder name) text = .ok tree' ∧
      write tree folder name d = (tree', .ok (place folder name)) := by
  obtain ⟨before, made, clear, free⟩ := takes
  obtain ⟨text, spelled⟩ : ∃ text, d.toJson.text Json.Layout.document = .ok text :=
    ⟨_, Json.text_eq_ok.mpr ⟨short, rfl⟩⟩
  obtain ⟨tree', written⟩ : ∃ tree', before.write (place folder name) text = .ok tree' :=
    ⟨_, FileTree.write_eq_ok.mpr ⟨clear, free, rfl⟩⟩
  refine ⟨before, text, tree', spelled, written, ?_⟩
  simp only [write, made, spelled, written]

/-- A document that is written to a folder is in its file: the file holds the fields of the
document, and they are read as the document.  It is written wherever the folder takes the file. -/
theorem read_write (takes : Takes tree folder name) (short : d.toJson.Short) :
    ∃ tree', write tree folder name d = (tree', .ok (place folder name)) ∧
      read tree' (place folder name) = .ok (.ok d.fields) ∧
      Document.read (.obj d.fields) = .ok d := by
  obtain ⟨before, text, tree', made, written, done⟩ := exists_write takes short
  exact ⟨tree', done, read_written d.keyed_toJson made written, d.read_toJson⟩

/-- A document whose texts need escapes, with both kinds of numbers, scalars of every kind and rows
of every kind; it takes the place of a file that holds no text. -/
theorem read_write_of_sample :
    let d : Document := {
      npc := "Zo\u00eb \"the smith\"\n"
      interaction := some { location := { x := .whole 3, y := .binary (.ofRatio false 1 2) } }
      actions := [{ id := "ask", label := "\t\u2603\u007f", target := some ⟨"rich", .condition⟩ }]
      results := [{
        id := "hello"
        preferred := some "ask"
        actions := ["ask"]
        close := { enabled := true, delay := 0 }
        executors := [.dialogStore "met" (.bool true), .setCoins (.int (-3)),
          .setGems (.float (.ofRatio false 3 1)), .dialogStore "mood" .null] }]
      conditions := [{
        id := "rich"
        condition := .equal
        objective := .text "3.0"
        onTrue := ⟨"hello", .result⟩
        onFalse := ⟨"rich", .condition⟩ }]
      initial := ⟨"hello", .result⟩ }
    let tree : FileTree := ⟨[(["demo"], .folder), (["demo", "exports"], .folder),
      (["demo", "exports", "smith.json"], .file (.octets [0xff]))]⟩
    let folder : Path := ⟨none, ["demo", "exports"]⟩
    Takes tree folder "smith" ∧ d.toJson.Short ∧
      ∃ tree', write tree folder "smith" d = (tree', .ok (place folder "smith")) ∧
        read tree' (place folder "smith") = .ok (.ok d.fields) ∧
        Document.read (.obj d.fields) = .ok d := by
  intro d tree folder
  have takes : Takes tree folder "smith" :=
    ⟨tree, by decide +kernel, by decide +kernel, by decide +kernel⟩
  have short : d.toJson.Short := by decide +kernel
  exact ⟨takes, short, read_write takes short⟩

end DocumentFile

end Parley
