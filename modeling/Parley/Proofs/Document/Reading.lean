import Parley.Document.File
import Parley.Proofs.Json.LineEnds
import Parley.Proofs.Json.SameLines
import Parley.Proofs.Text.Utf8

/-!
# Document files of any content

A file is read as a document exactly if its octets are those of a text that spells an object, in any
form of its line ends.  Any other file, and a path at which there is none, is unreadable, but for
one kind: the reading fails where a whole number of too many digits comes before anything that is
wrong with the text.
-/

namespace Parley

namespace Json

variable {c : Char} {cs ds : List Char}

theorem isBlank_of_isOpening (opening : isOpening c = true) : Text.isBlank c = false := by
  simp only [isOpening, Bool.or_eq_true, List.contains_iff_mem, List.mem_cons, List.not_mem_nil,
    or_false] at opening
  rcases opening with digit | other
  · have range := Text.isAsciiDigit_iff.mp digit
    rw [Bool.eq_false_iff]
    intro blank
    simp only [Text.isBlank, Text.isSpace, Bool.or_eq_true, Bool.and_eq_true, decide_eq_true_eq,
      beq_iff_eq] at blank
    omega
  · rcases other with rfl | rfl | rfl | rfl | rfl | rfl | rfl | rfl | rfl <;> decide

/-- A text with a value in it is not blank. -/
theorem Gap.not_blank (gap : Gap cs ds) (opens : Opens ds) : cs.all Text.isBlank = false := by
  induction gap with
  | none =>
      obtain ⟨c, tail, rfl, opening⟩ := opens
      rw [List.all_cons, isBlank_of_isOpening opening, Bool.false_and]
  | blank _ _ ih => rw [List.all_cons, ih opens, Bool.and_false]

end Json

section Files

variable {content : Content} {tree : FileTree} {path : Path} {s text : String}

/-- The octets of a content. -/
def Content.bytes : Content → List UInt8
  | .text s => s.toUTF8.data.toList
  | .octets bs => bs

/-- Whether the octets of a file are those of a text. -/
def FileTree.HoldsText (tree : FileTree) (path : Path) (s : String) : Prop :=
  ∃ content, tree.entry? path = some (.file content) ∧ content.bytes = s.toUTF8.data.toList

theorem Content.read_eq_ok : content.read = .ok text ↔
    ∃ s : String, content.bytes = s.toUTF8.data.toList ∧
      text = String.ofList (Text.plainLines s.toList) := by
  cases content with
  | text s =>
      constructor
      · intro read
        exact ⟨s, rfl, (Except.ok.inj read).symm⟩
      · rintro ⟨s', same, rfl⟩
        obtain rfl := Text.toUTF8_inj same
        rfl
  | octets bs =>
      rw [read, map_eq_ok]
      constructor
      · rintro ⟨s, read, rfl⟩
        exact ⟨s, Text.decode_eq_ok.mp read, rfl⟩
      · rintro ⟨s, same, rfl⟩
        exact ⟨s, Text.decode_eq_ok.mpr same, rfl⟩

theorem FileTree.content_eq_ok :
    tree.content path = .ok content ↔ tree.entry? path = some (.file content) := by
  unfold FileTree.content
  split
  next there => simp [there]
  next there => simp [there]
  next there => simp [there]

/-- A file is read as the text of its octets, with the line ends in their one form. -/
theorem FileTree.readText_eq_ok : tree.readText path = .ok text ↔
    ∃ s, tree.HoldsText path s ∧ text = String.ofList (Text.plainLines s.toList) := by
  simp only [readText, bind_eq_ok, mapError_eq_ok, content_eq_ok, Content.read_eq_ok]
  constructor
  · rintro ⟨content, there, s, same, rfl⟩
    exact ⟨s, ⟨content, there, same⟩, rfl⟩
  · rintro ⟨s, ⟨content, there, same⟩, rfl⟩
    exact ⟨content, there, s, same, rfl⟩

end Files

namespace DocumentFile

variable {tree : FileTree} {path : Path} {text : String} {fields : Fields} {e : Failure}

theorem parse_eq_ok : parse path text = .ok (.ok fields) ↔
    Json.Spelled text.toList (.obj fields) := by
  rw [← Json.read_eq_ok]
  constructor
  · intro read
    unfold parse at read
    split at read
    next => cases read
    next =>
      split at read
      next => cases read
      next => cases read
      next object =>
        cases read
        exact object
      next => cases read
  · intro read
    obtain ⟨ds, es, gap, spells, -⟩ := Json.read_eq_ok.mp read
    simp only [parse, gap.not_blank spells.opens, read]
    rfl

theorem parse_eq_error : parse path text = .error e ↔
    ∃ n, Json.HasOverlong n text.toList ∧ e = .notJson text (.tooLong ⟨some n⟩) := by
  constructor
  · intro failed
    unfold parse at failed
    split at failed
    next => cases failed
    next =>
      split at failed
      next limit tooLong =>
        cases failed
        obtain ⟨n, rfl, overlong⟩ := Json.read_eq_tooLong.mp tooLong
        exact ⟨n, overlong, rfl⟩
      next => cases failed
      next => cases failed
      next => cases failed
  · rintro ⟨n, overlong, rfl⟩
    have failed : Json.read text = .error (.tooLong ⟨some n⟩) :=
      Json.read_eq_tooLong.mpr ⟨n, rfl, overlong⟩
    obtain ⟨ds, gap, overlong⟩ := overlong
    simp only [parse, gap.not_blank overlong.opens, failed]
    rfl

/-- A file is read as fields exactly if its text spells their object. -/
theorem read_eq_ok : read tree path = .ok (.ok fields) ↔
    ∃ s, tree.HoldsText path s ∧ Json.Spelled s.toList (.obj fields) := by
  constructor
  · intro done
    rw [read] at done
    split at done
    next => cases done
    next text there =>
      obtain ⟨s, holds, rfl⟩ := FileTree.readText_eq_ok.mp there
      have spelled := parse_eq_ok.mp done
      rw [String.toList_ofList, Json.spelled_plainLines] at spelled
      exact ⟨s, holds, spelled⟩
  · rintro ⟨s, holds, spelled⟩
    rw [read, FileTree.readText_eq_ok.mpr ⟨s, holds, rfl⟩]
    refine parse_eq_ok.mpr ?_
    rw [String.toList_ofList, Json.spelled_plainLines]
    exact spelled

/-- Reading a file fails exactly if there is a number in its text that is too long. -/
theorem read_eq_error : read tree path = .error e ↔
    ∃ s n, tree.HoldsText path s ∧ Json.HasOverlong n s.toList ∧
      e = .notJson (String.ofList (Text.plainLines s.toList)) (.tooLong ⟨some n⟩) := by
  constructor
  · intro failed
    rw [read] at failed
    split at failed
    next => cases failed
    next text there =>
      obtain ⟨s, holds, rfl⟩ := FileTree.readText_eq_ok.mp there
      obtain ⟨n, overlong, rfl⟩ := parse_eq_error.mp failed
      rw [String.toList_ofList, Json.hasOverlong_plainLines] at overlong
      exact ⟨s, n, holds, overlong, rfl⟩
  · rintro ⟨s, n, holds, overlong, rfl⟩
    rw [read, FileTree.readText_eq_ok.mpr ⟨s, holds, rfl⟩]
    refine parse_eq_error.mpr ⟨n, ?_, rfl⟩
    rw [String.toList_ofList, Json.hasOverlong_plainLines]
    exact overlong

/-- At any path, in any tree of files: the fields of a document are read exactly from the octets of
a text that spells an object.  The reading fails exactly on the octets of a text in which a whole
number of too many digits comes before anything that is wrong with it.  Whatever else is there, or
nothing, is unreadable. -/
theorem read_outcome (tree : FileTree) (path : Path) :
    (∀ fields, read tree path = .ok (.ok fields) ↔
      ∃ s, tree.HoldsText path s ∧ Json.Spelled s.toList (.obj fields)) ∧
    (∀ e, read tree path = .error e ↔ ∃ s n, tree.HoldsText path s ∧ Json.HasOverlong n s.toList ∧
      e = .notJson (String.ofList (Text.plainLines s.toList)) (.tooLong ⟨some n⟩)) ∧
    ((∃ reason, read tree path = .ok (.error reason)) ↔
      ¬ ((∃ s fields, tree.HoldsText path s ∧ Json.Spelled s.toList (.obj fields)) ∨
        ∃ s n, tree.HoldsText path s ∧ Json.HasOverlong n s.toList)) := by
  refine ⟨fun _ => read_eq_ok, fun _ => read_eq_error, ?_⟩
  constructor
  · rintro ⟨reason, done⟩ (⟨s, fields, object⟩ | ⟨s, n, overlong⟩)
    · cases done.symm.trans (read_eq_ok.mpr ⟨s, object⟩)
    · cases done.symm.trans (read_eq_error.mpr ⟨s, n, overlong.1, overlong.2, rfl⟩)
  · intro neither
    rcases done : read tree path with e | reason | fields
    · obtain ⟨s, n, holds, overlong, -⟩ := read_eq_error.mp done
      exact absurd (.inr ⟨s, n, holds, overlong⟩) neither
    · exact ⟨reason, rfl⟩
    · obtain ⟨s, object⟩ := read_eq_ok.mp done
      exact absurd (.inl ⟨s, fields, object⟩) neither

/-- A file that holds nothing but digits beyond the limit is not read. -/
theorem read_of_digits {ds : List Char}
    (there : tree.entry? path = some (.file (.text (String.ofList ds)))) (tight : Text.Tight ds)
    (long : DigitLimit.limit < ds.length) :
    read tree path = .error (.notJson (String.ofList ds) (.tooLong ⟨some ds.length⟩)) := by
  have overlong : Json.HasOverlong ds.length (String.ofList ds).toList := by
    rw [String.toList_ofList]
    exact Json.hasOverlong_of_tight tight long
  have inside : Json.Lacks '\r' ds := by
    rintro c member rfl
    cases tight.ascii _ member
  have plain : Text.plainLines (String.ofList ds).toList = ds := by
    rw [String.toList_ofList, Json.plainLines_of_lacks inside]
  exact read_eq_error.mpr ⟨_, _, ⟨_, there, rfl⟩, overlong, by rw [plain]⟩

/-- A file of ones beyond the limit is a number and no object, but the reading fails. -/
theorem read_ones :
    let text := String.ofList (List.replicate 4301 '1')
    read ⟨[(["doc.json"], .file (.text text))]⟩ ⟨none, ["doc.json"]⟩ =
      .error (.notJson text (.tooLong ⟨some 4301⟩)) := by
  have size : (List.replicate 4301 '1').length = 4301 := List.length_replicate
  have tight : Text.Tight (List.replicate 4301 '1') := {
    nonempty := List.ne_nil_of_length_pos (by rw [size]; decide)
    ascii := fun c member => by rw [List.eq_of_mem_replicate member]; rfl
    head := .inr (by rw [List.head?_replicate]; decide) }
  let tree : FileTree :=
    ⟨[(["doc.json"], .file (.text (String.ofList (List.replicate 4301 '1'))))]⟩
  have there : tree.entry? ⟨none, ["doc.json"]⟩ =
      some (.file (.text (String.ofList (List.replicate 4301 '1')))) := rfl
  have failed := read_of_digits there tight (by rw [size]; decide)
  rw [size] at failed
  exact failed

end DocumentFile

end Parley
