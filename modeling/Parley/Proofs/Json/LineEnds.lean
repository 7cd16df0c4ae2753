import Parley.Files.Tree
import Parley.Proofs.Json.RoundTrip

/-!
# The line ends of texts that are written

A carriage return or a line feed in a text is written as an escape, and layouts break lines by line
feeds only, or not at all.  So a text that is written has its line ends in their one form, and
reading its file does not change it, so that the file holds the value; and a log line is a single
line.
-/

namespace Parley.Json

/-- Whether a character does not occur in a text. -/
def Lacks (mark : Char) (cs : List Char) : Prop := ∀ c ∈ cs, c ≠ mark

/-- Whether a character is a line end. -/
def IsLineEnd (mark : Char) : Prop := mark = '\r' ∨ mark = '\n'

/-- Whether a character is a line end that a layout has no use for. -/
def Layout.Spares (layout : Layout) (mark : Char) : Prop :=
  mark = '\r' ∨ mark = '\n' ∧ layout.spread = false

variable {mark : Char} {cs ds : List Char} {level : Nat} {layout : Layout} {v : Json} {s : String}

theorem lacks_nil : Lacks mark [] := fun _ member => nomatch member

theorem lacks_append : Lacks mark (cs ++ ds) ↔ Lacks mark cs ∧ Lacks mark ds :=
  List.forall_mem_append

theorem lacks_cons {c : Char} : Lacks mark (c :: cs) ↔ c ≠ mark ∧ Lacks mark cs :=
  List.forall_mem_cons

/-- A row of characters that holds neither line end. -/
theorem lacks_plain (plain : ∀ c ∈ cs, c ≠ '\r' ∧ c ≠ '\n') (ends : IsLineEnd mark) :
    Lacks mark cs := by
  intro c member
  obtain ⟨return', feed⟩ := plain c member
  rcases ends with rfl | rfl
  · exact return'
  · exact feed

theorem plainLines_of_lacks (even : Lacks '\r' cs) : Text.plainLines cs = cs := by
  induction cs with
  | nil => rfl
  | cons c cs ih =>
      obtain ⟨here, even⟩ := lacks_cons.mp even
      rw [Text.plainLines]
      · simp [here, ih even]
      · exact fun _ same => absurd same here

theorem Layout.Spares.isLineEnd (spares : layout.Spares mark) : IsLineEnd mark :=
  spares.imp_right And.left

section Characters

variable (ends : IsLineEnd mark)

include ends

theorem lacks_number (chars : ∀ c ∈ cs, isNumberChar c = true) : Lacks mark cs :=
  lacks_plain (fun c member =>
    ⟨ne_of_isNumberChar (chars c member) rfl, ne_of_isNumberChar (chars c member) rfl⟩) ends

theorem lacks_hex {n : Nat} (small : n < 0x10000) : Lacks mark (Text.hex 4 n) := by
  refine lacks_plain (fun c member => ?_) ends
  rw [hex_four small] at member
  simp only [List.mem_cons, List.not_mem_nil, or_false] at member
  rcases member with rfl | rfl | rfl | rfl <;>
    exact ⟨Nat.digitChar_ne '\r' rfl, Nat.digitChar_ne '\n' rfl⟩

theorem lacks_unitEscape (c : Char) : Lacks mark (unitEscape c.toNat) := by
  have start : Lacks mark ['\\', 'u'] := lacks_plain (by simp) ends
  by_cases small : c.toNat < 0x10000
  · rw [unitEscape, if_pos small]
    exact lacks_append.mpr ⟨start, lacks_hex ends small⟩
  · obtain ⟨high, low, first, second, -, written⟩ := unitEscape_pair small
    have start := lacks_cons.mp start
    rw [written]
    simp [lacks_cons, lacks_append, start.1, (lacks_cons.mp start.2).1,
      lacks_hex ends (lt_of_isHighHalf first), lacks_hex ends (lt_of_isLowHalf second)]

/-- A line end is written as an escape. -/
theorem lacks_writeChar (ascii : Bool) (c : Char) : Lacks mark (writeChar ascii c) := by
  unfold writeChar
  split
  iterate 7 exact lacks_plain (by simp) ends
  next _ _ feed return' _ _ _ =>
    split
    · exact lacks_unitEscape ends c
    · exact lacks_plain (by simpa using ⟨return', feed⟩) ends

theorem lacks_writeText (ascii : Bool) (text : String) : Lacks mark (writeText ascii text) := by
  have quote : Lacks mark ['"'] := lacks_plain (by simp) ends
  refine lacks_append.mpr ⟨lacks_append.mpr ⟨quote, fun c member => ?_⟩, quote⟩
  obtain ⟨c', -, member⟩ := List.mem_flatMap.mp member
  exact lacks_writeChar ends ascii c' c member

end Characters

section Values

variable (spares : layout.Spares mark)

include spares

/-- Lines are broken by line feeds, in the layouts that break them. -/
theorem lacks_spread (level : Nat) :
    Lacks mark (if layout.spread then lineBreak level else []) := by
  rcases spares with rfl | ⟨rfl, single⟩
  · split
    · refine lacks_cons.mpr ⟨by decide, fun c member => ?_⟩
      rw [List.eq_of_mem_replicate member]
      decide
    · exact lacks_nil
  · rw [single]
    exact lacks_nil

theorem lacks_opening : Lacks mark (layout.opening level) := lacks_spread spares (level + 1)

theorem lacks_closing : Lacks mark (layout.closing level) := lacks_spread spares level

theorem lacks_between : Lacks mark (layout.between level) := by
  have comma : Lacks mark [',', ' '] := lacks_plain (by simp) spares.isLineEnd
  have spread := lacks_spread spares (level + 1)
  rw [Layout.between]
  by_cases broken : layout.spread = true
  · rw [if_pos broken] at spread ⊢
    exact lacks_cons.mpr ⟨(lacks_cons.mp comma).1, spread⟩
  · rw [if_neg broken]
    exact comma

mutual

theorem lacks_write : ∀ (v : Json) (level : Nat), Lacks mark (v.write layout level)
  | .null, _ => lacks_plain (by simp [write]) spares.isLineEnd
  | .bool true, _ => lacks_plain (by simp [write]) spares.isLineEnd
  | .bool false, _ => lacks_plain (by simp [write]) spares.isLineEnd
  | .int _, _ => lacks_number spares.isLineEnd isNumberChar_ofInt.2
  | .float _, _ => lacks_number spares.isLineEnd isNumberChar_text.2
  | .str text, _ => lacks_writeText spares.isLineEnd layout.ascii text
  | .arr [], _ => lacks_plain (by simp [write]) spares.isLineEnd
  | .arr (v :: vs), level => by
      have open' : Lacks mark ['['] := lacks_plain (by simp) spares.isLineEnd
      have close : Lacks mark [']'] := lacks_plain (by simp) spares.isLineEnd
      simp only [write, lacks_append]
      exact ⟨⟨⟨⟨⟨open', lacks_opening spares⟩, lacks_write v _⟩, lacks_writeItems vs level⟩,
        lacks_closing spares⟩, close⟩
  | .obj [], _ => lacks_plain (by simp [write]) spares.isLineEnd
  | .obj ((k, v) :: fields), level => by
      have open' : Lacks mark ['\x7b'] := lacks_plain (by simp) spares.isLineEnd
      have colon : Lacks mark [':', ' '] := lacks_plain (by simp) spares.isLineEnd
      have close : Lacks mark ['\x7d'] := lacks_plain (by simp) spares.isLineEnd
      simp only [write, lacks_append]
      exact ⟨⟨⟨⟨⟨⟨⟨open', lacks_opening spares⟩, lacks_writeText spares.isLineEnd _ k⟩, colon⟩,
        lacks_write v _⟩, lacks_writeFields fields level⟩, lacks_closing spares⟩, close⟩

theorem lacks_writeItems : ∀ (vs : List Json) (level : Nat),
    Lacks mark (writeItems layout level vs)
  | [], _ => lacks_nil
  | v :: vs, level => by
      simp only [writeItems, lacks_append]
      exact ⟨⟨lacks_between spares, lacks_write v _⟩, lacks_writeItems vs level⟩

theorem lacks_writeFields : ∀ (fields : List (String × Json)) (level : Nat),
    Lacks mark (writeFields layout level fields)
  | [], _ => lacks_nil
  | (k, v) :: fields, level => by
      have colon : Lacks mark [':', ' '] := lacks_plain (by simp) spares.isLineEnd
      simp only [writeFields, lacks_append]
      exact ⟨⟨⟨⟨lacks_between spares, lacks_writeText spares.isLineEnd _ k⟩, colon⟩,
        lacks_write v _⟩, lacks_writeFields fields level⟩

end

end Values

/-- A text that is written lacks the line ends that its layout has no use for. -/
theorem lacks_text (written : v.text layout = .ok s) (spares : layout.Spares mark) :
    Lacks mark s.toList := by
  obtain ⟨-, rfl⟩ := text_eq_ok.mp written
  rw [String.toList_ofList]
  exact lacks_write spares v 0

/-- The line ends of a text that is written are in their one form. -/
theorem plainLines_text (written : v.text layout = .ok s) : Text.plainLines s.toList = s.toList :=
  plainLines_of_lacks (lacks_text written (.inl rfl))

end Parley.Json

namespace Parley.Content

variable {content : Content} {v w : Json}

/-- Whether a content is the text of a value. -/
def Holds (content : Content) (v : Json) : Prop :=
  ∃ text, content.read = .ok text ∧ Json.read text = .ok v

/-- A content holds one value at most. -/
theorem Holds.unique (h : content.Holds v) (h' : content.Holds w) : v = w := by
  obtain ⟨text, read, value⟩ := h
  obtain ⟨text', read', value'⟩ := h'
  cases read.symm.trans read'
  cases value.symm.trans value'
  rfl

/-- The text that a value is written as holds it. -/
theorem holds_text (layout : Json.Layout) {text : String} (keyed : v.Keyed)
    (written : v.text layout = .ok text) : Content.Holds (.text text) v :=
  ⟨text, by rw [Content.read, Json.plainLines_text written, String.ofList_toList],
    Json.read_text keyed written⟩

end Parley.Content
