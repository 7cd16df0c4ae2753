import Mathlib.Data.List.TakeWhile
import Parley.Proofs.Files.Growth

/-!
# Paths with steps to parent folders

A path may lead into a folder and out of it again.  Making the folders on the way to it can then
make a folder of the path itself, or let it lead somewhere.  Where the folders before such a step
are there, `FileTree.Treads`, making the others changes nothing at the path.
-/

namespace Parley

namespace Path

variable {p : Path} {name : String}

/-- A path that has names is its last name in its parent folder. -/
theorem eq_within (named : p.names ≠ []) : p = p.parent.within p.name := by
  obtain ⟨base, names⟩ := p
  obtain ⟨rest, last, rfl⟩ := (List.eq_nil_or_concat names).resolve_left named
  simp [parent, within, Path.name]

@[simp] theorem parent_within : (p.within name).parent = p := by
  simp [parent, within]

end Path

namespace FileTree

variable {t t' : FileTree} {p : Path} {name : String} {z : List String} {n : Nat}

section Places

theorem length_dropWhile_dropLast (names : List String) :
    (names.dropLast.dropWhile (· == "..")).length ≤ (names.dropWhile (· == "..")).length := by
  cases List.eq_nil_or_concat names with
  | inl none => simp [none]
  | inr parts =>
      obtain ⟨rest, last, rfl⟩ := parts
      rw [List.concat_eq_append, List.dropLast_concat, List.dropWhile_append]
      split
      next none => simp [List.isEmpty_iff.mp none]
      next => simp

theorem place_within_up : place (p.within "..") = place p ++ [".."] ∨
    (place (p.within "..")).length ≤ (place p).length := by
  have step : resolve (p.names ++ [".."]) = if (resolve p.names).any (· != "..") then
      (resolve p.names).dropLast else resolve p.names ++ [".."] := by
    simp [resolve]
  simp only [place, Path.within, step]
  by_cases root : (p.base == some "") = true
  · rw [if_pos root, if_pos root]
    refine .inr ?_
    split
    next => simpa using length_dropWhile_dropLast _
    next up =>
      have all : ∀ name ∈ resolve p.names ++ [".."], (name == "..") = true := by
        simpa [or_imp, forall_and] using up
      simp [List.dropWhile_eq_nil_iff.mpr all]
  · rw [if_neg root, if_neg root]
    split
    next => exact .inr (by simp)
    next => exact .inl rfl

/-- The names behind a folder stand behind its place if none of them is a step to a parent
folder. -/
theorem place_append {names : List String} (plain : ".." ∉ names) :
    place { p with names := p.names ++ names } = place p ++ names := by
  induction names generalizing p with
  | nil => simp
  | cons name rest ih =>
      obtain ⟨first, plain⟩ := not_or.mp (List.mem_cons.not.mp plain)
      have inside := ih (p := p.within name) plain
      rw [place_within (Ne.symm first), List.append_assoc] at inside
      rw [← List.singleton_append, ← List.append_assoc]
      exact inside

/-- A name with something behind it stands at another place. -/
theorem place_within_ne {suffix : String} (more : suffix ≠ "") (plain : name ++ suffix ≠ "..") :
    place (p.within name) ≠ place (p.within (name ++ suffix)) := by
  rw [place_within plain]
  intro same
  have apart : name ≠ name ++ suffix := fun same => more (by
    have size := congrArg String.length same
    rw [String.length_append] at size
    exact String.length_eq_zero_iff.mp (by omega))
  by_cases up : name = ".."
  · subst up
    rcases place_within_up (p := p) with folder | short
    · rw [folder] at same
      exact apart (List.singleton_inj.mp (List.append_cancel_left same))
    · rw [same, List.length_append, List.length_singleton] at short
      omega
  · rw [place_within up] at same
    exact apart (List.singleton_inj.mp (List.append_cancel_left same))

end Places

/-- Making folders changes nothing where something was, and nothing off the path. -/
theorem at?_makeFolders (off : t.at? z = none → ∀ n ≤ p.names.length, z ≠ place (p.upTo n)) :
    (t.makeFolders p).1.at? z = t.at? z := by
  refine made_of_makeFolders.others z fun new => ?_
  obtain ⟨absent, n, short, same⟩ := new
  exact off absent n short same

/-- Whether the folders that a path passes before a step to a parent folder are there. -/
def Treads (t : FileTree) (p : Path) : Prop :=
  ∀ n < p.names.length, ".." ∈ p.names.drop n → t.at? (place (p.upTo n)) = some .folder

instance (t : FileTree) (p : Path) : Decidable (t.Treads p) :=
  inferInstanceAs (Decidable (∀ n < p.names.length, ".." ∈ p.names.drop n → _))

namespace Treads

theorem passable (h : t.Treads p) : t.passable p = true := by
  rw [FileTree.passable, List.all_eq_true]
  intro n member
  have short := List.mem_range.mp member
  by_cases up : p.names[n]? = some ".."
  · have step : ".." ∈ p.names.drop n := by
      rw [List.drop_eq_getElem_cons short]
      rw [List.getElem?_eq_getElem short, Option.some.injEq] at up
      exact up ▸ List.mem_cons_self
    simp only [Bool.or_eq_true, beq_iff_eq]
    exact .inr (h n short step)
  · simp [up]

theorem of_within {places : List String → Prop} (h : t.Treads p) (change : Within places t t') :
    t'.Treads p :=
  fun n short up => change.folders _ (h n short up)

/-- What holds of a name in a folder holds of any other that is no step to a parent folder. -/
theorem beside {other : String} (h : t.Treads (p.within name)) (plain : other ≠ "..") :
    t.Treads (p.within other) := by
  intro n short up
  have within : n ≤ p.names.length := by
    simp only [Path.within, List.length_append, List.length_singleton] at short
    omega
  rw [upTo_within within]
  have there := h n (by simpa [Path.within] using short)
  rw [upTo_within within] at there
  refine there ?_
  simp only [Path.within, List.drop_append_of_le_length within, List.mem_append,
    List.mem_singleton] at up ⊢
  exact .inl (up.resolve_right (Ne.symm plain))

/-- Making the folders of a path leaves each name in the last one as it was. -/
theorem at?_makeFolders (h : t.Treads (p.within name)) :
    (t.makeFolders p).1.at? (place p ++ [name]) = t.at? (place p ++ [name]) := by
  refine FileTree.at?_makeFolders fun absent n short same => ?_
  by_cases up : ".." ∈ p.names.drop n
  · have folder := h n (by simp [Path.within]; omega) (by
      simp only [Path.within, List.drop_append_of_le_length short, List.mem_append]
      exact .inl up)
    rw [upTo_within short, ← same] at folder
    cases absent.symm.trans folder
  · -- The names behind the folder that was made lead further down, and not back to it.
    have whole : p = { p.upTo n with names := (p.upTo n).names ++ p.names.drop n } := by
      simp [Path.upTo]
    have size := congrArg List.length same
    rw [whole, place_append up] at size
    simp [Path.upTo] at size

/-- A path that ends with a step to a parent folder leads through folders. -/
theorem leads (h : t.Treads (p.within "..")) : t.Leads p := by
  intro n short
  rw [← upTo_within short]
  refine h n (by simp [Path.within]; omega) ?_
  simp [Path.within, List.drop_append_of_le_length short]

/-- Making the folders on the way to a path leaves the path as it was. -/
theorem entry?_makeFolders (h : t.Treads (p.within name)) :
    FileTree.entry? (t.makeFolders p).1 (p.within name) = t.entry? (p.within name) := by
  have h' : (t.makeFolders p).1.Treads (p.within name) := h.of_within made_of_makeFolders
  rw [entry?_of_passable h.passable, entry?_of_passable h'.passable]
  by_cases up : name = ".."
  · subst up
    rw [h.leads.makeFolders]
  · rw [place_within up]
    exact h.at?_makeFolders

end Treads

end FileTree

end Parley
