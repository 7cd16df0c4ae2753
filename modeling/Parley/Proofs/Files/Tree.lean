import Mathlib.Data.List.Basic
import Parley.Proofs.Record.Checked
import Parley.Files.Tree

/-!
# What file operations leave as it was

A tree is known by the entries at its places.  An operation that succeeds changes the entry at the
place of its path and no other.  A file is only written where there is no folder, so folders stay
folders, whatever is written, moved or removed.

`FileTree.Leads` says that a path and all that it passes are folders: then paths of names inside are
understood name by name, and nothing but a folder in their place is in the way of a file.
-/

namespace Parley

namespace Text

/-- What has no separator in it belongs to the last part. -/
theorem splitAt_append {separator : Char} {tail : List Char} (lacks : separator ∉ tail)
    (cs : List Char) :
    ∃ front last, splitAt separator (cs ++ tail) = front ++ [last ++ tail] := by
  induction cs with
  | nil =>
      refine ⟨[], [], ?_⟩
      induction tail with
      | nil => rfl
      | cons c tail ih =>
          obtain ⟨other, lacks⟩ := List.ne_and_not_mem_of_not_mem_cons lacks
          have rest : splitAt separator tail = [tail] := ih lacks
          simp [splitAt, rest, Ne.symm other]
  | cons c cs ih =>
      obtain ⟨front, last, split⟩ := ih
      rw [List.cons_append, splitAt, split]
      split
      next => exact ⟨[] :: front, last, rfl⟩
      next =>
        cases front with
        | nil => exact ⟨[], c :: last, rfl⟩
        | cons part front => exact ⟨(c :: part) :: front, last, rfl⟩

end Text

/-- The path of a name in a folder, where the name is one that is taken as it is. -/
def Path.within (p : Path) (name : String) : Path := { p with names := p.names ++ [name] }

/-- The path of the first names of a path. -/
def Path.upTo (p : Path) (n : Nat) : Path := { p with names := p.names.take n }

/-- The ending that the last name of a path is spelled with stays, if it can be told from steps. -/
theorem Path.exists_names_child (p : Path) (name ending : String)
    (slash : '/' ∉ ending.toList) (long : 2 < ending.toList.length) :
    ∃ front last, (p.child (name ++ ending)).names = front ++ [last ++ ending] := by
  obtain ⟨front, last, split⟩ := Text.splitAt_append slash name.toList
  have size {s : String} (short : s.toList.length ≤ 2) : String.ofList last ++ ending ≠ s := by
    rintro rfl
    simp only [String.toList_append, List.length_append] at short
    omega
  have kept : (String.ofList last ++ ending != "" &&
      String.ofList last ++ ending != ".") = true := by
    rw [Bool.and_eq_true, bne_iff_ne, bne_iff_ne]
    exact ⟨size (by decide), size (by decide)⟩
  have names : (ofText (name ++ ending)).names =
      ((front.map String.ofList).filter fun name => name != "" && name != ".") ++
        [String.ofList last ++ ending] := by
    rw [ofText, Text.parts, String.toList_append, split, List.map_append, List.map_singleton,
      String.ofList_append, String.ofList_toList, List.filter_append, List.filter_singleton, kept]
    rfl
  rw [child, join]
  split
  next => exact ⟨_, _, names⟩
  next => exact ⟨p.names ++ _, _, by rw [names, List.append_assoc]⟩

namespace FileTree

variable {t t' : FileTree} {p : Path} {name : String} {y : List String} {e : FileEntry}

section Places

theorem resolve_append (names : List String) (plain : name ≠ "..") :
    resolve (names ++ [name]) = resolve names ++ [name] := by
  simp [resolve, plain]

/-- The place of a name inside is the place of the folder with the name behind it. -/
theorem place_within (plain : name ≠ "..") : place (p.within name) = place p ++ [name] := by
  simp only [place, Path.within, resolve_append _ plain]
  split
  next => simp [List.dropWhile_append, plain]
  next => rfl

end Places

section Entries

theorem lookup_cons_eq {k : List String} {rest : List (List String × FileEntry)} :
    ((k, e) :: rest).lookup y = if y = k then some e else rest.lookup y := by
  by_cases same : y = k
  · simp [same]
  · simp [same, List.lookup_cons, beq_false_of_ne same]

/-- Entries are replaced under one name only. -/
theorem lookup_replace_of_ne {entries : List (List String × FileEntry)} {k : List String}
    (other : y ≠ k) : (entries.map fun x => if x.1 == k then (k, e) else x).lookup y =
      entries.lookup y := by
  induction entries with
  | nil => rfl
  | cons x rest ih =>
      obtain ⟨name, old⟩ := x
      by_cases here : name = k
      · simp only [List.map_cons, here, beq_self_eq_true, if_true, lookup_cons_eq, ih, if_neg other]
      · simp only [List.map_cons, beq_false_of_ne here, lookup_cons_eq, ih, Bool.false_eq_true,
          if_false]

theorem lookup_replace_self {entries : List (List String × FileEntry)} {k : List String}
    (there : entries.any (·.1 == k) = true) :
    (entries.map fun x => if x.1 == k then (k, e) else x).lookup k = some e := by
  induction entries with
  | nil => cases there
  | cons x rest ih =>
      obtain ⟨name, old⟩ := x
      by_cases here : name = k
      · simp only [List.map_cons, here, beq_self_eq_true, if_true, lookup_cons_eq]
      · have there : rest.any (·.1 == k) = true := by
          rw [List.any_cons, beq_false_of_ne here] at there
          exact there
        simp only [List.map_cons, beq_false_of_ne here, lookup_cons_eq, Ne.symm here,
          Bool.false_eq_true, if_false]
        exact ih there

theorem lookup_put : (t.put p e).entries.lookup y =
    if y = place p then some e else t.entries.lookup y := by
  rw [put]
  split
  next there =>
    by_cases same : y = place p
    · rw [if_pos same, same]
      exact lookup_replace_self there
    · rw [if_neg same]
      exact lookup_replace_of_ne same
  next absent =>
    have none : t.entries.lookup (place p) = none := by
      refine List.lookup_eq_none_iff.mpr fun x member => bne_iff_ne.mpr fun same => ?_
      exact absent (List.any_eq_true.mpr ⟨x, member, beq_iff_eq.mpr same.symm⟩)
    rw [List.lookup_append, lookup_cons_eq]
    by_cases same : y = place p <;> simp [same, none]

theorem lookup_erase : (t.erase p).entries.lookup y =
    if y = place p then none else t.entries.lookup y := by
  rw [erase]
  dsimp only
  induction t.entries with
  | nil => simp
  | cons x rest ih =>
      obtain ⟨name, old⟩ := x
      by_cases here : name = place p
      · rw [List.filter_cons_of_neg (by simp [here]), ih, lookup_cons_eq, here]
        by_cases same : y = place p <;> simp [same]
      · rw [List.filter_cons_of_pos (by simp [here]), lookup_cons_eq, lookup_cons_eq, ih]
        by_cases same : y = name
        · simp [same, here]
        · simp [same]

/-- What is put at a path is not seen anywhere else. -/
theorem at?_put_of_ne (other : y ≠ place p) : (t.put p e).at? y = t.at? y := by
  rw [at?, at?, lookup_put, if_neg other]

theorem at?_put_self (free : t.at? (place p) ≠ some .folder) :
    (t.put p e).at? (place p) = some e := by
  rw [at?] at free ⊢
  split at free
  next => exact absurd rfl free
  next ordinary => rw [if_neg ordinary, lookup_put, if_pos rfl]

theorem at?_erase_of_ne (other : y ≠ place p) : (t.erase p).at? y = t.at? y := by
  rw [at?, at?, lookup_erase, if_neg other]

theorem at?_erase_self (free : t.at? (place p) ≠ some .folder) :
    (t.erase p).at? (place p) = none := by
  rw [at?] at free ⊢
  split at free
  next => exact absurd rfl free
  next ordinary => rw [if_neg ordinary, lookup_erase, if_pos rfl]

end Entries

/-- Whether a path and all that it passes are folders. -/
def Leads (t : FileTree) (p : Path) : Prop :=
  ∀ n ≤ p.names.length, t.at? (place (p.upTo n)) = some .folder

/-- Whether nothing changes but the entries at given places, and folders stay folders. -/
structure Within (places : List String → Prop) (t t' : FileTree) : Prop where
  folders : ∀ y, t.at? y = some .folder → t'.at? y = some .folder
  others : ∀ y, ¬ places y → t'.at? y = t.at? y

namespace Within

variable {places more : List String → Prop} {t'' : FileTree}

theorem refl : Within places t t := ⟨fun _ => id, fun _ _ => rfl⟩

theorem trans (first : Within places t t') (second : Within places t' t'') :
    Within places t t'' where
  folders y folder := second.folders y (first.folders y folder)
  others y outside := (second.others y outside).trans (first.others y outside)

theorem mono (h : Within places t t') (wider : ∀ y, places y → more y) : Within more t t' where
  folders := h.folders
  others y outside := h.others y fun inside => outside (wider y inside)

/-- A change to a file of one name is elsewhere than the files of another name. -/
theorem named {name' : String} {above above' : List String} (other : name ≠ name')
    (h : Within (· = above ++ [name]) t t') : Within (· ≠ above' ++ [name']) t t' := by
  refine h.mono ?_
  rintro _ rfl same
  exact other (by simpa using congrArg List.getLast? same)

theorem leads (h : Within places t t') (leads : t.Leads p) : t'.Leads p :=
  fun n short => h.folders _ (leads n short)

/-- Something is put where there is no folder. -/
theorem put (free : t.at? (place p) ≠ some .folder) (inside : places (place p)) :
    Within places t (t.put p e) where
  folders y folder := by
    have other : y ≠ place p := fun same => free (same ▸ folder)
    rwa [at?_put_of_ne other]
  others y outside := at?_put_of_ne fun same => outside (same ▸ inside)

/-- Something other than a folder is left out. -/
theorem erase (free : t.at? (place p) ≠ some .folder) (inside : places (place p)) :
    Within places t (t.erase p) where
  folders y folder := by
    have other : y ≠ place p := fun same => free (same ▸ folder)
    rwa [at?_erase_of_ne other]
  others y outside := at?_erase_of_ne fun same => outside (same ▸ inside)

end Within

section Folders

theorem upTo_within {n : Nat} (short : n ≤ p.names.length) :
    (p.within name).upTo n = p.upTo n := by
  simp [Path.within, Path.upTo, List.take_append_of_le_length short]

theorem entry?_of_passable (passable : t.passable p = true) : t.entry? p = t.at? (place p) := by
  simp only [FileTree.entry?, passable, if_true]

theorem upTo_length : p.upTo p.names.length = p := by simp [Path.upTo]

namespace Leads

theorem upTo (h : t.Leads p) (n : Nat) : t.Leads (p.upTo n) := by
  intro m short
  have both : (p.upTo n).upTo m = p.upTo (min m n) := by simp [Path.upTo, List.take_take]
  rw [both]
  exact h _ (by simp [Path.upTo] at short; omega)

theorem passable (h : t.Leads p) : t.passable p = true := by
  rw [FileTree.passable, List.all_eq_true]
  intro n member
  have folder := h n (Nat.le_of_lt (List.mem_range.mp member))
  simp only [Bool.or_eq_true, beq_iff_eq]
  exact .inr folder

theorem hasFolder (h : t.Leads p) : t.hasFolder p = true := by
  have folder : t.at? (place p) = some .folder := by
    simpa only [upTo_length] using h _ (Nat.le_refl _)
  rw [FileTree.hasFolder, entry?_of_passable h.passable, folder]
  rfl

/-- Each step to a parent folder on a path of a name inside is taken from a folder. -/
theorem passable_within (h : t.Leads p) : t.passable (p.within name) = true := by
  rw [FileTree.passable, List.all_eq_true]
  intro n member
  have short : n ≤ p.names.length := by
    have := List.mem_range.mp member
    simp only [Path.within, List.length_append, List.length_singleton] at this
    omega
  have folder := h n short
  rw [← upTo_within short] at folder
  simp only [Bool.or_eq_true, beq_iff_eq]
  exact .inr folder

/-- What is at a path of a name inside is what is at its place. -/
theorem entry?_within (h : t.Leads p) (plain : name ≠ "..") :
    t.entry? (p.within name) = t.at? (place p ++ [name]) := by
  rw [entry?_of_passable h.passable_within, place_within plain]

theorem hasFolder_within (h : t.Leads p) (plain : name ≠ "..") :
    t.hasFolder (p.within name) = false ↔ t.at? (place p ++ [name]) ≠ some .folder := by
  rw [FileTree.hasFolder, h.entry?_within plain, beq_eq_false_iff_ne]

/-- Nothing is in the way of a file or a folder inside. -/
theorem refusal?_within (h : t.Leads p) : t.refusal? (p.within name) = none := by
  have none : ((List.range (p.within name).names.length).map (p.within name).upTo).find?
      (fun folder => !t.hasFolder folder) = none := by
    refine List.find?_eq_none.mpr fun folder member => ?_
    obtain ⟨n, short, rfl⟩ := List.mem_map.mp member
    have short : n ≤ p.names.length := by
      have := List.mem_range.mp short
      simp only [Path.within, List.length_append, List.length_singleton] at this
      omega
    simp [upTo_within short, (h.upTo n).hasFolder]
  unfold refusal?
  dsimp only
  split
  next => rfl
  next found => cases none.symm.trans found

end Leads

/-- What is at a path is at its place. -/
theorem at?_of_entry (entry : t.entry? p = some e) : t.at? (place p) = some e := by
  rw [FileTree.entry?] at entry
  split at entry
  next => exact entry
  next => cases entry

theorem has_of_entry (entry : t.entry? p = some e) : t.has p = true := by
  rw [has, entry]
  rfl

/-- Where nothing is at its place, nothing is at a path. -/
theorem has_of_at? (none : t.at? (place p) = none) : t.has p = false := by
  rw [has, entry?]
  split
  next =>
    rw [none]
    rfl
  next => rfl

theorem at?_of_hasFolder (folder : t.hasFolder p = true) : t.at? (place p) = some .folder :=
  at?_of_entry (beq_iff_eq.mp folder)

/-- If nothing is in the way of an entry, there is a folder at every place on the way. -/
theorem at?_of_refusal? (none : t.refusal? p = none) {n : Nat} (short : n < p.names.length) :
    t.at? (place (p.upTo n)) = some .folder := by
  rw [refusal?] at none
  split at none
  next missing =>
    have listed : p.upTo n ∈ (List.range p.names.length).map p.upTo :=
      List.mem_map_of_mem (List.mem_range.mpr short)
    exact at?_of_hasFolder (by simpa using List.find?_eq_none.mp missing _ listed)
  next => split at none <;> cases none

/-- If nothing is in the way of an entry, each step to a parent folder is taken from a folder. -/
theorem passable_of_refusal? (none : t.refusal? p = none) : t.passable p = true := by
  rw [passable, List.all_eq_true]
  intro n member
  have folder := at?_of_refusal? none (List.mem_range.mp member)
  simp only [Bool.or_eq_true, beq_iff_eq]
  exact .inr folder

/-- If nothing is in the way of an entry inside, the folder leads there. -/
theorem leads_of_refusal? (none : t.refusal? (p.within name) = none) : t.Leads p := by
  intro n short
  rw [← upTo_within short]
  refine at?_of_refusal? none ?_
  simp only [Path.within, List.length_append, List.length_singleton]
  omega

end Folders

section Operations

variable {s : String} {source target : Path}

theorem write_eq_ok : t.write p s = .ok t' ↔
    t.refusal? p = none ∧ t.hasFolder p = false ∧ t' = t.put p (.file (.text s)) := by
  rw [write]
  cases t.refusal? p with
  | some _ => simp
  | none => cases t.hasFolder p <;> simp [eq_comm]

/-- A file that is written inside a folder changes its own place only. -/
theorem within_of_write (plain : name ≠ "..") (written : t.write (p.within name) s = .ok t') :
    Within (· = place p ++ [name]) t t' := by
  obtain ⟨none, free, rfl⟩ := write_eq_ok.mp written
  have free := ((leads_of_refusal? none).hasFolder_within plain).mp free
  rw [← place_within plain] at free
  exact .put free (place_within plain)

theorem append_eq_ok : t.append p s = .ok t' ↔ t.refusal? p = none ∧
    ((∃ c, t.entry? p = some (.file c) ∧ t' = t.put p (.file (c.append s))) ∨
      t.entry? p = none ∧ t' = t.put p (.file (.text s))) := by
  rw [append]
  cases t.refusal? p with
  | some _ => simp
  | none =>
      match t.entry? p with
      | some .folder => simp
      | some (.file _) => simp [eq_comm]
      | none => simp [eq_comm]

/-- A file inside a folder to which something is added changes its own place only. -/
theorem within_of_append (plain : name ≠ "..") (added : t.append (p.within name) s = .ok t') :
    Within (· = place p ++ [name]) t t' := by
  obtain ⟨none, results⟩ := append_eq_ok.mp added
  have entry := (leads_of_refusal? none).entry?_within plain
  have free (absent : t.entry? (p.within name) ≠ some .folder) :
      t.at? (place (p.within name)) ≠ some .folder := by
    rwa [place_within plain, ← entry]
  obtain ⟨c, found, rfl⟩ | ⟨absent, rfl⟩ := results
  · exact .put (free (by simp [found])) (place_within plain)
  · exact .put (free (by simp [absent])) (place_within plain)

theorem move_eq_ok : t.move source target = .ok t' ↔
    ∃ e, t.entry? source = some e ∧ t.hasFolder target = false ∧
      t' = (t.erase source).put target e := by
  rw [move]
  cases t.entry? source with
  | none => simp
  | some _ => cases t.hasFolder target <;> simp [eq_comm]

theorem remove_eq_ok : t.remove p = .ok t' ↔ ∃ c, t.entry? p = some (.file c) ∧ t' = t.erase p := by
  rw [remove]
  match t.entry? p with
  | none => simp
  | some .folder => simp
  | some (.file _) => simp [eq_comm]

/-- What is there and cannot be removed is a folder. -/
theorem folder_of_remove {failure : FileError} (there : t.has p = true)
    (stays : t.remove p = .error failure) : t.at? (place p) = some .folder := by
  rw [has] at there
  rw [remove] at stays
  split at stays
  next none =>
    rw [none] at there
    cases there
  next entry => exact at?_of_entry entry
  next => cases stays

theorem makeFolder_eq_ok : t.makeFolder p = .ok t' ↔
    t.refusal? p = none ∧ t.has p = false ∧ t' = t.put p .folder := by
  rw [makeFolder]
  cases t.refusal? p with
  | some _ => simp
  | none => cases t.has p <;> simp [eq_comm]

/-- A folder is made, or it is there already. -/
theorem ensureFolder_eq_ok (ensured : t.ensureFolder p = .ok t') :
    t.makeFolder p = .ok t' ∨ t.hasFolder p = true ∧ t' = t := by
  rw [ensureFolder] at ensured
  split at ensured
  next made =>
    cases ensured
    exact .inl made
  next =>
    split at ensured
    next folder =>
      cases ensured
      exact .inr ⟨folder, rfl⟩
    next => cases ensured

/-- An operation that is not refused leaves the tree that it answers. -/
theorem after_eq_ok {r : Except FileError FileTree} : t.after r = (t', .ok ()) ↔ r = .ok t' := by
  cases r <;> simp [after]

/-- A folder that is made anew is made where nothing was. -/
theorem makeNewFolder_eq_ok (made : t.makeNewFolder p = (t', .ok ())) :
    ∃ before : FileTree, before.makeFolder p = .ok t' := by
  rw [makeNewFolder] at made
  split at made
  next =>
    split at made
    next before _ => exact ⟨before, after_eq_ok.mp made⟩
    next refused => exact absurd made (refused t')
  next => exact ⟨t, after_eq_ok.mp made⟩

/-- The working folder is not made. -/
theorem place_ne_nil (made : t.makeFolder p = .ok t') : place p ≠ [] := by
  intro root
  obtain ⟨none, absent, -⟩ := makeFolder_eq_ok.mp made
  rw [has, entry?_of_passable (passable_of_refusal? none), root] at absent
  cases absent

theorem has_of_hasFolder (folder : t.hasFolder p = true) : t.has p = true :=
  has_of_entry (beq_iff_eq.mp folder)

/-- A folder that is there is found. -/
theorem ensureFolder_of_hasFolder (folder : t.hasFolder p = true) : t.ensureFolder p = .ok t := by
  rw [ensureFolder]
  split
  next made =>
    obtain ⟨-, absent, -⟩ := makeFolder_eq_ok.mp made
    rw [has_of_hasFolder folder] at absent
    cases absent
  next => rw [if_pos folder]

/-- A path that leads to a folder is left as it is. -/
theorem Leads.makeFolders (h : t.Leads p) : t.makeFolders p = (t, .ok ()) := by
  rw [FileTree.makeFolders]
  cases size : p.names.length with
  | zero => rfl
  | succ n =>
      have whole : ({ p with names := p.names.take (n + 1) } : Path) = p := by
        simpa only [Path.upTo, size] using upTo_length (p := p)
      rw [makeFoldersTo]
      simp only [whole, ensureFolder_of_hasFolder h.hasFolder, after]

theorem Leads.within (h : t.Leads p) (plain : name ≠ "..")
    (folder : t.at? (place p ++ [name]) = some .folder) : t.Leads (p.within name) := by
  intro n short
  rcases Nat.lt_or_eq_of_le short with short | rfl
  · have short : n ≤ p.names.length := by
      simp only [Path.within, List.length_append, List.length_singleton] at short
      omega
    rw [upTo_within short]
    exact h n short
  · rw [upTo_length, place_within plain]
    exact folder

/-- Only the last folder is made of a folder inside one that is there. -/
theorem Leads.makeFolders_eq (h : t.Leads p) :
    t.makeFolders (p.within name) = t.after (t.ensureFolder (p.within name)) := by
  have size : (p.within name).names.length = p.names.length + 1 := by simp [Path.within]
  have whole : (p.within name).upTo (p.names.length + 1) = p.within name := size ▸ upTo_length
  rw [FileTree.makeFolders, size, makeFoldersTo]
  simp only [Path.upTo] at whole
  rw [whole]
  split
  next missing =>
    rw [ensureFolder, makeFolder, h.refusal?_within] at missing
    cases there : t.has (p.within name) with
    | false => simp [there] at missing
    | true => cases folder : t.hasFolder (p.within name) <;> simp [there, folder] at missing
  next => rfl

/-- A folder inside one that is there cannot be made where there is a file. -/
theorem Leads.file_of_makeFolders {failure : FileError} (h : t.Leads p) (plain : name ≠ "..")
    (failed : t.makeFolders (p.within name) = (t', .error failure)) :
    t' = t ∧ ∃ c, t.at? (place p ++ [name]) = some (.file c) := by
  rw [h.makeFolders_eq, ensureFolder, makeFolder, h.refusal?_within, has,
    FileTree.hasFolder, h.entry?_within plain] at failed
  cases there : t.at? (place p ++ [name]) with
  | none => simp [there, after] at failed
  | some e =>
      cases e with
      | file c =>
          simp only [there, Option.isSome_some, if_true, after] at failed
          exact ⟨(congrArg Prod.fst failed).symm, c, rfl⟩
      | folder => simp [there, after] at failed

/-- A folder inside one that is there is found, or made where nothing is. -/
theorem Leads.makeFolders_within (h : t.Leads p) (plain : name ≠ "..")
    (made : t.makeFolders (p.within name) = (t', .ok ())) :
    t'.Leads (p.within name) ∧ Within (· = place p ++ [name]) t t' := by
  have entry := h.entry?_within plain
  rw [h.makeFolders_eq] at made
  obtain made | ⟨folder, rfl⟩ := ensureFolder_eq_ok (after_eq_ok.mp made)
  · obtain ⟨-, absent, rfl⟩ := makeFolder_eq_ok.mp made
    have free : t.at? (place (p.within name)) ≠ some .folder := by
      rw [place_within plain, ← entry]
      intro folder
      simp [has, folder] at absent
    have change : Within (· = place p ++ [name]) t (t.put (p.within name) .folder) :=
      .put free (place_within plain)
    refine ⟨(change.leads h).within plain ?_, change⟩
    rw [← place_within plain]
    exact at?_put_self free
  · exact ⟨h.within plain (place_within plain ▸ at?_of_hasFolder folder), .refl⟩

end Operations

end FileTree

end Parley
