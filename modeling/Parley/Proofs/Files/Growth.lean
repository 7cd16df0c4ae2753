import Parley.Proofs.Files.Tree

/-!
# File operations that only add

Making folders and adding to files takes nothing away: folders stay folders, and each file holds
what it held, with or without something behind it.
-/

namespace Parley

namespace Content

@[simp] theorem append_empty (c : Content) : c.append "" = c := by
  cases c <;> simp [append, String.toUTF8]

theorem append_append (c : Content) (s s' : String) :
    (c.append s).append s' = c.append (s ++ s') := by
  cases c <;> simp [append, String.toUTF8, String.append_assoc]

theorem append_ne (c : Content) {s : String} (more : s ≠ "") : c.append s ≠ c := by
  cases c with
  | text s' => simpa [append] using more
  | octets bs =>
      have octets : s.toUTF8.data.toList ≠ [] := by
        intro none
        exact more (String.toByteArray_inj.mp (ByteArray.ext (Array.toList_eq_nil_iff.mp none)))
      simpa [append] using octets

end Content

namespace FileTree

variable {t t' t'' : FileTree} {p : Path} {name s : String} {c : Content} {e : FileEntry}
  {z : List String}

/-- Whether folders stay folders, and files hold what they held, with something behind it. -/
structure Grows (t t' : FileTree) : Prop where
  folders : ∀ y, t.at? y = some .folder → t'.at? y = some .folder
  files : ∀ y c, t.at? y = some (.file c) → ∃ more, t'.at? y = some (.file (c.append more))

namespace Grows

theorem refl : Grows t t :=
  ⟨fun _ => id, fun _ c there => ⟨"", by rw [c.append_empty, there]⟩⟩

theorem trans (first : Grows t t') (second : Grows t' t'') : Grows t t'' where
  folders y folder := second.folders y (first.folders y folder)
  files y c there := by
    obtain ⟨more, there⟩ := first.files y c there
    obtain ⟨last, there⟩ := second.files y _ there
    exact ⟨more ++ last, by rw [there, c.append_append]⟩

theorem leads (h : Grows t t') (leads : t.Leads p) : t'.Leads p :=
  fun n short => h.folders _ (leads n short)

/-- Something is put where nothing is. -/
theorem put_new (absent : t.at? (place p) = none) : Grows t (t.put p e) := by
  have other {y : List String} {e' : FileEntry} (there : t.at? y = some e') : y ≠ place p := by
    rintro rfl
    cases absent.symm.trans there
  constructor
  · intro y folder
    rw [at?_put_of_ne (other folder), folder]
  · intro y c there
    exact ⟨"", by rw [at?_put_of_ne (other there), there, c.append_empty]⟩

/-- A file gets something behind what it holds. -/
theorem put_append (there : t.at? (place p) = some (.file c)) :
    Grows t (t.put p (.file (c.append s))) := by
  constructor
  · intro y folder
    have other : y ≠ place p := by
      rintro rfl
      cases there.symm.trans folder
    rw [at?_put_of_ne other, folder]
  · intro y c' found
    by_cases same : y = place p
    · subst same
      cases there.symm.trans found
      exact ⟨s, at?_put_self (by simp [there])⟩
    · exact ⟨"", by rw [at?_put_of_ne same, found, c'.append_empty]⟩

end Grows

/-- What is at a path to which nothing is in the way is what is at its place. -/
theorem entry?_of_refusal? (none : t.refusal? p = none) : t.entry? p = t.at? (place p) :=
  entry?_of_passable (passable_of_refusal? none)

/-- Whether folders are made at given places, each where nothing was. -/
def Made (places : List String → Prop) (t t' : FileTree) : Prop :=
  Within (fun y => t.at? y = none ∧ places y) t t'

namespace Made

variable {places more : List String → Prop}

theorem refl : Made places t t := Within.refl

/-- Where nothing is in between, nothing was at first. -/
theorem trans (first : Made places t t') (second : Made places t' t'') : Made places t t'' where
  folders y folder := second.folders y (first.folders y folder)
  others y outside := by
    have before : t'.at? y = t.at? y := first.others y outside
    exact (second.others y (before ▸ outside)).trans before

theorem mono (h : Made places t t') (wider : ∀ y, places y → more y) : Made more t t' :=
  Within.mono h fun y new => ⟨new.1, wider y new.2⟩

theorem grows (h : Made places t t') : Grows t t' where
  folders := h.folders
  files y c there := by
    have kept : t'.at? y = t.at? y := h.others y fun new => by cases there.symm.trans new.1
    exact ⟨"", by rw [kept, there, c.append_empty]⟩

/-- Folders are made elsewhere than where there is a file. -/
theorem elsewhere (h : Made places t t') (there : t.at? z = some (.file c)) :
    Within (· ≠ z) t t' := by
  refine Within.mono h fun y new => ?_
  rintro rfl
  cases there.symm.trans new.1

end Made

section Folders

theorem made_of_makeFolder (made : t.makeFolder p = .ok t') : Made (· = place p) t t' := by
  obtain ⟨none, absent, rfl⟩ := makeFolder_eq_ok.mp made
  rw [has, entry?_of_refusal? none, Option.isSome_eq_false_iff, Option.isNone_iff_eq_none] at absent
  exact Within.put (by simp [absent]) ⟨absent, rfl⟩

theorem made_of_ensureFolder (ensured : t.ensureFolder p = .ok t') : Made (· = place p) t t' := by
  obtain made | ⟨-, rfl⟩ := ensureFolder_eq_ok ensured
  · exact made_of_makeFolder made
  · exact .refl

/-- An operation that is refused makes nothing. -/
theorem Made.of_after {places : List String → Prop} {r : Except FileError FileTree}
    (made : ∀ t', r = .ok t' → Made places t t') : Made places t (t.after r).1 := by
  cases r with
  | ok t' => exact made t' rfl
  | error _ => exact .refl

/-- Folders are made at the places that the path passes, whether or not all of them are made. -/
theorem made_of_makeFoldersTo {n : Nat} :
    Made (fun y => ∃ m ≤ n, y = place (p.upTo m)) t (t.makeFoldersTo p n).1 := by
  induction n with
  | zero => exact .refl
  | succ n ih =>
      have last {before : FileTree} : Made (fun y => ∃ m ≤ n + 1, y = place (p.upTo m)) before
          (before.after (before.ensureFolder (p.upTo (n + 1)))).1 :=
        .of_after fun t' above =>
          (made_of_ensureFolder above).mono fun _ same => ⟨n + 1, Nat.le_refl _, same⟩
      have below : Made (fun y => ∃ m ≤ n + 1, y = place (p.upTo m)) t (t.makeFoldersTo p n).1 :=
        ih.mono fun _ ⟨m, short, same⟩ => ⟨m, Nat.le_succ_of_le short, same⟩
      rw [makeFoldersTo]
      split
      next =>
        split
        next between done =>
          rw [done] at below
          exact below.trans last
        next => exact below
      next => exact last

theorem made_of_makeFolders :
    Made (fun y => ∃ n ≤ p.names.length, y = place (p.upTo n)) t (t.makeFolders p).1 :=
  made_of_makeFoldersTo

theorem made_of_makeNewFolder : Made (fun _ => True) t (t.makeNewFolder p).1 := by
  have last {before : FileTree} :
      Made (fun _ => True) before (before.after (before.makeFolder p)).1 :=
    .of_after fun t' above => (made_of_makeFolder above).mono fun _ _ => trivial
  have below : Made (fun _ => True) t (t.makeFolders p.parent).1 :=
    made_of_makeFolders.mono fun _ _ => trivial
  rw [makeNewFolder]
  split
  next =>
    split
    next between done =>
      rw [done] at below
      exact below.trans last
    next => exact below
  next => exact last

end Folders

section Files

/-- A text is written where there is no folder, and there is nothing but the text then. -/
theorem file_of_write {s : String} (written : t.write p s = .ok t') :
    Within (· = place p) t t' ∧ t'.at? (place p) = some (.file (.text s)) := by
  obtain ⟨none, free, rfl⟩ := write_eq_ok.mp written
  have free : t.at? (place p) ≠ some .folder := by
    rwa [hasFolder, entry?_of_refusal? none, beq_eq_false_iff_ne] at free
  exact ⟨.put free rfl, at?_put_self free⟩

/-- A file that is written in a folder and moved to another name there is found under this name, and
nothing under the other. -/
theorem file_of_move {other s : String} {written : FileTree}
    (apart : place (p.within other) ≠ place (p.within name))
    (writing : t.write (p.within other) s = .ok written)
    (moving : written.move (p.within other) (p.within name) = .ok t') :
    t'.entry? (p.within name) = some (.file (.text s)) ∧ t'.has (p.within other) = false := by
  obtain ⟨change, there⟩ := file_of_write writing
  obtain ⟨e, entry, free, rfl⟩ := move_eq_ok.mp moving
  have leads : written.Leads p := change.leads (leads_of_refusal? (write_eq_ok.mp writing).1)
  rw [entry?_of_passable leads.passable_within, there] at entry
  cases entry
  rw [hasFolder, entry?_of_passable leads.passable_within, beq_eq_false_iff_ne] at free
  have spare : written.at? (place (p.within other)) ≠ some .folder := by simp [there]
  have taken : Within (fun _ => True) written (written.erase (p.within other)) :=
    .erase spare trivial
  have erased : (written.erase (p.within other)).at? (place (p.within name)) ≠ some .folder := by
    rwa [at?_erase_of_ne apart.symm]
  have given : Within (fun _ => True) (written.erase (p.within other))
      ((written.erase (p.within other)).put (p.within name) (.file (.text s))) :=
    .put erased trivial
  have moved := given.leads (taken.leads leads)
  constructor
  · rw [entry?_of_passable moved.passable_within]
    exact at?_put_self erased
  · refine has_of_at? ?_
    rw [at?_put_of_ne apart, at?_erase_self spare]

/-- A file that is removed was there. -/
theorem within_of_remove (removed : t.remove p = .ok t') : Within (· = place p) t t' := by
  obtain ⟨c, entry, rfl⟩ := remove_eq_ok.mp removed
  exact .erase (by simp [at?_of_entry entry]) rfl

end Files

section Additions

theorem append_grows (added : t.append p s = .ok t') : Grows t t' := by
  obtain ⟨none, results⟩ := append_eq_ok.mp added
  rw [entry?_of_refusal? none] at results
  obtain ⟨c, there, rfl⟩ | ⟨absent, rfl⟩ := results
  · exact .put_append there
  · exact .put_new absent

/-- A file inside a folder that something was added to is there. -/
theorem file_of_append (plain : name ≠ "..") (added : t.append (p.within name) s = .ok t') :
    t'.Leads p ∧ ∃ c, t'.at? (place p ++ [name]) = some (.file c) := by
  obtain ⟨none, results⟩ := append_eq_ok.mp added
  refine ⟨(append_grows added).leads (leads_of_refusal? none), ?_⟩
  rw [entry?_of_refusal? none] at results
  rw [← place_within plain]
  obtain ⟨c, there, rfl⟩ | ⟨absent, rfl⟩ := results
  · exact ⟨_, at?_put_self (by simp [there])⟩
  · exact ⟨_, at?_put_self (by simp [absent])⟩

/-- Something can be added to a file that is there, and nothing else changes. -/
theorem append_of_file (leads : t.Leads p) (plain : name ≠ "..")
    (there : t.at? (place p ++ [name]) = some (.file c)) :
    ∃ t', t.append (p.within name) s = .ok t' ∧
      t'.at? (place p ++ [name]) = some (.file (c.append s)) ∧
      ∀ y ≠ place p ++ [name], t'.at? y = t.at? y := by
  have entry : t.entry? (p.within name) = some (.file c) := by rw [leads.entry?_within plain, there]
  have added : t.append (p.within name) s = .ok (t.put (p.within name) (.file (c.append s))) :=
    append_eq_ok.mpr ⟨leads.refusal?_within, .inl ⟨c, entry, rfl⟩⟩
  refine ⟨_, added, ?_, (within_of_append plain added).others⟩
  rw [← place_within plain]
  exact at?_put_self (by simp [place_within plain, there])

end Additions

end FileTree

end Parley
