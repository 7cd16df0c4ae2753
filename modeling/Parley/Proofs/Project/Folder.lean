import Parley.Graph.Draft
import Parley.Log.Session
import Parley.Project.File
import Parley.Proofs.Files.Tree
import Parley.Proofs.Json.LineEnds

/-!
# The folder of a project

A draft is saved beside its place and moved there.  In a folder that is there, a save changes these
two places and no other, and it fails only if the draft cannot be written at all or a folder is in
the way.  Log files have places of their own.
-/

namespace Parley

open FileTree (place Within)

variable {start t t' : FileTree} {folder path : Path} {text : String} {v : Json}
  {events : List Log.Event}

namespace Project

theorem configPath_eq : configPath folder = folder.within configName := rfl

theorem draftPath_eq : draftPath folder = folder.within draftName := rfl

/-- The name under which the draft is written before it is moved into its place. -/
def spareName : String := draftName ++ ".tmp"

theorem besides_draftPath : Draft.besides (draftPath folder) = folder.within spareName := by
  simp [Draft.besides, draftPath_eq, Path.addSuffix, Path.within, Path.name, spareName]

theorem parent_draftPath : (draftPath folder).parent = folder := by
  simp [draftPath_eq, Path.parent, Path.within]

theorem logs_eq : Log.Session.folderOf folder = folder.within "logs" := rfl

theorem logFile_eq : Log.Session.fileOf folder = (folder.within "logs").within "debug.jsonl" := rfl

end Project

namespace Project

/-- The places that a save of the draft changes. -/
def DraftPlace (folder : Path) (y : List String) : Prop :=
  y = place folder ++ [spareName] ∨ y = place folder ++ [draftName]

/-- The places of logs: their folder, and the log file under whatever full name. -/
def LogPlace (folder : Path) (y : List String) : Prop :=
  y = place folder ++ ["logs"] ∨ ∃ above, y = above ++ ["logs", "debug.jsonl"]

/-- A name in the folder that is none of logs is not at a place of logs. -/
theorem not_logPlace {name : String} (other : name ≠ "logs") (apart : name ≠ "debug.jsonl") :
    ¬ LogPlace folder (place folder ++ [name]) := by
  rintro (same | ⟨above, same⟩)
  · exact other (by simpa using same)
  · have last := congrArg List.getLast? same
    exact apart (by simpa using last)

/-- Whether something is in the way of the log file. -/
def LogBlocked (folder : Path) (t : FileTree) : Prop :=
  (∃ c, t.at? (place folder ++ ["logs"]) = some (.file c)) ∨
    t.at? (place folder ++ ["logs", "debug.jsonl"]) = some .folder

/-- The characters of the text of a configuration. -/
def configCharacters (c : Config) : List Char :=
  (Yaml.entryLines 0 ((Yaml.entriesOf? c.toYaml).getD [])).flatMap (· ++ ['\n'])

theorem configText_eq (c : Config) : configText c = String.ofList (configCharacters c) := rfl

/-- There is no configuration to be loaded where there is no file of it. -/
theorem loadConfig_missing (missing : t.has (configPath folder) = false) :
    ∃ e, loadConfig t folder = .error e := by
  rw [loadConfig, missing]
  exact ⟨_, rfl⟩

/-- A configuration is only read where there is a file of it. -/
theorem has_of_loadConfig {c : Config} (loaded : loadConfig t folder = .ok c) :
    t.has (configPath folder) = true := by
  by_contra missing
  obtain ⟨e, failed⟩ := loadConfig_missing (by simpa using missing)
  cases loaded.symm.trans failed

/-- A configuration file is parsed as it was written, if its line ends are in their one form. -/
theorem loadConfig_of_file {c : Config}
    (entry : t.entry? (configPath folder) = some (.file (.text (configText c))))
    (even : Json.Lacks '\r' (configCharacters c)) :
    loadConfig t folder = (parseConfig (configText c)).mapError (⟨configPath folder, ·⟩) := by
  have text : t.readText (configPath folder) = .ok (configText c) := by
    simp only [FileTree.readText, FileTree.content, entry, Except.mapError, bind, Except.bind,
      Content.read, configText_eq, String.toList_ofList, Json.plainLines_of_lacks even]
  rw [loadConfig, FileTree.has_of_entry entry, text]
  rfl

/-- A configuration is only saved in a folder that is there. -/
theorem leads_of_saveConfig {c : Config} (saved : saveConfig t folder c = .ok t') :
    t'.Leads folder := by
  have written : t.write (configPath folder) (configText c) = .ok t' := mapError_eq_ok.mp saved
  rw [configPath_eq] at written
  obtain ⟨none, -, -⟩ := FileTree.write_eq_ok.mp written
  exact (FileTree.within_of_write (by decide) written).leads (FileTree.leads_of_refusal? none)

/-- A place inside the folder has more than one name. -/
theorem ne_singleton {name other : String} (below : place folder ≠ []) :
    [name] ≠ place folder ++ [other] := by
  intro same
  exact below (List.append_eq_singleton_iff.mp same.symm |>.elim (·.1) (by simp))

end Project

namespace Draft

open Project

/-- What is loaded where there is a file: the object that it is the text of. -/
theorem load_of_file {content : Content} (entry : t.entry? path = some (.file content)) :
    load t path = (do
      let text ← content.read.mapError .notText
      match Json.read text with
      | .error e => .error (.notJson text e)
      | .ok (.obj fields) => pure (some (.obj fields))
      | .ok _ => .error (.notDraft path)) := by
  have text : t.readText path = content.read.mapError .notText := by
    simp only [FileTree.readText, FileTree.content, entry]
    rfl
  rw [load, FileTree.has_of_entry entry, text]
  rfl

theorem replace_eq_ok : (replace t path v).2 = .ok t' ↔
    ∃ text written, v.text Json.Layout.document = .ok text ∧
      t.write (besides path) text = .ok written ∧ written.move (besides path) path = .ok t' := by
  rw [replace]
  cases v.text Json.Layout.document with
  | error _ => simp
  | ok text =>
      cases written : t.write (besides path) text with
      | error _ => simp [written]
      | ok tree => simp [written, mapError_eq_ok]

/-- A save in a folder that is there succeeds if the draft is replaced. -/
theorem save_eq_ok (leads : t.Leads folder) :
    (∃ events, save t (draftPath folder) v = (t', .ok events)) ↔
      (replace t (draftPath folder) v).2 = .ok t' := by
  rw [save, parent_draftPath, leads.makeFolders]
  dsimp only
  rw [if_neg (by simp [draftPath_eq, Path.within])]
  rcases replace t (draftPath folder) v with ⟨tree, failed | saved⟩
  · simp only [reduceCtorEq, iff_false, not_exists]
    intro events
    split
    next => simp
    next => split <;> simp
  · simp

/-- The draft is replaced by its text if no folder stands in the two places. -/
theorem replace_draft (leads : t.Leads folder) :
    (replace t (draftPath folder) v).2 = .ok t' ↔
      ∃ text, v.text Json.Layout.document = .ok text ∧
        t.at? (place folder ++ [spareName]) ≠ some .folder ∧
        t.at? (place folder ++ [draftName]) ≠ some .folder ∧
        t' = ((t.put (folder.within spareName) (.file (.text text))).erase
          (folder.within spareName)).put (folder.within draftName) (.file (.text text)) := by
  have spare : spareName ≠ ".." := by decide
  have plain : draftName ≠ ".." := by decide
  have apart : place folder ++ [draftName] ≠ place (folder.within spareName) := by
    rw [FileTree.place_within spare]
    simpa using (by decide : draftName ≠ spareName)
  have written (text : String) (free : t.at? (place folder ++ [spareName]) ≠ some .folder) :
      let written := t.put (folder.within spareName) (.file (.text text))
      written.entry? (folder.within spareName) = some (.file (.text text)) ∧
        (written.hasFolder (folder.within draftName) = false ↔
          t.at? (place folder ++ [draftName]) ≠ some .folder) := by
    intro written
    rw [← FileTree.place_within spare] at free
    have change : Within (fun _ => True) t written := .put free trivial
    have there : written.Leads folder := change.leads leads
    constructor
    · rw [there.entry?_within spare, ← FileTree.place_within spare]
      exact FileTree.at?_put_self free
    · rw [there.hasFolder_within plain, FileTree.at?_put_of_ne apart]
  rw [replace_eq_ok, besides_draftPath, draftPath_eq]
  refine exists_congr fun text => ?_
  simp only [FileTree.write_eq_ok, FileTree.move_eq_ok, leads.refusal?_within, true_and,
    leads.hasFolder_within spare]
  constructor
  · rintro ⟨_, shown, ⟨free, rfl⟩, e, entry, target, rfl⟩
    obtain ⟨found, folder⟩ := written text free
    cases found.symm.trans entry
    exact ⟨shown, free, folder.mp target, rfl⟩
  · rintro ⟨shown, free, target, rfl⟩
    obtain ⟨found, folder⟩ := written text free
    exact ⟨_, shown, ⟨free, rfl⟩, _, found, folder.mpr target, rfl⟩

/-- What a save leaves: the draft in its place, nothing beside it, all else as it was. -/
theorem places_of_save (leads : t.Leads folder)
    (saved : save t (draftPath folder) v = (t', .ok events)) :
    ∃ text, v.text Json.Layout.document = .ok text ∧
      t'.at? (place folder ++ [draftName]) = some (.file (.text text)) ∧
      t'.at? (place folder ++ [spareName]) = none ∧ Within (DraftPlace folder) t t' := by
  obtain ⟨text, written, spare, target, rfl⟩ :=
    (replace_draft leads).mp ((save_eq_ok leads).mp ⟨events, saved⟩)
  have besides : place (folder.within spareName) = place folder ++ [spareName] :=
    FileTree.place_within (by decide)
  have here : place (folder.within draftName) = place folder ++ [draftName] :=
    FileTree.place_within (by decide)
  have apart : place (folder.within draftName) ≠ place (folder.within spareName) := by
    rw [besides, here]
    simpa using (by decide : draftName ≠ spareName)
  rw [← besides] at spare
  rw [← here] at target
  have wrote : (t.put (folder.within spareName) (.file (.text text))).at?
      (place (folder.within spareName)) ≠ some .folder := by
    rw [FileTree.at?_put_self spare]
    simp
  have free : ((t.put (folder.within spareName) (.file (.text text))).erase
      (folder.within spareName)).at? (place (folder.within draftName)) ≠ some .folder := by
    rwa [FileTree.at?_erase_of_ne apart, FileTree.at?_put_of_ne apart]
  refine ⟨text, written, here ▸ FileTree.at?_put_self free, ?_,
    ((Within.put spare (.inl besides)).trans (.erase wrote (.inl besides))).trans
      (.put free (.inr here))⟩
  rw [← besides, FileTree.at?_put_of_ne apart.symm, FileTree.at?_erase_self wrote]

/-- A save succeeds if the draft can be written and no folder is in the way. -/
theorem save_succeeds (leads : t.Leads folder) (written : v.text Json.Layout.document = .ok text)
    (spare : t.at? (place folder ++ [spareName]) ≠ some .folder)
    (target : t.at? (place folder ++ [draftName]) ≠ some .folder) :
    ∃ t' events, save t (draftPath folder) v = (t', .ok events) :=
  ⟨_, (save_eq_ok leads).mpr ((replace_draft leads).mpr ⟨text, written, spare, target, rfl⟩)⟩

/-- A save of a draft that cannot be written changes nothing. -/
theorem save_refused {e : DigitLimit} (leads : t.Leads folder)
    (refused : v.text Json.Layout.document = .error e)
    (spare : t.at? (place folder ++ [spareName]) = none) :
    save t (draftPath folder) v = (t, .error (.digits e)) := by
  have absent : t.has (folder.within spareName) = false := by
    rw [FileTree.has, leads.entry?_within (by decide), spare]
    rfl
  rw [save, parent_draftPath, leads.makeFolders]
  dsimp only
  rw [if_neg (by simp [draftPath_eq, Path.within]), replace, refused]
  simp only [besides_draftPath, absent, Bool.not_false, if_true]

/-- A save fails with a failure of files if a folder stands beside the place of the draft. -/
theorem save_blocked (leads : t.Leads folder)
    (blocked : t.at? (place folder ++ [spareName]) = some .folder) :
    ∃ t' e, save t (draftPath folder) v = (t', .error (.file e)) := by
  have entry : t.entry? (folder.within spareName) = some .folder := by
    rw [leads.entry?_within (by decide), blocked]
  have stays :
      t.remove (folder.within spareName) = .error (.isFolder (folder.within spareName)) := by
    rw [FileTree.remove, entry]
  rw [save, parent_draftPath, leads.makeFolders]
  dsimp only
  rw [if_neg (by simp [draftPath_eq, Path.within]), replace, besides_draftPath]
  cases v.text Json.Layout.document with
  | error e => simp [FileTree.has, entry, stays]
  | ok text =>
      simp [FileTree.write, leads.refusal?_within, FileTree.has, FileTree.hasFolder, entry, stays]

end Draft

namespace Log.Session

open Project

variable {s s' : Session} {home : String} {verbosity : Nat} {r : Except Failure Unit}

/-- Whether events go to the log file of a project or to none. -/
def LogsTo (s : Session) (folder : Path) : Prop := s.file = none ∨ s.file = some (fileOf folder)

/-- A log file that is added to is a place of logs. -/
theorem within_of_append {lines : String} (added : t.append (fileOf folder) lines = .ok t') :
    Within (LogPlace folder) t t' := by
  rw [logFile_eq] at added
  refine (FileTree.within_of_append (by decide) added).mono fun y same => .inr ⟨place folder, ?_⟩
  rw [same, FileTree.place_within (by decide)]
  simp

section Recording

variable {P : FileTree → Prop}

/-- What lines in the log file of a project leave as it is, a line of events does. -/
theorem append_keeps (logged : s.LogsTo folder)
    (adds : ∀ t lines t', P t → t.append (fileOf folder) lines = .ok t' → P t') {fields : Fields}
    (holds : P t) : P (s.append t fields) := by
  rw [append]
  rcases logged with none | some
  · rwa [none]
  · rw [some]
    dsimp only
    split
    next line _ =>
      cases added : t.append (fileOf folder) (line ++ "\n") with
      | error _ => exact holds
      | ok t' => exact adds _ _ _ holds added
    next => exact holds

theorem record_keeps (logged : s.LogsTo folder)
    (adds : ∀ t lines t', P t → t.append (fileOf folder) lines = .ok t' → P t') {now : String}
    {e : Event} (holds : P t) : P (s.record now t e) := by
  rw [record]
  split
  next => exact holds
  next => exact append_keeps logged adds holds

theorem recordAll_keeps (logged : s.LogsTo folder)
    (adds : ∀ t lines t', P t → t.append (fileOf folder) lines = .ok t' → P t') {now : String}
    (holds : P t) : P (s.recordAll now t events) := by
  rw [recordAll]
  induction events generalizing t with
  | nil => exact holds
  | cons e rest ih => exact ih (record_keeps logged adds holds)

/-- Events are recorded at the places of logs. -/
theorem recordAll_within (logged : s.LogsTo folder) {now : String} :
    Within (LogPlace folder) t (s.recordAll now t events) :=
  recordAll_keeps logged (fun _ _ _ before added => before.trans (within_of_append added)) .refl

end Recording

theorem shownRank?_ofNat (verbosity : Nat) : ∃ rank, shownRank? verbosity = some rank := by
  rcases verbosity with _ | _ | n
  · exact ⟨_, rfl⟩
  · exact ⟨_, rfl⟩
  · have least : min ((n + 2 : Nat) : Int) (shownLevels.length - 1) = 2 := by
      simp only [shownLevels, List.length_cons, List.length_nil]
      omega
    rw [shownRank?, least]
    exact ⟨_, rfl⟩

/-- Setting logging up without a file changes no file and does not fail. -/
theorem configure_shown (set : s.configure t home verbosity false none = (s', t', r)) :
    t' = t ∧ s'.file = none ∧ r = .ok () := by
  obtain ⟨rank, shown⟩ := shownRank?_ofNat verbosity
  simp only [configure, shown] at set
  cases set
  exact ⟨rfl, rfl, rfl⟩

/-- What becomes of setting logging up with a file: its folder cannot be made, it cannot be opened,
or it is open. -/
theorem configure_toFile {verbosity : Int} {shown : Nat} (level : shownRank? verbosity = some shown)
    (set : s.configure t home verbosity true (some folder) = (s', t', r)) :
    (∃ e, t.makeFolders (folderOf folder) = (t', .error e) ∧
      s' = { s.close with folder := some (folderOf folder) } ∧ r = .error (.file e)) ∨
    ∃ tree, t.makeFolders (folderOf folder) = (tree, .ok ()) ∧
      ((∃ e, openFile tree home (fileOf folder) = .error e ∧
        s' = { s.close with folder := some (folderOf folder) } ∧ t' = tree ∧
          r = .error (.file e)) ∨
        openFile tree home (fileOf folder) = .ok t' ∧
          s' = { s.close with
            folder := some (folderOf folder)
            rank := Level.debug.rank
            shown
            file := some (fileOf folder)
            isOpen := true } ∧ r = .ok ()) := by
  rcases made : t.makeFolders (folderOf folder) with ⟨tree, e | _⟩
  · simp only [configure, level, made] at set
    cases set
    exact .inl ⟨e, rfl, rfl, rfl⟩
  · refine .inr ⟨tree, rfl, ?_⟩
    cases opened : openFile tree home (fileOf folder) with
    | error e =>
        simp only [configure, level, made, opened] at set
        cases set
        exact .inl ⟨e, rfl, rfl, rfl, rfl⟩
    | ok final =>
        simp only [configure, level, made, opened] at set
        cases set
        exact .inr ⟨rfl, rfl, rfl⟩

theorem openFile_within (opened : openFile t home (fileOf folder) = .ok t') :
    Within (LogPlace folder) t t' := by
  rw [openFile] at opened
  split at opened
  next => cases opened
  next => exact within_of_append opened

/-- A log file in a folder that is there is opened, unless it is a folder. -/
theorem openFile_fails {e : FileError} (leads : t.Leads (folderOf folder))
    (failed : openFile t home (fileOf folder) = .error e) :
    t.at? (place (folderOf folder) ++ ["debug.jsonl"]) = some .folder := by
  have entry : t.entry? (fileOf folder) = t.at? (place (folderOf folder) ++ ["debug.jsonl"]) :=
    leads.entry?_within (by decide)
  have free : t.refusal? (fileOf folder) = none := leads.refusal?_within
  rw [openFile] at failed
  split at failed
  next isFolder =>
    rw [FileTree.hasFolder, entry] at isFolder
    exact beq_iff_eq.mp isFolder
  next =>
    rw [FileTree.append, free, entry] at failed
    cases there : t.at? (place (folderOf folder) ++ ["debug.jsonl"]) with
    | none => simp [there] at failed
    | some e =>
        cases e with
        | file c => simp [there] at failed
        | folder => rfl

/-- Setting logging up with a file in the folder of a project changes places of logs only, and fails
only if something is in the way. -/
theorem configure_file (leads : t.Leads folder)
    (set : s.configure t home verbosity true (some folder) = (s', t', r)) :
    Within (LogPlace folder) t t' ∧ (r = .ok () → s'.file = some (fileOf folder)) ∧
      ∀ f, r = .error f → LogBlocked folder t ∧ ∃ e, f = .file e := by
  obtain ⟨rank, level⟩ := shownRank?_ofNat verbosity
  obtain ⟨e, made, -, rfl⟩ | ⟨tree, made, opening⟩ := configure_toFile level set
  · obtain ⟨rfl, file⟩ := leads.file_of_makeFolders (by decide) made
    refine ⟨.refl, (fun h => nomatch h), fun f failed => ?_⟩
    cases failed
    exact ⟨.inl file, e, rfl⟩
  · obtain ⟨there, above⟩ := leads.makeFolders_within (by decide) made
    have within : Within (LogPlace folder) t tree := above.mono fun y same => .inl same
    obtain ⟨e, unopened, -, rfl, rfl⟩ | ⟨opened, rfl, rfl⟩ := opening
    · refine ⟨within, (fun h => nomatch h), fun f failed => ?_⟩
      cases failed
      have folder := openFile_fails there unopened
      rw [logs_eq, FileTree.place_within (by decide), List.append_assoc,
        above.others _ (by simp)] at folder
      exact ⟨.inr folder, e, rfl⟩
    · exact ⟨within.trans (openFile_within opened), fun _ => rfl, fun _ h => nomatch h⟩

end Log.Session

namespace Project

/-- What the folder of a project holds while its graph is edited, where `start` is the tree before:
a draft with a text, nothing beside it, and the configuration as it was.  Folders stay folders, and
what is at places of one name only stays as it was, so that the folder is found as before. -/
structure Keeps (start : FileTree) (folder : Path) (text : String) (t : FileTree) : Prop where
  folders : ∀ y, start.at? y = some .folder → t.at? y = some .folder
  leads : t.Leads folder
  below : place folder ≠ []
  draft : t.at? (place folder ++ [draftName]) = some (.file (.text text))
  spare : t.at? (place folder ++ [spareName]) = none
  config : t.at? (place folder ++ [configName]) = start.at? (place folder ++ [configName])
  shallow : ∀ name, t.at? [name] = start.at? [name]

namespace Keeps

/-- A save in a folder that is there keeps what is saved. -/
theorem of_save (below : place folder ≠ []) (leads : t.Leads folder)
    (saved : Draft.save t (draftPath folder) v = (t', .ok events)) :
    ∃ text, v.text Json.Layout.document = .ok text ∧ Keeps t folder text t' := by
  obtain ⟨text, written, draft, spare, change⟩ := Draft.places_of_save leads saved
  refine ⟨text, written, change.folders, change.leads leads, below, draft, spare, ?_,
    fun name => ?_⟩
  · exact change.others _ (by simp [DraftPlace, configName, spareName, draftName])
  · exact change.others _ (by simp [DraftPlace, ne_singleton below])

/-- What is kept from one tree to the next is kept from the first one. -/
theorem trans {text' : String} (first : Keeps start folder text t)
    (second : Keeps t folder text' t') : Keeps start folder text' t' where
  folders y there := second.folders y (first.folders y there)
  leads := second.leads
  below := second.below
  draft := second.draft
  spare := second.spare
  config := second.config.trans first.config
  shallow name := (second.shallow name).trans (first.shallow name)

/-- A save of a draft that can be written succeeds. -/
theorem save (h : Keeps start folder text t) {new : String}
    (written : v.text Json.Layout.document = .ok new) :
    ∃ t' events, Draft.save t (draftPath folder) v = (t', .ok events) ∧
      Keeps start folder new t' := by
  obtain ⟨t', events, saved⟩ := Draft.save_succeeds h.leads written (by simp [h.spare])
    (by simp [h.draft])
  obtain ⟨_, same, keeps⟩ := of_save h.below h.leads saved
  cases written.symm.trans same
  exact ⟨t', events, saved, h.trans keeps⟩

/-- Logs leave the project as it is. -/
theorem logs (h : Keeps start folder text t) (change : Within (LogPlace folder) t t') :
    Keeps start folder text t' := by
  have inside {name : String} (other : name ≠ "logs") (apart : name ≠ "debug.jsonl") :
      t'.at? (place folder ++ [name]) = t.at? (place folder ++ [name]) :=
    change.others _ (not_logPlace other apart)
  refine ⟨fun y there => change.folders y (h.folders y there), change.leads h.leads, h.below,
    ?_, ?_, ?_, fun name => ?_⟩
  · rw [inside (by decide) (by decide), h.draft]
  · rw [inside (by decide) (by decide), h.spare]
  · rw [inside (by decide) (by decide), h.config]
  · rw [change.others _ ?_, h.shallow]
    rintro (same | ⟨above, same⟩)
    · exact ne_singleton h.below same
    · have size := congrArg List.length same
      simp at size

/-- The same is kept by another path to the folder. -/
theorem moved {other : Path} (h : Keeps start folder text t) (leads : t.Leads other)
    (same : place other = place folder) : Keeps start other text t :=
  ⟨h.folders, leads, same ▸ h.below, same ▸ h.draft, same ▸ h.spare, same ▸ h.config, h.shallow⟩

end Keeps

end Project

end Parley
