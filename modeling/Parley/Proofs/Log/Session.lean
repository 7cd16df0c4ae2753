import Parley.Proofs.Files.Growth
import Parley.Proofs.Json.LineEnds
import Parley.Proofs.Project.Folder

/-!
# Which log file is in use

A program sets logging up, closes the log file, binds a project and records entries, in any order.
The log file in use is that of the last setup that went through, if it asked for one: every entry
that can be written adds one line to it and changes nothing else, whatever its level.  No step but
a setup that goes through puts another file into use.

What a session says of itself is another matter.  It names the folder of the log file in use as long
as it is settled: until the log file is closed, or a later setup fails half way.  Closing does not
put the file out of use, and a setup that fails has already named its own folder.
-/

namespace Parley.Log

open FileTree (place Grows)
open Parley.Log.Session (folderOf fileOf)

variable {s s' : Session} {t t' : FileTree} {home now : String} {project : Path}

/-- What is recorded: an event of the program, or a message of another part. -/
inductive Entry where
  | event (e : Event)
  | message (level : Level) (logger template : String) (values : List Json)

namespace Entry

/-- The level of an entry. -/
def level : Entry → Level
  | .event e => e.level
  | .message level _ _ _ => level

/-- The fields of the line for an entry; there is none if the values of a message do not fit its
template. -/
def fields? (s : Session) (now : String) : Entry → Option Fields
  | .event e => some (s.eventFields now e)
  | .message level logger template values =>
    (Template.message template values).toOption.map fun message =>
      Session.heading now level logger ++ [("message", .str message)]

/-- The line for an entry; there is none either if a whole number is too long to be written. -/
def line? (s : Session) (now : String) (entry : Entry) : Option String :=
  (entry.fields? s now).bind fun fields => ((Json.obj fields).text .line).toOption

/-- The files after an entry is recorded. -/
def record (s : Session) (now : String) (t : FileTree) : Entry → FileTree
  | .event e => s.record now t e
  | .message level logger template values => (s.recordMessage now t level logger template values).1

end Entry

/-- A step of a program, as far as it is about logs. -/
inductive Step where
  | configure (verbosity : Int) (toFile : Bool) (project : Option Path)
  | close
  | bind (project : String)
  | log (now : String) (entry : Entry)

/-- The session and the files after a step, and whether it fails. -/
def Step.apply (home : String) (s : Session) (t : FileTree) :
    Step → Session × FileTree × Except Failure Unit
  | .configure verbosity toFile project => s.configure t home verbosity toFile project
  | .close => (s.close, t, .ok ())
  | .bind project => (s.bind project, t, .ok ())
  | .log now entry => (s, entry.record s now t, .ok ())

/-- How what a session says of itself compares with the log file in use. -/
inductive Standing where
  /-- The session names the folder of the log file in use, or none if there is no such file. -/
  | settled
  /-- The log file in use was closed, and the session names none. -/
  | closed
  /-- A setup failed half way, and the session names its folder. -/
  | astray
deriving DecidableEq

/-- What a program knows of its steps and their failures, without a look at the session. -/
structure Outlook where
  /-- The project whose log file is in use: that of the last setup that went through, if it asked
  for a file. -/
  project : Option Path := none
  standing : Standing := .settled
deriving DecidableEq

namespace Outlook

/-- The outlook after the log file is closed, if it is open. -/
def close (o : Outlook) : Outlook :=
  if o.standing = .settled ∧ o.project.isSome then { o with standing := .closed } else o

/-- The outlook after a step.  A setup without a folder for its file fails at once, one with a
number of requests that stands for no level fails when the log file before it is closed, and one
that finds something in the way of its file fails when it has named the folder. -/
def after (o : Outlook) : Step → Except Failure Unit → Outlook
  | .configure _ true project, .ok () => ⟨project, .settled⟩
  | .configure _ false _, .ok () => ⟨none, if o.standing = .astray then .astray else .settled⟩
  | .configure _ _ _, .error .noLogFolder => o
  | .configure _ _ _, .error .noLogLevel => o.close
  | .configure _ _ _, .error _ => { o with standing := .astray }
  | .close, _ => o.close
  | .bind _, _ => o
  | .log _ _, _ => o

end Outlook

/-- How things stand after some steps. -/
structure Course where
  session : Session := {}
  files : FileTree
  outlook : Outlook := {}

namespace Course

/-- A further step. -/
def step (home : String) (c : Course) (x : Step) : Course :=
  let (session, files, failure) := x.apply home c.session c.files
  ⟨session, files, c.outlook.after x failure⟩

/-- Steps, one after the other. -/
def run (home : String) (c : Course) (steps : List Step) : Course := steps.foldl (step home) c

end Course

/-- Whether one line is added to a file, and nothing else changes. -/
structure GainsLine (file : Path) (line : String) (t t' : FileTree) : Prop where
  single : '\n' ∉ line.toList
  added : ∃ c, t.at? (place file) = some (.file c) ∧
    t'.at? (place file) = some (.file (c.append (line ++ "\n")))
  others : ∀ y ≠ place file, t'.at? y = t.at? y

/-- Whether there is a log file for a project, and nothing in the way of further lines. -/
structure Ready (t : FileTree) (project : Path) : Prop where
  leads : t.Leads (folderOf project)
  file : ∃ c, t.at? (place (fileOf project)) = some (.file c)

namespace Ready

theorem grows (h : Ready t project) (more : Grows t t') : Ready t' project := by
  obtain ⟨c, there⟩ := h.file
  obtain ⟨_, there⟩ := more.files _ c there
  exact ⟨more.leads h.leads, _, there⟩

end Ready

theorem place_fileOf : place (fileOf project) = place (folderOf project) ++ ["debug.jsonl"] :=
  FileTree.place_within (by decide)

section Recording

theorem Level.debug_le (level : Level) : Level.debug.rank ≤ level.rank := by
  cases level <;> decide

namespace Session

theorem append_none (unused : s.file = none) {fields : Fields} : s.append t fields = t := by
  rw [append, unused]

theorem append_some {file : Path} (used : s.file = some file) {fields : Fields} :
    s.append t fields = ((Json.obj fields).text .line).toOption.elim t fun line =>
      (t.append file (line ++ "\n")).toOption.getD t := by
  rw [append, used]
  dsimp only
  cases (Json.obj fields).text .line <;> rfl

theorem append_grows {fields : Fields} : Grows t (s.append t fields) := by
  cases used : s.file with
  | none => exact append_none used ▸ .refl
  | some file =>
      rw [append_some used]
      cases ((Json.obj fields).text .line).toOption with
      | none => exact .refl
      | some line =>
          rw [Option.elim_some]
          cases added : t.append file (line ++ "\n") with
          | ok t' => exact FileTree.append_grows added
          | error _ => exact .refl

end Session

namespace Entry

variable {entry : Entry}

/-- An entry that is let through is appended, if it has fields. -/
theorem record_eq : entry.record s now t = if entry.level.rank < s.rank then t
    else (entry.fields? s now).elim t (s.append t) := by
  cases entry with
  | event e => rfl
  | message level logger template values =>
      simp only [record, Session.recordMessage, fields?, Entry.level]
      by_cases low : level.rank < s.rank
      · simp only [low, if_true]
      · simp only [low, if_false]
        cases Template.message template values <;> rfl

/-- Nothing is written where no log file is in use. -/
theorem record_none (unused : s.file = none) : entry.record s now t = t := by
  have same : s.append t = fun _ => t := funext fun _ => Session.append_none unused
  rw [record_eq, same]
  split
  · rfl
  · cases entry.fields? s now <;> rfl

/-- An entry that is let through is written as its line, if it has one. -/
theorem record_some {file : Path} (used : s.file = some file) (high : s.rank ≤ entry.level.rank) :
    entry.record s now t = (entry.line? s now).elim t fun line =>
      (t.append file (line ++ "\n")).toOption.getD t := by
  rw [record_eq, if_neg (Nat.not_lt.mpr high), line?]
  cases entry.fields? s now with
  | none => rfl
  | some fields => exact Session.append_some used

/-- The line for an entry is a single one. -/
theorem line_single {line : String} (written : entry.line? s now = some line) :
    '\n' ∉ line.toList := by
  obtain ⟨fields, -, shown⟩ := Option.bind_eq_some_iff.mp written
  have shown : (Json.obj fields).text .line = .ok line := toOption_eq_some.mp shown
  exact fun member => Json.lacks_text shown (.inr ⟨rfl, rfl⟩) _ member rfl

/-- Recording takes nothing away. -/
theorem record_grows : Grows t (entry.record s now t) := by
  rw [record_eq]
  split
  next => exact .refl
  next =>
    cases entry.fields? s now with
    | none => exact .refl
    | some fields => exact Session.append_grows

end Entry

end Recording

namespace Session

theorem close_of_open (opened : s.isOpen = true) :
    s.close = { s with isOpen := false, folder := none } := by
  rw [close, if_pos opened]

theorem close_of_closed (shut : s.isOpen = false) : s.close = s := by
  rw [close, if_neg (by simp [shut])]

theorem close_isOpen : s.close.isOpen = false := by
  cases opened : s.isOpen with
  | true => rw [close_of_open opened]
  | false => rw [close_of_closed opened, opened]

theorem close_file : s.close.file = s.file := by
  rw [close]
  split <;> rfl

theorem close_rank : s.close.rank = s.rank := by
  rw [close]
  split <;> rfl

/-- A log file that was opened is ready for lines. -/
theorem openFile_ready (opened : openFile t home (fileOf project) = .ok t') :
    Grows t t' ∧ Ready t' project := by
  rw [openFile] at opened
  split at opened
  next => cases opened
  next =>
    obtain ⟨leads, c, there⟩ := FileTree.file_of_append (by decide) opened
    exact ⟨FileTree.append_grows opened, leads, c, place_fileOf ▸ there⟩

/-- A setup with a file goes through where the file is there already. -/
theorem configure_of_ready (s : Session) (home : String) (ready : Ready t project)
    {verbosity : Int} {rank : Nat} (level : shownRank? verbosity = some rank) :
    ∃ s' t', s.configure t home verbosity true (some project) = (s', t', .ok ()) := by
  obtain ⟨c, there⟩ := ready.file
  rw [place_fileOf] at there
  have free : t.hasFolder (fileOf project) = false :=
    (ready.leads.hasFolder_within (by decide)).mpr fun folder => nomatch there.symm.trans folder
  obtain ⟨t', added, -⟩ := FileTree.append_of_file (s := "") ready.leads (by decide) there
  have opened : openFile t home (fileOf project) = .ok t' := by
    rw [openFile, if_neg (by simp [free])]
    exact added
  simp [configure, level, ready.leads.makeFolders, opened]

/-- What becomes of a setup. -/
theorem configure_cases (s : Session) (t : FileTree) (home : String) (verbosity : Int)
    (toFile : Bool) (project : Option Path) :
    let result := s.configure t home verbosity toFile project
    result = (s, t, .error .noLogFolder) ∨ result = (s.close, t, .error .noLogLevel) ∨
      (∃ p t' e, result = ({ s.close with folder := some (folderOf p) }, t', .error (.file e)) ∧
        Grows t t' ∧ ¬ Ready t p) ∨
      (∃ p t' shown, toFile = true ∧ project = some p ∧
        result = ({ s.close with
          folder := some (folderOf p)
          rank := Level.debug.rank
          shown
          file := some (fileOf p)
          isOpen := true }, t', .ok ()) ∧ Grows t t' ∧ Ready t' p) ∨
      ∃ rank shown, toFile = false ∧
        result = ({ s.close with rank, shown, file := none }, t, .ok ()) := by
  intro result
  have refused {p : Path} {shown : Nat} (level : shownRank? verbosity = some shown)
      {s' : Session} {t' : FileTree} {e : FileError}
      (failed : s.configure t home verbosity true (some p) = (s', t', .error (.file e))) :
      ¬ Ready t p := by
    intro ready
    obtain ⟨_, _, went⟩ := configure_of_ready s home ready level
    cases failed.symm.trans went
  cases level : shownRank? verbosity with
  | none =>
      cases toFile with
      | false => exact .inr (.inl (by simp only [result, configure, level]))
      | true =>
          cases project with
          | none => exact .inl rfl
          | some p => exact .inr (.inl (by simp only [result, configure, level]))
  | some shown =>
      cases toFile with
      | false =>
          exact .inr (.inr (.inr (.inr ⟨_, shown, rfl, by
            simp only [result, configure, level]
            rfl⟩)))
      | true =>
          cases project with
          | none => exact .inl rfl
          | some p =>
              rcases set : result with ⟨s', t', r⟩
              have above : Grows t (t.makeFolders (folderOf p)).1 :=
                FileTree.made_of_makeFolders.grows
              obtain ⟨e, made, rfl, rfl⟩ | ⟨tree, made, opening⟩ := configure_toFile level set <;>
                rw [made] at above
              · exact .inr (.inr (.inl ⟨p, t', e, rfl, above, refused level set⟩))
              · obtain ⟨e, -, rfl, rfl, rfl⟩ | ⟨opened, rfl, rfl⟩ := opening
                · exact .inr (.inr (.inl ⟨p, t', e, rfl, above, refused level set⟩))
                · obtain ⟨more, ready⟩ := openFile_ready opened
                  exact .inr (.inr (.inr (.inl ⟨p, t', shown, rfl, rfl, rfl, above.trans more,
                    ready⟩)))

end Session

/-- What a session says of itself, by how that compares with the log file in use. -/
def Standing.Names (s : Session) (project : Option Path) : Standing → Prop
  | .settled => s.folder = project.map folderOf ∧ s.isOpen = project.isSome
  | .closed => project.isSome ∧ s.folder = none ∧ s.isOpen = false
  | .astray =>
    (∃ p, s.folder = some (folderOf p)) ∧ s.folder ≠ project.map folderOf ∧ s.isOpen = false

namespace Course

/-- What holds after any steps: the log file of the outlook is in use, lets everything through and
can be written, and the session names what the outlook says. -/
structure Sound (c : Course) : Prop where
  file : c.session.file = c.outlook.project.map fileOf
  rank : c.outlook.project.isSome → c.session.rank = Level.debug.rank
  ready : ∀ p, c.outlook.project = some p → Ready c.files p
  names : c.outlook.standing.Names c.session c.outlook.project

variable {c : Course}

/-- What is named behind the close of the log file: nothing, unless a setup failed half way. -/
theorem Sound.folder_close (h : Sound c) (held : c.outlook.standing ≠ .astray) :
    c.session.close.folder = none := by
  have names := h.names
  cases standing : c.outlook.standing with
  | settled =>
      rw [standing] at names
      obtain ⟨named, opened⟩ := names
      cases used : c.outlook.project with
      | none =>
          rw [used] at named opened
          rw [Session.close_of_closed opened, named, Option.map_none]
      | some p =>
          rw [used] at opened
          rw [Session.close_of_open opened]
  | closed =>
      rw [standing] at names
      rw [Session.close_of_closed names.2.2, names.2.1]
  | astray => exact absurd standing held

/-- Closing the log file only changes what the session says of itself. -/
theorem Sound.close (h : Sound c) : Sound ⟨c.session.close, c.files, c.outlook.close⟩ := by
  have file := Session.close_file.trans h.file
  have rank := fun used => Session.close_rank.trans (h.rank used)
  have names := h.names
  by_cases open' : c.outlook.standing = .settled ∧ c.outlook.project.isSome
  · rw [Outlook.close, if_pos open']
    have none := h.folder_close (by simp [open'.1])
    exact ⟨file, rank, h.ready, open'.2, none, Session.close_isOpen⟩
  · have shut : c.session.isOpen = false := by
      cases standing : c.outlook.standing with
      | settled =>
          rw [standing] at names
          rw [names.2, Bool.eq_false_iff]
          exact fun used => open' ⟨standing, used⟩
      | closed => rw [standing] at names; exact names.2.2
      | astray => rw [standing] at names; exact names.2.2
    rw [Outlook.close, if_neg open', Session.close_of_closed shut]
    exact h

/-- A setup that fails as something is in the way of its file names a folder of its own. -/
theorem Sound.stray (h : Sound c) (more : Grows c.files t') (blocked : ¬ Ready c.files project) :
    Sound ⟨{ c.session.close with folder := some (folderOf project) }, t',
      { c.outlook with standing := .astray }⟩ where
  file := Session.close_file.trans h.file
  rank used := Session.close_rank.trans (h.rank used)
  ready p used := (h.ready p used).grows more
  names := by
    refine ⟨⟨project, rfl⟩, fun same => ?_, Session.close_isOpen⟩
    obtain ⟨p, used, same⟩ := Option.map_eq_some_iff.mp same.symm
    have ready := h.ready p used
    have files : fileOf p = fileOf project := congrArg (Path.child · "debug.jsonl") same
    exact blocked ⟨same ▸ ready.leads, files ▸ ready.file⟩

/-- A setup without a file puts the log file out of use. -/
theorem Sound.unfiled (h : Sound c) (rank shown : Nat) :
    Sound ⟨{ c.session.close with rank, shown, file := none }, c.files,
      ⟨none, if c.outlook.standing = .astray then .astray else .settled⟩⟩ where
  file := rfl
  rank unused := nomatch unused
  ready _ used := nomatch used
  names := by
    by_cases lost : c.outlook.standing = .astray
    · have names := h.names
      rw [lost] at names
      obtain ⟨⟨p, named⟩, -, shut⟩ := names
      rw [if_pos lost, Session.close_of_closed shut]
      exact ⟨⟨p, named⟩, by simp [named], shut⟩
    · rw [if_neg lost]
      exact ⟨h.folder_close lost, Session.close_isOpen⟩

theorem Sound.configure (h : Sound c) (verbosity : Int) (toFile : Bool) (project : Option Path) :
    Sound (c.step home (.configure verbosity toFile project)) ∧
      Grows c.files (c.step home (.configure verbosity toFile project)).files := by
  rw [step, Step.apply]
  obtain result | result | ⟨p, t', e, result, more, blocked⟩ |
    ⟨p, t', shown, rfl, rfl, result, more, ready⟩ | ⟨rank, shown, rfl, result⟩ :=
    Session.configure_cases c.session c.files home verbosity toFile project
  all_goals rw [result]
  · cases toFile <;> exact ⟨h, .refl⟩
  · cases toFile <;> exact ⟨h.close, .refl⟩
  · cases toFile <;> exact ⟨h.stray more blocked, more⟩
  · refine ⟨⟨rfl, fun _ => rfl, fun q used => ?_, rfl, rfl⟩, more⟩
    cases used
    exact ready
  · exact ⟨h.unfiled rank shown, .refl⟩

/-- A step keeps the session in line with the outlook, and takes nothing away. -/
theorem Sound.step (h : Sound c) (home : String) (x : Step) :
    Sound (c.step home x) ∧ Grows c.files (c.step home x).files := by
  cases x with
  | configure verbosity toFile project => exact h.configure verbosity toFile project
  | close => exact ⟨h.close, .refl⟩
  | bind project => exact ⟨⟨h.file, h.rank, h.ready, h.names⟩, .refl⟩
  | log now entry =>
      have more : Grows c.files (entry.record c.session now c.files) := Entry.record_grows
      exact ⟨{ h with ready := fun p used => (h.ready p used).grows more }, more⟩

/-- So do any steps. -/
theorem Sound.run (h : Sound c) (home : String) (steps : List Step) :
    Sound (run home c steps) ∧ Grows c.files (run home c steps).files := by
  induction steps generalizing c with
  | nil => exact ⟨h, .refl⟩
  | cons x rest ih =>
      obtain ⟨sound, first⟩ := h.step home x
      obtain ⟨sound, others⟩ := ih sound
      exact ⟨sound, first.trans others⟩

theorem sound_start (start : FileTree) : Sound { files := start } where
  file := rfl
  rank unused := nomatch unused
  ready _ used := nomatch used
  names := ⟨rfl, rfl⟩

/-- The session is settled as long as it names the folder of the log file in use. -/
theorem Sound.settled_iff (h : Sound c) : c.outlook.standing = .settled ↔
    c.session.folder = c.outlook.project.map folderOf := by
  have names := h.names
  generalize c.outlook.standing = standing at names ⊢
  cases standing with
  | settled => exact iff_of_true rfl names.1
  | closed =>
      obtain ⟨used, named, -⟩ := names
      obtain ⟨p, used⟩ := Option.isSome_iff_exists.mp used
      exact iff_of_false (by decide) (by simp [named, used])
  | astray => exact iff_of_false (by decide) names.2.1

variable {entry : Entry} {line : String}

/-- An entry with a line adds it to the log file in use. -/
theorem Sound.gains (h : Sound c) (used : c.outlook.project = some project)
    (written : entry.line? c.session now = some line) :
    GainsLine (fileOf project) line c.files (entry.record c.session now c.files) := by
  obtain ⟨leads, content, there⟩ := h.ready project used
  have file : c.session.file = some (fileOf project) := by rw [h.file, used, Option.map_some]
  have high : c.session.rank ≤ entry.level.rank := by
    rw [h.rank (by simp [used])]
    exact Level.debug_le _
  rw [place_fileOf] at there
  obtain ⟨t', added, here, others⟩ :=
    FileTree.append_of_file (s := line ++ "\n") leads (by decide) there
  have recorded : entry.record c.session now c.files = t' := by
    rw [Entry.record_some file high, written, Option.elim_some]
    exact congrArg (fun r => r.toOption.getD c.files) added
  rw [recorded]
  exact ⟨Entry.line_single written, ⟨content, place_fileOf ▸ there, place_fileOf ▸ here⟩,
    place_fileOf ▸ others⟩

/-- Without a log file in use, or without a line, nothing is written. -/
theorem Sound.keeps (h : Sound c)
    (unwritten : c.outlook.project = none ∨ entry.line? c.session now = none) :
    entry.record c.session now c.files = c.files := by
  cases used : c.outlook.project with
  | none => exact Entry.record_none (by rw [h.file, used, Option.map_none])
  | some project =>
      have unwritten : entry.line? c.session now = none := unwritten.resolve_left (by simp [used])
      have file : c.session.file = some (fileOf project) := by rw [h.file, used, Option.map_some]
      have high : c.session.rank ≤ entry.level.rank := by
        rw [h.rank (by simp [used])]
        exact Level.debug_le _
      rw [Entry.record_some file high, unwritten, Option.elim_none]

end Course

namespace GainsLine

variable {file other : Path} {line : String}

/-- A file that gains a line does not stay as it was. -/
theorem changed (h : GainsLine file line t t') : t'.at? (place file) ≠ t.at? (place file) := by
  obtain ⟨c, before, after⟩ := h.added
  intro same
  have whole : c.append (line ++ "\n") = c :=
    FileEntry.file.inj (Option.some.inj (after.symm.trans (same.trans before)))
  exact c.append_ne (by simp) whole

/-- No second file gains the line. -/
theorem unique (h : GainsLine file line t t') (h' : GainsLine other line t t') :
    place other = place file := by
  by_contra apart
  exact h'.changed (h.others _ apart)

end GainsLine

/-- After any steps, an entry that has a line adds it to the log file of the last setup that went
through, whatever its level, and changes nothing else.  Nothing is written if that setup asked for
no file, or for an entry without a line.  What the session says is in line with this exactly while
it is settled: then the file of a project gains the line exactly if the session names its folder. -/
theorem recorded_in_use (home : String) (start : FileTree) (steps : List Step) (now : String)
    (entry : Entry) :
    let c := Course.run home { files := start } steps
    let t := entry.record c.session now c.files
    (∀ project line, c.outlook.project = some project → entry.line? c.session now = some line →
        GainsLine (fileOf project) line c.files t) ∧
      (c.outlook.project = none ∨ entry.line? c.session now = none → t = c.files) ∧
      (c.outlook.standing = .settled ↔ c.session.folder = c.outlook.project.map folderOf) ∧
      (c.outlook.standing = .settled → ∀ project line, entry.line? c.session now = some line →
        (GainsLine (fileOf project) line c.files t ↔
          ∃ p, c.session.folder = some (folderOf p) ∧ place (fileOf p) = place (fileOf project))) ∧
      Grows start t := by
  intro c t
  obtain ⟨sound, more⟩ := (Course.sound_start start).run home steps
  have gains {project : Path} {line : String} (used : c.outlook.project = some project)
      (written : entry.line? c.session now = some line) :
      GainsLine (fileOf project) line c.files t := sound.gains used written
  refine ⟨fun project line => gains, sound.keeps, sound.settled_iff, fun settled => ?_,
    more.trans Entry.record_grows⟩
  intro project line written
  rw [sound.settled_iff.mp settled]
  constructor
  · intro gained
    cases used : c.outlook.project with
    | none =>
        have kept : t = c.files := sound.keeps (.inl used)
        exact absurd (by rw [kept]) gained.changed
    | some p => exact ⟨p, rfl, gained.unique (gains used written)⟩
  · rintro ⟨p, named, same⟩
    obtain ⟨q, used, folders⟩ := Option.map_eq_some_iff.mp named
    have files : fileOf q = fileOf p := congrArg (Path.child · "debug.jsonl") folders
    have gained := files ▸ gains used written
    exact ⟨gained.single, same ▸ gained.added, same ▸ gained.others⟩

/-- A log file that was closed gains a line, although the session names no folder. -/
theorem closed_file_gains :
    let project := Path.ofText "guide"
    let c := Course.run "home" { files := {} } [.configure 0 true (some project), .close]
    let entry := Entry.event { logger := "guide", name := "late", level := .info }
    let line := "\x7b\"timestamp\": \"noon\", \"level\": \"INFO\", \"logger\": \"guide\", " ++
      "\"message\": \"late\"\x7d"
    c.session.folder = none ∧
      GainsLine (fileOf project) line c.files (entry.record c.session "noon" c.files) := by
  intro project c entry line
  have sound : c.Sound := ((Course.sound_start {}).run _ _).1
  have used : c.outlook.project = some project := by decide
  have written : entry.line? c.session "noon" = some line := by decide
  exact ⟨by decide, sound.gains used written⟩

end Parley.Log
