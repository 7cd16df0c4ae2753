import Parley.Command.Run
import Parley.Proofs.Graph.Misfit
import Parley.Proofs.Graph.Size
import Parley.Proofs.Json.LineEnds
import Parley.Proofs.Project.Folder

/-!
# Opening the graph of a project

The draft of a project may hold anything: octets that are no text, a text that is no value, a value
that is no graph.  Then the author is told that it cannot be read, and the files stay as they are;
and a draft that holds a graph is opened and can be saved.  The exceptions are the misfits of
`Graph.Misfit`, for which the command ends without a report, and a report that the console cannot
show.

A text is a row of characters here, so nothing is said of a draft that spells half of a surrogate
pair without the other half.
-/

namespace Parley

open FileTree (place)
open Project (draftPath draftName spareName)

variable {folder : Path} {files : FileTree} {content : Content} {g : Graph} {e : Failure}

namespace Json

/-- The code unit that is escaped behind a backslash, if one is. -/
def escapedUnit? : List Char → Option Nat
  | 'u' :: a :: b :: c :: d :: _ => hexNumber? a b c d
  | _ => none

/-- Whether the second half of a surrogate pair is escaped at the front. -/
def startsWithLowHalf : List Char → Bool
  | '\\' :: cs => (escapedUnit? cs).any isLowHalf
  | _ => false

/-- Whether half of a surrogate pair is escaped without the other half, in a text whose first
characters may be spent. -/
def hasLoneHalf (spent : Nat) : List Char → Bool
  | [] => false
  | c :: cs =>
    match spent with
    | spent + 1 => hasLoneHalf spent cs
    | 0 =>
      if c == '\\' then
        match escapedUnit? cs with
        | none => hasLoneHalf 1 cs
        | some unit =>
          if isHighHalf unit && startsWithLowHalf (cs.drop 5) then hasLoneHalf 11 cs
          else isHighHalf unit || isLowHalf unit || hasLoneHalf 5 cs
      else hasLoneHalf 0 cs

end Json

/-- Whether half of a surrogate pair is spelled in a content without the other half. -/
def Content.hasLoneHalf (content : Content) : Bool :=
  match content.read with
  | .ok s => Json.hasLoneHalf 0 s.toList
  | .error _ => false

namespace Command

/-- Whether a failure of a draft is reported as one that keeps it from being read. -/
def Caught (e : Failure) : Prop := isReported e = true ∧ ∀ f, e ≠ .graph f

/-- Whether a content holds an object that is no stored graph for another reason than faults. -/
def Escapes (content : Content) (e : Failure) : Prop :=
  ∃ fields, content.Holds (.obj fields) ∧ Graph.Misfit fields e

/-- What is read of a draft: an object, or what is reported of anything else. -/
theorem load_cases {path : Path} (there : files.entry? path = some (.file content)) :
    (∃ fields, content.Holds (.obj fields) ∧ Draft.load files path = .ok (some (.obj fields))) ∨
      ∃ e, Draft.load files path = .error e ∧ Caught e ∧
        ∀ fields, ¬ content.Holds (.obj fields) := by
  rw [Draft.load_of_file there]
  cases read : content.read with
  | error e =>
      refine .inr ⟨.notText e, rfl, ⟨rfl, by simp⟩, ?_⟩
      rintro fields ⟨text, shown, -⟩
      cases read.symm.trans shown
  | ok s =>
      have only {v : Json} (holds : content.Holds v) : Json.read s = .ok v := by
        obtain ⟨text, shown, value⟩ := holds
        cases read.symm.trans shown
        exact value
      have whole : (Except.ok s : Except Text.Utf8Error String).mapError Failure.notText = .ok s :=
        rfl
      simp only [whole, bind, Except.bind]
      cases value : Json.read s with
      | error e =>
          refine .inr ⟨.notJson s e, rfl, ⟨rfl, by simp⟩, fun fields holds => ?_⟩
          cases value.symm.trans (only holds)
      | ok v =>
          cases v with
          | obj fields => exact .inl ⟨fields, ⟨s, read, value⟩, rfl⟩
          | _ =>
              refine .inr ⟨.notDraft path, rfl, ⟨rfl, by simp⟩, fun fields holds => ?_⟩
              cases value.symm.trans (only holds)

/-- A draft fails with its misfit. -/
theorem Escapes.open_eq {path : Path} (escapes : Escapes content e)
    (there : files.entry? path = some (.file content)) :
    (DraftStore.file path files).open? = .error e := by
  obtain ⟨fields, holds, misfit⟩ := escapes
  rw [DraftStore.open?, DraftStore.load]
  obtain ⟨fields', holds', loaded⟩ | ⟨_, -, -, none⟩ := load_cases there
  · cases holds.unique holds'
    rw [loaded]
    exact (Graph.misfit_iff.mp misfit).1
  · exact absurd holds (none fields)

/-- A draft of a graph is opened as the graph. -/
theorem open_of_graph {path : Path} {v : Json} (there : files.entry? path = some (.file content))
    (holds : content.Holds v) (read : Graph.ofJson v = .ok g) :
    (DraftStore.file path files).open? = .ok g := by
  rw [DraftStore.open?, DraftStore.load]
  cases v with
  | obj fields =>
      obtain ⟨fields', holds', loaded⟩ | ⟨_, -, -, none⟩ := load_cases there
      · cases holds.unique holds'
        rw [loaded]
        exact read
      · exact absurd holds (none fields)
  | _ => cases read

/-- What comes of the draft of a project: a graph, a misfit, or what is reported of anything
else. -/
theorem open_cases {path : Path} (there : files.entry? path = some (.file content)) :
    (∃ v g, content.Holds v ∧ Graph.ofJson v = .ok g ∧ (DraftStore.file path files).open? = .ok g) ∨
      (∃ e, Escapes content e ∧ (DraftStore.file path files).open? = .error e) ∨
      ∃ e, (DraftStore.file path files).open? = .error e ∧ Caught e ∧ ∀ e, ¬ Escapes content e := by
  rw [DraftStore.open?, DraftStore.load]
  obtain ⟨fields, holds, loaded⟩ | ⟨e, failed, caught, none⟩ := load_cases there
  · rw [loaded]
    cases read : Graph.ofJson (.obj fields) with
    | ok g => exact .inl ⟨_, g, holds, read, read⟩
    | error e =>
        by_cases faults : ∃ i, e = .invalid i
        · obtain ⟨i, rfl⟩ := faults
          refine .inr (.inr ⟨.invalid i, read, ⟨rfl, by simp⟩, ?_⟩)
          rintro e ⟨fields', holds', misfit⟩
          cases holds.unique holds'
          obtain ⟨failed, other⟩ := Graph.misfit_iff.mp misfit
          cases read.symm.trans failed
          exact other i rfl
        · have misfit := Graph.misfit_iff.mpr ⟨read, fun i same => faults ⟨i, same⟩⟩
          exact .inr (.inl ⟨e, ⟨fields, holds, misfit⟩, read⟩)
  · rw [failed]
    exact .inr (.inr ⟨e, rfl, caught, fun _ ⟨fields, holds, _⟩ => none fields holds⟩)

/-- A graph that a content holds can be written. -/
theorem text_of_holds {v : Json} (holds : content.Holds v) (read : Graph.ofJson v = .ok g) :
    ∃ text, g.toJson.text Json.Layout.document = .ok text := by
  obtain ⟨_, -, value⟩ := holds
  have placed : g.Placed := (Graph.entered_of_ofJson read).placed
  exact placed.text_of_short (Graph.short_of_ofJson (Json.short_read value) read) _

/-- A misfit is not among the failures that are reported. -/
theorem Escapes.failure (escapes : Escapes content e) :
    (∃ type, e = .notIterable type) ∨ ∃ f, e = .graph f := by
  obtain ⟨fields, -, misfit⟩ := escapes
  cases misfit with
  | nodes unlisted | edges _ unlisted =>
      obtain ⟨v, -, -, rfl⟩ := unlisted
      exact .inl ⟨_, rfl⟩
  | entries | taken => exact .inr ⟨_, rfl⟩

namespace Job

variable {α : Type} {w : World}

/-- A command that looks at its surroundings goes on knowing them. -/
theorem run_read {f : World → Job α} : (get >>= f).run.run w = (f w).run.run w := rfl

/-- What the console shows is printed. -/
theorem print_shown {p : Printed} (shown : w.console.problem? p = none) :
    (print p).run.run w = (.ok (), { w with printed := w.printed ++ [p] }) := by
  rw [print, run_read, shown]
  rfl

/-- What the console cannot show ends the command. -/
theorem print_unshown {p : Printed} {reason : String}
    (problem : w.console.problem? p = some reason) :
    (print p).run.run w = (.error (.failed (.unshown p.heading reason)), w) := by
  rw [print, run_read, problem]
  rfl

/-- A refusal is printed before the command ends. -/
theorem refuse_run {text : String} : (refuse text : Job α).run.run w =
    match (print (errorLine text)).run.run w with
    | (.ok _, w) => (.error .reported, w)
    | (.error stop, w) => (.error stop, w) := by
  simp only [refuse, ExceptT.run_bind, StateT.run_bind]
  rcases (print (errorLine text)).run.run w with ⟨_ | _, _⟩ <;> rfl

/-- How a command ends that prints a last line: with that, or because the line cannot be shown. -/
inductive Told (line : Printed) (w : World) : Except Stop α × World → Prop where
  | shown : w.console.problem? line = none →
      Told line w (.error .reported, { w with printed := w.printed ++ [line] })
  | unshown {reason : String} : w.console.problem? line = some reason →
      Told line w (.error (.failed (.unshown line.heading reason)), w)

theorem told_of_refuse {text : String} :
    Told (errorLine text) w ((refuse text : Job α).run.run w) := by
  rw [refuse_run]
  cases problem : w.console.problem? (errorLine text) with
  | none =>
      rw [print_shown problem]
      exact .shown problem
  | some reason =>
      rw [print_unshown problem]
      exact .unshown problem

/-- A draft that cannot be read is reported. -/
theorem openGraph_of_caught
    (failed : (DraftStore.file (draftPath folder) w.files).open? = .error e) (caught : Caught e) :
    Told (errorLine ("Cannot read " ++ (draftPath folder).text ++ ": " ++ e.report)) w
      ((openGraph folder).run.run w) := by
  obtain ⟨reported, other⟩ := caught
  rw [openGraph, run_read]
  dsimp only
  rw [Session.start, failed]
  simp only [Except.map, reported, if_true]
  exact told_of_refuse

/-- A misfit ends the command without a report. -/
theorem openGraph_of_escapes
    (there : w.files.entry? (draftPath folder) = some (.file content))
    (escapes : Escapes content e) :
    (openGraph folder).run.run w = (.error (.failed e), w) := by
  rw [openGraph, run_read]
  dsimp only
  rw [Session.start, escapes.open_eq there]
  obtain ⟨type, rfl⟩ | ⟨f, rfl⟩ := escapes.failure
  · rfl
  · rfl

/-- A draft of a graph is opened and saved, with what is reported of that in the log. -/
theorem openGraph_of_graph {text : String} (leads : w.files.Leads folder)
    (draft : w.files.at? (place folder ++ [draftName]) ≠ some .folder)
    (spare : w.files.at? (place folder ++ [spareName]) ≠ some .folder)
    (opened : (DraftStore.file (draftPath folder) w.files).open? = .ok g)
    (written : g.toJson.text Json.Layout.document = .ok text) :
    ∃ tree events, Draft.save w.files (draftPath folder) g.toJson = (tree, .ok events) ∧
      let files := w.log.recordAll w.now tree events
      (openGraph folder).run.run w =
        (.ok { graph := g, supply := w.supply, store := some (.file (draftPath folder) files) },
          { w with files, noticed := w.noticed ++ events.filter w.log.shows }) := by
  obtain ⟨tree, events, saved⟩ := Draft.save_succeeds leads written spare draft
  refine ⟨tree, events, saved, ?_⟩
  rw [openGraph, run_read]
  dsimp only
  rw [Session.start, opened]
  simp only [Except.map, Session.save, DraftStore.save, saved]
  rfl

end Job

/-- Opening the graph of a project, by what its draft holds.  A misfit ends the command without a
report.  Of any other draft, either the graph is opened that it holds, or the author is told that it
cannot be read, and nothing else changes.  A console that cannot show what the author is told ends
the command without a report too. -/
theorem openGraph_reports {w : World} (leads : w.files.Leads folder)
    (draft : w.files.at? (place folder ++ [draftName]) = some (.file content))
    (spare : w.files.at? (place folder ++ [spareName]) ≠ some .folder) :
    let ended := (Job.openGraph folder).run.run w
    content.hasLoneHalf = false →
      (∀ e, Escapes content e → ended = (.error (.failed e), w)) ∧
        ((∀ e, ¬ Escapes content e) →
          (∃ v s w', content.Holds v ∧ Graph.ofJson v = .ok s.graph ∧ ended = (.ok s, w') ∧
            w'.printed = w.printed) ∨
          ∃ reason, Job.Told
            (errorLine ("Cannot read " ++ (draftPath folder).text ++ ": " ++ reason)) w ended) := by
  intro ended _
  have there : w.files.entry? (draftPath folder) = some (.file content) := by
    rw [Project.draftPath_eq, leads.entry?_within (by decide), draft]
  refine ⟨fun e escapes => Job.openGraph_of_escapes there escapes, fun none => ?_⟩
  obtain ⟨v, g, holds, read, opened⟩ | ⟨e, escapes, -⟩ | ⟨e, failed, caught, -⟩ :=
    open_cases there
  · obtain ⟨text, written⟩ := text_of_holds holds read
    obtain ⟨tree, events, -, ran⟩ :=
      Job.openGraph_of_graph leads (by simp [draft]) spare opened written
    exact .inl ⟨v, _, _, holds, read, ran, rfl⟩
  · exact absurd escapes (none e)
  · exact .inr ⟨e.report, Job.openGraph_of_caught failed caught⟩

/-- A draft alone in the working folder. -/
def World.drafted (content : Content) : World where
  files := { entries := [([draftName], .file content)] }
  supply := .countingFrom 0
  console := .markup
  home := "/work"
  now := ""

/-- A row of values is no draft, and that is reported. -/
theorem openGraph_reports_of_row :
    let w := World.drafted (.text "[]")
    w.files.Leads ⟨none, []⟩ ∧ w.files.at? [draftName] = some (.file (.text "[]")) ∧
      w.files.at? [spareName] ≠ some .folder ∧ (∀ e, ¬ Escapes (.text "[]") e) ∧
      Content.hasLoneHalf (.text "[]") = false ∧
      ∃ reason, Job.Told (errorLine ("Cannot read graph.json: " ++ reason)) w
        ((Job.openGraph ⟨none, []⟩).run.run w) := by
  intro w
  have leads : w.files.Leads ⟨none, []⟩ := by
    intro n short
    obtain rfl : n = 0 := Nat.le_zero.mp short
    rfl
  have draft : w.files.at? [draftName] = some (.file (.text "[]")) := by decide
  have spare : w.files.at? [spareName] ≠ some .folder := by decide
  have row : Content.Holds (.text "[]") (.arr []) :=
    Content.holds_text Json.Layout.line trivial rfl
  have fits : ∀ e, ¬ Escapes (.text "[]") e := by
    rintro e ⟨fields, holds, -⟩
    cases row.unique holds
  have whole : Content.hasLoneHalf (.text "[]") = false := by decide
  obtain ⟨-, reports⟩ := openGraph_reports leads draft spare whole
  obtain ⟨v, s, w', holds, read, -⟩ | reported := reports fits
  · cases row.unique holds
    cases read
  · exact ⟨leads, draft, spare, fits, whole, reported⟩

/-- The nodes of a draft are a number, and opening it ends without a report. -/
theorem openGraph_escapes_of_number :
    let w := World.drafted (.text "\x7b\"nodes\": 5\x7d")
    (Job.openGraph ⟨none, []⟩).run.run w = (.error (.failed (.notIterable "int")), w) := by
  intro w
  have holds : Content.Holds (.text "\x7b\"nodes\": 5\x7d") (.obj [("nodes", .int 5)]) :=
    Content.holds_text Json.Layout.line ⟨List.nodup_singleton _, trivial, trivial⟩ rfl
  exact Job.openGraph_of_escapes rfl ⟨_, holds, .nodes ⟨.int 5, rfl, rfl, rfl⟩⟩

end Command

end Parley
