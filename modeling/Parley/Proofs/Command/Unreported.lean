import Parley.Proofs.Command.Lasting

/-!
# Command lines that end without a report

In the draft of a project there is a graph, whatever command lines came before.  So a command line
on the project does what it is asked for, or says why it does not, with few exceptions: something is
in the way of the log file, a folder stands beside the place of the draft, a command to set a field
misuses it, or the console cannot show what is said.  A misuse that is come to always ends the
command without a report.
-/

namespace Parley

open FileTree (place)
open Project (Hosts Lives configPath draftPath spareName)

variable {start : FileTree} {folder : Path} {g : Graph} {supply : IdSupply}
  {console : Command.Console}

namespace Command

variable {n : Node} {field : String} {f : Failure}

namespace Misuse

theorem silent (misuse : Misuse n field f) : isReported f = false := by cases misuse <;> rfl

/-- A misuse keeps the fields from being told, or sets a field that has the name of an argument. -/
theorem fieldUpdate_cases (misuse : Misuse n field f) (text : String) :
    fieldUpdate n field text = .error f ∨
      field ∈ Graph.argumentNames ∧ f = .doubleArgument field ∧
        fieldUpdate n field text = .ok [(field, .str text)] := by
  obtain ⟨id, position, payload⟩ := n
  cases misuse with
  | close listed other =>
      have close {part : String} : closeUpdate ⟨id, position, payload⟩ part text =
          .error (.noAttribute (Payload.recordName payload.kind) "close") := by
        cases payload with
        | result d => cases other
        | _ => rfl
      refine .inl ?_
      simp only [closeFields, List.mem_cons, List.not_mem_nil, or_false] at listed
      obtain rfl | rfl | rfl := listed <;> exact close
  | side named entry =>
      obtain ⟨port, side⟩ := Option.isSome_iff_exists.mp named
      have update : fieldUpdate ⟨id, position, payload⟩ field text =
          sideUpdate ⟨id, position, payload⟩ port text := by
        unfold fieldUpdate
        rw [side]
      rw [update]
      refine .inl ?_
      cases payload with
      | entry => rfl
      | _ => cases entry
  | argument member =>
      refine .inr ⟨member, rfl, ?_⟩
      simp only [Graph.argumentNames, List.mem_cons, List.not_mem_nil, or_false] at member
      obtain rfl | rfl := member <;> rfl

end Misuse

/-- A field that has the name of an argument is refused, whatever it is set in. -/
theorem updateData_argument {id : String} {v : Json} (argument : field ∈ Graph.argumentNames) :
    g.updateData id [(field, v)] = .error (.doubleArgument field) := by
  simp only [Graph.argumentNames, List.mem_cons, List.not_mem_nil, or_false] at argument
  obtain rfl | rfl := argument <;> rfl

namespace Work

variable {e : Edit}

/-- A failure that is not reported ends the work as it is. -/
theorem fail_silent {α : Type} (silent : isReported f = false) :
    (fail f : Work α) = throw (.failed f) := by
  rw [fail, silent]
  rfl

/-- A node that is there is found. -/
theorem node_found {id context : String} {early : Obstacle → Desk → Prop}
    (found : g.node? id = some n) :
    Ends (fun d => d.session.Follows start folder g supply) (node id context)
      (fun m d => m = n ∧ d.session.Follows start folder g supply) early := by
  refine .read fun d follows => ?_
  rw [follows.graph, Graph.require_eq_ok.mpr found]
  exact .answer fun t same => ⟨rfl, same ▸ follows⟩

/-- A result that is there is gone on with. -/
theorem ofExcept_found {α : Type} {r : Except Failure α} {a : α} {before : Desk → Prop}
    {early : Obstacle → Desk → Prop} (answers : r = .ok a) :
    Ends before (ofExcept r) (fun b d => b = a ∧ before d) early := by
  subst answers
  exact .answer fun _ known => ⟨rfl, known⟩

/-- An edit that is refused without a report ends the work, with the draft as it was. -/
theorem edit_silent (placed : g.Placed)
    (refused : (g.edit supply e).answer = .error f) (silent : isReported f = false) :
    Ends (fun d => d.session.Follows start folder g supply) (edit e) (fun _ _ => False)
      (fun obstacle d => obstacle = .failed f ∧ d.session.Holds start folder g) := by
  refine .read fun d ⟨graph, drawn, holds⟩ => ?_
  have unchanged := (Graph.edit_refused placed refused).2
  have failed : (d.session.edit e).2 = .error f := by
    simp [Session.edit, graph, drawn, unchanged, refused, Except.map]
  have kept : (d.session.edit e).1.Holds start folder g := by
    simp only [Session.edit, graph, drawn, unchanged, Bool.false_eq_true, if_false]
    exact holds
  rcases ran : d.session.edit e with ⟨session, r⟩
  simp only [ran] at failed kept
  subst failed
  refine .bind (.write fun _ _ => kept :
    Ends _ _ (fun _ (t : Desk) => t.session.Holds start folder g) _) fun _ => ?_
  rw [ofExcept, fail_silent silent]
  exact .stop_bind fun t holds => ⟨rfl, holds⟩

/-- A field that is misused ends the work without a report. -/
theorem setField_misused (placed : g.Placed) {id value : String} (found : g.node? id = some n)
    (misuse : Misuse n field f) :
    Ends (fun d => d.session.Follows start folder g supply) (setField id field value)
      (fun _ _ => False)
      (fun obstacle d => obstacle = .failed f ∧ d.session.Holds start folder g) := by
  refine .bind (node_found found) fun m => .known fun same => ?_
  subst same
  obtain failed | ⟨argument, rfl, updates⟩ := misuse.fieldUpdate_cases value
  · rw [failed, ofExcept, fail_silent misuse.silent]
    exact .stop_bind fun d follows => ⟨rfl, follows.holds⟩
  · have refused : (g.edit supply (.updateData id [(field, .str value)])).answer =
        .error (.doubleArgument field) := by
      rw [Graph.edit, updateData_argument argument]
      rfl
    refine .bind (ofExcept_found updates) fun fields => .known fun same => ?_
    subst same
    exact (edit_silent placed refused rfl).halt

end Work

/-- A command that misuses a field ends with the failure of that. -/
theorem EditCommand.work_misused (placed : g.Placed) {c : EditCommand} (misuses : c.Misuses g f) :
    Ends (fun d => d.session.Follows start folder g supply) c.work (fun _ _ => False)
      (fun obstacle d => obstacle = .failed f ∧ d.session.Holds start folder g) := by
  cases c with
  | setField id field value =>
      obtain ⟨n, found, misuse⟩ := misuses
      exact Work.setField_misused placed found misuse
  | _ => exact misuses.elim

end Command

namespace Command

/-- Where a graph can be opened, there is one. -/
theorem Openable.lives {files : FileTree} (h : Openable folder g files) : Lives folder files := by
  obtain ⟨content, v, there, holds, read⟩ := h.draft
  exact ⟨h.leads, content, v, g, there, holds, read⟩

/-- Where there is a graph in the draft of a project that is as it should be, it is opened. -/
theorem open_of_hosts {R : Graph → Prop} {t : FileTree} (h : Hosts R folder t) :
    ∃ g, (DraftStore.file (draftPath folder) t).open? = .ok g ∧ R g := by
  obtain ⟨content, v, g, there, holds, read, right⟩ := h.draft
  refine ⟨g, open_of_graph ?_ holds read, right⟩
  rw [Project.draftPath_eq, h.leads.entry?_within (by decide), there]

/-- Where there is a graph in the draft of a project, it is opened. -/
theorem open_of_lives {t : FileTree} (h : Lives folder t) :
    ∃ g, (DraftStore.file (draftPath folder) t).open? = .ok g :=
  (open_of_hosts (Project.lives_iff.mp h)).imp fun _ => And.left

/-- The project that a command edits or checks, if it does one of them. -/
def subject? : Command → Option (Option Path)
  | .edit project _ => some project
  | .check project => some project
  | _ => none

/-- Whether a line that is no error tells why a command on a graph ends early. -/
def Aside (g : Graph) : Command → Printed → Prop
  | .edit _ e, p => e.Aside p
  | .check _, p => Check.anyFailure (Inspection.ofGraph g).checks = true ∧
      p = .line (Check.summary (Inspection.ofGraph g).checks)
  | _, _ => False

/-- The failures of a command on a graph that it does not report. -/
def Misuses (g : Graph) : Command → Failure → Prop
  | .edit _ e, f => e.Misuses g f
  | _, _ => False

/-- What a command on a graph may say. -/
def Says (g : Graph) (c : Command) (p : Printed) : Prop :=
  Tells (c.Aside g) p ∨ match c with
    | .edit _ e => e.Succeeds p
    | .check _ => ∃ name, p ∈ Job.inspectionReport name (Inspection.ofGraph g)
    | _ => False

/-- Whether nothing is in the way of a command in the folder of a project. -/
structure Clear (i : Invocation) (folder : Path) (files : FileTree) : Prop where
  log : i.toFile = true → ¬ Project.LogBlocked folder files
  spare : files.at? (place folder ++ [spareName]) ≠ some .folder

/-- The failures of a command on the graph in the folder of a project that end it without a
report. -/
inductive Unreported (i : Invocation) (folder : Path) (files : FileTree) (console : Console)
    (g : Graph) : Failure → Prop where
  | file (e : FileError) : ¬ Clear i folder files → Unreported i folder files console g (.file e)
  | misuse {f : Failure} : i.command.Misuses g f → Unreported i folder files console g f
  | unshown {f : Failure} : console.Refuses (i.command.Says g) f →
      Unreported i folder files console g f

/-- The same is in the way by another path to the folder. -/
theorem Clear.moved {i : Invocation} {files : FileTree} {other : Path} (h : Clear i folder files)
    (same : place other = place folder) : Clear i other files where
  log asked := by
    rw [Project.LogBlocked, same]
    exact h.log asked
  spare := same ▸ h.spare

namespace Job

variable {P : FileTree → Prop} {files : FileTree} {i : Invocation} {project : Option Path}
  {e : EditCommand} {f : Failure} {aside : Printed → Prop} {escapes : Failure → Prop}

/-- A project whose configuration can be read is found, unless something is in the way of its log
file. -/
theorem requireProject_found {c : Config} {early : Stop → World → Prop} (firm : Firm folder P)
    (here : projectFolder files i.projects project = folder)
    (loaded : Project.loadConfig files folder = .ok c)
    (clear : i.toFile = true → ¬ Project.LogBlocked folder files) :
    Ends (fun w => w.files = files ∧ Ready P folder supply console w) (requireProject i project)
      (fun found w => found.1 = folder ∧ Ready P folder supply console w) early := by
  refine (requireProject_ends firm here).stopping fun stop w ended => ?_
  obtain ⟨f, -, toFile, blocked, -⟩ := ended.2.2 c loaded
  exact absurd blocked (clear toFile)

/-- The rows of a list are printed one after the other, unless the console cannot show one. -/
theorem printAll_ends {ps printed : List Printed} :
    Ends (fun w => w.console = console ∧ w.printed = printed) (ps.forM print)
      (fun _ w => w.printed = printed ++ ps)
      (fun stop _ => ∃ f, stop = .failed f ∧ console.Refuses (· ∈ ps) f) := by
  induction ps generalizing printed with
  | nil => exact .answer fun w known => by rw [known.2, List.append_nil]
  | cons p ps ih =>
      rw [List.forM_eq_forM, List.forM_cons]
      refine .bind (print_ends (fun _ w =>
        w.console = console ∧ w.printed = printed ++ [p]) ?_ ?_) fun _ => (ih.ending ?_).stopping ?_
      · exact fun w known _ => ⟨known.1, by rw [known.2]⟩
      · exact fun w reason known problem => ⟨_, rfl, p, reason, List.mem_cons_self,
          known.1 ▸ problem, rfl⟩
      · exact fun _ w told => by rw [told, List.append_assoc, List.singleton_append]
      · exact fun stop w ⟨f, same, refused⟩ =>
          ⟨f, same, refused.mono fun _ => List.mem_cons_of_mem p⟩

/-- Checking a graph ends early where a check fails. -/
theorem check_ends (firm : Firm folder P) (opens : ∀ files, P files → Openable folder g files)
    (here : projectFolder files i.projects project = folder) :
    Ends (fun w => w.files = files ∧ Ready P folder supply console w) (check i project)
      (fun _ _ => True) (fun stop w => Accounts console ((Command.check project).Aside g)
        (fun f => console.Refuses ((Command.check project).Says g) f ∨ LogFails i folder files f)
        w.printed stop) := by
  refine .bind ((requireProject_ends firm here).stopping fun _ _ ended =>
    ended.2.1.mono (fun _ => False.elim) fun _ => .inr) fun found => .known fun same => ?_
  obtain ⟨there, config⟩ := found
  obtain rfl : folder = there := same.symm
  refine .bind (openGraph_ends opens) fun session => .given fun t => .known fun _ =>
    .known fun follows => ?_
  dsimp only
  rw [follows.graph]
  refine .bind (report_ends Keeps.firm) fun _ => ?_
  let name := if config.name.isEmpty then folder.name else config.name
  let said := inspectionReport name (Inspection.ofGraph g)
  have tells : Ends (Ready (Keeps t folder g) folder supply console) (said.forM print)
      (fun _ w => ∃ printed, w.printed = printed ++ said)
      (fun stop _ => ∃ f, stop = .failed f ∧ console.Refuses (· ∈ said) f) :=
    (Ends.given fun printed => printAll_ends.ending fun _ _ told => ⟨printed, told⟩).starting
      fun w h => ⟨w.printed, h.console, rfl⟩
  refine .bind (tells.stopping ?_) fun _ => ?_
  · rintro _ w ⟨f, rfl, refused⟩
    exact .inr (.inl (refused.mono fun p member => .inr ⟨name, member⟩))
  split
  next failing =>
    refine .stop fun w ⟨printed, told⟩ => ?_
    let summary : Printed := .line (Check.summary (Inspection.ofGraph g).checks)
    exact ⟨printed ++ said.dropLast, summary, by simp [told, said, inspectionReport, summary],
      .inr ⟨failing, rfl⟩⟩
  next => exact .answer fun _ _ => trivial

/-- A command that misuses a field of a graph that can be opened ends with the failure of that. -/
theorem runEdit_misused {c : Config} (firm : Firm folder P)
    (opens : ∀ files, P files → Openable folder g files)
    (here : projectFolder files i.projects project = folder)
    (loaded : Project.loadConfig files folder = .ok c)
    (clear : i.toFile = true → ¬ Project.LogBlocked folder files) (misuses : e.Misuses g f) :
    Ends (fun w => w.files = files ∧ Ready P folder supply console w) (runEdit i project e)
      (fun _ _ => False) (fun stop _ => stop = .failed f) := by
  let Fails (r : Except Stop Unit) : Prop := r = .error (.failed f)
  refine ((runEdit_of_work Fails opens (requireProject_found firm here loaded clear)
    fun t openable => ?_).ending fun _ _ never => nomatch never).stopping
      fun _ _ same => Except.error.inj same
  have placed : g.Placed := openable.proper.entered.placed
  refine ((EditCommand.work_misused placed misuses).ending fun _ _ => False.elim).stopping ?_
  rintro _ d ⟨rfl, -⟩
  rfl

/-- A project without a configuration that can be read is not found, and that is said. -/
theorem requireProject_unloaded {cause : Project.ConfigError}
    (failed : Project.loadConfig files (projectFolder files i.projects project) = .error cause) :
    Ends (Begun files supply console) (requireProject i project) (fun _ _ => False)
      (fun stop w => w.files = files ∧ Accounts console aside escapes w.printed stop) := by
  refine .reading fun w begun => ?_
  rw [begun.files]
  dsimp only
  rw [failed]
  split
  next => exact refuse_bind (fun _ known => known.console) fun _ _ known => known.files
  next => exact refuse_ends (fun _ known => known.console) fun _ _ known => known.files

/-- A project without a configuration is not found, and that is said. -/
theorem requireProject_missing
    (missing : files.has (configPath (projectFolder files i.projects project)) = false) :
    Ends (Begun files supply console) (requireProject i project) (fun _ _ => False)
      (fun stop w => Accounts console aside escapes w.printed stop) := by
  obtain ⟨_, failed⟩ := Project.loadConfig_missing missing
  exact (requireProject_unloaded failed).stopping fun _ _ => And.right

/-- What is known of the files of a project where a folder stands beside the place of the draft. -/
structure Blocked (R : Graph → Prop) (folder : Path) (files : FileTree) : Prop where
  hosts : Hosts R folder files
  spare : files.at? (place folder ++ [spareName]) = some .folder

theorem Blocked.firm {R : Graph → Prop} : Firm folder (Blocked R folder) where
  leads _ h := h.hosts.leads
  logs files files' h change := by
    refine ⟨h.hosts.elsewhere (change.mono ?_), ?_⟩
    · rintro _ logs rfl
      exact Project.not_logPlace (by decide) (by decide) logs
    · rw [change.others _ (Project.not_logPlace (by decide) (by decide)), h.spare]

/-- A graph is opened in vain where a folder stands beside the place of its draft.  The draft stays
one of a graph that is as it should be. -/
theorem openGraph_blocked {R : Graph → Prop} :
    Ends (Ready (Blocked R folder) folder supply console) (openGraph folder) (fun _ _ => False)
      (fun stop w => Hosts R folder w.files ∧ ∃ e, stop = .failed (.file e)) := by
  intro w h
  obtain ⟨g, opened, right⟩ := open_of_hosts h.files.hosts
  have harmless : Project.Harmless R folder folder g := ⟨proper_of_open opened, fun _ => right⟩
  have kept := h.files.hosts.save harmless
  obtain ⟨t, e, failed⟩ := Draft.save_blocked (v := g.toJson) h.files.hosts.leads h.files.spare
  rw [failed] at kept
  rw [openGraph, run_read]
  dsimp only
  rw [Session.start, opened]
  simp only [Except.map, Session.save, DraftStore.save, failed]
  exact ⟨kept, e, rfl⟩

/-- A command on a project finds it and opens its graph before it does anything else. -/
theorem runInvocation_eq (asks : i.command.subject? = some project) :
    ∃ rest : Path × Config → Session → Job Unit, runInvocation i = (do
      configureLog i.verbosity false none
      let found ← requireProject i project
      let session ← openGraph found.1
      rest found session) := by
  obtain ⟨verbosity, toFile, projects, c⟩ := i
  cases c with
  | edit | check =>
      cases asks
      exact ⟨_, rfl⟩
  | _ => cases asks

/-- A command on a project is given up where its graph is opened in vain.  The draft stays one of a
graph that is as it should be. -/
theorem runInvocation_blocked {R : Graph → Prop} (asks : i.command.subject? = some project)
    (here : projectFolder files i.projects project = folder) (blocked : Blocked R folder files) :
    Ends (Begun files supply console) (runInvocation i) (fun _ _ => False)
      (fun stop w => Hosts R folder w.files ∧
        Accounts console (fun _ => False) (fun f => ∃ e, f = .file e) w.printed stop) := by
  obtain ⟨rest, run⟩ := runInvocation_eq asks
  have finds : Ends (fun w => w.files = files ∧ Ready (Blocked R folder) folder supply console w)
      (requireProject i project) _ _ := requireProject_ends Blocked.firm here
  rw [run]
  refine .bind configureLog_shown fun _ => .bind ((finds.stopping fun stop w ended => ?_).starting
    fun w start => ?_) fun found => .known fun there => ?_
  · exact ⟨ended.1.hosts, ended.2.1.mono (fun _ => id) fun f failed => failed.2.2⟩
  · exact start.2.ready start.1 blocked
  · rw [there]
    refine .halt (openGraph_blocked.stopping ?_)
    rintro _ w ⟨hosts, e, rfl⟩
    exact ⟨hosts, .inr ⟨e, rfl⟩⟩

/-- A command on a project whose graph can be opened is carried out, or it accounts for ending
early. -/
theorem runInvocation_openable (asks : i.command.subject? = some project)
    (here : projectFolder files i.projects project = folder) (opens : Openable folder g files) :
    Ends (Begun files supply console) (runInvocation i) (fun _ _ => True)
      (fun stop w => Accounts console (i.command.Aside g)
        (fun f => console.Refuses (i.command.Says g) f ∨
          LogFails i folder files f ∨ i.command.Misuses g f) w.printed stop) := by
  cases asked : i.command with
  | edit p e =>
      rw [asked] at asks
      cases asks
      refine ((runInvocation_edit Openable.firm (fun _ h => h) asked here opens).ending
        fun _ _ _ => trivial).stopping fun stop w ended => ?_
      exact ended.accounts.mono (fun _ => id) fun f =>
        Or.imp_left fun refused => refused.mono fun _ => .inr
  | check p =>
      rw [asked] at asks
      cases asks
      rw [runInvocation, asked]
      have ends : Ends (fun w => w.files = files ∧
          Ready (Openable folder g) folder supply console w) (check i project) _ _ :=
        check_ends Openable.firm (fun _ h => h) here
      exact .bind configureLog_shown fun _ => (ends.stopping fun stop w ended =>
        ended.mono (fun _ => id) fun f => Or.imp_right .inl).starting fun w start =>
          start.2.ready start.1 opens
  | _ =>
      rw [asked] at asks
      cases asks

end Job

/-- A graph can be opened by any path to the folder where it is, if nothing is in the way. -/
theorem openable_of_lives {files : FileTree} {other : Path} (lives : Lives folder files)
    (opened : (DraftStore.file (draftPath folder) files).open? = .ok g) (below : place folder ≠ [])
    (leads : files.Leads other) (same : place other = place folder)
    (free : files.at? (place other ++ [spareName]) ≠ some .folder) : Openable other g files := by
  obtain ⟨content, v, g', there, holds, read⟩ := lives.draft
  have entry : files.entry? (draftPath folder) = some (.file content) := by
    rw [Project.draftPath_eq, lives.leads.entry?_within (by decide), there]
  cases opened.symm.trans (open_of_graph entry holds read)
  rw [← same] at below there
  exact ⟨leads, below, ⟨content, v, there, holds, read⟩, free⟩

/-- A command on a project that holds a graph is carried out, or it accounts for ending early. -/
theorem Job.runInvocation_accounts {files : FileTree} {i : Invocation} {project : Option Path}
    (asks : i.command.subject? = some project) (lives : Lives folder files)
    (opened : (DraftStore.file (draftPath folder) files).open? = .ok g) (below : place folder ≠ [])
    (works : files.has (configPath (projectFolder files i.projects project)) = true →
      files.Leads (projectFolder files i.projects project) ∧
        place (projectFolder files i.projects project) = place folder) :
    Ends (Begun files supply console) (runInvocation i) (fun _ _ => True)
      (fun stop w => Accounts console (i.command.Aside g) (Unreported i folder files console g)
        w.printed stop) := by
  cases found : files.has (configPath (projectFolder files i.projects project)) with
  | false =>
      obtain ⟨rest, run⟩ := runInvocation_eq asks
      rw [run]
      refine .bind configureLog_shown fun _ => .halt ?_
      exact (requireProject_missing found).starting fun w => And.right
  | true =>
      obtain ⟨leads, same⟩ := works found
      generalize here : projectFolder files i.projects project = other at leads same
      by_cases spare : files.at? (place other ++ [spareName]) = some .folder
      · have stuck : ¬ Clear i folder files := fun clear => (clear.moved same).spare spare
        have blocked : Blocked (fun _ => True) other files :=
          ⟨Project.lives_iff.mp (lives.moved leads same), spare⟩
        refine ((runInvocation_blocked asks here blocked).ending fun _ _ => False.elim).stopping
          fun stop w ended => ended.2.mono (fun _ => False.elim) ?_
        rintro _ ⟨e, rfl⟩
        exact .file e stuck
      · have openable := openable_of_lives lives opened below leads same spare
        refine (runInvocation_openable asks here openable).stopping fun stop w ended =>
          ended.mono (fun _ => id) ?_
        rintro f (refused | ⟨asked, blocked, e, rfl⟩ | misuse)
        · exact .unshown refused
        · exact .file e fun clear => (clear.moved same).log asked blocked
        · exact .misuse misuse

/-- A command that misuses a field of a graph that can be opened ends with the failure of that, if
the configuration can be read and nothing is in the way. -/
theorem Job.runInvocation_misused {files : FileTree} {i : Invocation} {project : Option Path}
    {c : Config} (asks : i.command.subject? = some project)
    (here : projectFolder files i.projects project = folder) (opens : Openable folder g files)
    (loaded : Project.loadConfig files folder = .ok c) (clear : Clear i folder files)
    (misuses : i.command.Misuses g f) :
    Ends (Begun files supply console) (runInvocation i) (fun _ _ => False)
      (fun stop _ => stop = .failed f) := by
  cases asked : i.command with
  | edit p e =>
      rw [asked] at asks misuses
      cases asks
      exact runInvocation_of_runEdit asked opens
        (runEdit_misused Openable.firm (fun _ h => h) here loaded clear.log misuses)
  | _ =>
      rw [asked] at misuses
      exact misuses.elim

/-- Whether the end of a command line is accounted for: its code is one of three, a failure is one
of those that are let through, and an end with the code of an error is told by the last line. -/
structure Accounted (aside : Printed → Prop) (escapes : Failure → Prop) (ended : Ending × World) :
    Prop where
  code : ended.1.exitCode ≤ 2
  failure : ∀ f, ended.1.failure = some f → escapes f
  told : ended.1.exitCode = 1 → ended.1.failure = none →
    ∃ before p, ended.2.printed = before ++ [p] ∧ Tells aside p

namespace Line

variable {line : Line} {w : World}

/-- Whether a command line, if it asks for more than help, edits or checks the project in a folder,
or no project that is there. -/
def Works (files : FileTree) (folder : Path) (line : Line) : Prop :=
  ∀ i, Request.read line.surroundings line.args = .ok (.run i) →
    ∃ project, i.command.subject? = some project ∧
      (files.has (configPath (Job.projectFolder files i.projects project)) = true →
        files.Leads (Job.projectFolder files i.projects project) ∧
          place (Job.projectFolder files i.projects project) = place folder)

/-- Whether a line that is no error tells why a command line on a graph ends early. -/
def Aside (line : Line) (g : Graph) (p : Printed) : Prop :=
  ∃ i, Request.read line.surroundings line.args = .ok (.run i) ∧ i.command.Aside g p

/-- The failures of a command line on the graph in the folder of a project that end it without a
report. -/
def Unreported (line : Line) (folder : Path) (w : World) (g : Graph) (f : Failure) : Prop :=
  ∃ i, Request.read line.surroundings line.args = .ok (.run i) ∧
    Command.Unreported i folder w.files w.console g f

/-- A command line is told to work on a project by reading it, as long as the project is kept. -/
theorem works_of_read {files : FileTree} {i : Invocation} {project : Option Path}
    (there : start.Leads folder) (keeps : Keeps start folder g files)
    (asked : Request.read line.surroundings line.args = .ok (.run i))
    (asks : i.command.subject? = some project)
    (found : Job.projectFolder start i.projects project = folder) : line.Works files folder := by
  intro j same
  cases asked.symm.trans same
  refine ⟨project, asks, fun _ => ?_⟩
  rw [keeps.projectFolder_eq (found.symm ▸ there), found]
  exact ⟨keeps.leads, rfl⟩

/-- A command line on a project that holds a graph accounts for its end. -/
theorem run_accounted (lives : Lives folder w.files)
    (opened : (DraftStore.file (draftPath folder) w.files).open? = .ok g)
    (below : place folder ≠ [])
    (works : line.Works w.files folder) :
    Accounted (line.Aside g) (line.Unreported folder w g) (line.run w) := by
  cases asked : Request.read line.surroundings line.args with
  | error e => constructor <;> simp [run, Command.run, asked, usageExit]
  | ok request =>
      cases request with
      | help => constructor <;> simp [run, Command.run, asked]
      | run i =>
          obtain ⟨project, asks, works⟩ := works i asked
          have ends : Ends (Begun w.files w.supply w.console) _ _ _ :=
            Job.runInvocation_accounts asks lives opened below works
          obtain ⟨v, ran, -⟩ | ⟨v, ran, before, p, last, told⟩ | ⟨f, v, ran, cause⟩ :=
            run_cases asked ends ⟨rfl, rfl, rfl⟩
          · rw [ran]
            exact ⟨Nat.zero_le _, by simp, by simp⟩
          · rw [ran]
            exact ⟨Nat.le_succ _, by simp, fun _ _ =>
              ⟨before, p, last, told.imp_right fun aside => ⟨i, asked, aside⟩⟩⟩
          · have unreported : Command.Unreported i folder w.files w.console g f :=
              cause.elim (fun refused => .unshown (refused.mono fun _ => .inl)) id
            rw [ran]
            exact ⟨Nat.le_succ _, by simpa using ⟨i, asked, unreported⟩, by simp⟩

/-- A misuse of a field is let through, if the configuration of the project can be read and nothing
is in the way. -/
theorem run_misused {i : Invocation} {project : Option Path} {c : Config}
    (lives : Lives folder w.files)
    (opened : (DraftStore.file (draftPath folder) w.files).open? = .ok g)
    (below : place folder ≠ [])
    (asked : Request.read line.surroundings line.args = .ok (.run i))
    (asks : i.command.subject? = some project)
    (leads : w.files.Leads (Job.projectFolder w.files i.projects project))
    (same : place (Job.projectFolder w.files i.projects project) = place folder)
    (loaded : Project.loadConfig w.files (Job.projectFolder w.files i.projects project) = .ok c)
    (clear : Clear i folder w.files) (misuses : i.command.Misuses g f) :
    (line.run w).1.failure = some f := by
  have clear := clear.moved same
  have opens := openable_of_lives lives opened below leads same clear.spare
  have ends : Ends (Begun w.files w.supply w.console) _ _ _ :=
    Job.runInvocation_misused asks rfl opens loaded clear misuses
  obtain ⟨v, ran, succeeds⟩ | ⟨v, ran, told⟩ | ⟨f, v, ran, failed⟩ :=
    run_cases asked ends ⟨rfl, rfl, rfl⟩
  · exact succeeds.elim
  · cases told
  · cases failed
    rw [ran]

end Line

/-- Where a command line has made a project, and others have followed, a command line that works on
the project accounts for its end.  It lets a failure through only if something is in its way, it
misuses a field, or the console cannot show what it says; and a misuse that it comes to is always
let through. -/
theorem lines_accounted {w : World} {create line : Line} {lines : List Line} {i : Invocation}
    {name npc : String} {parent : Option Path}
    (asked : Request.read create.surroundings create.args = .ok (.run i))
    (asks : i.command = .init name parent npc) (made : (create.run w).1.exitCode = 0)
    (works : line.Works (runAll (create.run w).2 lines).files
      ((parent.getD i.projects).child name)) :
    let folder := (parent.getD i.projects).child name
    let before := runAll (create.run w).2 lines
    ∃ g, (DraftStore.file (draftPath folder) before.files).open? = .ok g ∧
      Accounted (line.Aside g) (line.Unreported folder before g) (line.run before) ∧
      ∀ j project c f, Request.read line.surroundings line.args = .ok (.run j) →
        j.command.subject? = some project → Clear j folder before.files →
        Project.loadConfig before.files (Job.projectFolder before.files j.projects project) =
          .ok c →
        j.command.Misuses g f → (line.run before).1.failure = some f := by
  intro folder before
  have openable := (keeps_of_init asked asks made).openable .empty
  have below : place folder ≠ [] := openable.below
  have lives : Lives folder before.files := runAll_lasts Lives.lasting openable.lives
  obtain ⟨g, opened⟩ := open_of_lives lives
  refine ⟨g, opened, Line.run_accounted lives opened below works, ?_⟩
  intro j project c f read subject clear loaded misuses
  obtain ⟨project', same, there⟩ := works j read
  cases subject.symm.trans same
  obtain ⟨leads, same⟩ := there (Project.has_of_loadConfig loaded)
  exact Line.run_misused lives opened below read subject leads same loaded clear misuses

namespace Demo

/-- A command line that sets the close setting of the entry, which has none. -/
def closing : Line := ⟨none, ["set", "initial", "close", "true", "-p", "demo"]⟩

/-- What that command line asks for. -/
def closure : Invocation :=
  ⟨0, false, creation.projects, .edit (some ⟨none, ["demo"]⟩) (.setField "initial" "close" "true")⟩

theorem closing_asked : Request.read closing.surroundings closing.args = .ok (.run closure) := rfl

theorem closing_named :
    Job.projectFolder (create.run world).2.files closure.projects (some ⟨none, ["demo"]⟩) = home :=
  rfl

/-- The configuration of the new project can be read. -/
theorem configured : ∃ c, Project.loadConfig (create.run world).2.files home = .ok c := by
  have entry : (create.run world).2.files.entry? (Project.configPath home) =
      some (.file (.text (Project.configText { name := "demo" }))) := rfl
  have even : (Project.configCharacters { name := "demo" }).all (· != '\r') = true := by
    decide +kernel
  -- The characters are given to the reader as a list, so that no text is decoded here.
  have parsed : (Project.parseConfig (Project.configText { name := "demo" })).toOption.isSome =
      true := by
    rw [Project.configText_eq, Project.parseConfig, Yaml.read, String.toList_ofList]
    decide +kernel
  obtain ⟨c, parsed⟩ := Option.isSome_iff_exists.mp parsed
  rw [Project.loadConfig_of_file entry (by simpa [Json.Lacks] using even),
    toOption_eq_some.mp parsed]
  exact ⟨c, rfl⟩

/-- Whatever edits of the project came before, the command line works on it. -/
theorem closing_works {files : FileTree} (keeps : Keeps (create.run world).2.files home g files) :
    closing.Works files home :=
  Line.works_of_read leads keeps closing_asked rfl closing_named

end Demo

open Demo in
/-- The command line of the demonstration comes after others on the project. -/
theorem lines_accounted_of_demo :
    let before := runAll (create.run world).2 lines
    (create.run world).1.exitCode = 0 ∧ closing.Works before.files home ∧
      ∃ g, (DraftStore.file (draftPath home) before.files).open? = .ok g ∧
        Accounted (closing.Aside g) (closing.Unreported home before g) (closing.run before) ∧
        ∀ j project c f, Request.read closing.surroundings closing.args = .ok (.run j) →
          j.command.subject? = some project → Clear j home before.files →
          Project.loadConfig before.files (Job.projectFolder before.files j.projects project) =
            .ok c →
          j.command.Misuses g f → (closing.run before).1.failure = some f := by
  obtain ⟨-, kept⟩ := runAll_keeps leads .empty (keeps_of_init asked asks made) lines_edit
  have works : closing.Works (runAll (create.run world).2 lines).files
      ((Option.getD none creation.projects).child "demo") := closing_works kept
  have accounted := lines_accounted asked asks made works
  exact ⟨made, works, accounted⟩

open Demo in
/-- The entry of a new project has no close setting, and setting it ends without a report. -/
theorem closing_escapes :
    let before := (create.run world).2
    (create.run world).1.exitCode = 0 ∧ closing.Works before.files home ∧
      (closing.run before).1.failure = some (.noAttribute "EntryData" "close") := by
  intro before
  have keeps : Keeps before.files home .empty before.files := keeps_of_init asked asks made
  have openable := keeps.openable .empty
  obtain ⟨c, loaded⟩ := configured
  have clear : Clear closure home before.files := ⟨(fun asked => nomatch asked), openable.spare⟩
  have misuses : closure.command.Misuses .empty (.noAttribute "EntryData" "close") :=
    ⟨_, rfl, .close (by decide) rfl⟩
  have named : Job.projectFolder before.files closure.projects (some ⟨none, ["demo"]⟩) = home :=
    closing_named
  refine ⟨made, closing_works keeps, ?_⟩
  exact Line.run_misused openable.lives openable.open_eq openable.below closing_asked rfl
    (named.symm ▸ leads) (congrArg place named) (named.symm ▸ loaded) clear misuses

end Command

end Parley
