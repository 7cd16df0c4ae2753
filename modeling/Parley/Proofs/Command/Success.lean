import Parley.Proofs.Command.Unreported

/-!
# Command lines that succeed

What work on a graph demands for its success is known of a command line that ended with success.
Such a line has found the project and opened its graph, and the draft that it leaves is that of the
graph behind its edits.  In the other direction, a line succeeds if its work does, the configuration
of the project can be read, nothing is in the way and the console shows what is said of the success.
-/

namespace Parley

open FileTree (place)
open Project (Lives configPath draftPath spareName)

variable {folder : Path} {g : Graph} {supply : IdSupply} {console : Command.Console}

namespace Command

/-- Whether the work of a command on a graph succeeds only if something holds, whatever project it
is done in. -/
def EditCommand.Demands (g : Graph) (supply : IdSupply) (e : EditCommand) (Q : Prop) : Prop :=
  ∀ start folder, Ends (fun d => d.session.Follows start folder g supply) e.work (fun _ _ => Q)
    fun _ _ => True

/-- Whether the work of a command on a graph succeeds with something that is said of it, whatever
project it is done in. -/
def EditCommand.Assured (g : Graph) (supply : IdSupply) (e : EditCommand) (text : String) : Prop :=
  ∀ start folder, Ends (fun d => d.session.Follows start folder g supply) e.work
    (fun said _ => said = text) fun _ _ => False

/-- A node is added, with a text or without, if it can be made. -/
theorem addNode_assured (placed : g.Placed) {kind : String} {id text : Option String}
    {x y : Binary64} {n : Node}
    (made : (g.edit supply (.createNode (.str kind) (.coordinates [.float x, .float y])
      (Json.ofText? id))).answer = .ok (.node n))
    (short : (g.edit supply (.createNode (.str kind) (.coordinates [.float x, .float y])
      (Json.ofText? id))).graph.Short) :
    (EditCommand.addNode kind id x y text).Assured g supply
      ("Added " ++ n.kind.word ++ " node [bold]" ++ n.id ++ "[/bold]") := by
  intro start folder
  let create : Edit := .createNode (.str kind) (.coordinates [.float x, .float y]) (Json.ofText? id)
  have typed : create.Typed := trivial
  refine .bind (Work.edit_leads placed typed ⟨⟨_, made⟩, short⟩) fun answer =>
    .known fun answered => ?_
  cases made.symm.trans answered
  cases text with
  | none => exact .bind Work.report_ends fun _ => .answer fun _ _ => rfl
  | some text =>
      have named := Work.assures_text_of_create (s := (g.edit supply create).supply) made short text
      exact .bind (Work.edit_leads (placed.edit typed supply) trivial named) fun _ =>
        .known fun _ => .bind Work.report_ends fun _ => .answer fun _ _ => rfl

/-- The configuration of a project is read as it was made, as long as the project is kept. -/
theorem Keeps.loadConfig_eq {start files : FileTree} (h : Keeps start folder g files)
    (leads : start.Leads folder) :
    Project.loadConfig files folder = Project.loadConfig start folder := by
  obtain ⟨text, written, keeps⟩ := h
  have entry : files.entry? (configPath folder) = start.entry? (configPath folder) := by
    rw [Project.configPath_eq, keeps.leads.entry?_within (by decide),
      leads.entry?_within (by decide), keeps.config]
  have free : files.refusal? (configPath folder) = start.refusal? (configPath folder) := by
    rw [Project.configPath_eq, keeps.leads.refusal?_within, leads.refusal?_within]
  have content : files.content (configPath folder) = start.content (configPath folder) := by
    rw [FileTree.content, FileTree.content, entry, free]
  have there : files.has (configPath folder) = start.has (configPath folder) := by
    rw [FileTree.has, FileTree.has, entry]
  simp only [Project.loadConfig, FileTree.readText]
  rw [there, content]

namespace Job

variable {Q : Prop} {files : FileTree} {i : Invocation} {e : EditCommand}
  {project : Option Path}

/-- A command on a graph that can be opened succeeds only if what its work demands holds. -/
theorem runInvocation_demands (asks : i.command = .edit project e)
    (here : projectFolder files i.projects project = folder) (opens : Openable folder g files)
    (demands : e.Demands g supply Q) :
    Ends (Begun files supply console) (runInvocation i) (fun _ _ => Q) fun _ _ => True := by
  let Holds : Except Stop Unit → Prop
    | .ok _ => Q
    | .error _ => True
  have met {text : String} (holds : Q) : Holds (verdict console (.ok text)) := by
    cases verdict console (.ok text) with
    | ok _ => exact holds
    | error _ => trivial
  have unmet {obstacle : Obstacle} : Holds (verdict console (.error obstacle)) := by
    cases obstacle with
    | told p =>
        simp only [verdict]
        split <;> trivial
    | failed f => trivial
  refine runInvocation_of_runEdit asks opens (runEdit_of_work Holds (fun _ h => h)
    ((requireProject_ends Openable.firm here).stopping fun _ _ _ => trivial) fun t _ => ?_)
  exact ((demands t folder).ending fun _ _ => met).stopping fun _ _ _ => unmet

/-- A command on a graph that can be opened does its work, if the configuration can be read and
nothing is in the way of the log file, and ends as the console shows what is said of that. -/
theorem runInvocation_assured {c : Config} {text : String} (asks : i.command = .edit project e)
    (here : projectFolder files i.projects project = folder) (opens : Openable folder g files)
    (loaded : Project.loadConfig files folder = .ok c)
    (clear : i.toFile = true → ¬ Project.LogBlocked folder files)
    (assured : e.Assured g supply text) :
    Ends (Begun files supply console) (runInvocation i)
      (fun _ _ => verdict console (.ok text) = .ok ())
      fun stop _ => verdict console (.ok text) = .error stop := by
  let Ended (r : Except Stop Unit) : Prop := verdict console (.ok text) = r
  refine runInvocation_of_runEdit asks opens (runEdit_of_work Ended (fun _ h => h)
    (requireProject_found Openable.firm here loaded clear) fun t _ => ?_)
  refine ((assured t folder).ending ?_).stopping fun _ _ => False.elim
  rintro _ d rfl
  rfl

/-- A command on a project that is not found does not succeed. -/
theorem runInvocation_missing (asks : i.command.subject? = some project)
    (missing : files.has (configPath (projectFolder files i.projects project)) = false) :
    Ends (Begun files supply console) (runInvocation i) (fun _ _ => False) fun stop w =>
      Accounts console (fun _ => False) (fun _ => False) w.printed stop := by
  obtain ⟨rest, run⟩ := runInvocation_eq asks
  rw [run]
  exact .bind configureLog_shown fun _ => .halt ((requireProject_missing missing).starting
    fun w => And.right)

end Job

namespace Line

variable {line : Line} {w : World} {i : Invocation}

/-- A command line that ended with success has done what its command does when it succeeds. -/
theorem after_of_success {after : Unit → World → Prop} {early : Stop → World → Prop}
    (asked : Request.read line.surroundings line.args = .ok (.run i))
    (ends : Ends (Begun w.files w.supply w.console) (Job.runInvocation i) after early)
    (succeeds : (line.run w).1.exitCode = 0) : after () (line.run w).2 := by
  obtain ⟨v, ran, done⟩ | ⟨v, ran, -⟩ | ⟨f, v, ran, -⟩ := run_cases asked ends ⟨rfl, rfl, rfl⟩
  · rw [ran]
    exact done
  · simp [ran] at succeeds
  · simp [ran] at succeeds

variable {project : Option Path} {e : EditCommand} {Q : Prop}

/-- A command line that asks for an edit of a project that holds a graph, and succeeds, leaves the
graph behind its edits.  What its work demands holds. -/
theorem run_succeeded (lives : Lives folder w.files)
    (opened : (DraftStore.file (draftPath folder) w.files).open? = .ok g)
    (below : place folder ≠ [])
    (works : line.Works w.files folder)
    (asked : Request.read line.surroundings line.args = .ok (.run i))
    (asks : i.command = .edit project e) (demands : e.Demands g w.supply Q)
    (succeeds : (line.run w).1.exitCode = 0) :
    Q ∧ (DraftStore.file (draftPath folder) (line.run w).2.files).open? =
      .ok (g.after w.supply (e.edits g w.supply)) := by
  have subject : i.command.subject? = some project := by rw [asks]; rfl
  obtain ⟨project', same, works⟩ := works i asked
  cases subject.symm.trans same
  cases found : w.files.has (configPath (Job.projectFolder w.files i.projects project)) with
  | false =>
      exact (after_of_success asked (Job.runInvocation_missing subject found) succeeds).elim
  | true =>
      obtain ⟨leads, same⟩ := works found
      generalize here : Job.projectFolder w.files i.projects project = other at leads same
      by_cases spare : w.files.at? (place other ++ [spareName]) = some .folder
      · have ends : Ends (Begun w.files w.supply w.console) _ _ _ :=
          Job.runInvocation_blocked subject here
            ⟨Project.lives_iff.mp (lives.moved leads same), spare⟩
        exact (after_of_success asked ends succeeds).elim
      · have openable := openable_of_lives lives opened below leads same spare
        refine ⟨after_of_success asked (Job.runInvocation_demands asks here openable demands)
          succeeds, ?_⟩
        let P (t : FileTree) : Prop := Openable other g t ∧ t.Leads folder
        have firm : Firm other P := ⟨fun t h => h.1.leads, fun t t' h change =>
          ⟨Openable.firm.logs t t' h.1 change, change.leads h.2⟩⟩
        have ends : Ends (Begun w.files w.supply w.console) _ _ _ :=
          Job.runInvocation_edit firm (fun _ h => h.1) asks here ⟨openable, lives.leads⟩
        obtain ⟨t, ⟨-, there⟩, keeps⟩ := after_of_success asked ends succeeds
        have back := keeps.moved (keeps.leads_of_start there) same.symm
        exact back.open_eq (openable.proper.after e.edits_plain)

/-- A command line on a graph that can be opened succeeds if its work does, the configuration of the
project can be read, nothing is in the way and the console shows what is said. -/
theorem run_succeeds {c : Config} {text : String}
    (asked : Request.read line.surroundings line.args = .ok (.run i))
    (asks : i.command = .edit project e)
    (here : Job.projectFolder w.files i.projects project = folder)
    (opens : Openable folder g w.files)
    (loaded : Project.loadConfig w.files folder = .ok c) (clear : Clear i folder w.files)
    (assured : e.Assured g w.supply text) (shown : w.console.problem? (successLine text) = none) :
    (line.run w).1.exitCode = 0 := by
  have ends : Ends (Begun w.files w.supply w.console) _ _ _ :=
    Job.runInvocation_assured asks here opens loaded clear.log assured
  have well : Job.verdict w.console (.ok text) = .ok () := by simp only [Job.verdict, shown]
  obtain ⟨v, ran, -⟩ | ⟨v, ran, fails⟩ | ⟨f, v, ran, fails⟩ :=
    run_cases asked ends ⟨rfl, rfl, rfl⟩
  · rw [ran]
  · cases well.symm.trans fails
  · cases well.symm.trans fails

/-- It ends with a failure if the console cannot show what is said. -/
theorem run_unshown {c : Config} {text reason : String}
    (asked : Request.read line.surroundings line.args = .ok (.run i))
    (asks : i.command = .edit project e)
    (here : Job.projectFolder w.files i.projects project = folder)
    (opens : Openable folder g w.files)
    (loaded : Project.loadConfig w.files folder = .ok c) (clear : Clear i folder w.files)
    (assured : e.Assured g w.supply text)
    (problem : w.console.problem? (successLine text) = some reason) :
    (line.run w).1 = ⟨1, some (.unshown (successMark ++ text) reason)⟩ := by
  have ends : Ends (Begun w.files w.supply w.console) _ _ _ :=
    Job.runInvocation_assured asks here opens loaded clear.log assured
  have ill : Job.verdict w.console (.ok text) =
      .error (.failed (.unshown (successMark ++ text) reason)) := by
    simp only [Job.verdict, problem]
    rfl
  obtain ⟨v, ran, succeeds⟩ | ⟨v, ran, told⟩ | ⟨f, v, ran, fails⟩ :=
    run_cases asked ends ⟨rfl, rfl, rfl⟩
  · cases ill.symm.trans succeeds
  · cases ill.symm.trans told
  · cases ill.symm.trans fails
    rw [ran]

end Line

/-- Where a command line has made a project, and others have followed, a command line that asks for
an edit of the project, and succeeds, has had what its work demands, and leads from the graph that
it found to the one behind its edits. -/
theorem lines_succeeded {w : World} {create line : Line} {lines : List Line} {i j : Invocation}
    {name npc : String} {parent project : Option Path} {e : EditCommand}
    {Q : Graph → IdSupply → Prop}
    (asked : Request.read create.surroundings create.args = .ok (.run i))
    (asks : i.command = .init name parent npc) (made : (create.run w).1.exitCode = 0)
    (works : line.Works (runAll (create.run w).2 lines).files
      ((parent.getD i.projects).child name))
    (read : Request.read line.surroundings line.args = .ok (.run j))
    (edits : j.command = .edit project e)
    (succeeds : (line.run (runAll (create.run w).2 lines)).1.exitCode = 0)
    (demands : ∀ g supply, g.Proper → e.Demands g supply (Q g supply)) :
    let folder := (parent.getD i.projects).child name
    let before := runAll (create.run w).2 lines
    ∃ g, g.Proper ∧ Q g before.supply ∧
      (DraftStore.file (draftPath folder) before.files).open? = .ok g ∧
      (DraftStore.file (draftPath folder) (line.run before).2.files).open? =
        .ok (g.after before.supply (e.edits g before.supply)) := by
  intro folder before
  have openable := (keeps_of_init asked asks made).openable .empty
  have lives : Lives folder before.files := runAll_lasts Lives.lasting openable.lives
  obtain ⟨g, opened⟩ := open_of_lives lives
  have proper : g.Proper := proper_of_open opened
  obtain ⟨holds, left⟩ := Line.run_succeeded lives opened openable.below works read edits
    (demands g before.supply proper) succeeds
  exact ⟨g, proper, holds, opened, left⟩

namespace Demo

/-- The project is found by its name, whatever edits of it came before. -/
theorem named {files : FileTree} (keeps : Keeps (create.run world).2.files home g files) :
    Job.projectFolder files creation.projects (some ⟨none, ["demo"]⟩) = home :=
  (keeps.projectFolder_eq (closing_named.symm ▸ leads)).trans closing_named

/-- The console of the demonstration stays the same. -/
theorem console_eq (lines : List Line) : (runAll (create.run world).2 lines).console = .markup :=
  runAll_console.trans (create.run_lasts Lasting.all trivial).2

variable {w : World} {line : Line} {e : EditCommand} {text : String}

/-- A command line that edits the project succeeds if its work does and the console shows that. -/
theorem run_succeeds (proper : g.Proper) (keeps : Keeps (create.run world).2.files home g w.files)
    (console : w.console = .markup)
    (asked : Request.read line.surroundings line.args =
      .ok (.run ⟨0, false, creation.projects, .edit (some ⟨none, ["demo"]⟩) e⟩))
    (assured : e.Assured g w.supply text)
    (shown : Console.markup.problem? (successLine text) = none) : (line.run w).1.exitCode = 0 := by
  obtain ⟨c, loaded⟩ := configured
  have opens := keeps.openable proper
  exact Line.run_succeeds asked rfl (named keeps) opens ((keeps.loadConfig_eq leads).trans loaded)
    ⟨(fun asked => nomatch asked), opens.spare⟩ assured (console ▸ shown)

/-- Where a command line has done its work, the project holds the graph behind its edits. -/
theorem leads_of_done {g' : Graph} (proper : g.Proper)
    (keeps : Keeps (create.run world).2.files home g w.files)
    (asked : Request.read line.surroundings line.args =
      .ok (.run ⟨0, false, creation.projects, .edit (some ⟨none, ["demo"]⟩) e⟩))
    (done : (line.run w).1.isDone = true) (after : g.after w.supply (e.edits g w.supply) = g') :
    g'.Proper ∧ Keeps (create.run world).2.files home g' (line.run w).2.files := by
  have kept := Line.run_keeps leads proper keeps (Line.edits_of_read asked rfl closing_named leads)
  rw [Line.graph, if_pos done, Line.edits, asked] at kept
  exact after ▸ ⟨proper.after e.edits_plain, kept⟩

theorem run_leads {g' : Graph} (proper : g.Proper)
    (keeps : Keeps (create.run world).2.files home g w.files) (console : w.console = .markup)
    (asked : Request.read line.surroundings line.args =
      .ok (.run ⟨0, false, creation.projects, .edit (some ⟨none, ["demo"]⟩) e⟩))
    (assured : e.Assured g w.supply text)
    (shown : Console.markup.problem? (successLine text) = none)
    (after : g.after w.supply (e.edits g w.supply) = g') :
    g'.Proper ∧ Keeps (create.run world).2.files home g' (line.run w).2.files := by
  refine leads_of_done proper keeps asked ?_ after
  rw [Ending.isDone, run_succeeds proper keeps console asked assured shown]
  rfl

/-- A command line that adds a result to the project. -/
def telling : Line := ⟨none, ["add-node", "result", "--id", "hello", "-p", "demo"]⟩

/-- The graph with that result. -/
def told : Graph := Graph.empty.put { id := "hello", payload := .result {} }

theorem told_short : told.Short :=
  Graph.Short.put (List.forall_mem_singleton.mpr rfl) (Payload.short_ofKind .result)

theorem telling_assured {supply : IdSupply} :
    (EditCommand.addNode "result" (some "hello") .zero .zero none).Assured .empty supply
      "Added result node [bold]hello[/bold]" :=
  addNode_assured (n := { id := "hello", payload := .result {} })
    Graph.Proper.empty.entered.placed rfl told_short

theorem after_telling {supply : IdSupply} : Graph.empty.after supply
    ((EditCommand.addNode "result" (some "hello") .zero .zero none).edits .empty supply) =
      told := rfl

theorem told_proper : told.Proper ∧
    Keeps (create.run world).2.files home told (runAll (create.run world).2 [telling]).files := by
  have asks : Request.read telling.surroundings telling.args = .ok (.run
      ⟨0, false, creation.projects, .edit (some ⟨none, ["demo"]⟩)
        (.addNode "result" (some "hello") .zero .zero none)⟩) := rfl
  have single (w : World) : runAll w [telling] = (telling.run w).2 := rfl
  rw [single]
  exact run_leads .empty (keeps_of_init asked rfl made) (console_eq []) asks
    telling_assured rfl after_telling

end Demo

end Command

end Parley
