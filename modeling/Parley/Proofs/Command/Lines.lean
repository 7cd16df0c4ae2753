import Parley.Proofs.Command.Run

/-!
# Command lines one after the other

Every command line reads the graph of its project from the files and leaves it there again, so that
nothing but the files goes from one command line to the next.  A row of command lines nevertheless
comes to the same as the edits that it asks for, made one after the other on a graph in memory,
where a command line that ends with an error counts for nothing.  One error comes too late for that:
the edits are made and saved, and then the console cannot show the report of it.

A command line belongs to a project if it asks for an edit in its folder, by whatever path that
leads there.
-/

namespace Parley

open FileTree (place)
open Project (configPath draftPath)

variable {start t : FileTree} {folder : Path} {g : Graph} {w : Command.World}

namespace Command

/-- A command line in its surroundings. -/
structure Line where
  surroundings : Option String
  args : List String

namespace Line

/-- Runs a command line. -/
def run (line : Line) (w : World) : Ending × World := Command.run line.surroundings line.args w

/-- The edits that a command line asks for, on a graph and with a supply of ids. -/
def edits (line : Line) (g : Graph) (supply : IdSupply) : List Edit :=
  match Request.read line.surroundings line.args with
  | .ok (.run i) =>
    match i.command with
    | .edit _ e => e.edits g supply
    | _ => []
  | _ => []

/-- Whether a command line, if it asks for more than help, asks for an edit in a folder. -/
def Edits (files : FileTree) (folder : Path) (line : Line) : Prop :=
  ∀ i, Request.read line.surroundings line.args = .ok (.run i) →
    ∃ project e, i.command = .edit project e ∧
      files.Leads (Job.projectFolder files i.projects project) ∧
      place (Job.projectFolder files i.projects project) = place folder

end Line

/-- Whether a command line has done what it asks for: it has ended with success, or only the report
of its success could not be shown. -/
def Ending.isDone (e : Ending) : Bool :=
  e.exitCode == 0 || match e.failure with
    | some (.unshown text _) => Text.startsWith successMark text
    | _ => false

/-- The graph after a command line: the one after its edits, if it has done what it asks for. -/
def Line.graph (line : Line) (g : Graph) (w : World) : Graph :=
  if (line.run w).1.isDone then g.after w.supply (line.edits g w.supply) else g

/-- The state after command lines. -/
def runAll (w : World) : List Line → World
  | [] => w
  | line :: rest => runAll (line.run w).2 rest

/-- The graph after command lines. -/
def follow (g : Graph) (w : World) : List Line → Graph
  | [] => g
  | line :: rest => follow (line.graph g w) (line.run w).2 rest

/-- What is at a path of one name is what is at the place of that name. -/
theorem entry_of_single {name : String} (t : FileTree) :
    t.entry? ⟨none, [name]⟩ = t.at? [name] := by
  have passable : t.passable ⟨none, [name]⟩ = true := by
    rw [FileTree.passable, List.all_eq_true]
    intro n member
    obtain rfl : n = 0 := by simpa using member
    have root : t.at? (place ⟨none, []⟩) = some .folder := rfl
    simp [root]
  rw [FileTree.entry?_of_passable passable]
  simp [place, FileTree.resolve]

theorem has_of_leads {p : Path} (leads : t.Leads p) : t.has p = true :=
  FileTree.has_of_hasFolder leads.hasFolder

namespace Keeps

variable {projects : Path} {project : Option Path} {files : FileTree}

theorem leads_of_start {other : Path} (h : Keeps start folder g files) (leads : start.Leads other) :
    files.Leads other := by
  obtain ⟨text, written, keeps⟩ := h
  exact fun n short => keeps.folders _ (leads n short)

/-- A folder that was found by its name is found by it later on. -/
theorem projectFolder_eq (h : Keeps start folder g files)
    (leads : start.Leads (Job.projectFolder start projects project)) :
    Job.projectFolder files projects project = Job.projectFolder start projects project := by
  match project with
  | none => rfl
  | some ⟨some base, names⟩ => simp [Job.projectFolder, Path.join]
  | some ⟨none, []⟩ => rfl
  | some ⟨none, _ :: _ :: _⟩ => simp [Job.projectFolder]
  | some ⟨none, [name]⟩ =>
      have named : files.has ⟨none, [name]⟩ = start.has ⟨none, [name]⟩ := by
        obtain ⟨text, written, keeps⟩ := h
        rw [FileTree.has, FileTree.has, entry_of_single, entry_of_single, keeps.shallow]
      cases here : start.has ⟨none, [name]⟩ with
      | true => simp [Job.projectFolder, named, here]
      | false =>
          cases among : start.has (projects.join ⟨none, [name]⟩) with
          | true =>
              have found : files.has (projects.join ⟨none, [name]⟩) = true := by
                refine has_of_leads (h.leads_of_start ?_)
                simpa [Job.projectFolder, here, among] using leads
              simp [Job.projectFolder, named, here, among, found]
          | false =>
              have found : start.has ⟨none, [name]⟩ = true := by
                simpa [Job.projectFolder, here, among] using has_of_leads leads
              cases here.symm.trans found

/-- The same is kept by another path to the folder. -/
theorem moved {other : Path} (h : Keeps start folder g files) (leads : files.Leads other)
    (same : place other = place folder) : Keeps start other g files := by
  obtain ⟨text, written, keeps⟩ := h
  exact ⟨text, written, keeps.moved leads same⟩

end Keeps

namespace Line

variable {line : Line}

/-- A command line ends as its command does: with success, with an error that is told, or with a
failure. -/
theorem run_cases {i : Invocation} {before : World → Prop} {after : Unit → World → Prop}
    {early : Stop → World → Prop}
    (asked : Request.read line.surroundings line.args = .ok (.run i))
    (ends : Ends before (Job.runInvocation i) after early)
    (start : before { w with printed := [], noticed := [] }) :
    (∃ v, line.run w = (⟨0, none⟩, v) ∧ after () v) ∨
      (∃ v, line.run w = (⟨1, none⟩, v) ∧ early .reported v) ∨
      ∃ f v, line.run w = (⟨1, some f⟩, v) ∧ early (.failed f) v := by
  have here := ends _ start
  rw [run, Command.run, asked]
  dsimp only
  rcases ran : (Job.runInvocation i).run.run { w with printed := [], noticed := [] } with
    ⟨(_ | f) | _, v⟩ <;> rw [ran] at here
  · exact .inr (.inl ⟨v, rfl, here⟩)
  · exact .inr (.inr ⟨f, v, rfl, here⟩)
  · exact .inl ⟨v, rfl, here⟩

/-- What tells why a command ends early is no report of success. -/
theorem not_success_of_tells {e : EditCommand} {p : Printed} (tells : Tells e.Aside p) :
    Text.startsWith successMark p.heading = false := by
  have apart (start text : String)
      (other : successMark.toList.isPrefixOf (start.toList ++ text.toList) = false) :
      Text.startsWith successMark (start ++ text) = false := by
    rw [Text.startsWith, String.toList_append, other]
  obtain ⟨text, rfl⟩ | aside := tells
  · exact apart _ _ rfl
  · cases e with
    | disconnect source target =>
        cases aside
        simp only [Printed.heading, String.append_assoc]
        exact apart _ _ rfl
    | _ => exact aside.elim

/-- An edit command that ends early has not done what it asks for, unless it leaves the draft behind
its edits. -/
theorem draft_of_early {P : FileTree → Prop} {g g' : Graph} {console : Console} {i : Invocation}
    {e : EditCommand} {files : FileTree} {f : Failure} {w : World}
    (early : Job.EndsEarly P folder g g' console e
      (fun f => LogFails i folder files f ∨ e.Misuses g f) (.failed f) w) :
    (Ending.isDone ⟨1, some f⟩ = true ∧ ∃ t, P t ∧ Keeps t folder g' w.files) ∨
      (Ending.isDone ⟨1, some f⟩ = false ∧ (P w.files ∨ ∃ t, P t ∧ Keeps t folder g w.files)) := by
  obtain ⟨kept, cause⟩ | ⟨kept, _, ⟨⟩, p, reason, ⟨text, -, rfl⟩, -, rfl⟩ := early
  · refine .inr ⟨?_, kept⟩
    obtain ⟨p, reason, tells, -, rfl⟩ | ⟨-, -, e, rfl⟩ | misuse := cause
    · exact not_success_of_tells tells
    · rfl
    · cases e with
      | setField id field value =>
          obtain ⟨n, -, misuse⟩ := misuse
          cases misuse <;> rfl
      | _ => exact misuse.elim
  · refine .inl ⟨?_, kept⟩
    simp [Ending.isDone, Printed.heading, successLine, Text.startsWith]

/-- A command line in the folder of a project leads to the graph after its edits. -/
theorem run_keeps (there : start.Leads folder) (proper : g.Proper)
    (keeps : Keeps start folder g w.files) (edits : line.Edits start folder) :
    Keeps start folder (line.graph g w) (line.run w).2.files := by
  cases asked : Request.read line.surroundings line.args with
  | error e => simpa [graph, run, Command.run, asked, usageExit, Ending.isDone] using keeps
  | ok request =>
      cases request with
      | help => simpa [graph, run, Command.run, Line.edits, asked, Graph.after] using keeps
      | run i =>
          obtain ⟨project, e, asks, leads, same⟩ := edits i asked
          have here := keeps.projectFolder_eq leads
          let other := Job.projectFolder start i.projects project
          have back {g' : Graph} {files : FileTree} (h : Keeps start other g' files) :
              Keeps start folder g' files := h.moved (h.leads_of_start there) same.symm
          have keeps := keeps.moved (keeps.leads_of_start leads) same
          have ends : Ends (Begun w.files w.supply w.console) _ _ _ :=
            Job.runInvocation_edit Keeps.firm (fun _ h => h.openable proper) asks here keeps
          have stays {v : World} (ended : Keeps start other g v.files ∨
              ∃ t, Keeps start other g t ∧ Keeps t other g v.files) :
              Keeps start folder g v.files :=
            back (ended.elim id fun ⟨t, before, after⟩ => before.trans after)
          obtain ⟨v, ran, t, before, after⟩ | ⟨v, ran, ended⟩ | ⟨f, v, ran, ended⟩ :=
            run_cases asked ends ⟨rfl, rfl, rfl⟩
          · simpa [graph, ran, Ending.isDone, Line.edits, asked, asks] using
              back (before.trans after)
          · obtain ⟨ended, -⟩ | ⟨-, f, impossible, -⟩ := ended
            · simpa [graph, ran, Ending.isDone] using stays ended
            · cases impossible
          · obtain ⟨done, t, before, after⟩ | ⟨undone, ended⟩ := draft_of_early ended
            · simpa only [graph, ran, done, if_true, Line.edits, asked, asks] using
                back (before.trans after)
            · simpa [graph, ran, undone] using stays ended

/-- A command line is told to ask for an edit in a folder by reading it. -/
theorem edits_of_read {i : Invocation} {project : Option Path} {e : EditCommand}
    (asked : Request.read line.surroundings line.args = .ok (.run i))
    (asks : i.command = .edit project e)
    (found : Job.projectFolder t i.projects project = folder) (leads : t.Leads folder) :
    line.Edits t folder := by
  intro j same
  cases asked.symm.trans same
  exact ⟨project, e, asks, found.symm ▸ leads, congrArg place found⟩

/-- The edits of a command line have arguments of the declared types, and none is a copy. -/
theorem edits_plain {supply : IdSupply} : ∀ e ∈ line.edits g supply, e.Typed ∧ ¬ e.Copies := by
  intro e member
  rw [Line.edits] at member
  split at member
  next =>
    split at member
    next _ c _ => exact c.edits_plain e member
    next => cases member
  next => cases member

theorem graph_proper (proper : g.Proper) : (line.graph g w).Proper := by
  rw [graph]
  split
  next => exact proper.after edits_plain
  next => exact proper

end Line

/-- Command lines in the folder of a project lead to the graph that follows. -/
theorem runAll_keeps {lines : List Line} (there : start.Leads folder) (proper : g.Proper)
    (keeps : Keeps start folder g w.files) (edits : ∀ line ∈ lines, line.Edits start folder) :
    (follow g w lines).Proper ∧ Keeps start folder (follow g w lines) (runAll w lines).files := by
  induction lines generalizing g w with
  | nil => exact ⟨proper, keeps⟩
  | cons line rest ih =>
      obtain ⟨here, edits⟩ := List.forall_mem_cons.mp edits
      exact ih (Line.graph_proper proper) (Line.run_keeps there proper keeps here) edits

namespace Job

/-- What is printed is not in the files. -/
theorem print_keeps {P : FileTree → Prop} {p : Printed} :
    Ends (fun w => P w.files) (print p) (fun _ w => P w.files) (fun _ _ => True) :=
  print_ends _ (fun _ holds _ => holds) fun _ _ _ _ => trivial

variable {i : Invocation} {name npc : String} {parent : Option Path}

/-- A new project holds the draft of the empty graph. -/
theorem init_ends :
    Ends (Quiet fun _ => True) (init i name parent npc)
      (fun _ w => Keeps w.files ((parent.getD i.projects).child name) .empty w.files)
      (fun _ _ => True) := by
  refine .bind makeProject_ends fun made => .known fun same => ?_
  subst same
  let P : FileTree → Prop := fun t => Keeps t ((parent.getD i.projects).child name) .empty t
  refine .bind (print_keeps (P := P)) fun _ => .read fun w keeps => ?_
  refine .starting ?_ fun t (same : t = w) => (same ▸ keeps : P t.files)
  refine .bind (print_keeps (P := P)) fun _ => .bind (print_keeps (P := P)) fun _ => ?_
  exact .bind (print_keeps (P := P)) fun _ => print_keeps (P := P)

theorem runInvocation_init {files : FileTree} {supply : IdSupply} {console : Console}
    (asks : i.command = .init name parent npc) :
    Ends (Begun files supply console) (runInvocation i)
      (fun _ w => Keeps w.files ((parent.getD i.projects).child name) .empty w.files)
      (fun _ _ => True) := by
  rw [runInvocation, asks]
  exact .bind configureLog_shown fun _ =>
    init_ends.starting fun w start => ⟨start.1, trivial⟩

end Job

/-- A command line that makes a project leaves the draft of the empty graph in its folder. -/
theorem keeps_of_init {create : Line} {i : Invocation} {name npc : String} {parent : Option Path}
    (asked : Request.read create.surroundings create.args = .ok (.run i))
    (asks : i.command = .init name parent npc) (made : (create.run w).1.exitCode = 0) :
    Keeps (create.run w).2.files ((parent.getD i.projects).child name) .empty
      (create.run w).2.files := by
  have ends : Ends (Begun w.files w.supply w.console) _ _ _ := Job.runInvocation_init asks
  obtain ⟨v, ran, keeps⟩ | ⟨v, ran, -⟩ | ⟨f, v, ran, -⟩ :=
    Line.run_cases asked ends ⟨rfl, rfl, rfl⟩
  · simpa [ran] using keeps
  · simp [ran] at made
  · simp [ran] at made

namespace Demo

/-- An empty working folder. -/
def world : World :=
  { files := {}, supply := .countingFrom 0, console := .markup, home := "/work", now := "" }

/-- A command line that makes a project. -/
def create : Line := ⟨none, ["init", "demo"]⟩

/-- What that command line asks for. -/
def creation : Invocation := ⟨0, false, ⟨none, ["projects"]⟩, .init "demo" none ""⟩

/-- The folder of the project. -/
def home : Path := creation.projects.child "demo"

/-- A result with a text is added and connected, and a node is removed that is not there. -/
def lines : List Line := [
  ⟨none, ["add-node", "result", "--id", "hello", "--x", "1.5", "--text", "Hi", "-p", "demo"]⟩,
  ⟨none, ["connect", "initial", "hello", "-p", "demo"]⟩,
  ⟨none, ["remove-node", "nobody", "-p", "projects/demo"]⟩]

theorem asked : Request.read create.surroundings create.args = .ok (.run creation) := rfl

theorem asks : creation.command = .init "demo" none "" := rfl

theorem made : (create.run world).1.exitCode = 0 := rfl

theorem leads : (create.run world).2.files.Leads home := (keeps_of_init asked asks made).leads

/-- The project is found by its name among the projects, and by its path. -/
theorem lines_edit : ∀ line ∈ lines, line.Edits (create.run world).2.files home := by
  have named : Job.projectFolder (create.run world).2.files creation.projects
      (some ⟨none, ["demo"]⟩) = home := rfl
  have spelled : Job.projectFolder (create.run world).2.files creation.projects
      (some ⟨none, ["projects", "demo"]⟩) = home := rfl
  simp only [lines, List.forall_mem_cons, List.not_mem_nil, false_imp_iff, implies_true, and_true]
  refine ⟨?_, ?_, ?_⟩
  · exact Line.edits_of_read (i := ⟨0, false, creation.projects, .edit (some ⟨none, ["demo"]⟩)
      (.addNode "result" (some "hello") (.ofDecimal false 15 (-1)) .zero (some "Hi"))⟩)
      (by decide +kernel) rfl named leads
  · exact Line.edits_of_read (i := ⟨0, false, creation.projects, .edit (some ⟨none, ["demo"]⟩)
      (.connect "initial" "hello" none)⟩) rfl rfl named leads
  · exact Line.edits_of_read (i := ⟨0, false, creation.projects, .edit
      (some ⟨none, ["projects", "demo"]⟩) (.removeNode "nobody")⟩)
      rfl rfl spelled leads

end Demo

end Command

end Parley
