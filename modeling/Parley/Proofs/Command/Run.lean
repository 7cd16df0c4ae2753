import Parley.Command.Run
import Parley.Proofs.Command.Edit
import Parley.Proofs.Command.Opening
import Parley.Proofs.Graph.Proper

/-!
# Command lines and the graph in memory

A command on the graph of a project finds the project, opens its graph and works on it.  What it
needs for that is a draft that can be read, with nothing in the way: `Openable`.  From there on the
files hold the draft of the graph that the command has come to, and a command that ends early
accounts for it, by what it says last or by one of the failures that are let through.
-/

namespace Parley

open FileTree (place)
open Project (draftPath configPath draftName spareName)

variable {start : FileTree} {folder : Path} {g : Graph} {supply : IdSupply}
  {console : Command.Console}

namespace Command

/-- Whether the files hold the draft of a graph in the folder of a project. -/
def Keeps (start : FileTree) (folder : Path) (g : Graph) (files : FileTree) : Prop :=
  ∃ text, g.toJson.text Json.Layout.document = .ok text ∧ Project.Keeps start folder text files

/-- Whether there is a graph to be opened in the folder of a project, and nothing in the way of its
draft. -/
structure Openable (folder : Path) (g : Graph) (files : FileTree) : Prop where
  leads : files.Leads folder
  below : place folder ≠ []
  draft : ∃ content v, files.at? (place folder ++ [draftName]) = some (.file content) ∧
    content.Holds v ∧ Graph.ofJson v = .ok g
  spare : files.at? (place folder ++ [spareName]) ≠ some .folder

namespace Openable

variable {files : FileTree}

theorem proper (h : Openable folder g files) : g.Proper := by
  obtain ⟨content, v, -, -, read⟩ := h.draft
  exact .of_ofJson read

theorem draft_ne (h : Openable folder g files) :
    files.at? (place folder ++ [draftName]) ≠ some .folder := by
  obtain ⟨content, v, there, -⟩ := h.draft
  simp [there]

theorem open_eq (h : Openable folder g files) :
    (DraftStore.file (draftPath folder) files).open? = .ok g := by
  obtain ⟨content, v, there, holds, read⟩ := h.draft
  refine open_of_graph ?_ holds read
  rw [Project.draftPath_eq, h.leads.entry?_within (by decide), there]

theorem text (h : Openable folder g files) :
    ∃ text, g.toJson.text Json.Layout.document = .ok text := by
  obtain ⟨content, v, -, holds, read⟩ := h.draft
  exact text_of_holds holds read

end Openable

namespace Keeps

variable {files files' : FileTree}

theorem logs (h : Keeps start folder g files)
    (change : FileTree.Within (Project.LogPlace folder) files files') :
    Keeps start folder g files' := by
  obtain ⟨text, written, keeps⟩ := h
  exact ⟨text, written, keeps.logs change⟩

theorem leads (h : Keeps start folder g files) : files.Leads folder := by
  obtain ⟨text, written, keeps⟩ := h
  exact keeps.leads

/-- What is kept from one tree to the next is kept from the first one. -/
theorem trans {g' : Graph} (first : Keeps start folder g files)
    (second : Keeps files folder g' files') : Keeps start folder g' files' := by
  obtain ⟨text, -, before⟩ := first
  obtain ⟨text', written, after⟩ := second
  exact ⟨text', written, before.trans after⟩

/-- What happens from now on is told from the files that are there now. -/
theorem restart (h : Keeps start folder g files) : Keeps files folder g files := by
  obtain ⟨text, written, keeps⟩ := h
  exact ⟨text, written, fun _ => id, keeps.leads, keeps.below, keeps.draft, keeps.spare, rfl,
    fun _ => rfl⟩

/-- The graph whose draft is kept can be opened. -/
theorem openable (h : Keeps start folder g files) (proper : g.Proper) :
    Openable folder g files := by
  obtain ⟨text, written, keeps⟩ := h
  have placed : g.Placed := proper.entered.placed
  have holds := Content.holds_text Json.Layout.document placed.keyed written
  exact ⟨keeps.leads, keeps.below, ⟨_, _, keeps.draft, holds, proper.ofJson_toJson⟩,
    by simp [keeps.spare]⟩

theorem open_eq (h : Keeps start folder g files) (proper : g.Proper) :
    (DraftStore.file (draftPath folder) files).open? = .ok g := (h.openable proper).open_eq

/-- A save in a folder that is there keeps the graph. -/
theorem of_save {events : List Log.Event} (below : place folder ≠ []) (leads : files.Leads folder)
    (saved : Draft.save files (draftPath folder) g.toJson = (files', .ok events)) :
    Keeps files folder g files' :=
  Project.Keeps.of_save below leads saved

end Keeps

/-- What is known of the files of a project as long as nothing but logs is written. -/
structure Firm (folder : Path) (P : FileTree → Prop) : Prop where
  leads : ∀ files, P files → files.Leads folder
  logs : ∀ files files', P files → FileTree.Within (Project.LogPlace folder) files files' → P files'

theorem Keeps.firm : Firm folder (Keeps start folder g) := ⟨fun _ => leads, fun _ _ => logs⟩

theorem Openable.firm : Firm folder (Openable folder g) where
  leads files h := h.leads
  logs files files' h change := by
    have kept {name : String} (other : name ≠ "logs") (apart : name ≠ "debug.jsonl") :=
      change.others _ (Project.not_logPlace other apart)
    refine ⟨change.leads h.leads, h.below, ?_, ?_⟩
    · rw [kept (by decide) (by decide)]
      exact h.draft
    · rw [kept (by decide) (by decide)]
      exact h.spare

/-- Whether a command begins with files, a supply of ids and a console. -/
structure Begun (files : FileTree) (supply : IdSupply) (console : Console) (w : World) : Prop where
  files : w.files = files
  supply : w.supply = supply
  console : w.console = console

/-- Whether a program on a project is under way: the files are as they should be, ids come from a
supply, and events go to the log file of the project or to none. -/
structure Ready (P : FileTree → Prop) (folder : Path) (supply : IdSupply) (console : Console)
    (w : World) : Prop where
  files : P w.files
  supply : w.supply = supply
  console : w.console = console
  logs : w.log.LogsTo folder

/-- A command that begins, and logs to no file, is under way. -/
theorem Begun.ready {P : FileTree → Prop} {files : FileTree} {w : World}
    (h : Begun files supply console w) (quiet : w.log.file = none) (holds : P files) :
    w.files = files ∧ Ready P folder supply console w :=
  ⟨h.files, h.files ▸ holds, h.supply, h.console, .inl quiet⟩

/-- Whether a failure is that of a console to show something that is said. -/
def Console.Refuses (console : Console) (said : Printed → Prop) (f : Failure) : Prop :=
  ∃ p reason, said p ∧ console.problem? p = some reason ∧ f = .unshown p.heading reason

theorem Console.Refuses.mono {said more : Printed → Prop} {f : Failure}
    (h : console.Refuses said f) (wider : ∀ p, said p → more p) : console.Refuses more f :=
  h.imp fun p => Exists.imp fun _ => And.imp_left (wider p)

/-- Whether a command that ends early accounts for it: by what it has printed last, by a failure of
the console to show that, or by a failure that is let through. -/
def Accounts (console : Console) (aside : Printed → Prop) (escapes : Failure → Prop)
    (printed : List Printed) : Stop → Prop
  | .reported => ∃ before p, printed = before ++ [p] ∧ Tells aside p
  | .failed f => console.Refuses (Tells aside) f ∨ escapes f

theorem Accounts.mono {aside wider : Printed → Prop} {escapes more : Failure → Prop}
    {printed : List Printed} {stop : Stop} (h : Accounts console aside escapes printed stop)
    (lines : ∀ p, aside p → wider p) (failures : ∀ f, escapes f → more f) :
    Accounts console wider more printed stop := by
  cases stop with
  | reported =>
      obtain ⟨before, p, last, told⟩ := h
      exact ⟨before, p, last, told.imp_right (lines p)⟩
  | failed f => exact h.imp (·.mono fun p => Or.imp_right (lines p)) (failures f)

/-- The failures of setting up the log file of a project where something is in the way of it. -/
def LogFails (i : Invocation) (folder : Path) (files : FileTree) (f : Failure) : Prop :=
  i.toFile = true ∧ Project.LogBlocked folder files ∧ ∃ e, f = .file e

namespace Job

variable {P : FileTree → Prop} {before : World → Prop} {early : Stop → World → Prop} {α : Type}
  {files : FileTree} {aside : Printed → Prop} {escapes : Failure → Prop}

theorem ofExcept_ends {r : Except Failure α}
    (holds : ∀ w f, before w → r = .error f → early (.failed f) w) :
    Ends before (ofExcept r) (fun a w => r = .ok a ∧ before w) early := by
  cases r with
  | ok a => exact .answer fun _ known => ⟨rfl, known⟩
  | error f => exact .stop fun w known => holds w f known rfl

/-- Something is printed, or the command ends because the console cannot show it. -/
theorem print_ends {p : Printed} (after : Unit → World → Prop)
    (shown : ∀ w, before w → w.console.problem? p = none →
      after () { w with printed := w.printed ++ [p] })
    (unshown : ∀ w reason, before w → w.console.problem? p = some reason →
      early (.failed (.unshown p.heading reason)) w) : Ends before (print p) after early := by
  intro w known
  cases problem : w.console.problem? p with
  | none =>
      rw [print_shown problem]
      exact shown w known problem
  | some reason =>
      rw [print_unshown problem]
      exact unshown w reason known problem

/-- What is told before a command ends accounts for the end. -/
theorem tell_ends {p : Printed} {after : α → World → Prop} {kept : World → Prop}
    (tells : Tells aside p) (same : ∀ w, before w → w.console = console)
    (holds : ∀ w printed, before w → kept { w with printed }) :
    Ends before (do
      print p
      throw .reported) after
      (fun stop w => kept w ∧ Accounts console aside escapes w.printed stop) := by
  let Said (w : World) : Prop := kept w ∧ ∃ before, w.printed = before ++ [p]
  refine Ends.bind (print_ends (fun _ => Said) ?_ ?_) fun _ => .stop ?_
  · exact fun w known _ => ⟨holds w _ known, w.printed, rfl⟩
  · exact fun w reason known problem =>
      ⟨holds w _ known, .inl ⟨p, reason, tells, same w known ▸ problem, rfl⟩⟩
  · rintro w ⟨still, before, last⟩
    exact ⟨still, before, p, last, tells⟩

theorem refuse_ends {text : String} {after : α → World → Prop} {kept : World → Prop}
    (same : ∀ w, before w → w.console = console)
    (holds : ∀ w printed, before w → kept { w with printed }) :
    Ends before (refuse text) after
      (fun stop w => kept w ∧ Accounts console aside escapes w.printed stop) :=
  tell_ends (.inl ⟨text, rfl⟩) same holds

/-- A refusal ends the command, whatever the console shows. -/
theorem refuse_stops {text : String} {after : α → World → Prop}
    (holds : ∀ stop w printed, before w → early stop { w with printed }) :
    Ends before (refuse text) after early := by
  refine Ends.bind (print_ends (fun _ w => ∀ stop, early stop w) ?_ ?_) fun _ =>
    .stop fun _ ended => ended _
  · exact fun w known _ stop => holds stop w _ known
  · exact fun w _ known _ => holds _ w _ known

/-- Nothing is done behind a refusal. -/
theorem refuse_bind {β : Type} {text : String} {f : α → Job β} {after : β → World → Prop}
    {kept : World → Prop} (same : ∀ w, before w → w.console = console)
    (holds : ∀ w printed, before w → kept { w with printed }) :
    Ends before (refuse text >>= f) after
      (fun stop w => kept w ∧ Accounts console aside escapes w.printed stop) :=
  .halt (refuse_ends same holds)

theorem report_ends (firm : Firm folder P) {events : List Log.Event} :
    Ends (Ready P folder supply console) (report events)
      (fun _ => Ready P folder supply console) early :=
  .change fun _ h =>
    ⟨firm.logs _ _ h.files (Log.Session.recordAll_within h.logs), h.supply, h.console, h.logs⟩

/-- Setting logging up without a file changes no file and does not fail. -/
theorem configureLog_shown {verbosity : Nat} :
    Ends (Begun files supply console) (configureLog verbosity false none)
      (fun _ w => w.log.file = none ∧ Begun files supply console w) early := by
  refine .read fun w begun => ?_
  rcases set : w.log.configure w.files w.home verbosity false none with ⟨log, tree, r⟩
  obtain ⟨rfl, closed, rfl⟩ := Log.Session.configure_shown set
  rintro _ rfl
  exact ⟨closed, begun.files, begun.supply, begun.console⟩

/-- Setting logging up with a file in the folder of the project leaves the project as it is; it
fails only if something is in the way of the log file. -/
theorem configureLog_file (firm : Firm folder P) {verbosity : Nat} :
    Ends (fun w => w.files = files ∧ Ready P folder supply console w)
      (configureLog verbosity true (some folder)) (fun _ => Ready P folder supply console)
      (fun stop w => P w.files ∧ Project.LogBlocked folder files ∧
        ∃ e, stop = .failed (.file e)) := by
  refine .read fun w ⟨same, h⟩ => ?_
  rcases set : w.log.configure w.files w.home verbosity true (some folder) with ⟨log, tree, r⟩
  obtain ⟨change, opened, failed⟩ := Log.Session.configure_file (firm.leads _ h.files) set
  have kept := firm.logs _ _ h.files change
  cases r with
  | error f =>
      obtain ⟨blocked, e, rfl⟩ := failed f rfl
      rintro _ rfl
      exact ⟨kept, same ▸ blocked, e, rfl⟩
  | ok _ =>
      rintro _ rfl
      exact ⟨kept, h.supply, h.console, .inr (opened rfl)⟩

/-- A project is found in its folder, or it is said why not.  That is the configuration, unless
logging fails. -/
theorem requireProject_ends (firm : Firm folder P) {i : Invocation} {project : Option Path}
    (here : projectFolder files i.projects project = folder) :
    Ends (fun w => w.files = files ∧ Ready P folder supply console w) (requireProject i project)
      (fun found w => found.1 = folder ∧ Ready P folder supply console w)
      (fun stop w => P w.files ∧
        Accounts console (fun _ => False) (LogFails i folder files) w.printed stop ∧
        ∀ c, Project.loadConfig files folder = .ok c →
          ∃ f, stop = .failed f ∧ LogFails i folder files f) := by
  refine .reading fun w ⟨same, h⟩ => ?_
  rw [same, here]
  dsimp only
  -- It is told that there is no configuration only where none is read.
  have unread {stop : Stop} {w : World} {cause : Project.ConfigError}
      (failed : Project.loadConfig files folder = .error cause)
      (ended : P w.files ∧
        Accounts console (fun _ => False) (LogFails i folder files) w.printed stop) :
      P w.files ∧ Accounts console (fun _ => False) (LogFails i folder files) w.printed stop ∧
        ∀ c, Project.loadConfig files folder = .ok c →
          ∃ f, stop = .failed f ∧ LogFails i folder files f :=
    ⟨ended.1, ended.2, fun _ loaded => nomatch failed.symm.trans loaded⟩
  split
  next absent =>
    obtain ⟨_, missing⟩ := Project.loadConfig_missing (by simpa using absent)
    exact (refuse_bind (fun _ known => known.2.console) fun _ _ known => known.2.files).stopping
      fun _ _ => unread missing
  next =>
    split
    next e failed =>
      exact (refuse_ends (fun _ known => known.2.console) fun _ _ known => known.2.files).stopping
        fun _ _ => unread failed
    next config _ =>
      have bound (name : String) {early : Stop → World → Prop} :
          Ends (Ready P folder supply console)
            (do
              modify fun w : World => { w with log := w.log.bind name }
              pure (folder, config))
            (fun found w => found.1 = folder ∧ Ready P folder supply console w) early :=
        .bind (.change fun _ h => ⟨h.files, h.supply, h.console, h.logs⟩ :
          Ends _ _ (fun _ => Ready P folder supply console) _) fun _ => .answer fun _ h => ⟨rfl, h⟩
      split
      next toFile =>
        refine .bind ((configureLog_file firm).stopping ?_) fun _ => bound _
        rintro _ w ⟨kept, blocked, e, rfl⟩
        have fails : LogFails i folder files (.file e) := ⟨toFile, blocked, e, rfl⟩
        exact ⟨kept, .inr fails, fun _ _ => ⟨_, rfl, fails⟩⟩
      next => exact (bound _).starting fun _ => And.right

/-- A session keeps its draft in the files that it leaves. -/
theorem leaveSession_ends {s : Session} {left : IdSupply} (holds : s.Holds start folder g) :
    Ends (Ready P folder left console) (leaveSession s)
      (fun _ => Ready (Keeps start folder g) folder s.supply console) early := by
  obtain ⟨text, tree, written, store, keeps⟩ := holds
  refine .change fun w h => ⟨⟨text, written, ?_⟩, rfl, h.console, h.logs⟩
  simpa only [store] using keeps

/-- The graph of a project is opened, and saved as it is. -/
theorem openGraph_ends (opens : ∀ files, P files → Openable folder g files) :
    Ends (Ready P folder supply console) (openGraph folder)
      (fun s w => ∃ t, P t ∧ s.Follows t folder g supply ∧
        Ready (Keeps t folder g) folder supply console w) early := by
  intro w h
  have openable := opens _ h.files
  obtain ⟨text, written⟩ := openable.text
  obtain ⟨tree, events, saved, ran⟩ := openGraph_of_graph openable.leads openable.draft_ne
    openable.spare openable.open_eq written
  have keeps : Keeps w.files folder g (w.log.recordAll w.now tree events) :=
    (Keeps.of_save openable.below openable.leads saved).logs (Log.Session.recordAll_within h.logs)
  rw [ran]
  obtain ⟨text, written, kept⟩ := keeps
  exact ⟨w.files, h.files, ⟨rfl, h.supply, text, _, written, rfl, kept⟩,
    ⟨text, written, kept⟩, h.supply, h.console, h.logs⟩

/-- How a command ends with what has come of a piece of work, on a console. -/
def verdict (console : Console) (r : Except Obstacle String) : Except Stop Unit :=
  let saying (p : Printed) (ended : Except Stop Unit) : Except Stop Unit :=
    match console.problem? p with
    | none => ended
    | some reason => .error (.failed (.unshown p.heading reason))
  match r with
  | .ok text => saying (successLine text) (.ok ())
  | .error (.told p) => saying p (.error .reported)
  | .error (.failed f) => .error (.failed f)

theorem finish_ends {r : Except Obstacle String} :
    Ends (fun w => w.console = console) (finish r) (fun _ _ => verdict console r = .ok ())
      (fun stop _ => verdict console r = .error stop) := by
  have speaks {p : Printed} (after : Unit → World → Prop) {stopped : Stop → Prop}
      (shown : ∀ w, console.problem? p = none → after () w)
      (unshown : ∀ reason, console.problem? p = some reason →
        stopped (.failed (.unshown p.heading reason))) :
      Ends (fun w => w.console = console) (print p) after (fun stop _ => stopped stop) :=
    print_ends after (fun _ same free => shown _ (same ▸ free))
      fun _ _ same problem => unshown _ (same ▸ problem)
  match r with
  | .ok text =>
      exact speaks _ (fun _ free => by simp only [verdict, free])
        fun _ problem => by simp only [verdict, problem]
  | .error (.told p) =>
      refine .bind (speaks (fun _ _ => console.problem? p = none) (fun _ free => free) ?_)
        fun _ => .stop ?_
      · exact fun _ problem => by simp only [verdict, problem]
      · exact fun _ free => by simp only [verdict, free]
  | .error (.failed f) => exact .stop fun _ _ => rfl

/-- What an edit command leaves that ends early: the draft as it was, which it accounts for, or the
one behind its edits, where the console cannot show that it succeeded. -/
def EndsEarly (P : FileTree → Prop) (folder : Path) (g g' : Graph) (console : Console)
    (e : EditCommand) (escapes : Failure → Prop) (stop : Stop) (w : World) : Prop :=
  ((P w.files ∨ ∃ t, P t ∧ Keeps t folder g w.files) ∧
    Accounts console e.Aside escapes w.printed stop) ∨
  (∃ t, P t ∧ Keeps t folder g' w.files) ∧ ∃ f, stop = .failed f ∧ console.Refuses e.Succeeds f

theorem EndsEarly.accounts {g' : Graph} {e : EditCommand} {stop : Stop} {w : World}
    (h : EndsEarly P folder g g' console e escapes stop w) :
    Accounts console e.Aside (fun f => console.Refuses e.Succeeds f ∨ escapes f) w.printed
      stop := by
  obtain ⟨-, accounts⟩ | ⟨-, f, rfl, refused⟩ := h
  · exact accounts.mono (fun _ => id) fun _ => .inr
  · exact .inr (.inl refused)

/-- An edit command leads on to the graph after the edits that it asks for, or ends early. -/
theorem runEdit_ends (firm : Firm folder P) (opens : ∀ files, P files → Openable folder g files)
    {i : Invocation} {project : Option Path} {e : EditCommand}
    (here : projectFolder files i.projects project = folder) :
    Ends (fun w => w.files = files ∧ Ready P folder supply console w) (runEdit i project e)
      (fun _ w => ∃ t, P t ∧ Keeps t folder (g.after supply (e.edits g supply)) w.files)
      (EndsEarly P folder g (g.after supply (e.edits g supply)) console e
        fun f => LogFails i folder files f ∨ e.Misuses g f) := by
  refine .bind ((requireProject_ends firm here).stopping fun stop w ended =>
    .inl ⟨.inl ended.1, ended.2.1.mono (fun _ => False.elim) fun _ => .inl⟩) fun found =>
      .known fun same => ?_
  obtain ⟨there, config⟩ := found
  obtain rfl : folder = there := same.symm
  refine .bind (openGraph_ends opens) fun session => .given fun t => .known fun known =>
    .known fun follows => ?_
  dsimp only
  have placed : g.Placed := (opens t known).proper.entered.placed
  have works : Ends (fun d => d.session.Follows t folder g supply) e.work _ _ := e.work_ends placed
  obtain ⟨text, desk, run, announces, left, follows⟩ | ⟨obstacle, desk, run, accounts, kept⟩ :=
    works.outcome (s := { session }) follows <;> rw [run]
  · refine .bind (leaveSession_ends follows.holds) fun _ => .bind (report_ends Keeps.firm) fun _ =>
      print_ends _ (fun w h _ => ⟨t, known, h.files⟩) fun w reason h problem => ?_
    exact .inr ⟨⟨t, known, h.files⟩, _, rfl, successLine text, reason, ⟨text, announces, rfl⟩,
      h.console ▸ problem, rfl⟩
  · refine .bind (leaveSession_ends kept) fun _ => .bind (report_ends Keeps.firm) fun _ => ?_
    have left {stop : Stop} {w : World} (ended : Keeps t folder g w.files ∧
        Accounts console e.Aside (e.Misuses g) w.printed stop) :
        EndsEarly P folder g (g.after supply (e.edits g supply)) console e
          (fun f => LogFails i folder files f ∨ e.Misuses g f) stop w :=
      .inl ⟨.inr ⟨t, known, ended.1⟩, ended.2.mono (fun _ => id) fun _ => .inr⟩
    cases obstacle with
    | told p =>
        exact (tell_ends accounts (fun _ h => h.console) fun _ _ h => h.files).stopping
          fun _ _ => left
    | failed f => exact .stop fun w h => left ⟨h.files, .inr accounts⟩

/-- The options of the program do not matter for the end of an edit command. -/
theorem runInvocation_of_runEdit {after : Unit → World → Prop} {i : Invocation}
    {project : Option Path} {e : EditCommand} (asks : i.command = .edit project e) (holds : P files)
    (ends : Ends (fun w => w.files = files ∧ Ready P folder supply console w) (runEdit i project e)
      after early) :
    Ends (Begun files supply console) (runInvocation i) after early := by
  rw [runInvocation, asks]
  refine .bind configureLog_shown fun _ => ?_
  exact ends.starting fun w ⟨quiet, begun⟩ => begun.ready quiet holds

/-- What holds of an edit command holds of it with the options of the program. -/
theorem runInvocation_edit (firm : Firm folder P)
    (opens : ∀ files, P files → Openable folder g files) {i : Invocation} {project : Option Path}
    {e : EditCommand} (asks : i.command = .edit project e)
    (here : projectFolder files i.projects project = folder) (holds : P files) :
    Ends (Begun files supply console) (runInvocation i)
      (fun _ w => ∃ t, P t ∧ Keeps t folder (g.after supply (e.edits g supply)) w.files)
      (EndsEarly P folder g (g.after supply (e.edits g supply)) console e
        fun f => LogFails i folder files f ∨ e.Misuses g f) :=
  runInvocation_of_runEdit asks holds (runEdit_ends firm opens here)

/-- Where a project is found and its graph is opened, a command ends as its work does. -/
theorem runEdit_of_work (ended : Except Stop Unit → Prop)
    (opens : ∀ files, P files → Openable folder g files) {i : Invocation} {project : Option Path}
    {e : EditCommand}
    (finds : Ends (fun w => w.files = files ∧ Ready P folder supply console w)
      (requireProject i project) (fun found w => found.1 = folder ∧ Ready P folder supply console w)
      fun stop _ => ended (.error stop))
    (works : ∀ t, Openable folder g t → Ends (fun d => d.session.Follows t folder g supply) e.work
      (fun text _ => ended (verdict console (.ok text)))
      fun obstacle _ => ended (verdict console (.error obstacle))) :
    Ends (fun w => w.files = files ∧ Ready P folder supply console w) (runEdit i project e)
      (fun _ _ => ended (.ok ())) fun stop _ => ended (.error stop) := by
  refine .bind finds fun found => .known fun same => ?_
  obtain ⟨there, config⟩ := found
  obtain rfl : folder = there := same.symm
  refine .bind (openGraph_ends opens) fun session => .given fun t => .known fun known =>
    .known fun follows => ?_
  dsimp only
  -- What is left of the session and its events are taken over in either case.
  have finishes (r : Except Obstacle String) (holds : ended (verdict console r)) (desk : Desk) :
      Ends (Ready (Keeps t folder g) folder supply console)
        (do
          leaveSession desk.session
          report desk.events
          finish r)
        (fun _ _ => ended (.ok ())) fun stop _ => ended (.error stop) := by
    have kept {f : World → World} (same : ∀ w, (f w).console = w.console) :
        Ends (fun w => w.console = console) (modify f : Job Unit)
          (fun _ w => w.console = console) fun stop _ => ended (.error stop) :=
      .change fun w h => (same w).trans h
    refine Ends.starting ?_ fun w (h : Ready _ _ _ _ w) => h.console
    refine .bind (kept fun _ => rfl) fun _ => .bind (kept fun _ => rfl) fun _ => ?_
    exact (finish_ends.ending fun _ _ same => same ▸ holds).stopping fun _ _ same => same ▸ holds
  obtain ⟨text, desk, run, holds⟩ | ⟨obstacle, desk, run, holds⟩ :=
    (works t (opens t known)).outcome (s := { session }) follows <;> rw [run] <;>
    exact finishes _ holds desk

section Making

variable {P Q : FileTree → Prop} {β : Type} {after : β → World → Prop} {name npc : String}
  {parent : Path}

/-- Whether there is no log file, and the files are as they should be. -/
def Quiet (P : FileTree → Prop) (w : World) : Prop := w.log.file = none ∧ P w.files

/-- The files are replaced by what an operation on them answers. -/
theorem replace_ends (f : FileTree → Except Failure FileTree) {rest : Job β}
    (effect : ∀ t t', P t → f t = .ok t' → Q t')
    (next : Ends (Quiet Q) rest after fun _ _ => True) :
    Ends (Quiet P)
      (do
        setFiles (← ofExcept (f (← get).files))
        rest)
      after (fun _ _ => True) := by
  refine .read fun w ⟨quiet, holds⟩ => ?_
  refine .bind (ofExcept_ends fun _ _ _ _ => trivial) fun files => .known fun done => ?_
  refine .bind (.change ?_) fun _ => next
  rintro _ rfl
  exact ⟨quiet, effect _ _ holds done⟩

/-- The files are changed by an operation. -/
theorem changeFiles_ends (f : FileTree → FileTree × Except FileError Unit)
    (effect : ∀ t t', P t → f t = (t', .ok ()) → Q t') :
    Ends (Quiet P) (changeFiles f) (fun _ => Quiet Q) (fun _ _ => True) := by
  refine .read fun w ⟨quiet, holds⟩ => ?_
  rcases done : f w.files with ⟨files, _ | _⟩
  · rintro _ rfl
    trivial
  · rintro _ rfl
    exact ⟨quiet, effect _ _ holds done⟩

/-- A project that is made has a draft of the empty graph. -/
theorem makeProject_ends :
    Ends (Quiet fun _ => True) (makeProject name parent npc)
      (fun made w => made = parent.child name ∧ Keeps w.files made .empty w.files)
      (fun _ _ => True) := by
  let folder := parent.child name
  refine .bind (changeFiles_ends (Q := fun _ => True) (·.makeFolders parent)
    fun _ _ _ _ => trivial) fun _ => .reading fun w quiet => ?_
  dsimp only
  split
  next => exact .halt (refuse_stops fun _ _ _ _ => trivial)
  next =>
    refine .bind (changeFiles_ends (Q := fun _ => FileTree.place folder ≠ [])
      (·.makeNewFolder folder) fun t t' _ made => ?_) fun _ => ?_
    · obtain ⟨before, made⟩ := FileTree.makeNewFolder_eq_ok made
      exact FileTree.place_ne_nil made
    refine replace_ends (Q := fun t => FileTree.place folder ≠ [] ∧ t.Leads folder)
      (fun t => Project.saveConfig t folder { name, npc }) ?_ ?_
    · exact fun t t' below saved => ⟨below, Project.leads_of_saveConfig saved⟩
    refine .read fun w ⟨quiet, below, leads⟩ => ?_
    rcases saved : Draft.save w.files (draftPath folder) Graph.empty.toJson with ⟨files, r⟩
    cases r with
    | error f => exact fun _ _ => trivial
    | ok events =>
        have keeps := (Keeps.of_save below leads saved).restart
        let Made : World → Prop := fun w => w.log.file = none ∧ Keeps files folder .empty w.files
        refine .bind (.change fun t same => ?_ : Ends _ _ (fun _ => Made) _) fun _ => ?_
        · exact same ▸ ⟨quiet, keeps⟩
        refine .bind (.answer fun _ => id : Ends _ _ (fun _ => Made) _) fun events => ?_
        refine .bind (.change fun t made => ?_ : Ends _ _ (fun _ => Made) _) fun _ => ?_
        · exact ⟨made.1, made.2.logs (Log.Session.recordAll_within (.inl made.1))⟩
        exact .answer fun t made => ⟨rfl, made.2.restart⟩

end Making

end Job

end Command

end Parley
