import Parley.Proofs.Command.Lines
import Parley.Proofs.Document.File
import Parley.Proofs.Project.Lasting

/-!
# What command lines leave in a project

Whatever a command line asks for, and however it ends, it keeps what `Lasting` describes.  The proof
follows the commands: each operation on files is one that keeps it, logs go to the log file of some
project, and the graphs that are saved are ones that can be read again.  Command lines one after the
other then keep it too, and with it the graph in the draft of a project that was made before them.
-/

namespace Parley

open Project (draftPath)

variable {P : FileTree → Prop} {Q : Path → Graph → Prop} {K : Path → Config → Prop}

namespace Log.Session

variable {s s' : Session} {t t' : FileTree} {r : Except Failure Unit}

/-- Whether events go to the log file of some project or to none. -/
def Located (s : Session) : Prop := ∃ folder, s.LogsTo folder

theorem recordAll_lasts (outlasts : Outlasts P Q K) (located : s.Located) {now : String}
    {events : List Event} (holds : P t) : P (s.recordAll now t events) := by
  obtain ⟨folder, logged⟩ := located
  exact recordAll_keeps logged (fun t lines t' => outlasts.log t folder lines t') holds

/-- Setting logging up makes folders and a log file at most. -/
theorem configure_lasts (lasting : Lasting P Q K) {home : String} {verbosity : Nat} {folder : Path}
    (located : s.Located) (holds : P t)
    (set : s.configure t home verbosity true (some folder) = (s', t', r)) : s'.Located ∧ P t' := by
  obtain ⟨rank, level⟩ := shownRank?_ofNat verbosity
  have closed : s.close.file = s.file := by
    rw [close]
    split <;> rfl
  have kept : Located { s.close with folder := some (folderOf folder) } := by
    obtain ⟨p, logs⟩ := located
    exact ⟨p, logs.imp closed.trans closed.trans⟩
  obtain ⟨e, made, rfl, -⟩ | ⟨tree, made, opening⟩ := configure_toFile level set <;>
    have holds := made ▸ lasting.folders t (folderOf folder) holds
  · exact ⟨kept, holds⟩
  · obtain ⟨e, -, rfl, rfl, -⟩ | ⟨opened, rfl, -⟩ := opening
    · exact ⟨kept, holds⟩
    · rw [openFile] at opened
      split at opened
      next => cases opened
      next => exact ⟨⟨folder, .inr rfl⟩, lasting.log _ _ _ _ holds opened⟩

end Log.Session

namespace Session

variable {s : Session} {e : Edit}

/-- Whether a session saves its graph in the folder of a project, where the files and the graph are
as they should be. -/
structure Lasts (P : FileTree → Prop) (Q : Path → Graph → Prop) (s : Session) : Prop where
  store : ∃ folder tree, s.store = some (.file (draftPath folder) tree) ∧ P tree ∧ Q folder s.graph

theorem Lasts.save (lasting : Lasting P Q K) (h : s.Lasts P Q) : s.save.1.Lasts P Q := by
  obtain ⟨folder, tree, store, holds, right⟩ := h
  refine ⟨folder, (Draft.save tree (draftPath folder) s.graph.toJson).1, ?_,
    lasting.draft _ _ _ holds right, by rwa [save_graph]⟩
  rw [Session.save, store]
  rfl

/-- An edit that copies nothing leaves such a session, whether or not it succeeds. -/
theorem Lasts.edit (lasting : Lasting P Q K) (h : s.Lasts P Q) (typed : e.Typed)
    (single : ¬ e.Copies) : (s.edit e).1.Lasts P Q := by
  obtain ⟨folder, tree, store, holds, right⟩ := h
  have still : Q folder (s.graph.edit s.supply e).graph :=
    (lasting.graphs folder).edit _ _ _ right typed single
  cases changed : (s.graph.edit s.supply e).changed with
  | true =>
      rw [edit_of_changed changed]
      exact Lasts.save lasting ⟨folder, tree, store, holds, still⟩
  | false =>
      simp only [Session.edit, changed]
      exact ⟨folder, tree, store, holds, still⟩

end Session

namespace Command

namespace Work

variable {α : Type}

/-- Whether a piece of work keeps a session that lasts. -/
abbrev Lasts (P : FileTree → Prop) (Q : Path → Graph → Prop) (x : Work α) : Prop :=
  Stays (fun d => d.session.Lasts P Q) x

theorem report_lasts {events : List Log.Event} : Lasts P Q (report events) := .change fun _ => id

theorem fail_lasts {f : Failure} : Lasts P Q (fail f : Work α) := by
  rw [fail]
  split
  next => exact Stays.stop
  next => exact Stays.stop

theorem ofExcept_lasts {r : Except Failure α} : Lasts P Q (ofExcept r) := by
  cases r with
  | ok a => exact .answer
  | error f => exact fail_lasts

theorem node_lasts {id context : String} : Lasts P Q (node id context) :=
  .read fun _ _ => ofExcept_lasts

theorem edit_lasts (lasting : Lasting P Q K) {e : Edit} (typed : e.Typed) (single : ¬ e.Copies) :
    Lasts P Q (edit e) := by
  refine .read fun d holds => ?_
  exact .bind (.write (holds.edit lasting typed single)) fun _ => .bind ofExcept_lasts fun _ =>
    .bind report_lasts fun _ => .answer

theorem addNode_lasts (lasting : Lasting P Q K) {kind : String} {id text : Option String}
    {x y : Binary64} : Lasts P Q (addNode kind id x y text) := by
  refine .bind (edit_lasts lasting trivial not_false) fun answer => ?_
  cases answer with
  | node n =>
      cases text with
      | none => exact .bind report_lasts fun _ => .answer
      | some text =>
          exact .bind (edit_lasts lasting trivial not_false) fun _ =>
            .bind report_lasts fun _ => .answer
  | _ => exact .answer

theorem connect_lasts (lasting : Lasting P Q K) {source target : String} {branch : Option Bool} :
    Lasts P Q (connect source target branch) := by
  refine .bind node_lasts fun s => .bind node_lasts fun t => ?_
  cases sourcePort s.kind branch with
  | none => exact Stays.stop
  | some output =>
      cases targetPort t.kind with
      | none => exact Stays.stop
      | some input =>
          refine .bind (edit_lasts lasting trivial not_false) fun answer => ?_
          dsimp only
          split
          next =>
            refine .bind (edit_lasts lasting trivial not_false) fun _ => ?_
            cases answer with
            | edge e => exact .bind report_lasts fun _ => .answer
            | _ => exact Stays.answer
          next =>
            cases answer with
            | edge e => exact .bind report_lasts fun _ => .answer
            | _ => exact Stays.answer

theorem removeEdges_lasts (lasting : Lasting P Q K) {ids : List String} :
    Lasts P Q (removeEdges ids) := by
  induction ids with
  | nil => exact .answer
  | cons id ids ih => exact .bind (edit_lasts lasting trivial not_false) fun _ => ih

theorem disconnect_lasts (lasting : Lasting P Q K) {source target : String} :
    Lasts P Q (disconnect source target) := by
  refine .read fun d _ => ?_
  dsimp only
  split
  next => exact Stays.stop
  next => exact .bind (removeEdges_lasts lasting) fun _ => .answer

theorem removeNode_lasts (lasting : Lasting P Q K) {id : String} : Lasts P Q (removeNode id) := by
  refine .bind (edit_lasts lasting trivial not_false) fun answer => ?_
  cases answer with
  | edges removed => exact .bind report_lasts fun _ => .answer
  | _ => exact .answer

theorem setField_lasts (lasting : Lasting P Q K) {id field value : String} :
    Lasts P Q (setField id field value) :=
  .bind node_lasts fun _ => .bind ofExcept_lasts fun _ =>
    .bind (edit_lasts lasting trivial not_false) fun _ => .answer

theorem addExecutor_lasts (lasting : Lasting P Q K) {result type value : String}
    {key : Option String} : Lasts P Q (addExecutor result type value key) := by
  rw [addExecutor]
  split
  next => exact fail_lasts
  next =>
    exact .bind ofExcept_lasts fun _ => .bind (edit_lasts lasting trivial not_false) fun _ =>
      .answer

end Work

theorem EditCommand.work_lasts (lasting : Lasting P Q K) (c : EditCommand) :
    Work.Lasts P Q c.work := by
  cases c with
  | addNode => exact Work.addNode_lasts lasting
  | connect => exact Work.connect_lasts lasting
  | disconnect => exact Work.disconnect_lasts lasting
  | removeNode => exact Work.removeNode_lasts lasting
  | setField => exact Work.setField_lasts lasting
  | addExecutor => exact Work.addExecutor_lasts lasting

/-- The graph that is opened is the empty one, or the draft holds it. -/
theorem held_of_open {path : Path} {t : FileTree} {g : Graph}
    (opened : (DraftStore.file path t).open? = .ok g) : g = .empty ∨ ∃ content v,
      t.entry? path = some (.file content) ∧ content.Holds v ∧ Graph.ofJson v = .ok g := by
  cases entry : t.entry? path with
  | none =>
      rw [DraftStore.open?, DraftStore.load, Draft.load, FileTree.has, entry] at opened
      cases opened
      exact .inl rfl
  | some e =>
      cases e with
      | folder =>
          rw [DraftStore.open?, DraftStore.load, Draft.load, FileTree.has, entry] at opened
          simp only [FileTree.readText, FileTree.content, entry] at opened
          cases opened
      | file content =>
          obtain ⟨v, g', holds, read, same⟩ | ⟨e, -, failed⟩ | ⟨e, failed, -⟩ := open_cases entry
          · cases same.symm.trans opened
            exact .inr ⟨content, v, rfl, holds, read⟩
          · cases failed.symm.trans opened
          · cases failed.symm.trans opened

/-- The graph that is opened is one that can be kept. -/
theorem proper_of_open {store : DraftStore} {g : Graph} (opened : store.open? = .ok g) :
    g.Proper := by
  obtain ⟨draft, -, read⟩ := bind_eq_ok.mp opened
  cases draft with
  | none =>
      cases read
      exact .empty
  | some v => exact .of_ofJson read

/-- Whether the files are as they should be, events go to the log file of some project or to none,
and things are printed on a console. -/
structure World.Lasts (P : FileTree → Prop) (console : Console) (w : World) : Prop where
  files : P w.files
  logs : w.log.Located
  console : w.console = console

namespace Job

variable {α β : Type} {console : Console}

/-- Whether a command keeps a state that lasts. -/
abbrev Lasts (P : FileTree → Prop) (console : Console) (x : Job α) : Prop :=
  Stays (World.Lasts P console) x

theorem print_lasts {p : Printed} : Lasts P console (print p) :=
  print_ends _ (fun _ h _ => ⟨h.files, h.logs, h.console⟩) fun _ _ h _ => h

/-- A refusal keeps a state that lasts, whatever a success would keep. -/
theorem refuse_lasts {text : String} {after : α → World → Prop} :
    Ends (World.Lasts P console) (refuse text) after (fun _ => World.Lasts P console) :=
  refuse_stops fun _ _ _ h => ⟨h.files, h.logs, h.console⟩

/-- Nothing is done behind a refusal. -/
theorem refuse_lasts_bind {text : String} {f : α → Job β} :
    Lasts P console (refuse text >>= f) :=
  .halt refuse_lasts

theorem ofExcept_lasts {r : Except Failure α} : Lasts P console (ofExcept r) := by
  cases r with
  | ok a => exact .answer
  | error f => exact .stop

theorem report_lasts (outlasts : Outlasts P Q K) {events : List Log.Event} :
    Lasts P console (report events) :=
  .change fun _ h => ⟨Log.Session.recordAll_lasts outlasts h.logs h.files, h.logs, h.console⟩

/-- Files that are as they should be may take the place of any. -/
theorem setFiles_becomes {P' : FileTree → Prop} {early : Stop → World → Prop} {files : FileTree}
    (holds : P files) :
    Ends (World.Lasts P' console) (setFiles files) (fun _ => World.Lasts P console) early :=
  .change fun _ h => ⟨holds, h.logs, h.console⟩

theorem setFiles_lasts {files : FileTree} (holds : P files) : Lasts P console (setFiles files) :=
  setFiles_becomes holds

/-- The files are replaced by what an operation on them answers. -/
theorem replace_becomes {P' : FileTree → Prop} {after : β → World → Prop}
    {early : Stop → World → Prop} (f : FileTree → Except Failure FileTree) {rest : Job β}
    (effect : ∀ t t', P t → f t = .ok t' → P' t')
    (stops : ∀ stop w, World.Lasts P console w → early stop w)
    (next : Ends (World.Lasts P' console) rest after early) :
    Ends (World.Lasts P console) (do
      setFiles (← ofExcept (f (← get).files))
      rest) after early := by
  refine .reading fun w h => ?_
  refine .bind (ofExcept_ends fun w _ h _ => stops _ w h) fun files => .known fun done => ?_
  exact .bind (setFiles_becomes (effect _ _ h.files done)) fun _ => next

theorem replace_lasts (f : FileTree → Except Failure FileTree) {rest : Job β}
    (effect : ∀ t t', P t → f t = .ok t' → P t') (next : Lasts P console rest) :
    Lasts P console (do
      setFiles (← ofExcept (f (← get).files))
      rest) :=
  replace_becomes f effect (fun _ _ => id) next

theorem configureLog_lasts (lasting : Lasting P Q K) {verbosity : Nat} {folder : Path} :
    Lasts P console (configureLog verbosity true (some folder)) := by
  refine .read fun w h => ?_
  rcases set : w.log.configure w.files w.home verbosity true (some folder) with ⟨log, tree, r⟩
  obtain ⟨located, holds⟩ := Log.Session.configure_lasts lasting h.logs h.files set
  exact .bind (.write ⟨holds, located, h.console⟩) fun _ => ofExcept_lasts

/-- The configuration of a project is loaded as one that may be saved there. -/
theorem requireProject_lasts (lasting : Lasting P Q K) {i : Invocation} {project : Option Path} :
    Ends (World.Lasts P console) (requireProject i project)
      (fun found w => K found.1 found.2 ∧ World.Lasts P console w)
      (fun _ => World.Lasts P console) := by
  refine .read fun w h => ?_
  refine .starting ?_ fun t (same : t = w) => (same ▸ h : World.Lasts P console t)
  have bound {name : String} :
      Lasts P console (modify fun w : World => { w with log := w.log.bind name }) :=
    .change fun _ h => ⟨h.files, h.logs, h.console⟩
  dsimp only
  split
  next => exact .halt refuse_lasts
  next =>
    split
    next => exact refuse_lasts
    next c loaded =>
      have right := lasting.loaded _ _ _ h.files loaded
      split
      next =>
        exact .bind (configureLog_lasts lasting) fun _ => .bind bound fun _ =>
          .answer fun _ h => ⟨right, h⟩
      next => exact .bind bound fun _ => .answer fun _ h => ⟨right, h⟩

/-- A session takes over the files of the command, and leaves its own. -/
theorem leaveSession_lasts {s : Session} (h : s.Lasts P Q) : Lasts P console (leaveSession s) := by
  obtain ⟨folder, tree, store, holds, -⟩ := h.store
  refine .change fun w known => ⟨?_, known.logs, known.console⟩
  simpa only [store] using holds

/-- The graph of a project is opened as one that may be saved there. -/
theorem openGraph_lasts (lasting : Lasting P Q K) {folder : Path} :
    Ends (World.Lasts P console) (openGraph folder)
      (fun s w => s.Lasts P Q ∧ World.Lasts P console w) (fun _ => World.Lasts P console) := by
  refine .read fun w h => ?_
  refine .starting ?_ fun t (same : t = w) => (same ▸ h : World.Lasts P console t)
  dsimp only
  split
  next => exact .stop fun _ => id
  next =>
    split
    next => exact refuse_lasts
    next => exact .stop fun _ => id
  next session saved started =>
    obtain ⟨g, opened, same⟩ := map_eq_ok.mp started
    have right : Q folder g := by
      obtain rfl | ⟨content, v, entry, holds, read⟩ := held_of_open opened
      · exact (lasting.graphs folder).empty
      · exact lasting.opened _ _ _ _ _ h.files entry holds read
    have start : Session.Lasts P Q
        { graph := g, supply := w.supply, store := some (.file (draftPath folder) w.files) } :=
      ⟨folder, w.files, rfl, h.files, right⟩
    obtain rfl : _ = session := congrArg Prod.fst same
    refine .bind (leaveSession_lasts (start.save lasting)) fun _ => ?_
    refine .bind ofExcept_lasts fun events => .bind (report_lasts lasting.toOutlasts) fun _ => ?_
    refine .read fun _ known => .answer ?_
    rintro v rfl
    exact ⟨⟨folder, v.files, rfl, known.files, by rwa [Session.save_graph]⟩, known⟩

theorem finish_lasts {r : Except Obstacle String} : Lasts P console (finish r) :=
  match r with
  | .ok _ => print_lasts
  | .error (.told _) => .bind print_lasts fun _ => .stop
  | .error (.failed _) => .stop

theorem runEdit_lasts (lasting : Lasting P Q K) {i : Invocation} {project : Option Path}
    {e : EditCommand} : Lasts P console (runEdit i project e) := by
  refine Ends.bind (requireProject_lasts lasting) fun found => .known fun _ => ?_
  refine Ends.bind (openGraph_lasts lasting) fun session => .known fun opened => ?_
  dsimp only
  obtain ⟨_, desk, run, left⟩ | ⟨obstacle, desk, run, left⟩ :=
    Ends.outcome (e.work_lasts lasting) (s := { session }) opened <;> rw [run] <;>
  exact .bind (leaveSession_lasts left) fun _ => .bind (report_lasts lasting.toOutlasts) fun _ =>
    finish_lasts

/-- The draft of an empty graph is written into the folder of a project. -/
theorem startDraft_lasts (outlasts : Outlasts P Q K) {folder : Path} (right : Q folder .empty) :
    Lasts P console (do
      let (files, saved) := Draft.save (← get).files (draftPath folder) Graph.empty.toJson
      setFiles files
      report (← ofExcept saved)
      pure folder) := by
  refine .read fun w h => ?_
  refine .bind (setFiles_lasts (outlasts.draft _ folder _ h.files right)) fun _ => ?_
  exact .bind ofExcept_lasts fun _ => .bind (report_lasts outlasts) fun _ => .answer

/-- A configuration and the draft of an empty graph are written into the folder of a project. -/
theorem fillProject_lasts (outlasts : Outlasts P Q K) {c : Config} {folder : Path}
    (right : Q folder .empty) (settled : K folder c) :
    Lasts P console (do
      setFiles (← ofExcept (Project.saveConfig (← get).files folder c))
      let (files, saved) := Draft.save (← get).files (draftPath folder) Graph.empty.toJson
      setFiles files
      report (← ofExcept saved)
      pure folder) :=
  replace_lasts (fun t => Project.saveConfig t folder c)
    (fun _ _ h saved => outlasts.config _ _ _ _ h settled saved) (startDraft_lasts outlasts right)

/-- The files are changed by an operation, whether or not it succeeds. -/
theorem changeFiles_lasts (f : FileTree → FileTree × Except FileError Unit)
    (effect : ∀ t, P t → P (f t).1) : Lasts P console (changeFiles f) :=
  .read fun _ h => .bind (setFiles_lasts (effect _ h.files)) fun _ => ofExcept_lasts

/-- A folder for a project is made and filled. -/
theorem makeProject_lasts (lasting : Lasting P Q K) {name npc : String} {parent : Path} :
    Lasts P console (makeProject name parent npc) := by
  refine .bind (changeFiles_lasts (·.makeFolders parent) fun t => lasting.folders t parent)
    fun _ => .read fun w h => ?_
  dsimp only
  split
  next => exact refuse_lasts_bind
  next =>
    exact .bind (changeFiles_lasts (·.makeNewFolder (parent.child name)) fun t =>
      lasting.newFolder t _) fun _ => fillProject_lasts lasting.toOutlasts (lasting.graphs _).empty
        ((lasting.configs _).made name npc)

/-- What is said of a new project changes nothing. -/
theorem init_becomes {before : World → Prop} {early : Stop → World → Prop} {i : Invocation}
    {name npc : String} {parent : Option Path}
    (made : Ends before (makeProject name (parent.getD i.projects) npc)
      (fun _ => World.Lasts P console) early)
    (stops : ∀ stop w, World.Lasts P console w → early stop w) :
    Ends before (init i name parent npc) (fun _ => World.Lasts P console) early := by
  refine .bind made fun folder => Ends.stopping ?_ stops
  refine Stays.bind print_lasts fun _ => .read fun _ _ => .bind print_lasts fun _ => ?_
  exact .bind print_lasts fun _ => .bind print_lasts fun _ => print_lasts

theorem init_lasts (lasting : Lasting P Q K) {i : Invocation} {name npc : String}
    {parent : Option Path} : Lasts P console (init i name parent npc) :=
  init_becomes (makeProject_lasts lasting) fun _ _ => id

theorem forM_lasts {γ : Type} {f : γ → Job PUnit} (each : ∀ a, Lasts P console (f a))
    (as : List γ) :
    Lasts P console (as.forM f) := by
  induction as with
  | nil => exact .answer
  | cons a as ih =>
      rw [List.forM_eq_forM, List.forM_cons]
      exact .bind (each a) fun _ => ih

/-- A document is written, and something is said about its file. -/
theorem writeDocument_lasts (lasting : Lasting P Q K) {target : Path} {name : String} {d : Document}
    {events : Path → List Log.Event} {p q : Path → Printed} :
    Lasts P console (do
      let w ← get
      setFiles (DocumentFile.write w.files target name d).1
      let file ← ofExcept (DocumentFile.write w.files target name d).2
      report (events file)
      print (p file)
      print (q file)) := by
  refine .read fun w h => .bind (setFiles_lasts (lasting.document _ _ _ _ h.files)) fun _ => ?_
  refine .bind ofExcept_lasts fun _ => .bind (report_lasts lasting.toOutlasts) fun _ => ?_
  exact .bind print_lasts fun _ => print_lasts

theorem exportDocument_lasts (lasting : Lasting P Q K) {i : Invocation}
    {project output : Option Path} :
    Lasts P console (exportDocument i project output) := by
  refine Ends.bind (requireProject_lasts lasting) fun found => .known fun _ => ?_
  refine Ends.bind (openGraph_lasts lasting) fun session => .known fun _ => ?_
  dsimp only
  split
  next => exact refuse_lasts_bind
  next =>
    refine Stays.bind ofExcept_lasts fun interaction => ?_
    split
    next => exact refuse_lasts
    next document warnings _ =>
      refine .bind (forM_lasts (fun _ => print_lasts) warnings) fun _ => ?_
      cases output with
      | some target => exact .bind .answer fun _ => writeDocument_lasts lasting
      | none => exact .bind ofExcept_lasts fun _ => writeDocument_lasts lasting

/-- A dialogue is loaded of a value whose numbers can be written. -/
theorem readDialogue_lasts (outlasts : Outlasts P Q K) {file : Path} :
    Ends (World.Lasts P console) (readDialogue file)
      (fun l w => (∃ v events, v.Short ∧ load v = (.ok (.ok l), events)) ∧
        World.Lasts P console w)
      (fun _ => World.Lasts P console) := by
  refine .read fun w h => ?_
  refine .starting ?_ fun t (same : t = w) => (same ▸ h : World.Lasts P console t)
  refine Ends.bind (ofExcept_ends fun _ _ known _ => known) fun r => .known fun found => ?_
  cases r with
  | error e => exact refuse_lasts
  | ok fields =>
      have short : (Json.obj fields).Short := DocumentFile.short_of_read found
      dsimp only
      rcases read : load (.obj fields) with ⟨r, events⟩
      refine .bind (report_lasts outlasts) fun _ => ?_
      refine .bind (ofExcept_ends fun _ _ known _ => known) fun r => .known fun done => ?_
      cases r with
      | error e => exact refuse_lasts
      | ok l =>
          obtain rfl : r = .ok (.ok l) := done
          exact .answer fun _ known => ⟨⟨_, events, short, read⟩, known⟩

theorem importDocument_lasts (lasting : Lasting P Q K) {i : Invocation} {project : Option Path}
    {file : Path} {force : Bool} : Lasts P console (importDocument i project file force) := by
  refine Ends.bind (requireProject_lasts lasting) fun found => .known fun settled => ?_
  refine Ends.bind (openGraph_lasts lasting) fun session => .known fun _ => ?_
  dsimp only
  split
  next => exact refuse_lasts_bind
  next =>
    refine Ends.bind (readDialogue_lasts lasting.toOutlasts) fun loaded => .known fun read => ?_
    obtain ⟨v, events, short, read⟩ := read
    have right := (lasting.graphs found.1).loaded v loaded events read
    have settled := (lasting.configs found.1).adopted found.2 v loaded events settled short read
    refine .read fun w h => ?_
    have saved := lasting.draft _ found.1 _ h.files right
    refine Ends.starting ?_ fun t (same : t = w) => (same ▸ h : World.Lasts P console t)
    refine Stays.bind (setFiles_lasts saved) fun _ => ?_
    refine .bind ofExcept_lasts fun events => .bind (report_lasts lasting.toOutlasts) fun _ => ?_
    refine replace_lasts (fun t => Project.saveConfig t _ _)
      (fun _ _ h saved => lasting.config _ _ _ _ h settled saved) ?_
    exact .bind (report_lasts lasting.toOutlasts) fun _ => print_lasts

theorem check_lasts (lasting : Lasting P Q K) {i : Invocation} {project : Option Path} :
    Lasts P console (check i project) := by
  refine Ends.bind (requireProject_lasts lasting) fun found => .known fun _ => ?_
  refine Ends.bind (openGraph_lasts lasting) fun session => .known fun _ => ?_
  refine .bind (report_lasts lasting.toOutlasts) fun _ => ?_
  refine .bind (forM_lasts (fun _ => print_lasts) _) fun _ => ?_
  split
  next => exact Stays.stop
  next => exact Stays.answer

/-- Whatever a command is asked for, it keeps files that are as they should be.  It begins by
setting logging up without a file, so that nothing has to be known of the log. -/
theorem runInvocation_lasts (lasting : Lasting P Q K) {i : Invocation} :
    Ends (fun w => P w.files ∧ w.console = console) (runInvocation i)
      (fun _ => World.Lasts P console) (fun _ => World.Lasts P console) := by
  have quiet : Ends (fun w => P w.files ∧ w.console = console)
      (configureLog i.verbosity false none) (fun _ => World.Lasts P console)
      (fun _ => World.Lasts P console) := fun w ⟨h, shows⟩ =>
    configureLog_shown.ending (fun _ _ ⟨unused, begun⟩ =>
      ⟨begun.files ▸ h, ⟨⟨none, []⟩, .inl unused⟩, begun.console⟩) w ⟨rfl, rfl, shows⟩
  refine .bind quiet fun _ => ?_
  cases i.command with
  | version => exact print_lasts
  | init => exact init_lasts lasting
  | edit => exact runEdit_lasts lasting
  | exportDocument => exact exportDocument_lasts lasting
  | importDocument => exact importDocument_lasts lasting
  | check => exact check_lasts lasting

end Job

/-- Every command line keeps files that are as they should be, and the console. -/
theorem Line.run_lasts (lasting : Lasting P Q K) {line : Line} {w : World} (holds : P w.files) :
    P (line.run w).2.files ∧ (line.run w).2.console = w.console := by
  cases asked : Request.read line.surroundings line.args with
  | error e => simpa [run, Command.run, asked] using holds
  | ok request =>
      cases request with
      | help => simpa [run, Command.run, asked] using holds
      | run i =>
          obtain ⟨v, ran, lasts⟩ | ⟨v, ran, lasts⟩ | ⟨f, v, ran, lasts⟩ :=
            Line.run_cases asked (Job.runInvocation_lasts lasting) ⟨holds, rfl⟩ <;>
          exact ran ▸ ⟨lasts.files, lasts.console⟩

/-- Command lines one after the other print on the same console. -/
theorem runAll_console {lines : List Line} {w : World} : (runAll w lines).console = w.console := by
  induction lines generalizing w with
  | nil => rfl
  | cons line rest ih => exact ih.trans (line.run_lasts Lasting.all trivial).2

/-- Command lines one after the other keep files that are as they should be. -/
theorem runAll_lasts (lasting : Lasting P Q K) {lines : List Line} {w : World} (holds : P w.files) :
    P (runAll w lines).files := by
  induction lines generalizing w with
  | nil => exact holds
  | cons line rest ih => exact ih (line.run_lasts lasting holds).1

end Command

end Parley
