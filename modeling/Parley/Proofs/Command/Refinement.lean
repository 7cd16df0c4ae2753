import Parley.Proofs.Command.Field

/-!
# Command lines refine the graph in memory

A row of command lines on a project comes to the same as their edits, made one after the other on a
graph in memory.  Those of a command line count if it has done what it asks for.  That is not always
told by its code: a text that closes a style which is not open is saved, and then cannot be shown in
the report of the success, so that the command line ends with the code of an error.
-/

namespace Parley

open Project (configPath draftPath)

variable {w : Command.World}

namespace Command

/-- In a project that was made by a command line, whatever command lines ask for edits of its graph,
the draft is read as the graph that their edits lead to in memory, and the configuration is as it
was made. -/
theorem lines_refine_edits {create : Line} {i : Invocation} {name npc : String}
    {parent : Option Path} {lines : List Line}
    (asked : Request.read create.surroundings create.args = .ok (.run i))
    (asks : i.command = .init name parent npc) (made : (create.run w).1.exitCode = 0)
    (edits : ∀ line ∈ lines,
      line.Edits (create.run w).2.files ((parent.getD i.projects).child name)) :
    let folder := (parent.getD i.projects).child name
    let before := (create.run w).2
    let after := runAll before lines
    (DraftStore.file (draftPath folder) after.files).open? = .ok (follow .empty before lines) ∧
      after.files.entry? (configPath folder) = before.files.entry? (configPath folder) := by
  intro folder before after
  have keeps := keeps_of_init asked asks made
  obtain ⟨proper, kept⟩ := runAll_keeps keeps.leads .empty keeps edits
  refine ⟨kept.open_eq proper, ?_⟩
  obtain ⟨text, written, now⟩ := kept
  rw [Project.configPath_eq, keeps.leads.entry?_within (by decide),
    now.leads.entry?_within (by decide), now.config]

open Demo in
/-- The command lines of the demonstration lead to the graph of their edits. -/
theorem lines_refine_edits_of_demo :
    let before := (create.run world).2
    let after := runAll before lines
    (create.run world).1.exitCode = 0 ∧ (∀ line ∈ lines, line.Edits before.files home) ∧
      (DraftStore.file (draftPath home) after.files).open? = .ok (follow .empty before lines) ∧
      after.files.entry? (configPath home) = before.files.entry? (configPath home) := by
  have refined := lines_refine_edits asked asks made lines_edit
  exact ⟨made, lines_edit, refined⟩

namespace Demo

/-- A command line that sets the message of the result to a text that looks like markup. -/
def asking : Line := ⟨none, ["set", "hello", "message", "ask me [/] later", "-p", "demo"]⟩

/-- What that command line asks for. -/
def question : Invocation := ⟨0, false, creation.projects, .edit (some ⟨none, ["demo"]⟩)
  (.setField "hello" "message" "ask me [/] later")⟩

theorem asking_asked : Request.read asking.surroundings asking.args = .ok (.run question) := rfl

/-- The graph with that message. -/
def questioned : Graph :=
  told.put { id := "hello", payload := .result { message := "ask me [/] later" } }

theorem asking_updates : Updates told "hello" "message" "ask me [/] later" questioned :=
  ⟨_, _, _, rfl, rfl, rfl⟩

theorem asking_assured {supply : IdSupply} :
    (EditCommand.setField "hello" "message" "ask me [/] later").Assured told supply
      "hello.message = ask me [/] later" :=
  setField_assured told_proper.1.entered.placed asking_updates (told_short.put
    (Payload.short_result.mpr (Payload.short_result.mp (Payload.short_ofKind .result))))

/-- The console cannot show that the message was set. -/
theorem asking_unshown :
    (asking.run (runAll (create.run world).2 [telling])).1 =
      ⟨1, some (.unshown (successMark ++ "hello.message = ask me [/] later")
        "closing tag '[/]' at position 40 has nothing to close")⟩ := by
  obtain ⟨proper, keeps⟩ := told_proper
  obtain ⟨c, loaded⟩ := configured
  have opens := keeps.openable proper
  exact Line.run_unshown asking_asked rfl (named keeps) opens
    ((keeps.loadConfig_eq leads).trans loaded) ⟨(fun asked => nomatch asked), opens.spare⟩
    asking_assured (by rw [console_eq]; rfl)

theorem asking_leads : questioned.Proper ∧
    Keeps (create.run world).2.files home questioned
      (asking.run (runAll (create.run world).2 [telling])).2.files := by
  obtain ⟨proper, keeps⟩ := told_proper
  refine leads_of_done proper keeps asking_asked ?_ asking_updates.after
  rw [asking_unshown]
  rfl

end Demo

open Demo in
/-- A message is set that closes a style which is not open.  It is in the graph that is read back,
and the command line ends with the code of an error. -/
theorem lines_refine_edits_unshown :
    let before := runAll (create.run world).2 [telling]
    (create.run world).1.exitCode = 0 ∧
      Request.read asking.surroundings asking.args = .ok (.run question) ∧
      (asking.run before).1.exitCode = 1 ∧
      (∃ g n d, (DraftStore.file (draftPath home) before.files).open? = .ok g ∧
        g.node? "hello" = some n ∧ n.payload = .result d ∧ d.message = "") ∧
      ∃ g n d, (DraftStore.file (draftPath home) (asking.run before).2.files).open? = .ok g ∧
        g.node? "hello" = some n ∧ n.payload = .result d ∧ d.message = "ask me [/] later" := by
  obtain ⟨proper, keeps⟩ := told_proper
  obtain ⟨proper', kept⟩ := asking_leads
  exact ⟨made, asking_asked, by rw [asking_unshown],
    ⟨told, _, _, keeps.open_eq proper, rfl, rfl, rfl⟩,
    questioned, _, _, kept.open_eq proper', rfl, rfl, rfl⟩

end Command

end Parley
