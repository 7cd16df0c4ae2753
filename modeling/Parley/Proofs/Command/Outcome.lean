import Parley.Proofs.Command.Success

/-!
# How a command line on a graph ends

A command line that asks for an edit of a project and ends with success has read the configuration
of the project, and nothing was in its way.  One that does not end with success has the code of an
error, and the graph in the draft of the project is the one that was there.

Other command lines can get in the way: one that makes a project of the name that a change of the
draft is written to puts the draft out of reach, and no command line on its graph succeeds any more.
-/

namespace Parley

open FileTree (place Within)
open Project (Hosts Lives configPath draftPath draftName spareName)

variable {folder other : Path} {g : Graph} {supply : IdSupply} {files : FileTree}
  {console : Command.Console}

namespace Command

/-- Where there is a graph to be opened, the folder hosts it. -/
theorem Openable.hosts (h : Openable folder g files) : Hosts (· = g) folder files := by
  obtain ⟨content, v, there, holds, read⟩ := h.draft
  exact ⟨h.leads, content, v, g, there, holds, read, rfl⟩

namespace Job

variable {i : Invocation} {project : Option Path} {e : EditCommand}

end Job

namespace Line

variable {line : Line} {w : World} {i : Invocation} {project : Option Path} {e : EditCommand}

end Line

section Obstruction

variable {R : Graph → Prop} {npc : String}

namespace Job

/-- A project where a folder stands beside the place of the draft stays so, whatever is written. -/
theorem Blocked.outlasts :
    Outlasts (Blocked R folder) (Project.Harmless R folder) (fun _ _ => True) where
  config _ _ _ _ h _ saved := by
    have change := FileTree.within_of_write (by decide) (mapError_eq_ok.mp saved)
    exact ⟨h.hosts.named (by decide) change, change.folders _ h.spare⟩
  draft _ _ _ h harmless := ⟨h.hosts.save harmless, Draft.folder_of_save h.spare⟩
  log _ _ _ _ h added := by
    have change := FileTree.within_of_append (by decide) added
    exact ⟨h.hosts.named (by decide) change, change.folders _ h.spare⟩

end Job

namespace Line

variable {line : Line} {w : World} {i : Invocation}

end Line

end Obstruction

end Command

end Parley
