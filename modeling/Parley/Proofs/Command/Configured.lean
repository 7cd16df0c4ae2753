import Parley.Proofs.Command.Lasting
import Parley.Proofs.Project.Reloading

/-!
# The configuration of a project that was made

A command line that makes a project leaves a settled configuration in its folder.  No command line
takes that away, so the configuration is loaded wherever the project is found.
-/

namespace Parley.Command

open Project (Configured configPath)
open FileTree (place)

namespace Job

variable {console : Console} {name npc : String}

variable {i : Invocation} {parent : Option Path} {files : FileTree} {supply : IdSupply}

end Job

variable {create : Line} {w : World} {i : Invocation} {name npc : String} {parent : Option Path}

end Parley.Command
