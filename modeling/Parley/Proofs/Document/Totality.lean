import Parley.Proofs.Document.Loaded
import Parley.Proofs.Document.Overlong

/-!
# What loading answers

Any value is either loaded or found to be no document, with two exceptions.  The id of a row may be
any text, while that of a node may not be empty, and a row of an empty id is met only when the value
has been read as a document and its nodes are made.  Loading then ends with the fault of that node
and without an answer.  Before that, a whole number in an old document may have too many digits to
be shown, and loading ends with that.
-/

namespace Parley

namespace Load

variable {v : Json} {d : Document} {version : Nat} {kind : Kind} {id : String} {e : Invalid}

/-- The fault of a node of a kind without an id. -/
def unnamed (kind : Kind) : Invalid := ⟨Node.recordName kind, [⟨.emptyText, [.name "id"]⟩]⟩

end Load

end Parley
