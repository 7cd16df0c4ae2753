/-!
# Parts of texts

How a text begins, and what stands in it between separators.
-/

namespace Parley.Text

/-- Whether a text begins with another one. -/
def startsWith (start s : String) : Bool := start.toList.isPrefixOf s.toList

/-- The parts of a row of characters before, between and behind those that are a separator. -/
def splitAt (separator : Char) : List Char → List (List Char)
  | [] => [[]]
  | c :: cs =>
    if c == separator then [] :: splitAt separator cs
    else match splitAt separator cs with
      | [] => [[c]]
      | part :: parts => (c :: part) :: parts

/-- The parts of a text between separators. -/
def parts (separator : Char) (s : String) : List String :=
  (splitAt separator s.toList).map String.ofList

end Parley.Text
