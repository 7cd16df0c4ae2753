import Parley.Text.Blank
import Parley.Text.Digits

/-!
# The console

What commands print, and the console that shows it.  A console may be unable to show a text, and
then the command that prints it fails.  `Console.markup` reads tags between brackets: one that
begins with a slash ends a style, and there is nothing to be shown where no such style has begun.
`Console.recorder` takes whatever it is given.
-/

namespace Parley.Command

/-- What is printed. -/
inductive Printed where
  | line (text : String)
  | table (title : String) (columns : List String) (rows : List (List String))

namespace Printed

/-- The text that tells what is printed. -/
def heading : Printed → String
  | .line text => text
  | .table title _ _ => title

/-- The texts of what is printed, in the order in which they are laid out: the columns of a table
come one after the other, and its title comes last. -/
def texts : Printed → List String
  | .line text => [text]
  | .table title columns rows =>
    (List.range columns.length).flatMap (fun n => (columns :: rows).filterMap (·[n]?)) ++ [title]

end Printed

/-- The line that reports an error. -/
def errorLine (text : String) : Printed := .line ("[red]Error:[/red] " ++ text)

/-- What the line that reports a success begins with. -/
def successMark : String := "[green]✓[/green] "

/-- The line that reports a success. -/
def successLine (text : String) : Printed := .line (successMark ++ text)

/-- A console. -/
structure Console where
  /-- Why something cannot be shown. -/
  problem? : Printed → Option String
  /-- Without a bracket in it, what is reported of a success is shown. -/
  plain : ∀ text : String, '[' ∉ text.toList → problem? (successLine text) = none

/-- A console that takes whatever it is given. -/
def Console.recorder : Console := ⟨fun _ => none, fun _ _ => rfl⟩

namespace Markup

/-- A part of a text with markup. -/
inductive Piece where
  | text (shown : List Char)
  /-- What stands between brackets, and the position of the first one. -/
  | tag (content : List Char) (position : Nat)

/-- Whether a tag may begin with a character. -/
def isStart (c : Char) : Bool := decide ('a' ≤ c ∧ c ≤ 'z') || c == '/' || c == '#' || c == '@'

/-- What stands before the next bracket, if that one closes. -/
def closed? : List Char → Option (List Char)
  | [] => none
  | c :: cs =>
    if c == ']' then some [] else if c == '[' then none else (closed? cs).map (c :: ·)

/-- The content of a tag, behind the bracket that opens it. -/
def content? : List Char → Option (List Char)
  | [] => none
  | c :: cs => if isStart c then (closed? cs).map (c :: ·) else none

/-- As many backslashes. -/
def slashes (n : Nat) : List Char := List.replicate n '\\'

/-- The parts of a text from a position on.  The first characters may belong to a tag that is taken
already; before the others there may be backslashes.  Of backslashes before a tag every second one
is shown, and a single one that is left makes the tag a text. -/
def pieces : (taken backslashes position : Nat) → List Char → List Piece
  | _, backslashes, _, [] => [.text (slashes backslashes)]
  | taken + 1, _, position, _ :: cs => pieces taken 0 (position + 1) cs
  | 0, backslashes, position, c :: cs =>
    if c == '\\' then pieces 0 (backslashes + 1) (position + 1) cs
    else if c == '[' then
      match content? cs with
      | none => .text (slashes (backslashes - 1) ++ ['[']) :: pieces 0 0 (position + 1) cs
      | some content =>
        .text (slashes (backslashes / 2)) ::
          (if backslashes % 2 = 0 then .tag content position
            else .text ('[' :: content ++ [']'])) ::
          pieces (content.length + 1) 0 (position + 1) cs
    else .text (slashes backslashes ++ [c]) :: pieces 0 0 (position + 1) cs

/-- The name of a style, in the form in which styles are told apart. -/
def styleName (cs : List Char) : List Char := (Text.trim Text.isBlank cs).map Char.toLower

/-- Why parts of a text cannot be shown, where styles have begun, the last one first. -/
def problem? : List (List Char) → List Piece → Option String
  | _, [] => none
  | opened, .text _ :: rest => problem? opened rest
  | opened, .tag content position :: rest =>
    match content.takeWhile (· != '=') with
    | '/' :: name =>
      let style := styleName name
      if style.isEmpty then
        match opened with
        | [] => some ("closing tag '[/]' at position " ++ Text.ofNat position ++
            " has nothing to close")
        | _ :: opened => problem? opened rest
      else if style ∈ opened then problem? (opened.erase style) rest
      else some ("closing tag '[" ++ String.ofList content ++ "]' at position " ++
        Text.ofNat position ++ " doesn't match any open tag")
    | name => problem? (styleName name :: opened) rest

/-- Why a text cannot be shown. -/
def problemOf? (s : String) : Option String := problem? [] (pieces 0 0 0 s.toList)

/-- Nothing but text is in a text without brackets. -/
theorem problem?_of_plain {opened : List (List Char)} {cs : List Char} (plain : '[' ∉ cs)
    (backslashes position : Nat) :
    problem? opened (pieces 0 backslashes position cs) = none := by
  induction cs generalizing backslashes position with
  | nil => rfl
  | cons c cs ih =>
      obtain ⟨other, plain⟩ := not_or.mp fun here => plain (List.mem_cons.mpr here)
      rw [pieces]
      split
      next => exact ih plain _ _
      next =>
        rw [if_neg (by simpa using Ne.symm other)]
        exact ih plain _ _

/-- The mark of a success opens and closes a style. -/
theorem problemOf?_success {text : String} (plain : '[' ∉ text.toList) :
    problemOf? (successMark ++ text) = none := by
  have mark : problemOf? (successMark ++ text) = problem? [] (pieces 0 0 17 text.toList) := by
    rw [problemOf?, String.toList_append]
    rfl
  rw [mark]
  exact problem?_of_plain plain _ _

end Markup

/-- A console that reads tags between brackets. -/
def Console.markup : Console where
  problem? p := p.texts.findSome? Markup.problemOf?
  plain text plain := by
    simp [successLine, Printed.texts, Markup.problemOf?_success plain]

end Parley.Command
