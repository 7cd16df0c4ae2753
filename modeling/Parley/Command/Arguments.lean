import Parley.Files.Tree
import Parley.Number.Literal

/-!
# Command lines

A command line is a row of arguments: options, which begin with a dash, and words.  A long option
takes its value behind an equals sign or from the next argument; short options may be strung
together, and the last of them may have its value attached.  Two dashes end the options.  Where an
option is given more than once, the last one counts.
-/

namespace Parley.Command

/-- Why a command line is not understood. -/
inductive UsageError where
  | unknownOption (name : String)
  | noValue (option : String)
  | needlessValue (option : String)
  | noWord
  | needlessWord (word : String)
  | noCommand
  | unknownCommand (name : String)
  | noNumber (text : String)
deriving DecidableEq

/-- An option: the names under which it is given, the setting that it makes, and the value that it
stands for, unless it takes one from the command line. -/
structure Choice where
  names : List String
  setting : String
  value : Option String := none

/-- A setting that was made. -/
structure Setting where
  name : String
  value : String
deriving DecidableEq

/-- The option with a name. -/
def Choice.find? (choices : List Choice) (name : String) : Option Choice :=
  choices.find? (·.names.contains name)

/-- Reads short options that are strung together.  Answers the settings, and the option that still
needs a value. -/
def readShort (choices : List Choice) :
    List Char → Except UsageError (List Setting × Option Choice)
  | [] => .ok ([], none)
  | c :: cs =>
    match Choice.find? choices ("-" ++ c.toString) with
    | none => .error (.unknownOption ("-" ++ c.toString))
    | some choice =>
      match choice.value with
      | some value =>
        (readShort choices cs).map fun (settings, open?) =>
          (⟨choice.setting, value⟩ :: settings, open?)
      | none =>
        if cs.isEmpty then .ok ([], some choice)
        else .ok ([⟨choice.setting, String.ofList cs⟩], none)

/-- The name of a long option and the value behind an equals sign. -/
def splitLong (arg : String) : String × Option String :=
  let (name, rest) := Text.span (· != '=') arg.toList
  (String.ofList name, if rest.isEmpty then none else some (String.ofList (rest.drop 1)))

/-- Reads an argument that is an option. -/
def readOption (choices : List Choice) (arg : String) :
    Except UsageError (List Setting × Option Choice) :=
  let (name, value) := splitLong arg
  match if Text.startsWith "--" name then Choice.find? choices name else none with
  | some choice =>
    match choice.value, value with
    | some _, some _ => .error (.needlessValue name)
    | some constant, none => .ok ([⟨choice.setting, constant⟩], none)
    | none, some value => .ok ([⟨choice.setting, value⟩], none)
    | none, none => .ok ([], some choice)
  | none =>
    if Text.startsWith "--" arg then .error (.unknownOption name)
    else readShort choices (arg.toList.drop 1)

/-- Whether an argument is an option; a single dash is a word. -/
def isOption (arg : String) : Bool := Text.startsWith "-" arg && arg != "-"

/-- Reads the options of a command line and leaves the words.  Unless options may stand anywhere,
the first word ends them. -/
def scan (choices : List Choice) (anywhere : Bool) :
    List String → Except UsageError (List Setting × List String)
  | [] => .ok ([], [])
  | arg :: rest =>
    if arg == "--" then .ok ([], rest)
    else if !isOption arg then
      if anywhere then (scan choices anywhere rest).map fun (settings, words) =>
        (settings, arg :: words)
      else .ok ([], arg :: rest)
    else
      match readOption choices arg, rest with
      | .error e, _ => .error e
      | .ok (_, some choice), [] => .error (.noValue choice.setting)
      | .ok (settings, some choice), value :: rest =>
        (scan choices anywhere rest).map fun (more, words) =>
          (settings ++ ⟨choice.setting, value⟩ :: more, words)
      | .ok (settings, none), rest =>
        (scan choices anywhere rest).map fun (more, words) => (settings ++ more, words)

/-- The value of a setting. -/
def setting? (settings : List Setting) (name : String) : Option String :=
  (settings.reverse.find? (·.name == name)).map (·.value)

/-- How often a setting is made. -/
def settingCount (settings : List Setting) (name : String) : Nat :=
  settings.countP (·.name == name)

/-- The path that a setting gives. -/
def pathSetting? (settings : List Setting) (name : String) : Option Path :=
  (setting? settings name).map Path.ofText

/-- The number that a setting gives; zero if it is not made. -/
def numberSetting (settings : List Setting) (name : String) : Except UsageError Binary64 :=
  match setting? settings name with
  | none => .ok .zero
  | some s =>
    match readNumber? Text.isDigit s.toList with
    | some x => .ok x
    | none => .error (.noNumber s)

end Parley.Command
