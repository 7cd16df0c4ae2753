import Parley.Node.Kind

/-!
# Executors

The side effects that an answer triggers in the game.  Each type has a value of its own shape.
-/

namespace Parley

/-- The type of an executor. -/
inductive ExecutorType where
  | command
  | dialogStore
  | setCoins
  | setGems
  | openMarket
deriving DecidableEq

namespace ExecutorType

/-- The word under which a type is stored. -/
def word : ExecutorType → String
  | .command => "command"
  | .dialogStore => "dialog_store"
  | .setCoins => "set_coins"
  | .setGems => "set_gems"
  | .openMarket => "open_market"

/-- The name of the record that stores an executor of a type. -/
def recordName : ExecutorType → String
  | .command => "CommandExecutor"
  | .dialogStore => "DialogStoreExecutor"
  | .setCoins => "SetCoinsExecutor"
  | .setGems => "SetGemsExecutor"
  | .openMarket => "OpenMarketExecutor"

/-- All types, in the order in which they are listed. -/
def all : List ExecutorType := [.command, .dialogStore, .setCoins, .setGems, .openMarket]

/-- The type that a value names. -/
def ofJson? : Json → Option ExecutorType
  | .str s => all.find? (·.word == s)
  | _ => none

end ExecutorType

/-- A side effect of an answer. -/
inductive Executor where
  /-- Runs a command line on the game server. -/
  | command (line : String)
  /-- Stores a value under a key. -/
  | dialogStore (key : String) (value : Scalar)
  /-- Sets an amount of coins. -/
  | setCoins (amount : Scalar)
  /-- Sets an amount of gems. -/
  | setGems (amount : Scalar)
  /-- Opens a shop. -/
  | openMarket (shop : String)
deriving DecidableEq

namespace Executor

/-- The type of an executor. -/
def type : Executor → ExecutorType
  | .command _ => .command
  | .dialogStore _ _ => .dialogStore
  | .setCoins _ => .setCoins
  | .setGems _ => .setGems
  | .openMarket _ => .openMarket

/-- An executor of a type with an empty value. -/
def ofType : ExecutorType → Executor
  | .command => .command ""
  | .dialogStore => .dialogStore "" (.text "")
  | .setCoins => .setCoins (.text "")
  | .setGems => .setGems (.text "")
  | .openMarket => .openMarket ""

/-- The stored form of the value of an executor. -/
def valueJson : Executor → Json
  | .command line => .str line
  | .dialogStore key value => .obj [("key", .str key), ("value", value.toJson)]
  | .setCoins amount => amount.toJson
  | .setGems amount => amount.toJson
  | .openMarket shop => .str shop

/-- The stored form of an executor. -/
def toJson (e : Executor) : Json := .obj [("type", .str e.type.word), ("value", e.valueJson)]

/-- Reads a keyed value. -/
def readStore : Json → Checked Executor := Checked.record "StoreEntry" fun fields =>
  Executor.dialogStore <$> Checked.field fields "key" Checked.text ""
    <*> Checked.field fields "value" Checked.scalar (.text "")

/-- Reads the value of an executor of a type. -/
def readValue : ExecutorType → Json → Checked Executor
  | .command, v => Executor.command <$> Checked.text v
  | .dialogStore, v => readStore v
  | .setCoins, v => Executor.setCoins <$> Checked.scalar v
  | .setGems, v => Executor.setGems <$> Checked.scalar v
  | .openMarket, v => Executor.openMarket <$> Checked.text v

/-- Reads the fields of an executor whose type is known. -/
def readFields (type : ExecutorType) (fields : Fields) : Checked Executor :=
  Checked.field fields "value" (readValue type) (ofType type)

/-- Reads an executor by its type. -/
def read : Json → Checked Executor
  | .obj fields =>
    match Fields.get? fields "type" with
    | none => Checked.fault .noTag
    | some tag =>
      match ExecutorType.ofJson? tag with
      | some type => (readFields type fields).under (.name type.word)
      | none =>
        Checked.fault (.unknownTag (Defect.tagName tag) (ExecutorType.all.map ExecutorType.word))
  | _ => Checked.fault .notTagged

/-- The title under which faults of an executor are reported. -/
def title : String :=
  "tagged-union[" ++ ",".intercalate (ExecutorType.all.map ExecutorType.recordName) ++ "]"

end Executor

end Parley
