import Parley.Failure
import Parley.Node.Basic
import Parley.Node.Edge

/-!
# Dialogue graphs

A graph holds nodes with distinct ids, in the order in which they came, and edges.  One node is the
entry; `Graph.build` adds it where it is missing.  Edges are taken as they are given: whether they
join existing nodes on matching ports is what `violations` reports.
-/

namespace Parley

/-- A dialogue graph. -/
structure Graph where
  nodes : List Node
  edges : List Edge
  /-- The id of the entry. -/
  entryId : String

namespace Graph

/-- A graph that holds nothing but its entry. -/
def empty : Graph := ⟨[Node.entry], [], Node.entryId⟩

/-- The node with an id. -/
def node? (g : Graph) (id : String) : Option Node := g.nodes.find? (·.id == id)

/-- Whether there is a node with an id. -/
def hasNode (g : Graph) (id : String) : Bool := (g.node? id).isSome

/-- The ids of the nodes, in order. -/
def ids (g : Graph) : List String := g.nodes.map (·.id)

/-- The nodes of a kind, in order. -/
def ofKind (g : Graph) (kind : Kind) : List Node := g.nodes.filter (·.kind == kind)

/-- The edges that leave a node, from one of its ports if one is named. -/
def edgesFrom (g : Graph) (id : String) (handle : Option String) : List Edge :=
  g.edges.filter fun e => e.source == id && (handle.isNone || handle == some e.sourceHandle)

/-- The edges that reach a node, at one of its ports if one is named. -/
def edgesTo (g : Graph) (id : String) (handle : Option String) : List Edge :=
  g.edges.filter fun e => e.target == id && (handle.isNone || handle == some e.targetHandle)

/-- The actions that a result offers, each once, in the order of the edges. -/
def connectedActions (g : Graph) (id : String) : List String :=
  ((g.edgesFrom id (some Port.resultActions.name)).map (·.target)).eraseDups

/-- Adds nodes behind others, unless an id is taken. -/
def addAll : List Node → List Node → Except GraphError (List Node)
  | nodes, [] => .ok nodes
  | nodes, n :: rest =>
    if nodes.any (·.id == n.id) then .error (.taken n.id) else addAll (nodes ++ [n]) rest

/-- Builds a graph from nodes and edges.  A missing entry is put first. -/
def build (nodes : List Node) (edges : List Edge) : Except GraphError Graph :=
  match nodes.filter Node.isEntry with
  | [] => (addAll [Node.entry] nodes).map fun nodes => ⟨nodes, edges, Node.entryId⟩
  | [entry] => (addAll [] nodes).map fun nodes => ⟨nodes, edges, entry.id⟩
  | entries => .error (.entries entries.length)

/-- The stored form of a graph. -/
def toJson (g : Graph) : Json :=
  .obj [("nodes", .arr (g.nodes.map Node.toJson)), ("edges", .arr (g.edges.map Edge.toJson))]

/-- The values under a key of a stored graph; none where the key is missing. -/
def elements (fields : Fields) (key : String) : Except Failure (List Json) :=
  match fields.get? key with
  | none => .ok []
  | some v =>
    match v.elements? with
    | some vs => .ok vs
    | none => .error (.notIterable v.typeName)

/-- Reads a node, with the faults under its title. -/
def readNode (v : Json) : Except Failure Node :=
  ((Node.read v).titled Node.title).mapError .invalid

/-- Reads an edge, with the faults under its title. -/
def readEdge (v : Json) : Except Failure Edge :=
  ((Edge.read v).titled Edge.title).mapError .invalid

/-- Reads a stored graph. -/
def ofJson : Json → Except Failure Graph
  | .obj fields => do
    let nodes ← (← elements fields "nodes").mapM readNode
    let edges ← (← elements fields "edges").mapM readEdge
    (build nodes edges).mapError .graph
  | v => .error (.noAttribute v.typeName "get")

/-- What is wrong with the edge at a position. -/
def edgeViolations (g : Graph) (position : Nat) (e : Edge) : List String :=
  let label := "Edge " ++ Text.ofNat position ++ " (" ++ e.id ++ "): "
  match g.node? e.source, g.node? e.target with
  | some source, some target =>
    match Port.problem? source.kind e.sourceHandle target.kind e.targetHandle with
    | some problem => [label ++ problem.message]
    | none => []
  | source, target =>
    (if source.isNone then [label ++ "source '" ++ e.source ++ "' does not exist"] else []) ++
      (if target.isNone then [label ++ "target '" ++ e.target ++ "' does not exist"] else [])

/-- What is wrong with the edges of a graph, in their order: ends that do not exist, and ports that
do not match. -/
def violations (g : Graph) : List String :=
  (g.edges.zipIdx).flatMap fun e => g.edgeViolations e.2 e.1

/-- The text that stands for a graph in a session. -/
def label (g : Graph) : String :=
  "DialogueGraph(nodes=" ++ Text.ofNat g.nodes.length ++ ", edges=" ++
    Text.ofNat g.edges.length ++ ")"

end Graph

end Parley
