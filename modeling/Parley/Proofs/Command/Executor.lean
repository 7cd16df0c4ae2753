import Parley.Proofs.Command.Field

/-!
# Adding an executor

A command that adds an executor spells its value.  Executors that hold an amount and those that
store a value under a key read it as a scalar, and where the command succeeds the executor with that
scalar stands behind those that were there.  There is one exception: null is no amount.  It is taken
for a value that is not given, and the executor gets the standard one.
-/

namespace Parley

open Project (draftPath)

namespace Executor

/-- The types whose executors hold a scalar. -/
def scalarTypes : List ExecutorType := [.dialogStore, .setCoins, .setGems]

/-- The executor of a type that holds a scalar, under a key if it has one. -/
def holding (type : ExecutorType) (key : String) (s : Scalar) : Executor :=
  match type with
  | .dialogStore => .dialogStore key s
  | .setCoins => .setCoins s
  | .setGems => .setGems s
  | type => ofType type

variable {type : ExecutorType} {key : String} {s : Scalar}

theorem type_holding (scalar : type ∈ scalarTypes) : (holding type key s).type = type := by
  simp only [scalarTypes, List.mem_cons, List.not_mem_nil, or_false] at scalar
  rcases scalar with rfl | rfl | rfl <;> rfl

/-- The stored form of an executor with a scalar is null where it is an amount that is null. -/
theorem valueJson_holding (scalar : type ∈ scalarTypes) :
    (holding type key s).valueJson = .null ↔ type ≠ .dialogStore ∧ s = .null := by
  simp only [scalarTypes, List.mem_cons, List.not_mem_nil, or_false] at scalar
  rcases scalar with rfl | rfl | rfl <;> cases s <;> simp [holding, valueJson, Scalar.toJson]

end Executor

namespace Graph

variable {g g' : Graph} {id : String} {n : Node} {d : ResultData} {e : Executor}

/-- An executor is made from the stored form of its value, or it is the standard one where that is
null. -/
theorem makeExecutor_valueJson (e : Executor) :
    (e.valueJson ≠ .null → makeExecutor (.str e.type.word) e.valueJson = .ok e) ∧
      (e.valueJson = .null →
        makeExecutor (.str e.type.word) e.valueJson = .ok (.ofType e.type)) := by
  have standard : Executor.create (.str e.type.word) = .ok (.ofType e.type) := by
    rw [Executor.create, ExecutorType.ofJson?_word]
  have known : (Executor.ofType e.type).type = e.type := by cases e.type <;> rfl
  constructor
  · intro given
    have read : Executor.readFields e.type [("value", e.valueJson)] = .ok e := by
      simp [Executor.readFields, Checked.field, Executor.readValue_valueJson]
    rw [makeExecutor, standard]
    dsimp only [bind, Except.bind]
    split
    next absent => exact absurd absent given
    next =>
      rw [known, read]
      rfl
  · intro absent
    rw [makeExecutor, standard, absent]
    rfl

end Graph

namespace Command

variable {g g' : Graph} {supply : IdSupply} {result text : String} {key : Option String}
  {type : ExecutorType}

/-- The value of an executor with a scalar is spelled by what stands for the scalar. -/
theorem executorValue_eq_ok {v : Json} (scalar : type ∈ Executor.scalarTypes)
    (spelled : executorValue type text key = .ok v) :
    ∃ s, Scalar.parse text = .ok s ∧ v = (Executor.holding type (key.getD "") s).valueJson := by
  simp only [Executor.scalarTypes, List.mem_cons, List.not_mem_nil, or_false] at scalar
  rcases scalar with rfl | rfl | rfl <;>
  · obtain ⟨s, parsed, rfl⟩ := map_eq_ok.mp spelled
    exact ⟨s, mapError_eq_ok.mp parsed, rfl⟩

/-- Whether a command to add an executor finds what it needs and leads from one graph to another. -/
def Attaches (g : Graph) (result type text : String) (key : Option String) (g' : Graph) : Prop :=
  ∃ known v e, ExecutorType.ofJson? (.str type) = some known ∧
    executorValue known text key = .ok v ∧ g.addExecutor result (.str type) v = .ok (g', e)

/-- An executor with a scalar stands behind those that were there.  It holds the scalar that was
spelled, unless that is null where an amount should be. -/
theorem Attaches.stores (h : Attaches g result type.word text key g')
    (scalar : type ∈ Executor.scalarTypes) :
    ∃ n d s, g.node? result = some n ∧ n.payload = .result d ∧ Scalar.parse text = .ok s ∧
      g' = { g with nodes := g.nodes.map fun k => if k.id = result then
        { n with payload := .result { d with executors := d.executors ++
          [if type ≠ .dialogStore ∧ s = .null then Executor.ofType type
            else Executor.holding type (key.getD "") s] } } else k } := by
  obtain ⟨known, v, e, named, spelled, added⟩ := h
  cases (ExecutorType.ofJson?_word type).symm.trans named
  obtain ⟨s, parsed, rfl⟩ := executorValue_eq_ok scalar spelled
  obtain ⟨d, required, made, set⟩ := Graph.addExecutor_eq_ok added
  obtain ⟨n, found, data⟩ := Graph.requireResult_eq_ok.mp required
  cases (Graph.setExecutors_of found data _).symm.trans set
  have stored : e = if type ≠ .dialogStore ∧ s = .null then Executor.ofType type
      else Executor.holding type (key.getD "") s := by
    obtain ⟨given, absent⟩ := Graph.makeExecutor_valueJson (.holding type (key.getD "") s)
    rw [Executor.type_holding scalar] at given absent
    split
    next null =>
      cases made.symm.trans (absent ((Executor.valueJson_holding scalar).mpr null))
      rfl
    next other =>
      cases made.symm.trans (given fun null => other ((Executor.valueJson_holding scalar).mp null))
      rfl
  have same : n.id = result := Graph.node?_id found
  exact ⟨n, d, s, found, data, parsed, stored ▸ Graph.put_of_node? found same⟩

/-- The edits of a command to add an executor lead to the graph that it attaches it in. -/
theorem Attaches.after {type : String} (h : Attaches g result type text key g') :
    g.after supply ((EditCommand.addExecutor result type text key).edits g supply) = g' := by
  obtain ⟨known, v, e, named, spelled, added⟩ := h
  have edits : (EditCommand.addExecutor result type text key).edits g supply =
      [.addExecutor result (.str type) v] := by
    simp only [EditCommand.edits, named, spelled]
    rfl
  rw [edits, Graph.after, Graph.after, Graph.edit, added]
  rfl

/-- A command to add an executor succeeds only if it finds what it needs. -/
theorem addExecutor_demands {type : String} (proper : g.Proper) :
    (EditCommand.addExecutor result type text key).Demands g supply
      (∃ g', Attaches g result type text key g') := by
  intro start folder
  have placed : g.Placed := proper.entered.placed
  have work : Ends (fun d => d.session.Follows start folder g supply)
      (Work.addExecutor result type text key) (fun _ _ => ∃ g', Attaches g result type text key g')
      (Work.Halts (fun _ => False) (fun _ => True) (·.Holds start folder g)) := by
    rw [Work.addExecutor]
    split
    next => exact Work.fail_ends (.inr trivial) fun _ follows => follows.holds
    next known named =>
      refine .bind (Work.ofExcept_ends (fun _ _ => .inr trivial) fun _ follows => follows.holds)
        fun v => .known fun spelled => ?_
      refine .bind (Work.edit_ends placed fun _ _ => .inr trivial) fun answer =>
        .known fun answered => ?_
      obtain ⟨⟨g', e⟩, added⟩ : ∃ made, g.addExecutor result (.str type) v = .ok made := by
        rw [Graph.edit] at answered
        cases added : g.addExecutor result (.str type) v with
        | error f => rw [added] at answered; cases answered
        | ok made => exact ⟨made, rfl⟩
      exact .answer fun _ _ => ⟨g', known, v, e, named, spelled, added⟩
  exact work.stopping fun _ _ _ => trivial

/-- A command to add an executor succeeds if it leads to a graph that can be written. -/
theorem addExecutor_assured (placed : g.Placed)
    (h : Attaches g result type.word text key g') (short : g'.Short) :
    (EditCommand.addExecutor result type.word text key).Assured g supply
      ("Added " ++ type.word ++ " executor to " ++ result) := by
  obtain ⟨known, v, e, named, spelled, added⟩ := h
  cases (ExecutorType.ofJson?_word type).symm.trans named
  intro start folder
  have assured : g.Assures supply (.addExecutor result (.str type.word) v) := by
    rw [Graph.Assures, Graph.edit, added]
    exact ⟨⟨_, rfl⟩, short⟩
  rw [EditCommand.work, Work.addExecutor, named]
  refine .bind (Work.ofExcept_found spelled) fun given => .known fun same => ?_
  subst same
  exact .bind (Work.edit_leads placed trivial assured) fun _ => .answer fun _ _ => rfl

/-- Where a command line has made a project, and others have followed, a command line that adds an
executor with a scalar to a result and succeeds has put one behind those that were there, and all
else in the graph is as it was.  The new one holds the scalar that the text stands for.  But an
amount of null is passed over: then the new one holds what every executor of its type holds at
first. -/
theorem addExecutor_outcome {w : World} {create line : Line} {lines : List Line} {i j : Invocation}
    {name npc : String} {parent project : Option Path}
    (asked : Request.read create.surroundings create.args = .ok (.run i))
    (asks : i.command = .init name parent npc) (made : (create.run w).1.exitCode = 0)
    (works : line.Works (runAll (create.run w).2 lines).files
      ((parent.getD i.projects).child name))
    (read : Request.read line.surroundings line.args = .ok (.run j))
    (adds : j.command = .edit project (.addExecutor result type.word text key))
    (scalar : type ∈ Executor.scalarTypes)
    (succeeds : (line.run (runAll (create.run w).2 lines)).1.exitCode = 0) :
    let folder := (parent.getD i.projects).child name
    let before := runAll (create.run w).2 lines
    ∃ g g' n d s, (DraftStore.file (draftPath folder) before.files).open? = .ok g ∧
      (DraftStore.file (draftPath folder) (line.run before).2.files).open? = .ok g' ∧
      g.node? result = some n ∧ n.payload = .result d ∧ Scalar.parse text = .ok s ∧
      g' = { g with nodes := g.nodes.map fun k => if k.id = result then
        { n with payload := .result { d with executors := d.executors ++
          [if type ≠ .dialogStore ∧ s = .null then Executor.ofType type
            else Executor.holding type (key.getD "") s] } } else k } := by
  intro folder before
  obtain ⟨g, proper, ⟨g', attaches⟩, opened, left⟩ :=
    lines_succeeded asked asks made works read adds succeeds fun _ _ => addExecutor_demands
  obtain ⟨n, d, s, found, data, parsed, stored⟩ := attaches.stores scalar
  exact ⟨g, g', n, d, s, opened, attaches.after ▸ left, found, data, parsed, stored⟩

namespace Demo

/-- The graph with a result that has one executor. -/
def supplied (e : Executor) : Graph :=
  told.put { id := "hello", payload := .result { executors := [e] } }

/-- A command line that sets an amount of coins, if the executor has no long number. -/
theorem supplying_leads {line : Line} {text : String} {e : Executor}
    (asked : Request.read line.surroundings line.args =
      .ok (.run ⟨0, false, creation.projects, .edit (some ⟨none, ["demo"]⟩)
        (.addExecutor "hello" "set_coins" text none)⟩))
    (attaches : Attaches told "hello" "set_coins" text none (supplied e))
    (short : e.toJson.hasLongInteger = false) :
    (line.run (runAll (create.run world).2 [telling])).1.exitCode = 0 ∧
      (DraftStore.file (draftPath home)
        (line.run (runAll (create.run world).2 [telling])).2.files).open? = .ok (supplied e) := by
  obtain ⟨proper, keeps⟩ := told_proper
  have standard : (Payload.result {}).Short := Payload.short_ofKind .result
  have fits : (supplied e).Short := by
    refine told_short.put (Payload.short_result.mpr ⟨(Payload.short_result.mp standard).1, ?_⟩)
    simp [Json.anyLongItem, short]
  have assured {supply : IdSupply} :
      (EditCommand.addExecutor "hello" ExecutorType.setCoins.word text none).Assured told supply
        ("Added " ++ ExecutorType.setCoins.word ++ " executor to hello") :=
    addExecutor_assured proper.entered.placed attaches fits
  obtain ⟨proper', kept⟩ := run_leads proper keeps (console_eq _) asked assured rfl attaches.after
  exact ⟨run_succeeds proper keeps (console_eq _) asked assured rfl, kept.open_eq proper'⟩

/-- A command line that sets an amount of coins. -/
def paying : Line := ⟨none, ["add-executor", "hello", "set_coins", "25", "-p", "demo"]⟩

/-- What that command line asks for. -/
def payment : Invocation := ⟨0, false, creation.projects, .edit (some ⟨none, ["demo"]⟩)
  (.addExecutor "hello" "set_coins" "25" none)⟩

theorem paying_asked : Request.read paying.surroundings paying.args = .ok (.run payment) := rfl

theorem paying_succeeds : (paying.run (runAll (create.run world).2 [telling])).1.exitCode = 0 :=
  (supplying_leads (e := .setCoins (.int 25)) paying_asked
    ⟨_, _, _, rfl, rfl, rfl⟩ (by decide)).1

/-- A command line that sets an amount of coins to null. -/
def withdrawing : Line := ⟨none, ["add-executor", "hello", "set_coins", "null", "-p", "demo"]⟩

end Demo

open Demo in
/-- The result of the demonstration gets an executor with an amount of coins. -/
theorem addExecutor_outcome_of_demo :
    let before := runAll (create.run world).2 [telling]
    (create.run world).1.exitCode = 0 ∧ paying.Works before.files home ∧
      (paying.run before).1.exitCode = 0 ∧
      ∃ g g' n d, (DraftStore.file (draftPath home) before.files).open? = .ok g ∧
        (DraftStore.file (draftPath home) (paying.run before).2.files).open? = .ok g' ∧
        g.node? "hello" = some n ∧ n.payload = .result d ∧
        g' = { g with nodes := g.nodes.map fun k => if k.id = "hello" then
          { n with payload := .result { d with
            executors := d.executors ++ [.setCoins (.int 25)] } } else k } := by
  have works : paying.Works (runAll (create.run world).2 [telling]).files
      ((Option.getD none creation.projects).child "demo") :=
    Line.works_of_read leads told_proper.2 paying_asked rfl closing_named
  have adds : payment.command = .edit (some ⟨none, ["demo"]⟩)
      (.addExecutor "hello" ExecutorType.setCoins.word "25" none) := rfl
  have scalar : ExecutorType.setCoins ∈ Executor.scalarTypes := by decide
  obtain ⟨g, g', n, d, s, opened, left, found, data, parsed, stored⟩ :=
    addExecutor_outcome asked asks made works paying_asked adds scalar paying_succeeds
  have number : Scalar.parse "25" = .ok (.int 25) := rfl
  cases number.symm.trans parsed
  exact ⟨made, works, paying_succeeds, g, g', n, d, opened, left, found, data, stored⟩

open Demo in
/-- An amount of coins is set to null.  The command line succeeds, and the executor that is read
back holds the empty text. -/
theorem addExecutor_null_amount :
    let before := runAll (create.run world).2 [telling]
    (create.run world).1.exitCode = 0 ∧
      Request.read withdrawing.surroundings withdrawing.args = .ok (.run
        ⟨0, false, creation.projects, .edit (some ⟨none, ["demo"]⟩)
          (.addExecutor "hello" "set_coins" "null" none)⟩) ∧
      (withdrawing.run before).1.exitCode = 0 ∧ Scalar.parse "null" = .ok .null ∧
      ∃ g n d, (DraftStore.file (draftPath home) (withdrawing.run before).2.files).open? = .ok g ∧
        g.node? "hello" = some n ∧ n.payload = .result d ∧
          d.executors = [.setCoins (.text "")] := by
  have asks : Request.read withdrawing.surroundings withdrawing.args = .ok (.run
      ⟨0, false, creation.projects, .edit (some ⟨none, ["demo"]⟩)
        (.addExecutor "hello" "set_coins" "null" none)⟩) := rfl
  obtain ⟨succeeds, left⟩ := supplying_leads (e := .setCoins (.text "")) asks
    ⟨_, _, _, rfl, rfl, rfl⟩ (by decide)
  exact ⟨made, asks, succeeds, rfl, supplied (.setCoins (.text "")), _, _, left, rfl, rfl, rfl⟩

end Command

end Parley
