import Mathlib.Order.Bounds.Basic
import Parley.Proofs.Document.Order
import Parley.Proofs.Document.Rows

/-!
# The greatest set of conditionals

A set of conditionals supports itself if the branches of each lead to a result or to a conditional
of the set.  The compiler keeps the greatest such set, for whatever nodes with distinct ids and
whatever edges: `survey_greatest`.  So conditionals that lead to each other in a circle are kept,
and a conditional is dropped for one cause only, a chain of branches from it to a conditional with a
branch that leads nowhere.  As the greatest set is a matter of the nodes and not of their order, it
makes no difference in which order the conditionals are looked at.
-/

namespace Parley.Compile

open Relation (ReflTransGen)

variable {nodes nodes' : List Node} {edges : List Edge} {kept : List String}
  {safe larger : Set String} {id next : String} {port : Port}

/-- Whether a branch leads to a result, or to a conditional of a set. -/
def Held (nodes : List Node) (edges : List Edge) (safe : Set String) (id : String) (port : Port) :
    Prop :=
  ∃ n ∈ nodes, first? edges id port = some n.id ∧
    (n.kind = .result ∨ n.kind = .conditional ∧ n.id ∈ safe)

/-- Whether the branches of each conditional of a set lead to a result or back into the set. -/
structure SelfSupporting (nodes : List Node) (edges : List Edge) (safe : Set String) : Prop where
  listed : ∀ id ∈ safe, id ∈ conditionals nodes
  held : ∀ id ∈ safe, ∀ port ∈ Port.outputs .conditional, Held nodes edges safe id port

/-- Whether a conditional has a branch that leads neither to a result nor to a conditional. -/
def Stuck (nodes : List Node) (edges : List Edge) (id : String) : Prop :=
  ∃ port ∈ Port.outputs .conditional, ¬ Held nodes edges Set.univ id port

/-- Whether a branch leads on to a conditional. -/
def Passes (nodes : List Node) (edges : List Edge) (id next : String) : Prop :=
  next ∈ conditionals nodes ∧ ∃ port ∈ Port.outputs .conditional, first? edges id port = some next

theorem Held.mono (more : safe ⊆ larger) (h : Held nodes edges safe id port) :
    Held nodes edges larger id port := by
  obtain ⟨n, member, led, kind⟩ := h
  exact ⟨n, member, led, kind.imp_right fun ⟨kind, stays⟩ => ⟨kind, more stays⟩⟩

/-- A branch that leads on to a conditional is held by the sets that have that conditional. -/
theorem Held.of_passes (h : Held nodes edges Set.univ id port)
    (there : ∀ next, first? edges id port = some next → next ∈ conditionals nodes → next ∈ safe) :
    Held nodes edges safe id port := by
  obtain ⟨n, member, led, kind⟩ := h
  refine ⟨n, member, led, kind.imp_right fun ⟨kind, _⟩ => ⟨kind, there n.id led ?_⟩⟩
  exact mem_conditionals.mpr ⟨n, member, rfl, kind⟩

section Distinct

variable (distinct : (nodes.map (·.id)).Nodup)

include distinct

/-- A set is closed if it holds each branch of its conditionals. -/
theorem closed_iff_held : Closed nodes edges kept ↔ ∀ id ∈ kept,
    ∀ port ∈ Port.outputs .conditional, Held nodes edges {x | x ∈ kept} id port := by
  simp only [closed_iff, exists_ref?_iff, kind?_eq_some distinct]
  refine forall₂_congr fun id _ => forall₂_congr fun port _ => ?_
  constructor
  · rintro ⟨x, led, ⟨n, member, rfl, kind⟩ | ⟨⟨n, member, rfl, kind⟩, stays⟩⟩
    · exact ⟨n, member, led, .inl kind⟩
    · exact ⟨n, member, led, .inr ⟨kind, stays⟩⟩
  · rintro ⟨n, member, led, kind | ⟨kind, stays⟩⟩
    · exact ⟨n.id, led, .inl ⟨n, member, rfl, kind⟩⟩
    · exact ⟨n.id, led, .inr ⟨⟨n, member, rfl, kind⟩, stays⟩⟩

/-- What is kept is the greatest set of conditionals that supports itself. -/
theorem kept_isGreatest (edges : List Edge) :
    IsGreatest {safe | SelfSupporting nodes edges safe}
      {id | id ∈ (Survey.ofGraph nodes edges).kept} := by
  have fair := Survey.ofGraph_fair nodes edges
  constructor
  · exact ⟨fun id member => fair.listed member,
      (closed_iff_held distinct).mp (Survey.ofGraph_closed nodes edges)⟩
  · intro safe supports id member
    classical
    let closed := (conditionals nodes).filter (· ∈ safe)
    have same : {x | x ∈ closed} = safe := by
      ext x
      simpa [closed] using supports.listed x
    have sound : Closed nodes edges closed :=
      (closed_iff_held distinct).mpr fun x there => same ▸ supports.held x (same ▸ there)
    have inside : closed ⊆ conditionals nodes := fun _ there => (List.mem_filter.mp there).1
    exact fair.greatest closed inside sound (same.symm ▸ member : id ∈ {x | x ∈ closed})

/-- A conditional is dropped if a chain of branches leads from it to one that is stuck: what is kept
holds each of its branches, and so the whole chain. -/
theorem not_mem_kept_of_chain {root : String} (chain : ReflTransGen (Passes nodes edges) id root)
    (stuck : Stuck nodes edges root) : id ∉ (Survey.ofGraph nodes edges).kept := by
  have supports := (kept_isGreatest distinct edges).1
  induction chain using ReflTransGen.head_induction_on with
  | refl =>
      obtain ⟨port, output, loose⟩ := stuck
      exact fun member => loose ((supports.held root member port output).mono (Set.subset_univ _))
  | @head id next passes _ ih =>
      obtain ⟨listed, port, output, led⟩ := passes
      intro member
      obtain ⟨n, there, found, kind⟩ := supports.held id member port output
      have same : n.id = next := Option.some.inj (found.symm.trans led)
      obtain ⟨m, other, named, conditional⟩ := mem_conditionals.mp listed
      have whole : n = m := List.inj_on_of_nodup_map distinct there other (same.trans named.symm)
      rcases kind with result | ⟨-, stays⟩
      · rw [whole, conditional] at result
        cases result
      · exact ih (same ▸ stays)

/-- The conditionals from which no chain leads to one that is stuck support each other. -/
theorem mem_kept_of_no_chain (listed : id ∈ conditionals nodes)
    (free : ¬ ∃ root, ReflTransGen (Passes nodes edges) id root ∧ Stuck nodes edges root) :
    id ∈ (Survey.ofGraph nodes edges).kept := by
  let safe : Set String := {x | x ∈ conditionals nodes ∧
    ¬ ∃ root, ReflTransGen (Passes nodes edges) x root ∧ Stuck nodes edges root}
  have supports : SelfSupporting nodes edges safe := by
    refine ⟨fun x there => there.1, fun x ⟨_, free⟩ port output => ?_⟩
    have held : Held nodes edges Set.univ x port := by
      by_contra loose
      exact free ⟨x, .refl, port, output, loose⟩
    refine held.of_passes fun next led conditional => ⟨conditional, ?_⟩
    rintro ⟨root, chain, stuck⟩
    exact free ⟨root, chain.head ⟨conditional, port, output, led⟩, stuck⟩
  exact (kept_isGreatest distinct edges).2 supports ⟨listed, free⟩

end Distinct

theorem SelfSupporting.perm (same : nodes.Perm nodes') (h : SelfSupporting nodes edges safe) :
    SelfSupporting nodes' edges safe where
  listed id member := by
    obtain ⟨n, there, parts⟩ := mem_conditionals.mp (h.listed id member)
    exact mem_conditionals.mpr ⟨n, same.subset there, parts⟩
  held id member port output := by
    obtain ⟨n, there, parts⟩ := h.held id member port output
    exact ⟨n, same.subset there, parts⟩

/-- The order of the nodes makes no difference to what is kept. -/
theorem mem_kept_perm (distinct : (nodes.map (·.id)).Nodup) (same : nodes.Perm nodes') :
    id ∈ (Survey.ofGraph nodes' edges).kept ↔ id ∈ (Survey.ofGraph nodes edges).kept := by
  have supports : SelfSupporting nodes edges = SelfSupporting nodes' edges :=
    funext fun _ => propext ⟨.perm same, .perm same.symm⟩
  have greatest := kept_isGreatest distinct edges
  have greatest' := kept_isGreatest ((same.map (·.id)).nodup_iff.mp distinct) edges
  rw [supports] at greatest
  exact Set.ext_iff.mp (greatest'.unique greatest) id

namespace Survey

variable {ids : List String} {s : Survey}

/-- Nothing is dropped twice, as only what is kept is dropped. -/
theorem ofGraph_dropped_nodup (nodes : List Node) (edges : List Edge) :
    ((ofGraph nodes edges).dropped.map (·.1)).Nodup := by
  let P : Survey → Prop := fun s =>
    Fair nodes edges (conditionals nodes) s ∧ (s.dropped.map (·.1)).Nodup
  have step : ∀ s id, P s → P (visit nodes edges s id) := by
    rintro s id ⟨fair, unique⟩
    refine ⟨fair.visit, ?_⟩
    obtain ⟨same, -⟩ | ⟨reason, member, -, result⟩ := visit_cases nodes edges s id
    · rwa [same]
    · have fresh : id ∉ s.dropped.map (·.1) := fun there =>
        (fair.mem_dropped.mp there).2 member
      rw [result, List.map_append, List.map_singleton, ← List.concat_eq_append]
      exact unique.concat fresh
  exact (settle_preserves (P := P) step ⟨fair_start, List.nodup_nil⟩).2

/-- The conditionals are looked at again at most as often as there are conditionals. -/
theorem settle_eq_iterate (ids : List String) (s : Survey) :
    ∃ n ≤ s.kept.length, settle nodes edges ids s = (pass nodes edges ids)^[n + 1] s := by
  fun_induction settle nodes edges ids s with
  | case1 s next fewer ih =>
      obtain ⟨n, short, rounds⟩ := ih
      exact ⟨n + 1, Nat.lt_of_le_of_lt short fewer, rounds⟩
  | case2 s next done => exact ⟨0, Nat.zero_le _, rfl⟩

end Survey

/-- Of nodes with distinct ids the survey ends, after at most one pass more than there are
conditionals.  It keeps the greatest set of conditionals that supports itself and drops each of the
others once: those from which a chain of branches leads to a conditional that is stuck.  The order
of the nodes makes no difference. -/
theorem survey_greatest (distinct : (nodes.map (·.id)).Nodup) (edges : List Edge) :
    let s := Survey.ofGraph nodes edges
    (∃ n ≤ (conditionals nodes).length,
      s = (Survey.pass nodes edges (conditionals nodes))^[n + 1] { kept := conditionals nodes }) ∧
      IsGreatest {safe | SelfSupporting nodes edges safe} {id | id ∈ s.kept} ∧
      ((s.dropped.map (·.1)).Nodup ∧
        ∀ id, id ∈ s.dropped.map (·.1) ↔ id ∈ conditionals nodes ∧ id ∉ s.kept) ∧
      (∀ id ∈ conditionals nodes, id ∉ s.kept ↔
        ∃ root, ReflTransGen (Passes nodes edges) id root ∧ Stuck nodes edges root) ∧
      ∀ nodes', nodes.Perm nodes' →
        ∀ id, id ∈ (Survey.ofGraph nodes' edges).kept ↔ id ∈ s.kept := by
  intro s
  have ids : (conditionals nodes).Nodup := distinct.sublist (List.filter_sublist.map _)
  refine ⟨?_, kept_isGreatest distinct edges,
    ⟨Survey.ofGraph_dropped_nodup nodes edges, fun id => (Survey.ofGraph_fair ..).mem_dropped⟩,
    fun id listed => ⟨fun dropped => ?_, fun ⟨root, chain, stuck⟩ => ?_⟩,
    fun nodes' same id => mem_kept_perm distinct same⟩
  · have start : s = Survey.settle nodes edges (conditionals nodes)
        { kept := conditionals nodes } :=
      congrArg (fun kept => Survey.settle nodes edges (conditionals nodes) { kept })
        (eraseDups_eq_self ids)
    exact start ▸ Survey.settle_eq_iterate (conditionals nodes) { kept := conditionals nodes }
  · by_contra free
    exact dropped (mem_kept_of_no_chain distinct listed free)
  · exact not_mem_kept_of_chain distinct chain stuck

/-- Two conditionals that lead to each other are kept.  A third one is dropped on the second pass,
as it leads to a fourth one that has no branch for "false". -/
theorem survey_greatest_of_circle :
    let nodes : List Node := [.entry, { id := "hello", payload := .ofKind .result },
      { id := "rich", payload := .ofKind .conditional },
      { id := "known", payload := .ofKind .conditional },
      { id := "old", payload := .ofKind .conditional },
      { id := "wise", payload := .ofKind .conditional }]
    let edges : List Edge := [.join "rich" .conditionTrue "known" .nodeTrigger,
      .join "rich" .conditionFalse "hello" .nodeTrigger,
      .join "known" .conditionTrue "rich" .nodeTrigger,
      .join "known" .conditionFalse "hello" .nodeTrigger,
      .join "old" .conditionTrue "wise" .nodeTrigger,
      .join "old" .conditionFalse "hello" .nodeTrigger,
      .join "wise" .conditionTrue "hello" .nodeTrigger]
    let s := Survey.ofGraph nodes edges
    s.kept = ["rich", "known"] ∧ s.dropped.map (·.1) = ["wise", "old"] ∧
      IsGreatest {safe | SelfSupporting nodes edges safe} {id | id ∈ s.kept} ∧
      (∃ root, ReflTransGen (Passes nodes edges) "old" root ∧ Stuck nodes edges root) ∧
      ∀ id, id ∈ (Survey.ofGraph nodes.reverse edges).kept ↔ id ∈ s.kept := by
  intro nodes edges s
  have distinct : (nodes.map (·.id)).Nodup := by decide
  obtain ⟨-, greatest, -, chained, anyOrder⟩ := survey_greatest distinct edges
  have kept : s.kept = ["rich", "known"] := by decide +kernel
  have dropped : s.dropped.map (·.1) = ["wise", "old"] := by decide +kernel
  have absent : "old" ∉ s.kept := kept ▸ by decide
  exact ⟨kept, dropped, greatest, (chained "old" (by decide)).mp absent,
    anyOrder _ nodes.reverse_perm.symm⟩

end Parley.Compile
