import Parley.Graph.Inspection
import Parley.Proofs.Graph.Regular

/-!
# What an inspection finds

An inspection fails exactly if an edge does not match or the entry is not connected, and it warns
about an action or a conditional exactly if no edge leaves one of its outputs.  Each node is judged
by its own edges.
-/

namespace Parley

namespace Check

variable {checks : List Check} {c : Check} {name id : String}

/-- Whether a warning of a name is pinned to a node. -/
def Warns (checks : List Check) (name id : String) : Prop :=
  ∃ c ∈ checks, c.severity = .warn ∧ c.name = name ∧ c.node = some id

theorem anyFailure_iff : anyFailure checks = true ↔ ∃ c ∈ checks, c.severity = .fail := by
  simp [anyFailure]

/-- Without warnings no node is warned about. -/
theorem not_warns (quiet : anyWarning checks = false) : ¬ Warns checks name id := by
  rintro ⟨c, member, warning, -⟩
  have loud : anyWarning checks = true := List.any_eq_true.mpr ⟨c, member, by simp [warning]⟩
  rw [quiet] at loud
  cases loud

end Check

namespace Inspection

variable {g : Graph} {n : Node} {c : Check} {found : List Check} {name passed id : String}

theorem mem_concern : c ∈ concern found name passed ↔
    c ∈ found ∨ found = [] ∧ c = Check.passed name passed := by
  rw [concern]
  cases found <;> simp

/-- A check of one concern that is no pass is one of those that were found. -/
theorem mem_found (member : c ∈ concern found name passed) (other : c.severity ≠ .pass) :
    c ∈ found := by
  rcases mem_concern.mp member with there | ⟨-, rfl⟩
  · exact there
  · exact absurd rfl other

theorem mem_actionChecks : c ∈ actionChecks g n ↔ ∃ d, n.payload = .action d ∧
    g.edgesFrom n.id (some Port.actionResult.name) = [] ∧
    c = Check.warning "dangling_action"
      ("Action '" ++ nonempty d.label n.id ++ "' leads nowhere") (some n.id) := by
  rw [actionChecks]
  cases n.payload with
  | action d =>
      by_cases free : g.edgesFrom n.id (some Port.actionResult.name) = [] <;> simp [free]
  | _ => simp

theorem missingBranches_eq_nil : missingBranches g id = [] ↔
    ∀ port ∈ Port.outputs .conditional, g.edgesFrom id (some port.name) ≠ [] := by
  simp [missingBranches, Port.outputs, List.filter_eq_nil_iff]

theorem mem_conditionalChecks : c ∈ conditionalChecks g n ↔ ∃ d, n.payload = .conditional d ∧
    missingBranches g n.id ≠ [] ∧ c = Check.warning "unwired_conditional"
      ("Condition on '" ++ nonempty d.value n.id ++ "' has no " ++
        " or ".intercalate ((missingBranches g n.id).map Port.name) ++
        " branch and will not be exported") (some n.id) := by
  rw [conditionalChecks]
  cases n.payload with
  | conditional d => cases missingBranches g n.id <;> simp
  | _ => simp

/-- What is found about a result is a warning of one of two names. -/
theorem of_mem_resultChecks (member : c ∈ resultChecks g n) : c.severity = .warn ∧
    (c.name = "preferred_not_connected" ∨ c.name = "close_with_actions") := by
  rw [resultChecks] at member
  split at member
  next d _ =>
    rcases List.mem_append.mp member with member | member
    · split at member
      next preferred _ =>
        split at member
        next => cases member
        next => exact List.mem_singleton.mp member ▸ ⟨rfl, .inl rfl⟩
      next => cases member
    · split at member
      next => exact List.mem_singleton.mp member ▸ ⟨rfl, .inr rfl⟩
      next => cases member
  next => cases member

/-- What is found about actions, conditionals, results and the paths between nodes are warnings, and
what they are called tells what they are about. -/
theorem of_mem_warnings (member : c ∈ actions g ++ conditionals g ++ results g ++ reachability g)
    (other : c.severity ≠ .pass) : c.severity = .warn ∧
      ((∃ n ∈ g.nodes, c ∈ actionChecks g n ∨ c ∈ conditionalChecks g n) ∨
        c.name ∈ ["preferred_not_connected", "close_with_actions", "unreachable_node"]) := by
  rcases List.mem_append.mp member with member | member
  · rcases List.mem_append.mp member with member | member
    · rcases List.mem_append.mp member with member | member
      · obtain ⟨n, there, check⟩ := List.mem_flatMap.mp (mem_found member other)
        obtain ⟨d, -, -, warning⟩ := mem_actionChecks.mp check
        exact ⟨by rw [warning]; rfl, .inl ⟨n, there, .inl check⟩⟩
      · obtain ⟨n, there, check⟩ := List.mem_flatMap.mp (mem_found member other)
        obtain ⟨d, -, -, warning⟩ := mem_conditionalChecks.mp check
        exact ⟨by rw [warning]; rfl, .inl ⟨n, there, .inr check⟩⟩
    · obtain ⟨n, there, check⟩ := List.mem_flatMap.mp (mem_found member other)
      obtain ⟨warning, named⟩ := of_mem_resultChecks check
      exact ⟨warning, .inr (by rcases named with named | named <;> simp [named])⟩
  · obtain ⟨n, -, rfl⟩ := List.mem_map.mp (mem_found member other)
    exact ⟨rfl, .inr (by simp [Check.warning])⟩

theorem mem_integrity_fail : (∃ c ∈ integrity g, c.severity = .fail) ↔ g.violations ≠ [] := by
  constructor
  · rintro ⟨c, member, fails⟩ none
    rw [integrity, none] at member
    exact absurd (mem_found member (by simp [fails])) List.not_mem_nil
  · intro some
    obtain ⟨v, there⟩ := List.exists_mem_of_ne_nil _ some
    exact ⟨_, mem_concern.mpr (.inl (List.mem_map_of_mem there)), rfl⟩

theorem mem_entry_fail : (∃ c ∈ entry g, c.severity = .fail) ↔
    g.edgesFrom g.entryId (some Port.initialTarget.name) = [] := by
  rw [entry]
  by_cases free : g.edgesFrom g.entryId (some Port.initialTarget.name) = []
  · simp [free, Check.failure]
  · simp [free, Check.passed]

theorem checks_eq (g : Graph) : (ofGraph g).checks = (integrity g ++ entry g) ++
    (actions g ++ conditionals g ++ results g ++ reachability g) := by
  simp only [ofGraph, List.append_assoc]

/-- An inspection fails where an edge does not match and where the entry is not connected. -/
theorem anyFailure_checks : Check.anyFailure (ofGraph g).checks = true ↔
    g.violations ≠ [] ∨ g.edgesFrom g.entryId (some Port.initialTarget.name) = [] := by
  rw [Check.anyFailure_iff, ← mem_integrity_fail, ← mem_entry_fail, checks_eq]
  constructor
  · rintro ⟨c, member, fails⟩
    rcases List.mem_append.mp member with member | member
    · rcases List.mem_append.mp member with member | member
      · exact .inl ⟨c, member, fails⟩
      · exact .inr ⟨c, member, fails⟩
    · rw [(of_mem_warnings member (by simp [fails])).1] at fails
      cases fails
  · rintro (⟨c, member, fails⟩ | ⟨c, member, fails⟩)
    · exact ⟨c, List.mem_append_left _ (List.mem_append_left _ member), fails⟩
    · exact ⟨c, List.mem_append_left _ (List.mem_append_right _ member), fails⟩

/-- The warnings of an inspection are about single actions and conditionals, or have other names. -/
theorem of_mem_checks (member : c ∈ (ofGraph g).checks) (warning : c.severity = .warn) :
    (∃ n ∈ g.nodes, c ∈ actionChecks g n ∨ c ∈ conditionalChecks g n) ∨
      c.name ∈ ["preferred_not_connected", "close_with_actions", "unreachable_node"] := by
  rw [checks_eq] at member
  rcases List.mem_append.mp member with member | member
  · rcases List.mem_append.mp member with member | member
    · obtain ⟨v, -, rfl⟩ := List.mem_map.mp (mem_found member (by simp [warning]))
      cases warning
    · rw [entry] at member
      split at member <;> rw [List.mem_singleton.mp member] at warning <;> cases warning
  · exact (of_mem_warnings member (by simp [warning])).2

/-- What is found about an action or a conditional is reported. -/
theorem mem_checks (there : n ∈ g.nodes)
    (check : c ∈ actionChecks g n ∨ c ∈ conditionalChecks g n) : c ∈ (ofGraph g).checks := by
  rw [checks_eq]
  refine List.mem_append_right _ (List.mem_append_left _ (List.mem_append_left _ ?_))
  rcases check with check | check
  · exact List.mem_append_left _ (mem_concern.mpr (.inl (List.mem_flatMap.mpr ⟨n, there, check⟩)))
  · exact List.mem_append_right _ (mem_concern.mpr (.inl (List.mem_flatMap.mpr ⟨n, there, check⟩)))

/-- An action is warned about where no edge leaves it. -/
theorem warns_dangling : Check.Warns (ofGraph g).checks "dangling_action" id ↔
    ∃ n ∈ g.nodes, n.id = id ∧ n.kind = .action ∧
      g.edgesFrom id (some Port.actionResult.name) = [] := by
  constructor
  · rintro ⟨c, member, warning, named, pinned⟩
    rcases of_mem_checks member warning with ⟨n, there, check | check⟩ | other
    · obtain ⟨d, payload, free, rfl⟩ := mem_actionChecks.mp check
      obtain rfl : n.id = id := Option.some.inj pinned
      exact ⟨n, there, rfl, Node.kind_eq_action.mpr ⟨d, payload⟩, free⟩
    · obtain ⟨d, -, -, rfl⟩ := mem_conditionalChecks.mp check
      exact absurd named (show "unwired_conditional" ≠ "dangling_action" by decide)
    · rw [named] at other
      exact absurd other (by decide)
  · rintro ⟨n, there, rfl, kind, free⟩
    obtain ⟨d, payload⟩ := Node.kind_eq_action.mp kind
    have check := mem_actionChecks.mpr ⟨d, payload, free, rfl⟩
    exact ⟨_, mem_checks there (.inl check), rfl, rfl, rfl⟩

/-- A conditional is warned about where no edge leaves one of its outputs. -/
theorem warns_unwired : Check.Warns (ofGraph g).checks "unwired_conditional" id ↔
    ∃ n ∈ g.nodes, n.id = id ∧ n.kind = .conditional ∧
      ∃ port ∈ Port.outputs .conditional, g.edgesFrom id (some port.name) = [] := by
  have missing (n : Node) : missingBranches g n.id ≠ [] ↔
      ∃ port ∈ Port.outputs .conditional, g.edgesFrom n.id (some port.name) = [] := by
    rw [Ne, missingBranches_eq_nil]
    simp only [ne_eq, not_forall, not_not, exists_prop]
  constructor
  · rintro ⟨c, member, warning, named, pinned⟩
    rcases of_mem_checks member warning with ⟨n, there, check | check⟩ | other
    · obtain ⟨d, -, -, rfl⟩ := mem_actionChecks.mp check
      exact absurd named (show "dangling_action" ≠ "unwired_conditional" by decide)
    · obtain ⟨d, payload, free, rfl⟩ := mem_conditionalChecks.mp check
      obtain rfl : n.id = id := Option.some.inj pinned
      exact ⟨n, there, rfl, Node.kind_eq_conditional.mpr ⟨d, payload⟩, (missing n).mp free⟩
    · rw [named] at other
      exact absurd other (by decide)
  · rintro ⟨n, there, rfl, kind, free⟩
    obtain ⟨d, payload⟩ := Node.kind_eq_conditional.mp kind
    have check := mem_conditionalChecks.mpr ⟨d, payload, (missing n).mpr free, rfl⟩
    exact ⟨_, mem_checks there (.inr check), rfl, rfl, rfl⟩

end Inspection

end Parley
