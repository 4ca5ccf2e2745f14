import CheckRounds.Proofs.Round.Execution
import CheckRounds.Round

namespace CheckRounds

/-! What the units of a round get done.

However the checks of a server are divided into units, together these cover all of them
and none twice.  So no unit comes across a check that another one has executed before, and
each does what it would have done alone.
-/

open Agent (place Apart)

/-! ### Plans -/

/-- What the checks are that a scope covers. -/
inductive Coverage.Covers (agent : Agent) (delay : Nat) : Coverage → List (HostRef × Check) → Prop
  | server (ref : ServerRef) :
      Covers agent delay (.server ref) (agent.allDue ref delay)
  | host (ref : HostRef) : Covers agent delay (.host ref) (agent.dueItems delay ref)
  | check {item : HostRef × Check} (found : agent.check? item.1 item.2.key = some item.2) :
      Covers agent delay (.check item.1 item.2.key) [item]

namespace WorkPolicy

variable {agent : Agent}

/-- The checks of each unit, in the order of the plan. -/
def portions (policy : WorkPolicy) (agent : Agent) (owner : ServerRef) (delay : Nat) :
    List (List (HostRef × Check)) :=
  match policy with
  | .server => if (agent.dueHosts owner delay).isEmpty then [] else [agent.allDue owner delay]
  | .host => (agent.dueHosts owner delay).map (agent.dueItems delay)
  | .check => (agent.allDue owner delay).map fun item => [item]

theorem flatten_portions (policy : WorkPolicy) (agent : Agent) (owner : ServerRef) (delay : Nat) :
    (policy.portions agent owner delay).flatten = agent.allDue owner delay := by
  cases policy with
  | server =>
      rw [portions, Agent.allDue]
      cases agent.dueHosts owner delay <;> simp
  | host => rfl
  | check => rw [portions, ← List.flatMap_def, List.flatMap_singleton']

theorem covers_portions (policy : WorkPolicy) (owner : ServerRef) (delay : Nat) (sound : agent.Sound) :
    List.Forall₂ (Coverage.Covers agent delay) (policy.scopes agent owner delay)
      (policy.portions agent owner delay) := by
  cases policy with
  | server =>
      rw [scopes, portions]
      split
      · exact .nil
      · exact .cons (.server owner) .nil
  | host =>
      rw [scopes, portions, List.forall₂_map_left_iff, List.forall₂_map_right_iff, List.forall₂_same]
      exact fun ref _ => .host ref
  | check =>
      have each : scopes .check agent owner delay =
          (agent.allDue owner delay).map fun item => .check item.1 item.2.key := by
        simp [scopes, Agent.allDue, Agent.dueItems, List.map_flatMap, Function.comp_def]
      rw [each, portions, List.forall₂_map_left_iff, List.forall₂_map_right_iff, List.forall₂_same]
      intro item inside
      obtain ⟨ref, _, due⟩ := List.mem_flatMap.mp inside
      exact .check (sound.check?_of_mem_dueItems due)

theorem covers_scopes (policy : WorkPolicy) (owner : ServerRef) (delay : Nat) (sound : agent.Sound) :
    ∃ portions, List.Forall₂ (Coverage.Covers agent delay) (policy.scopes agent owner delay) portions ∧
      portions.flatten = agent.allDue owner delay :=
  ⟨_, policy.covers_portions owner delay sound, policy.flatten_portions agent owner delay⟩

end WorkPolicy

/-! ### Units -/

namespace Collecting

variable {surroundings : Surroundings} {start : World} {earlier done : List (HostRef × Check)}
  {now : Collecting} {delay : Nat}

theorem Progress.executeHosts (progress : Progress surroundings start earlier done now)
    (harmless : surroundings.Harmless) (sound : start.agent.Sound) (hosts : List HostRef)
    (apart : Apart (earlier ++ done ++ hosts.flatMap (start.agent.dueItems delay))) :
    ∃ after, now.executeHosts surroundings delay hosts =
        (.ok (surroundings.tallyOf start.agent (hosts.flatMap (start.agent.dueItems delay))), after) ∧
      Progress surroundings start earlier (done ++ hosts.flatMap (start.agent.dueItems delay)) after := by
  induction hosts generalizing done now with
  | nil =>
      rw [List.flatMap_nil, List.append_nil]
      exact ⟨now, rfl, progress⟩
  | cons ref rest ih =>
      rw [List.flatMap_cons] at apart ⊢
      obtain ⟨first, others⟩ := apart.split
      obtain ⟨middle, executed, progress⟩ :=
        progress.executeDue harmless sound fun _ inside => first.fresh inside
      obtain ⟨after, executedRest, progress⟩ := ih progress others
      refine ⟨after, ?_, ?_⟩
      · rw [Collecting.executeHosts, executed]
        dsimp only
        rw [executedRest, Surroundings.tallyOf_append]
      · rwa [List.append_assoc] at progress

theorem Progress.runUnit (progress : Progress surroundings start earlier done now)
    (harmless : surroundings.Harmless) (sound : start.agent.Sound) {scope : Coverage}
    {portion : List (HostRef × Check)} (covers : scope.Covers start.agent delay portion)
    (apart : Apart (earlier ++ done ++ portion)) :
    ∃ after, now.runUnit surroundings ⟨delay, scope⟩ =
        (.ok (surroundings.tallyOf start.agent portion), after) ∧
      Progress surroundings start earlier (done ++ portion) after := by
  unfold Collecting.runUnit
  cases covers with
  | server ref =>
      dsimp only
      rw [progress.executed.dueHosts_eq]
      exact progress.executeHosts harmless sound _ apart
  | host ref => exact progress.executeDue harmless sound fun _ inside => apart.fresh inside
  | check found =>
      obtain ⟨after, executed, progress⟩ :=
        progress.executeKeyed harmless found (apart.fresh List.mem_cons_self)
      refine ⟨after, ?_, progress⟩
      dsimp only
      rw [executed, Surroundings.tallyOf_singleton]

end Collecting

end CheckRounds
