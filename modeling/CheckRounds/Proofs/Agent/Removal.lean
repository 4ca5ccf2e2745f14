import CheckRounds.Proofs.Agent.Reachable

namespace CheckRounds

/-! Servers that were removed stay removed.

A name can be registered again, but the server that it stands for then is a new one, with a
number of its own.
-/

namespace Agent

/-- A server that is registered afterwards was so before, or it is new. -/
structure RegistersOnlyNew (before after : Agent) : Prop where
  longer : before.servers.length ≤ after.servers.length
  registered : ∀ owner < before.servers.length, after.Registered owner → before.Registered owner

variable {agent before middle after : Agent} {ref : HostRef} {owner : ServerRef}

theorem RegistersOnlyNew.trans (first : before.RegistersOnlyNew middle)
    (second : middle.RegistersOnlyNew after) : before.RegistersOnlyNew after where
  longer := Nat.le_trans first.longer second.longer
  registered owner old now :=
    first.registered owner old (second.registered owner (Nat.lt_of_lt_of_le old first.longer) now)

/-- The servers of an agent, without their hosts. -/
def serverIds (agent : Agent) : List String := agent.servers.map (·.id)

theorem getElem?_serverIds : agent.serverIds[owner]? = (agent.server? owner).map (·.id) :=
  List.getElem?_map

theorem registersOnlyNew_of_serverIds (ids : after.serverIds = before.serverIds)
    (named : ∀ {id owner}, after.serverNamed? id = some owner → before.serverNamed? id = some owner) :
    before.RegistersOnlyNew after where
  longer := by
    have lengths := congrArg List.length ids
    rw [serverIds, serverIds, List.length_map, List.length_map] at lengths
    exact Nat.le_of_eq lengths.symm
  registered owner _ registered := by
    obtain ⟨server, found, namedServer⟩ := registered
    have foundId : before.serverIds[owner]? = some server.id := by
      rw [← ids, getElem?_serverIds, found, Option.map_some]
    rw [getElem?_serverIds] at foundId
    obtain ⟨earlier, foundEarlier, sameId⟩ := Option.map_eq_some_iff.mp foundId
    exact ⟨earlier, foundEarlier, sameId ▸ named namedServer⟩

theorem registersOnlyNew_of_servers (servers : after.servers = before.servers)
    (registered : after.registered = before.registered) : before.RegistersOnlyNew after :=
  registersOnlyNew_of_serverIds (congrArg (List.map Server.id) servers) fun named => by
    rwa [serverNamed?, registered] at named

theorem serverIds_modifyServer {change : Server → Server} (sameId : ∀ server, (change server).id = server.id) :
    (agent.modifyServer owner change).serverIds = agent.serverIds := by
  refine List.ext_getElem? fun other => ?_
  rw [getElem?_serverIds, getElem?_serverIds, server?_modifyServer]
  split
  · cases agent.server? other with
    | none => rfl
    | some server => exact congrArg some (sameId server)
  · rfl

theorem serverIds_unregisterHost (name : String) :
    (agent.unregisterHost owner name).2.serverIds = agent.serverIds := by
  unfold unregisterHost
  split
  · rfl
  · rw [serverIds, servers_withdraw]
    exact serverIds_modifyServer fun _ => rfl

theorem serverIds_unregisterHosts (names : List String) :
    (agent.unregisterHosts owner names).serverIds = agent.serverIds := by
  unfold unregisterHosts
  induction names generalizing agent with
  | nil => rfl
  | cons name rest ih => rw [List.foldl_cons, ih, serverIds_unregisterHost]

theorem serverIds_unregisterServer (id : String) :
    (agent.unregisterServer id).2.serverIds = agent.serverIds := by
  unfold unregisterServer
  split
  · rfl
  · next owner _ =>
      let unregistered : Agent := { agent with registered := agent.registered.erase id }
      exact @serverIds_unregisterHosts unregistered owner _

theorem serverNamed?_unregisterServer (id other : String) :
    (agent.unregisterServer id).2.serverNamed? other =
      if other = id then none else agent.serverNamed? other := by
  unfold unregisterServer
  split
  · next unknown =>
      split
      · next same => exact same ▸ unknown
      · rfl
  · next owner _ =>
      let unregistered : Agent := { agent with registered := agent.registered.erase id }
      let names := ((agent.server? owner).map fun server => server.hosts.keys).getD []
      have erased : (unregistered.unregisterHosts owner names).registered = agent.registered.erase id :=
        registered_unregisterHosts names
      exact (congrArg (·.get? other) erased).trans SortedMap.get?_erase

/-- A server that is removed is no longer registered. -/
theorem not_registered_unregisterServer {server : Server} (found : agent.server? owner = some server) :
    ¬(agent.unregisterServer server.id).2.Registered owner := by
  intro registered
  obtain ⟨after, foundAfter, named⟩ := registered
  have sameId : after.id = server.id := by
    have ids := congrArg (·[owner]?) (agent.serverIds_unregisterServer server.id)
    simpa [getElem?_serverIds, found, foundAfter] using ids
  rw [serverNamed?_unregisterServer, if_pos sameId] at named
  contradiction

theorem registersOnlyNew_unregisterServer (id : String) :
    agent.RegistersOnlyNew (agent.unregisterServer id).2 := by
  refine registersOnlyNew_of_serverIds (serverIds_unregisterServer id) fun {other owner} named => ?_
  rw [serverNamed?_unregisterServer] at named
  split at named
  · contradiction
  · exact named

theorem RegistersOnlyNew.of_registerHost {config : HostConfig}
    (done : agent.registerHost owner config = .ok (ref, after)) : agent.RegistersOnlyNew after := by
  obtain ⟨server, _, _, rfl⟩ := registerHost_eq_ok done
  exact registersOnlyNew_of_serverIds (serverIds_modifyServer fun _ => rfl) id

theorem RegistersOnlyNew.of_registerHosts {configs : List HostConfig}
    (done : agent.registerHosts owner configs = .ok after) : agent.RegistersOnlyNew after := by
  induction configs generalizing agent with
  | nil =>
      rw [registerHosts, Except.ok.injEq] at done
      exact done ▸ registersOnlyNew_of_servers rfl rfl
  | cons config rest ih =>
      rw [registerHosts] at done
      split at done
      · contradiction
      · next registered => exact (RegistersOnlyNew.of_registerHost registered).trans (ih done)

theorem registersOnlyNew_enrolServer (config : ServerConfig) :
    agent.RegistersOnlyNew (agent.enrolServer config) where
  longer := by
    change _ ≤ (agent.servers ++ [agent.newServer config]).length
    rw [List.length_append]
    exact Nat.le_add_right _ _
  registered owner old registered := by
    obtain ⟨server, found, named⟩ := registered
    rcases server?_enrolServer.mp found with before | ⟨rfl, _⟩
    · rw [serverNamed?_enrolServer] at named
      split at named
      · rw [Option.some.injEq] at named
        exact absurd named.symm (Nat.ne_of_lt old)
      · exact ⟨server, before, named⟩
    · exact absurd old (Nat.lt_irrefl _)

theorem RegistersOnlyNew.of_registerServer {config : ServerConfig}
    (done : agent.registerServer config = .ok (owner, after)) : agent.RegistersOnlyNew after := by
  unfold registerServer at done
  split at done
  · contradiction
  · split at done
    · contradiction
    · split at done
      · contradiction
      · next filled =>
          cases done
          exact (registersOnlyNew_enrolServer config).trans (.of_registerHosts filled)

theorem registersOnlyNew_perform (agent : Agent) (operation : Operation) :
    agent.RegistersOnlyNew (agent.perform operation) := by
  cases operation with
  | registerServer config =>
      simp only [Agent.perform]
      split
      · next done => exact .of_registerServer done
      · exact registersOnlyNew_of_servers rfl rfl
  | registerHost server config =>
      simp only [Agent.perform]
      split
      · exact registersOnlyNew_of_servers rfl rfl
      · split
        · next done => exact .of_registerHost done
        · exact registersOnlyNew_of_servers rfl rfl
  | unregisterServer id => exact registersOnlyNew_unregisterServer id
  | unregisterHost server name =>
      refine registersOnlyNew_of_serverIds (serverIds_unregisterHost name) fun {id owner} named => ?_
      have namedAfter : (agent.unregisterHost server name).2.registered.get? id = some owner := named
      rwa [registered_unregisterHost] at namedAfter
  | applyOrders host orders now =>
      simp only [Agent.perform, applyOrders]
      split
      · exact registersOnlyNew_of_servers rfl rfl
      · exact registersOnlyNew_of_servers servers_reschedule registered_reschedule
  | withdraw host => exact registersOnlyNew_of_servers servers_withdraw registered_withdraw
  | noteSubmission server stats =>
      exact registersOnlyNew_of_serverIds (serverIds_modifyServer fun _ => rfl) id
  | noteFault _ _ _ | askState _ _ | askRefresh _ _ | keepValue _ _ _ _ =>
      simp only [Agent.perform, noteFault, hostState, wantsRefresh, keepValue]
      split <;> exact registersOnlyNew_of_servers rfl rfl
  | usePolicy _ | useCollation _ | advanceTimers _ | dropTicks =>
      exact registersOnlyNew_of_servers rfl rfl

end Agent

end CheckRounds
