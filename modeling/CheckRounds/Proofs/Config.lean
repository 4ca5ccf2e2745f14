import CheckRounds.Config

namespace CheckRounds

/-! What a configuration has to be like, said without the checks in their order, and that
the checks accept exactly that.

Servers are told apart by their ids.  An id names the address and the port, since no
numeral has a colon in it.
-/

/-- A text with something in it besides white space. -/
def Shows (text : String) : Prop := ∃ c ∈ text.toList, Text.isBlank c = false

theorem shows_iff {text : String} : Shows text ↔ ¬Text.isBlankText text = true := by
  simp [Text.isBlankText, Shows]

/-- A loop that checks items in order, each for itself and then against the keys before it. -/
theorem ok_iff_of_loop {α ε : Type} {loop : List String → List α → Except ε Unit}
    (Valid : α → Prop) (key : α → String) (nil : ∀ seen, loop seen [] = .ok ())
    (cons : ∀ seen item rest, loop seen (item :: rest) = .ok () ↔
      Valid item ∧ key item ∉ seen ∧ loop (key item :: seen) rest = .ok ())
    (seen : List String) (items : List α) :
    loop seen items = .ok () ↔ (∀ item ∈ items, Valid item) ∧ (items.map key).Nodup ∧
      ∀ item ∈ items, key item ∉ seen := by
  induction items generalizing seen with
  | nil => simp [nil]
  | cons item rest ih =>
      rw [cons, ih, List.forall_mem_cons, List.forall_mem_cons, List.map_cons, List.nodup_cons]
      simp only [List.mem_map, List.mem_cons, not_or, not_exists, not_and]
      constructor
      · intro ⟨valid, new, others, distinct, apart⟩
        exact ⟨⟨valid, others⟩, ⟨fun other member => (apart other member).1, distinct⟩, new,
          fun other member => (apart other member).2⟩
      · intro ⟨⟨valid, others⟩, ⟨different, distinct⟩, new, apart⟩
        exact ⟨valid, new, others, distinct,
          fun other member => ⟨different other member, apart other member⟩⟩

/-! ### Hosts -/

namespace HostConfig

structure Valid (host : HostConfig) : Prop where
  name : Shows host.name
  period : host.refreshPeriod ≠ some 0

theorem validate_iff {host : HostConfig} : host.validate = .ok () ↔ host.Valid := by
  unfold validate
  split
  · next blank =>
      refine iff_of_false (fun done => by contradiction) ?_
      exact fun valid => shows_iff.mp valid.name blank
  · next shows =>
      split
      · next zero =>
          exact iff_of_false (fun done => by contradiction) fun valid => valid.period zero
      · next period => exact iff_of_true rfl ⟨shows_iff.mpr shows, period⟩

end HostConfig

/-! ### Servers -/

namespace ServerConfig

structure Valid (server : ServerConfig) : Prop where
  address : Shows server.address
  port : server.portNumber ≠ 0
  period : server.refreshPeriod ≠ 0
  hosts : ∀ host ∈ server.hosts, host.Valid
  distinct : (server.hosts.map (·.name)).Nodup

theorem validateHosts_iff {server : String} {hosts : List HostConfig} :
    validateHosts server [] hosts = .ok () ↔
      (∀ host ∈ hosts, host.Valid) ∧ (hosts.map (·.name)).Nodup := by
  refine (ok_iff_of_loop HostConfig.Valid (·.name) (fun _ => rfl) ?_ [] hosts).trans ?_
  · intro seen host rest
    rw [validateHosts]
    split
    · next refused =>
        refine iff_of_false (fun done => by contradiction) ?_
        intro ⟨valid, _⟩
        rw [HostConfig.validate_iff.mpr valid] at refused
        contradiction
    · next accepted =>
        split
        · next known =>
            exact iff_of_false (fun done => by contradiction) fun ⟨_, new, _⟩ => new known
        · next new =>
            rw [and_iff_right (HostConfig.validate_iff.mp accepted), and_iff_right new]
  · simp

theorem validate_iff {server : ServerConfig} : server.validate = .ok () ↔ server.Valid := by
  unfold validate
  split
  · next blank =>
      refine iff_of_false (fun done => by contradiction) ?_
      exact fun valid => shows_iff.mp valid.address blank
  · next shows =>
      split
      · next zero =>
          exact iff_of_false (fun done => by contradiction) fun valid => valid.port zero
      · next port =>
          split
          · next zero =>
              exact iff_of_false (fun done => by contradiction) fun valid => valid.period zero
          · next period =>
              rw [validateHosts_iff]
              exact ⟨fun ⟨hosts, distinct⟩ => ⟨shows_iff.mpr shows, port, period, hosts, distinct⟩,
                fun valid => ⟨valid.hosts, valid.distinct⟩⟩

/-- What is in front of the last occurrence of an item, and what is behind it. -/
theorem eq_and_eq_of_append_cons {α : Type} {item : α} {front front' back back' : List α}
    (last : item ∉ back) (last' : item ∉ back')
    (same : front ++ item :: back = front' ++ item :: back') : front = front' ∧ back = back' := by
  obtain ⟨between, rfl, split⟩ | ⟨between, rfl, split⟩ := List.append_eq_append_iff.mp same
  · cases between with
    | nil => exact ⟨(List.append_nil _).symm, (List.cons.inj split).2⟩
    | cons first rest =>
        refine absurd ?_ last
        rw [(List.cons.inj split).2]
        exact List.mem_append_right _ List.mem_cons_self
  · cases between with
    | nil => exact ⟨List.append_nil _, (List.cons.inj split).2.symm⟩
    | cons first rest =>
        refine absurd ?_ last'
        rw [(List.cons.inj split).2]
        exact List.mem_append_right _ List.mem_cons_self

theorem colon_not_mem_toDigits (number : Nat) : ':' ∉ Nat.toDigits 10 number := by
  intro member
  have isDigit := Nat.isDigit_of_mem_toDigits (by decide) (by decide) member
  contradiction

theorem toDigits_inj {number number' : Nat} (same : Nat.toDigits 10 number = Nat.toDigits 10 number') :
    number = number' := by
  rw [← @Nat.ofDigitChars_ten_toDigits number, same, Nat.ofDigitChars_ten_toDigits]

/-- An id stands for one address and one port. -/
theorem id_eq_id_iff {first second : ServerConfig} : first.id = second.id ↔
    first.address = second.address ∧ first.portNumber = second.portNumber := by
  have toList_id (server : ServerConfig) : server.id.toList =
      server.address.toList ++ ':' :: Nat.toDigits 10 server.portNumber := by
    simp [id, toString, Nat.repr]
  constructor
  · intro same
    have sameText := congrArg String.toList same
    rw [toList_id, toList_id] at sameText
    obtain ⟨sameAddress, sameDigits⟩ := eq_and_eq_of_append_cons (colon_not_mem_toDigits _)
      (colon_not_mem_toDigits _) sameText
    exact ⟨String.toList_inj.mp sameAddress, toDigits_inj sameDigits⟩
  · intro ⟨sameAddress, samePort⟩
    rw [id, id, sameAddress, samePort]

end ServerConfig

/-! ### Agents -/

namespace Config

structure Valid (config : Config) : Prop where
  sweep : 1 ≤ config.agent.refreshSweep
  timeout : 1 ≤ config.agent.timeout
  servers : ∀ server ∈ config.servers, server.Valid
  distinct : config.servers.Pairwise fun first second =>
    ¬(first.address = second.address ∧ first.portNumber = second.portNumber)

theorem nodup_ids_iff {servers : List ServerConfig} : (servers.map (·.id)).Nodup ↔
    servers.Pairwise fun first second =>
      ¬(first.address = second.address ∧ first.portNumber = second.portNumber) := by
  rw [List.nodup_iff_pairwise_ne, List.pairwise_map]
  exact ⟨fun distinct => distinct.imp fun different same => different (ServerConfig.id_eq_id_iff.mpr same),
    fun apart => apart.imp fun different same => different (ServerConfig.id_eq_id_iff.mp same)⟩

theorem validateServers_iff {servers : List ServerConfig} : validateServers [] servers = .ok () ↔
    (∀ server ∈ servers, server.Valid) ∧ (servers.map (·.id)).Nodup := by
  refine (ok_iff_of_loop ServerConfig.Valid (·.id) (fun _ => rfl) ?_ [] servers).trans ?_
  · intro seen server rest
    rw [validateServers]
    split
    · next refused =>
        refine iff_of_false (fun done => by contradiction) ?_
        intro ⟨valid, _⟩
        rw [ServerConfig.validate_iff.mpr valid] at refused
        contradiction
    · next accepted =>
        split
        · next known =>
            exact iff_of_false (fun done => by contradiction) fun ⟨_, new, _⟩ => new known
        · next new =>
            rw [and_iff_right (ServerConfig.validate_iff.mp accepted), and_iff_right new]
  · simp

theorem validate_iff {config : Config} : config.validate = .ok () ↔ config.Valid := by
  unfold validate
  split
  · next zero =>
      refine iff_of_false (fun done => by contradiction) fun valid => ?_
      have sweep := valid.sweep
      omega
  · next sweep =>
      split
      · next zero =>
          refine iff_of_false (fun done => by contradiction) fun valid => ?_
          have timeout := valid.timeout
          omega
      · next timeout =>
          rw [validateServers_iff, nodup_ids_iff]
          exact ⟨fun ⟨servers, distinct⟩ =>
              ⟨Nat.one_le_iff_ne_zero.mpr sweep, Nat.one_le_iff_ne_zero.mpr timeout, servers, distinct⟩,
            fun valid => ⟨valid.servers, valid.distinct⟩⟩

end Config

end CheckRounds
