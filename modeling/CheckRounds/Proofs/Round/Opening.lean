import CheckRounds.Proofs.Collation.Streams
import CheckRounds.Round

namespace CheckRounds

/-! What is there once a round is opened.

A round that collects in a file has the file for itself: it was created for the round, under a
name that no other file had, and without it the directory is as it was.
-/

open Collation (Directory FileStore Store Stream TempFile)

namespace Surroundings

/-- The files of rounds that are opened under some settings take whatever is written to them. -/
def HasRoom (surroundings : Surroundings) (settings : RoundSettings) : Prop :=
  settings.collation.usesFile = true → ∀ directory file,
    surroundings.newFile settings.collationDir directory = .ok file → file.room.limit = none

/-- Rounds can be opened under some settings, and their files take whatever is written to them. -/
structure HasDirectory (surroundings : Surroundings) (settings : RoundSettings) : Prop where
  creates : settings.collation.usesFile = true → ∀ directory, ∃ file,
    surroundings.newFile settings.collationDir directory = .ok file ∧ directory.get? file.name = none
  hasRoom : surroundings.HasRoom settings

theorem hasDirectory_of_spareName {surroundings : Surroundings} (settings : RoundSettings)
    (given : ∀ place directory,
      surroundings.newFile place directory = .ok { name := directory.spareName }) :
    surroundings.HasDirectory settings where
  creates _ directory := ⟨_, given _ directory, directory.get?_spareName⟩
  hasRoom _ directory file same := by
    rw [given] at same
    cases same
    rfl

end Surroundings

variable {surroundings : Surroundings} {world after : World} {settings : RoundSettings}
  {stream : Stream}

namespace World

/-- A stream in memory changes nothing.  For any other one there is one more file. -/
theorem openStream_cases (opened : world.openStream surroundings settings = .ok (stream, after)) :
    (stream = .create settings.collation (.memory .create) ∧ after = world) ∨
      ∃ file, settings.collation.usesFile = true ∧
        surroundings.newFile settings.collationDir world.directory = .ok file ∧
        world.directory.get? file.name = none ∧
        stream = .create settings.collation
          (.disk (.create settings.collation.isDirect FileStore.defaultThreshold file)) ∧
        after = { world with directory := world.directory.insert file.name .empty } := by
  unfold openStream at opened
  split at opened
  · next uses =>
      split at opened
      · cases opened
      · next file stored created =>
          cases opened
          unfold createFile at created
          split at created
          · cases created
          · next given =>
              split at created
              · cases created
              · next made =>
                  cases created
                  obtain ⟨absent, rfl⟩ := Directory.create_eq_ok_iff.mp made
                  exact .inr ⟨file, uses, given, absent, rfl, rfl⟩
  · cases opened
    exact .inl ⟨rfl, rfl⟩

theorem exists_openStream (directory : surroundings.HasDirectory settings) (world : World) :
    ∃ stream after, world.openStream surroundings settings = .ok (stream, after) := by
  unfold openStream
  split
  · next uses =>
      obtain ⟨file, given, absent⟩ := directory.creates uses world.directory
      have made := Directory.create_eq_ok_iff.mpr ⟨absent, rfl⟩
      rw [createFile, given]
      dsimp only
      rw [made]
      exact ⟨_, _, rfl⟩
  · exact ⟨_, _, rfl⟩

/-- A stream that was just opened. -/
structure OpensStream (surroundings : Surroundings) (world : World) (settings : RoundSettings)
    (stream : Stream) (after : World) : Prop where
  create : ∃ store, stream = .create settings.collation store
  holds : surroundings.HasRoom settings → stream.Holds []
  changes : ∃ directory, after = { world with directory }
  directory : stream.release after.directory = world.directory

theorem opensStream (opened : world.openStream surroundings settings = .ok (stream, after)) :
    OpensStream surroundings world settings stream after := by
  obtain ⟨rfl, rfl⟩ | ⟨file, uses, given, absent, rfl, rfl⟩ := openStream_cases opened
  · constructor
    case create => exact ⟨_, rfl⟩
    case holds => exact fun _ => Stream.holds_create _ trivial rfl
    case changes => exact ⟨_, rfl⟩
    case directory => rfl
  · constructor
    case create => exact ⟨_, rfl⟩
    case holds =>
      intro roomy
      have unlimited := roomy uses world.directory file given
      exact Stream.holds_create _ ⟨FileStore.steady_create _ _ unlimited, rfl⟩ rfl
    case changes => exact ⟨_, rfl⟩
    case directory =>
      exact (Directory.without_insert _ _ _).trans (Directory.without_of_absent absent)

end World

namespace Round

variable {owner : ServerRef} {delay : Nat} {round : Round} {opened : World}

/-- A round that was begun, and the world with its file. -/
structure Begins (surroundings : Surroundings) (world : World) (owner : ServerRef) (delay : Nat)
    (round : Round) (opened : World) : Prop where
  terms : round.server = owner ∧ round.delay = delay ∧ round.settings = world.agent.settings
  mode : round.stream.mode = world.agent.settings.collation
  untouched : round.tally = {} ∧ round.fault = none
  collects : surroundings.HasRoom world.agent.settings → round.stream.Collects []
  changes : ∃ directory, opened = { world with directory }
  directory : round.stream.release opened.directory = world.directory

theorem begins_of_begin (begun : begin surroundings world owner delay = .ok (round, opened)) :
    Begins surroundings world owner delay round opened := by
  unfold begin at begun
  dsimp only at begun
  split at begun
  · cases begun
  · next stream _ streamed =>
      have opens := World.opensStream streamed
      have alone := stream.openFrame_alone
      split at begun
      · cases begun
      · next framed =>
          cases begun
          rw [framed] at alone
          obtain ⟨store, rfl⟩ := opens.create
          constructor
          case terms => exact ⟨rfl, rfl, rfl⟩
          case mode => exact alone.1
          case untouched => exact ⟨rfl, rfl⟩
          case collects =>
            intro roomy
            obtain ⟨framed', done, collects⟩ := Stream.collects_openFrame _ (opens.holds roomy)
            rw [framed] at done
            cases done
            exact collects
          case changes => exact opens.changes
          case directory =>
            rw [Stream.release, alone.2]
            exact opens.directory

theorem exists_begin (directory : surroundings.HasDirectory world.agent.settings)
    (owner : ServerRef) (delay : Nat) :
    ∃ round opened, begin surroundings world owner delay = .ok (round, opened) := by
  obtain ⟨stream, opened, streamed⟩ := World.exists_openStream directory world
  have opens := World.opensStream streamed
  obtain ⟨store, rfl⟩ := opens.create
  obtain ⟨framed, done, _⟩ := Stream.collects_openFrame _ (opens.holds directory.hasRoom)
  unfold begin
  dsimp only
  rw [streamed]
  dsimp only
  rw [done]
  exact ⟨_, _, rfl⟩

theorem start_eq_ok_iff : start surroundings world owner delay = .ok (round, opened) ↔
    ∃ begun, begin surroundings world owner delay = .ok (begun, opened) ∧
      round = begun.divide opened.agent := by
  unfold start
  cases begin surroundings world owner delay with
  | error fault => simp [Except.map]
  | ok next =>
      obtain ⟨begun, between⟩ := next
      simp only [Except.map, Except.ok.injEq, Prod.mk.injEq]
      constructor
      · rintro ⟨rfl, rfl⟩
        exact ⟨begun, ⟨rfl, rfl⟩, rfl⟩
      · rintro ⟨_, ⟨rfl, rfl⟩, rfl⟩
        exact ⟨rfl, rfl⟩

end Round

end CheckRounds
