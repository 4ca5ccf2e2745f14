import CheckRounds.Proofs.Message.Reply
import CheckRounds.Proofs.Text.Patterns

namespace CheckRounds

/-! When a refusal means that the server does not know the host, and what becomes of every other
refusal.

The reason is searched for a pattern.  Brackets around the name of the host, and however much of
the line is passed over between the name and what is said of it, make no difference to whether
the pattern is found.
-/

open Text (Pattern Spells)

namespace Reply

variable {info : List Char}

/-- A host, whose name may be in brackets, is not found or not monitored, or has no checks. -/
def unknownHostPattern : Pattern :=
  .either
    (.sequence [.word "host ", .optional (.word "["), .many (· ≠ '\n'), .optional (.word "]"),
      .word " not ", .group (.either (.word "found") (.word "monitored"))])
    (.word "no active checks on server")

/-- One of two words behind another. -/
theorem spells_either_append_iff {front first second text : List Char} :
    (Spells (front ++ first) text ∨ Spells (front ++ second) text) ↔
      ∃ early late, text = early ++ late ∧ Spells front early ∧
        (Spells first late ∨ Spells second late) := by
  simp only [Text.spells_append_iff, and_or_left, exists_or]

theorem no_lineFeed_of_optional {letters : String} {text : List Char} (oneLine : '\n' ∉ letters.toList)
    (accepted : text = [] ∨ Spells letters.toList text) : '\n' ∉ text := by
  rcases accepted with rfl | spells
  · exact List.not_mem_nil
  · exact spells.no_lineFeed oneLine

theorem finds_unknownHostPattern_iff : unknownHostPattern.Finds info ↔ SaysUnknownHost info := by
  have words := @spells_either_append_iff " not ".toList "found".toList "monitored".toList
  rw [unknownHostPattern, Pattern.finds_either, SaysUnknownHost]
  simp only [Pattern.Finds, Pattern.accepts_sequence_cons, Pattern.accepts_sequence_nil,
    Pattern.accepts_word, Pattern.accepts_optional, Pattern.accepts_many, Pattern.accepts_group,
    Pattern.accepts_either]
  refine or_congr_left ?_
  constructor
  · rintro ⟨before, _, after, split, host, _, rfl, spells, opening, _, rfl, bracket, passed, _, rfl,
      oneLine, closing, _, rfl, bracket', early, _, rfl, spellsNot, late, _, rfl, said, rfl⟩
    refine ⟨before, host, opening ++ passed ++ closing, early ++ late, after, ?_, spells, ?_, ?_⟩
    · simp [split]
    · have openingLine := no_lineFeed_of_optional (by decide) bracket
      have closingLine := no_lineFeed_of_optional (by decide) bracket'
      have passedLine : '\n' ∉ passed := fun inside => by simpa using oneLine '\n' inside
      simp [openingLine, passedLine, closingLine]
    · exact words.mpr ⟨early, late, rfl, spellsNot, said⟩
  · rintro ⟨before, host, between, missing, after, split, spells, oneLine, said⟩
    obtain ⟨early, late, rfl, spellsNot, said⟩ := words.mp said
    have passed : ∀ c ∈ between, decide (c ≠ '\n') = true :=
      fun c inside => decide_eq_true fun same => oneLine (same ▸ inside)
    refine ⟨before, host ++ ([] ++ (between ++ ([] ++ (early ++ (late ++ []))))), after, by simp [split], ?_⟩
    exact ⟨host, _, rfl, spells, [], _, rfl, .inl rfl, between, _, rfl, passed, [], _, rfl, .inl rfl,
      early, _, rfl, spellsNot, late, [], rfl, said, rfl⟩

/-- A refusal is taken for an unknown host just when its reason says so, which is when the
pattern is found in it; any other refusal is told with its reason as it is.  The reason is the
info, or the response if there is none.  What is accepted is never taken for a refusal. -/
theorem marchingOrders_by_reason (reply : Reply) (host : String) :
    let reason := reply.info.getD reply.response
    (unknownHostPattern.Finds reason.toList ↔ SaysUnknownHost reason.toList) ∧
    (reply.response ≠ "success" →
      (reply.marchingOrders host = .error (.unknownHost host) ↔ SaysUnknownHost reason.toList) ∧
      (reply.marchingOrders host = .error (.rejected reason) ↔ ¬SaysUnknownHost reason.toList)) ∧
    (reply.response = "success" → reply.marchingOrders host = .ok (reply.orders.getD [])) := by
  intro reason
  refine ⟨finds_unknownHostPattern_iff, ?_, ?_⟩
  · intro refused
    have refused : reply.isAccepted = false := by simpa [isAccepted] using refused
    rw [marchingOrders, refused, ← saysUnknownHost_iff, show reply.reason = reason from rfl]
    cases saysUnknownHost reason <;> simp
  · intro accepted
    have accepted : reply.isAccepted = true := by simpa [isAccepted] using accepted
    rw [marchingOrders, accepted]
    rfl

/-- A later occurrence counts, in any case and with or without brackets; what stands on the next
line does not. -/
theorem marchingOrders_by_reason_across_lines :
    let refusal (info : String) : Reply := { response := "failed", info := some info }
    (refusal "Host a\nhoſt [b] NOT MONITORED").marchingOrders "b" = .error (.unknownHost "b") ∧
      (refusal "host a\n not found").marchingOrders "a" = .error (.rejected "host a\n not found") := by
  intro refusal
  have refused (info : String) : (refusal info).response ≠ "success" :=
    show "failed" ≠ "success" by decide
  have known (info : String) := ((marchingOrders_by_reason (refusal info) "b").2.1 (refused info)).1
  have other (info : String) := ((marchingOrders_by_reason (refusal info) "a").2.1 (refused info)).2
  refine ⟨(known _).mpr ((saysUnknownHost_iff _).mp (by decide +kernel)), (other _).mpr ?_⟩
  exact fun said => absurd ((saysUnknownHost_iff _).mpr said) (by decide +kernel)

end Reply

end CheckRounds
