import CheckRounds.Proofs.Text.Words

namespace CheckRounds.Text

/-! Patterns of texts, and which texts match them.

A pattern says which texts it matches and not how a match is looked for.  Where a text could be
divided in several ways, each of them is a match; groups are the parts of the text that a match
singles out.
-/

inductive Pattern
  | word (letters : String)
  | many (allowed : Char → Bool)
  | several (allowed : Char → Bool)
  | optional (part : Pattern)
  | either (first second : Pattern)
  | pair (first second : Pattern)
  | group (part : Pattern)

namespace Pattern

/-- Parts that follow each other. -/
def sequence : List Pattern → Pattern
  | [] => .word ""
  | first :: rest => .pair first (sequence rest)

/-- A whole text matches, and these are the groups that took part, in order.  Words match in
any case. -/
def Matches : Pattern → List Char → List (List Char) → Prop
  | .word letters, text, groups => Spells letters.toList text ∧ groups = []
  | .many allowed, text, groups => text.all allowed = true ∧ groups = []
  | .several allowed, text, groups => text ≠ [] ∧ text.all allowed = true ∧ groups = []
  | .optional part, text, groups => (text = [] ∧ groups = []) ∨ part.Matches text groups
  | .either first second, text, groups => first.Matches text groups ∨ second.Matches text groups
  | .pair first second, text, groups => ∃ front back early late,
      text = front ++ back ∧ groups = early ++ late ∧
        first.Matches front early ∧ second.Matches back late
  | .group part, text, groups => ∃ inner, groups = text :: inner ∧ part.Matches text inner

/-- A whole text matches, whatever the groups are. -/
def Accepts (pattern : Pattern) (text : List Char) : Prop := ∃ groups, pattern.Matches text groups

/-- A match stands somewhere in a text. -/
def Finds (pattern : Pattern) (text : List Char) : Prop :=
  ∃ before found after, text = before ++ found ++ after ∧ pattern.Accepts found

variable {part first second : Pattern} {rest : List Pattern} {text : List Char}
  {groups : List (List Char)} {letters : String} {allowed : Char → Bool}

theorem matches_sequence_nil : (sequence []).Matches text groups ↔ text = [] ∧ groups = [] := by
  simp [sequence, Matches, Spells]

theorem matches_sequence_cons : (sequence (first :: rest)).Matches text groups ↔
    ∃ front back early late, text = front ++ back ∧ groups = early ++ late ∧
      first.Matches front early ∧ (sequence rest).Matches back late := Iff.rfl

@[simp] theorem accepts_word : (word letters).Accepts text ↔ Spells letters.toList text := by
  simp [Accepts, Matches]

@[simp] theorem accepts_many : (many allowed).Accepts text ↔ ∀ c ∈ text, allowed c = true := by
  simp [Accepts, Matches]

@[simp] theorem accepts_optional : (optional part).Accepts text ↔ text = [] ∨ part.Accepts text := by
  simp [Accepts, Matches, exists_or]

@[simp] theorem accepts_either :
    (either first second).Accepts text ↔ first.Accepts text ∨ second.Accepts text := by
  simp [Accepts, Matches, exists_or]

@[simp] theorem accepts_group : (group part).Accepts text ↔ part.Accepts text :=
  ⟨fun ⟨_, inner, _, matched⟩ => ⟨inner, matched⟩, fun ⟨inner, matched⟩ => ⟨_, inner, rfl, matched⟩⟩

@[simp] theorem accepts_pair : (pair first second).Accepts text ↔
    ∃ front back, text = front ++ back ∧ first.Accepts front ∧ second.Accepts back := by
  constructor
  · intro ⟨_, front, back, early, late, split, _, matched, matched'⟩
    exact ⟨front, back, split, ⟨early, matched⟩, ⟨late, matched'⟩⟩
  · intro ⟨front, back, split, ⟨early, matched⟩, ⟨late, matched'⟩⟩
    exact ⟨early ++ late, front, back, early, late, split, rfl, matched, matched'⟩

theorem accepts_sequence_nil : (sequence []).Accepts text ↔ text = [] := by
  simp [sequence, Spells]

theorem accepts_sequence_cons : (sequence (first :: rest)).Accepts text ↔
    ∃ front back, text = front ++ back ∧ first.Accepts front ∧ (sequence rest).Accepts back :=
  accepts_pair

/-- A pattern stands for things of a kind: it matches as what one of them is written, and the
groups are those that this one has. -/
def StandsFor {α : Type} (pattern : Pattern) (write : α → List Char)
    (groupsOf : α → List (List Char)) : Prop :=
  ∀ text groups, pattern.Matches text groups ↔ ∃ item, write item = text ∧ groupsOf item = groups

section Kinds

variable {α β : Type} {write : α → List Char} {groupsOf : α → List (List Char)}
  {write' : β → List Char} {groupsOf' : β → List (List Char)}

theorem standsFor_word (letters : String) :
    (word letters).StandsFor (fun spelled : {text // Spells letters.toList text} => spelled.1)
      fun _ => [] := by
  intro text groups
  constructor
  · rintro ⟨spells, rfl⟩
    exact ⟨⟨text, spells⟩, rfl, rfl⟩
  · rintro ⟨⟨_, spells⟩, rfl, rfl⟩
    exact ⟨spells, rfl⟩

theorem standsFor_many (allowed : Char → Bool) :
    (many allowed).StandsFor (fun run : {text : List Char // text.all allowed = true} => run.1)
      fun _ => [] := by
  intro text groups
  constructor
  · rintro ⟨all, rfl⟩
    exact ⟨⟨text, all⟩, rfl, rfl⟩
  · rintro ⟨⟨_, all⟩, rfl, rfl⟩
    exact ⟨all, rfl⟩

theorem standsFor_nil : (sequence []).StandsFor (fun _ : Unit => []) fun _ => [] := by
  intro text groups
  rw [matches_sequence_nil]
  constructor
  · rintro ⟨rfl, rfl⟩
    exact ⟨(), rfl, rfl⟩
  · rintro ⟨_, rfl, rfl⟩
    exact ⟨rfl, rfl⟩

theorem StandsFor.cons (stands : first.StandsFor write groupsOf)
    (others : (sequence rest).StandsFor write' groupsOf') :
    (sequence (first :: rest)).StandsFor (fun both : α × β => write both.1 ++ write' both.2)
      fun both => groupsOf both.1 ++ groupsOf' both.2 := by
  intro text groups
  rw [matches_sequence_cons]
  constructor
  · rintro ⟨front, back, early, late, rfl, rfl, matched, matched'⟩
    obtain ⟨item, rfl, rfl⟩ := (stands front early).mp matched
    obtain ⟨item', rfl, rfl⟩ := (others back late).mp matched'
    exact ⟨(item, item'), rfl, rfl⟩
  · rintro ⟨⟨item, item'⟩, rfl, rfl⟩
    exact ⟨write item, write' item', groupsOf item, groupsOf' item', rfl, rfl,
      (stands _ _).mpr ⟨item, rfl, rfl⟩, (others _ _).mpr ⟨item', rfl, rfl⟩⟩

theorem StandsFor.optional (stands : part.StandsFor write groupsOf) :
    (part.optional).StandsFor (fun item : Option α => item.elim [] write)
      fun item => item.elim [] groupsOf := by
  intro text groups
  constructor
  · rintro (⟨rfl, rfl⟩ | matched)
    · exact ⟨none, rfl, rfl⟩
    · obtain ⟨item, written, grouped⟩ := (stands text groups).mp matched
      exact ⟨some item, written, grouped⟩
  · rintro ⟨item, rfl, rfl⟩
    cases item with
    | none => exact .inl ⟨rfl, rfl⟩
    | some item => exact .inr ((stands _ _).mpr ⟨item, rfl, rfl⟩)

theorem StandsFor.group (stands : part.StandsFor write groupsOf) :
    (part.group).StandsFor write fun item => write item :: groupsOf item := by
  intro text groups
  constructor
  · rintro ⟨inner, rfl, matched⟩
    obtain ⟨item, rfl, rfl⟩ := (stands text inner).mp matched
    exact ⟨item, rfl, rfl⟩
  · rintro ⟨item, rfl, rfl⟩
    exact ⟨groupsOf item, rfl, (stands _ _).mpr ⟨item, rfl, rfl⟩⟩

/-- The things may be of another kind, if each of it is made of one of the first. -/
theorem StandsFor.onto (stands : part.StandsFor write groupsOf) (make : α → β)
    (all : Function.Surjective make)
    (same : ∀ item, write' (make item) = write item ∧ groupsOf' (make item) = groupsOf item) :
    part.StandsFor write' groupsOf' := by
  intro text groups
  rw [stands, all.exists]
  refine exists_congr fun item => ?_
  rw [(same item).1, (same item).2]

end Kinds

theorem finds_either : (first.either second).Finds text ↔ first.Finds text ∨ second.Finds text := by
  simp only [Finds, accepts_either, and_or_left, exists_or]

end Pattern

end CheckRounds.Text
