import Dcpu16.Listing
import Dcpu16.Proofs.Encoding

/-!
# What a listing says of a program

A listing goes through a program from its first word to its last (`Listing.sweep`). It does not tell
an immediate operand below 20 (hexadecimal) from a literal, and it supplies the words that an
instruction at the end lacks. `Listing.normal` is the program with these differences removed: it is
the program itself exactly if there were none (`Listing.normal_eq_iff`), and it has none
(`Listing.settled_normal`).
-/
namespace Dcpu16

/-! ## Short literals -/

/-- Is there a literal for the inline word of the operand? -/
def Operand.Shortens (operand : Operand) : Prop :=
  operand.mode = .immediate ∧ operand.nextWord ≤ 0x1F

instance (operand : Operand) : Decidable operand.Shortens := inferInstanceAs (Decidable (_ ∧ _))

/-- The operand with a literal in place of its inline word, where there is one. -/
def Operand.shortened (operand : Operand) : Operand :=
  if operand.Shortens then { operand with mode := .literal operand.nextWord, nextWord := 0 }
  else operand

/-- The instruction with a literal in place of each inline word that there is one for. -/
def Instruction.shortened : Instruction → Instruction
  | .basic opcode a b => .basic opcode a.shortened b.shortened
  | .special opcode a => .special opcode a.shortened

section Shortened

variable {operand : Operand} {instruction : Instruction}

/-- An operand at rest is at rest with a literal, too. -/
theorem Operand.atRest_shortened {slot : Slot} (rest : operand.AtRest slot) :
    operand.shortened.AtRest slot := by
  unfold shortened
  split
  · next shortens =>
    exact ⟨rest.slot_eq, Mode.coded_literal shortens.2, fun _ => rfl, rest.registerValue_eq,
      rest.stackAddress_eq⟩
  · exact rest

/-- No literal is made of an operand twice. -/
theorem Operand.not_shortens_shortened (operand : Operand) : ¬operand.shortened.Shortens := by
  unfold shortened
  split
  · rintro ⟨immediate, -⟩
    cases immediate
  · next keeps => exact keeps

/-- Making a literal changes the code of the mode. -/
theorem Operand.code_shortened_ne (coded : operand.mode.Coded) (shortens : operand.Shortens) :
    operand.shortened.mode.code ≠ operand.mode.code := by
  intro same
  rw [shortened, if_pos shortens] at same
  have modes := Mode.code_injective (Mode.coded_literal shortens.2) coded same
  cases modes.trans shortens.1

/-- An operand that no literal is made of stays as it is. -/
theorem Operand.shortened_eq (keeps : ¬operand.Shortens) : operand.shortened = operand :=
  if_neg keeps

namespace Instruction

/-- An instruction at rest is at rest with literals, too. -/
theorem atRest_shortened (rest : instruction.AtRest) : instruction.shortened.AtRest := by
  cases instruction with
  | basic => exact ⟨Operand.atRest_shortened rest.1, Operand.atRest_shortened rest.2⟩
  | special => exact Operand.atRest_shortened rest

/-- No literal is made in an instruction twice. -/
theorem not_shortens_shortened (instruction : Instruction) :
    ∀ operand ∈ instruction.shortened.operands, ¬operand.Shortens := by
  cases instruction with
  | basic opcode a b =>
    simp only [shortened, operands, List.mem_cons, List.not_mem_nil, or_false, forall_eq_or_imp,
      forall_eq]
    exact ⟨a.not_shortens_shortened, b.not_shortens_shortened⟩
  | special opcode a =>
    simp only [shortened, operands, List.mem_singleton, forall_eq]
    exact a.not_shortens_shortened

/-- An instruction in which no literal is made stays as it is. -/
theorem shortened_eq (keeps : ∀ operand ∈ instruction.operands, ¬operand.Shortens) :
    instruction.shortened = instruction := by
  cases instruction with
  | basic opcode a b =>
    rw [shortened, Operand.shortened_eq (keeps a (by simp [operands])),
      Operand.shortened_eq (keeps b (by simp [operands]))]
  | special opcode a => rw [shortened, Operand.shortened_eq (keeps a (by simp [operands]))]

/-- Making a literal in an instruction changes its first word. -/
theorem toWord_shortened_ne (rest : instruction.AtRest) {operand : Operand}
    (member : operand ∈ instruction.operands) (shortens : operand.Shortens) :
    instruction.shortened.toWord ≠ instruction.toWord := by
  intro same
  have fields := congrArg fields same
  have short := atRest_shortened rest
  cases instruction with
  | basic opcode a b =>
    rw [shortened, fields_toWord_basic opcode short.1.slot_eq short.2.slot_eq short.1.coded
      short.2.coded, fields_toWord_basic opcode rest.1.slot_eq rest.2.slot_eq rest.1.coded
      rest.2.coded, Prod.mk.injEq, Prod.mk.injEq] at fields
    simp only [operands, List.mem_cons, List.not_mem_nil, or_false] at member
    rcases member with rfl | rfl
    · exact Operand.code_shortened_ne rest.1.coded shortens fields.2.1
    · exact Operand.code_shortened_ne rest.2.coded shortens fields.2.2
  | special opcode a =>
    rw [shortened, fields_toWord_special opcode short.slot_eq short.coded,
      fields_toWord_special opcode rest.slot_eq rest.coded, Prod.mk.injEq, Prod.mk.injEq] at fields
    rw [operands, List.mem_singleton] at member
    subst member
    exact Operand.code_shortened_ne rest.coded shortens fields.2.2

end Instruction

end Shortened

/-! ## Going through a program -/

namespace Listing

/-- What is left of a program at each of its lines. -/
def sweep : List Word → List (List Word)
  | [] => []
  | word :: words => (word :: words) :: sweep (words.drop (firstSize (word :: words) - 1))
termination_by words => words.length
decreasing_by
  simp only [List.length_drop, List.length_cons]
  omega

/-- The words that the first line stands for: an instruction with all its words and with literals,
or a single word. -/
def firstNormal (words : List Word) : List Word :=
  match Instruction.ofWords? words with
  | some instruction => instruction.shortened.words
  | none => words.take 1

/-- The words that the lines stand for. -/
def normal (words : List Word) : List Word := (sweep words).flatMap firstNormal

/-- No instruction that is met is cut off, and no literal can be made in one. -/
def Settled (words : List Word) : Prop :=
  ∀ suffix ∈ sweep words, ∀ instruction, Instruction.ofWords? suffix = some instruction →
    instruction.size ≤ suffix.length ∧ ∀ operand ∈ instruction.operands, ¬operand.Shortens

section Sweep

variable {word : Word} {words : List Word} {instruction : Instruction}

/-- Behind a word that is no instruction comes the next word. -/
theorem sweep_of_none (data : Instruction.ofWords? (word :: words) = none) :
    sweep (word :: words) = (word :: words) :: sweep words := by
  have size : firstSize (word :: words) = 1 := by
    unfold firstSize
    rw [data]
  rw [sweep, size]
  rfl

/-- Behind an instruction comes what is behind its words. -/
theorem sweep_of_some (found : Instruction.ofWords? words = some instruction) :
    sweep words = words :: sweep (words.drop instruction.size) := by
  cases words with
  | nil => cases found
  | cons word words =>
    have size : firstSize (word :: words) = instruction.size := by
      unfold firstSize
      rw [found]
    have behind : (word :: words).drop instruction.size = words.drop (instruction.size - 1) := by
      rw [← Nat.sub_add_cancel instruction.size_pos, List.drop_succ_cons, Nat.add_sub_cancel]
    rw [sweep, size, behind]

/-- A word that is no instruction stands for itself. -/
theorem normal_of_none (data : Instruction.ofWords? (word :: words) = none) :
    normal (word :: words) = word :: normal words := by
  unfold normal
  rw [sweep_of_none data, List.flatMap_cons]
  unfold firstNormal
  rw [data]
  rfl

/-- An instruction stands for itself with literals. -/
theorem normal_of_some (found : Instruction.ofWords? words = some instruction) :
    normal words = instruction.shortened.words ++ normal (words.drop instruction.size) := by
  unfold normal
  rw [sweep_of_some found, List.flatMap_cons]
  unfold firstNormal
  rw [found]

/-- In front of a word that is no instruction nothing changes whether a program is settled. -/
theorem settled_of_none (data : Instruction.ofWords? (word :: words) = none) :
    Settled (word :: words) ↔ Settled words := by
  unfold Settled
  rw [sweep_of_none data, List.forall_mem_cons]
  constructor
  · exact And.right
  · intro settled
    exact ⟨fun instruction found => (by rw [data] at found; cases found), settled⟩

/-- A program is settled if its first instruction is and what is behind this. -/
theorem settled_of_some (found : Instruction.ofWords? words = some instruction) :
    Settled words ↔ (instruction.size ≤ words.length ∧
      ∀ operand ∈ instruction.operands, ¬operand.Shortens) ∧
      Settled (words.drop instruction.size) := by
  unfold Settled
  rw [sweep_of_some found, List.forall_mem_cons]
  constructor
  · rintro ⟨first, rest⟩
    exact ⟨first instruction found, rest⟩
  · rintro ⟨first, rest⟩
    refine ⟨fun other same => ?_, rest⟩
    cases found.symm.trans same
    exact first

/-- A property of programs holds if it holds of none, and goes over from what is behind the first
line to the whole. -/
theorem sweep_induction {property : List Word → Prop} (nil : property [])
    (data : ∀ word words, Instruction.ofWords? (word :: words) = none → property words →
      property (word :: words))
    (decoded : ∀ words instruction, Instruction.ofWords? words = some instruction →
      property (words.drop instruction.size) → property words) (words : List Word) :
    property words := by
  induction length : words.length using Nat.strongRecOn generalizing words with
  | ind length ih =>
    subst length
    cases words with
    | nil => exact nil
    | cons word words =>
      cases found : Instruction.ofWords? (word :: words) with
      | none => exact data word words found (ih words.length (by simp) words rfl)
      | some instruction =>
        refine decoded _ instruction found (ih _ ?_ _ rfl)
        have some := instruction.size_pos
        simp only [List.length_drop, List.length_cons]
        omega

/-- A program is what its lines stand for exactly if it is settled. -/
theorem normal_eq_iff (words : List Word) : normal words = words ↔ Settled words := by
  induction words using sweep_induction with
  | nil => simp [normal, Settled, sweep]
  | data word words data ih =>
    rw [normal_of_none data, settled_of_none data, List.cons_inj_right, ih]
  | decoded words instruction found ih =>
    have rest := Instruction.atRest_of_ofWords? found
    rw [normal_of_some found, settled_of_some found, ← ih]
    constructor
    · intro same
      -- A literal would show in the first word, and a word that is missing in the length.
      have keeps : ∀ operand ∈ instruction.operands, ¬operand.Shortens := by
        intro operand member shortens
        cases words with
        | nil => cases found
        | cons word words =>
          apply Instruction.toWord_shortened_ne rest member shortens
          rw [Instruction.toWord_of_ofWords? found]
          exact (List.cons.inj same).1
      rw [Instruction.shortened_eq keeps] at same
      have whole : instruction.size ≤ words.length := by
        rw [← instruction.length_words, ← same, List.length_append]
        exact Nat.le_add_right _ _
      have parts := Instruction.words_append_drop found whole
      exact ⟨⟨whole, keeps⟩, List.append_cancel_left (same.trans parts.symm)⟩
    · rintro ⟨⟨whole, keeps⟩, same⟩
      rw [Instruction.shortened_eq keeps, same, Instruction.words_append_drop found whole]

/-- What the lines of a program stand for is settled. -/
theorem settled_normal (words : List Word) : Settled (normal words) := by
  induction words using sweep_induction with
  | nil => simp [normal, Settled, sweep]
  | data word words data ih =>
    have still : Instruction.ofWords? (word :: normal words) = none := by
      rw [Instruction.ofWords?, Option.map_eq_none_iff] at data ⊢
      exact data
    rw [normal_of_none data, settled_of_none still]
    exact ih
  | decoded words instruction found ih =>
    have rest := Instruction.atRest_shortened (Instruction.atRest_of_ofWords? found)
    have again := Instruction.ofWords?_words_append rest (normal (words.drop instruction.size))
    rw [normal_of_some found, settled_of_some again, ← Instruction.length_words, List.drop_left]
    refine ⟨⟨?_, instruction.not_shortens_shortened⟩, ih⟩
    rw [List.length_append]
    exact Nat.le_add_right _ _

/-- An instruction has at most three words. -/
theorem size_le (instruction : Instruction) : instruction.size ≤ 3 := by
  have few : instruction.operands.length ≤ 2 := by
    cases instruction <;> simp [Instruction.operands]
  exact Nat.add_le_add_left (Nat.le_trans List.countP_le_length few) 1

/-- The lines of a program stand for at most three words for each of its words. -/
theorem length_normal_le (words : List Word) : (normal words).length ≤ 3 * words.length := by
  induction words using sweep_induction with
  | nil => simp [normal, sweep]
  | data word words data ih =>
    rw [normal_of_none data, List.length_cons, List.length_cons]
    omega
  | decoded words instruction found ih =>
    have few := size_le instruction.shortened
    have some := instruction.size_pos
    have nonempty : 0 < words.length := by
      cases words with
      | nil => cases found
      | cons => simp
    rw [List.length_drop] at ih
    rw [normal_of_some found, List.length_append, Instruction.length_words]
    omega

end Sweep

end Listing

end Dcpu16
