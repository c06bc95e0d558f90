import Std.Data.HashMap
import Dcpu16.Instruction.Encoding

/-!
# Remembered decoding

A decoder keeps what every word it has met stands for, so that a loop is decoded once. The
memory holds nothing but what `Instruction.ofWord?` says (`Decoder.faithful`), so remembering is
not visible in the answers (`Decoder.decode_fst`).
-/
namespace Dcpu16

/-- What the words met so far stand for. -/
structure Decoder where
  /-- The answer for each word met, also when the word is no instruction. -/
  known : Std.HashMap Word (Option Instruction)
  /-- Every remembered answer is the right one. -/
  faithful : ∀ word answer, known[word]? = some answer → answer = Instruction.ofWord? word

namespace Decoder

/-- A decoder that has met no word. -/
def empty : Decoder := ⟨∅, by simp⟩

/-- The instruction a word stands for, and the decoder that remembers it. -/
def decode (decoder : Decoder) (word : Word) : Option Instruction × Decoder :=
  match decoder with
  | ⟨known, faithful⟩ =>
    match met : known[word]? with
    | some answer => (answer, ⟨known, faithful⟩)
    | none =>
      let answer := Instruction.ofWord? word
      (answer, ⟨known.insert word answer, by
        intro other found stored
        rw [Std.HashMap.getElem?_insert] at stored
        split at stored
        · next same =>
          cases eq_of_beq same
          exact (Option.some.inj stored).symm
        · exact faithful other found stored⟩)

/-- The number of different words met. -/
def size (decoder : Decoder) : Nat := decoder.known.size

/-- The answer does not depend on what was met before. -/
@[simp] theorem decode_fst (decoder : Decoder) (word : Word) :
    (decoder.decode word).1 = Instruction.ofWord? word := by
  obtain ⟨known, faithful⟩ := decoder
  simp only [decode]
  split
  · next answer met => exact faithful word answer met
  · rfl

end Decoder

end Dcpu16
