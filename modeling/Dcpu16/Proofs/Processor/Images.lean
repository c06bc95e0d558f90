import Dcpu16.Proofs.Image
import Dcpu16.Proofs.Processor.Loading

/-!
# Loading an image

A load of an image is exact or does nothing (`Processor.loadImage_exact`). An image that is refused
leaves the processor as it was, because its size is looked at before the reset. One that is loaded
leaves the image in the first cells and nothing else (`Processor.HoldsImage`).
-/
namespace Dcpu16

namespace Machine

/-- Writing a program changes no register. -/
theorem registers_writeProgram (machine : Machine) (address : Word) (program : List Word) :
    (machine.writeProgram address program).registers = machine.registers := by
  induction program generalizing machine address with
  | nil => rfl
  | cons word program ih =>
    rw [writeProgram, ih]
    exact (machine.write_alike address word).registers_eq

/-- A program that ends at the last cell at most is written to the cells from `start` on, and no
other cell changes. -/
theorem peek_writeProgram (machine : Machine) {start : Nat} {program : List Word}
    (fits : start + program.length ≤ Ram.size) (address : Word) :
    (machine.writeProgram (.ofNat start) program).peek address =
      if address.toNat < start then machine.peek address
      else program[address.toNat - start]?.getD (machine.peek address) := by
  induction program generalizing machine start with
  | nil => simp [writeProgram]
  | cons word program ih =>
    have bound : start < 65536 := by
      simp only [List.length_cons, Ram.size] at fits
      omega
    have next : UInt16.ofNat start + 1 = .ofNat (start + 1) := (UInt16.ofNat_add start 1).symm
    have here : address = .ofNat start ↔ address.toNat = start := by
      rw [← UInt16.toNat_inj, UInt16.toNat_ofNat_of_lt' bound]
    have written : ((machine.write (.ofNat start) word).announce
        (.memory (.loaded (.ofNat start) word))).peek address =
          if address.toNat = start then word else machine.peek address := by
      have changed := congrFun (machine.contents_write (.ofNat start) word) (.cell address)
      simp only [Function.update_apply, Place.cell.injEq, here] at changed
      exact changed
    rw [writeProgram, next, ih _ (by simp only [List.length_cons] at fits; omega), written]
    by_cases before : address.toNat < start
    · rw [if_pos before, if_pos (by omega), if_neg (by omega)]
    · rw [if_neg before]
      by_cases first : address.toNat = start
      · rw [if_pos (by omega), if_pos first]
        simp [first]
      · have behind : address.toNat - start = address.toNat - (start + 1) + 1 := by omega
        rw [if_neg (by omega), if_neg first, behind, List.getElem?_cons_succ]

/-- A program that is written to cleared cells is in the first of them, with 0 behind. -/
theorem peek_writeProgram_clearMemory (machine : Machine) {program : List Word}
    (fits : program.length ≤ Ram.size) (address : Word) :
    (machine.clearMemory.writeProgram 0 program).peek address =
      program[address.toNat]?.getD 0 := by
  have blank : machine.clearMemory.peek address = 0 := Ram.peek_blank address
  have within : 0 + program.length ≤ Ram.size := by omega
  have written := machine.clearMemory.peek_writeProgram within address
  rwa [blank, if_neg (Nat.not_lt_zero _)] at written

/-- The first cells are the program that has been written to cleared cells. -/
theorem map_peek_writeProgram_clearMemory (machine : Machine) {program : List Word}
    (fits : program.length ≤ Ram.size) :
    ((List.range program.length).map fun index =>
      (machine.clearMemory.writeProgram 0 program).peek (.ofNat index)) = program := by
  apply List.ext_getElem (by simp)
  intro index bound known
  have small : index < 65536 := by
    have size : Ram.size = 65536 := rfl
    omega
  rw [List.getElem_map, List.getElem_range, peek_writeProgram_clearMemory machine fits,
    UInt16.toNat_ofNat_of_lt' small, List.getElem?_eq_getElem known]
  rfl

end Machine

namespace Processor

/-- A processor as the load of an image leaves it. -/
structure HoldsImage (loaded : Processor) (bytes : List UInt8) : Prop where
  cell_eq : ∀ (address : Word) (inside : 2 * address.toNat + 1 < bytes.length),
    (loaded.machine.peek address).toNat =
      256 * bytes[2 * address.toNat].toNat + bytes[2 * address.toNat + 1].toNat
  blank : ∀ address : Word, bytes.length / 2 ≤ address.toNat → loaded.machine.peek address = 0
  register_eq : ∀ register, loaded.machine.get register = 0
  unmarked : loaded.machine.registers.jumped = false
  cycles_eq : loaded.cycles = 0
  ready : loaded.skipPending = false
  running : loaded.state = .running
  image_eq : Image.ofWords
    ((List.range (bytes.length / 2)).map fun index => loaded.machine.peek (.ofNat index)) = bytes

/-- A program that fits is loaded, and leaves the image of the program. -/
theorem exists_load_holdsImage (processor : Processor) {program : List Word}
    (fits : program.length ≤ Ram.size) :
    ∃ loaded, processor.load program = (.ok (), loaded) ∧
      loaded.HoldsImage (Image.ofWords program) := by
  let cleared := processor.machine.clearRegisters.clearMemory
  let loaded : Processor :=
    ⟨cleared.clearMemory.writeProgram 0 program, .running, 0, false, processor.decoder⟩
  have loads : processor.load program = (.ok (), loaded) := by
    simp only [load, Machine.load, if_neg (Nat.not_lt.mpr fits), reset]
    rfl
  have cell (address : Word) : loaded.machine.peek address = program[address.toNat]?.getD 0 :=
    cleared.peek_writeProgram_clearMemory fits address
  have registers : loaded.machine.registers = {} :=
    cleared.clearMemory.registers_writeProgram 0 program
  have bytes : (Image.ofWords program).length / 2 = program.length := by
    rw [Image.length_ofWords]
    omega
  refine ⟨loaded, loads, ?_, ?_, ?_, ?_, rfl, rfl, rfl, ?_⟩
  · intro address inside
    have known : address.toNat < program.length := by
      rw [Image.length_ofWords] at inside
      omega
    rw [cell, List.getElem?_eq_getElem known]
    exact Image.toNat_getElem_ofWords known inside
  · intro address behind
    rw [cell, List.getElem?_eq_none (by rwa [bytes] at behind)]
    rfl
  · intro register
    have empty : ({} : RegisterFile).get register = 0 := by cases register <;> rfl
    rw [Machine.get, registers, empty]
  · rw [registers]
  · rw [bytes]
    exact congrArg Image.ofWords (cleared.map_peek_writeProgram_clearMemory fits)

section Images

variable (processor : Processor) {bytes : List UInt8}

/-- An image with a byte left over is refused. -/
theorem loadImage_of_odd (odd : bytes.length % 2 = 1) :
    processor.loadImage bytes = (.error (.oddLength bytes.length), processor) :=
  processor.loadImage_of_error (Image.toWords_eq_error_iff.mpr ⟨odd, rfl⟩)

/-- An image of more words than there are cells is refused. -/
theorem loadImage_of_lt (even : bytes.length % 2 = 0) (exceeds : 131072 < bytes.length) :
    processor.loadImage bytes = (.error (.tooLarge (bytes.length / 2)), processor) := by
  obtain ⟨program, image⟩ := Image.exists_ofWords_eq even
  have length : bytes.length = 2 * program.length := by rw [← image, Image.length_ofWords]
  have words : bytes.length / 2 = program.length := by omega
  have large : Ram.size < program.length := by
    have size : Ram.size = 65536 := rfl
    omega
  rw [processor.loadImage_of_ok (Image.toWords_eq_ok_iff.mpr image), processor.load_of_lt large,
    words]

/-- An image of as many words as there are cells, or less, is loaded. -/
theorem exists_loadImage_of_le (even : bytes.length % 2 = 0) (fits : bytes.length ≤ 131072) :
    ∃ loaded, processor.loadImage bytes = (.ok (), loaded) ∧ loaded.HoldsImage bytes := by
  obtain ⟨program, image⟩ := Image.exists_ofWords_eq even
  have small : program.length ≤ Ram.size := by
    have length : bytes.length = 2 * program.length := by rw [← image, Image.length_ofWords]
    have size : Ram.size = 65536 := rfl
    omega
  rw [processor.loadImage_of_ok (Image.toWords_eq_ok_iff.mpr image), ← image]
  exact processor.exists_load_holdsImage small

/-- What comes of an image: the two ways in which it is refused, and the one in which it is
loaded. -/
theorem loadImage_cases (bytes : List UInt8) :
    bytes.length % 2 = 1 ∧
        processor.loadImage bytes = (.error (.oddLength bytes.length), processor) ∨
      bytes.length % 2 = 0 ∧ 131072 < bytes.length ∧
        processor.loadImage bytes = (.error (.tooLarge (bytes.length / 2)), processor) ∨
      bytes.length % 2 = 0 ∧ bytes.length ≤ 131072 ∧
        ∃ loaded, processor.loadImage bytes = (.ok (), loaded) ∧ loaded.HoldsImage bytes := by
  by_cases odd : bytes.length % 2 = 1
  · exact .inl ⟨odd, processor.loadImage_of_odd odd⟩
  · have even : bytes.length % 2 = 0 := by omega
    by_cases fits : bytes.length ≤ 131072
    · exact .inr (.inr ⟨even, fits, processor.exists_loadImage_of_le even fits⟩)
    · have exceeds : 131072 < bytes.length := by omega
      exact .inr (.inl ⟨even, exceeds, processor.loadImage_of_lt even exceeds⟩)

end Images

/-- Loading an image is all or nothing, and exact. It is refused if and only if it has an odd number
of bytes, or else more than there are cells for, and a processor that refuses it is left as it was,
with nothing announced. An image that is not refused is in the memory afterwards, with 0 behind it,
and nothing is left of what has been before. The image of a program, in its turn, has this
program. -/
theorem loadImage_exact (processor : Processor) (bytes : List UInt8) :
    (∀ error, (processor.loadImage bytes).1 = .error error ↔
      error = .oddLength bytes.length ∧ bytes.length % 2 = 1 ∨
        error = .tooLarge (bytes.length / 2) ∧ bytes.length % 2 = 0 ∧ 131072 < bytes.length) ∧
      (∀ error, (processor.loadImage bytes).1 = .error error →
        (processor.loadImage bytes).2 = processor) ∧
      (bytes.length % 2 = 0 → bytes.length ≤ 131072 →
        ∃ loaded, processor.loadImage bytes = (.ok (), loaded) ∧ loaded.HoldsImage bytes) ∧
      ∀ words, Image.toWords (Image.ofWords words) = .ok words := by
  obtain ⟨odd, refused⟩ | ⟨even, exceeds, refused⟩ | ⟨even, fits, loaded, loads, holds⟩ :=
    processor.loadImage_cases bytes
  · refine ⟨fun error => ?_, fun _ _ => by rw [refused], fun even => ?_, Image.toWords_ofWords⟩
    · have first : (processor.loadImage bytes).1 = .error (.oddLength bytes.length) := by
        rw [refused]
      simp [first, odd, eq_comm]
    · omega
  · refine ⟨fun error => ?_, fun _ _ => by rw [refused], fun _ fits => ?_, Image.toWords_ofWords⟩
    · have first : (processor.loadImage bytes).1 = .error (.tooLarge (bytes.length / 2)) := by
        rw [refused]
      simp [first, even, exceeds, eq_comm]
    · omega
  · have first : (processor.loadImage bytes).1 = .ok () := by rw [loads]
    refine ⟨fun error => ?_, fun error refused => ?_, fun _ _ => ⟨loaded, loads, holds⟩,
      Image.toWords_ofWords⟩
    · rw [first]
      simp only [reduceCtorEq, false_iff]
      omega
    · rw [first] at refused
      cases refused

/-- A byte too many, and a processor with a history refuses a program that it loads without it. -/
theorem loadImage_exact_left_over :
    worn.loadImage [0x7C, 0x01, 0x00] = (.error (.oddLength 3), worn) ∧
      ∃ loaded, worn.loadImage [0x7C, 0x01] = (.ok (), loaded) ∧
        loaded.machine.peek 0 = 0x7C01 ∧ loaded.machine.peek 1 = 0 := by
  obtain ⟨refuses, untouched, -, -⟩ := loadImage_exact worn [0x7C, 0x01, 0x00]
  obtain ⟨-, -, loads, -⟩ := loadImage_exact worn [0x7C, 0x01]
  have refused := (refuses (.oddLength 3)).mpr (.inl ⟨rfl, rfl⟩)
  obtain ⟨loaded, applied, holds⟩ := loads rfl (by decide)
  have first : loaded.machine.peek 0 = 0x7C01 := by
    apply UInt16.toNat_inj.mp
    exact holds.cell_eq 0 (by decide)
  exact ⟨Prod.ext refused (untouched _ refused), loaded, applied, first, holds.blank 1 (by decide)⟩

end Processor

end Dcpu16
