import Dcpu16.Proofs.Machine.Contents

/-!
# Announced changes

Whatever is done to a machine is a row of changes (`Machine.makes`), each with its own block of
announcements (`Change.announcements`). The row is all there is to say about it: the journal grows
by the blocks, delivered to those who listen (`Machine.journal_makes`), and machines that hold the
same still do so when the same changes are made to both (`Machine.Alike.makes`).
-/
namespace Dcpu16

/-- The addresses of a window are those from its first to its last. -/
theorem Window.contains_iff (window : Window) (address : Word) :
    window.contains address = true ↔ window.first ≤ address ∧ address ≤ window.last := by
  simp [contains]

/-- Register files are the same when all registers hold the same and the same mark is set. -/
theorem RegisterFile.ext_get {left right : RegisterFile}
    (same : ∀ register, left.get register = right.get register)
    (jumped : left.jumped = right.jumped) : left = right := by
  cases left
  cases right
  simp only [RegisterFile.mk.injEq]
  exact ⟨same .a, same .b, same .c, same .x, same .y, same .z, same .i, same .j, same .pc, same .sp,
    same .o, jumped⟩

/-- One change of a machine. -/
inductive Change
  /-- A register gets a value. -/
  | set (register : Register) (value : Word)
  /-- A cell gets a value. -/
  | write (address value : Word)
  /-- A cell gets a value as a part of a program. -/
  | program (address value : Word)
  /-- The mark of a jump is set or removed. -/
  | mark (jumped : Bool)
  /-- All registers are set to 0. -/
  | clearRegisters
  /-- All cells are set to 0. -/
  | clearMemory

namespace Change

/-- What is announced of a window between the two announcements of a cell. -/
def windowBlock (address value : Word) : List Announcement :=
  if 0x8000 ≤ address ∧ address ≤ 0x817F then [.memory (.video address value)]
  else if 0x9000 ≤ address ∧ address ≤ 0x900F then [.memory (.keyboard address value)]
  else []

/-- What is announced of a cell that gets a value. -/
def cellBlock (address value : Word) : List Announcement :=
  [.memory (.will address value)] ++ windowBlock address value ++ [.memory (.did address value)]

/-- The block of announcements of a change. -/
def announcements : Change → List Announcement
  | .set register value => [.register (.will register value), .register (.did register value)]
  | .write address value => cellBlock address value
  | .program address value => cellBlock address value ++ [.memory (.loaded address value)]
  | .mark _ => []
  | .clearRegisters => [.register .reset]
  | .clearMemory => [.memory .reset]

/-- The announcements of a row of changes, block after block. -/
def log (changes : List Change) : List Announcement := changes.flatMap announcements

/-- The changes that replace the memory by a program: all cells are cleared, and the words are
written from address 0 on. -/
def loading (program : List Word) : List Change :=
  .clearMemory :: program.mapIdx fun index word => .program (.ofNat index) word

/-- The block of the first change comes first. -/
theorem log_cons (change : Change) (changes : List Change) :
    log (change :: changes) = change.announcements ++ log changes := rfl

/-- What is announced of changes and then of others. -/
theorem log_append (changes later : List Change) :
    log (changes ++ later) = log changes ++ log later :=
  List.flatMap_append

/-- What is announced when a program is loaded into memory: first that the memory is cleared, then
each word in a block of its cell, with the announcement that it has been loaded behind it. -/
theorem log_loading (words : List Word) :
    log (loading words) =
      .memory .reset :: (words.mapIdx fun index word =>
        cellBlock (.ofNat index) word ++ [.memory (.loaded (.ofNat index) word)]).flatten := by
  have blocks : (words.mapIdx fun index word =>
        cellBlock (.ofNat index) word ++ [.memory (.loaded (.ofNat index) word)]) =
      (words.mapIdx fun index word => program (.ofNat index) word).map announcements := by
    apply List.ext_getElem
    · simp
    · simp [announcements]
  rw [blocks, ← List.flatMap_def]
  rfl

end Change

namespace Machine

/-- Make a change, announced in its way. -/
def make (machine : Machine) : Change → Machine
  | .set register value => machine.set register value
  | .write address value => machine.write address value
  | .program address value =>
    (machine.write address value).announce (.memory (.loaded address value))
  | .mark jumped => machine.markJump jumped
  | .clearRegisters => machine.clearRegisters
  | .clearMemory => machine.clearMemory

/-- Make changes one after the other. -/
def makes (machine : Machine) (changes : List Change) : Machine := changes.foldl make machine

@[simp] theorem makes_nil (machine : Machine) : machine.makes [] = machine := rfl

@[simp] theorem makes_cons (machine : Machine) (change : Change) (changes : List Change) :
    machine.makes (change :: changes) = (machine.make change).makes changes := rfl

/-- Changes behind changes are one row. -/
theorem makes_append (machine : Machine) (changes later : List Change) :
    machine.makes (changes ++ later) = (machine.makes changes).makes later :=
  List.foldl_append

/-! ## Loading -/

/-- The words of a program are written as changes of their cells. -/
theorem writeProgram_eq_makes (machine : Machine) (program : List Word) (start : Nat) :
    machine.writeProgram (.ofNat start) program =
      machine.makes (program.mapIdx fun index word => .program (.ofNat (start + index)) word) := by
  induction program generalizing machine start with
  | nil => rfl
  | cons word program ih =>
    have next : UInt16.ofNat start + 1 = .ofNat (start + 1) := (UInt16.ofNat_add start 1).symm
    rw [writeProgram, next, ih, List.mapIdx_cons]
    simp only [Nat.add_zero, Nat.add_assoc, Nat.add_comm 1]
    rfl

/-- A program that fits is loaded by the changes of its loading. -/
theorem load_of_le (machine : Machine) {program : List Word} (fits : program.length ≤ Ram.size) :
    machine.load program = (.ok (), machine.makes (Change.loading program)) := by
  have writes := machine.clearMemory.writeProgram_eq_makes program 0
  simp only [Nat.zero_add] at writes
  rw [load, if_neg (Nat.not_lt.mpr fits)]
  exact congrArg (Prod.mk _) writes

/-- A program that does not fit is refused, and changes nothing. -/
theorem load_of_lt (machine : Machine) {program : List Word} (exceeds : Ram.size < program.length) :
    machine.load program = (.error (.tooLarge program.length), machine) :=
  if_pos exceeds

/-! ## Who is told -/

/-- What is delivered when these announcements are made: each of them to its audience. -/
def told (machine : Machine) (announcements : List Announcement) :
    List (String × Announcement) :=
  announcements.flatMap fun announcement => (machine.audience announcement).deliver announcement

section Journal

variable (machine : Machine)

/-- What is told of announcements and then of others. -/
theorem told_append (announcements later : List Announcement) :
    machine.told (announcements ++ later) = machine.told announcements ++ machine.told later :=
  List.flatMap_append

/-- An announcement is delivered behind what has been delivered before. -/
theorem journal_announce (announcement : Announcement) :
    (machine.announce announcement).journal.toList =
      machine.journal.toList ++ machine.told [announcement] := by
  simp [announce, told]

/-- A window is announced with its own announcement. -/
theorem announceWindow_eq (address value : Word) :
    machine.announceWindow address value =
      (Change.windowBlock address value).foldl announce machine := by
  have video := Window.contains_iff .video address
  have keyboard := Window.contains_iff .keyboard address
  simp only [Window.first, Window.last] at video keyboard
  unfold announceWindow Change.windowBlock Window.of?
  simp only [video, keyboard]
  split_ifs <;> rfl

/-- Making announcements changes none of the listeners. -/
theorem audience_foldl_announce (announcements : List Announcement) :
    (announcements.foldl announce machine).audience = machine.audience := by
  induction announcements generalizing machine with
  | nil => rfl
  | cons announcement announcements ih => exact ih (machine.announce announcement)

/-- Announcements are delivered in their order. -/
theorem journal_foldl_announce (announcements : List Announcement) :
    (announcements.foldl announce machine).journal.toList =
      machine.journal.toList ++ machine.told announcements := by
  induction announcements generalizing machine with
  | nil => simp [told]
  | cons announcement announcements ih =>
    have same : (machine.announce announcement).told announcements =
        machine.told announcements := rfl
    rw [List.foldl_cons, ih, journal_announce, same, List.append_assoc, ← told_append]
    rfl

/-- A cell is written in three parts, of which the second is done by no announcement. -/
theorem write_eq (address value : Word) :
    machine.write address value =
      (Change.windowBlock address value ++
          [Announcement.memory (.did address value)]).foldl announce
        ((machine.announce (.memory (.will address value))).withCell address value) := by
  rw [write, announceWindow_eq, List.foldl_append]
  rfl

/-- Writing a cell changes none of the listeners. -/
theorem audience_write (address value : Word) :
    (machine.write address value).audience = machine.audience := by
  rw [write_eq, audience_foldl_announce]
  rfl

/-- Writing a cell delivers the block of the cell. -/
theorem journal_write (address value : Word) :
    (machine.write address value).journal.toList =
      machine.journal.toList ++ machine.told (Change.cellBlock address value) := by
  have start : ((machine.announce (.memory (.will address value))).withCell address
      value).journal.toList =
        machine.journal.toList ++ machine.told [.memory (.will address value)] :=
    machine.journal_announce _
  rw [write_eq, journal_foldl_announce, start, List.append_assoc]
  exact congrArg _ (machine.told_append [_] _).symm

/-- A change changes none of the listeners. -/
theorem audience_make (change : Change) : (machine.make change).audience = machine.audience := by
  cases change with
  | write address value => exact machine.audience_write address value
  | program address value => exact machine.audience_write address value
  | set | mark | clearRegisters | clearMemory => rfl

/-- A change delivers its block. -/
theorem journal_make (change : Change) :
    (machine.make change).journal.toList =
      machine.journal.toList ++ machine.told change.announcements := by
  cases change with
  | set register value =>
    have first : ((machine.announce (.register (.will register value))).withRegister register
        value).journal.toList =
          machine.journal.toList ++ machine.told [.register (.will register value)] :=
      machine.journal_announce _
    rw [make, set, journal_announce, first, List.append_assoc]
    exact congrArg _ (machine.told_append [_] _).symm
  | write address value => exact machine.journal_write address value
  | program address value =>
    have same : (machine.write address value).told [.memory (.loaded address value)] =
        machine.told [.memory (.loaded address value)] := by
      rw [told, audience_write]
      rfl
    rw [make, journal_announce, journal_write, same, List.append_assoc, ← told_append]
    rfl
  | mark => simp [make, markJump, Change.announcements, told]
  | clearRegisters => exact journal_announce { machine with registers := {} } _
  | clearMemory => exact journal_announce { machine with ram := .blank } _

/-- Changes change none of the listeners. -/
theorem audience_makes (changes : List Change) :
    (machine.makes changes).audience = machine.audience := by
  induction changes generalizing machine with
  | nil => rfl
  | cons change changes ih => rw [makes_cons, ih, audience_make]

/-- Changes deliver their blocks, one after the other. -/
theorem journal_makes (changes : List Change) :
    (machine.makes changes).journal.toList =
      machine.journal.toList ++ machine.told (Change.log changes) := by
  induction changes generalizing machine with
  | nil => simp [Change.log, told]
  | cons change changes ih =>
    have same : (machine.make change).told (Change.log changes) =
        machine.told (Change.log changes) := by
      rw [told, audience_make]
      rfl
    rw [makes_cons, ih, journal_make, same, List.append_assoc, ← told_append]
    rfl

end Journal

/-! ## Machines that hold the same -/

/-- Two machines hold the same, whoever listens to them. -/
structure Alike (left right : Machine) : Prop where
  registers_eq : left.registers = right.registers
  ram_eq : left.ram = right.ram

section Alike

variable {left right : Machine}

/-- A machine holds what it holds. -/
theorem Alike.refl (machine : Machine) : machine.Alike machine := ⟨rfl, rfl⟩

/-- A register holds the same in both. -/
theorem Alike.get (alike : left.Alike right) (register : Register) :
    left.get register = right.get register :=
  congrArg (fun file => RegisterFile.get file register) alike.registers_eq

/-- A general register holds the same in both. -/
theorem Alike.general? (alike : left.Alike right) (index : UInt8) :
    left.general? index = right.general? index := by
  exact congrArg (fun content => (Register.ofIndex? index).map content) (funext alike.get)

/-- A cell holds the same in both. -/
theorem Alike.peek (alike : left.Alike right) (address : Word) :
    left.peek address = right.peek address :=
  congrArg (fun ram => Ram.peek ram address) alike.ram_eq

/-- Machines that hold the same have the same contents. -/
theorem Alike.contents_eq (alike : left.Alike right) :
    left.contents = right.contents := by
  funext place
  cases place with
  | register register => exact alike.get register
  | cell address => exact alike.peek address

/-- Machines with the same contents and the same mark hold the same. -/
theorem alike_of_contents (same : left.contents = right.contents)
    (jumped : left.registers.jumped = right.registers.jumped) : left.Alike right := by
  constructor
  · exact RegisterFile.ext_get (fun register => congrFun same (.register register)) jumped
  · exact Ram.ext fun address => congrFun same (.cell address)

/-- Announcements do not touch what a machine holds. -/
theorem foldl_announce_alike (machine : Machine) (announcements : List Announcement) :
    (announcements.foldl announce machine).Alike machine := by
  induction announcements generalizing machine with
  | nil => exact .refl machine
  | cons announcement announcements ih =>
    obtain ⟨registers_eq, ram_eq⟩ := ih (machine.announce announcement)
    exact ⟨registers_eq, ram_eq⟩

/-- Writing a cell is a change of the memory. -/
theorem write_alike (machine : Machine) (address value : Word) :
    (machine.write address value).Alike
      { machine with ram := machine.ram.set address value } := by
  rw [write_eq]
  obtain ⟨registers_eq, ram_eq⟩ := foldl_announce_alike
    ((machine.announce (.memory (.will address value))).withCell address value)
    (Change.windowBlock address value ++ [.memory (.did address value)])
  exact ⟨registers_eq, ram_eq⟩

/-- A change of a cell in both leaves both the same. -/
theorem Alike.write (alike : left.Alike right) (address value : Word) :
    (left.write address value).Alike (right.write address value) := by
  obtain ⟨leftRegisters, leftRam⟩ := left.write_alike address value
  obtain ⟨rightRegisters, rightRam⟩ := right.write_alike address value
  constructor
  · rw [leftRegisters, rightRegisters]
    exact alike.registers_eq
  · rw [leftRam, rightRam, alike.ram_eq]

/-- The same change in both leaves both the same. -/
theorem Alike.make (alike : left.Alike right) (change : Change) :
    (left.make change).Alike (right.make change) := by
  cases change with
  | set register value =>
    exact ⟨congrArg (fun file => RegisterFile.set file register value) alike.registers_eq,
      alike.ram_eq⟩
  | write address value => exact alike.write address value
  | program address value =>
    obtain ⟨registers_eq, ram_eq⟩ := alike.write address value
    exact ⟨registers_eq, ram_eq⟩
  | mark jumped =>
    exact ⟨congrArg (fun file => { file with jumped }) alike.registers_eq, alike.ram_eq⟩
  | clearRegisters => exact ⟨rfl, alike.ram_eq⟩
  | clearMemory => exact ⟨alike.registers_eq, rfl⟩

/-- The same changes in both leave both the same. -/
theorem Alike.makes (alike : left.Alike right) (changes : List Change) :
    (left.makes changes).Alike (right.makes changes) := by
  induction changes generalizing left right with
  | nil => exact alike
  | cons change changes ih => exact ih (alike.make change)

end Alike

end Machine

end Dcpu16
