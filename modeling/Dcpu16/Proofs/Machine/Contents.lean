import Mathlib
import Dcpu16.Machine.Basic

/-!
# What a machine holds

A machine as one function from places to words (`Machine.contents`), where a place is a register or
a cell. Every operation of the machine changes this function at one place or not at all, whoever
listens; `Contents.assign` carries out several changes in a row. The mark of a jump is kept apart
from the contents.
-/
namespace Dcpu16

/-- Where a word is held. -/
inductive Place
  | register (register : Register)
  | cell (address : Word)
  deriving DecidableEq

/-- What each place holds. -/
abbrev Contents := Place → Word

/-- The contents after changes that are made one after the other. -/
def Contents.assign (contents : Contents) (changes : List (Place × Word)) : Contents :=
  changes.foldl (fun contents change => Function.update contents change.1 change.2) contents

section Assign

variable {contents : Contents}

@[simp] theorem assign_nil : contents.assign [] = contents := rfl

@[simp] theorem assign_cons (place : Place) (value : Word) (changes : List (Place × Word)) :
    contents.assign ((place, value) :: changes) =
      Contents.assign (Function.update contents place value) changes := rfl

/-- A change that other changes do not touch can be made after them. -/
theorem assign_update_of_notMem {place : Place} {changes : List (Place × Word)}
    (untouched : place ∉ changes.map Prod.fst) (value : Word) :
    Contents.assign (Function.update contents place value) changes =
      Function.update (contents.assign changes) place value := by
  induction changes generalizing contents with
  | nil => rfl
  | cons change changes ih =>
    obtain ⟨other, new⟩ := change
    rw [List.map_cons, List.mem_cons, not_or] at untouched
    rw [assign_cons, assign_cons, Function.update_comm untouched.1, ih untouched.2]

/-- A change is lost when other changes overwrite it. -/
theorem assign_update_of_mem {place : Place} {changes : List (Place × Word)}
    (overwritten : place ∈ changes.map Prod.fst) (value : Word) :
    Contents.assign (Function.update contents place value) changes = contents.assign changes := by
  induction changes generalizing contents with
  | nil => cases overwritten
  | cons change changes ih =>
    obtain ⟨other, new⟩ := change
    rw [assign_cons, assign_cons]
    by_cases same : place = other
    · rw [same, Function.update_idem]
    · have later : place ∈ changes.map Prod.fst := by simpa [same] using overwritten
      rw [Function.update_comm same, ih later]

/-- A place that changes do not touch holds what it held. -/
theorem assign_of_notMem {place : Place} {changes : List (Place × Word)}
    (untouched : place ∉ changes.map Prod.fst) :
    contents.assign changes place = contents place := by
  induction changes generalizing contents with
  | nil => rfl
  | cons change changes ih =>
    rw [List.map_cons, List.mem_cons, not_or] at untouched
    rw [assign_cons, ih untouched.2, Function.update_of_ne untouched.1]

end Assign

/-- The contents after a program has read a cell: a key is taken out of it. -/
def Contents.taken (contents : Contents) (address : Word) : Contents :=
  if Window.keyboard.contains address then Function.update contents (.cell address) 0 else contents

section Taken

variable (contents : Contents) (address : Word)

/-- A cell outside the keyboard window is read without a change. -/
theorem taken_of_outside (outside : Window.keyboard.contains address = false) :
    contents.taken address = contents := by
  rw [Contents.taken, outside]
  rfl

/-- Reading a cell changes no register. -/
@[simp] theorem taken_register (register : Register) :
    contents.taken address (.register register) = contents (.register register) := by
  unfold Contents.taken
  split
  · rw [Function.update_of_ne (by simp)]
  · rfl

/-- Reading a cell leaves at most 0 in it, and changes no other. -/
theorem taken_cell (other : Word) :
    contents.taken address (.cell other) =
      if other = address ∧ Window.keyboard.contains address = true then 0
      else contents (.cell other) := by
  unfold Contents.taken
  cases Window.keyboard.contains address <;> simp [Function.update_apply]

/-- Reading a cell does not depend on registers. -/
theorem taken_update_register (register : Register) (value : Word) :
    Contents.taken (Function.update contents (.register register) value) address =
      Function.update (contents.taken address) (.register register) value := by
  unfold Contents.taken
  split
  · rw [Function.update_comm (by simp)]
  · rfl

/-- Cells outside the keyboard window are read without a change. -/
theorem foldl_taken_of_outside {addresses : List Word}
    (outside : ∀ address ∈ addresses, Window.keyboard.contains address = false) :
    addresses.foldl Contents.taken contents = contents := by
  induction addresses with
  | nil => rfl
  | cons address addresses ih =>
    rw [List.foldl_cons, taken_of_outside contents address (outside address List.mem_cons_self)]
    exact ih fun other member => outside other (List.mem_cons_of_mem address member)

/-- Reading cells changes no register. -/
theorem foldl_taken_register (addresses : List Word) (register : Register) :
    addresses.foldl Contents.taken contents (.register register) =
      contents (.register register) := by
  induction addresses generalizing contents with
  | nil => rfl
  | cons address addresses ih => rw [List.foldl_cons, ih, taken_register]

/-- Reading cells takes the keys out of those that are in the keyboard window. -/
theorem foldl_taken_cell (addresses : List Word) (other : Word) :
    addresses.foldl Contents.taken contents (.cell other) =
      if other ∈ addresses ∧ Window.keyboard.contains other = true then 0
      else contents (.cell other) := by
  induction addresses generalizing contents with
  | nil => simp
  | cons address addresses ih =>
    rw [List.foldl_cons, ih, taken_cell]
    by_cases same : other = address
    · subst same
      by_cases keyboard : Window.keyboard.contains other = true <;> simp [keyboard]
    · simp [same]

end Taken

namespace Machine

/-- What the registers and the cells hold. -/
def contents (machine : Machine) : Contents
  | .register register => machine.get register
  | .cell address => machine.peek address

variable (machine : Machine)

/-- Nothing changes when listeners are told. -/
@[simp] theorem contents_announce (announcement : Announcement) :
    (machine.announce announcement).contents = machine.contents := rfl

/-- Nothing changes when listeners are told of a window. -/
@[simp] theorem contents_announceWindow (address value : Word) :
    (machine.announceWindow address value).contents = machine.contents := by
  unfold announceWindow
  split <;> rfl

/-- The mark of a jump is in no place. -/
@[simp] theorem contents_markJump (jumped : Bool) :
    (machine.markJump jumped).contents = machine.contents := by
  funext place
  cases place with
  | register register => cases register <;> rfl
  | cell => rfl

/-- Changing a register changes what it holds. -/
@[simp] theorem contents_set (register : Register) (value : Word) :
    (machine.set register value).contents =
      Function.update machine.contents (.register register) value := by
  funext place
  cases place with
  | register other =>
    simp [set, withRegister, announce, contents, get, Function.update_apply]
  | cell => rfl

/-- Moving on changes PC. -/
@[simp] theorem contents_advance :
    machine.advance.contents =
      Function.update machine.contents (.register .pc) (machine.contents (.register .pc) + 1) :=
  machine.contents_set .pc _

/-- A jump changes PC. -/
@[simp] theorem contents_jump (address : Word) :
    (machine.jump address).contents =
      Function.update machine.contents (.register .pc) address := by
  rw [jump, contents_markJump, contents_set]

/-- Writing changes the cell. -/
@[simp] theorem contents_write (address value : Word) :
    (machine.write address value).contents =
      Function.update machine.contents (.cell address) value := by
  rw [write, contents_announce, contents_announceWindow]
  funext place
  cases place with
  | register => rfl
  | cell other =>
    simp [withCell, announce, contents, peek, Function.update_apply]

/-- Reading a cell gives what it holds. -/
theorem fst_read (address : Word) :
    (machine.read address).1 = machine.contents (.cell address) := by
  unfold read
  split <;> rfl

/-- Reading a cell takes a key out of it. -/
@[simp] theorem contents_read (address : Word) :
    (machine.read address).2.contents = machine.contents.taken address := by
  unfold read Contents.taken
  cases Window.keyboard.contains address <;> simp

/-! ## The mark of a jump -/

/-- The mark stays when a register changes. -/
@[simp] theorem jumped_set (register : Register) (value : Word) :
    (machine.set register value).registers.jumped = machine.registers.jumped :=
  machine.registers.jumped_set register value

/-- The mark stays when PC moves on. -/
@[simp] theorem jumped_advance : machine.advance.registers.jumped = machine.registers.jumped :=
  machine.jumped_set .pc _

/-- The mark stays when a cell changes. -/
@[simp] theorem jumped_write (address value : Word) :
    (machine.write address value).registers.jumped = machine.registers.jumped := by
  unfold write announceWindow
  split <;> rfl

/-- The mark stays when a cell is read. -/
@[simp] theorem jumped_read (address : Word) :
    (machine.read address).2.registers.jumped = machine.registers.jumped := by
  unfold read
  cases Window.keyboard.contains address <;> simp

end Machine

/-! ## Memories with few cells in use -/

/-- A memory that is blank but for some cells. -/
def Ram.ofCells (cells : List (Word × Word)) : Ram :=
  cells.foldl (fun ram cell => ram.set cell.1 cell.2) .blank

/-- What these registers and blank cells hold. -/
def Contents.ofRegisters (registers : RegisterFile) : Contents
  | .register register => registers.get register
  | .cell _ => 0

/-- Cells that are set one after the other hold what contents that are changed in the same way do.
-/
theorem Ram.peek_foldl_set {contents : Contents} {ram : Ram}
    (same : ∀ address, contents (.cell address) = ram.peek address) (cells : List (Word × Word))
    (address : Word) :
    contents.assign (cells.map fun cell => (.cell cell.1, cell.2)) (.cell address) =
      (cells.foldl (fun ram cell => ram.set cell.1 cell.2) ram).peek address := by
  induction cells generalizing contents ram with
  | nil => exact same address
  | cons cell cells ih =>
    obtain ⟨changed, value⟩ := cell
    rw [List.map_cons, assign_cons, List.foldl_cons]
    apply ih
    intro other
    rw [Ram.peek_set, ← same other]
    simp [Function.update_apply]

/-- What a machine holds whose memory is blank but for some cells. -/
theorem Machine.contents_of_cells (machine : Machine) {cells : List (Word × Word)}
    (ram : machine.ram = .ofCells cells) :
    machine.contents = (Contents.ofRegisters machine.registers).assign
      (cells.map fun cell => (.cell cell.1, cell.2)) := by
  funext place
  cases place with
  | register register =>
    rw [assign_of_notMem (by simp)]
    rfl
  | cell address =>
    rw [Ram.peek_foldl_set (fun other => (Ram.peek_blank other).symm)]
    exact congrArg (fun ram => ram.peek address) ram

end Dcpu16
