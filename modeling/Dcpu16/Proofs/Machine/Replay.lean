import Dcpu16.Proofs.Machine.Changes

/-!
# Following a machine by its announcements

Whoever has a copy of what a machine holds can keep it up to date by what is announced after each
change (`Contents.replay`): the copy holds what the machine holds (`Machine.contents_makes`). A
device that has a copy of its window only can go by the announcements of this window
(`Window.Reflects.log`).
-/
namespace Dcpu16

namespace Contents

/-- The contents with 0 in all registers. -/
def withoutRegisters (contents : Contents) : Contents
  | .register _ => 0
  | .cell address => contents (.cell address)

/-- The contents with 0 in all cells. -/
def withoutCells (contents : Contents) : Contents
  | .register register => contents (.register register)
  | .cell _ => 0

/-- What becomes of a copy of the contents at an announcement. It follows those that come after a
change, and leaves aside those of windows and programs. -/
def hear (copy : Contents) : Announcement → Contents
  | .register (.did register value) => Function.update copy (.register register) value
  | .register .reset => copy.withoutRegisters
  | .memory (.did address value) => Function.update copy (.cell address) value
  | .memory .reset => copy.withoutCells
  | .register (.will _ _) => copy
  | .memory (.will _ _) | .memory (.video _ _) | .memory (.keyboard _ _)
  | .memory (.loaded _ _) => copy

/-- What becomes of a copy of the contents at a row of announcements. -/
def replay (copy : Contents) (log : List Announcement) : Contents := log.foldl hear copy

section Replay

variable (copy : Contents)

/-- Announcements are followed one after the other. -/
theorem replay_append (log later : List Announcement) :
    copy.replay (log ++ later) = (copy.replay log).replay later :=
  List.foldl_append

/-- The announcement of a window does not count. -/
theorem replay_windowBlock (address value : Word) :
    copy.replay (Change.windowBlock address value) = copy := by
  unfold Change.windowBlock
  split_ifs <;> rfl

/-- After the block of a cell, the copy has the value of the cell. -/
theorem replay_cellBlock (address value : Word) :
    copy.replay (Change.cellBlock address value) =
      Function.update copy (.cell address) value := by
  rw [Change.cellBlock, replay_append, replay_append, replay_windowBlock]
  rfl

end Replay

end Contents

namespace Machine

variable (machine : Machine)

/-- All registers hold 0 when they have been cleared. -/
theorem contents_clearRegisters :
    machine.clearRegisters.contents = machine.contents.withoutRegisters := by
  funext place
  cases place with
  | register register => cases register <;> rfl
  | cell address => rfl

/-- All cells hold 0 when they have been cleared. -/
theorem contents_clearMemory :
    machine.clearMemory.contents = machine.contents.withoutCells := by
  funext place
  cases place with
  | register register => rfl
  | cell address => exact Ram.peek_blank address

/-- A copy that follows the block of a change holds what the machine holds. -/
theorem contents_make (change : Change) :
    (machine.make change).contents = machine.contents.replay change.announcements := by
  cases change with
  | set register value => exact machine.contents_set register value
  | write address value =>
    rw [make, contents_write]
    exact (machine.contents.replay_cellBlock address value).symm
  | program address value =>
    rw [make, contents_announce, contents_write, Change.announcements, Contents.replay_append,
      Contents.replay_cellBlock]
    rfl
  | mark jumped => exact machine.contents_markJump jumped
  | clearRegisters => exact machine.contents_clearRegisters
  | clearMemory => exact machine.contents_clearMemory

/-- A copy that follows the announcements of a row of changes holds what the machine holds. -/
theorem contents_makes (changes : List Change) :
    (machine.makes changes).contents = machine.contents.replay (Change.log changes) := by
  induction changes generalizing machine with
  | nil => rfl
  | cons change changes ih =>
    rw [makes_cons, ih, contents_make, ← Contents.replay_append, Change.log_cons]

end Machine

namespace Window

/-- What becomes of a copy of a window at an announcement: it follows the announcements of its own
window, and those of a memory that is cleared. -/
def reflect (window : Window) (copy : Word → Word) : Announcement → Word → Word
  | .memory (.video address value) =>
    if window = .video then Function.update copy address value else copy
  | .memory (.keyboard address value) =>
    if window = .keyboard then Function.update copy address value else copy
  | .memory .reset => fun _ => 0
  | .memory (.will _ _) | .memory (.did _ _) | .memory (.loaded _ _) | .register _ => copy

/-- What becomes of a copy of a window at a row of announcements. -/
def reflected (window : Window) (copy : Word → Word) (log : List Announcement) : Word → Word :=
  log.foldl window.reflect copy

/-- The copy holds what the cells of the window hold. -/
def Reflects (window : Window) (copy : Word → Word) (contents : Contents) : Prop :=
  ∀ address, window.contains address = true → copy address = contents (.cell address)

variable {window : Window} {copy : Word → Word} {contents : Contents}

/-- Announcements are followed one after the other. -/
theorem reflected_append (log later : List Announcement) :
    window.reflected copy (log ++ later) = window.reflected (window.reflected copy log) later :=
  List.foldl_append

/-- A cell is in one window at most. -/
theorem video_or_keyboard (address : Word) :
    ¬ (0x8000 ≤ address ∧ address ≤ 0x817F ∧ 0x9000 ≤ address) := by
  rintro ⟨-, low, high⟩
  have contrary : (0x9000 : Word) ≤ 0x817F := UInt16.le_trans high low
  exact absurd contrary (by decide)

/-- The copy of a window follows the cells of this window. -/
theorem reflected_windowBlock (address value : Word) :
    window.reflected copy (Change.windowBlock address value) =
      if window.contains address then Function.update copy address value else copy := by
  have apart := video_or_keyboard address
  have range := window.contains_iff address
  unfold Change.windowBlock
  cases window with
  | video =>
    simp only [first, last] at range
    simp only [range]
    split_ifs <;> rfl
  | keyboard =>
    simp only [first, last] at range
    simp only [range]
    split_ifs with video keyboard
    · exact absurd ⟨video.1, video.2, keyboard.1⟩ apart
    all_goals rfl

/-- A copy that reflects its window does so after the block of a cell. -/
theorem Reflects.cellBlock (reflects : window.Reflects copy contents) (address value : Word) :
    window.Reflects (window.reflected copy (Change.cellBlock address value))
      (contents.replay (Change.cellBlock address value)) := by
  intro other inside
  have same : window.reflected copy (Change.cellBlock address value) =
      window.reflected copy (Change.windowBlock address value) := by
    rw [Change.cellBlock, reflected_append, reflected_append]
    rfl
  rw [same, reflected_windowBlock, Contents.replay_cellBlock]
  by_cases here : other = address
  · rw [here] at inside ⊢
    rw [if_pos inside, Function.update_self, Function.update_self]
  · have unchanged : Function.update contents (.cell address) value (.cell other) =
        contents (.cell other) := Function.update_of_ne (by simpa using here) _ _
    rw [unchanged]
    split_ifs
    · rw [Function.update_of_ne here, reflects other inside]
    · exact reflects other inside

/-- A copy that reflects its window does so after the block of a change. -/
theorem Reflects.announcements (reflects : window.Reflects copy contents) (change : Change) :
    window.Reflects (window.reflected copy change.announcements)
      (contents.replay change.announcements) := by
  cases change with
  | set register value =>
    intro address inside
    exact reflects address inside
  | write address value => exact reflects.cellBlock address value
  | program address value =>
    have written := reflects.cellBlock address value
    rw [Change.announcements, reflected_append, Contents.replay_append]
    exact written
  | mark jumped => exact reflects
  | clearRegisters =>
    intro address inside
    exact reflects address inside
  | clearMemory =>
    intro address inside
    rfl

/-- A copy that reflects its window does so after the announcements of a row of changes. -/
theorem Reflects.log (reflects : window.Reflects copy contents) (changes : List Change) :
    window.Reflects (window.reflected copy (Change.log changes))
      (contents.replay (Change.log changes)) := by
  induction changes generalizing copy contents with
  | nil => exact reflects
  | cons change changes ih =>
    have first := reflects.announcements change
    rw [Change.log_cons, reflected_append, Contents.replay_append]
    exact ih first

end Window

end Dcpu16
