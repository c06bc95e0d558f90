import Dcpu16.Register
import Dcpu16.Text.Record
import Dcpu16.Word

/-!
# Announcements

Every change of a register or a memory cell is announced to those who have asked for it. There
is one announcement before the change and one after it; between them, a change in a window is
also announced as such. Listeners get an announcement in the order in which they subscribed.
-/
namespace Dcpu16

/-- What is announced about memory. -/
inductive MemoryChange
  /-- The cell is about to get this value. -/
  | will (address value : Word)
  /-- The cell, which is in the video window, has got this value. -/
  | video (address value : Word)
  /-- The cell, which is in the keyboard window, has got this value. -/
  | keyboard (address value : Word)
  /-- The cell has got this value. -/
  | did (address value : Word)
  /-- The cell has got this value as a part of a program. -/
  | loaded (address value : Word)
  /-- All cells have been set to 0. -/
  | reset
  deriving DecidableEq

/-- What is announced about registers. -/
inductive RegisterChange
  /-- The register is about to get this value. -/
  | will (register : Register) (value : Word)
  /-- The register has got this value. -/
  | did (register : Register) (value : Word)
  /-- All registers have been set to 0. -/
  | reset
  deriving DecidableEq

/-- What is announced. -/
inductive Announcement
  | memory (change : MemoryChange)
  | register (change : RegisterChange)
  deriving DecidableEq

/-- Those who have asked for announcements of one kind, by name, in the order of subscription.
Who has subscribed twice is told twice. -/
structure Listeners where
  /-- The names. -/
  names : List String := []
  deriving DecidableEq

namespace Listeners

/-- One more listener, behind the others. -/
def subscribe (listeners : Listeners) (name : String) : Listeners := ⟨listeners.names ++ [name]⟩

/-- The number of listeners. -/
def size (listeners : Listeners) : Nat := listeners.names.length

/-- What is delivered when `event` is announced: the event once for each listener, in order. -/
def deliver {ε : Type} (listeners : Listeners) (event : ε) : List (String × ε) :=
  listeners.names.map fun name => (name, event)

/-- The number of listeners, summed up in a line. -/
def describe (listeners : Listeners) : String :=
  Text.record "Observers" [("callbacks", toString listeners.size)]

end Listeners

end Dcpu16
