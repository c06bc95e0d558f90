import Dcpu16.Word

/-!
# Windows

Two ranges of addresses belong to devices. The video window holds the characters on the screen.
The keyboard window holds keys that have been typed and not yet been read; 0 marks a free cell.
-/
namespace Dcpu16

/-- A range of memory that a device watches. -/
inductive Window
  | video
  | keyboard
  deriving DecidableEq

namespace Window

/-- The first address of the window. -/
def first : Window → Word
  | video => 0x8000
  | keyboard => 0x9000

/-- The last address of the window. -/
def last : Window → Word
  | video => 0x817F
  | keyboard => 0x900F

/-- Is the address in the window? -/
def contains (window : Window) (address : Word) : Bool :=
  decide (window.first ≤ address) && decide (address ≤ window.last)

/-- The window that an address is in. The windows do not overlap. -/
def of? (address : Word) : Option Window :=
  if video.contains address then some video
  else if keyboard.contains address then some keyboard
  else none

/-- The cells of the keyboard window in the order of their addresses. -/
def keys : List Word := (List.range 16).map fun i => keyboard.first + UInt16.ofNat i

end Window

end Dcpu16
