import Dcpu16.Word

/-!
# Memory cells

65536 cells, one for each word as an address. `Ram.peek` is the view of the cells; `Ram.ext`
says that it shows all there is, and `Ram.peek_set` what a change does to it.
-/
namespace Dcpu16

/-- The cells of the memory. -/
structure Ram where
  /-- The content of each address. -/
  cells : Vector Word 65536

namespace Ram

/-- The number of cells. -/
def size : Nat := 65536

/-- All cells are 0. -/
def blank : Ram := ⟨Vector.replicate 65536 0⟩

/-- The content of a cell. -/
def peek (ram : Ram) (address : Word) : Word :=
  have bound := address.toNat_lt
  ram.cells[address.toNat]

/-- The cells with one changed. -/
def set (ram : Ram) (address value : Word) : Ram :=
  ⟨ram.cells.set address.toNat value address.toNat_lt⟩

/-- A changed cell holds what it was changed to; the others are as before. -/
@[simp] theorem peek_set (ram : Ram) (address value other : Word) :
    (ram.set address value).peek other = if other = address then value else ram.peek other := by
  simp only [peek, set, Vector.getElem_set, UInt16.toNat_inj]
  split <;> split <;> simp_all

/-- A blank memory holds 0 everywhere. -/
@[simp] theorem peek_blank (address : Word) : blank.peek address = 0 := by
  simp [peek, blank]

/-- Memories with the same content are the same. -/
@[ext] theorem ext {left right : Ram} (same : ∀ address, left.peek address = right.peek address) :
    left = right := by
  obtain ⟨left⟩ := left
  obtain ⟨right⟩ := right
  congr 1
  apply Vector.ext
  intro i bound
  have this := same (UInt16.ofNat i)
  simpa only [peek, UInt16.toNat_ofNat_of_lt' bound] using this

/-- All addresses in order. -/
def addresses : List Word := (List.range size).map UInt16.ofNat

/-- The cells from `start` on with their addresses, `count` of them or up to the last. -/
def dump (ram : Ram) (start : Word) (count : Nat) : List (Word × Word) :=
  ((List.range (min count (size - start.toNat))).map fun i => start + UInt16.ofNat i).map
    fun address => (address, ram.peek address)

/-- The cells that are not 0, with their addresses. -/
def nonzero (ram : Ram) : List (Word × Word) :=
  addresses.filterMap fun address =>
    let value := ram.peek address
    if value = 0 then none else some (address, value)

end Ram

end Dcpu16
