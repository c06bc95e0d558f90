/-!
# Words

The machine works on one kind of value, the sixteen-bit word. Words are cells, register
contents and addresses alike, and all arithmetic on addresses is modulo 2¹⁶.
-/
namespace Dcpu16

/-- Sixteen bits. Sums, differences and products wrap. -/
abbrev Word := UInt16

end Dcpu16
