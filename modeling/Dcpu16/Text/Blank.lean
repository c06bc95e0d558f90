/-!
# Blanks

The characters that separate tokens: the 25 characters with the Unicode property White_Space.
-/
namespace Dcpu16.Text

/-- Is the character white space? -/
def isBlank (c : Char) : Bool :=
  let code := c.toNat
  (0x9 ≤ code && code ≤ 0xD) || code == 0x20 || code == 0x85 || code == 0xA0 || code == 0x1680 ||
    (0x2000 ≤ code && code ≤ 0x200A) || code == 0x2028 || code == 0x2029 || code == 0x202F ||
    code == 0x205F || code == 0x3000

end Dcpu16.Text
