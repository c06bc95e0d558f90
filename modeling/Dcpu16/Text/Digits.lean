/-!
# Hexadecimal text

Numbers are shown in lower-case hexadecimal with zeros in front, up to a least width; a number
that needs more digits gets them.
-/
namespace Dcpu16.Text

/-- The hexadecimal digits of a number, the high one first, at least `width` of them. -/
def hex (width value : Nat) : String :=
  let digits := Nat.toDigits 16 value
  String.ofList (List.replicate (width - digits.length) '0' ++ digits)

end Dcpu16.Text
