import Dcpu16.Source.Number
import Dcpu16.Text.Blank

/-!
# From characters to tokens

`scan` cuts a line into tokens. Blanks separate tokens and a semicolon starts a comment. A name
or a number is as long as its characters allow. Letters and digits are those of ASCII; other
characters stand in quoted texts and comments only.
-/
namespace Dcpu16.Source

/-- Can a name start with this character? -/
def startsName (c : Char) : Bool := c.isAlpha || c == '_' || c == '.'

/-- Can a name go on with this character? -/
def continuesName (c : Char) : Bool := c.isAlphanum || c == '_' || c == '.'

/-- Can a number go on with this character? -/
def continuesNumber (c : Char) : Bool := c.isAlphanum || c == '_'

/-- The token that is a single character. -/
def punctuation? : Char → Option Token
  | ',' => some .comma
  | '[' => some .openBracket
  | ']' => some .closeBracket
  | '+' => some .plus
  | ':' => some .colon
  | _ => none

/-- The character that a backslash before `c` stands for. -/
def escaped? : Char → Option Char
  | 'n' => some '\n'
  | 't' => some '\t'
  | '0' => some '\x00'
  | '\\' => some '\\'
  | '"' => some '"'
  | _ => none

/-- The rest of a quoted text behind the characters `done`, of which the last comes first, and
what follows its closing quote. -/
def quotedFrom (done : List Char) : List Char → Except Problem (List Char × List Char)
  | [] => .error (.malformed .unterminatedText)
  | '"' :: rest => .ok (done.reverse, rest)
  | ['\\'] => .error (.malformed .unterminatedText)
  | '\\' :: c :: rest =>
    match escaped? c with
    | some meant => quotedFrom (meant :: done) rest
    | none => .error (.malformed (.unknownEscape c))
  | c :: rest => quotedFrom (c :: done) rest

/-- The token that starts with the character `first`, and what follows it. -/
def tokenAt (first : Char) (rest : List Char) : Except Problem (Token × List Char) :=
  match punctuation? first with
  | some token => .ok (token, rest)
  | none =>
    if first = '"' then
      (quotedFrom [] rest).map fun (content, rest) => (.text (String.ofList content), rest)
    else if first.isDigit then
      (numberOf (first :: rest.takeWhile continuesNumber)).map fun value =>
        (.number value, rest.dropWhile continuesNumber)
    else if startsName first then
      .ok (.name (String.ofList (first :: rest.takeWhile continuesName)),
        rest.dropWhile continuesName)
    else .error (.malformed (.unexpectedCharacter first))

/-- Nothing is longer behind a quoted text than in front of it. -/
theorem quotedFrom_length {done input content rest : List Char}
    (found : quotedFrom done input = .ok (content, rest)) : rest.length ≤ input.length := by
  fun_induction quotedFrom done input with
  | case1 => cases found
  | case2 => cases found; simp
  | case3 => cases found
  | case4 _ _ _ _ _ ih => exact Nat.le_trans (ih found) (by simp; omega)
  | case5 => cases found
  | case6 _ _ _ _ _ _ ih => exact Nat.le_trans (ih found) (by simp)

/-- What follows a token is no longer than what follows its first character. -/
theorem tokenAt_length {first : Char} {input rest : List Char} {token : Token}
    (found : tokenAt first input = .ok (token, rest)) : rest.length ≤ input.length := by
  have shorter (p : Char → Bool) : (input.dropWhile p).length ≤ input.length :=
    (List.dropWhile_sublist p).length_le
  unfold tokenAt at found
  split at found
  · cases found; exact Nat.le_refl _
  · split at found
    · cases text : quotedFrom [] input with
      | error => rw [text] at found; cases found
      | ok parts => rw [text] at found; cases found; exact quotedFrom_length text
    · split at found
      · cases number : numberOf (first :: input.takeWhile continuesNumber) with
        | error => rw [number] at found; cases found
        | ok value => rw [number] at found; cases found; exact shorter _
      · split at found
        · cases found; exact shorter _
        · cases found

/-- The tokens of a line behind the tokens `done`, of which the last comes first. -/
def scanFrom (done : List Token) : List Char → Except Problem (List Token)
  | [] => .ok done.reverse
  | c :: rest =>
    if c = ';' then .ok done.reverse
    else if Text.isBlank c then scanFrom done rest
    else
      match found : tokenAt c rest with
      | .error problem => .error problem
      | .ok (token, rest) =>
        have := tokenAt_length found
        scanFrom (token :: done) rest
termination_by input => input.length
decreasing_by
  all_goals simp only [List.length_cons]; omega

/-- The tokens of a line. -/
def scan (line : List Char) : Except Problem (List Token) := scanFrom [] line

end Dcpu16.Source
