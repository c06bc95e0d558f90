import Dcpu16.Source.Scan
import Dcpu16.Source.Statement
import Dcpu16.Text.Lines

/-!
# From tokens to statements

A line is an optional label, `:name` or `name:`, and an optional body. A body is `DAT` with
values or a mnemonic with operands, separated by commas. In brackets stand a register, an
offset, or a sum of the two in either order. Keywords and register names are recognised in any
letter case. `read` takes a whole source and reports the first line that is no statement.
-/
namespace Dcpu16.Source

/-- A reader takes an item from the front of the tokens, and leaves what follows. -/
abbrev Reader (α : Type) := List Token → Except Malformation (α × List Token)

/-- Every item takes at least one token. -/
def Reader.Advances {α : Type} (reader : Reader α) : Prop :=
  ∀ {tokens item rest}, reader tokens = .ok (item, rest) → rest.length < tokens.length

/-- Items with commas between them, up to the end of the line, behind the items `done`, of which
the last comes first. -/
def separatedFrom {α : Type} (reader : Reader α) (advances : reader.Advances) (done : List α)
    (tokens : List Token) : Except Malformation (List α) :=
  match found : reader tokens with
  | .error malformation => .error malformation
  | .ok (item, []) => .ok (item :: done).reverse
  | .ok (item, .comma :: rest) =>
    have := advances found
    separatedFrom reader advances (item :: done) rest
  | .ok (_, other :: _) => .error (.commaExpected other)
termination_by tokens.length
decreasing_by
  simp only [List.length_cons] at *
  omega

/-- Items with commas between them, up to the end of the line. -/
def separated {α : Type} (reader : Reader α) (advances : reader.Advances) (tokens : List Token) :
    Except Malformation (List α) :=
  separatedFrom reader advances [] tokens

/-! ## Operands -/

/-- The operand that a name stands for. -/
def Expression.ofName (name : String) : Expression :=
  match Text.capitals name with
  | "POP" => .pop
  | "PEEK" => .peek
  | "PUSH" => .push
  | _ =>
    match Register.ofName? name with
    | some found => .register found
    | none => .immediate (.label name)

/-- The terms met so far between brackets. -/
structure Terms where
  /-- The number or label. -/
  offset : Option Value := none
  /-- The register. -/
  register : Option Register := none

/-- The terms with one more. Only a register and an offset can stand together. -/
def Terms.add (terms : Terms) : Token → Except Malformation Terms
  | .number value =>
    if terms.offset.isNone then .ok { terms with offset := some (.number value) }
    else .error (.termExpected (.number value))
  | .name name =>
    match Register.ofName? name with
    | some register =>
      if terms.register.isNone then .ok { terms with register := some register }
      else .error .secondRegister
    | none =>
      if terms.offset.isNone then .ok { terms with offset := some (.label name) }
      else .error .secondOffset
  | other => .error (.termExpected other)

/-- The operand that complete terms make. SP alone is the top of the stack; no other special
register addresses memory. -/
def Terms.close (terms : Terms) : Except Malformation Expression :=
  match terms.offset, terms.register with
  | none, some .sp => .ok .peek
  | offset, some register =>
    if register.index?.isNone then .error (.registerInBrackets register)
    else .ok (.indirect offset (some register))
  | offset, none => .ok (.indirect offset none)

/-- The operand whose opening bracket and first terms have been read. -/
def bracketed (terms : Terms) : Reader Expression
  | [] => .error .bracketMissing
  | token :: rest =>
    match terms.add token with
    | .error malformation => .error malformation
    | .ok terms =>
      match rest with
      | .plus :: rest => bracketed terms rest
      | .closeBracket :: rest => terms.close.map fun operand => (operand, rest)
      | _ => .error .plusOrBracketExpected

/-- An operand. -/
def operand : Reader Expression
  | .openBracket :: rest => bracketed {} rest
  | .number value :: rest => .ok (.immediate (.number value), rest)
  | .name name :: rest => .ok (.ofName name, rest)
  | other :: _ => .error (.operandExpected other)
  | [] => .error .operandMissing

/-- What stands between brackets takes tokens. -/
theorem bracketed_advances (terms : Terms) : Reader.Advances (bracketed terms) := by
  intro tokens item rest found
  fun_induction bracketed terms tokens with
  | case1 => cases found
  | case2 => cases found
  | case3 _ _ _ _ _ ih =>
    have := ih found
    simp only [List.length_cons]
    omega
  | case4 _ _ terms _ rest =>
    cases closed : terms.close with
    | error => rw [closed] at found; cases found
    | ok => rw [closed] at found; cases found; simp only [List.length_cons]; omega
  | case5 => cases found

/-- An operand takes tokens. -/
theorem operand_advances : Reader.Advances operand := by
  intro tokens item rest found
  unfold operand at found
  split at found
  · have := bracketed_advances {} found
    simp only [List.length_cons]
    omega
  · cases found; simp
  · cases found; simp
  · cases found
  · cases found

/-- The operands of an instruction, up to the end of the line; there may be none. -/
def operands : List Token → Except Malformation (List Expression)
  | [] => .ok []
  | tokens => separated operand operand_advances tokens

/-! ## Data -/

/-- A data value. -/
def datum : Reader Datum
  | .number value :: rest => .ok (.value (.number value), rest)
  | .name name :: rest => .ok (.value (.label name), rest)
  | .text content :: rest => .ok (.text content, rest)
  | other :: _ => .error (.dataExpected other)
  | [] => .error .dataMissing

/-- A data value takes a token. -/
theorem datum_advances : Reader.Advances datum := by
  intro tokens item rest found
  unfold datum at found
  split at found <;> cases found <;> simp

/-! ## Lines -/

/-- The label at the start of a line, and what follows it. -/
def labelled : List Token → Except Malformation (Option String × List Token)
  | .colon :: .name label :: rest => .ok (some label, rest)
  | .name label :: .colon :: rest => .ok (some label, rest)
  | .colon :: _ => .error .labelExpected
  | tokens => .ok (none, tokens)

/-- The body that the tokens behind a label make. -/
def body : List Token → Except Malformation (Option Body)
  | [] => .ok none
  | .name word :: rest =>
    if Text.capitals word = "DAT" then
      (separated datum datum_advances rest).map fun items => some (.data items)
    else
      (operands rest).map fun operands => some (.instruction word operands)
  | other :: _ => .error (.mnemonicExpected other)

/-- The statement that the tokens of a line make. -/
def statement (line : Nat) (tokens : List Token) : Except Malformation Statement := do
  let (label, rest) ← labelled tokens
  return { line, label, body := ← body rest }

/-- The statement on a line with this number; a line with no token holds none. -/
def readLine (text : List Char) (line : Nat) : Except Error (Option Statement) :=
  match scan text with
  | .error problem => .error ⟨line, problem⟩
  | .ok [] => .ok none
  | .ok tokens =>
    match statement line tokens with
    | .error malformation => .error ⟨line, .malformed malformation⟩
    | .ok statement => .ok (some statement)

/-- The statements of a source. -/
def read (source : String) : Except Error (List Statement) :=
  (((Text.lines source.toList).zipIdx 1).mapM fun (text, line) => readLine text line).map
    (List.filterMap id)

end Dcpu16.Source
