import Dcpu16.Proofs.Source.Scanning

/-!
# Renderings of tokens

All the texts that a list of tokens can be written as (`Renders`): numbers to three bases, quoted
texts with escapes, blanks of any kind and number between tokens, and a comment behind the last.
Scanning undoes every one of them (`scan_rendered`).
-/
namespace Dcpu16.Source

/-! ## Names -/

/-- A letter, an underscore or a dot. -/
def NameStart (c : Char) : Prop :=
  'A' ≤ c ∧ c ≤ 'Z' ∨ 'a' ≤ c ∧ c ≤ 'z' ∨ c = '_' ∨ c = '.'

/-- A text that is a name: a letter, an underscore or a dot, with these and digits behind it. -/
inductive Identifier : List Char → Prop
  | intro {first : Char} {more : List Char} (starts : NameStart first)
      (continues : ∀ c ∈ more, NameStart c ∨ '0' ≤ c ∧ c ≤ '9') : Identifier (first :: more)

/-- The characters that a name starts with. -/
theorem startsName_iff {c : Char} : startsName c ↔ NameStart c := by
  simp only [startsName, NameStart, Char.isAlpha, Char.isUpper, Char.isLower, Bool.or_eq_true,
    Bool.and_eq_true, decide_eq_true_eq, beq_iff_eq, ge_iff_le, or_assoc]
  rfl

/-- The characters that a name goes on with. -/
theorem continuesName_iff {c : Char} :
    continuesName c ↔ NameStart c ∨ '0' ≤ c ∧ c ≤ '9' := by
  have digit : c.isDigit ↔ '0' ≤ c ∧ c ≤ '9' := by
    simp only [Char.isDigit, Bool.and_eq_true, decide_eq_true_eq, ge_iff_le]
    rfl
  have split : continuesName c ↔ startsName c ∨ c.isDigit := by
    simp only [continuesName, startsName, Char.isAlphanum, Bool.or_eq_true]
    tauto
  rw [split, startsName_iff, digit]

/-- A name starts as a name does and goes on as one. -/
theorem Identifier.exists_cons {text : List Char} (identifier : Identifier text) :
    ∃ first more, text = first :: more ∧ startsName first ∧ ∀ c ∈ more, continuesName c := by
  cases identifier with
  | @intro first more starts continues =>
    exact ⟨first, more, rfl, startsName_iff.mpr starts,
      fun c member => continuesName_iff.mpr (continues c member)⟩

/-! ## Numbers -/

/-- The characters write the number: in decimal, or behind `0x` in hexadecimal, or behind `0b` in
binary, in any letter case. -/
inductive Literal (value : Nat) : List Char → Prop
  | decimal {written : List Char} (numeral : Numeral 10 value written) : Literal value written
  | hexadecimal {mark : Char} {written : List Char} (base : mark = 'x' ∨ mark = 'X')
      (numeral : Numeral 16 value written) : Literal value ('0' :: mark :: written)
  | binary {mark : Char} {written : List Char} (base : mark = 'b' ∨ mark = 'B')
      (numeral : Numeral 2 value written) : Literal value ('0' :: mark :: written)

section Literal

variable {value : Nat} {written : List Char}

/-- Decimal digits have no mark of another base in front. -/
theorem based_of_digits (digits : ∀ c ∈ written, c.isDigit) : Based 10 written written := by
  refine .decimal fun mark rest same marks => ?_
  have digit : mark.isDigit := digits mark (by simp [same])
  have apart : ∀ mark ∈ ['x', 'X', 'b', 'B'], mark.isDigit = false := by simp
  exact absurd digit (by simp [apart mark marks])

/-- The digits of a numeral may stand in a number. -/
theorem Numeral.continuesNumber {base : Nat} (numeral : Numeral base value written)
    (least : 1 < base) (most : base ≤ 16) {c : Char} (member : c ∈ written) :
    continuesNumber c :=
  continuesNumber_of_digit? (digit?_of_mem (numeral.digitsFrom?_eq least most) member)

/-- The digits of a decimal numeral are decimal digits. -/
theorem Numeral.isDigit (numeral : Numeral 10 value written) {c : Char} (member : c ∈ written) :
    c.isDigit :=
  isDigit_of_digit? (digit?_of_mem (numeral.digitsFrom?_eq (by decide) (by decide)) member)

/-- A numeral behind the mark of its base is a literal that goes on as a number. -/
theorem Numeral.behind_mark {base : Nat} {mark : Char} (numeral : Numeral base value written)
    (continues : Source.continuesNumber mark)
    (based : Based base written ('0' :: mark :: written)) :
    (∀ c ∈ mark :: written, Source.continuesNumber c) ∧
      literal? ('0' :: mark :: written) = some value := by
  obtain ⟨least, most⟩ := based.bounds
  constructor
  · intro c member
    rcases List.mem_cons.mp member with rfl | digit
    · exact continues
    · exact numeral.continuesNumber least most digit
  · rw [based.literal?_eq, numeral.digits?_eq least most]

/-- A literal starts with a digit, goes on as a number, and has its value. -/
theorem Literal.exists_cons (literal : Literal value written) :
    ∃ first more, written = first :: more ∧ first.isDigit ∧ (∀ c ∈ more, continuesNumber c) ∧
      literal? written = some value := by
  cases literal with
  | decimal numeral =>
    obtain ⟨first, more, rfl⟩ := List.exists_cons_of_ne_nil numeral.ne_nil
    refine ⟨first, more, rfl, numeral.isDigit List.mem_cons_self, fun c member => ?_, ?_⟩
    · exact numeral.continuesNumber (by decide) (by decide) (List.mem_cons_of_mem _ member)
    · rw [(based_of_digits fun c member => numeral.isDigit member).literal?_eq,
        numeral.digits?_eq (by decide) (by decide)]
  | @hexadecimal mark digits base numeral =>
    have continues : continuesNumber mark := by rcases base with rfl | rfl <;> decide
    exact ⟨'0', _, rfl, by decide, numeral.behind_mark continues (.hexadecimal base digits)⟩
  | @binary mark digits base numeral =>
    have continues : continuesNumber mark := by rcases base with rfl | rfl <;> decide
    exact ⟨'0', _, rfl, by decide, numeral.behind_mark continues (.binary base digits)⟩

end Literal

/-- The decimal digits of a number are a numeral of it. -/
theorem numeral_toDigits (value : Nat) : Numeral 10 value (Nat.toDigits 10 value) :=
  numeral_zeros_toDigits (by decide) (by decide) 0 value

/-! ## Quoted texts -/

/-- How a character is written between quotes. A quote and a backslash are escaped; a line feed, a
tab and the character 0 may be. -/
inductive Quotes : Char → List Char → Prop
  | plain {c : Char} (quote : c ≠ '"') (backslash : c ≠ '\\') : Quotes c [c]
  | quote : Quotes '"' ['\\', '"']
  | backslash : Quotes '\\' ['\\', '\\']
  | lineFeed : Quotes '\n' ['\\', 'n']
  | tab : Quotes '\t' ['\\', 't']
  | null : Quotes '\x00' ['\\', '0']

/-- All characters can be written between quotes. -/
theorem exists_quotes (content : List Char) : ∃ pieces, List.Forall₂ Quotes content pieces := by
  induction content with
  | nil => exact ⟨[], .nil⟩
  | cons c content ih =>
    obtain ⟨pieces, quotes⟩ := ih
    by_cases quote : c = '"'
    · subst quote
      exact ⟨_, .cons .quote quotes⟩
    · by_cases backslash : c = '\\'
      · subst backslash
        exact ⟨_, .cons .backslash quotes⟩
      · exact ⟨_, .cons (.plain quote backslash) quotes⟩

/-- A character is read from what it is written as between quotes. -/
theorem Quotes.quotedFrom_append {c : Char} {written : List Char} (quotes : Quotes c written)
    (done rest : List Char) : quotedFrom done (written ++ rest) = quotedFrom (c :: done) rest := by
  cases quotes with
  | plain quote backslash =>
    rw [List.singleton_append, quotedFrom]
    · exact quote
    · rintro same -
      exact backslash same
    · rintro other following same -
      exact backslash same
  | quote | backslash | lineFeed | tab | null => rfl

/-- The characters between quotes are read one by one. -/
theorem quotedFrom_flatten {content : List Char} {pieces : List (List Char)}
    (quotes : List.Forall₂ Quotes content pieces) (done rest : List Char) :
    quotedFrom done (pieces.flatten ++ '"' :: rest) = .ok (done.reverse ++ content, rest) := by
  induction quotes generalizing done with
  | nil => simp [quotedFrom]
  | cons first quotes ih =>
    rw [List.flatten_cons, List.append_assoc, first.quotedFrom_append, ih, List.reverse_cons,
      List.append_assoc]
    rfl

/-! ## Tokens -/

/-- What a token can be written as. -/
inductive Spelling : Token → List Char → Prop
  | name {spelling : String} (identifier : Identifier spelling.toList) :
      Spelling (.name spelling) spelling.toList
  | number {value : Word} {written : List Char} (literal : Literal value.toNat written) :
      Spelling (.number value) written
  | text {content : String} {pieces : List (List Char)}
      (quotes : List.Forall₂ Quotes content.toList pieces) :
      Spelling (.text content) ('"' :: (pieces.flatten ++ ['"']))
  | comma : Spelling .comma [',']
  | openBracket : Spelling .openBracket ['[']
  | closeBracket : Spelling .closeBracket [']']
  | plus : Spelling .plus ['+']
  | colon : Spelling .colon [':']

/-- Is the token a name or a number? These go on as long as the characters allow. -/
def Token.isWord : Token → Bool
  | .name _ | .number _ => true
  | _ => false

section Spelling

variable {token : Token} {written : List Char}

/-- A token is scanned from each of its spellings. A name or a number needs something behind it that
ends it. -/
theorem Spelling.scanFrom_append (spelling : Spelling token written) {rest : List Char}
    (ends : token.isWord = true → Ends rest) (done : List Token) :
    scanFrom done (written ++ rest) = scanFrom (token :: done) rest := by
  cases spelling with
  | @name spelling identifier =>
    obtain ⟨first, more, whole, starts, continues⟩ := identifier.exists_cons
    have named : spelling = String.ofList (first :: more) := by
      rw [← whole, String.ofList_toList]
    rw [whole, named]
    exact scanFrom_name starts continues (ends rfl)
  | number literal =>
    obtain ⟨first, more, rfl, digit, continues, found⟩ := literal.exists_cons
    exact scanFrom_number digit continues (numberOf_of_literal? found) (ends rfl)
  | @text content pieces quotes =>
    have taken : tokenAt '"' (pieces.flatten ++ '"' :: rest) = .ok (.text content, rest) := by
      have read : quotedFrom [] (pieces.flatten ++ '"' :: rest) = .ok (content.toList, rest) :=
        quotedFrom_flatten quotes [] rest
      have mark : punctuation? '"' = none := rfl
      simp only [tokenAt, mark, read, ↓reduceIte, Except.map, String.ofList_toList]
    rw [List.cons_append, List.append_assoc]
    exact scanFrom_of_tokenAt (by decide) (by decide) taken
  | comma | openBracket | closeBracket | plus | colon => exact scanFrom_mark rfl rest

/-- A token that is no name and no number ends what is in front of it. -/
theorem Spelling.ends_append (spelling : Spelling token written) (other : token.isWord = false)
    (rest : List Char) : Ends (written ++ rest) := by
  cases spelling with
  | name | number => cases other
  | text | comma | openBracket | closeBracket | plus | colon => exact .cons (by decide) _

end Spelling

/-! ## Lines -/

/-- The text renders the tokens from the first one on: each in one of its spellings, with blanks
behind it. There need be none at the end, nor between two tokens of which one is neither a name nor
a number. A comment may come last. -/
inductive Renders : List Token → List Char → Prop
  | nil : Renders [] []
  | comment (remark : List Char) : Renders [] (';' :: remark)
  | cons {token : Token} {tokens : List Token} {written gap rest : List Char}
      (spelling : Spelling token written) (blank : ∀ c ∈ gap, Text.isBlank c)
      (apart : gap ≠ [] ∨ token.isWord = false ∨ ∀ next ∈ tokens.head?, next.isWord = false)
      (renders : Renders tokens rest) : Renders (token :: tokens) (written ++ (gap ++ rest))

section Renders

variable {tokens : List Token} {text : List Char}

/-- What does not go on with a name or a number ends what is in front of it. -/
theorem Renders.ends (renders : Renders tokens text)
    (apart : ∀ next ∈ tokens.head?, next.isWord = false) : Ends text := by
  cases renders with
  | nil => exact .nil
  | comment remark => exact .cons (by decide) remark
  | cons spelling => exact spelling.ends_append (apart _ rfl) _

/-- Blanks end what is in front of them. -/
theorem Ends.of_blank {gap : List Char} (some : gap ≠ []) (blank : ∀ c ∈ gap, Text.isBlank c)
    (rest : List Char) : Ends (gap ++ rest) := by
  cases gap with
  | nil => exact absurd rfl some
  | cons c gap => exact .cons (continuesName_of_isBlank (blank c List.mem_cons_self)) _

/-- The tokens that a text renders are scanned behind others. -/
theorem Renders.scanFrom_eq (renders : Renders tokens text) (done : List Token) :
    scanFrom done text = .ok (done.reverse ++ tokens) := by
  induction renders generalizing done with
  | nil => rw [scanFrom, List.append_nil]
  | comment remark => rw [scanFrom_comment, List.append_nil]
  | @cons token tokens written gap rest spelling blank apart renders ih =>
    have ends (word : token.isWord = true) : Ends (gap ++ rest) := by
      by_cases some : gap = []
      · -- Nothing is between the two, so the next token is no name and no number.
        subst some
        have next := (apart.resolve_left fun other => other rfl).resolve_left (by simp [word])
        exact renders.ends next
      · exact .of_blank some blank rest
    rw [spelling.scanFrom_append ends, scanFrom_gap _ blank, ih, List.reverse_cons,
      List.append_assoc]
    rfl

/-- Every token has a spelling, if names are names. -/
theorem exists_spelling {token : Token}
    (named : ∀ spelling, token = .name spelling → Identifier spelling.toList) :
    ∃ written, Spelling token written := by
  cases token with
  | name spelling => exact ⟨_, .name (named spelling rfl)⟩
  | number value => exact ⟨_, .number (.decimal (numeral_toDigits value.toNat))⟩
  | text content =>
    obtain ⟨pieces, quotes⟩ := exists_quotes content.toList
    exact ⟨_, .text quotes⟩
  | comma => exact ⟨_, .comma⟩
  | openBracket => exact ⟨_, .openBracket⟩
  | closeBracket => exact ⟨_, .closeBracket⟩
  | plus => exact ⟨_, .plus⟩
  | colon => exact ⟨_, .colon⟩

/-- All tokens can be rendered, if names are names. -/
theorem exists_renders
    (named : ∀ spelling, .name spelling ∈ tokens → Identifier spelling.toList) :
    ∃ text, Renders tokens text := by
  induction tokens with
  | nil => exact ⟨[], .nil⟩
  | cons token tokens ih =>
    obtain ⟨written, spelling⟩ : ∃ written, Spelling token written :=
      exists_spelling fun spelling same => named spelling (same ▸ List.mem_cons_self)
    obtain ⟨rest, renders⟩ := ih fun spelling member =>
      named spelling (List.mem_cons_of_mem token member)
    have blank : ∀ c ∈ [' '], Text.isBlank c := by
      intro c member
      rw [List.mem_singleton.mp member]
      decide
    exact ⟨_, .cons spelling blank (.inl (List.cons_ne_nil _ _)) renders⟩

end Renders

/-- Scanning undoes printing. All tokens can be rendered whose names are names, and whatever text
renders tokens, with any blanks in front, it is scanned as exactly these tokens. -/
theorem scan_rendered (tokens : List Token) :
    ((∀ spelling, .name spelling ∈ tokens → Identifier spelling.toList) →
        ∃ text, Renders tokens text) ∧
      ∀ indent text, (∀ c ∈ indent, Text.isBlank c) → Renders tokens text →
        scan (indent ++ text) = .ok tokens := by
  refine ⟨exists_renders, fun indent text blank renders => ?_⟩
  rw [scan, scanFrom_gap [] blank, renders.scanFrom_eq]
  rfl

/-- No blank needs to stand around a text, and a semicolon in one starts no comment. -/
theorem scan_rendered_data :
    scan "\tDAT\"a;\\n\",0X0f ; b".toList =
      .ok [.name "DAT", .text "a;\n", .comma, .number 15] := by
  have name : Identifier "DAT".toList := by
    have letters : "DAT".toList = ['D', 'A', 'T'] := by decide
    rw [letters]
    refine .intro (.inl (by decide)) fun c member => .inl (.inl ?_)
    rcases List.mem_pair.mp member with rfl | rfl <;> decide
  have quotes : List.Forall₂ Quotes "a;\n".toList [['a'], [';'], ['\\', 'n']] := by
    have characters : "a;\n".toList = ['a', ';', '\n'] := by decide
    rw [characters]
    exact .cons (.plain (by decide) (by decide)) (.cons (.plain (by decide) (by decide))
      (.cons .lineFeed .nil))
  have fifteen : Literal (15 : Word).toNat ['0', 'X', '0', 'f'] :=
    .hexadecimal (.inr rfl) ⟨1, by decide⟩
  have blank {mark : Char} (blank : Text.isBlank mark) : ∀ c ∈ [mark], Text.isBlank c :=
    List.forall_mem_singleton.mpr blank
  have renders := Renders.comment [' ', 'b']
    |> @Renders.cons _ _ _ [' '] _ (.number fifteen) (blank (by decide)) (.inl (by decide))
    |> @Renders.cons _ _ _ [] _ .comma (by simp) (.inr (.inl rfl))
    |> @Renders.cons _ _ _ [] _ (.text quotes) (by simp) (.inr (.inl rfl))
    |> @Renders.cons _ _ _ [] _ (.name name) (by simp) (.inr (.inr (by simp [Token.isWord])))
  have line : "\tDAT\"a;\\n\",0X0f ; b".toList = ['\t'] ++ ['D', 'A', 'T', '"', 'a', ';', '\\',
      'n', '"', ',', '0', 'X', '0', 'f', ' ', ';', ' ', 'b'] := by decide
  rw [line]
  exact (scan_rendered _).2 ['\t'] _ (blank (by decide)) renders

end Dcpu16.Source
