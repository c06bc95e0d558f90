import Dcpu16.Proofs.Assembly.Labels

/-!
# Letter case

Mnemonics, `DAT`, the registers of operands, and `POP`, `PEEK` and `PUSH` as operands are written in
any letter case: lines of tokens that differ in nothing else (`RecasedLine`) are read as statements
that differ only in the spelling of mnemonics (`Statement.Recased`), and these make the same words
or fail alike (`agree_assembleTokens`). Labels keep their letter case: one that is spelled otherwise
is another label (`letter_case`).
-/
namespace Dcpu16.Source

/-! ## Outcomes that agree -/

/-- Two outcomes agree: both are results that are related, or both are errors that are related. -/
inductive Agree {ε α β : Type} (errors : ε → ε → Prop) (results : α → β → Prop) :
    Except ε α → Except ε β → Prop
  | ok {left : α} {right : β} (related : results left right) :
      Agree errors results (.ok left) (.ok right)
  | error {left right : ε} (related : errors left right) :
      Agree errors results (.error left) (.error right)

section Agree

variable {ε α β γ δ : Type} {errors : ε → ε → Prop} {before : α → β → Prop}
  {after : γ → δ → Prop}

/-- Outcomes that agree go on to outcomes that agree. -/
theorem Agree.bind {left : Except ε α} {right : Except ε β} (agree : Agree errors before left right)
    {next : α → Except ε γ} {other : β → Except ε δ}
    (onward : ∀ result same, before result same → Agree errors after (next result) (other same)) :
    Agree errors after (left.bind next) (right.bind other) := by
  cases agree with
  | ok related => exact onward _ _ related
  | error related => exact .error related

/-- Outcomes that agree are used further alike. -/
theorem Agree.map {left : Except ε α} {right : Except ε β} (agree : Agree errors before left right)
    {next : α → γ} {other : β → δ}
    (onward : ∀ result same, before result same → after (next result) (other same)) :
    Agree errors after (left.map next) (right.map other) := by
  cases agree with
  | ok related => exact .ok (onward _ _ related)
  | error related => exact .error related

/-- Outcomes that agree do so with their errors put in another way. -/
theorem Agree.mapError {ζ : Type} {others : ζ → ζ → Prop} {left : Except ε α} {right : Except ε β}
    (agree : Agree errors before left right) {first second : ε → ζ}
    (onward : ∀ error same, errors error same → others (first error) (second same)) :
    Agree others before (left.mapError first) (right.mapError second) := by
  cases agree with
  | ok related => exact .ok related
  | error related => exact .error (onward _ _ related)

/-- An outcome agrees with itself. -/
theorem Agree.refl (alike : ∀ error, errors error error) (outcome : Except ε α) :
    Agree errors Eq outcome outcome := by
  cases outcome with
  | ok => exact .ok rfl
  | error error => exact .error (alike error)

end Agree

/-- The kinds of problems. -/
inductive Problem.Kind
  | malformed
  | unknownMnemonic
  | wrongOperandCount
  | undefinedLabel
  | duplicateLabel
  | outOfRange
  deriving DecidableEq

/-- The kind of a problem. -/
def Problem.kind : Problem → Problem.Kind
  | .malformed _ => .malformed
  | .unknownMnemonic _ => .unknownMnemonic
  | .wrongOperandCount _ _ _ => .wrongOperandCount
  | .undefinedLabel _ => .undefinedLabel
  | .duplicateLabel _ => .duplicateLabel
  | .outOfRange _ => .outOfRange

/-- Two problems are of one kind. -/
def Problem.Alike (left right : Problem) : Prop := left.kind = right.kind

/-- A problem is of one kind with itself. -/
theorem Problem.Alike.refl (problem : Problem) : problem.Alike problem := rfl

/-- Two errors are on one line and of one kind. -/
def Error.Alike (left right : Error) : Prop :=
  left.line = right.line ∧ left.problem.Alike right.problem

/-! ## Tokens -/

/-- Does a term in brackets follow the token? -/
def Token.opensTerm : Token → Bool
  | .openBracket | .plus => true
  | _ => false

/-- Two tokens behind a mnemonic are the same up to letter case, which is free in the name of a
register, and in a keyword unless it is a term in brackets. -/
inductive Token.Recased (term : Bool) : Token → Token → Prop
  | same (token : Token) : Token.Recased term token token
  | register {name other : String} {register : Register}
      (capitals : Text.capitals name = Text.capitals other)
      (found : Register.ofName? name = some register) :
      Token.Recased term (.name name) (.name other)
  | keyword {name other : String} (operand : term = false)
      (capitals : Text.capitals name = Text.capitals other)
      (keyword : Text.capitals name ∈ ["POP", "PEEK", "PUSH"]) :
      Token.Recased term (.name name) (.name other)

/-- The tokens behind a mnemonic are the same up to the letter case of registers and keywords; the
first token of them is or is not a term in brackets. -/
inductive RecasedFrom : (term : Bool) → List Token → List Token → Prop
  | nil (term : Bool) : RecasedFrom term [] []
  | cons {term : Bool} {left right : Token} {lefts rights : List Token}
      (first : left.Recased term right) (rest : RecasedFrom left.opensTerm lefts rights) :
      RecasedFrom term (left :: lefts) (right :: rights)

/-- The tokens behind a label are the same up to the letter case of the mnemonic and of registers
and keywords behind it. The values behind `DAT` are the same, and so are tokens that do not start
with a name. -/
inductive RecasedBody : List Token → List Token → Prop
  | same (tokens : List Token) : RecasedBody tokens tokens
  | data {keyword other : String} (capitals : Text.capitals keyword = Text.capitals other)
      (data : Text.capitals keyword = "DAT") (rest : List Token) :
      RecasedBody (.name keyword :: rest) (.name other :: rest)
  | instruction {mnemonic other : String} {left right : List Token}
      (capitals : Text.capitals mnemonic = Text.capitals other)
      (instruction : Text.capitals mnemonic ≠ "DAT") (rest : RecasedFrom false left right) :
      RecasedBody (.name mnemonic :: left) (.name other :: right)

/-- The tokens of two lines are the same up to the letter case of mnemonics, registers and keywords.
Their labels are the same. -/
inductive RecasedLine : List Token → List Token → Prop
  | colonFirst (label : String) {left right : List Token} (body : RecasedBody left right) :
      RecasedLine (.colon :: .name label :: left) (.colon :: .name label :: right)
  | nameFirst (label : String) {left right : List Token} (body : RecasedBody left right) :
      RecasedLine (.name label :: .colon :: left) (.name label :: .colon :: right)
  | unlabelled {left right : List Token} (apart : ∀ name, ¬Defines left name)
      (body : RecasedBody left right) : RecasedLine left right

/-- Only the capitals of a name tell its register. -/
theorem ofName?_congr {name other : String}
    (capitals : Text.capitals name = Text.capitals other) :
    Register.ofName? name = Register.ofName? other := by
  rw [Register.ofName?, Register.ofName?, capitals]

section Tokens

variable {term : Bool} {left right : Token} {lefts rights : List Token}

/-- A term follows both tokens or neither. -/
theorem Token.Recased.opensTerm_eq (recased : left.Recased term right) :
    left.opensTerm = right.opensTerm := by
  cases recased <;> rfl

/-- The letter case is free in either token. -/
theorem Token.Recased.symm (recased : left.Recased term right) : right.Recased term left := by
  cases recased with
  | same => exact .same _
  | register capitals found => exact .register capitals.symm (ofName?_congr capitals ▸ found)
  | keyword operand capitals keyword => exact .keyword operand capitals.symm (capitals ▸ keyword)

/-- The letter case is free in the tokens on either side. -/
theorem RecasedFrom.symm (recased : RecasedFrom term lefts rights) :
    RecasedFrom term rights lefts := by
  induction recased with
  | nil => exact .nil _
  | cons first _ ih => exact .cons first.symm (first.opensTerm_eq ▸ ih)

/-- The letter case is free in the bodies on either side. -/
theorem RecasedBody.symm (recased : RecasedBody lefts rights) : RecasedBody rights lefts := by
  cases recased with
  | same => exact .same _
  | data capitals data rest => exact .data capitals.symm (capitals ▸ data) rest
  | instruction capitals other rest => exact .instruction capitals.symm (capitals ▸ other) rest.symm

/-- A colon behind the first name stands in both bodies or in neither. -/
theorem RecasedBody.defines {name : String} (recased : RecasedBody lefts rights)
    (defines : Defines rights name) : ∃ name, Defines lefts name := by
  obtain ⟨behind, starts⟩ := defines
  cases recased with
  | same => exact ⟨name, behind, starts⟩
  | @data keyword other capitals data rest =>
    rcases starts with starts | starts <;> cases starts
    exact ⟨keyword, behind, .inr rfl⟩
  | @instruction mnemonic other left right capitals instruction rest =>
    rcases starts with starts | starts <;> cases starts
    cases rest with
    | cons first rest =>
      cases first
      exact ⟨mnemonic, _, .inr rfl⟩

/-- The letter case is free in the lines on either side. -/
theorem RecasedLine.symm (recased : RecasedLine lefts rights) : RecasedLine rights lefts := by
  cases recased with
  | colonFirst label body => exact .colonFirst label body.symm
  | nameFirst label body => exact .nameFirst label body.symm
  | unlabelled apart body =>
    refine .unlabelled (fun name defines => ?_) body.symm
    obtain ⟨other, defined⟩ := body.defines defines
    exact apart other defined

/-- Tokens are cut at the same commas. -/
theorem RecasedFrom.exists_comma {front rest tokens : List Token}
    (recased : RecasedFrom term (front ++ .comma :: rest) tokens) :
    ∃ other behind, tokens = other ++ .comma :: behind ∧ RecasedFrom term front other ∧
      RecasedFrom false rest behind := by
  induction front generalizing term tokens with
  | nil =>
    cases recased with
    | cons first behind =>
      cases first
      exact ⟨[], _, rfl, .nil term, behind⟩
  | cons token front ih =>
    cases recased with
    | @cons _ _ token' _ _ first more =>
      obtain ⟨other, behind, rfl, before, after⟩ := ih more
      exact ⟨token' :: other, behind, rfl, .cons first before, after⟩

end Tokens

/-! ## Operands -/

section Operands

variable {term : Bool} {name : String} {token : Token}

/-- The name of a register is one in any letter case. -/
theorem Token.Recased.register_eq {register : Register}
    (recased : (Token.name name).Recased term token)
    (found : Register.ofName? name = some register) :
    ∃ other, token = .name other ∧ Register.ofName? other = some register := by
  cases recased with
  | same => exact ⟨name, rfl, found⟩
  | register capitals => exact ⟨_, rfl, ofName?_congr capitals ▸ found⟩
  | keyword operand capitals => exact ⟨_, rfl, ofName?_congr capitals ▸ found⟩

/-- An offset in brackets keeps its letter case. -/
theorem Token.Recased.offset_eq {left : Token} {value : Value}
    (recased : left.Recased true token) (offset : Offsets left value) : token = left := by
  cases recased with
  | same => rfl
  | register capitals found =>
    cases offset with
    | label free => rw [free] at found; cases found
  | keyword operand => cases operand

/-- A name that stands for an operand on its own does so in any letter case, unless it is that of a
label. -/
theorem Token.Recased.exists_names {operand : Expression}
    (recased : (Token.name name).Recased term token) (names : Names name operand) :
    ∃ other, token = .name other ∧ Names other operand := by
  have again {other : String} (capitals : Text.capitals name = Text.capitals other)
      (reserved : (Register.ofName? name).isSome ∨
        Text.capitals name ∈ ["POP", "PEEK", "PUSH"]) : Names other operand := by
    cases names with
    | pop same => exact .pop (capitals ▸ same)
    | peek same => exact .peek (capitals ▸ same)
    | push same => exact .push (capitals ▸ same)
    | register found => exact .register (ofName?_congr capitals ▸ found)
    | label pop peek push free =>
      rw [free] at reserved
      simp [pop, peek, push] at reserved
  cases recased with
  | same => exact ⟨name, rfl, names⟩
  | register capitals found => exact ⟨_, rfl, again capitals (.inl (by rw [found]; rfl))⟩
  | keyword operand capitals keyword => exact ⟨_, rfl, again capitals (.inr keyword)⟩

/-- One term in brackets is one in any letter case. -/
theorem RecasedFrom.exists_term {tokens : List Token}
    (recased : RecasedFrom term [.openBracket, token, .closeBracket] tokens) :
    ∃ other, tokens = [.openBracket, other, .closeBracket] ∧ token.Recased true other := by
  rcases recased with _ | ⟨⟨⟩, _ | ⟨inner, _ | ⟨⟨⟩, ⟨⟩⟩⟩⟩
  exact ⟨_, rfl, inner⟩

/-- A sum in brackets is one in any letter case. -/
theorem RecasedFrom.exists_terms {second : Token} {tokens : List Token}
    (recased : RecasedFrom term [.openBracket, token, .plus, second, .closeBracket] tokens) :
    ∃ other another, tokens = [.openBracket, other, .plus, another, .closeBracket] ∧
      token.Recased true other ∧ second.Recased true another := by
  rcases recased with _ | ⟨⟨⟩, _ | ⟨first, _ | ⟨⟨⟩, _ | ⟨last, _ | ⟨⟨⟩, ⟨⟩⟩⟩⟩⟩⟩
  exact ⟨_, _, rfl, first, last⟩

/-- Tokens spell the same operand in any letter case. -/
theorem spells_of_recased {segment other : List Token} {operand : Expression}
    (spells : Spells segment operand) (recased : RecasedFrom false segment other) :
    Spells other operand := by
  cases spells with
  | number value =>
    rcases recased with _ | ⟨⟨⟩, ⟨⟩⟩
    exact .number value
  | name names =>
    rcases recased with _ | ⟨first, ⟨⟩⟩
    obtain ⟨spelled, rfl, names⟩ := first.exists_names names
    exact .name names
  | top found =>
    obtain ⟨inner, rfl, first⟩ := recased.exists_term
    obtain ⟨spelled, rfl, found⟩ := first.register_eq found
    exact .top found
  | base found general =>
    obtain ⟨inner, rfl, first⟩ := recased.exists_term
    obtain ⟨spelled, rfl, found⟩ := first.register_eq found
    exact .base found general
  | offset offset =>
    obtain ⟨inner, rfl, first⟩ := recased.exists_term
    rw [first.offset_eq offset]
    exact .offset offset
  | offsetFirst offset found general =>
    obtain ⟨inner, base, rfl, first, last⟩ := recased.exists_terms
    obtain ⟨spelled, rfl, found⟩ := last.register_eq found
    rw [first.offset_eq offset]
    exact .offsetFirst offset found general
  | registerFirst offset found general =>
    obtain ⟨base, inner, rfl, first, last⟩ := recased.exists_terms
    obtain ⟨spelled, rfl, found⟩ := first.register_eq found
    rw [last.offset_eq offset]
    exact .registerFirst offset found general

/-- Operands between commas are the same in any letter case. -/
theorem exists_segments_of_recased {segments : List (List Token)} {operands : List Expression}
    (wrote : List.Forall₂ Spells segments operands) {tokens : List Token}
    (recased : RecasedFrom false (List.intercalate [.comma] segments) tokens) :
    ∃ others, tokens = List.intercalate [.comma] others ∧ List.Forall₂ Spells others operands := by
  induction wrote generalizing tokens with
  | nil =>
    cases recased
    exact ⟨[], rfl, .nil⟩
  | @cons segment operand segments operands first rest ih =>
    cases segments with
    | nil =>
      cases rest
      rw [List.intercalate_singleton] at recased
      exact ⟨[tokens], by simp, .cons (spells_of_recased first recased) .nil⟩
    | cons second segments =>
      rw [List.intercalate_cons_cons, List.append_assoc, List.singleton_append] at recased
      obtain ⟨other, behind, rfl, here, there⟩ := recased.exists_comma
      obtain ⟨others, rfl, wrote⟩ := ih there
      have some : others ≠ [] := by
        rintro rfl
        cases rest
        cases wrote
      refine ⟨other :: others, ?_, .cons (spells_of_recased first here) wrote⟩
      rw [List.intercalate_cons_of_ne_nil some, List.append_assoc, List.singleton_append]

end Operands

/-! ## Statements -/

/-- Two bodies are the same up to the letter case of the mnemonic. -/
inductive Body.Recased : Body → Body → Prop
  | instruction {mnemonic other : String} (capitals : Text.capitals mnemonic = Text.capitals other)
      (operands : List Expression) :
      Body.Recased (.instruction mnemonic operands) (.instruction other operands)
  | data (items : List Datum) : Body.Recased (.data items) (.data items)

/-- Two statements are the same up to the letter case of the mnemonic. -/
structure Statement.Recased (left right : Statement) : Prop where
  line_eq : left.line = right.line
  label_eq : left.label = right.label
  body : Option.Rel Body.Recased left.body right.body

/-- Bodies are read alike in any letter case. -/
theorem RecasedBody.exists_body {left right : List Token} {found : Option Body}
    (recased : RecasedBody left right) (read : body left = .ok found) :
    ∃ other, body right = .ok other ∧ Option.Rel Body.Recased found other := by
  have itself (found : Option Body) : Option.Rel Body.Recased found found := by
    rcases found with _ | ⟨mnemonic, operands⟩ | ⟨items⟩
    · exact .none
    · exact .some (.instruction rfl operands)
    · exact .some (.data items)
  cases recased with
  | same => exact ⟨found, read, itself found⟩
  | data capitals data rest =>
    have bodies := body_eq_ok_iff.mp read
    cases bodies with
    | data same nonempty wrote =>
      exact ⟨_, body_eq_ok_iff.mpr (.data (capitals ▸ same) nonempty wrote), .some (.data _)⟩
    | instruction other => exact absurd data other
  | instruction capitals instruction rest =>
    have bodies := body_eq_ok_iff.mp read
    cases bodies with
    | data same => exact absurd same instruction
    | instruction other wrote =>
      obtain ⟨others, rfl, wrote⟩ := exists_segments_of_recased wrote rest
      exact ⟨_, body_eq_ok_iff.mpr (.instruction (capitals ▸ other) wrote),
        .some (.instruction capitals _)⟩

/-- A name that starts no label starts the body. -/
theorem labelled_of_not_defines {word : String} {rest : List Token}
    (apart : ∀ name, ¬Defines (.name word :: rest) name) :
    labelled (.name word :: rest) = .ok (none, .name word :: rest) :=
  labelled_of_ne_colon word fun behind same => apart word ⟨behind, .inr (same ▸ rfl)⟩

/-- Statements are read alike in any letter case. -/
theorem RecasedLine.exists_statement {left right : List Token} {line : Nat} {found : Statement}
    (recased : RecasedLine left right) (read : statement line left = .ok found) :
    ∃ other, statement line right = .ok other ∧ found.Recased other := by
  obtain ⟨behind, labels, inner, number⟩ := statement_eq_ok_iff_labelled.mp read
  have onward {rest : List Token} (same : labelled right = .ok (found.label, rest))
      (body : RecasedBody behind rest) :
      ∃ other, statement line right = .ok other ∧ found.Recased other := by
    obtain ⟨other, read, alike⟩ := body.exists_body inner
    exact ⟨⟨line, found.label, other⟩, statement_eq_ok_iff_labelled.mpr ⟨rest, same, read, rfl⟩,
      number, rfl, alike⟩
  cases recased with
  | colonFirst label body =>
    rw [labelled, Except.ok.injEq, Prod.mk.injEq] at labels
    obtain ⟨named, rfl⟩ := labels
    exact onward (named ▸ rfl) body
  | nameFirst label body =>
    rw [labelled, Except.ok.injEq, Prod.mk.injEq] at labels
    obtain ⟨named, rfl⟩ := labels
    exact onward (named ▸ rfl) body
  | unlabelled apart body =>
    have apartRight : ∀ name, ¬Defines right name := fun name defines =>
      (body.defines defines).elim apart
    obtain ⟨front, rfl, label⟩ := labels_of_labelled labels
    generalize found.label = named at label labels onward
    cases label with
    | colonFirst label => exact absurd ⟨behind, .inl rfl⟩ (apart label)
    | nameFirst label => exact absurd ⟨behind, .inr rfl⟩ (apart label)
    | none =>
      cases body with
      | same => exact onward labels (.same _)
      | data capitals data rest =>
        exact onward (labelled_of_not_defines apartRight) (.data capitals data rest)
      | instruction capitals instruction rest =>
        exact onward (labelled_of_not_defines apartRight)
          (.instruction capitals instruction rest)

/-- A line that is blank is blank in any letter case. -/
theorem RecasedLine.eq_nil {right : List Token} (recased : RecasedLine [] right) : right = [] := by
  cases recased with
  | unlabelled apart body =>
    cases body
    rfl

/-- Lines are read alike in any letter case. -/
theorem RecasedLine.agree_readTokens {left right : List Token} (recased : RecasedLine left right)
    (line : Nat) : Agree Error.Alike (Option.Rel Statement.Recased) (readTokens line left)
      (readTokens line right) := by
  cases left with
  | nil =>
    obtain rfl := recased.eq_nil
    exact .ok .none
  | cons token rest =>
    cases right with
    | nil => cases recased.symm.eq_nil
    | cons other behind =>
      simp only [readTokens]
      cases read : statement line (token :: rest) with
      | ok found =>
        obtain ⟨again, same, alike⟩ := recased.exists_statement read
        rw [same]
        exact .ok (.some alike)
      | error malformation =>
        cases again : statement line (other :: behind) with
        | ok found =>
          obtain ⟨back, same, -⟩ := recased.symm.exists_statement again
          rw [read] at same
          cases same
        | error different => exact .error ⟨rfl, rfl⟩

/-- Lines one after the other are read alike in any letter case. -/
theorem agree_readTokenLines {left right : List (List Token)}
    (recased : List.Forall₂ RecasedLine left right) (line : Nat) :
    Agree Error.Alike (List.Forall₂ Statement.Recased) (readTokenLines line left)
      (readTokenLines line right) := by
  induction recased generalizing line with
  | nil => exact .ok .nil
  | cons first _ ih =>
    refine (first.agree_readTokens line).bind fun said same alike => ?_
    refine (ih (line + 1)).map fun statements others rest => ?_
    cases alike with
    | none => exact rest
    | some alike => exact .cons alike rest

/-! ## Programs -/

/-- An instruction is encoded alike in any letter case of its mnemonic. -/
theorem agree_encodeInstruction (line : Nat) {mnemonic other : String}
    (capitals : Text.capitals mnemonic = Text.capitals other) (operands : List Expression) :
    Agree Problem.Alike Eq (encodeInstruction line mnemonic operands)
      (encodeInstruction line other operands) := by
  have basic : Opcode.ofMnemonic? other = Opcode.ofMnemonic? mnemonic := by
    rw [Opcode.ofMnemonic?, Opcode.ofMnemonic?, capitals]
  have special : SpecialOpcode.ofMnemonic? other = SpecialOpcode.ofMnemonic? mnemonic := by
    rw [SpecialOpcode.ofMnemonic?, SpecialOpcode.ofMnemonic?, capitals]
  unfold encodeInstruction
  rw [basic, special, ← capitals]
  split
  · exact .refl Problem.Alike.refl _
  · exact .refl Problem.Alike.refl _
  · exact .error rfl

/-- Statements are encoded alike in any letter case. -/
theorem Statement.Recased.agree_encode {left right : Statement} (recased : left.Recased right) :
    Agree Problem.Alike Eq left.encode right.encode := by
  obtain ⟨line, label, inner⟩ := left
  obtain ⟨line', label', inner'⟩ := right
  obtain ⟨rfl, rfl, alike⟩ := recased
  dsimp only at alike
  cases alike with
  | none => exact .ok rfl
  | some alike =>
    cases alike with
    | instruction capitals operands => exact agree_encodeInstruction line capitals operands
    | data items => exact .refl Problem.Alike.refl _

/-- Statements are placed alike in any letter case. -/
theorem Statement.Recased.agree_place {left right : Statement} (recased : left.Recased right)
    (layout : Layout) : Agree Error.Alike Eq (layout.place left) (layout.place right) := by
  have appended (layout : Layout) :
      Agree Problem.Alike Eq (layout.append left) (layout.append right) :=
    recased.agree_encode.map fun more same equal => by rw [equal]
  rw [Layout.place_eq, Layout.place_eq, ← recased.label_eq, ← recased.line_eq]
  refine ((Agree.refl Problem.Alike.refl _).bind fun first second same => ?_).mapError
    fun problem other alike => ⟨rfl, alike⟩
  rw [same]
  exact appended second

/-- Statements are placed one behind the other alike in any letter case. -/
theorem agree_placeAll {left right : List Statement}
    (recased : List.Forall₂ Statement.Recased left right) (layout : Layout) :
    Agree Error.Alike Eq (layout.placeAll left) (layout.placeAll right) := by
  induction recased generalizing layout with
  | nil => exact .ok rfl
  | cons first _ ih =>
    rw [Layout.placeAll_cons, Layout.placeAll_cons]
    refine (first.agree_place layout).bind fun layout other same => ?_
    rw [same]
    exact ih other

/-- Lines of tokens are assembled alike in any letter case of their keywords. -/
theorem agree_assembleTokens {left right : List (List Token)}
    (recased : List.Forall₂ RecasedLine left right) :
    Agree Error.Alike Eq (assembleTokens left) (assembleTokens right) := by
  refine (agree_readTokenLines recased 1).bind fun statements others alike => ?_
  rw [encode_eq_resolve, encode_eq_resolve]
  refine (agree_placeAll alike {}).bind fun layout other same => ?_
  rw [same]
  exact .refl (fun error => ⟨rfl, rfl⟩) _

/-! ## Labels -/

/-- A line has a name in a segment, where it is not taken for a register or a keyword. -/
def Refers (lines : List (List Token)) (name : String) : Prop :=
  ∃ (position : Nat) (tokens : List Token) (keyword : String) (rest segment : List Token),
    lines[position]? = some tokens ∧ HasBody tokens keyword rest ∧
    segment ∈ rest.splitOn .comma ∧ .name name ∈ segment ∧ ¬Taken keyword name segment

/-- A name that lines which assemble refer to has an address. -/
theorem Aligned.exists_address {lines : List (List Token)} {all : List Statement}
    {words : List Word} {name : String} (aligned : Aligned 1 lines all)
    (encoded : encode all = .ok words) (refers : Refers lines name) :
    ∃ address, addressIn all name = some address := by
  obtain ⟨position, tokens, keyword, rest, segment, found, hasBody, member, occurs, free⟩ := refers
  obtain ⟨parts, -, each⟩ := aligned.exists_partsAt encoded found hasBody
  obtain ⟨part, -, worth⟩ := exists_of_forall₂ each member
  obtain ⟨address, known, -⟩ := worth name occurs free
  exact ⟨address, known⟩

/-- A statement that defines a label once more has the label, and so has one in front of it. -/
theorem Statement.label_of_duplicate {before : List Statement} {said : Statement} {label : String}
    (found : said.problem? before = some (.duplicateLabel label)) :
    said.label = some label ∧ label ∈ before.filterMap Statement.label := by
  have bodies (body : Body) : body.problem? ≠ some (.duplicateLabel label) := by
    intro found
    cases body with
    | instruction mnemonic operands =>
      simp only [Body.problem?, instructionProblem?] at found
      split at found
      · cases found
      · split at found <;> cases found
    | data items =>
      obtain ⟨c, -, bad⟩ := Option.map_eq_some_iff.mp found
      cases bad
  obtain defines | ⟨-, inner⟩ := Option.or_eq_some_iff.mp found
  · obtain ⟨name, defines, problem⟩ := Option.bind_eq_some_iff.mp defines
    unfold labelProblem? at problem
    split at problem
    · cases problem
    · split at problem
      · next member =>
        cases problem
        exact ⟨defines, member⟩
      · cases problem
  · obtain ⟨body, -, problem⟩ := Option.bind_eq_some_iff.mp inner
    exact absurd problem (bodies body)

/-- A label that is defined once more is defined on two lines in exactly this spelling, and the
error is on the second of them. -/
theorem exists_definedAt_of_duplicate {lines : List (List Token)} {label : String} {line : Nat}
    (fails : assembleTokens lines = .error ⟨line, .duplicateLabel label⟩) :
    ∃ first second, first < second ∧ line = second + 1 ∧ DefinedAt lines label first ∧
      DefinedAt lines label second := by
  obtain ⟨all, aligned⟩ | ⟨other, malformation, bad⟩ := aligned_or_malformed lines
  · rw [aligned.assembleTokens_eq] at fails
    obtain ⟨before, said, after, problem, rfl, failsAt, equal⟩ := encode_eq_error_iff.mp fails
    cases equal
    cases failsAt with
    | placed _ found =>
      obtain ⟨defines, member⟩ := Statement.label_of_duplicate found
      have second : DefinedAt lines label before.length := aligned.definedAt_iff.mp defines
      obtain ⟨tokens, -, parsed⟩ := aligned.line_of_split
      have number : said.line = 1 + before.length := (statement_eq_ok_iff.mp parsed).1
      obtain ⟨earlier, inside, defines⟩ := List.mem_filterMap.mp member
      obtain ⟨front, middle, rfl⟩ := List.append_of_mem inside
      rw [List.append_assoc, List.cons_append] at aligned
      have first : DefinedAt lines label front.length := aligned.definedAt_iff.mp defines
      exact ⟨front.length, _, by simp, by omega, first, second⟩
  · rw [bad] at fails
    cases fails

/-- The letter case of mnemonics, `DAT`, registers and keywords never matters: lines of tokens that
differ in nothing else make the same words, or they fail with errors of one kind on one line. The
letter case of labels always does: a label is defined once more only where a line in front defines
exactly this label, and where lines assemble, a name that is not taken refers to the one line that
defines exactly this label, and to no line that defines another. -/
theorem letter_case :
    (∀ source lines, Scanned source lines → assemble source = assembleTokens lines) ∧
    (∀ left right, List.Forall₂ RecasedLine left right →
      Agree Error.Alike Eq (assembleTokens left) (assembleTokens right)) ∧
    ∀ lines label,
      (∀ line, assembleTokens lines = .error ⟨line, .duplicateLabel label⟩ →
        ∃ first second, first < second ∧ line = second + 1 ∧ DefinedAt lines label first ∧
          DefinedAt lines label second) ∧
      ∀ words, assembleTokens lines = .ok words → Refers lines label →
        ∃ position, DefinedAt lines label position ∧
          (∀ other, DefinedAt lines label other → other = position) ∧
          (∀ name, name ≠ label → ¬DefinedAt lines name position) ∧
          StandsFor Taken lines words label (.ofNat (addressAt lines position)) := by
  refine ⟨fun source lines => assemble_eq_assembleTokens,
    fun left right => agree_assembleTokens,
    fun lines label => ⟨fun line => exists_definedAt_of_duplicate, ?_⟩⟩
  intro words assembled refers
  obtain ⟨all, aligned, encoded⟩ := exists_aligned_of_ok assembled
  obtain ⟨distinct, -⟩ := encode_eq_ok_iff.mp encoded
  obtain ⟨address, known⟩ := aligned.exists_address encoded refers
  obtain ⟨position, defined⟩ := aligned.exists_definedAt known
  refine ⟨position, defined, fun other => aligned.position_eq distinct defined,
    fun name differs also => differs (defined.name_eq also),
    aligned.standsFor encoded (aligned.addressIn_eq distinct defined)⟩

/-- Two labels that differ in letter case, and keywords that are no capitals. -/
def mixedCase : String := ":go set Pc, Go\n:Go"

/-- The tokens of these lines. -/
def mixedCaseLines : List (List Token) :=
  [[.colon, .name "go", .name "set", .name "Pc", .comma, .name "Go"], [.colon, .name "Go"]]

/-- The tokens of these lines with keywords in capitals. -/
def capitalLines : List (List Token) :=
  [[.colon, .name "go", .name "SET", .name "PC", .comma, .name "Go"], [.colon, .name "Go"]]

/-- A label that is defined once more behind another that differs in letter case. -/
def redefinedLines : List (List Token) :=
  [[.colon, .name "Go"], [.colon, .name "go"], [.name "Go", .colon]]

/-- The letter case of the keywords does not matter, and the jump goes to the second label; only the
label that is spelled alike is a duplicate. -/
theorem letter_case_mixed :
    assemble mixedCase = .ok [0x7DC1, 2] ∧
      Agree Error.Alike Eq (assembleTokens mixedCaseLines) (assembleTokens capitalLines) ∧
      (∃ position, DefinedAt mixedCaseLines "Go" position ∧
        ¬DefinedAt mixedCaseLines "go" position ∧
        StandsFor Taken mixedCaseLines [0x7DC1, 2] "Go"
          (.ofNat (addressAt mixedCaseLines position))) ∧
      ∃ first second, first < second ∧ 3 = second + 1 ∧ DefinedAt redefinedLines "Go" first ∧
        DefinedAt redefinedLines "Go" second := by
  obtain ⟨fromTokens, keywords, labels⟩ := letter_case
  have scanned : Scanned mixedCase mixedCaseLines := by
    have texts : Text.lines mixedCase.toList = [":go set Pc, Go".toList, ":Go".toList] := rfl
    rw [Scanned, texts]
    exact .cons (by cbv) (.cons (by cbv) .nil)
  have assembled : assembleTokens mixedCaseLines = .ok [0x7DC1, 2] := by
    have wrote : List.Forall₂ Spells [[.name "Pc"], [.name "Go"]]
        [.register .pc, .immediate (.label "Go")] :=
      .cons (.name (.register (by decide)))
        (.cons (.name (.label (by decide) (by decide) (by decide) (by decide))) .nil)
    have jump : statement 1 [.colon, .name "go", .name "set", .name "Pc", .comma, .name "Go"] =
        .ok ⟨1, some "go", some (.instruction "set" [.register .pc, .immediate (.label "Go")])⟩ :=
      statement_eq_ok_iff.mpr
        ⟨rfl, [.colon, .name "go"], _, rfl, .colonFirst "go", .instruction (by decide) wrote⟩
    have aligned : Aligned 1 mixedCaseLines _ := .cons jump (.cons rfl (.nil 3))
    rw [aligned.assembleTokens_eq]
    cbv
  have recased : List.Forall₂ RecasedLine mixedCaseLines capitalLines := by
    refine .cons (.colonFirst "go" (.instruction (by decide) (by decide) ?_))
      (.cons (.colonFirst "Go" (.same [])) .nil)
    exact .cons (.register (by decide) (show Register.ofName? "Pc" = some .pc by decide))
      (.cons (.same _) (.cons (.same _) (.nil _)))
  have refers : Refers mixedCaseLines "Go" := by
    refine ⟨0, _, "set", _, [.name "Go"], rfl, ⟨_, rfl⟩, by decide, by simp, ?_⟩
    rintro ⟨-, register | ⟨-, keyword⟩⟩
    · exact absurd register (by decide)
    · exact absurd keyword (by decide)
  have duplicate : assembleTokens redefinedLines = .error ⟨3, .duplicateLabel "Go"⟩ := by cbv
  obtain ⟨position, defined, -, apart, standsFor⟩ :=
    (labels mixedCaseLines "Go").2 _ assembled refers
  exact ⟨(fromTokens mixedCase mixedCaseLines scanned).trans assembled,
    keywords mixedCaseLines capitalLines recased,
    ⟨position, defined, apart "go" (by decide), standsFor⟩,
    (labels redefinedLines "Go").1 3 duplicate⟩

end Dcpu16.Source
