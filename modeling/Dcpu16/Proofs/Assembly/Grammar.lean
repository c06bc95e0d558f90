import Mathlib
import Dcpu16.Proofs.Traversal
import Dcpu16.Source.Read

/-!
# The grammar of statements

Which tokens write an operand, and which operand they write (`Spells`), without a reader that walks
over them. The reader of operands finds exactly these (`operand_eq_ok_iff`), and a reader of items
behind commas finds exactly the items that lists of tokens between commas write
(`separated_eq_ok_iff`). So the tokens of a line are those of a label and those of a body
(`Statement.WrittenIn`), and a line is read as the statement that its tokens write
(`statement_grammar`).
-/
namespace Dcpu16.Source

/-! ## Lists between commas -/

/-- A reader of items that finds exactly what a grammar allows. -/
def Reader.Finds {α : Type} (reader : Reader α) (writes : List Token → α → Prop) : Prop :=
  ∀ {tokens item rest}, reader tokens = .ok (item, rest) ↔
    ∃ written, tokens = written ++ rest ∧ writes written item

section Separated

variable {α : Type} {reader : Reader α} {writes : List Token → α → Prop}

/-- Items behind others are read from tokens that write them one by one, with commas between. -/
theorem separatedFrom_eq_ok {advances : reader.Advances} (finds : reader.Finds writes)
    {done items : List α} {tokens : List Token}
    (found : separatedFrom reader advances done tokens = .ok items) :
    ∃ segments more, segments ≠ [] ∧ tokens = List.intercalate [.comma] segments ∧
      List.Forall₂ writes segments more ∧ items = done.reverse ++ more := by
  fun_induction separatedFrom reader advances done tokens with
  | case1 => cases found
  | case2 done tokens item read =>
    cases found
    obtain ⟨written, rfl, wrote⟩ := finds.mp read
    exact ⟨[written], [item], by simp, by simp, .cons wrote .nil, by simp⟩
  | case3 done tokens item rest read _ ih =>
    obtain ⟨segments, more, some, rfl, wrote, rfl⟩ := ih found
    obtain ⟨written, rfl, first⟩ := finds.mp read
    refine ⟨written :: segments, item :: more, by simp, ?_, .cons first wrote, by simp⟩
    rw [List.intercalate_cons_of_ne_nil some, List.append_assoc]
    rfl
  | case4 => cases found

/-- Tokens that write items one by one, with commas between, are read behind other items. -/
theorem separatedFrom_intercalate {advances : reader.Advances} (finds : reader.Finds writes)
    {segments : List (List Token)} {more : List α} (wrote : List.Forall₂ writes segments more)
    (some : segments ≠ []) (done : List α) :
    separatedFrom reader advances done (List.intercalate [.comma] segments) =
      .ok (done.reverse ++ more) := by
  induction wrote generalizing done with
  | nil => exact absurd rfl some
  | @cons written item segments more first wrote ih =>
    cases segments with
    | nil =>
      cases wrote
      have read : reader written = .ok (item, []) := finds.mpr ⟨written, by simp, first⟩
      rw [List.intercalate_singleton]
      fun_cases separatedFrom reader advances done written with
      | case1 _ other => cases read.symm.trans other
      | case2 _ other => cases read.symm.trans other; simp
      | case3 _ _ other => cases read.symm.trans other
      | case4 _ _ _ _ other => cases read.symm.trans other
    | cons second segments =>
      have read : reader (written ++ .comma :: List.intercalate [.comma] (second :: segments)) =
          .ok (item, .comma :: List.intercalate [.comma] (second :: segments)) :=
        finds.mpr ⟨written, rfl, first⟩
      rw [List.intercalate_cons_cons, List.append_assoc, List.singleton_append]
      fun_cases separatedFrom reader advances done
          (written ++ .comma :: List.intercalate [.comma] (second :: segments)) with
      | case1 _ other => cases read.symm.trans other
      | case2 _ other => cases read.symm.trans other
      | case3 _ _ other =>
        cases read.symm.trans other
        rw [ih (by simp) (item :: done)]
        simp
      | case4 _ _ _ differs other => cases read.symm.trans other; exact absurd rfl differs

/-- Items with commas between them are read exactly from tokens that write them one by one. -/
theorem separated_eq_ok_iff {advances : reader.Advances} (finds : reader.Finds writes)
    {tokens : List Token} {items : List α} :
    separated reader advances tokens = .ok items ↔
      ∃ segments, segments ≠ [] ∧ tokens = List.intercalate [.comma] segments ∧
        List.Forall₂ writes segments items := by
  constructor
  · intro found
    obtain ⟨segments, more, some, same, wrote, rfl⟩ := separatedFrom_eq_ok finds found
    exact ⟨segments, some, same, wrote⟩
  · rintro ⟨segments, some, rfl, wrote⟩
    exact separatedFrom_intercalate finds wrote some []

end Separated

/-! ## Operands -/

/-- The token of an offset in brackets: a number, or a name of no register. -/
inductive Offsets : Token → Value → Prop
  | number (value : Word) : Offsets (.number value) (.number value)
  | label {name : String} (free : Register.ofName? name = none) : Offsets (.name name) (.label name)

/-- The names that stand for an operand on their own, in any letter case. -/
inductive Names (name : String) : Expression → Prop
  | pop (same : Text.capitals name = "POP") : Names name .pop
  | peek (same : Text.capitals name = "PEEK") : Names name .peek
  | push (same : Text.capitals name = "PUSH") : Names name .push
  | register {register : Register} (found : Register.ofName? name = some register) :
      Names name (.register register)
  | label (pop : Text.capitals name ≠ "POP") (peek : Text.capitals name ≠ "PEEK")
      (push : Text.capitals name ≠ "PUSH") (free : Register.ofName? name = none) :
      Names name (.immediate (.label name))

/-- The tokens of an operand. In brackets stand an offset, a general register, or both in either
order; SP stands there alone. -/
inductive Spells : List Token → Expression → Prop
  | number (value : Word) : Spells [.number value] (.immediate (.number value))
  | name {name : String} {operand : Expression} (names : Names name operand) :
      Spells [.name name] operand
  | top {name : String} (found : Register.ofName? name = some .sp) :
      Spells [.openBracket, .name name, .closeBracket] .peek
  | base {name : String} {register : Register} (found : Register.ofName? name = some register)
      (general : register.index?.isSome) :
      Spells [.openBracket, .name name, .closeBracket] (.indirect none (some register))
  | offset {token : Token} {value : Value} (offset : Offsets token value) :
      Spells [.openBracket, token, .closeBracket] (.indirect (some value) none)
  | offsetFirst {token : Token} {value : Value} {name : String} {register : Register}
      (offset : Offsets token value) (found : Register.ofName? name = some register)
      (general : register.index?.isSome) :
      Spells [.openBracket, token, .plus, .name name, .closeBracket]
        (.indirect (some value) (some register))
  | registerFirst {token : Token} {value : Value} {name : String} {register : Register}
      (offset : Offsets token value) (found : Register.ofName? name = some register)
      (general : register.index?.isSome) :
      Spells [.openBracket, .name name, .plus, token, .closeBracket]
        (.indirect (some value) (some register))

/-- The name of a keyword is the name of no register. -/
theorem ofName?_keyword {name : String}
    (keyword : Text.capitals name ∈ ["POP", "PEEK", "PUSH"]) : Register.ofName? name = none := by
  simp only [List.mem_cons, List.not_mem_nil, or_false] at keyword
  unfold Register.ofName?
  rcases keyword with same | same | same <;> rw [same] <;> decide

/-- A name stands for one operand. -/
theorem names_iff {name : String} {operand : Expression} :
    Names name operand ↔ Expression.ofName name = operand := by
  unfold Expression.ofName
  constructor
  · intro names
    cases names with
    | pop same | peek same | push same => simp only [same]
    | register found =>
      split
      · next same => rw [ofName?_keyword (by simp [same])] at found; cases found
      · next same => rw [ofName?_keyword (by simp [same])] at found; cases found
      · next same => rw [ofName?_keyword (by simp [same])] at found; cases found
      · rw [found]
    | label pop peek push free =>
      split
      · contradiction
      · contradiction
      · contradiction
      · rw [free]
  · rintro rfl
    split
    · next same => exact .pop same
    · next same => exact .peek same
    · next same => exact .push same
    · next pop peek push =>
      cases found : Register.ofName? name with
      | none => exact .label pop peek push found
      | some register => exact .register found

/-- A term that is added is an offset or a register, and the first of its kind. -/
theorem Terms.add_eq_ok_iff {terms more : Terms} {token : Token} :
    terms.add token = .ok more ↔
      (∃ value, Offsets token value ∧ terms.offset = none ∧
        { terms with offset := some value } = more) ∨
      ∃ name register, token = .name name ∧ Register.ofName? name = some register ∧
        terms.register = none ∧ { terms with register := some register } = more := by
  constructor
  · intro added
    unfold add at added
    split at added
    · next value =>
      split at added
      · next free => cases added; exact .inl ⟨_, .number value, by simpa using free, rfl⟩
      · cases added
    · next name =>
      split at added
      · next register found =>
        split at added
        · next free =>
          cases added
          exact .inr ⟨name, register, rfl, found, by simpa using free, rfl⟩
        · cases added
      · next found =>
        split at added
        · next free => cases added; exact .inl ⟨_, .label found, by simpa using free, rfl⟩
        · cases added
    · cases added
  · rintro (⟨value, offset, free, rfl⟩ | ⟨name, register, rfl, found, free, rfl⟩)
    · cases offset with
      | number => simp [add, free]
      | label none => simp [add, none, free]
    · simp [add, found, free]

/-- A first offset is added. -/
theorem Terms.add_offset {token : Token} {value : Value} (offset : Offsets token value)
    (register : Option Register) : add ⟨none, register⟩ token = .ok ⟨some value, register⟩ :=
  add_eq_ok_iff.mpr (.inl ⟨value, offset, rfl, rfl⟩)

/-- A first register is added. -/
theorem Terms.add_register {name : String} {register : Register}
    (found : Register.ofName? name = some register) (offset : Option Value) :
    add ⟨offset, none⟩ (.name name) = .ok ⟨offset, some register⟩ :=
  add_eq_ok_iff.mpr (.inr ⟨name, register, rfl, found, rfl, rfl⟩)

/-- Brackets close behind a term or go on behind a plus. -/
theorem bracketed_eq_ok_iff {terms : Terms} {tokens rest : List Token} {operand : Expression} :
    bracketed terms tokens = .ok (operand, rest) ↔
      ∃ token more behind, tokens = token :: behind ∧ terms.add token = .ok more ∧
        ((behind = .closeBracket :: rest ∧ more.close = .ok operand) ∨
          ∃ further, behind = .plus :: further ∧ bracketed more further = .ok (operand, rest)) := by
  constructor
  · intro read
    unfold bracketed at read
    split at read
    · cases read
    · next token behind =>
      split at read
      · cases read
      · next more added =>
        split at read
        · exact ⟨token, more, _, rfl, added, .inr ⟨_, rfl, read⟩⟩
        · cases closed : more.close with
          | error => rw [closed] at read; cases read
          | ok =>
            rw [closed] at read
            cases read
            exact ⟨token, more, _, rfl, added, .inl ⟨rfl, closed⟩⟩
        · cases read
  · rintro ⟨token, more, behind, rfl, added, ⟨rfl, closed⟩ | ⟨further, rfl, read⟩⟩
    · simp [bracketed, added, closed, Except.map]
    · simp [bracketed, added, read]

/-- Where a term of each kind stands no other can be added. -/
theorem bracketed_full (value : Value) (register : Register) (tokens rest : List Token)
    (operand : Expression) :
    bracketed ⟨some value, some register⟩ tokens ≠ .ok (operand, rest) := by
  intro read
  obtain ⟨token, more, behind, -, added, -⟩ := bracketed_eq_ok_iff.mp read
  obtain ⟨-, -, free, -⟩ | ⟨-, -, -, -, free, -⟩ := Terms.add_eq_ok_iff.mp added <;> cases free

/-- A register that makes an operand with an offset is a general one. -/
theorem Terms.close_offset_eq_ok {value : Value} {register : Register} {operand : Expression}
    (closed : close ⟨some value, some register⟩ = .ok operand) :
    register.index?.isSome ∧ .indirect (some value) (some register) = operand := by
  cases register <;> cases closed <;> exact ⟨rfl, rfl⟩

/-- A general register makes an operand with an offset and without one. -/
theorem Terms.close_general (offset : Option Value) {register : Register}
    (general : register.index?.isSome) :
    close ⟨offset, some register⟩ = .ok (.indirect offset (some register)) := by
  cases register <;> cases general <;> cases offset <;> rfl

/-- The tokens behind an opening bracket write what stands in brackets. -/
theorem spells_of_bracketed {tokens rest : List Token} {operand : Expression}
    (read : bracketed {} tokens = .ok (operand, rest)) :
    ∃ written, tokens = written ++ rest ∧ Spells (.openBracket :: written) operand := by
  obtain ⟨first, terms, behind, rfl, added, next⟩ := bracketed_eq_ok_iff.mp read
  obtain ⟨value, offset, -, rfl⟩ | ⟨name, register, rfl, found, -, rfl⟩ :=
    Terms.add_eq_ok_iff.mp added
  · obtain ⟨rfl, closed⟩ | ⟨further, rfl, onward⟩ := next
    · cases closed
      exact ⟨[first, .closeBracket], rfl, .offset offset⟩
    · obtain ⟨second, terms, behind, rfl, added, next⟩ := bracketed_eq_ok_iff.mp onward
      obtain ⟨-, -, free, -⟩ | ⟨name, register, rfl, found, -, rfl⟩ :=
        Terms.add_eq_ok_iff.mp added
      · cases free
      · obtain ⟨rfl, closed⟩ | ⟨beyond, rfl, third⟩ := next
        · obtain ⟨general, rfl⟩ := Terms.close_offset_eq_ok closed
          exact ⟨[first, .plus, .name name, .closeBracket], rfl, .offsetFirst offset found general⟩
        · exact absurd third (bracketed_full _ _ _ _ _)
  · obtain ⟨rfl, closed⟩ | ⟨further, rfl, onward⟩ := next
    · refine ⟨[.name name, .closeBracket], rfl, ?_⟩
      cases register <;> cases closed <;> first | exact .top found | exact .base found rfl
    · obtain ⟨second, terms, behind, rfl, added, next⟩ := bracketed_eq_ok_iff.mp onward
      obtain ⟨value, offset, -, rfl⟩ | ⟨-, -, -, -, free, -⟩ := Terms.add_eq_ok_iff.mp added
      · obtain ⟨rfl, closed⟩ | ⟨beyond, rfl, third⟩ := next
        · obtain ⟨general, rfl⟩ := Terms.close_offset_eq_ok closed
          exact ⟨[.name name, .plus, second, .closeBracket], rfl,
            .registerFirst offset found general⟩
        · exact absurd third (bracketed_full _ _ _ _ _)
      · cases free

/-- The reader of operands finds exactly the operands that tokens write. -/
theorem operand_eq_ok_iff : Reader.Finds operand Spells := by
  intro tokens item rest
  constructor
  · intro read
    unfold operand at read
    split at read
    · obtain ⟨written, rfl, spells⟩ := spells_of_bracketed read
      exact ⟨_, rfl, spells⟩
    · cases read; exact ⟨_, rfl, .number _⟩
    · cases read; exact ⟨_, rfl, .name (names_iff.mpr rfl)⟩
    · cases read
    · cases read
  · rintro ⟨written, rfl, spells⟩
    cases spells with
    | number => rfl
    | name names => simp [operand, names_iff.mp names]
    | top found => simp [operand, bracketed, Terms.add_register found, Terms.close, Except.map]
    | base found general =>
      simp [operand, bracketed, Terms.add_register found, Terms.close_general none general,
        Except.map]
    | offset offset =>
      simp [operand, bracketed, Terms.add_offset offset, Terms.close, Except.map]
    | offsetFirst offset found general | registerFirst offset found general =>
      simp [operand, bracketed, Terms.add_offset offset, Terms.add_register found,
        Terms.close_general _ general, Except.map]

/-- Operands are read exactly from tokens that write them one by one, with commas between. -/
theorem operands_eq_ok_iff {tokens : List Token} {read : List Expression} :
    operands tokens = .ok read ↔
      ∃ segments, tokens = List.intercalate [.comma] segments ∧
        List.Forall₂ Spells segments read := by
  have written (segments : List (List Token)) (wrote : List.Forall₂ Spells segments read)
      (nothing : List.intercalate [.comma] segments = []) : segments = [] := by
    cases wrote with
    | nil => rfl
    | @cons first _ segments _ spells _ =>
      cases segments with
      | nil =>
        rw [List.intercalate_singleton] at nothing
        cases spells <;> cases nothing
      | cons => simp [List.intercalate_cons_cons] at nothing
  unfold operands
  split
  · constructor
    · intro found
      cases found
      exact ⟨[], rfl, .nil⟩
    · rintro ⟨segments, nothing, wrote⟩
      cases written segments wrote nothing.symm
      cases wrote
      rfl
  · next some =>
    rw [separated_eq_ok_iff operand_eq_ok_iff]
    constructor
    · rintro ⟨segments, -, same, wrote⟩
      exact ⟨segments, same, wrote⟩
    · rintro ⟨segments, rfl, wrote⟩
      exact ⟨segments, fun nothing => some (by rw [nothing]; rfl), rfl, wrote⟩

/-! ## Data -/

/-- The token of a data value. -/
inductive Holds : List Token → Datum → Prop
  | number (value : Word) : Holds [.number value] (.value (.number value))
  | label (name : String) : Holds [.name name] (.value (.label name))
  | text (content : String) : Holds [.text content] (.text content)

/-- The reader of data values finds exactly those that a token holds. -/
theorem datum_eq_ok_iff : Reader.Finds datum Holds := by
  intro tokens item rest
  constructor
  · intro read
    unfold datum at read
    split at read <;> cases read
    · exact ⟨_, rfl, .number _⟩
    · exact ⟨_, rfl, .label _⟩
    · exact ⟨_, rfl, .text _⟩
  · rintro ⟨written, rfl, holds⟩
    cases holds <;> rfl

/-! ## Bodies -/

/-- The tokens of a body: none at all, `DAT` in any letter case with values behind it, or another
name with operands behind it. Commas stand between values and between operands. -/
inductive Bodies : List Token → Option Body → Prop
  | none : Bodies [] none
  | data {keyword : String} {segments : List (List Token)} {items : List Datum}
      (same : Text.capitals keyword = "DAT") (nonempty : segments ≠ [])
      (wrote : List.Forall₂ Holds segments items) :
      Bodies (.name keyword :: List.intercalate [.comma] segments) (some (.data items))
  | instruction {mnemonic : String} {segments : List (List Token)} {operands : List Expression}
      (other : Text.capitals mnemonic ≠ "DAT") (wrote : List.Forall₂ Spells segments operands) :
      Bodies (.name mnemonic :: List.intercalate [.comma] segments)
        (some (.instruction mnemonic operands))

/-- A body is read exactly from tokens that write it. -/
theorem body_eq_ok_iff {tokens : List Token} {found : Option Body} :
    body tokens = .ok found ↔ Bodies tokens found := by
  constructor
  · intro read
    unfold body at read
    split at read
    · cases read
      exact .none
    · next word rest =>
      split at read
      · next same =>
        obtain ⟨items, listed, rfl⟩ := map_eq_ok_iff.mp read
        obtain ⟨segments, nonempty, rfl, wrote⟩ := (separated_eq_ok_iff datum_eq_ok_iff).mp listed
        exact .data same nonempty wrote
      · next other =>
        obtain ⟨operands, listed, rfl⟩ := map_eq_ok_iff.mp read
        obtain ⟨segments, rfl, wrote⟩ := operands_eq_ok_iff.mp listed
        exact .instruction other wrote
    · cases read
  · intro bodies
    cases bodies with
    | none => rfl
    | @data keyword segments items same nonempty wrote =>
      have listed : separated datum datum_advances (List.intercalate [.comma] segments) =
          .ok items :=
        (separated_eq_ok_iff datum_eq_ok_iff).mpr ⟨segments, nonempty, rfl, wrote⟩
      rw [body, if_pos same, listed]
      rfl
    | @instruction mnemonic segments operands other wrote =>
      have listed : Source.operands (List.intercalate [.comma] segments) = .ok operands :=
        operands_eq_ok_iff.mpr ⟨segments, rfl, wrote⟩
      rw [body, if_neg other, listed]
      rfl

/-! ## Labels -/

/-- The tokens in front of a body: a label with its colon on either side, or nothing. -/
inductive Labels : List Token → Option String → Prop
  | none : Labels [] none
  | colonFirst (label : String) : Labels [.colon, .name label] (some label)
  | nameFirst (label : String) : Labels [.name label, .colon] (some label)

/-- The tokens of a line are those of its label and those behind it. -/
theorem labels_of_labelled {tokens behind : List Token} {label : Option String}
    (found : labelled tokens = .ok (label, behind)) :
    ∃ front, tokens = front ++ behind ∧ Labels front label := by
  unfold labelled at found
  split at found
  · cases found; exact ⟨_, rfl, .colonFirst _⟩
  · cases found; exact ⟨_, rfl, .nameFirst _⟩
  · cases found
  · cases found; exact ⟨[], rfl, .none⟩

/-- Items that do not start with a colon make no list that does. -/
theorem intercalate_ne_colon {α : Type} {writes : List Token → α → Prop}
    (starts : ∀ {behind : List Token} {item : α}, ¬writes (.colon :: behind) item)
    (some : ∀ {item : α}, ¬writes [] item) {segments : List (List Token)} {items : List α}
    (wrote : List.Forall₂ writes segments items) (rest : List Token) :
    List.intercalate [.comma] segments ≠ .colon :: rest := by
  intro same
  cases wrote with
  | nil => cases same
  | @cons segment _ segments _ first _ =>
    cases segment with
    | nil => exact some first
    | cons token behind =>
      have colon : token = .colon := by
        cases segments <;> simp [List.intercalate_cons_cons] at same <;> exact same.1
      subst colon
      exact starts first

/-- A name in front of no colon is no label. -/
theorem labelled_of_ne_colon (name : String) {rest : List Token}
    (apart : ∀ behind, rest ≠ .colon :: behind) :
    labelled (.name name :: rest) = .ok (none, .name name :: rest) := by
  unfold labelled
  split
  · next same => cases same
  · next same =>
    rw [List.cons.injEq] at same
    exact absurd same.2 (apart _)
  · next same => cases same
  · rfl

/-- The label is found in front of a body. No body starts as a label does. -/
theorem labelled_append {front behind : List Token} {label : Option String} {inner : Option Body}
    (labels : Labels front label) (bodies : Bodies behind inner) :
    labelled (front ++ behind) = .ok (label, behind) := by
  cases labels with
  | none =>
    cases bodies with
    | none => rfl
    | data same nonempty wrote =>
      exact labelled_of_ne_colon _
        (intercalate_ne_colon (fun holds => by cases holds) (fun holds => by cases holds) wrote)
    | instruction other wrote =>
      exact labelled_of_ne_colon _
        (intercalate_ne_colon (fun spells => by cases spells) (fun spells => by cases spells) wrote)
  | colonFirst => rfl
  | nameFirst => rfl

/-! ## Statements -/

/-- The tokens write the statement: its label, if it has one, and its body behind that. -/
def Statement.WrittenIn (tokens : List Token) (written : Statement) : Prop :=
  ∃ front behind, tokens = front ++ behind ∧ Labels front written.label ∧
    Bodies behind written.body

section Statements

variable {line : Nat} {tokens : List Token} {found : Statement}

/-- A statement is read as its label, and then as its body from what is left. -/
theorem statement_eq_ok_iff_labelled :
    statement line tokens = .ok found ↔
      ∃ behind, labelled tokens = .ok (found.label, behind) ∧ body behind = .ok found.body ∧
        found.line = line := by
  unfold statement
  constructor
  · intro read
    cases labels : labelled tokens with
    | error => rw [labels] at read; cases read
    | ok parts =>
      cases inner : body parts.2 with
      | error => simp [labels, inner, bind, Except.bind] at read
      | ok made =>
        simp only [labels, inner, bind, Except.bind, pure, Except.pure, Except.ok.injEq] at read
        subst read
        exact ⟨parts.2, rfl, inner, rfl⟩
  · rintro ⟨behind, labels, inner, rfl⟩
    simp [labels, inner, bind, Except.bind, pure, Except.pure]

/-- A statement is read exactly from tokens that write it. -/
theorem statement_eq_ok_iff :
    statement line tokens = .ok found ↔ found.line = line ∧ found.WrittenIn tokens := by
  rw [statement_eq_ok_iff_labelled]
  constructor
  · rintro ⟨behind, labels, inner, number⟩
    obtain ⟨front, rfl, label⟩ := labels_of_labelled labels
    exact ⟨number, front, behind, rfl, label, body_eq_ok_iff.mp inner⟩
  · rintro ⟨number, front, behind, rfl, label, bodies⟩
    exact ⟨behind, labelled_append label bodies, body_eq_ok_iff.mpr bodies, number⟩

/-- The tokens of an instruction are its label, its mnemonic, and the tokens of its operands with
commas between. -/
theorem tokens_of_instruction {mnemonic : String} {operands : List Expression}
    (read : statement line tokens = .ok found)
    (body : found.body = some (.instruction mnemonic operands)) :
    ∃ front segments,
      tokens = front ++ .name mnemonic :: List.intercalate [.comma] segments ∧
      Labels front found.label ∧ List.Forall₂ Spells segments operands := by
  obtain ⟨-, front, behind, rfl, labels, bodies⟩ := statement_eq_ok_iff.mp read
  rw [body] at bodies
  cases bodies with
  | instruction other wrote => exact ⟨front, _, rfl, labels, wrote⟩

/-- A mnemonic and the tokens of its operands, with commas between, are an instruction. -/
theorem statement_of_operands (line : Nat) {mnemonic : String} {segments : List (List Token)}
    {operands : List Expression} (other : Text.capitals mnemonic ≠ "DAT")
    (wrote : List.Forall₂ Spells segments operands) :
    statement line (.name mnemonic :: List.intercalate [.comma] segments) =
      .ok ⟨line, none, some (.instruction mnemonic operands)⟩ :=
  statement_eq_ok_iff.mpr ⟨rfl, [], _, rfl, .none, .instruction other wrote⟩

/-- `DAT` and the tokens of its values, with commas between, are data. -/
theorem statement_of_values (line : Nat) {keyword : String} {segments : List (List Token)}
    {items : List Datum} (same : Text.capitals keyword = "DAT") (nonempty : segments ≠ [])
    (wrote : List.Forall₂ Holds segments items) :
    statement line (.name keyword :: List.intercalate [.comma] segments) =
      .ok ⟨line, none, some (.data items)⟩ :=
  statement_eq_ok_iff.mpr ⟨rfl, [], _, rfl, .none, .data same nonempty wrote⟩

/-- A list of tokens is read as a statement exactly if the tokens write this statement, from the
first to the last of them. Where the first two are a name and a colon, in either order, they are
the label, and what is behind them is the body. -/
theorem statement_grammar (line : Nat) (tokens : List Token) :
    (∀ found, statement line tokens = .ok found ↔ found.line = line ∧ found.WrittenIn tokens) ∧
      ∀ label rest,
        tokens = .colon :: .name label :: rest ∨ tokens = .name label :: .colon :: rest →
        ∀ found, statement line tokens = .ok found →
          found.label = some label ∧ Bodies rest found.body := by
  refine ⟨fun found => statement_eq_ok_iff, fun label rest starts found read => ?_⟩
  have first : labelled tokens = .ok (some label, rest) := by
    rcases starts with rfl | rfl <;> rfl
  obtain ⟨behind, labels, inner, -⟩ := statement_eq_ok_iff_labelled.mp read
  rw [first, Except.ok.injEq, Prod.mk.injEq] at labels
  obtain ⟨named, rfl⟩ := labels
  exact ⟨named.symm, body_eq_ok_iff.mp inner⟩

end Statements

end Dcpu16.Source
