import Dcpu16.Proofs.Source.Digits

/-!
# Scanning text that is put together

A text is scanned as tokens on its own (`Scans`) when it is scanned as these in front of anything
that does not go on with its last token. Such texts are put together of punctuation, blanks, names
and numbers, one in front of the other.
-/
namespace Dcpu16.Source

/-! ## Characters -/

/-- The codes of the characters that a name starts with. -/
theorem startsName_range {c : Char} (starts : startsName c) :
    (0x41 ≤ c.toNat ∧ c.toNat ≤ 0x5A) ∨ (0x61 ≤ c.toNat ∧ c.toNat ≤ 0x7A) ∨ c.toNat = 0x5F ∨
      c.toNat = 0x2E := by
  simp only [startsName, Char.isAlpha, Char.isUpper, Char.isLower, Bool.or_eq_true,
    Bool.and_eq_true, decide_eq_true_eq, beq_iff_eq, ge_iff_le, UInt32.le_iff_toNat_le] at starts
  rcases starts with ((upper | lower) | underscore) | dot
  · exact .inl upper
  · exact .inr (.inl lower)
  · exact .inr (.inr (.inl (by rw [underscore]; rfl)))
  · exact .inr (.inr (.inr (by rw [dot]; rfl)))

/-- The codes of digits. -/
theorem isDigit_range {c : Char} (digit : c.isDigit) : 0x30 ≤ c.toNat ∧ c.toNat ≤ 0x39 := by
  simp only [Char.isDigit, Bool.and_eq_true, decide_eq_true_eq, ge_iff_le,
    UInt32.le_iff_toNat_le] at digit
  exact digit

/-- Where the codes of the characters in a name are. -/
theorem continuesName_range {c : Char} (continues : continuesName c) :
    0x2E ≤ c.toNat ∧ c.toNat ≤ 0x7A := by
  by_cases digit : c.isDigit
  · have range := isDigit_range digit
    omega
  · have starts : startsName c := by
      simpa [continuesName, startsName, Char.isAlphanum, digit] using continues
    have range := startsName_range starts
    omega

/-- Where the codes of the characters in a number are. -/
theorem continuesNumber_range {c : Char} (continues : continuesNumber c) :
    0x2E ≤ c.toNat ∧ c.toNat ≤ 0x7A :=
  continuesName_range (by rw [continuesName]; exact Bool.or_eq_true_iff.mpr (.inl continues))

/-- A name goes on with no blank. -/
theorem continuesName_of_isBlank {c : Char} (blank : Text.isBlank c) : continuesName c = false := by
  apply Bool.eq_false_iff.mpr
  intro continues
  have range := continuesName_range continues
  simp only [Text.isBlank, Bool.or_eq_true, Bool.and_eq_true, decide_eq_true_eq, beq_iff_eq]
    at blank
  omega

/-- A character between `-` and `z` other than a bracket, a colon or a semicolon is neither
blank nor punctuation. -/
theorem solid_of_range (c : Char) (low : 0x2E ≤ c.toNat) (high : c.toNat ≤ 0x7A)
    (apart : c.toNat ≠ 0x3A ∧ c.toNat ≠ 0x3B ∧ c.toNat ≠ 0x5B ∧ c.toNat ≠ 0x5D) :
    c ≠ ';' ∧ Text.isBlank c = false ∧ punctuation? c = none ∧ c ≠ '"' := by
  obtain ⟨colon, semicolon, opening, closing⟩ := apart
  refine ⟨?_, ?_, ?_, ?_⟩
  · rintro rfl
    exact semicolon rfl
  · unfold Text.isBlank
    simp
    omega
  · unfold punctuation?
    split <;> first | rfl | (exfalso; revert low high colon opening closing; decide)
  · rintro rfl
    revert low
    decide

/-! ## Tokens -/

/-- The text goes on with no name and no number that stands in front of it. -/
def Ends (text : List Char) : Prop :=
  ∀ c rest, text = c :: rest → continuesName c = false ∧ continuesNumber c = false

/-- Nothing goes on at the end of a text. -/
theorem Ends.nil : Ends [] := by
  intro c rest same
  cases same

/-- A character that no name goes on with ends what is in front of it. -/
theorem Ends.cons {c : Char} (apart : continuesName c = false) (text : List Char) :
    Ends (c :: text) := by
  intro other rest same
  cases same
  exact ⟨apart, (Bool.or_eq_false_iff.mp apart).1⟩

/-- What ends what is in front of it still does so with more behind. -/
theorem Ends.append {text following : List Char} (ends : Ends text) (behind : Ends following) :
    Ends (text ++ following) := by
  cases text with
  | nil => exact behind
  | cons c text =>
    intro other rest same
    cases same
    exact ends c text rfl

/-- Of a text that goes on with characters of a kind, these are taken and no others. -/
theorem takeWhile_dropWhile_append {p : Char → Bool} {more rest : List Char}
    (continues : ∀ c ∈ more, p c) (ends : ∀ c following, rest = c :: following → p c = false) :
    (more ++ rest).takeWhile p = more ∧ (more ++ rest).dropWhile p = rest := by
  rw [List.takeWhile_append_of_pos continues, List.dropWhile_append_of_pos continues]
  cases rest with
  | nil => simp
  | cons c rest => simp [ends c rest rfl]

section Tokens

variable {done : List Token} {first : Char} {more rest : List Char} {token : Token}

/-- A name is taken as a whole. -/
theorem tokenAt_name (starts : startsName first) (continues : ∀ c ∈ more, continuesName c)
    (ends : Ends rest) :
    tokenAt first (more ++ rest) = .ok (.name (String.ofList (first :: more)), rest) := by
  have range := startsName_range starts
  obtain ⟨-, -, mark, quote⟩ := solid_of_range first (by omega) (by omega) (by omega)
  have digit : first.isDigit = false := by
    apply Bool.eq_false_iff.mpr
    intro digit
    have digits := isDigit_range digit
    omega
  obtain ⟨taken, left⟩ :=
    takeWhile_dropWhile_append continues fun c following same => (ends c following same).1
  rw [tokenAt, mark]
  simp only [if_neg quote, digit, Bool.false_eq_true, ↓reduceIte, starts, taken, left]

/-- A number is taken as a whole, as the word that it is or with its problem. -/
theorem tokenAt_digits (digit : first.isDigit) (continues : ∀ c ∈ more, continuesNumber c)
    (ends : ∀ c following, rest = c :: following → continuesNumber c = false) :
    tokenAt first (more ++ rest) =
      (numberOf (first :: more)).map fun value => (.number value, rest) := by
  have range := isDigit_range digit
  obtain ⟨-, -, mark, quote⟩ := solid_of_range first (by omega) (by omega) (by omega)
  obtain ⟨taken, left⟩ := takeWhile_dropWhile_append continues ends
  rw [tokenAt, mark]
  simp only [if_neg quote, digit, ↓reduceIte, taken, left]

/-- A token is put behind the others. -/
theorem scanFrom_of_tokenAt (comment : first ≠ ';') (solid : Text.isBlank first = false)
    (found : tokenAt first more = .ok (token, rest)) :
    scanFrom done (first :: more) = scanFrom (token :: done) rest := by
  rw [scanFrom, if_neg comment, if_neg (by simp [solid])]
  split
  · next other => cases other.symm.trans found
  · next other => cases other.symm.trans found; rfl

/-- Where no token is, the line ends with the problem. -/
theorem scanFrom_of_tokenAt_error {problem : Problem} (comment : first ≠ ';')
    (solid : Text.isBlank first = false) (found : tokenAt first rest = .error problem) :
    scanFrom done (first :: rest) = .error problem := by
  rw [scanFrom, if_neg comment, if_neg (by simp [solid])]
  split
  · next other => cases other.symm.trans found; rfl
  · next other => cases other.symm.trans found

/-- A punctuation mark is a token whatever follows. -/
theorem scanFrom_mark (found : punctuation? first = some token) (rest : List Char) :
    scanFrom done (first :: rest) = scanFrom (token :: done) rest := by
  have solid : first ≠ ';' ∧ Text.isBlank first = false := by
    unfold punctuation? at found
    split at found <;> first | exact ⟨by decide, by decide⟩ | cases found
  have taken : tokenAt first rest = .ok (token, rest) := by
    rw [tokenAt, found]
  exact scanFrom_of_tokenAt solid.1 solid.2 taken

/-- A name is a token in front of what ends it. -/
theorem scanFrom_name (starts : startsName first) (continues : ∀ c ∈ more, continuesName c)
    (ends : Ends rest) :
    scanFrom done (first :: (more ++ rest)) =
      scanFrom (.name (String.ofList (first :: more)) :: done) rest := by
  have range := startsName_range starts
  obtain ⟨comment, solid, -, -⟩ := solid_of_range first (by omega) (by omega) (by omega)
  exact scanFrom_of_tokenAt comment solid (tokenAt_name starts continues ends)

/-- A number is scanned as the word that it is, in front of what does not go on with it, and
otherwise its problem is that of the line. -/
theorem scanFrom_digits (digit : first.isDigit) (continues : ∀ c ∈ more, continuesNumber c)
    (ends : ∀ c following, rest = c :: following → continuesNumber c = false) :
    scanFrom done (first :: (more ++ rest)) =
      (numberOf (first :: more)).bind fun value => scanFrom (.number value :: done) rest := by
  have range := isDigit_range digit
  obtain ⟨comment, solid, -, -⟩ := solid_of_range first (by omega) (by omega) (by omega)
  have found := tokenAt_digits digit continues ends
  cases number : numberOf (first :: more) with
  | error problem =>
    rw [number] at found
    exact scanFrom_of_tokenAt_error comment solid found
  | ok value =>
    rw [number] at found
    exact scanFrom_of_tokenAt comment solid found

/-- A number is a token in front of what ends it. -/
theorem scanFrom_number {value : Word} (digit : first.isDigit)
    (continues : ∀ c ∈ more, continuesNumber c) (number : numberOf (first :: more) = .ok value)
    (ends : Ends rest) :
    scanFrom done (first :: (more ++ rest)) = scanFrom (.number value :: done) rest := by
  rw [scanFrom_digits digit continues fun c following same => (ends c following same).2,
    number]
  rfl

/-- Blanks are passed over. -/
theorem scanFrom_gap (done : List Token) {gap : List Char} (blank : ∀ c ∈ gap, Text.isBlank c)
    (rest : List Char) : scanFrom done (gap ++ rest) = scanFrom done rest := by
  induction gap with
  | nil => rfl
  | cons c gap ih =>
    have here : Text.isBlank c := blank c List.mem_cons_self
    have other : c ≠ ';' := by
      rintro rfl
      revert here
      decide
    rw [List.cons_append, scanFrom, if_neg other, if_pos here,
      ih fun c member => blank c (List.mem_cons_of_mem _ member)]

/-- Spaces are passed over. -/
theorem scanFrom_blanks (done : List Token) (blanks : Nat) (rest : List Char) :
    scanFrom done (List.replicate blanks ' ' ++ rest) = scanFrom done rest := by
  refine scanFrom_gap done (fun c member => ?_) rest
  rw [List.eq_of_mem_replicate member]
  decide

/-- A comment goes on to the end of the line. -/
theorem scanFrom_comment (done : List Token) (rest : List Char) :
    scanFrom done (';' :: rest) = .ok done.reverse := by
  rw [scanFrom, if_pos rfl]

end Tokens

/-! ## Texts -/

/-- A text is scanned as tokens in front of anything that ends the last of them. -/
def Scans (text : List Char) (tokens : List Token) : Prop :=
  ∀ done following, Ends following →
    scanFrom done (text ++ following) = scanFrom (tokens.reverse ++ done) following

section Texts

variable {text : List Char} {tokens : List Token}

/-- An empty text is scanned as no tokens. -/
theorem Scans.nil : Scans [] [] := fun _ _ _ => rfl

/-- A blank can stand in front. -/
theorem Scans.blank (scans : Scans text tokens) : Scans (' ' :: text) tokens := by
  intro done following ends
  rw [List.cons_append, ← List.singleton_append]
  exact (scanFrom_blanks done 1 _).trans (scans done following ends)

/-- A punctuation mark can stand in front. -/
theorem Scans.mark {c : Char} {token : Token} (found : punctuation? c = some token)
    (scans : Scans text tokens) : Scans (c :: text) (token :: tokens) := by
  intro done following ends
  rw [List.cons_append, scanFrom_mark found, scans _ following ends, List.reverse_cons,
    List.append_assoc]
  rfl

/-- A name can stand in front of what ends it. -/
theorem Scans.name {first : Char} {more : List Char} (starts : startsName first)
    (continues : ∀ c ∈ more, continuesName c) (ends : Ends text) (scans : Scans text tokens) :
    Scans (first :: (more ++ text)) (.name (String.ofList (first :: more)) :: tokens) := by
  intro done following behind
  rw [List.cons_append, List.append_assoc, scanFrom_name starts continues (ends.append behind),
    scans _ following behind, List.reverse_cons, List.append_assoc]
  rfl

/-- A number can stand in front of what ends it. -/
theorem Scans.number {first : Char} {more : List Char} {value : Word} (digit : first.isDigit)
    (continues : ∀ c ∈ more, continuesNumber c) (number : numberOf (first :: more) = .ok value)
    (ends : Ends text) (scans : Scans text tokens) :
    Scans (first :: (more ++ text)) (.number value :: tokens) := by
  intro done following behind
  rw [List.cons_append, List.append_assoc,
    scanFrom_number digit continues number (ends.append behind), scans _ following behind,
    List.reverse_cons, List.append_assoc]
  rfl

/-- A printed word can stand behind `0x` in front of what ends it. -/
theorem Scans.hex (width : Nat) (word : Word) (ends : Ends text) (scans : Scans text tokens) :
    Scans ('0' :: 'x' :: ((Text.hex width word.toNat).toList ++ text))
      (.number word :: tokens) := by
  have continues (c : Char) (member : c ∈ 'x' :: (Text.hex width word.toNat).toList) :
      continuesNumber c := by
    rcases List.mem_cons.mp member with rfl | digit
    · decide
    · exact continuesNumber_of_mem_hex digit
  exact Scans.number (by decide) continues (numberOf_hex width word) ends scans

/-- A text in front of blanks and a comment is scanned as its tokens. -/
theorem Scans.scan_eq (scans : Scans text tokens) (before behind : Nat) (comment : List Char) :
    scan (List.replicate before ' ' ++ (text ++ (List.replicate behind ' ' ++ ';' :: comment))) =
      .ok tokens := by
  have ends : Ends (List.replicate behind ' ' ++ ';' :: comment) := by
    cases behind with
    | zero => exact .cons (by decide) _
    | succ => exact .cons (by decide) _
  rw [scan, scanFrom_blanks, scans [] _ ends, scanFrom_blanks, scanFrom_comment, List.append_nil,
    List.reverse_reverse]

end Texts

end Dcpu16.Source
