import Dcpu16.Proofs.Listing.Rendered

/-!
# A listing covers its program

The lines of a listing go through the program from its first word to its last, each from where the
one before it has ended (`Listing.Covers`). Every word of the program is on exactly one line, also
where the end of the program cuts an instruction off (`Listing.listing_covers`).
-/
namespace Dcpu16.Listing

/-- Lines go through a program: the first starts at address 0, each starts where the one before it
has ended, and together they hold the words of the program. The text of a line is that of what
stands at its address. -/
structure Covers (lines : List Line) (program : List Word) : Prop where
  starts : ∀ line ∈ lines.head?, line.address = 0
  follows : lines.IsChain fun line next => next.address = line.address + line.words.length
  short : ∀ line ∈ lines, 1 ≤ line.words.length ∧ line.words.length ≤ 3
  whole : lines.flatMap Line.words = program
  text : ∀ line ∈ lines, line.text = firstText (program.drop line.address)

/-- What is printed shows a line: the address in hexadecimal with at least four digits, the text,
and behind a semicolon the words with four hexadecimal digits each. -/
def Line.Shown (line : Line) (printed : List Char) : Prop :=
  ∃ address blanks words, printed = address ++ ": ".toList ++ line.text.toList ++
      List.replicate (blanks + 1) ' ' ++ "; ".toList ++ List.intercalate [' '] words ∧
    Source.Numeral 16 line.address address ∧ 4 ≤ address.length ∧
    List.Forall₂ (fun word written => Source.Numeral 16 word.toNat written ∧ written.length = 4)
      line.words words

section Lines

variable (address : Nat) (words : List Word)

/-- The size of the first line is that of at most three words. -/
theorem firstSize_le : firstSize words ≤ 3 := by
  unfold firstSize
  split
  · exact size_le _
  · decide

/-- The first line starts at the address of the program. -/
theorem address_head?_linesFrom :
    ∀ line ∈ (linesFrom address words).head?, line.address = address := by
  intro line first
  cases words with
  | nil => rw [linesFrom] at first; cases first
  | cons word words => rw [linesFrom] at first; cases first; rfl

/-- Each line starts where the one before it has ended. -/
theorem isChain_linesFrom :
    (linesFrom address words).IsChain fun line next =>
      next.address = line.address + line.words.length := by
  fun_induction linesFrom address words with
  | case1 => exact .nil
  | case2 address word words inline line ih =>
    exact List.isChain_cons.mpr ⟨address_head?_linesFrom _ _, ih⟩

/-- A line has one to three words. -/
theorem length_words_linesFrom :
    ∀ line ∈ linesFrom address words, 1 ≤ line.words.length ∧ line.words.length ≤ 3 := by
  fun_induction linesFrom address words with
  | case1 => simp
  | case2 address word words inline line ih =>
    have most := firstSize_le (word :: words)
    rw [List.forall_mem_cons]
    refine ⟨?_, ih⟩
    simp only [line, inline, List.length_cons, List.length_take]
    omega

/-- The words of all lines are those of the program. -/
theorem flatMap_words_linesFrom : (linesFrom address words).flatMap Line.words = words := by
  fun_induction linesFrom address words with
  | case1 => rfl
  | case2 address word words inline line ih =>
    rw [List.flatMap_cons, ih]
    simp only [line, List.cons_append, List.take_append_drop]

/-- Behind words that end at the address, the text of a line is that of what stands at its own
address. -/
theorem text_linesFrom (before : List Word) (start : before.length = address) :
    ∀ line ∈ linesFrom address words,
      line.text = firstText ((before ++ words).drop line.address) := by
  fun_induction linesFrom address words generalizing before with
  | case1 => simp
  | case2 address word words inline line ih =>
    subst start
    rw [List.forall_mem_cons]
    constructor
    · simp only [line, List.drop_left]
    · -- What is in front of the lines behind the first is what is in front of it, and its words.
      have ends : (before ++ line.words).length = before.length + line.words.length :=
        List.length_append
      have parts : before ++ line.words ++ words.drop inline = before ++ word :: words := by
        simp only [line, List.append_assoc, List.cons_append, List.take_append_drop]
      rw [← parts]
      exact ih _ ends

end Lines

/-- The lines of a program go through it. -/
theorem covers_linesFrom (words : List Word) : Covers (linesFrom 0 words) words where
  starts := address_head?_linesFrom 0 words
  follows := isChain_linesFrom 0 words
  short := length_words_linesFrom 0 words
  whole := flatMap_words_linesFrom 0 words
  text := text_linesFrom 0 words [] rfl

/-! ## Print -/

/-- The hexadecimal text of a number is a numeral of it. -/
theorem numeral_hex (width value : Nat) :
    Source.Numeral 16 value (Text.hex width value).toList := by
  rw [Source.toList_hex]
  exact Source.numeral_zeros_toDigits (by decide) (by decide) _ _

/-- The hexadecimal text of a word has four digits. -/
theorem length_hex_word (word : Word) : (Text.hex 4 word.toNat).toList.length = 4 := by
  have small : word.toNat < 16 ^ 4 := word.toNat_lt
  obtain ⟨least, most⟩ := Source.length_hex (by decide : 0 < 4) le_rfl small
  exact Nat.le_antisymm most least

/-- A line is shown by what is printed of it. -/
theorem Line.shown_body (line : Line) : line.Shown line.body := by
  refine ⟨(Text.hex 4 line.address).toList, 24 - line.text.length,
    line.words.map fun word => (Text.hex 4 word.toNat).toList, ?_, numeral_hex _ _, ?_, ?_⟩
  · simp [body, source, comment]
  · rw [Source.toList_hex, List.length_append, List.length_replicate]
    omega
  · rw [List.forall₂_map_right_iff]
    exact List.forall₂_same.mpr fun word _ => ⟨numeral_hex _ _, length_hex_word word⟩

/-- A listing of a program is three lines above it and lines that show the program, each word of it
on one line and in order. -/
theorem listing_covers (words : List Word) :
    ∃ (lines : List Line) (printed : List (List Char)),
      Text.lines (ofWords words).toList = headerLines ++ printed ∧
        List.Forall₂ Line.Shown lines printed ∧ Covers lines words := by
  refine ⟨linesFrom 0 words, (linesFrom 0 words).map Line.body, lines_ofWords words, ?_,
    covers_linesFrom words⟩
  rw [List.forall₂_map_right_iff]
  exact List.forall₂_same.mpr fun line _ => line.shown_body

/-- An instruction that the end of the program cuts off is on the last line with the words that are
there. -/
example : linesFrom 0 [0x8401, 0x7C01] =
    [⟨0, "SET A, 0x01", [0x8401]⟩, ⟨1, "SET A, 0x0000", [0x7C01]⟩] := by cbv

end Dcpu16.Listing
