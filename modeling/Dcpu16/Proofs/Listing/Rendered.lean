import Dcpu16.Proofs.Listing.Written
import Dcpu16.Proofs.Text.Lines

/-!
# The lines of a listing

The source in a listing is what stands behind the addresses (`Listing.sourceOf`). Its lines are
those of the program: each is scanned as the tokens of the instruction or of the data there
(`Listing.scan_lines_sourceOf`).
-/
namespace Dcpu16

open Source

/-! ## Characters -/

/-- All characters are printable ones of ASCII. -/
def Text.Ascii (text : List Char) : Prop := ∀ c ∈ text, 0x20 ≤ c.toNat ∧ c.toNat ≤ 0x7E

instance (text : List Char) : Decidable (Text.Ascii text) := List.decidableBAll _ text

namespace Text.Ascii

variable {front back : List Char}

/-- ASCII behind ASCII is ASCII. -/
theorem append (first : Ascii front) (second : Ascii back) : Ascii (front ++ back) := by
  intro c member
  rcases List.mem_append.mp member with inFront | inBack
  · exact first c inFront
  · exact second c inBack

/-- Texts with others between them are ASCII together. -/
theorem intercalate {between : List Char} {texts : List (List Char)} (separator : Ascii between)
    (each : ∀ text ∈ texts, Ascii text) : Ascii (List.intercalate between texts) := by
  induction texts with
  | nil => intro c member; cases member
  | cons text texts ih =>
    have others := ih fun other member => each other (List.mem_cons_of_mem _ member)
    cases texts with
    | nil => simpa using each text
    | cons second texts =>
      rw [List.intercalate_cons_cons]
      exact ((each text (by simp)).append separator).append others

/-- Blanks are ASCII. -/
theorem blanks (count : Nat) : Ascii (List.replicate count ' ') := by
  intro c member
  rw [List.eq_of_mem_replicate member]
  decide

/-- A name is ASCII. -/
theorem nameText {name : String} (whole : isName name) : Ascii name.toList := by
  unfold isName at whole
  split at whole
  · cases whole
  · next first more same =>
    rw [Bool.and_eq_true, List.all_eq_true] at whole
    rw [same]
    intro c member
    rcases List.mem_cons.mp member with rfl | later
    · have range := startsName_range whole.1
      omega
    · have range := continuesName_range (whole.2 c later)
      omega

/-- A printed number is ASCII. -/
theorem hex (width value : Nat) : Ascii (Text.hex width value).toList := by
  intro c member
  have range := continuesNumber_range (continuesNumber_of_mem_hex member)
  omega

/-- A text of ASCII can be a line: it has no line feed and does not end with a carriage return. -/
theorem isLine (ascii : Ascii front) : '\n' ∉ front ∧ front.getLast? ≠ some '\r' := by
  constructor
  · intro member
    exact absurd (ascii _ member).1 (by decide)
  · intro last
    exact absurd (ascii _ (List.mem_of_getLast? last)).1 (by decide)

end Text.Ascii

open Text (Ascii)

/-- The text of an operand is ASCII. -/
theorem Operand.ascii_text {operand : Operand} (coded : operand.mode.Coded) :
    Ascii operand.text.toList := by
  have named {index : UInt8} (small : index < 0x08) : Ascii (registerName index).toList := by
    rw [(registerAt_spec small).2]
    exact .nameText (registerAt index).isName_name.1
  unfold text
  cases mode : operand.mode with
  | register index =>
    rw [mode] at coded
    exact named coded
  | indirect index =>
    rw [mode] at coded
    simp only [String.toList_append]
    exact (Ascii.append (by decide) (named coded)).append (by decide)
  | indexed index =>
    rw [mode] at coded
    simp only [String.toList_append]
    exact ((((Ascii.append (by decide) (.hex _ _)).append (by decide)).append
      (named coded)).append (by decide))
  | absolute =>
    simp only [String.toList_append]
    exact (Ascii.append (by decide) (.hex _ _)).append (by decide)
  | immediate | literal =>
    simp only [String.toList_append]
    exact Ascii.append (by decide) (.hex _ _)
  | pop | peek | push | stackPointer | programCounter | overflow =>
    dsimp only
    decide

/-- The text of an instruction is ASCII. -/
theorem Instruction.ascii_text {instruction : Instruction} (rest : instruction.AtRest) :
    Ascii instruction.text.toList := by
  have name := Ascii.nameText instruction.isName_mnemonic.1
  cases instruction with
  | basic opcode a b =>
    simp only [text, String.toList_append]
    exact (((name.append (by decide)).append (Operand.ascii_text rest.1.coded)).append
      (by decide)).append (Operand.ascii_text rest.2.coded)
  | special opcode a =>
    simp only [text, String.toList_append]
    exact (name.append (by decide)).append (Operand.ascii_text rest.coded)

namespace Listing

/-- The text of the first line is ASCII. -/
theorem ascii_firstText (words : List Word) : Ascii (firstText words).toList := by
  unfold firstText
  split
  · next found => exact Instruction.ascii_text (Instruction.atRest_of_ofWords? found)
  · rw [String.toList_append]
    exact Ascii.append (by decide) (.hex _ _)

/-! ## The source in a listing -/

/-- A text without its first bytes, as it is coded in UTF-8. -/
def withoutBytes : (count : Nat) → List Char → List Char
  | 0, text => text
  | _ + 1, [] => []
  | count + 1, c :: text => withoutBytes (count + 1 - c.utf8Size) text

/-- The source in a listing: its lines from the fourth on, without the six bytes at their start. -/
def sourceOf (listing : String) : String :=
  String.ofList (((Text.lines listing.toList).drop 3).flatMap fun line =>
    withoutBytes 6 line ++ ['\n'])

/-- Less is left without the first bytes. -/
theorem withoutBytes_subset (count : Nat) (text : List Char) : withoutBytes count text ⊆ text := by
  fun_induction withoutBytes count text with
  | case1 => exact List.Subset.refl _
  | case2 => exact List.Subset.refl _
  | case3 _ c text ih => exact List.subset_cons_of_subset c ih

/-- Each character of ASCII is one byte. -/
theorem withoutBytes_append {front : List Char} {count : Nat} (ascii : Ascii front)
    (length : front.length = count) (back : List Char) :
    withoutBytes count (front ++ back) = back := by
  subst length
  induction front with
  | nil => rw [List.length_nil, List.nil_append, withoutBytes]
  | cons c front ih =>
    have range := (ascii c (by simp)).2
    have single : c.utf8Size = 1 := by
      refine Char.utf8Size_eq_one_iff.mpr (UInt32.le_iff_toNat_le.mpr ?_)
      show c.toNat ≤ 127
      omega
    rw [List.length_cons, List.cons_append, withoutBytes, single, Nat.add_sub_cancel,
      ih fun other member => ascii other (List.mem_cons_of_mem _ member)]

/-! ## Lines -/

namespace Line

/-- What stands behind the semicolon. -/
def comment (line : Line) : List Char :=
  ' ' :: List.intercalate [' '] (line.words.map fun word => (Text.hex 4 word.toNat).toList)

/-- What stands behind the address. -/
def source (line : Line) : List Char :=
  line.text.toList ++ (List.replicate (24 - line.text.length + 1) ' ' ++ ';' :: line.comment)

/-- A line without its line end. -/
def body (line : Line) : List Char :=
  (Text.hex 4 line.address).toList ++ ([':', ' '] ++ line.source)

section Lines

variable {line : Line}

/-- The body of a line and its line end are what is printed. -/
theorem toList_render (line : Line) : line.render.toList = line.body ++ ['\n'] := by
  simp [render, body, source, comment, Text.column, String.toList_intercalate, Function.comp_def,
    List.replicate_succ']

/-- A line is ASCII if its text is. -/
theorem ascii_source (written : Ascii line.text.toList) : Ascii line.source := by
  have words : Ascii (List.intercalate [' '] (line.words.map fun word =>
      (Text.hex 4 word.toNat).toList)) := by
    refine Ascii.intercalate (by decide) fun text member => ?_
    obtain ⟨word, -, rfl⟩ := List.mem_map.mp member
    exact .hex _ _
  have behind : Ascii ([';', ' '] ++ List.intercalate [' '] (line.words.map fun word =>
      (Text.hex 4 word.toNat).toList)) := Ascii.append (by decide) words
  exact written.append ((Ascii.blanks _).append behind)

/-- A line and its address are ASCII if its text is. -/
theorem ascii_body (written : Ascii line.text.toList) : Ascii line.body :=
  (Ascii.hex _ _).append (Ascii.append (by decide) (ascii_source written))

/-- Six bytes are the address and what separates it; behind a longer address a blank is left. -/
theorem exists_withoutBytes_body (small : line.address < 0x100000) :
    ∃ blanks, withoutBytes 6 line.body = List.replicate blanks ' ' ++ line.source := by
  have address := Ascii.hex 4 line.address
  obtain ⟨least, most⟩ := length_hex (by decide : 0 < 5) (by decide : 4 ≤ 5) small
  rcases Nat.lt_or_eq_of_le most with four | five
  · have front := address.append (by decide : Ascii [':', ' '])
    have length : ((Text.hex 4 line.address).toList ++ [':', ' ']).length = 6 := by
      rw [List.length_append, Nat.le_antisymm (Nat.le_of_lt_succ four) least]
      rfl
    refine ⟨0, ?_⟩
    rw [body, ← List.append_assoc, withoutBytes_append front length]
    rfl
  · have front := address.append (by decide : Ascii [':'])
    have length : ((Text.hex 4 line.address).toList ++ [':']).length = 6 := by
      rw [List.length_append, five]
      rfl
    have blank : [':', ' '] ++ line.source = [':'] ++ ' ' :: line.source := rfl
    refine ⟨1, ?_⟩
    rw [body, blank, ← List.append_assoc, withoutBytes_append front length]
    rfl

end Lines

end Line

section Lines

/-- The lines of a program are those of its sweep, at addresses inside the program. -/
theorem forall₂_linesFrom (address : Nat) (words : List Word) :
    List.Forall₂ (fun line suffix => suffix ≠ [] ∧ line.text = firstText suffix ∧
      line.address < address + words.length) (linesFrom address words) (sweep words) := by
  fun_induction linesFrom address words with
  | case1 => rw [sweep]; exact .nil
  | case2 address word words inline line ih =>
    rw [sweep]
    refine .cons ⟨by simp, rfl, by simp [line]⟩ (ih.imp ?_)
    rintro other suffix ⟨some, text, bound⟩
    refine ⟨some, text, ?_⟩
    simp only [line, List.length_cons, List.length_take, List.length_drop] at bound ⊢
    omega

/-- Every line of a program is ASCII. -/
theorem ascii_of_mem_linesFrom {address : Nat} {words : List Word} :
    ∀ line ∈ linesFrom address words, Ascii line.body := by
  have each := (forall₂_linesFrom address words).imp
    (S := fun line _ => Ascii line.body ∧ True) fun line suffix written =>
      ⟨Line.ascii_body (written.2.1 ▸ ascii_firstText suffix), trivial⟩
  exact ((List.forall₂_and_left _ _).mp each).1

/-- The lines above a listing. -/
def headerLines : List (List Char) :=
  ["; DCPU-16 Disassembly".toList, "; -------------------".toList, []]

/-- The lines of a listing are the three above it and those of its program. -/
theorem lines_ofWords (words : List Word) :
    Text.lines (ofWords words).toList = headerLines ++ (linesFrom 0 words).map Line.body := by
  have above : header.toList = headerLines.flatMap fun line => line ++ ['\n'] := by decide
  have whole : (ofWords words).toList =
      (headerLines ++ (linesFrom 0 words).map Line.body).flatMap fun line => line ++ ['\n'] := by
    rw [ofWords, String.toList_append, String.toList_join, List.flatMap_append, ← above,
      List.flatMap_map, List.flatMap_map]
    simp only [Line.toList_render]
  rw [whole]
  apply Text.lines_flatMap
  intro line member
  rcases List.mem_append.mp member with inHeader | inProgram
  · have ascii : ∀ line ∈ headerLines, Ascii line := by decide
    exact (ascii line inHeader).isLine
  · obtain ⟨rendered, listed, rfl⟩ := List.mem_map.mp inProgram
    exact (ascii_of_mem_linesFrom rendered listed).isLine

/-- The lines of the source in a listing are what is left of those of its program. -/
theorem lines_sourceOf (words : List Word) :
    Text.lines (sourceOf (ofWords words)).toList =
      (linesFrom 0 words).map fun line => withoutBytes 6 line.body := by
  have whole : (sourceOf (ofWords words)).toList =
      ((linesFrom 0 words).map fun line => withoutBytes 6 line.body).flatMap fun line =>
        line ++ ['\n'] := by
    have program : (headerLines ++ (linesFrom 0 words).map Line.body).drop 3 =
        (linesFrom 0 words).map Line.body := rfl
    rw [sourceOf, String.toList_ofList, lines_ofWords, program, List.flatMap_map, List.flatMap_map]
  rw [whole]
  apply Text.lines_flatMap
  intro line member
  obtain ⟨rendered, listed, rfl⟩ := List.mem_map.mp member
  have ascii : Ascii (withoutBytes 6 rendered.body) := fun c inside =>
    ascii_of_mem_linesFrom rendered listed c (withoutBytes_subset 6 _ inside)
  exact ascii.isLine

/-- The lines of the source in a listing are scanned as the tokens of the lines of the program.
An address of five digits leaves room for programs that are larger than the memory. -/
theorem scan_lines_sourceOf {words : List Word} (small : words.length ≤ 0x100000) :
    List.Forall₂ (fun text suffix => suffix ≠ [] ∧ scan text = .ok (firstTokens suffix))
      (Text.lines (sourceOf (ofWords words)).toList) (sweep words) := by
  rw [lines_sourceOf, List.forall₂_map_left_iff]
  refine (forall₂_linesFrom 0 words).imp ?_
  rintro line suffix ⟨some, text, bound⟩
  refine ⟨some, ?_⟩
  obtain ⟨blanks, left⟩ := Line.exists_withoutBytes_body (by omega : line.address < 0x100000)
  have scans := scans_firstText suffix Ends.nil Scans.nil
  rw [List.append_nil, List.append_nil, ← text] at scans
  rw [left, Line.source]
  exact scans.scan_eq blanks _ line.comment

end Lines

end Listing

end Dcpu16
