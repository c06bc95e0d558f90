import Dcpu16.Proofs.Listing.Rendered

/-!
# Assembling what a listing shows

The source in a listing makes the words that the lines of the listing stand for
(`Listing.assemble_sourceOf`). So a program is made again from its listing exactly if nothing in it
is lost there (`Listing.assemble_listing`).
-/
namespace Dcpu16.Listing

open Source

section RoundTrip

variable {words : List Word}

/-- There are tokens on every line. -/
theorem firstTokens_ne_nil (words : List Word) : firstTokens words ≠ [] := by
  unfold firstTokens
  split
  · exact List.cons_ne_nil _ _
  · exact List.cons_ne_nil _ _

/-- The statement means the words that the first line of a program stands for, whatever labels
stand for. -/
structure States (written : Statement) (words : List Word) : Prop where
  label : written.label = none
  words : ∀ addresses, written.wordsIn addresses = some (firstNormal words)

/-- A line that is scanned as the tokens of a program's first line holds a statement. -/
theorem exists_readLine {text : List Char} (nonempty : words ≠ [])
    (scanned : scan text = .ok (firstTokens words)) (line : Nat) :
    ∃ written, readLine text line = .ok (some written) ∧ States written words := by
  obtain ⟨written, found, label, means⟩ := exists_first_statement nonempty line
  refine ⟨written, ?_, label, means⟩
  unfold readLine
  rw [scanned]
  split
  · next failed => cases failed
  · next blank => exact absurd (Except.ok.inj blank) (firstTokens_ne_nil words)
  · next same =>
    rw [← Except.ok.inj same, found]

/-- Lines that are scanned as those of a program hold a statement each. -/
theorem exists_mapM_readLine {texts : List (List Char)} {suffixes : List (List Word)}
    (scanned : List.Forall₂ (fun text suffix => suffix ≠ [] ∧ scan text = .ok (firstTokens suffix))
      texts suffixes) (first : Nat) :
    ∃ statements, (texts.zipIdx first).mapM (fun (text, line) => readLine text line) =
      .ok (statements.map some) ∧ List.Forall₂ States statements suffixes := by
  induction scanned generalizing first with
  | nil => exact ⟨[], rfl, .nil⟩
  | cons here _ ih =>
    obtain ⟨written, found, states⟩ := exists_readLine here.1 here.2 first
    obtain ⟨statements, others, each⟩ := ih (first + 1)
    refine ⟨written :: statements, ?_, .cons states each⟩
    rw [List.zipIdx_cons, List.mapM_cons, others]
    simp only [found]
    rfl

/-- Statements without labels make the words that each of them means. -/
theorem encode_of_states {statements : List Statement} {suffixes : List (List Word)}
    (each : List.Forall₂ States statements suffixes) :
    encode statements = .ok (suffixes.flatMap firstNormal) := by
  have labels : statements.filterMap Statement.label = [] := by
    rw [List.filterMap_eq_nil_iff]
    exact ((List.forall₂_and_left _ _).mp (each.imp
      (S := fun written suffix => written.label = none ∧ States written suffix)
      fun _ _ states => ⟨states.label, states⟩)).1
  refine encode_eq_ok_iff.mpr ⟨by rw [labels]; exact List.nodup_nil, ?_, ?_⟩
  · intro name address found
    have defined := mem_labels_of_addressIn found
    rw [labels] at defined
    cases defined
  · have found := mapM_eq_some_iff.mpr (List.forall₂_map_right_iff.mpr
      (each.imp fun _ _ states => states.words (addressIn statements)))
    rw [found, List.flatMap_def]
    rfl

/-- The source in the listing of a program makes the words that the lines stand for. -/
theorem assemble_sourceOf (small : words.length ≤ 0x100000) :
    assemble (sourceOf (ofWords words)) = .ok (normal words) := by
  obtain ⟨statements, read, each⟩ := exists_mapM_readLine (scan_lines_sourceOf small) 1
  unfold assemble Source.read
  rw [read]
  have kept : List.filterMap id (statements.map some) = statements := by simp
  simp only [Except.map, Except.bind, kept]
  exact encode_of_states each

/-- The source in the listing of a program that fits in memory makes its words with literals and
with the words that are missing at the end. These are the program itself exactly if no literal can
be made and no word is missing, and they are made again from their own listing. -/
theorem assemble_listing (fits : words.length ≤ 0x10000) :
    assemble (sourceOf (ofWords words)) = .ok (normal words) ∧
      (assemble (sourceOf (ofWords words)) = .ok words ↔ Settled words) ∧
      assemble (sourceOf (ofWords (normal words))) = .ok (normal words) := by
  have once : assemble (sourceOf (ofWords words)) = .ok (normal words) :=
    assemble_sourceOf (Nat.le_trans fits (by decide))
  have few := length_normal_le words
  have twice : assemble (sourceOf (ofWords (normal words))) = .ok (normal (normal words)) :=
    assemble_sourceOf (by omega)
  refine ⟨once, ?_, ?_⟩
  · rw [once, Except.ok.injEq]
    exact normal_eq_iff words
  · rw [twice, (normal_eq_iff _).mpr (settled_normal words)]

/-- Of two instructions with an inline word, the first has one that fits in a literal, and the
second lacks it. -/
theorem assemble_listing_shortened :
    [0x7C01, 0x0010, 0x7C01].length ≤ 0x10000 ∧
      assemble (sourceOf (ofWords [0x7C01, 0x0010, 0x7C01])) = .ok [0xC001, 0x8001] := by
  have normalized : normal [0x7C01, 0x0010, 0x7C01] = [0xC001, 0x8001] := by cbv
  have fits : [0x7C01, 0x0010, 0x7C01].length ≤ 0x10000 := by decide
  exact ⟨fits, normalized ▸ (assemble_listing fits).1⟩

end RoundTrip

end Dcpu16.Listing
