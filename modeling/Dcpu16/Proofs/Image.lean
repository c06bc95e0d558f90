import Dcpu16.Image
import Dcpu16.Proofs.Encoding

/-!
# Images of programs

An image holds the program that it has been made of, and nothing else (`Image.toWords_ofWords`).
Every even number of bytes is the image of one program (`Image.toWords_eq_ok_iff`), and an odd
number is none (`Image.toWords_eq_error_iff`).
-/
namespace Dcpu16.Image

/-! ## Words and bytes -/

/-- The high byte counts 256 times. -/
theorem toNat_wordOf (high low : UInt8) :
    (wordOf high low).toNat = 256 * high.toNat + low.toNat := by
  have highBound := high.toNat_lt
  have lowBound : low.toNat < 2 ^ 8 := low.toNat_lt
  calc (wordOf high low).toNat
      = high.toNat * 2 ^ 8 ||| low.toNat := by
        rw [wordOf, UInt16.toNat_or, UInt16.toNat_shiftLeft, UInt8.toNat_toUInt16,
          UInt8.toNat_toUInt16, Nat.shiftLeft_eq]
        congr 1
        exact Nat.mod_eq_of_lt (by simp; omega)
    _ = 256 * high.toNat + low.toNat := by
        rw [Nat.or_comm, or_mul_two_pow lowBound]
        omega

/-- The high byte of a word is its quotient. -/
theorem toNat_high (word : Word) : (word >>> 8).toUInt8.toNat = word.toNat / 256 := by
  have below := word.toNat_lt
  rw [UInt16.toNat_toUInt8, UInt16.toNat_shiftRight, Nat.shiftRight_eq_div_pow]
  exact Nat.mod_eq_of_lt (by simp; omega)

/-- The low byte of a word is its remainder. -/
theorem toNat_low (word : Word) : word.toUInt8.toNat = word.toNat % 256 :=
  UInt16.toNat_toUInt8 word

/-- The high byte and the low byte make the word again. -/
theorem wordOf_bytes (word : Word) : wordOf (word >>> 8).toUInt8 word.toUInt8 = word := by
  apply UInt16.toNat_inj.mp
  rw [toNat_wordOf, toNat_high, toNat_low]
  exact Nat.div_add_mod word.toNat 256

/-- The two bytes that make a word are its high byte and its low byte. -/
theorem ofWords_wordOf (high low : UInt8) (words : List Word) :
    ofWords (wordOf high low :: words) = high :: low :: ofWords words := by
  have lowBound := low.toNat_lt
  have first : (wordOf high low >>> 8).toUInt8 = high := by
    apply UInt8.toNat_inj.mp
    rw [toNat_high, toNat_wordOf]
    omega
  have second : (wordOf high low).toUInt8 = low := by
    apply UInt8.toNat_inj.mp
    rw [toNat_low, toNat_wordOf]
    omega
  have bytes : ofWords (wordOf high low :: words) =
      (wordOf high low >>> 8).toUInt8 :: (wordOf high low).toUInt8 :: ofWords words := rfl
  rw [bytes, first, second]

/-- Each word has two bytes in an image. -/
theorem length_ofWords (words : List Word) : (ofWords words).length = 2 * words.length := by
  induction words with
  | nil => rfl
  | cons word words ih =>
    have bytes : (ofWords (word :: words)).length = (ofWords words).length + 2 := rfl
    rw [bytes, ih, List.length_cons]
    omega

/-- Where the bytes of a word are in an image. -/
theorem toNat_getElem_ofWords {words : List Word} {index : Nat} (inside : index < words.length)
    (bound : 2 * index + 1 < (ofWords words).length) :
    words[index].toNat =
      256 * (ofWords words)[2 * index].toNat + (ofWords words)[2 * index + 1].toNat := by
  induction words generalizing index with
  | nil => cases inside
  | cons word words ih =>
    cases index with
    | zero =>
      have value := toNat_wordOf (word >>> 8).toUInt8 word.toUInt8
      rwa [wordOf_bytes] at value
    | succ index =>
      have later : index < words.length := Nat.lt_of_succ_lt_succ inside
      exact ih later (by rw [length_ofWords]; omega)

/-! ## Programs -/

/-- The bytes of words are read behind others as these words. -/
theorem wordsFrom?_ofWords (done words : List Word) :
    wordsFrom? done (ofWords words) = some (done.reverse ++ words) := by
  induction words generalizing done with
  | nil => simp [ofWords, wordsFrom?]
  | cons word words ih =>
    have bytes : ofWords (word :: words) =
        (word >>> 8).toUInt8 :: word.toUInt8 :: ofWords words := rfl
    rw [bytes, wordsFrom?, wordOf_bytes, ih]
    simp

/-- The program of the image of a program is the program, of whatever size it is. -/
theorem toWords_ofWords (words : List Word) : toWords (ofWords words) = .ok words := by
  rw [toWords, wordsFrom?_ofWords]
  rfl

/-- Bytes are the image of a program unless one is left over. -/
theorem exists_ofWords_eq : ∀ {bytes : List UInt8}, bytes.length % 2 = 0 →
    ∃ words, ofWords words = bytes
  | [], _ => ⟨[], rfl⟩
  | [_], even => by simp at even
  | high :: low :: bytes, even => by
    have rest : bytes.length % 2 = 0 := by
      simp only [List.length_cons] at even
      omega
    obtain ⟨words, image⟩ := exists_ofWords_eq rest
    exact ⟨wordOf high low :: words, by rw [ofWords_wordOf, image]⟩

/-- An odd number of bytes has no words. -/
theorem wordsFrom?_of_odd : ∀ {bytes : List UInt8} (done : List Word), bytes.length % 2 = 1 →
    wordsFrom? done bytes = none
  | [], _, odd => by simp at odd
  | [_], _, _ => rfl
  | high :: low :: bytes, done, odd => by
    have rest : bytes.length % 2 = 1 := by
      simp only [List.length_cons] at odd
      omega
    exact wordsFrom?_of_odd (wordOf high low :: done) rest

/-- An image is refused if and only if a byte is left over. -/
theorem toWords_eq_error_iff {bytes : List UInt8} {error : LoadError} :
    toWords bytes = .error error ↔ bytes.length % 2 = 1 ∧ error = .oddLength bytes.length := by
  by_cases odd : bytes.length % 2 = 1
  · rw [toWords, wordsFrom?_of_odd [] odd]
    simp [odd, eq_comm]
  · obtain ⟨words, image⟩ : ∃ words, ofWords words = bytes := exists_ofWords_eq (by omega)
    have read : toWords bytes = .ok words := image ▸ toWords_ofWords words
    simp [read, odd]

/-- An image has a program if and only if it is the image of this program. -/
theorem toWords_eq_ok_iff {bytes : List UInt8} {words : List Word} :
    toWords bytes = .ok words ↔ ofWords words = bytes := by
  constructor
  · intro read
    have even : bytes.length % 2 = 0 := by
      by_contra odd
      have refused := toWords_eq_error_iff.mpr ⟨Nat.mod_two_ne_zero.mp odd, rfl⟩
      rw [read] at refused
      cases refused
    obtain ⟨program, image⟩ := exists_ofWords_eq even
    rw [← image, toWords_ofWords] at read
    cases read
    exact image
  · rintro rfl
    exact toWords_ofWords words

end Dcpu16.Image
