import Mathlib.Data.List.TakeWhile
import Mathlib.Tactic.NormNum

/-! Byte strings as C code reads and writes them: strings that end at the first
NUL, decimal numerals, and text made of lines. Nothing here knows a file format. -/
namespace PhpProf

abbrev Bytes := List UInt8

namespace Text

/-- The bytes of an ASCII literal. -/
def ascii (text : String) : Bytes := text.toList.map fun char => char.toNat.toUInt8

def newline : UInt8 := 10

def space : UInt8 := 32

def minus : UInt8 := 45

/-- What C string code sees of counted bytes: it stops at the first NUL. -/
def cString (bytes : Bytes) : Bytes := bytes.takeWhile (· ≠ 0)

theorem cString_of_no_nul {bytes : Bytes} (clean : 0 ∉ bytes) : cString bytes = bytes := by
  refine List.takeWhile_eq_self_iff.mpr fun byte member => ?_
  simpa using fun nul : byte = 0 => clean (nul ▸ member)

theorem mem_of_mem_cString {bytes : Bytes} {byte : UInt8} (member : byte ∈ cString bytes) :
    byte ∈ bytes :=
  (List.takeWhile_prefix _).mem member

/-! ## Decimal numerals -/

def isDigit (byte : UInt8) : Bool := 48 ≤ byte && byte ≤ 57

theorem newline_not_digit : isDigit newline = false := rfl

theorem space_not_digit : isDigit space = false := rfl

theorem minus_not_digit : isDigit minus = false := rfl

/-- `%lu`: the decimal digits of a natural number, most significant first. -/
def decimal (n : Nat) : Bytes := (Nat.toDigits 10 n).map fun char => char.toNat.toUInt8

/-- `%d` and `%ld`: a minus sign in front of a negative number. -/
def signedDecimal (n : Int) : Bytes :=
  if n < 0 then ascii "-" ++ decimal n.natAbs else decimal n.natAbs

/-- A reader's value of a run of digits. -/
def digitsValue (digits : Bytes) : Nat :=
  digits.foldl (fun value digit => 10 * value + (digit.toNat - 48)) 0

/-- The text is one or more digits and reads as `n`; leading zeros are allowed. -/
structure Numeral (text : Bytes) (n : Nat) : Prop where
  nonempty : text ≠ []
  digits : ∀ byte ∈ text, isDigit byte = true
  value : digitsValue text = n

private theorem digit_char_byte {char : Char} (digit : char.isDigit = true) :
    48 ≤ char.toNat ∧ char.toNat ≤ 57 ∧ char.toNat.toUInt8.toNat = char.toNat := by
  simp only [Char.isDigit, ge_iff_le, Bool.and_eq_true, decide_eq_true_eq] at digit
  have low : 48 ≤ char.toNat := digit.1
  have high : char.toNat ≤ 57 := digit.2
  refine ⟨low, high, ?_⟩
  simp only [UInt8.toNat_ofNat']
  omega

private theorem digitsValue_chars (chars : List Char)
    (digits : ∀ char ∈ chars, char.isDigit = true) (start : Nat) :
    (chars.map fun char => char.toNat.toUInt8).foldl
        (fun value digit => 10 * value + (digit.toNat - 48)) start =
      Nat.ofDigitChars 10 chars start := by
  induction chars generalizing start with
  | nil => simp
  | cons char rest ih =>
    have byte := (digit_char_byte (digits char (by simp))).2.2
    simp only [List.map_cons, List.foldl_cons, byte, Nat.ofDigitChars_cons]
    exact ih (fun other member => digits other (List.mem_cons_of_mem _ member)) _

theorem numeral_decimal (n : Nat) : Numeral (decimal n) n where
  nonempty := by simp [decimal]
  digits := by
    intro byte member
    obtain ⟨char, held, rfl⟩ := List.mem_map.mp member
    obtain ⟨low, high, exact⟩ :=
      digit_char_byte (Nat.isDigit_of_mem_toDigits (by decide) (by decide) held)
    simp only [isDigit, Bool.and_eq_true, decide_eq_true_eq, UInt8.le_iff_toNat_le, exact]
    exact ⟨low, high⟩
  value := by
    rw [digitsValue, decimal, digitsValue_chars]
    · exact Nat.ofDigitChars_ten_toDigits
    · exact fun char member => Nat.isDigit_of_mem_toDigits (by decide) (by decide) member

/-- A number has one value, whatever text spells it. -/
theorem Numeral.unique {text : Bytes} {m n : Nat} (left : Numeral text m)
    (right : Numeral text n) : m = n :=
  left.value.symm.trans right.value

/-- Digits never contain a byte outside `0` to `9`. -/
theorem Numeral.not_mem {text : Bytes} {n : Nat} (numeral : Numeral text n) {byte : UInt8}
    (other : isDigit byte = false) : byte ∉ text := by
  intro member
  rw [numeral.digits byte member] at other
  cases other

/-- Read a text that must be a numeral. -/
def readNat (text : Bytes) : Option Nat :=
  if text ≠ [] ∧ text.all isDigit = true then some (digitsValue text) else none

/-- Read a numeral that may have a minus sign. -/
def readInt : Bytes → Option Int
  | [] => none
  | sign :: digits =>
    if sign = minus then (readNat digits).map fun n : Nat => -(n : Int)
    else (readNat (sign :: digits)).map Int.ofNat

theorem readNat_of_numeral {text : Bytes} {n : Nat} (numeral : Numeral text n) :
    readNat text = some n := by
  have digits : text.all isDigit = true := List.all_eq_true.mpr numeral.digits
  rw [readNat, if_pos ⟨numeral.nonempty, digits⟩, numeral.value]

theorem readInt_of_numeral {text : Bytes} {n : Nat} (numeral : Numeral text n) :
    readInt text = some (n : Int) := by
  cases text with
  | nil => exact absurd rfl numeral.nonempty
  | cons digit digits =>
    have unsigned : digit ≠ minus := by
      rintro rfl
      exact numeral.not_mem minus_not_digit List.mem_cons_self
    simp [readInt, unsigned, readNat_of_numeral numeral]

theorem readInt_signedDecimal (n : Int) : readInt (signedDecimal n) = some n := by
  by_cases negative : n < 0
  · have shape : signedDecimal n = minus :: decimal n.natAbs := by
      rw [signedDecimal, if_pos negative]
      rfl
    have value : -(n.natAbs : Int) = n := by omega
    rw [shape, readInt, if_pos rfl, readNat_of_numeral (numeral_decimal _), Option.map_some, value]
  · have value : (n.natAbs : Int) = n := by omega
    rw [signedDecimal, if_neg negative, readInt_of_numeral (numeral_decimal _), value]

/-- A printed number holds digits and at most a minus sign. -/
theorem signedDecimal_not_mem (n : Int) {byte : UInt8} (other : isDigit byte = false)
    (unsigned : byte ≠ minus) : byte ∉ signedDecimal n := by
  have digits := (numeral_decimal n.natAbs).not_mem other
  rw [signedDecimal]
  split
  · intro member
    rcases List.mem_append.mp member with sign | digit
    · exact unsigned (by simpa [ascii, minus] using sign)
    · exact digits digit
  · exact digits

/-! ## Lines -/

/-- The lines of a text; a final newline leaves an empty last line. -/
def splitLines : Bytes → List Bytes
  | [] => [[]]
  | byte :: rest =>
    if byte = newline then [] :: splitLines rest
    else (splitLines rest).modifyHead (byte :: ·)

theorem splitLines_ne_nil (text : Bytes) : splitLines text ≠ [] := by
  cases text with
  | nil => simp [splitLines]
  | cons byte rest =>
    simp only [splitLines]
    split
    · simp
    · simpa [List.modifyHead_eq_nil_iff] using splitLines_ne_nil rest

/-- A newline anywhere separates the lines before it from the lines after it. -/
theorem splitLines_append (before after : Bytes) :
    splitLines (before ++ newline :: after) = splitLines before ++ splitLines after := by
  induction before with
  | nil => simp [splitLines]
  | cons byte rest ih =>
    simp only [List.cons_append, splitLines, ih]
    split
    · rfl
    · cases lines : splitLines rest with
      | nil => exact absurd lines (splitLines_ne_nil rest)
      | cons line more => rfl

theorem splitLines_of_no_newline {line : Bytes} (clean : newline ∉ line) :
    splitLines line = [line] := by
  induction line with
  | nil => rfl
  | cons byte rest ih =>
    simp only [List.mem_cons, not_or] at clean
    simp [splitLines, Ne.symm clean.1, ih clean.2]

/-- The first line of a text is what stands before its first newline. -/
theorem splitLines_line {line : Bytes} (clean : newline ∉ line) (rest : Bytes) :
    splitLines (line ++ newline :: rest) = line :: splitLines rest := by
  rw [splitLines_append, splitLines_of_no_newline clean, List.singleton_append]

/-- A text that is cut at its first stop byte is cut there in one way only. -/
theorem cut_unique {stop : UInt8} {left right leftRest rightRest : Bytes}
    (leftClean : stop ∉ left) (rightClean : stop ∉ right)
    (same : left ++ stop :: leftRest = right ++ stop :: rightRest) :
    left = right ∧ leftRest = rightRest := by
  induction left generalizing right with
  | nil =>
    cases right with
    | nil => exact ⟨rfl, by simpa using same⟩
    | cons byte right =>
      simp only [List.nil_append, List.cons_append, List.cons.injEq] at same
      simp [same.1] at rightClean
  | cons byte left ih =>
    cases right with
    | nil =>
      simp only [List.nil_append, List.cons_append, List.cons.injEq] at same
      simp [← same.1] at leftClean
    | cons other right =>
      simp only [List.cons_append, List.cons.injEq, List.mem_cons, not_or]
        at same leftClean rightClean
      obtain ⟨rfl, rest⟩ := same
      obtain ⟨rfl, tails⟩ := ih leftClean.2 rightClean.2 rest
      exact ⟨rfl, tails⟩

end Text

end PhpProf
