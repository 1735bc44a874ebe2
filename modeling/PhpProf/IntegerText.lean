import Mathlib.Data.Nat.Digits.Defs
import Mathlib.Tactic.Ring
import PhpProf.Text

/-! The integers C reads from text. `strtol` with base 0 is compared with the
grammar of integer literals: white space, a sign, and decimal, octal or
hexadecimal digits, of any length. -/
namespace PhpProf

namespace IntegerText
open Text

/-! ## `strtol` -/

def plus : UInt8 := 43

def zero : UInt8 := 48

/-- `isspace` in the C locale. -/
def isSpace (byte : UInt8) : Bool := byte = space || (9 ≤ byte && byte ≤ 13)

/-- The value of a digit or a letter in bases up to 36. -/
def digitValue (byte : UInt8) : Option Nat :=
  if 48 ≤ byte ∧ byte ≤ 57 then some (byte.toNat - 48)
  else if 97 ≤ byte ∧ byte ≤ 122 then some (byte.toNat - 87)
  else if 65 ≤ byte ∧ byte ≤ 90 then some (byte.toNat - 55)
  else none

/-- The value of a digit of a base. -/
def digitOf (base : Nat) (byte : UInt8) : Option Nat :=
  (digitValue byte).filter (· < base)

/-- Read digits as long as there are any; the value and the text after them. -/
def readDigits (base : Nat) : Nat → Bytes → Nat × Bytes
  | value, [] => (value, [])
  | value, byte :: rest =>
    match digitOf base byte with
    | some digit => readDigits base (value * base + digit) rest
    | none => (value, byte :: rest)

/-- Whether there is a minus sign, and the text after the sign. -/
def readSign : Bytes → Bool × Bytes
  | [] => (false, [])
  | sign :: rest =>
    if sign = minus then (true, rest)
    else if sign = plus then (false, rest)
    else (false, sign :: rest)

/-- The marker of a hexadecimal literal, after its zero. -/
def isMarker (byte : UInt8) : Bool := byte = 120 || byte = 88

/-- The digits after a hexadecimal marker, if there are any. -/
def hexDigits : Bytes → Option Bytes
  | marker :: digit :: more =>
    if isMarker marker && (digitOf 16 digit).isSome then some (digit :: more) else none
  | _ => none

/-- The base a prefix selects, and the text whose digits count. A marker without
a hexadecimal digit after it is not part of the number. -/
def detectBase : Bytes → Nat × Bytes
  | [] => (10, [])
  | leading :: rest =>
    if leading = zero then
      match hexDigits rest with
      | some digits => (16, digits)
      | none => (8, leading :: rest)
    else (10, leading :: rest)

/-- The value of a sign and a magnitude. -/
def signed (negative : Bool) (magnitude : Nat) : Int :=
  if negative then -(magnitude : Int) else magnitude

/-- The number at the start of a text and the text after it, if it has digits. -/
def scan (text : Bytes) : Option (Int × Bytes) :=
  let (negative, unsigned) := readSign (text.dropWhile isSpace)
  let (base, digits) := detectBase unsigned
  let (magnitude, rest) := readDigits base 0 digits
  if rest.length = digits.length then none
  else some (signed negative magnitude, rest)

def longMax : Int := 2 ^ 63 - 1

def longMin : Int := -2 ^ 63

/-- `strtol(text, &end, 0)`: the value and the offset of `end`. Numbers out of
range give the nearest limit; without digits `end` is the start. -/
def strtol (text : Bytes) : Int × Nat :=
  match scan text with
  | none => (0, 0)
  | some (value, rest) => (max longMin (min longMax value), text.length - rest.length)

/-! ## The grammar -/

/-- One or more digits of a base, most significant first. -/
structure Digits (base : Nat) (text : Bytes) (value : Nat) : Prop where
  nonempty : text ≠ []
  positional : ∃ digits : List Nat, text.map (digitOf base) = digits.map some ∧
    value = Nat.ofDigits base digits.reverse

/-- A literal without a sign. -/
inductive UnsignedLiteral : Bytes → Nat → Prop where
  | decimal (leading : text.head? ≠ some zero) (digits : Digits 10 text value) :
      UnsignedLiteral text value
  | octal (digits : Digits 8 (zero :: text) value) : UnsignedLiteral (zero :: text) value
  | hexadecimal (marked : isMarker marker = true) (digits : Digits 16 text value) :
      UnsignedLiteral (zero :: marker :: text) value

inductive SignedLiteral : Bytes → Int → Prop where
  | plain (literal : UnsignedLiteral text value) : SignedLiteral text value
  | plus (literal : UnsignedLiteral text value) : SignedLiteral (plus :: text) value
  | minus (literal : UnsignedLiteral text value) : SignedLiteral (minus :: text) (-value)

/-- The whole text is a literal, after optional white space. -/
def IntegerLiteral (text : Bytes) (value : Int) : Prop :=
  ∃ blanks literal, text = blanks ++ literal ∧ (∀ byte ∈ blanks, isSpace byte = true) ∧
    SignedLiteral literal value

/-! ## Runs of digits -/

theorem digitOf_low {base : Nat} {byte : UInt8} {digit : Nat}
    (found : digitOf base byte = some digit) : zero ≤ byte := by
  have value := (Option.filter_eq_some_iff.mp found).1
  unfold digitValue at value
  split at value
  · next decimal => exact decimal.1
  · split at value
    · next small => exact UInt8.le_trans (by decide) small.1
    · split at value
      · next large => exact UInt8.le_trans (by decide) large.1
      · cases value

/-- What digits are worth after others have been read. -/
private theorem fold_digits (base value : Nat) (digits : List Nat) :
    digits.foldl (fun value digit => value * base + digit) value =
      value * base ^ digits.length + Nat.ofDigits base digits.reverse := by
  induction digits generalizing value with
  | nil => simp
  | cons digit rest ih =>
    rw [List.foldl_cons, ih, Nat.ofDigits_reverse_cons, List.length_cons, pow_succ']
    ring

private theorem readDigits_all {base value : Nat} {text : Bytes} {digits : List Nat}
    (all : text.map (digitOf base) = digits.map some) :
    readDigits base value text =
      (digits.foldl (fun value digit => value * base + digit) value, []) := by
  induction text generalizing value digits with
  | nil =>
    cases digits with
    | nil => rfl
    | cons => cases all
  | cons byte rest ih =>
    cases digits with
    | nil => cases all
    | cons digit more =>
      simp only [List.map_cons, List.cons.injEq] at all
      rw [readDigits, all.1]
      exact ih all.2

private theorem readDigits_none_left {base value result : Nat} {text : Bytes}
    (whole : readDigits base value text = (result, [])) :
    ∃ digits : List Nat, text.map (digitOf base) = digits.map some ∧
      result = digits.foldl (fun value digit => value * base + digit) value := by
  induction text generalizing value with
  | nil =>
    cases whole
    exact ⟨[], rfl, rfl⟩
  | cons byte rest ih =>
    rw [readDigits] at whole
    split at whole
    · next digit found =>
      obtain ⟨digits, all, worth⟩ := ih whole
      exact ⟨digit :: digits, by rw [List.map_cons, found, all, List.map_cons], worth⟩
    · cases whole

/-- A text is read to its end exactly when it is nothing but digits. -/
theorem readDigits_whole_iff {base value : Nat} {text : Bytes} (nonempty : text ≠ []) :
    readDigits base 0 text = (value, []) ↔ Digits base text value := by
  constructor
  · intro whole
    obtain ⟨digits, all, rfl⟩ := readDigits_none_left whole
    refine ⟨nonempty, digits, all, ?_⟩
    rw [fold_digits, Nat.zero_mul, Nat.zero_add]
  · rintro ⟨-, digits, all, rfl⟩
    rw [readDigits_all all, fold_digits, Nat.zero_mul, Nat.zero_add]

theorem Digits.head {base value : Nat} {text : Bytes} (digits : Digits base text value) :
    ∃ byte rest digit, text = byte :: rest ∧ digitOf base byte = some digit := by
  obtain ⟨nonempty, values, all, -⟩ := digits
  cases text with
  | nil => exact absurd rfl nonempty
  | cons byte rest =>
    cases values with
    | nil => cases all
    | cons digit more =>
      simp only [List.map_cons, List.cons.injEq] at all
      exact ⟨byte, rest, digit, rfl, all.1⟩

/-! ## Literals -/

theorem hexDigits_eq_some {text digits : Bytes} :
    hexDigits text = some digits ↔ ∃ marker digit more, text = marker :: digits ∧
      digits = digit :: more ∧ isMarker marker = true ∧ (digitOf 16 digit).isSome = true := by
  constructor
  · intro found
    match text, found with
    | marker :: digit :: more, found =>
      simp only [hexDigits] at found
      split at found
      · next marked =>
        cases found
        rw [Bool.and_eq_true] at marked
        exact ⟨marker, digit, more, rfl, rfl, marked⟩
      · cases found
  · rintro ⟨marker, digit, more, rfl, rfl, marked, hex⟩
    rw [hexDigits, if_pos (by rw [marked, hex]; rfl)]

/-- No octal digit is a hexadecimal marker. -/
theorem octal_unmarked {byte : UInt8} {digit : Nat} (found : digitOf 8 byte = some digit) :
    isMarker byte ≠ true := by
  intro marked
  rw [isMarker, Bool.or_eq_true, decide_eq_true_eq, decide_eq_true_eq] at marked
  rcases marked with rfl | rfl
  · cases found
  · cases found

/-- The prefix of a literal selects its base, and the rest are its digits. -/
theorem unsigned_iff {text : Bytes} {value : Nat} :
    UnsignedLiteral text value ↔ Digits (detectBase text).1 (detectBase text).2 value := by
  constructor
  · intro literal
    cases literal with
    | decimal leading digits =>
      obtain ⟨byte, rest, digit, rfl, -⟩ := digits.head
      have other : byte ≠ zero := by simpa using leading
      simp only [detectBase, if_neg other]
      exact digits
    | @octal text value digits =>
      have unmarked : hexDigits text = none := by
        apply Option.eq_none_iff_forall_ne_some.mpr
        intro rest found
        obtain ⟨marker, digit, more, rfl, -, marked, -⟩ := hexDigits_eq_some.mp found
        obtain ⟨-, values, all, -⟩ := digits
        match values, all with
        | _ :: second :: _, all =>
          simp only [List.map_cons, List.cons.injEq] at all
          exact octal_unmarked all.2.1 marked
      simp only [detectBase, ↓reduceIte, unmarked]
      exact digits
    | @hexadecimal marker text value marked digits =>
      obtain ⟨byte, rest, digit, rfl, found⟩ := digits.head
      have hex : hexDigits (marker :: byte :: rest) = some (byte :: rest) :=
        hexDigits_eq_some.mpr ⟨marker, byte, rest, rfl, rfl, marked, by rw [found]; rfl⟩
      simp only [detectBase, ↓reduceIte, hex]
      exact digits
  · intro digits
    cases text with
    | nil => exact absurd rfl digits.nonempty
    | cons leading rest =>
      by_cases octal : leading = zero
      · subst octal
        cases found : hexDigits rest with
        | none =>
          simp only [detectBase, ↓reduceIte, found] at digits
          exact .octal digits
        | some text =>
          simp only [detectBase, ↓reduceIte, found] at digits
          obtain ⟨marker, -, -, rfl, -, marked, -⟩ := hexDigits_eq_some.mp found
          exact .hexadecimal marked digits
      · simp only [detectBase, if_neg octal] at digits
        exact .decimal (by simpa using octal) digits

/-- A literal starts with a digit. -/
theorem UnsignedLiteral.head {text : Bytes} {value : Nat} (literal : UnsignedLiteral text value) :
    ∃ byte rest, text = byte :: rest ∧ zero ≤ byte := by
  cases literal with
  | decimal leading digits =>
    obtain ⟨byte, rest, digit, rfl, found⟩ := digits.head
    exact ⟨byte, rest, rfl, digitOf_low found⟩
  | octal => exact ⟨_, _, rfl, UInt8.le_refl _⟩
  | hexadecimal => exact ⟨_, _, rfl, UInt8.le_refl _⟩

theorem signed_iff {text : Bytes} {value : Int} :
    SignedLiteral text value ↔ ∃ magnitude, UnsignedLiteral (readSign text).2 magnitude ∧
      value = signed (readSign text).1 magnitude := by
  constructor
  · intro literal
    cases literal with
    | @plain text magnitude literal =>
      obtain ⟨byte, rest, rfl, low⟩ := literal.head
      have notMinus : byte ≠ minus := by
        rintro rfl
        exact absurd low (by decide)
      have notPlus : byte ≠ plus := by
        rintro rfl
        exact absurd low (by decide)
      simp only [readSign, if_neg notMinus, if_neg notPlus]
      exact ⟨magnitude, literal, rfl⟩
    | plus literal => exact ⟨_, literal, rfl⟩
    | minus literal => exact ⟨_, literal, rfl⟩
  · rintro ⟨magnitude, literal, rfl⟩
    cases text with
    | nil => exact .plain literal
    | cons sign rest =>
      by_cases negative : sign = minus
      · subst negative
        exact .minus literal
      · by_cases positive : sign = plus
        · subst positive
          exact .plus literal
        · simp only [readSign, if_neg negative, if_neg positive] at literal ⊢
          exact .plain literal

/-- White space before a literal is skipped, and nothing else is. -/
theorem literal_iff {text : Bytes} {value : Int} :
    IntegerLiteral text value ↔ SignedLiteral (text.dropWhile isSpace) value := by
  constructor
  · rintro ⟨blanks, literal, rfl, blank, signed⟩
    have head : ∃ byte rest, literal = byte :: rest ∧ isSpace byte = false := by
      cases signed with
      | plain unsigned =>
        obtain ⟨byte, rest, rfl, low⟩ := unsigned.head
        refine ⟨byte, rest, rfl, ?_⟩
        have high : zero ≤ byte := low
        simp only [isSpace, Bool.or_eq_false_iff, Bool.and_eq_false_iff, decide_eq_false_iff_not,
          UInt8.le_iff_toNat_le, ← UInt8.toNat_inj] at high ⊢
        simp only [zero, space, UInt8.reduceToNat] at high ⊢
        omega
      | plus => exact ⟨_, _, rfl, rfl⟩
      | minus => exact ⟨_, _, rfl, rfl⟩
    obtain ⟨byte, rest, rfl, solid⟩ := head
    rw [List.dropWhile_append_of_pos blank, List.dropWhile_cons_of_neg (by rw [solid]; simp)]
    exact signed
  · intro signed
    refine ⟨text.takeWhile isSpace, _, (List.takeWhile_append_dropWhile ..).symm, ?_, signed⟩
    exact fun byte member => List.mem_takeWhile_imp member

/-! ## What `strtol` reads -/

/-- A number that reaches to the end of the text is a literal, and the other way
round. -/
theorem scan_whole_iff {text : Bytes} {value : Int} :
    scan text = some (value, []) ↔ IntegerLiteral text value := by
  rw [literal_iff, signed_iff]
  simp only [unsigned_iff, scan]
  generalize readSign (text.dropWhile isSpace) = sign
  generalize detectBase sign.2 = detected
  obtain ⟨base, digits⟩ := detected
  simp only
  constructor
  · intro whole
    split at whole
    · cases whole
    · next longer =>
      simp only [Option.some.injEq, Prod.mk.injEq] at whole
      have nonempty : digits ≠ [] := by
        rintro rfl
        exact longer rfl
      exact ⟨_, (readDigits_whole_iff nonempty).mp (Prod.ext rfl whole.2), whole.1.symm⟩
  · rintro ⟨magnitude, run, rfl⟩
    have whole := (readDigits_whole_iff run.nonempty).mpr run
    have longer : ¬ ([] : Bytes).length = digits.length := by
      rw [List.length_nil]
      exact (List.length_pos_iff.mpr run.nonempty).ne
    rw [whole, if_neg longer]

/-- A text spells one number at most. -/
theorem IntegerLiteral.unique {text : Bytes} {first second : Int}
    (left : IntegerLiteral text first) (right : IntegerLiteral text second) : first = second := by
  have same := (scan_whole_iff.mpr left).symm.trans (scan_whole_iff.mpr right)
  exact congrArg Prod.fst (Option.some.inj same)

theorem not_literal_nil {value : Int} : ¬ IntegerLiteral [] value := by
  intro literal
  cases scan_whole_iff.mpr literal

/-- A literal is read to its end, and its value is cut off at the limits. -/
theorem strtol_literal {text : Bytes} {value : Int} (literal : IntegerLiteral text value) :
    strtol text = (max longMin (min longMax value), text.length) := by
  simp only [strtol, scan_whole_iff.mpr literal]
  rfl

/-- `strtol` stops before the end of a text that is no literal. -/
theorem strtol_not_literal {text : Bytes} (nonempty : text ≠ [])
    (other : ∀ value, ¬ IntegerLiteral text value) : (strtol text).2 ≠ text.length := by
  have positive := List.length_pos_iff.mpr nonempty
  unfold strtol
  split
  · exact positive.ne
  · next value rest found =>
    have left : rest ≠ [] := by
      rintro rfl
      exact other value (scan_whole_iff.mp found)
    have some := List.length_pos_iff.mpr left
    simp only
    omega

end IntegerText

end PhpProf
