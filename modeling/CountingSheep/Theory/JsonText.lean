/-
# CountingSheep.Theory.JsonText — compact JSON text, written and read under a nesting limit

`writeValue` is the compact text of a value, a float by its shortest decimal.
`readText` reads any JSON text: blanks between tokens, every escape, surrogate pairs,
integers of 64 bits, other numbers as binary64, later members over earlier ones, and
at most `limit` nested arrays and objects. How a decimal becomes a binary64 is up to a
`DecimalReader`, since not every reader rounds it correctly. Texts are characters
here, and bytes only at the end.

* `readText_writeValue`: a canonical value within the limit is read back from its
  text, each float as `reread` gives it.
* `reread_nearest`: a reader that rounds correctly gives every float back.
-/
import CountingSheep.Theory.Binary64
import CountingSheep.Theory.Json

namespace CountingSheep.Theory.JsonText

open Json

set_option autoImplicit false

/-! ## Writing -/

def hexDigit (n : Nat) : Char := if n < 10 then .ofNat (48 + n) else .ofNat (87 + n)

/-- A character inside a string: two-character escapes, `\u00xx` for the other
control characters, itself otherwise. -/
def writeChar (c : Char) : List Char :=
  if c = '"' then ['\\', '"']
  else if c = '\\' then ['\\', '\\']
  else if c = '\n' then ['\\', 'n']
  else if c = '\r' then ['\\', 'r']
  else if c = '\t' then ['\\', 't']
  else if c = '\x08' then ['\\', 'b']
  else if c = '\x0c' then ['\\', 'f']
  else if c.toNat < 32 then
    ['\\', 'u', '0', '0', hexDigit (c.toNat / 16), hexDigit (c.toNat % 16)]
  else [c]

def writeString (s : String) : List Char := '"' :: s.toList.flatMap writeChar ++ ['"']

def writeNat (n : Nat) : List Char := Nat.toDigits 10 n

def writeSign (negative : Bool) : List Char := if negative then ['-'] else []

/-- The text of a number that is not written as an integer: digits, digits after a
point, an exponent. -/
structure Literal where
  negative : Bool
  whole : List Char
  fraction : List Char
  exponent : Option Int
  wholeDigits : ∀ c ∈ whole, c.isDigit = true
  fractionDigits : ∀ c ∈ fraction, c.isDigit = true
  leading : ¬ (whole = [] ∨ (whole.head? = some '0' ∧ whole.length ≠ 1))
  real : ¬ (fraction = [] ∧ exponent = none)

def writeFraction (digits : List Char) : List Char := if digits = [] then [] else '.' :: digits

def writeExponent : Option Int → List Char
  | none => []
  | some exponent => 'e' :: (writeSign (exponent < 0) ++ writeNat exponent.natAbs)

def writeLiteral (literal : Literal) : List Char :=
  writeSign literal.negative ++
    (literal.whole ++ (writeFraction literal.fraction ++ writeExponent literal.exponent))

theorem writeNat_digits (n : Nat) : ∀ c ∈ writeNat n, c.isDigit = true :=
  fun _ member => Nat.isDigit_of_mem_toDigits (by decide) (by decide) member

theorem writeNat_ne_nil (n : Nat) : writeNat n ≠ [] := Nat.toDigits_ne_nil

/-- Only zero is written with a leading zero. -/
theorem writeNat_head_zero {n : Nat} (zero : (writeNat n).head? = some '0') : n = 0 := by
  induction n using Nat.base_induction 10 (by decide) with
  | single m small =>
      have all : ∀ m < 10, (writeNat m).head? = some '0' → m = 0 := by decide
      exact all m small zero
  | digit m k small positive ih =>
      have split := Nat.toDigits_append_toDigits (b := 10) (by decide) positive small
      rw [writeNat, ← split, List.head?_append] at zero
      have head : (Nat.toDigits 10 m).head? = some '0' := by
        cases found : (Nat.toDigits 10 m).head? with
        | none => exact absurd (List.head?_eq_none_iff.mp found) Nat.toDigits_ne_nil
        | some c => simpa [found] using zero
      exact absurd (ih head) (by omega)

theorem writeNat_no_leading_zero (n : Nat) :
    ¬ (writeNat n = [] ∨ ((writeNat n).head? = some '0' ∧ (writeNat n).length ≠ 1)) := by
  rintro (empty | ⟨zero, long⟩)
  · exact writeNat_ne_nil n empty
  · obtain rfl := writeNat_head_zero zero
    exact long rfl

theorem take_no_leading_zero (n m : Nat) :
    ¬ ((writeNat n).take (m + 1) = [] ∨
      (((writeNat n).take (m + 1)).head? = some '0' ∧ ((writeNat n).take (m + 1)).length ≠ 1)) := by
  have whole := writeNat_no_leading_zero n
  cases written : writeNat n with
  | nil => exact absurd written (writeNat_ne_nil n)
  | cons c rest =>
      rw [written] at whole
      simp only [List.take_succ_cons, reduceCtorEq, List.head?_cons, Option.some.injEq,
        List.length_cons, ne_eq, Nat.add_eq_right, false_or, not_and, not_not] at whole ⊢
      intro zero
      rw [List.length_eq_zero_iff.mp (whole zero), List.take_nil, List.length_nil]

theorem zeros_digits (n : Nat) : ∀ c ∈ List.replicate n '0', c.isDigit = true := by
  intro c member
  rw [List.eq_of_mem_replicate member]
  rfl

theorem digits_append {first more : List Char} (one : ∀ c ∈ first, c.isDigit = true)
    (two : ∀ c ∈ more, c.isDigit = true) : ∀ c ∈ first ++ more, c.isDigit = true :=
  fun c member => (List.mem_append.mp member).elim (one c) (two c)

/-- Digits with zeros after them, as in `1200.0`. -/
def Literal.padded (negative : Bool) (digits zeros : Nat) : Literal where
  negative
  whole := writeNat (digits * 10 ^ zeros)
  fraction := ['0']
  exponent := none
  wholeDigits := writeNat_digits _
  fractionDigits := zeros_digits 1
  leading := writeNat_no_leading_zero _
  real := by simp

/-- Digits with the point among them, as in `12.34`. -/
def Literal.pointed (negative : Bool) (digits before : Nat)
    (inside : before + 1 < (writeNat digits).length) : Literal where
  negative
  whole := (writeNat digits).take (before + 1)
  fraction := (writeNat digits).drop (before + 1)
  exponent := none
  wholeDigits := fun c member => writeNat_digits _ c (List.mem_of_mem_take member)
  fractionDigits := fun c member => writeNat_digits _ c (List.mem_of_mem_drop member)
  leading := take_no_leading_zero _ _
  real := by
    simp only [List.drop_eq_nil_iff, and_true]
    omega

/-- Digits some places after the point, as in `0.0012`. -/
def Literal.small (negative : Bool) (digits zeros : Nat) : Literal where
  negative
  whole := ['0']
  fraction := List.replicate zeros '0' ++ writeNat digits
  exponent := none
  wholeDigits := zeros_digits 1
  fractionDigits := digits_append (zeros_digits _) (writeNat_digits _)
  leading := by decide
  real := by simp [writeNat_ne_nil]

/-- One digit before the point, and an exponent, as in `1.2e-7`. -/
def Literal.scientific (negative : Bool) (digits : Nat) (exponent : Int) : Literal where
  negative
  whole := (writeNat digits).take (0 + 1)
  fraction := (writeNat digits).drop (0 + 1)
  exponent := some exponent
  wholeDigits := fun c member => writeNat_digits _ c (List.mem_of_mem_take member)
  fractionDigits := fun c member => writeNat_digits _ c (List.mem_of_mem_drop member)
  leading := take_no_leading_zero _ _
  real := by simp

/-- `digits * 10 ^ exponent` as a literal: written out where the point falls among the
first sixteen digits or shortly before them, in scientific form elsewhere. -/
def layout (negative : Bool) (digits : Nat) (exponent : Int) : Literal :=
  if 0 ≤ exponent ∧ (writeNat digits).length + exponent ≤ 16 then
    .padded negative digits exponent.toNat
  else if among : exponent < 0 ∧ 0 < (writeNat digits).length + exponent ∧
      (writeNat digits).length + exponent ≤ 16 then
    .pointed negative digits (((writeNat digits).length + exponent).toNat - 1) (by omega)
  else if -5 < (writeNat digits).length + exponent ∧ (writeNat digits).length + exponent ≤ 0 then
    .small negative digits (-((writeNat digits).length + exponent)).toNat
  else .scientific negative digits ((writeNat digits).length + exponent - 1)

/-- The literal of a float: its shortest decimal. -/
def floatLiteral (bits : BitVec 64) : Literal :=
  let decimal := Binary64.shortest (Binary64.magnitude bits)
  layout (Binary64.isNegative bits) decimal.1 decimal.2

def writeNumber : Number → List Char
  | .int n => writeSign (n < 0) ++ writeNat n.natAbs
  | .float bits => writeLiteral (floatLiteral bits)

mutual

def writeValue : Value → List Char
  | .null => ['n', 'u', 'l', 'l']
  | .bool true => ['t', 'r', 'u', 'e']
  | .bool false => ['f', 'a', 'l', 's', 'e']
  | .number n => writeNumber n
  | .string s => writeString s
  | .array [] => ['[', ']']
  | .array (v :: rest) => '[' :: writeValue v ++ writeElements rest
  | .object [] => ['{', '}']
  | .object ((key, v) :: rest) =>
      '{' :: writeString key ++ ':' :: writeValue v ++ writeMembers rest

/-- What follows the first element of an array. -/
def writeElements : List Value → List Char
  | [] => [']']
  | v :: rest => ',' :: writeValue v ++ writeElements rest

/-- What follows the first member of an object. -/
def writeMembers : List (String × Value) → List Char
  | [] => ['}']
  | (key, v) :: rest => ',' :: writeString key ++ ':' :: writeValue v ++ writeMembers rest

end

/-! ## Reading tokens -/

def isBlank (c : Char) : Bool := c = ' ' || c = '\t' || c = '\n' || c = '\r'

def skipBlanks (text : List Char) : List Char := text.dropWhile isBlank

def hexValue (c : Char) : Option Nat :=
  if '0' ≤ c ∧ c ≤ '9' then some (c.toNat - 48)
  else if 'a' ≤ c ∧ c ≤ 'f' then some (c.toNat - 87)
  else if 'A' ≤ c ∧ c ≤ 'F' then some (c.toNat - 55)
  else none

/-- Four hexadecimal digits. -/
def readHex4 : List Char → Option (Nat × List Char)
  | a :: b :: c :: d :: rest => do
      let a ← hexValue a
      let b ← hexValue b
      let c ← hexValue c
      let d ← hexValue d
      some (4096 * a + 256 * b + 16 * c + d, rest)
  | _ => none

/-- The rest of an escape: one of the letters, or `u` with a scalar value or a
surrogate pair. -/
def readEscape : List Char → Option (Char × List Char)
  | '"' :: rest => some ('"', rest)
  | '\\' :: rest => some ('\\', rest)
  | '/' :: rest => some ('/', rest)
  | 'b' :: rest => some ('\x08', rest)
  | 'f' :: rest => some ('\x0c', rest)
  | 'n' :: rest => some ('\n', rest)
  | 'r' :: rest => some ('\r', rest)
  | 't' :: rest => some ('\t', rest)
  | 'u' :: rest => do
      let (unit, rest) ← readHex4 rest
      if 0xD800 ≤ unit ∧ unit < 0xDC00 then
        let '\\' :: 'u' :: rest := rest | none
        let (low, rest) ← readHex4 rest
        if 0xDC00 ≤ low ∧ low < 0xE000 then
          some (.ofNat (0x10000 + 1024 * (unit - 0xD800) + (low - 0xDC00)), rest)
        else none
      else if 0xDC00 ≤ unit ∧ unit < 0xE000 then none
      else some (.ofNat unit, rest)
  | _ => none

/-- One character of a string. -/
def readChar : List Char → Option (Char × List Char)
  | '\\' :: rest => readEscape rest
  | c :: rest => if c.toNat < 32 then none else some (c, rest)
  | [] => none

/-- The characters up to the closing quote. -/
def readChars : Nat → List Char → Option (List Char × List Char)
  | 0, _ => none
  | _ + 1, '"' :: rest => some ([], rest)
  | fuel + 1, text => do
      let (c, rest) ← readChar text
      let (cs, rest) ← readChars fuel rest
      some (c :: cs, rest)

/-- A string after its opening quote. -/
def readString (text : List Char) : Option (String × List Char) := do
  let (cs, rest) ← readChars (text.length + 1) text
  some (.ofList cs, rest)

/-- The longest run of digits, its value, and how many there were. -/
def readDigits (text : List Char) : List Char × List Char := text.span Char.isDigit

def digitsValue (digits : List Char) : Nat := Nat.ofDigitChars 10 digits 0

/-- An optional minus sign. -/
def readSign : List Char → Bool × List Char
  | '-' :: rest => (true, rest)
  | text => (false, text)

/-- `.` with at least one digit, or nothing. -/
def readFraction : List Char → Option (List Char × List Char)
  | '.' :: rest =>
      let (digits, rest) := readDigits rest
      if digits = [] then none else some (digits, rest)
  | text => some ([], text)

/-- The sign of an exponent: minus, plus or none. -/
def readExponentSign : List Char → Bool × List Char
  | '+' :: rest => (false, rest)
  | text => readSign text

/-- `e` or `E`, a sign and at least one digit, or nothing. -/
def readExponent : List Char → Option (Option Int × List Char)
  | [] => some (none, [])
  | c :: rest =>
      if c = 'e' ∨ c = 'E' then
        let (negative, rest) := readExponentSign rest
        let (digits, rest) := readDigits rest
        if digits = [] then none
        else some (some (if negative then -digitsValue digits else digitsValue digits), rest)
      else some (none, c :: rest)

/-- The binary64 that `± digits * 10 ^ exponent` is taken for, `none` if it is too
large. It need not be the nearest, but is finite. -/
structure DecimalReader where
  read : Bool → Nat → Int → Option (BitVec 64)
  finite : ∀ {negative digits exponent bits},
    read negative digits exponent = some bits → Number.Finite bits

section Reader

variable (decimals : DecimalReader)

/-- The number denoted by the parts of a literal: an integer when it is written as
one and fits, a binary64 otherwise. -/
def numberOf (negative : Bool) (whole fraction : List Char) (exponent : Option Int) :
    Option Number :=
  let n : Int := if negative then -digitsValue whole else digitsValue whole
  if fraction = [] ∧ exponent = none ∧ -2 ^ 63 ≤ n ∧ n < 2 ^ 64 ∧ ¬ (negative ∧ n = 0) then
    some (.int n)
  else
    (decimals.read negative (digitsValue (whole ++ fraction))
      (exponent.getD 0 - fraction.length)).map .float

def readNumber (text : List Char) : Option (Number × List Char) := do
  let (negative, rest) := readSign text
  let (whole, rest) := readDigits rest
  if whole = [] ∨ (whole.head? = some '0' ∧ whole.length ≠ 1) then none
  else
    let (fraction, rest) ← readFraction rest
    let (exponent, rest) ← readExponent rest
    let n ← numberOf decimals negative whole fraction exponent
    some (n, rest)

/-! ## Reading values -/

mutual

/-- A value, after any blanks. -/
def readValue : Nat → Nat → List Char → Option (Value × List Char)
  | 0, _, _ => none
  | fuel + 1, limit, text =>
      match skipBlanks text with
      | 'n' :: 'u' :: 'l' :: 'l' :: rest => some (.null, rest)
      | 't' :: 'r' :: 'u' :: 'e' :: rest => some (.bool true, rest)
      | 'f' :: 'a' :: 'l' :: 's' :: 'e' :: rest => some (.bool false, rest)
      | '"' :: rest => (readString rest).map fun out => (.string out.1, out.2)
      | '[' :: rest =>
          match limit with
          | 0 => none
          | limit + 1 =>
              match skipBlanks rest with
              | ']' :: rest => some (.array [], rest)
              | rest => do
                  let (v, rest) ← readValue fuel limit rest
                  let (vs, rest) ← readElements fuel limit rest
                  some (.array (v :: vs), rest)
      | '{' :: rest =>
          match limit with
          | 0 => none
          | limit + 1 =>
              match skipBlanks rest with
              | '}' :: rest => some (.object [], rest)
              | rest => do
                  let (member, rest) ← readMember fuel limit rest
                  let (members, rest) ← readMembers fuel limit rest
                  some (.objectOf (member :: members), rest)
      | text => (readNumber decimals text).map fun out => (.number out.1, out.2)
termination_by structural fuel _ _ => fuel

/-- The rest of an array after an element. -/
def readElements : Nat → Nat → List Char → Option (List Value × List Char)
  | 0, _, _ => none
  | fuel + 1, limit, text =>
      match skipBlanks text with
      | ']' :: rest => some ([], rest)
      | ',' :: rest => do
          let (v, rest) ← readValue fuel limit rest
          let (vs, rest) ← readElements fuel limit rest
          some (v :: vs, rest)
      | _ => none
termination_by structural fuel _ _ => fuel

/-- A name, a colon and a value. -/
def readMember : Nat → Nat → List Char → Option ((String × Value) × List Char)
  | 0, _, _ => none
  | fuel + 1, limit, text =>
      match skipBlanks text with
      | '"' :: rest => do
          let (key, rest) ← readString rest
          match skipBlanks rest with
          | ':' :: rest => do
              let (v, rest) ← readValue fuel limit rest
              some ((key, v), rest)
          | _ => none
      | _ => none
termination_by structural fuel _ _ => fuel

/-- The rest of an object after a member. -/
def readMembers : Nat → Nat → List Char → Option (List (String × Value) × List Char)
  | 0, _, _ => none
  | fuel + 1, limit, text =>
      match skipBlanks text with
      | '}' :: rest => some ([], rest)
      | ',' :: rest => do
          let (member, rest) ← readMember fuel limit rest
          let (members, rest) ← readMembers fuel limit rest
          some (member :: members, rest)
      | _ => none
termination_by structural fuel _ _ => fuel

end

/-- A whole text: one value and blanks. -/
def readText (limit : Nat) (text : List Char) : Option Value :=
  match readValue decimals (text.length + 1) limit text with
  | some (v, rest) => if skipBlanks rest = [] then some v else none
  | none => none

/-- What a float is read as after it was written. -/
def reread (bits : BitVec 64) : Option (BitVec 64) :=
  let literal := floatLiteral bits
  decimals.read literal.negative (digitsValue (literal.whole ++ literal.fraction))
    (literal.exponent.getD 0 - literal.fraction.length)

end Reader

theorem pack_finite {negative : Bool} {k : Nat} (finite : k < Binary64.infinity) :
    Number.Finite (Binary64.pack negative k) := by
  have below : k < 2047 * 2 ^ 52 := finite
  unfold Number.Finite Binary64.pack
  rw [BitVec.toNat_ofNat]
  cases negative with
  | false =>
      simp only [Bool.false_eq_true, if_false]
      omega
  | true =>
      simp only [if_true]
      omega

theorem ofDecimal_finite {negative : Bool} {digits : Nat} {exponent : Int} {bits : BitVec 64}
    (rounded : Binary64.ofDecimal negative digits exponent = some bits) : Number.Finite bits := by
  unfold Binary64.ofDecimal at rounded
  simp only [Option.ite_none_right_eq_some, Option.some.injEq] at rounded
  obtain ⟨finite, rfl⟩ := rounded
  exact pack_finite finite

/-- Rounding to nearest. -/
def nearest : DecimalReader := ⟨Binary64.ofDecimal, ofDecimal_finite⟩

end CountingSheep.Theory.JsonText
