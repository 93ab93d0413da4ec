/-
# CountingSheep.Theory.JsonRoundTrip — what is written is read back

One lemma per token, each for a text with anything after it, then the values by
induction: `readValue_writeValue` for a value followed by a separator,
`readElements_writeElements` and `readMembers_writeMembers` for what follows the
first entry. The fuel a reader needs is the length of what it reads, and the
nesting limit it needs is the depth of what was written. A value comes back with
its floats reread, so a float that is refused refuses the whole text.
-/
import CountingSheep.Theory.JsonText
import CountingSheep.Theory.Margins

namespace CountingSheep.Theory.JsonText

open Json

set_option autoImplicit false

/-! ## Strings -/

theorem hexValue_hexDigit {n : Nat} (digit : n < 16) : hexValue (hexDigit n) = some n := by
  have all : ∀ n < 16, hexValue (hexDigit n) = some n := by decide
  exact all n digit

theorem readChar_plain {c : Char} (rest : List Char) (backslash : c ≠ '\\') (printable : ¬ c.toNat < 32) :
    readChar (c :: rest) = some (c, rest) := by
  unfold readChar
  split
  · rename_i same
    cases same
    exact absurd rfl backslash
  · rename_i same
    cases same
    exact if_neg printable
  · rename_i same
    cases same

/-- The characters with an escape of two characters. -/
def shortEscapes : List Char := ['"', '\\', '\n', '\r', '\t', '\x08', '\x0c']

theorem writeChar_of_short {c : Char} (short : c ∈ shortEscapes) :
    ∃ second, writeChar c = ['\\', second] ∧ ∀ rest, readChar ('\\' :: second :: rest) = some (c, rest) := by
  revert c
  simp only [shortEscapes, List.forall_mem_cons, List.not_mem_nil, false_implies, implies_true, and_true]
  exact ⟨⟨_, rfl, fun _ => rfl⟩, ⟨_, rfl, fun _ => rfl⟩, ⟨_, rfl, fun _ => rfl⟩, ⟨_, rfl, fun _ => rfl⟩,
    ⟨_, rfl, fun _ => rfl⟩, ⟨_, rfl, fun _ => rfl⟩, ⟨_, rfl, fun _ => rfl⟩⟩

theorem writeChar_of_not_short {c : Char} (other : c ∉ shortEscapes) :
    writeChar c =
      if c.toNat < 32 then ['\\', 'u', '0', '0', hexDigit (c.toNat / 16), hexDigit (c.toNat % 16)]
      else [c] := by
  simp only [shortEscapes, List.mem_cons, List.not_mem_nil, or_false, not_or] at other
  obtain ⟨quote, backslash, newline, carriage, tab, backspace, formFeed⟩ := other
  rw [writeChar, if_neg quote, if_neg backslash, if_neg newline, if_neg carriage, if_neg tab,
    if_neg backspace, if_neg formFeed]

/-- A control character is read back from its four hexadecimal digits. -/
theorem readChar_control {c : Char} (rest : List Char) (control : c.toNat < 32) :
    readChar ('\\' :: 'u' :: '0' :: '0' :: hexDigit (c.toNat / 16) :: hexDigit (c.toNat % 16) :: rest) =
      some (c, rest) := by
  have high : hexValue (hexDigit (c.toNat / 16)) = some (c.toNat / 16) := hexValue_hexDigit (by omega)
  have low : hexValue (hexDigit (c.toNat % 16)) = some (c.toNat % 16) := hexValue_hexDigit (by omega)
  have zero : hexValue '0' = some 0 := rfl
  have total : 4096 * 0 + 256 * 0 + 16 * (c.toNat / 16) + c.toNat % 16 = c.toNat := by omega
  have scalar : ¬ (0xD800 ≤ c.toNat ∧ c.toNat < 0xDC00) := by omega
  have scalar' : ¬ (0xDC00 ≤ c.toNat ∧ c.toNat < 0xE000) := by omega
  simp only [readChar, readEscape, readHex4, zero, high, low, Option.bind_eq_bind, Option.bind_some,
    total, scalar, scalar', if_false, Char.ofNat_toNat]

theorem readChar_writeChar (c : Char) (rest : List Char) :
    readChar (writeChar c ++ rest) = some (c, rest) := by
  by_cases short : c ∈ shortEscapes
  · obtain ⟨second, written, read⟩ := writeChar_of_short short
    rw [written]
    exact read rest
  · rw [writeChar_of_not_short short]
    by_cases control : c.toNat < 32
    · rw [if_pos control]
      exact readChar_control rest control
    · have backslash : c ≠ '\\' := by
        rintro rfl
        exact short (by decide)
      rw [if_neg control]
      exact readChar_plain rest backslash control

theorem writeChar_head (c : Char) : ∃ first more, writeChar c = first :: more ∧ first ≠ '"' := by
  by_cases short : c ∈ shortEscapes
  · obtain ⟨second, written, -⟩ := writeChar_of_short short
    exact ⟨_, _, written, by decide⟩
  · rw [writeChar_of_not_short short]
    by_cases control : c.toNat < 32
    · rw [if_pos control]
      exact ⟨_, _, rfl, by decide⟩
    · rw [if_neg control]
      refine ⟨_, _, rfl, ?_⟩
      rintro rfl
      exact short (by decide)

theorem readChars_step {fuel : Nat} {first : Char} {rest : List Char} (quote : first ≠ '"') :
    readChars (fuel + 1) (first :: rest) = (readChar (first :: rest)).bind fun out =>
      (readChars fuel out.2).map fun more => (out.1 :: more.1, more.2) := by
  rw [readChars]
  · simp only [Option.bind_eq_bind]
    congr 1
    funext out
    rw [Option.map_eq_bind]
    rfl
  · rintro _ ⟨⟩
    exact quote rfl

theorem readChars_writeChars (cs rest : List Char) {fuel : Nat} (enough : cs.length < fuel) :
    readChars fuel (cs.flatMap writeChar ++ '"' :: rest) = some (cs, rest) := by
  induction cs generalizing fuel with
  | nil =>
      obtain ⟨fuel, rfl⟩ := Nat.exists_eq_add_one_of_ne_zero (Nat.ne_zero_of_lt enough)
      rfl
  | cons c cs ih =>
      obtain ⟨fuel, rfl⟩ := Nat.exists_eq_add_one_of_ne_zero (Nat.ne_zero_of_lt enough)
      have fewer : cs.length < fuel := by simpa using enough
      have more := ih fewer
      have read := readChar_writeChar c (cs.flatMap writeChar ++ '"' :: rest)
      obtain ⟨first, tail, written, quote⟩ := writeChar_head c
      rw [written, List.cons_append] at read
      rw [List.flatMap_cons, List.append_assoc, written, List.cons_append, readChars_step quote, read]
      simp only [Option.bind_some, more, Option.map_some]

theorem length_le_flatMap_writeChar (cs : List Char) : cs.length ≤ (cs.flatMap writeChar).length := by
  induction cs with
  | nil => exact Nat.le_refl _
  | cons c cs ih =>
      obtain ⟨first, tail, written, -⟩ := writeChar_head c
      simp only [List.flatMap_cons, List.length_append, List.length_cons, written]
      omega

/-- A string, from after its opening quote. -/
theorem readString_writeString (s : String) (rest : List Char) :
    readString (s.toList.flatMap writeChar ++ '"' :: rest) = some (s, rest) := by
  have enough := length_le_flatMap_writeChar s.toList
  rw [readString, readChars_writeChars _ _ (by rw [List.length_append]; omega)]
  simp only [Option.bind_eq_bind, Option.bind_some, String.ofList_toList]

theorem writeString_append (s : String) (rest : List Char) :
    writeString s ++ rest = '"' :: (s.toList.flatMap writeChar ++ '"' :: rest) := by
  simp only [writeString, List.cons_append, List.append_assoc, List.nil_append]

/-! ## Numbers -/

/-- A text whose first character cannot continue a number. -/
def EndsNumber (rest : List Char) : Prop :=
  ∀ c ∈ rest.head?, c.isDigit = false ∧ c ≠ '.' ∧ c ≠ 'e' ∧ c ≠ 'E'

theorem readDigits_append {digits : List Char} (rest : List Char) (all : ∀ c ∈ digits, c.isDigit = true)
    (stop : ∀ c ∈ rest.head?, c.isDigit = false) : readDigits (digits ++ rest) = (digits, rest) :=
  Margins.span_append all stop

theorem digitsValue_writeNat (n : Nat) : digitsValue (writeNat n) = n :=
  Nat.ofDigitChars_ten_toDigits

/-- A text that a minus sign does not start. -/
theorem readSign_digits {digits : List Char} (rest : List Char) (some_digit : digits ≠ [])
    (all : ∀ c ∈ digits, c.isDigit = true) (negative : Bool) :
    readSign (writeSign negative ++ (digits ++ rest)) = (negative, digits ++ rest) := by
  cases negative with
  | true => rfl
  | false =>
      cases digits with
      | nil => exact absurd rfl some_digit
      | cons c tail =>
          have minus : c ≠ '-' := by
            rintro rfl
            exact absurd (all '-' List.mem_cons_self) (by decide)
          change readSign (c :: (tail ++ rest)) = _
          unfold readSign
          split
          · rename_i same
            cases same
            exact absurd rfl minus
          · rfl

theorem readFraction_writeFraction {digits : List Char} (all : ∀ c ∈ digits, c.isDigit = true)
    {rest : List Char} (stop : ∀ c ∈ rest.head?, c.isDigit = false ∧ c ≠ '.') :
    readFraction (writeFraction digits ++ rest) = some (digits, rest) := by
  by_cases empty : digits = []
  · subst empty
    simp only [writeFraction, if_true, List.nil_append]
    unfold readFraction
    split
    · exact absurd rfl (stop '.' rfl).2
    · rfl
  · have run := readDigits_append rest all fun c member => (stop c member).1
    simp only [writeFraction, empty, if_false, List.cons_append, readFraction, run]

theorem readExponentSign_digits {digits : List Char} (rest : List Char) (some_digit : digits ≠ [])
    (all : ∀ c ∈ digits, c.isDigit = true) (negative : Bool) :
    readExponentSign (writeSign negative ++ (digits ++ rest)) = (negative, digits ++ rest) := by
  have sign := readSign_digits rest some_digit all negative
  unfold readExponentSign
  split
  · next same =>
      cases negative with
      | true => cases same
      | false =>
          cases digits with
          | nil => exact absurd rfl some_digit
          | cons c tail =>
              cases same
              exact absurd (all '+' List.mem_cons_self) (by decide)
  · exact sign

theorem readExponent_writeExponent (exponent : Option Int) {rest : List Char}
    (stop : EndsNumber rest) : readExponent (writeExponent exponent ++ rest) = some (exponent, rest) := by
  cases exponent with
  | none =>
      cases rest with
      | nil => rfl
      | cons c rest =>
          obtain ⟨-, -, lower, upper⟩ := stop c rfl
          simp [writeExponent, readExponent, lower, upper]
  | some e =>
      have digits := readDigits_append rest (writeNat_digits e.natAbs) fun c member => (stop c member).1
      have sign := readExponentSign_digits rest (writeNat_ne_nil e.natAbs) (writeNat_digits _) (e < 0)
      have value : (if e < 0 then -(e.natAbs : Int) else e.natAbs) = e := by
        split <;> omega
      simp only [writeExponent, List.cons_append, List.append_assoc, readExponent, true_or, if_true,
        sign, digits, writeNat_ne_nil, if_false, decide_eq_true_eq, digitsValue_writeNat, value]

theorem writeExponent_stop (exponent : Option Int) {rest : List Char} (stop : EndsNumber rest) :
    ∀ c ∈ (writeExponent exponent ++ rest).head?, c.isDigit = false ∧ c ≠ '.' := by
  cases exponent with
  | none => exact fun c member => ⟨(stop c member).1, (stop c member).2.1⟩
  | some e =>
      rintro _ ⟨⟩
      decide

theorem finite_iff {bits : BitVec 64} :
    Number.Finite bits ↔ Binary64.magnitude bits < Binary64.infinity := by
  have width := bits.isLt
  simp only [Number.Finite, Binary64.magnitude, Binary64.infinity]
  omega

section Numbers

variable (decimals : DecimalReader)

/-- The parts of a number, read one after the other. -/
theorem readNumber_parts (negative : Bool) {whole fraction : List Char} (exponent : Option Int)
    {rest : List Char} (wholeDigits : ∀ c ∈ whole, c.isDigit = true)
    (fractionDigits : ∀ c ∈ fraction, c.isDigit = true)
    (leading : ¬ (whole = [] ∨ (whole.head? = some '0' ∧ whole.length ≠ 1))) (stop : EndsNumber rest) :
    readNumber decimals
        (writeSign negative ++ (whole ++ (writeFraction fraction ++ (writeExponent exponent ++ rest)))) =
      (numberOf decimals negative whole fraction exponent).map fun n => (n, rest) := by
  have nonempty : whole ≠ [] := fun empty => leading (.inl empty)
  have after := writeExponent_stop exponent stop
  have point : ∀ c ∈ (writeFraction fraction ++ (writeExponent exponent ++ rest)).head?,
      c.isDigit = false := by
    by_cases empty : fraction = []
    · simp only [writeFraction, empty, if_true, List.nil_append]
      exact fun c member => (after c member).1
    · simp only [writeFraction, empty, if_false, List.cons_append, List.head?_cons]
      rintro _ ⟨⟩
      decide
  have run := readDigits_append _ wholeDigits point
  simp only [readNumber, readSign_digits _ nonempty wholeDigits, run, leading, if_false,
    readFraction_writeFraction fractionDigits after, readExponent_writeExponent exponent stop,
    Option.bind_eq_bind, Option.bind_some, Option.map_eq_bind]
  rfl

theorem numberOf_int {n : Int} (lower : -2 ^ 63 ≤ n) (upper : n < 2 ^ 64) :
    numberOf decimals (n < 0) (writeNat n.natAbs) [] none = some (.int n) := by
  have value : (if decide (n < 0) = true then -(n.natAbs : Int) else n.natAbs) = n := by
    simp only [decide_eq_true_eq]
    split <;> omega
  have signed : ¬ (decide (n < 0) = true ∧ n = 0) := by
    rintro ⟨negative, rfl⟩
    exact absurd negative (by decide)
  simp only [numberOf, digitsValue_writeNat, value]
  exact if_pos ⟨trivial, trivial, lower, upper, signed⟩

theorem numberOf_literal (literal : Literal) :
    numberOf decimals literal.negative literal.whole literal.fraction literal.exponent =
      (decimals.read literal.negative (digitsValue (literal.whole ++ literal.fraction))
        (literal.exponent.getD 0 - literal.fraction.length)).map .float := by
  have real := literal.real
  unfold numberOf
  exact if_neg fun all => real ⟨all.1, all.2.1⟩

/-- A number as it comes back: an integer as it was, a float reread. -/
theorem readNumber_writeNumber {n : Number} (representable : n.Representable) {rest : List Char}
    (stop : EndsNumber rest) :
    (readNumber decimals (writeNumber n ++ rest)).map (fun out => (Value.number out.1, out.2)) =
      (mapFloats (reread decimals) (.number n)).map fun v => (v, rest) := by
  cases n with
  | int n =>
      have read := @readNumber_parts decimals (n < 0) _ [] none _ (writeNat_digits n.natAbs) (by simp)
        (writeNat_no_leading_zero _) stop
      rw [numberOf_int decimals representable.1 representable.2] at read
      rw [writeNumber, List.append_assoc]
      exact congrArg (Option.map fun out => (Value.number out.1, out.2)) read
  | float bits =>
      have read := readNumber_parts decimals (floatLiteral bits).negative (floatLiteral bits).exponent
        (floatLiteral bits).wholeDigits (floatLiteral bits).fractionDigits (floatLiteral bits).leading stop
      rw [numberOf_literal] at read
      rw [writeNumber, writeLiteral]
      simp only [List.append_assoc]
      rw [read, mapFloats, reread]
      simp only [Option.map_map]
      rfl

end Numbers

/-! ## Rounding to nearest -/

theorem digitsValue_append_zero (digits : List Char) :
    digitsValue (digits ++ ['0']) = digitsValue digits * 10 ^ 1 := by
  rw [digitsValue, Nat.ofDigitChars_append, ← digitsValue]
  simp [Nat.ofDigitChars_cons, Nat.mul_comm]

theorem digitsValue_zeros (n : Nat) (digits : List Char) :
    digitsValue (List.replicate n '0' ++ digits) = digitsValue digits := by
  rw [digitsValue, Nat.ofDigitChars_append, Nat.ofDigitChars_replicate_zero, Nat.mul_zero, digitsValue]

/-- The decimal that a literal denotes, up to zeros at the end. -/
def Literal.Denotes (literal : Literal) (digits : Nat) (exponent : Int) : Prop :=
  ∃ zeros : Nat, digitsValue (literal.whole ++ literal.fraction) = digits * 10 ^ zeros ∧
    literal.exponent.getD 0 - literal.fraction.length = exponent - zeros

/-- The digits of a number, cut anywhere. -/
theorem denotes_cut {literal : Literal} {digits before : Nat} {exponent : Int}
    (whole : literal.whole = (writeNat digits).take before)
    (fraction : literal.fraction = (writeNat digits).drop before)
    (shifted : literal.exponent.getD 0 - ((writeNat digits).length - before : Nat) = exponent) :
    literal.Denotes digits exponent := by
  refine ⟨0, ?_, ?_⟩
  · rw [whole, fraction, List.take_append_drop, digitsValue_writeNat, pow_zero, Nat.mul_one]
  · rw [fraction, List.length_drop, shifted, Int.ofNat_zero, Int.sub_zero]

theorem denotes_padded (negative : Bool) (digits zeros : Nat) :
    (Literal.padded negative digits zeros).Denotes digits zeros := by
  refine ⟨zeros + 1, ?_, ?_⟩
  · rw [Literal.padded, digitsValue_append_zero, digitsValue_writeNat, pow_add, Nat.mul_assoc]
  · simp only [Literal.padded, Option.getD_none, List.length_cons, List.length_nil]
    omega

theorem denotes_small (negative : Bool) (digits zeros : Nat) :
    (Literal.small negative digits zeros).Denotes digits (-(zeros + (writeNat digits).length)) := by
  refine ⟨0, ?_, ?_⟩
  · have padded : ['0'] ++ (List.replicate zeros '0' ++ writeNat digits) =
        List.replicate (zeros + 1) '0' ++ writeNat digits := rfl
    rw [Literal.small, padded, digitsValue_zeros, digitsValue_writeNat, pow_zero, Nat.mul_one]
  · simp only [Literal.small, Option.getD_none, List.length_append, List.length_replicate]
    omega

theorem layout_denotes (negative : Bool) (digits : Nat) (exponent : Int) :
    (layout negative digits exponent).Denotes digits exponent := by
  have positive := List.length_pos_iff.mpr (writeNat_ne_nil digits)
  unfold layout
  split_ifs with plain among near
  · have denotes := denotes_padded negative digits exponent.toNat
    rwa [Int.toNat_of_nonneg plain.1] at denotes
  · refine denotes_cut rfl rfl ?_
    simp only [Literal.pointed, Option.getD_none]
    omega
  · have denotes := denotes_small negative digits (-((writeNat digits).length + exponent)).toNat
    have exact_exponent : -((((-((writeNat digits).length + exponent)).toNat : Int)) +
        (writeNat digits).length) = exponent := by omega
    rwa [exact_exponent] at denotes
  · refine denotes_cut rfl rfl ?_
    simp only [Literal.scientific, Option.getD_some]
    omega

theorem layout_negative (negative : Bool) (digits : Nat) (exponent : Int) :
    (layout negative digits exponent).negative = negative := by
  unfold layout
  split_ifs <;> rfl

/-- **A reader that rounds to nearest gives every float back.** -/
theorem reread_nearest {bits : BitVec 64} (finite : Number.Finite bits) :
    reread nearest bits = some bits := by
  obtain ⟨zeros, value, exponent⟩ := layout_denotes (Binary64.isNegative bits)
    (Binary64.shortest (Binary64.magnitude bits)).1 (Binary64.shortest (Binary64.magnitude bits)).2
  simp only [reread, floatLiteral, value, exponent, layout_negative]
  exact (Binary64.ofDecimal_scaled _ _ _ _).trans (Binary64.ofDecimal_shortest (finite_iff.mp finite))

/-! ## Values -/

/-- A character that a value's text starts with. -/
def StartsValue (c : Char) : Prop := isBlank c = false ∧ c ≠ ']' ∧ c ≠ '}'

theorem numeric_ne {c d : Char} (numeric : c.isDigit = true ∨ c = '-') (other : d.isDigit = false)
    (minus : d ≠ '-') : c ≠ d := by
  rintro rfl
  rcases numeric with digit | rfl
  · rw [digit] at other
    cases other
  · exact minus rfl

theorem isDigit_or_minus_starts {c : Char} (numeric : c.isDigit = true ∨ c = '-') :
    StartsValue c := by
  have different := fun d => @numeric_ne c d numeric
  refine ⟨?_, different ']' rfl (by decide), different '}' rfl (by decide)⟩
  simp only [isBlank, different ' ' rfl (by decide), different '\t' rfl (by decide),
    different '\n' rfl (by decide), different '\r' rfl (by decide), decide_false, Bool.or_self]

theorem digits_head {digits : List Char} (negative : Bool) (text : List Char)
    (all : ∀ c ∈ digits, c.isDigit = true) (some_digit : digits ≠ []) :
    ∃ c more, writeSign negative ++ (digits ++ text) = c :: more ∧ (c.isDigit = true ∨ c = '-') := by
  cases negative with
  | true => exact ⟨'-', _, rfl, .inr rfl⟩
  | false =>
      cases digits with
      | nil => exact absurd rfl some_digit
      | cons c tail => exact ⟨c, tail ++ text, rfl, .inl (all c List.mem_cons_self)⟩

theorem writeNumber_head (n : Number) : ∃ c more, writeNumber n = c :: more ∧
    (c.isDigit = true ∨ c = '-') := by
  cases n with
  | int n =>
      have head := digits_head (n < 0) [] (writeNat_digits n.natAbs) (writeNat_ne_nil _)
      rwa [List.append_nil] at head
  | float bits =>
      exact digits_head _ _ (floatLiteral bits).wholeDigits fun empty =>
        (floatLiteral bits).leading (.inl empty)

theorem writeValue_head (v : Value) : ∃ c more, writeValue v = c :: more ∧ StartsValue c := by
  have starts : ∀ c ∈ ['n', 't', 'f', '"', '[', '{'], StartsValue c := by
    simp only [StartsValue, List.forall_mem_cons, List.not_mem_nil, false_implies, implies_true]
    decide
  cases v with
  | null => exact ⟨'n', _, rfl, starts _ (by simp)⟩
  | bool b => cases b with
    | true => exact ⟨'t', _, rfl, starts _ (by simp)⟩
    | false => exact ⟨'f', _, rfl, starts _ (by simp)⟩
  | number n =>
      obtain ⟨c, more, written, numeric⟩ := writeNumber_head n
      exact ⟨c, more, written, isDigit_or_minus_starts numeric⟩
  | string s => exact ⟨'"', _, rfl, starts _ (by simp)⟩
  | array elements => cases elements with
    | nil => exact ⟨'[', _, rfl, starts _ (by simp)⟩
    | cons v rest => exact ⟨'[', _, rfl, starts _ (by simp)⟩
  | object members => cases members with
    | nil => exact ⟨'{', _, rfl, starts _ (by simp)⟩
    | cons member rest =>
        obtain ⟨key, v⟩ := member
        exact ⟨'{', _, rfl, starts _ (by simp)⟩

theorem skipBlanks_cons {c : Char} (rest : List Char) (plain : isBlank c = false) :
    skipBlanks (c :: rest) = c :: rest := by
  simp [skipBlanks, plain]

section Values

variable (decimals : DecimalReader)

theorem readValue_numeric {c : Char} (numeric : c.isDigit = true ∨ c = '-') (fuel limit : Nat)
    (rest : List Char) : readValue decimals (fuel + 1) limit (c :: rest) =
      (readNumber decimals (c :: rest)).map fun out => (.number out.1, out.2) := by
  have different := fun d => @numeric_ne c d numeric
  rw [readValue, skipBlanks_cons rest (isDigit_or_minus_starts numeric).1]
  split
  · rename_i same; cases same; exact absurd rfl (different 'n' rfl (by decide))
  · rename_i same; cases same; exact absurd rfl (different 't' rfl (by decide))
  · rename_i same; cases same; exact absurd rfl (different 'f' rfl (by decide))
  · rename_i same; cases same; exact absurd rfl (different '"' rfl (by decide))
  · rename_i same; cases same; exact absurd rfl (different '[' rfl (by decide))
  · rename_i same; cases same; exact absurd rfl (different '{' rfl (by decide))
  · rfl

theorem readValue_array {fuel limit : Nat} {c : Char} {rest : List Char} (starts : StartsValue c) :
    readValue decimals (fuel + 1) (limit + 1) ('[' :: c :: rest) =
      (readValue decimals fuel limit (c :: rest)).bind fun first =>
        (readElements decimals fuel limit first.2).map fun more => (.array (first.1 :: more.1), more.2) := by
  rw [readValue, skipBlanks_cons _ (by decide)]
  simp only [skipBlanks_cons rest starts.1]
  split
  · rename_i same
    cases same
    exact absurd rfl starts.2.1
  · rename_i same
    simp only [Option.bind_eq_bind, Option.map_eq_bind]
    rfl

theorem readValue_object {fuel limit : Nat} {rest : List Char} :
    readValue decimals (fuel + 1) (limit + 1) ('{' :: '"' :: rest) =
      (readMember decimals fuel limit ('"' :: rest)).bind fun first =>
        (readMembers decimals fuel limit first.2).map fun more =>
          (.objectOf (first.1 :: more.1), more.2) := by
  rw [readValue, skipBlanks_cons _ (by decide)]
  simp only [skipBlanks_cons (c := '"') rest (by decide), Option.bind_eq_bind, Option.map_eq_bind]
  rfl

theorem objectOf_ascending {members : List (String × Value)} (sorted : Ascending members) :
    Value.objectOf members = .object members := by
  have built : members.foldl (fun m p => Json.insert p.1 p.2 m) [] = [] ++ members :=
    foldl_insert_ascending sorted
  rw [Value.objectOf, built, List.nil_append]

/-- What may follow a value inside an array or an object ends a number. -/
theorem endsNumber_separator {c : Char} (separator : c = ',' ∨ c = ']' ∨ c = '}')
    (rest : List Char) : EndsNumber (c :: rest) := by
  rintro _ ⟨⟩
  rcases separator with rfl | rfl | rfl <;> decide

theorem endsNumber_elements (vs : List Value) (rest : List Char) :
    EndsNumber (writeElements vs ++ rest) := by
  cases vs with
  | nil => exact endsNumber_separator (by simp) _
  | cons v vs => exact endsNumber_separator (by simp) _

theorem endsNumber_members (ms : List (String × Value)) (rest : List Char) :
    EndsNumber (writeMembers ms ++ rest) := by
  cases ms with
  | nil => exact endsNumber_separator (by simp) _
  | cons m ms => exact endsNumber_separator (by simp) _

mutual

/-- **A value within the limit is read back with its floats reread**, whatever separator
follows. -/
theorem readValue_writeValue : ∀ (v : Value) (limit fuel : Nat) (rest : List Char),
    Canonical v → depth v ≤ limit → (writeValue v).length ≤ fuel → EndsNumber rest →
      readValue decimals fuel limit (writeValue v ++ rest) =
        (mapFloats (reread decimals) v).map fun v => (v, rest)
  | v, limit, 0, rest, _, _, enough, _ => by
      obtain ⟨c, more, written, -⟩ := writeValue_head v
      simp [written] at enough
  | .null, limit, fuel + 1, rest, _, _, _, _ => by
      rw [writeValue, readValue]
      rfl
  | .bool true, limit, fuel + 1, rest, _, _, _, _ => by
      rw [writeValue, readValue]
      rfl
  | .bool false, limit, fuel + 1, rest, _, _, _, _ => by
      rw [writeValue, readValue]
      rfl
  | .number n, limit, fuel + 1, rest, canonical, _, _, stop => by
      have read := readNumber_writeNumber decimals canonical stop
      obtain ⟨c, more, written, numeric⟩ := writeNumber_head n
      rw [written, List.cons_append] at read
      rw [writeValue, written, List.cons_append, readValue_numeric decimals numeric]
      exact read
  | .string s, limit, fuel + 1, rest, _, _, _, _ => by
      rw [writeValue, writeString_append, readValue, skipBlanks_cons _ (by decide)]
      simp only [readString_writeString, Option.map_some, mapFloats]
  | .array [], limit, fuel + 1, rest, _, within, _, _ => by
      simp only [depth] at within
      obtain ⟨limit, rfl⟩ := Nat.exists_eq_add_one_of_ne_zero (n := limit) (by omega)
      rw [writeValue, readValue]
      rfl
  | .array (v :: vs), limit, fuel + 1, rest, canonical, within, enough, _ => by
      simp only [depth, depthElements] at within
      obtain ⟨limit, rfl⟩ := Nat.exists_eq_add_one_of_ne_zero (n := limit) (by omega)
      simp only [writeValue, List.length_cons, List.length_append] at enough
      have first := readValue_writeValue v limit fuel _ canonical.1 (by omega)
        (by omega) (endsNumber_elements vs rest)
      have more := readElements_writeElements vs limit fuel rest canonical.2 (by omega) (by omega)
      obtain ⟨c, tail, written, starts⟩ := writeValue_head v
      rw [written, List.cons_append] at first
      rw [writeValue, written]
      simp only [List.cons_append, List.append_assoc]
      rw [readValue_array decimals starts, first, mapFloats, mapFloatsElements]
      cases mapFloats (reread decimals) v with
      | none => rfl
      | some w => simp only [Option.map_some, Option.bind_some, more, Option.map_map, Function.comp_def]
  | .object [], limit, fuel + 1, rest, _, within, _, _ => by
      simp only [depth] at within
      obtain ⟨limit, rfl⟩ := Nat.exists_eq_add_one_of_ne_zero (n := limit) (by omega)
      rw [writeValue, readValue]
      rfl
  | .object ((key, v) :: ms), limit, fuel + 1, rest, canonical, within, enough, _ => by
      simp only [depth, depthMembers] at within
      obtain ⟨limit, rfl⟩ := Nat.exists_eq_add_one_of_ne_zero (n := limit) (by omega)
      simp only [writeValue, List.length_cons, List.length_append] at enough
      have first := readMember_writeValue key v limit fuel _ canonical.2.1
        (by omega) (by simp only [List.length_cons, List.length_append]; omega)
        (endsNumber_members ms rest)
      have more := readMembers_writeMembers ms limit fuel rest canonical.2.2 (by omega) (by omega)
      have sorted : ∀ ms', mapFloatsMembers (reread decimals) ((key, v) :: ms) = some ms' →
          Ascending ms' := fun _ => ascending_mapFloatsMembers canonical.1
      rw [writeString_append] at first
      simp only [writeValue, List.cons_append, List.append_assoc, writeString_append]
      rw [readValue_object decimals, first, mapFloats]
      simp only [mapFloatsMembers] at sorted ⊢
      cases read : mapFloats (reread decimals) v with
      | none => rfl
      | some w =>
          simp only [Option.map_some, Option.bind_some, more, Option.map_map, Function.comp_def]
          cases mapped : mapFloatsMembers (reread decimals) ms with
          | none => rfl
          | some ms' =>
              have ascending : Ascending ((key, w) :: ms') := sorted _ (by rw [read, mapped]; rfl)
              simp only [Option.map_some, objectOf_ascending ascending]
termination_by _ _ fuel => fuel

theorem readMember_writeValue : ∀ (key : String) (v : Value) (limit fuel : Nat) (rest : List Char),
    Canonical v → depth v ≤ limit → (writeString key ++ ':' :: writeValue v).length ≤ fuel →
      EndsNumber rest →
        readMember decimals fuel limit (writeString key ++ ':' :: (writeValue v ++ rest)) =
          (mapFloats (reread decimals) v).map fun v => ((key, v), rest)
  | key, v, limit, 0, rest, _, _, enough, _ => by simp [writeString] at enough
  | key, v, limit, fuel + 1, rest, canonical, within, enough, stop => by
      simp only [List.length_cons, List.length_append] at enough
      have value := readValue_writeValue v limit fuel rest canonical within (by omega) stop
      rw [writeString_append, readMember, skipBlanks_cons _ (by decide)]
      simp only [readString_writeString, Option.bind_eq_bind, Option.bind_some,
        skipBlanks_cons (c := ':') _ (by decide), value]
      cases mapFloats (reread decimals) v <;> rfl
termination_by _ _ _ fuel => fuel

theorem readElements_writeElements : ∀ (vs : List Value) (limit fuel : Nat) (rest : List Char),
    CanonicalElements vs → depthElements vs ≤ limit → (writeElements vs).length ≤ fuel →
      readElements decimals fuel limit (writeElements vs ++ rest) =
        (mapFloatsElements (reread decimals) vs).map fun vs => (vs, rest)
  | vs, limit, 0, rest, _, _, enough => by
      cases vs <;> simp [writeElements] at enough
  | [], limit, fuel + 1, rest, _, _, _ => rfl
  | v :: vs, limit, fuel + 1, rest, canonical, within, enough => by
      simp only [depthElements] at within
      simp only [writeElements, List.length_cons, List.length_append] at enough
      have first := readValue_writeValue v limit fuel _ canonical.1 (by omega)
        (by omega) (endsNumber_elements vs rest)
      have more := readElements_writeElements vs limit fuel rest canonical.2 (by omega) (by omega)
      rw [writeElements]
      simp only [List.cons_append, List.append_assoc]
      rw [readElements, skipBlanks_cons _ (by decide), mapFloatsElements]
      simp only [first, Option.bind_eq_bind]
      cases mapFloats (reread decimals) v with
      | none => rfl
      | some w =>
          simp only [Option.map_some, Option.bind_some, more]
          cases mapFloatsElements (reread decimals) vs <;> rfl
termination_by _ _ fuel => fuel

theorem readMembers_writeMembers : ∀ (ms : List (String × Value)) (limit fuel : Nat)
    (rest : List Char), CanonicalMembers ms → depthMembers ms ≤ limit →
      (writeMembers ms).length ≤ fuel →
        readMembers decimals fuel limit (writeMembers ms ++ rest) =
          (mapFloatsMembers (reread decimals) ms).map fun ms => (ms, rest)
  | ms, limit, 0, rest, _, _, enough => by
      rcases ms with _ | ⟨⟨key, v⟩, ms⟩ <;> simp [writeMembers] at enough
  | [], limit, fuel + 1, rest, _, _, _ => rfl
  | (key, v) :: ms, limit, fuel + 1, rest, canonical, within, enough => by
      simp only [depthMembers] at within
      simp only [writeMembers, List.length_cons, List.length_append] at enough
      have first := readMember_writeValue key v limit fuel _ canonical.1
        (by omega) (by simp only [List.length_cons, List.length_append]; omega)
        (endsNumber_members ms rest)
      have more := readMembers_writeMembers ms limit fuel rest canonical.2 (by omega) (by omega)
      rw [writeMembers]
      simp only [List.cons_append, List.append_assoc]
      rw [readMembers, skipBlanks_cons _ (by decide), mapFloatsMembers]
      simp only [first, Option.bind_eq_bind]
      cases mapFloats (reread decimals) v with
      | none => rfl
      | some w =>
          simp only [Option.map_some, Option.bind_some, more]
          cases mapFloatsMembers (reread decimals) ms <;> rfl
termination_by _ _ fuel => fuel

end

/-- **The reader inverts the writer on what the reader can hold**, but for the floats it
reads as others. -/
theorem readText_writeValue {v : Value} {limit : Nat} (canonical : Canonical v)
    (within : depth v ≤ limit) :
    readText decimals limit (writeValue v) = mapFloats (reread decimals) v := by
  have read := readValue_writeValue decimals v limit ((writeValue v).length + 1) [] canonical within
    (Nat.le_succ _) (fun _ none => nomatch none)
  rw [List.append_nil] at read
  rw [readText, read]
  cases mapFloats (reread decimals) v <;> rfl

end Values

end CountingSheep.Theory.JsonText
