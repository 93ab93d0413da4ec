/-
# CountingSheep.Theory.Rfc3986 — the URI grammar of RFC 3986, appendix A

The productions, under their names there, as languages of character lists, down
to the characters. Literal letters of the grammar match in either case.

* `absoluteUri_le`: an absolute URI is made of URI characters other than `#`.
* `relativeRef_guarded`: in a relative reference, no colon comes before the first
  `/`, `?` or `#`.
* `mem_scheme`: a scheme is a letter followed by scheme characters.
* `uriReference_le`: the characters of a reference, for what cannot be one.
-/
import CountingSheep.Theory.Abnf

namespace CountingSheep.Theory.Rfc3986

open Abnf Computability

set_option autoImplicit false

/-! ## Characters -/

/-- `HEXDIG` -/
def hexdig (c : Char) : Bool := c.isDigit || ('a' ≤ c && c ≤ 'f') || ('A' ≤ c && c ≤ 'F')

/-- `unreserved` -/
def unreserved (c : Char) : Bool :=
  c.isAlpha || c.isDigit || ['-', '.', '_', '~'].contains c

/-- `sub-delims` -/
def subDelims (c : Char) : Bool :=
  ['!', '$', '&', '\'', '(', ')', '*', '+', ',', ';', '='].contains c

/-- What follows the first letter of a scheme. -/
def schemeRest (c : Char) : Bool := c.isAlpha || c.isDigit || ['+', '-', '.'].contains c

/-! ## The grammar -/

def pctEncoded : Language Char := word ['%'] * letter hexdig * letter hexdig

def pchar : Language Char :=
  letter unreserved + pctEncoded + letter subDelims + word [':'] + word ['@']

def segment : Language Char := pchar∗

def segmentNz : Language Char := many pchar

def segmentNzNc : Language Char :=
  many (letter unreserved + pctEncoded + letter subDelims + word ['@'])

def pathAbempty : Language Char := (word ['/'] * segment)∗

def pathAbsolute : Language Char := word ['/'] * optional (segmentNz * (word ['/'] * segment)∗)

def pathNoscheme : Language Char := segmentNzNc * (word ['/'] * segment)∗

def pathRootless : Language Char := segmentNz * (word ['/'] * segment)∗

def pathEmpty : Language Char := 1

def query : Language Char := (pchar + word ['/'] + word ['?'])∗

def fragment : Language Char := (pchar + word ['/'] + word ['?'])∗

def decOctet : Language Char :=
  letter Char.isDigit + letter (fun c => '1' ≤ c && c ≤ '9') * letter Char.isDigit +
    word ['1'] * letter Char.isDigit ^ 2 +
    word ['2'] * letter (fun c => '0' ≤ c && c ≤ '4') * letter Char.isDigit +
    word ['2', '5'] * letter (fun c => '0' ≤ c && c ≤ '5')

def ipv4Address : Language Char :=
  decOctet * word ['.'] * decOctet * word ['.'] * decOctet * word ['.'] * decOctet

def h16 : Language Char := between 1 4 (letter hexdig)

def ls32 : Language Char := h16 * word [':'] * h16 + ipv4Address

def h16Colon : Language Char := h16 * word [':']

def ipv6Address : Language Char :=
  h16Colon ^ 6 * ls32 +
    word [':', ':'] * h16Colon ^ 5 * ls32 +
    optional h16 * word [':', ':'] * h16Colon ^ 4 * ls32 +
    optional (atMost 1 h16Colon * h16) * word [':', ':'] * h16Colon ^ 3 * ls32 +
    optional (atMost 2 h16Colon * h16) * word [':', ':'] * h16Colon ^ 2 * ls32 +
    optional (atMost 3 h16Colon * h16) * word [':', ':'] * h16Colon * ls32 +
    optional (atMost 4 h16Colon * h16) * word [':', ':'] * ls32 +
    optional (atMost 5 h16Colon * h16) * word [':', ':'] * h16 +
    optional (atMost 6 h16Colon * h16) * word [':', ':']

def ipvFuture : Language Char :=
  letter (fun c => c = 'v' || c = 'V') * many (letter hexdig) * word ['.'] *
    many (letter unreserved + letter subDelims + word [':'])

def ipLiteral : Language Char := word ['['] * (ipv6Address + ipvFuture) * word [']']

def regName : Language Char := (letter unreserved + pctEncoded + letter subDelims)∗

def host : Language Char := ipLiteral + ipv4Address + regName

def port : Language Char := (letter Char.isDigit)∗

def userinfo : Language Char := (letter unreserved + pctEncoded + letter subDelims + word [':'])∗

def authority : Language Char := optional (userinfo * word ['@']) * host * optional (word [':'] * port)

def scheme : Language Char := letter Char.isAlpha * (letter schemeRest)∗

def hierPart : Language Char :=
  word ['/', '/'] * authority * pathAbempty + pathAbsolute + pathRootless + pathEmpty

def relativePart : Language Char :=
  word ['/', '/'] * authority * pathAbempty + pathAbsolute + pathNoscheme + pathEmpty

def absoluteUri : Language Char := scheme * word [':'] * hierPart * optional (word ['?'] * query)

def uri : Language Char := absoluteUri * optional (word ['#'] * fragment)

def relativeRef : Language Char :=
  relativePart * optional (word ['?'] * query) * optional (word ['#'] * fragment)

def uriReference : Language Char := uri + relativeRef

/-! ## Characters, by number -/

theorem isAlpha_iff {c : Char} : c.isAlpha = true ↔
    65 ≤ c.toNat ∧ c.toNat ≤ 90 ∨ 97 ≤ c.toNat ∧ c.toNat ≤ 122 := by
  simp only [Char.isAlpha, Char.isUpper, Char.isLower, Bool.or_eq_true, Bool.and_eq_true,
    decide_eq_true_eq, UInt32.le_iff_toNat_le, ge_iff_le]
  rfl

theorem isDigit_iff {c : Char} : c.isDigit = true ↔ 48 ≤ c.toNat ∧ c.toNat ≤ 57 := by
  simp only [Char.isDigit, Bool.and_eq_true, decide_eq_true_eq, UInt32.le_iff_toNat_le, ge_iff_le]
  rfl

theorem range_iff {c lo hi : Char} :
    (lo ≤ c && c ≤ hi) = true ↔ lo.toNat ≤ c.toNat ∧ c.toNat ≤ hi.toNat := by
  simp only [Bool.and_eq_true, decide_eq_true_eq, Char.le_def, UInt32.le_iff_toNat_le]
  rfl

/-! ## The characters of a URI -/

/-- The characters of a URI other than the `#` before its fragment. -/
def uriChar (c : Char) : Bool :=
  unreserved c || subDelims c || ['%', ':', '/', '?', '@', '[', ']'].contains c

theorem uriChar_visible {c : Char} (inside : uriChar c = true) : 33 ≤ c.toNat ∧ c.toNat ≤ 126 := by
  have marks : ∀ d ∈ ['-', '.', '_', '~'] ++ ['!', '$', '&', '\'', '(', ')', '*', '+', ',', ';', '='] ++
      ['%', ':', '/', '?', '@', '[', ']'], 33 ≤ d.toNat ∧ d.toNat ≤ 126 := by
    simp only [List.cons_append, List.nil_append, List.forall_mem_cons, List.not_mem_nil,
      false_implies, implies_true]
    decide
  simp only [uriChar, unreserved, subDelims, Bool.or_eq_true, List.contains_iff_mem] at inside
  rcases inside with ((((alpha | digit) | plain) | delim) | mark)
  · have bounds := isAlpha_iff.mp alpha
    omega
  · have bounds := isDigit_iff.mp digit
    omega
  · exact marks c (List.mem_append_left _ (List.mem_append_left _ plain))
  · exact marks c (List.mem_append_left _ (List.mem_append_right _ delim))
  · exact marks c (List.mem_append_right _ mark)

theorem uriChar_ne_hash {c : Char} (inside : uriChar c = true) : c ≠ '#' := by
  rintro rfl
  exact absurd inside (by decide)

theorem unreserved_uriChar (c : Char) (plain : unreserved c = true) : uriChar c = true := by
  simp [uriChar, plain]

theorem subDelims_uriChar (c : Char) (delim : subDelims c = true) : uriChar c = true := by
  simp [uriChar, delim]

theorem isAlpha_uriChar (c : Char) (alpha : c.isAlpha = true) : uriChar c = true := by
  simp [uriChar, unreserved, alpha]

theorem isDigit_uriChar (c : Char) (digit : c.isDigit = true) : uriChar c = true := by
  simp [uriChar, unreserved, digit]

theorem hexdig_uriChar (c : Char) (hex : hexdig c = true) : uriChar c = true := by
  rw [hexdig, Bool.or_assoc, Bool.or_eq_true, Bool.or_eq_true, range_iff, range_iff] at hex
  rcases hex with digit | lower | upper
  · exact isDigit_uriChar c digit
  · have bounds : 97 ≤ c.toNat ∧ c.toNat ≤ 102 := lower
    exact isAlpha_uriChar c (isAlpha_iff.mpr (by omega))
  · have bounds : 65 ≤ c.toNat ∧ c.toNat ≤ 70 := upper
    exact isAlpha_uriChar c (isAlpha_iff.mpr (by omega))

theorem schemeRest_uriChar (c : Char) (rest : schemeRest c = true) : uriChar c = true := by
  have marks : ∀ d ∈ ['+', '-', '.'], uriChar d = true := List.all_eq_true.mp (by decide)
  simp only [schemeRest, Bool.or_eq_true, List.contains_iff_mem] at rest
  rcases rest with (alpha | digit) | mark
  · exact isAlpha_uriChar c alpha
  · exact isDigit_uriChar c digit
  · exact marks c mark

/-- Some digits. -/
theorem range_uriChar {lo hi : Char} (digits : 48 ≤ lo.toNat ∧ hi.toNat ≤ 57) (c : Char)
    (inside : (lo ≤ c && c ≤ hi) = true) : uriChar c = true := by
  have bounds := range_iff.mp inside
  exact isDigit_uriChar c (isDigit_iff.mpr (by omega))

/-! ## Productions over URI characters -/

section Productions

theorem pctEncoded_le : pctEncoded ≤ spelled uriChar := by
  have hex : letter hexdig ≤ spelled uriChar := letter_le_spelled hexdig_uriChar
  apply mul_le_spelled _ hex
  exact mul_le_spelled (word_le_spelled (by decide)) hex

theorem plain_le : letter unreserved + pctEncoded + letter subDelims ≤ spelled uriChar :=
  add_le_spelled (add_le_spelled (letter_le_spelled unreserved_uriChar) pctEncoded_le)
    (letter_le_spelled subDelims_uriChar)

theorem pchar_le : pchar ≤ spelled uriChar := by
  apply add_le_spelled
  · exact add_le_spelled plain_le (word_le_spelled (by decide))
  · exact word_le_spelled (by decide)

theorem segment_le : segment ≤ spelled uriChar := kstar_le_spelled pchar_le

theorem segmentNz_le : segmentNz ≤ spelled uriChar := many_le_spelled pchar_le

theorem segments_le : (word ['/'] * segment)∗ ≤ spelled uriChar :=
  kstar_le_spelled (mul_le_spelled (word_le_spelled (by decide)) segment_le)

theorem segmentNzNc_le : segmentNzNc ≤ spelled uriChar :=
  many_le_spelled (add_le_spelled plain_le (word_le_spelled (by decide)))

theorem pathAbsolute_le : pathAbsolute ≤ spelled uriChar := by
  apply mul_le_spelled (word_le_spelled (by decide))
  apply optional_le_spelled
  exact mul_le_spelled segmentNz_le segments_le

theorem pathNoscheme_le : pathNoscheme ≤ spelled uriChar := mul_le_spelled segmentNzNc_le segments_le

theorem pathRootless_le : pathRootless ≤ spelled uriChar := mul_le_spelled segmentNz_le segments_le

theorem query_le : query ≤ spelled uriChar := by
  apply kstar_le_spelled
  apply add_le_spelled
  · exact add_le_spelled pchar_le (word_le_spelled (by decide))
  · exact word_le_spelled (by decide)

theorem decOctet_le : decOctet ≤ spelled uriChar := by
  have digit : letter Char.isDigit ≤ spelled uriChar := letter_le_spelled isDigit_uriChar
  apply add_le_spelled (add_le_spelled (add_le_spelled (add_le_spelled digit _) _) _)
  · apply mul_le_spelled (word_le_spelled (by decide))
    exact letter_le_spelled (range_uriChar (by decide))
  · apply mul_le_spelled _ digit
    exact letter_le_spelled (range_uriChar (by decide))
  · exact mul_le_spelled (word_le_spelled (by decide)) (pow_le_spelled digit 2)
  · apply mul_le_spelled _ digit
    apply mul_le_spelled (word_le_spelled (by decide))
    exact letter_le_spelled (range_uriChar (by decide))

theorem ipv4Address_le : ipv4Address ≤ spelled uriChar := by
  have next : ∀ {l : Language Char}, l ≤ spelled uriChar →
      l * word ['.'] * decOctet ≤ spelled uriChar := by
    intro l before
    apply mul_le_spelled _ decOctet_le
    exact mul_le_spelled before (word_le_spelled (by decide))
  exact next (next (next decOctet_le))

theorem h16_le : h16 ≤ spelled uriChar := between_le_spelled 1 4 (letter_le_spelled hexdig_uriChar)

theorem h16Colon_le : h16Colon ≤ spelled uriChar := mul_le_spelled h16_le (word_le_spelled (by decide))

theorem ls32_le : ls32 ≤ spelled uriChar := by
  apply add_le_spelled _ ipv4Address_le
  exact mul_le_spelled h16Colon_le h16_le

theorem ipv6Address_le : ipv6Address ≤ spelled uriChar := by
  have colons : word [':', ':'] ≤ spelled uriChar := word_le_spelled (by decide)
  have groups : ∀ n, optional (atMost n h16Colon * h16) * word [':', ':'] ≤ spelled uriChar := by
    intro n
    apply mul_le_spelled _ colons
    apply optional_le_spelled
    exact mul_le_spelled (atMost_le_spelled n h16Colon_le) h16_le
  have more : ∀ n, h16Colon ^ n ≤ spelled uriChar := fun n => pow_le_spelled h16Colon_le n
  -- The nine forms, by where the `::` stands.
  apply add_le_spelled _ (groups 6)
  apply add_le_spelled _ (mul_le_spelled (groups 5) h16_le)
  apply add_le_spelled _ (mul_le_spelled (groups 4) ls32_le)
  apply add_le_spelled _ (mul_le_spelled (mul_le_spelled (groups 3) h16Colon_le) ls32_le)
  apply add_le_spelled _ (mul_le_spelled (mul_le_spelled (groups 2) (more 2)) ls32_le)
  apply add_le_spelled _ (mul_le_spelled (mul_le_spelled (groups 1) (more 3)) ls32_le)
  apply add_le_spelled
  · apply add_le_spelled (mul_le_spelled (more 6) ls32_le)
    exact mul_le_spelled (mul_le_spelled colons (more 5)) ls32_le
  · apply mul_le_spelled _ ls32_le
    apply mul_le_spelled _ (more 4)
    exact mul_le_spelled (optional_le_spelled h16_le) colons

theorem ipvFuture_le : ipvFuture ≤ spelled uriChar := by
  have version : letter (fun c => c = 'v' || c = 'V') ≤ spelled uriChar := by
    apply letter_le_spelled
    intro c either
    simp only [Bool.or_eq_true, decide_eq_true_eq] at either
    rcases either with rfl | rfl <;> decide
  have rest : letter unreserved + letter subDelims + word [':'] ≤ spelled uriChar := by
    apply add_le_spelled _ (word_le_spelled (by decide))
    exact add_le_spelled (letter_le_spelled unreserved_uriChar) (letter_le_spelled subDelims_uriChar)
  apply mul_le_spelled _ (many_le_spelled rest)
  apply mul_le_spelled _ (word_le_spelled (by decide))
  exact mul_le_spelled version (many_le_spelled (letter_le_spelled hexdig_uriChar))

theorem host_le : host ≤ spelled uriChar := by
  have literal : ipLiteral ≤ spelled uriChar := by
    apply mul_le_spelled _ (word_le_spelled (by decide))
    apply mul_le_spelled (word_le_spelled (by decide))
    exact add_le_spelled ipv6Address_le ipvFuture_le
  apply add_le_spelled _ (kstar_le_spelled plain_le)
  exact add_le_spelled literal ipv4Address_le

theorem authority_le : authority ≤ spelled uriChar := by
  have user : userinfo ≤ spelled uriChar := by
    apply kstar_le_spelled
    exact add_le_spelled plain_le (word_le_spelled (by decide))
  have port : port ≤ spelled uriChar := kstar_le_spelled (letter_le_spelled isDigit_uriChar)
  apply mul_le_spelled
  · apply mul_le_spelled _ host_le
    apply optional_le_spelled
    exact mul_le_spelled user (word_le_spelled (by decide))
  · apply optional_le_spelled
    exact mul_le_spelled (word_le_spelled (by decide)) port

theorem netPath_le : word ['/', '/'] * authority * pathAbempty ≤ spelled uriChar := by
  apply mul_le_spelled _ segments_le
  exact mul_le_spelled (word_le_spelled (by decide)) authority_le

theorem scheme_le : scheme ≤ spelled uriChar :=
  mul_le_spelled (letter_le_spelled isAlpha_uriChar) (kstar_le_spelled (letter_le_spelled schemeRest_uriChar))

theorem queryPart_le : optional (word ['?'] * query) ≤ spelled uriChar :=
  optional_le_spelled (mul_le_spelled (word_le_spelled (by decide)) query_le)

/-- **An absolute URI is made of URI characters.** -/
theorem absoluteUri_le : absoluteUri ≤ spelled uriChar := by
  have hier : hierPart ≤ spelled uriChar := by
    apply add_le_spelled _ one_le_spelled
    exact add_le_spelled (add_le_spelled netPath_le pathAbsolute_le) pathRootless_le
  apply mul_le_spelled _ queryPart_le
  apply mul_le_spelled _ hier
  exact mul_le_spelled scheme_le (word_le_spelled (by decide))

/-- The characters of a URI reference, the `#` before its fragment included. -/
def referenceChar (c : Char) : Bool := uriChar c || c = '#'

theorem referenceChar_of_uriChar (c : Char) (inside : uriChar c = true) : referenceChar c = true := by
  simp [referenceChar, inside]

theorem fragmentPart_le : optional (word ['#'] * fragment) ≤ spelled referenceChar := by
  apply optional_le_spelled
  apply mul_le_spelled (word_le_spelled (by decide))
  exact query_le.trans (spelled_mono referenceChar_of_uriChar)

theorem uriReference_le : uriReference ≤ spelled referenceChar := by
  have relative : relativePart ≤ spelled uriChar := by
    apply add_le_spelled _ one_le_spelled
    exact add_le_spelled (add_le_spelled netPath_le pathAbsolute_le) pathNoscheme_le
  have widen : spelled uriChar ≤ spelled referenceChar := spelled_mono referenceChar_of_uriChar
  refine add_le_spelled (mul_le_spelled (absoluteUri_le.trans widen) fragmentPart_le) ?_
  exact mul_le_spelled ((mul_le_spelled relative queryPart_le).trans widen) fragmentPart_le

end Productions

/-! ## Where a reference has its first colon -/

/-- A `/`, `?` or `#`, which no scheme has. -/
def stops (c : Char) : Bool := ['/', '?', '#'].contains c

theorem segmentNzNc_noColon : segmentNzNc ≤ spelled fun c => uriChar c && c != ':' := by
  have narrow : ∀ {P : Char → Bool}, (∀ c, P c = true → uriChar c = true) → P ':' = false →
      letter P ≤ spelled fun c => uriChar c && c != ':' := by
    intro P inside without
    apply letter_le_spelled
    intro c holds
    have different : c ≠ ':' := by
      rintro rfl
      rw [without] at holds
      cases holds
    simp [inside c holds, different]
  have hex := narrow hexdig_uriChar (by decide)
  have percent : pctEncoded ≤ spelled fun c => uriChar c && c != ':' :=
    mul_le_spelled (mul_le_spelled (word_le_spelled (by decide)) hex) hex
  apply many_le_spelled
  apply add_le_spelled _ (word_le_spelled (by decide))
  apply add_le_spelled _ (narrow subDelims_uriChar (by decide))
  exact add_le_spelled (narrow unreserved_uriChar (by decide)) percent

/-- **No colon of a relative reference comes before its first `/`, `?` or `#`.** -/
theorem relativeRef_guarded : relativeRef ≤ guarded ':' stops := by
  have colon : stops ':' = false := by decide
  have segments : (word ['/'] * segment)∗ ≤ opening stops :=
    kstar_le_opening (word_mul_le_opening (by decide))
  have queryPart : optional (word ['?'] * query) ≤ opening stops :=
    optional_le_opening (word_mul_le_opening (by decide))
  have fragmentPart : optional (word ['#'] * fragment) ≤ opening stops :=
    optional_le_opening (word_mul_le_opening (by decide))
  have netPath : word ['/', '/'] * authority * pathAbempty ≤ guarded ':' stops := by
    rw [mul_assoc]
    exact (word_mul_le_opening (by decide)).trans (opening_le_guarded colon)
  have absolute : pathAbsolute ≤ guarded ':' stops :=
    (word_mul_le_opening (by decide)).trans (opening_le_guarded colon)
  have noscheme : pathNoscheme ≤ guarded ':' stops :=
    mul_le_guarded colon (segmentNzNc_noColon.trans (spelled_le_guarded (by decide))) segments
  have empty : pathEmpty ≤ guarded ':' stops := one_le_opening.trans (opening_le_guarded colon)
  have part : relativePart ≤ guarded ':' stops :=
    add_le (add_le (add_le netPath absolute) noscheme) empty
  exact mul_le_guarded colon (mul_le_guarded colon part queryPart) fragmentPart

/-- A scheme is a letter and scheme characters. -/
theorem mem_scheme {w : List Char} :
    w ∈ scheme ↔ ∃ c rest, w = c :: rest ∧ c.isAlpha = true ∧ ∀ d ∈ rest, schemeRest d = true := by
  rw [scheme, kstar_letter]
  constructor
  · intro derived
    obtain ⟨u, ⟨c, alpha, rfl⟩, rest, inside, rfl⟩ := Language.mem_mul.mp derived
    exact ⟨c, rest, rfl, alpha, inside⟩
  · intro shape
    obtain ⟨c, rest, rfl, alpha, inside⟩ := shape
    exact Language.append_mem_mul (a := [c]) ⟨c, alpha, rfl⟩ inside

end CountingSheep.Theory.Rfc3986
