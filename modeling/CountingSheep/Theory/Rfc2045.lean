/-
# CountingSheep.Theory.Rfc2045 — the media types of RFC 2045, with their parameters

`type "/" subtype *(OWS ";" OWS attribute "=" value)` down to the characters, as
languages of character lists. A quoted value may hold any character, a quote or a
backslash only behind a backslash.

* `mem_token`: a token is a non-empty run of token characters.
* `mem_mediaType`: a media type is its two tokens and then blanks and a tail that
  is empty or begins at the first `;`, whatever the parameters are.
-/
import CountingSheep.Theory.Abnf

namespace CountingSheep.Theory.Rfc2045

open Abnf Computability

set_option autoImplicit false

/-- The characters that end a token. -/
def tspecials : List Char :=
  ['(', ')', '<', '>', '@', ',', ';', ':', '\\', '"', '/', '[', ']', '?', '=']

/-- ASCII without space, controls and `tspecials`. -/
def tokenChar (c : Char) : Bool :=
  0x21 ≤ c.toNat && c.toNat ≤ 0x7E && !tspecials.contains c

def token : Language Char := many (letter tokenChar)

/-- Anything but the quote and the backslash. -/
def qtext (c : Char) : Bool := c ≠ '"' && c ≠ '\\'

def quotedPair : Language Char := word ['\\'] * letter fun _ => true

def quotedString : Language Char := word ['"'] * (letter qtext + quotedPair)∗ * word ['"']

def blank (c : Char) : Bool := c = ' ' || c = '\t'

def ows : Language Char := (letter blank)∗

def parameter : Language Char := token * word ['='] * (token + quotedString)

def mediaType : Language Char := token * word ['/'] * token * (ows * word [';'] * ows * parameter)∗

theorem mem_token {w : List Char} : w ∈ token ↔ w ≠ [] ∧ ∀ c ∈ w, tokenChar c = true :=
  mem_many_letter

/-- Parameters are nothing, or blanks and then a `;`. -/
theorem parameters_le :
    (ows * word [';'] * ows * parameter)∗ ≤ ows * opening (· = ';') := by
  rw [← Language.one_add_self_mul_kstar_eq_kstar]
  apply add_le
  · intro w empty
    rw [(Language.mem_one w).mp empty]
    exact Language.append_mem_mul (a := []) (Language.nil_mem_kstar _) (one_le_opening rfl)
  · rw [mul_assoc, mul_assoc, mul_assoc]
    exact mul_le_mul_right (word_mul_le_opening rfl) ows

theorem mem_mediaType {w : List Char} (derived : w ∈ mediaType) :
    ∃ kind subtype blanks tail, w = kind ++ '/' :: subtype ++ blanks ++ tail ∧ kind ∈ token ∧
      subtype ∈ token ∧ (∀ c ∈ blanks, blank c = true) ∧ (tail = [] ∨ ∃ more, tail = ';' :: more) := by
  obtain ⟨front, essence, parameters, starred, rfl⟩ := Language.mem_mul.mp derived
  obtain ⟨keyed, slashed, subtype, subtypeToken, rfl⟩ := Language.mem_mul.mp essence
  obtain ⟨kind, kindToken, slash, single, rfl⟩ := Language.mem_mul.mp slashed
  obtain ⟨blanks, spaces, tail, opens, rfl⟩ := Language.mem_mul.mp (parameters_le starred)
  rw [ows, kstar_letter] at spaces
  rw [show slash = ['/'] from single]
  refine ⟨kind, subtype, blanks, tail, by simp, kindToken, subtypeToken, spaces, ?_⟩
  cases tail with
  | nil => exact .inl rfl
  | cons c more => exact .inr ⟨more, by rw [of_decide_eq_true (opens c more rfl)]⟩

end CountingSheep.Theory.Rfc2045
