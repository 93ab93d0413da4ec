/-
# CountingSheep.Ingest.MediaType — what `isMediaType` accepts

The check takes what comes before the first `;`, trims it, cuts it at the first
`/`, and scans both parts for token characters. `Essence` is the description this
comes to, without order of operations: two tokens around a slash, Unicode
whitespace on either side, and then nothing or a `;` and anything at all.

* `isMediaType_iff`: the check decides `Essence`.
* `isMediaType_accepts_exactly`: so it refuses no media type of RFC 2045, and what
  follows the first `;` has no influence.
-/
import CountingSheep.Ingest.Sheep
import CountingSheep.Theory.Margins
import CountingSheep.Theory.Rfc2045

namespace CountingSheep.Ingest

open Rust
open Theory.Margins
open Theory.Abnf (letter word kstar_letter)
open Theory.Rfc2045 (token tokenChar qtext blank ows quotedPair quotedString parameter
  mem_token mem_mediaType)
open Computability

set_option autoImplicit false

/-- Two tokens around a slash, between whitespace, and then nothing or a `;` and anything. -/
def Essence (w : List Char) : Prop :=
  ∃ before kind subtype after rest, w = before ++ kind ++ '/' :: subtype ++ after ++ rest ∧
    (∀ c ∈ before, isWhitespace c = true) ∧ kind ∈ token ∧ subtype ∈ token ∧
    (∀ c ∈ after, isWhitespace c = true) ∧ (rest = [] ∨ ∃ more, rest = ';' :: more)

/-! ## Tokens -/

theorem isToken_iff {part : List Char} : isToken part = true ↔ part ∈ token := by
  rw [mem_token, isToken, Bool.and_eq_true, List.all_eq_true]
  apply and_congr
  · simp
  · exact Iff.rfl

theorem not_whitespace_of_tokenChar {c : Char} (inside : tokenChar c = true) :
    isWhitespace c = false := by
  simp only [tokenChar, Bool.and_eq_true, decide_eq_true_eq] at inside
  obtain ⟨⟨lower, upper⟩, -⟩ := inside
  simp only [isWhitespace, Bool.or_eq_false_iff, Bool.and_eq_false_iff, decide_eq_false_iff_not]
  omega

theorem not_mem_token {c : Char} {part : List Char} (outside : tokenChar c = false)
    (derived : part ∈ token) : c ∉ part := by
  intro member
  have inside := (mem_token.mp derived).2 c member
  rw [outside] at inside
  cases inside

theorem semicolon_not_mem_whitespace {l : List Char} (blank : ∀ c ∈ l, isWhitespace c = true) :
    ';' ∉ l := by
  intro member
  exact absurd (blank ';' member) (by decide)

theorem not_whitespace_of_essence {kind subtype : List Char} (kindToken : kind ∈ token)
    (subtypeToken : subtype ∈ token) : ∀ c ∈ kind ++ '/' :: subtype, isWhitespace c = false := by
  intro c member
  rcases List.mem_append.mp member with inKind | later
  · exact not_whitespace_of_tokenChar ((mem_token.mp kindToken).2 c inKind)
  · rcases List.mem_cons.mp later with rfl | inSubtype
    · decide
    · exact not_whitespace_of_tokenChar ((mem_token.mp subtypeToken).2 c inSubtype)

/-! ## The check -/

/-- What is left after cutting and trimming. -/
theorem trim_beforeFirst_of_parts {before kind subtype after rest : List Char}
    (front : ∀ c ∈ before, isWhitespace c = true) (kindToken : kind ∈ token)
    (subtypeToken : subtype ∈ token) (back : ∀ c ∈ after, isWhitespace c = true)
    (opens : rest = [] ∨ ∃ more, rest = ';' :: more) :
    trim (beforeFirst ';' (before ++ kind ++ '/' :: subtype ++ after ++ rest)) =
      kind ++ '/' :: subtype := by
  have none : ';' ∉ before ++ (kind ++ '/' :: subtype) ++ after := by
    have separator : tokenChar ';' = false := by decide
    simp only [List.mem_append, List.mem_cons, not_or]
    exact ⟨⟨semicolon_not_mem_whitespace front, not_mem_token separator kindToken, by decide,
      not_mem_token separator subtypeToken⟩, semicolon_not_mem_whitespace back⟩
  calc trim (beforeFirst ';' (before ++ kind ++ '/' :: subtype ++ after ++ rest))
      = strip isWhitespace (upTo ';' (before ++ (kind ++ '/' :: subtype) ++ after ++ rest)) := by
        simp only [List.append_assoc, List.cons_append]
        rfl
    _ = strip isWhitespace (before ++ (kind ++ '/' :: subtype) ++ after) := by rw [upTo_append none opens]
    _ = strip isWhitespace (kind ++ '/' :: subtype) := by
        rw [strip_append_right back, strip_append_left front]
    _ = kind ++ '/' :: subtype := strip_of_none (not_whitespace_of_essence kindToken subtypeToken)

theorem isMediaType_iff {s : String} : isMediaType s = true ↔ Essence s.toList := by
  constructor
  · intro accepted
    obtain ⟨rest, whole, -, opens⟩ := upTo_split ';' s.toList
    obtain ⟨before, after, cut, front, back⟩ := exists_margins isWhitespace (upTo ';' s.toList)
    have essence : strip isWhitespace (upTo ';' s.toList) = trim (beforeFirst ';' s.toList) := rfl
    rw [isMediaType] at accepted
    cases slash : splitOnce '/' (trim (beforeFirst ';' s.toList)) with
    | none =>
        rw [slash] at accepted
        cases accepted
    | some parts =>
        obtain ⟨kind, subtype⟩ := parts
        rw [slash, Bool.and_eq_true] at accepted
        obtain ⟨kindToken, subtypeToken⟩ := accepted
        rw [essence, (splitOnce_eq_some_iff.mp slash).1] at cut
        refine ⟨before, kind, subtype, after, rest, ?_, front, isToken_iff.mp kindToken,
          isToken_iff.mp subtypeToken, back, opens⟩
        calc s.toList = upTo ';' s.toList ++ rest := whole
          _ = before ++ kind ++ '/' :: subtype ++ after ++ rest := by rw [cut]; simp
  · intro essence
    obtain ⟨before, kind, subtype, after, rest, whole, front, kindToken, subtypeToken, back, opens⟩ :=
      essence
    have slash : '/' ∉ kind := not_mem_token (by decide) kindToken
    rw [isMediaType, whole, trim_beforeFirst_of_parts front kindToken subtypeToken back opens,
      splitOnce_append slash, Bool.and_eq_true]
    exact ⟨isToken_iff.mpr kindToken, isToken_iff.mpr subtypeToken⟩

theorem essence_of_mediaType {w : List Char} (derived : w ∈ Theory.Rfc2045.mediaType) : Essence w := by
  obtain ⟨kind, subtype, blanks, tail, rfl, kindToken, subtypeToken, spaces, opens⟩ :=
    mem_mediaType derived
  refine ⟨[], kind, subtype, blanks, tail, by simp, by simp, kindToken, subtypeToken, ?_, opens⟩
  intro c member
  have space := spaces c member
  simp only [blank, Bool.or_eq_true, decide_eq_true_eq] at space
  rcases space with rfl | rfl <;> decide

/-- The check only looks at what comes before the first `;`. -/
theorem isMediaType_append {before rest : String} (first : ';' ∉ before.toList) :
    isMediaType (before ++ ";" ++ rest) = isMediaType before := by
  have whole : beforeFirst ';' (before ++ ";" ++ rest).toList = before.toList := by
    have tail : (before ++ ";" ++ rest).toList = before.toList ++ ';' :: rest.toList := by simp
    rw [tail]
    exact upTo_append first (.inr ⟨_, rfl⟩)
  have alone : beforeFirst ';' before.toList = before.toList := by
    have none : upTo ';' (before.toList ++ []) = before.toList := upTo_append first (.inl rfl)
    rwa [List.append_nil] at none
  rw [isMediaType, isMediaType, whole, alone]

/-- **`isMediaType` accepts exactly its documented grammar**: two tokens around a slash, between
whitespace, before any `;`. It accepts every media type of RFC 2045 with any parameters, and
nothing after the first `;` matters. -/
theorem isMediaType_accepts_exactly :
    (∀ s, isMediaType s = true ↔ Essence s.toList) ∧
    (∀ s : String, s.toList ∈ Theory.Rfc2045.mediaType → isMediaType s = true) ∧
    ∀ before rest rest' : String, ';' ∉ before.toList →
      isMediaType (before ++ ";" ++ rest) = isMediaType (before ++ ";" ++ rest') := by
  refine ⟨fun _ => isMediaType_iff, ?_, ?_⟩
  · intro s derived
    exact isMediaType_iff.mpr (essence_of_mediaType derived)
  · intro before rest rest' first
    rw [isMediaType_append first, isMediaType_append first]

/-- A quoted value with a `;`, a `/`, an escaped quote and a letter outside ASCII. -/
theorem quotedTitle_mediaType : "text/plain ; title=\";/\\\"é\"".toList ∈ Theory.Rfc2045.mediaType := by
  have tokens : "text".toList ∈ token ∧ "plain".toList ∈ token ∧ "title".toList ∈ token := by
    simp only [mem_token, ← List.all_eq_true]
    decide
  obtain ⟨kind, subtype, name⟩ := tokens
  have quoted : "\";/\\\"é\"".toList ∈ quotedString := by
    have pieces : ";/\\\"é".toList ∈ (letter qtext + quotedPair)∗ := by
      refine Language.mem_kstar.mpr ⟨[[';'], ['/'], ['\\', '"'], ['é']], rfl, ?_⟩
      simp only [List.forall_mem_cons, List.not_mem_nil, false_implies, implies_true, and_true]
      exact ⟨.inl ⟨';', by decide, rfl⟩, .inl ⟨'/', by decide, rfl⟩,
        .inr (Language.append_mem_mul (a := ['\\']) rfl ⟨'"', rfl, rfl⟩), .inl ⟨'é', by decide, rfl⟩⟩
    have mark : ['"'] ∈ word ['"'] := rfl
    exact Language.append_mem_mul (Language.append_mem_mul mark pieces) mark
  have named : "title=\";/\\\"é\"".toList ∈ parameter :=
    Language.append_mem_mul (a := "title=".toList)
      (Language.append_mem_mul (b := ['=']) name rfl) (.inr quoted)
  have space : [' '] ∈ ows := by
    rw [ows, kstar_letter]
    exact List.all_eq_true.mp (by decide)
  have led : " ; title=\";/\\\"é\"".toList ∈ ows * word [';'] * ows * parameter :=
    Language.append_mem_mul (a := [' ', ';', ' '])
      (Language.append_mem_mul (a := [' ', ';'])
        (Language.append_mem_mul (a := [' ']) space rfl) space) named
  have essence : "text/plain".toList ∈ token * word ['/'] * token :=
    Language.append_mem_mul (a := "text/".toList)
      (Language.append_mem_mul (b := ['/']) kind rfl) subtype
  refine Language.append_mem_mul (a := "text/plain".toList) essence ?_
  exact Language.mem_kstar.mpr ⟨[" ; title=\";/\\\"é\"".toList], rfl, by simpa using led⟩

theorem isMediaType_accepts_exactly_quoted :
    isMediaType "text/plain ; title=\";/\\\"é\"" = true :=
  isMediaType_accepts_exactly.2.1 _ quotedTitle_mediaType

end CountingSheep.Ingest
