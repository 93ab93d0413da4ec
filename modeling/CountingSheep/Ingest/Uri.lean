/-
# CountingSheep.Ingest.Uri — `isAbsoluteUri` beside the grammar of RFC 3986

The check cuts at the first colon and scans characters; `SchemeKeyed` is what it
accepts. On a derivable URI reference that is enough to tell an absolute URI from
everything else (`isAbsoluteUri_of_reference`), because no colon of a relative
reference comes before its first `/`, `?` or `#`. It is not a parser: a string
that is no reference at all can pass, and `source` is not checked at all.
-/
import CountingSheep.Ingest.Submission
import CountingSheep.Theory.Rfc3986

namespace CountingSheep.Ingest

open Rust
open Theory.Json (Value)
open Theory.Abnf (word guarded optional)
open Theory.Rfc3986 (absoluteUri uriReference relativeRef fragment scheme schemeRest pchar
  pathRootless hierPart uriChar stops
  mem_scheme absoluteUri_le uriReference_le relativeRef_guarded uriChar_visible uriChar_ne_hash)

set_option autoImplicit false

/-! ## What the check accepts -/

/-- A scheme, a colon, and neither `#`, whitespace nor control characters. -/
structure SchemeKeyed (w : List Char) : Prop where
  keyed : ∃ name rest, w = name ++ ':' :: rest ∧ name ∈ scheme
  noFragment : '#' ∉ w
  printable : ∀ c ∈ w, isWhitespace c = false ∧ isControl c = false

theorem schemeRest_eq (c : Char) :
    (c.isAlphanum || c = '+' || c = '-' || c = '.') = schemeRest c := by
  simp only [schemeRest, Char.isAlphanum, List.contains_cons, List.contains_nil, Bool.or_false,
    Bool.or_assoc, beq_eq_decide]

theorem colon_not_mem_scheme {name : List Char} (derived : name ∈ scheme) : ':' ∉ name := by
  obtain ⟨c, rest, rfl, alpha, inside⟩ := mem_scheme.mp derived
  intro member
  rcases List.mem_cons.mp member with rfl | member
  · exact absurd alpha (by decide)
  · exact absurd (inside ':' member) (by decide)

theorem validScheme_iff {name : List Char} :
    (match name with
      | [] => false
      | c :: rest => c.isAlpha && rest.all fun c => c.isAlphanum || c = '+' || c = '-' || c = '.') =
        true ↔ name ∈ scheme := by
  rw [mem_scheme]
  cases name with
  | nil => simp
  | cons c rest => simp [schemeRest_eq]

theorem isAbsoluteUri_iff {s : String} : isAbsoluteUri s = true ↔ SchemeKeyed s.toList := by
  unfold isAbsoluteUri
  cases cut : splitOnce ':' s.toList with
  | none =>
      have absent := splitOnce_eq_none_iff.mp cut
      simp only [Bool.false_eq_true, false_iff]
      intro accepted
      obtain ⟨name, rest, whole, -⟩ := accepted.keyed
      exact absent (by rw [whole]; exact List.mem_append_right _ List.mem_cons_self)
  | some parts =>
      obtain ⟨name, rest⟩ := parts
      obtain ⟨whole, -⟩ := splitOnce_eq_some_iff.mp cut
      simp only [Bool.and_eq_true, Bool.not_eq_true', List.any_eq_false, Bool.or_eq_true, not_or,
        Bool.not_eq_true]
      constructor
      · intro checked
        obtain ⟨⟨valid, noHash⟩, printable⟩ := checked
        exact ⟨⟨name, rest, whole, validScheme_iff.mp valid⟩, by simpa using noHash, printable⟩
      · intro accepted
        obtain ⟨name', rest', whole', valid⟩ := accepted.keyed
        rw [whole', splitOnce_append (colon_not_mem_scheme valid)] at cut
        cases cut
        exact ⟨⟨validScheme_iff.mpr valid, by simpa using accepted.noFragment⟩, accepted.printable⟩

/-! ## On references -/

theorem printable_of_uriChar {c : Char} (inside : uriChar c = true) :
    isWhitespace c = false ∧ isControl c = false := by
  obtain ⟨lower, upper⟩ := uriChar_visible inside
  simp only [isWhitespace, isControl, Bool.or_eq_false_iff, Bool.and_eq_false_iff,
    decide_eq_false_iff_not]
  omega

theorem schemeKeyed_of_absoluteUri {w : List Char} (derived : w ∈ absoluteUri) : SchemeKeyed w := by
  have inside := absoluteUri_le derived
  refine ⟨?_, fun member => uriChar_ne_hash (inside _ member) rfl,
    fun c member => printable_of_uriChar (inside c member)⟩
  obtain ⟨u, front, tail, -, rfl⟩ := Language.mem_mul.mp derived
  obtain ⟨v, keyed, hier, -, rfl⟩ := Language.mem_mul.mp front
  obtain ⟨name, named, colon, single, rfl⟩ := Language.mem_mul.mp keyed
  rw [show colon = [':'] from single]
  exact ⟨name, hier ++ tail, by simp, named⟩

/-- A scheme has no letter that a guarded word needs before its colon. -/
theorem not_schemeKeyed_of_guarded {w : List Char} (closed : w ∈ guarded ':' stops) :
    ¬ SchemeKeyed w := by
  intro accepted
  obtain ⟨name, rest, whole, named⟩ := accepted.keyed
  obtain ⟨c, member, stop⟩ := closed name rest whole
  have marks : ∀ d ∈ ['/', '?', '#'], d.isAlpha = false ∧ schemeRest d = false := by
    simp only [List.forall_mem_cons, List.not_mem_nil, false_implies, implies_true]
    decide
  obtain ⟨notAlpha, notRest⟩ := marks c (List.contains_iff_mem.mp stop)
  obtain ⟨first, more, rfl, alpha, inside⟩ := mem_scheme.mp named
  rcases List.mem_cons.mp member with rfl | member
  · rw [notAlpha] at alpha
    cases alpha
  · have holds := inside c member
    rw [notRest] at holds
    cases holds

theorem not_schemeKeyed_of_fragment {w : List Char}
    (derived : w ∈ absoluteUri * (word ['#'] * fragment)) : ¬ SchemeKeyed w := by
  intro accepted
  obtain ⟨u, -, v, tail, rfl⟩ := Language.mem_mul.mp derived
  obtain ⟨hash, single, rest, -, rfl⟩ := Language.mem_mul.mp tail
  rw [show hash = ['#'] from single] at accepted
  exact accepted.noFragment (by simp)

/-- On a reference, the check is the grammar. -/
theorem isAbsoluteUri_of_reference {s : String} (reference : s.toList ∈ uriReference) :
    isAbsoluteUri s = true ↔ s.toList ∈ absoluteUri := by
  rw [isAbsoluteUri_iff]
  constructor
  · intro accepted
    rcases (Language.mem_add _ _ _).mp reference with full | relative
    · obtain ⟨u, absolute, v, tail, whole⟩ := Language.mem_mul.mp full
      rcases (Language.mem_add _ _ _).mp tail with empty | fragment
      · rw [(Language.mem_one v).mp empty, List.append_nil] at whole
        rwa [← whole]
      · have fragmented := Language.append_mem_mul absolute fragment
        rw [whole] at fragmented
        exact absurd accepted (not_schemeKeyed_of_fragment fragmented)
    · exact absurd accepted (not_schemeKeyed_of_guarded (relativeRef_guarded relative))
  · exact schemeKeyed_of_absoluteUri

/-- **`isAbsoluteUri` classifies URI references exactly**: of the strings the grammar
derives it accepts the absolute URIs, and so refuses every relative reference and
every URI with a fragment. -/
theorem isAbsoluteUri_classifies {s : String} (reference : s.toList ∈ uriReference) :
    (isAbsoluteUri s = true ↔ s.toList ∈ absoluteUri) ∧
      (s.toList ∈ relativeRef → isAbsoluteUri s = false) ∧
      (s.toList ∈ absoluteUri * (word ['#'] * fragment) → isAbsoluteUri s = false) := by
  refine ⟨isAbsoluteUri_of_reference reference, ?_, ?_⟩
  · intro relative
    apply Bool.eq_false_iff.mpr
    intro accepted
    exact not_schemeKeyed_of_guarded (relativeRef_guarded relative) (isAbsoluteUri_iff.mp accepted)
  · intro fragmented
    apply Bool.eq_false_iff.mpr
    intro accepted
    exact not_schemeKeyed_of_fragment fragmented (isAbsoluteUri_iff.mp accepted)

theorem urn_absolute : "urn:x".toList ∈ absoluteUri := by
  have named : ['u', 'r', 'n'] ∈ scheme := mem_scheme.mpr ⟨'u', _, rfl, by decide, List.all_eq_true.mp (by decide)⟩
  have letter : ['x'] ∈ pchar := .inl (.inl (.inl (.inl ⟨'x', by decide, rfl⟩)))
  have segment : ['x'] ∈ pathRootless :=
    Language.append_mem_mul (a := ['x']) (b := [])
      (Language.append_mem_mul (a := ['x']) (b := []) letter (Language.nil_mem_kstar _))
      (Language.nil_mem_kstar _)
  have hier : ['x'] ∈ hierPart := .inl (.inr segment)
  exact Language.append_mem_mul (a := ['u', 'r', 'n', ':', 'x']) (b := [])
    (Language.append_mem_mul (a := ['u', 'r', 'n', ':']) (Language.append_mem_mul named rfl) hier)
    (.inl rfl)

theorem isAbsoluteUri_classifies_urn : isAbsoluteUri "urn:x" = true := by
  have reference : "urn:x".toList ∈ uriReference :=
    .inl (Language.append_mem_mul (b := []) urn_absolute (.inl rfl))
  exact (isAbsoluteUri_classifies reference).1.mpr urn_absolute

/-! ## What accepted attributes are -/

/-- A least event with a `dataschema`. -/
def schemaEvent (source schema : String) : Value :=
  .object [("dataschema", .string schema), ("id", .string "1"), ("source", .string source),
    ("specversion", .string "1.0"), ("subject", .string "flock-7"), ("type", .string "sheep.counted")]

def schemaSheep (source schema : String) : Sheep :=
  { leastSheep "1" source "sheep.counted" "flock-7" with dataschema := some schema }

theorem schemaEvent_accepted {source schema : String} (crates : Crates) (nonempty : source ≠ "")
    (keyed : isAbsoluteUri schema = true) :
    Accepts crates (schemaEvent source schema) (schemaSheep source schema) := by
  have present : schema ≠ "" := by
    intro empty
    rw [empty] at keyed
    exact absurd keyed (by decide)
  refine (validate_object_accepts_iff crates).mpr ⟨none, rfl, ?_, ?_⟩
  · simp [defects, verdicts, requiredDefect, optionalDefect, formatDefect, text, List.lookup, nonempty,
      present, keyed]
  · simp [sheepOf, schemaSheep, leastSheep, text, List.lookup, nonempty, present, keyed, Option.filter]

/-- **What validation enforces of the two URI attributes.** A source is any non-empty
string. A `dataschema` is keyed by a scheme and has no fragment, whitespace or control
character; it is an absolute URI as soon as it is a URI reference. Every such pair is
accepted. -/
theorem accepted_uris (crates : Crates) :
    (∀ v sheep, Accepts crates v sheep →
      sheep.source ≠ "" ∧ ∀ schema, sheep.dataschema = some schema →
        SchemeKeyed schema.toList ∧ (schema.toList ∈ uriReference → schema.toList ∈ absoluteUri)) ∧
    ∀ source schema : String, source ≠ "" → SchemeKeyed schema.toList →
      ∃ v sheep, Accepts crates v sheep ∧ sheep.source = source ∧ sheep.dataschema = some schema := by
  constructor
  · intro v sheep accepted
    obtain ⟨obj, time, rfl, -, clean, rfl⟩ := (validate_accepts_iff crates).mp accepted
    have sound := (defects_eq_nil_iff crates).mp clean
    have found : ∃ s, text (obj.lookup "source") = some s :=
      requiredDefect_eq_none_iff.mp
        (sound (requiredDefect "source" (obj.lookup "source")) (by simp [verdicts]))
    constructor
    · obtain ⟨s, held⟩ := found
      show (text (obj.lookup "source")).getD "" ≠ ""
      rw [held]
      exact (text_eq_some_iff.mp held).2
    · intro schema held
      have keyed : isAbsoluteUri schema = true := (Option.filter_eq_some_iff.mp held).2
      exact ⟨isAbsoluteUri_iff.mp keyed, fun reference => (isAbsoluteUri_of_reference reference).mp keyed⟩
  · intro source schema nonempty keyed
    exact ⟨_, _, schemaEvent_accepted crates nonempty (isAbsoluteUri_iff.mpr keyed), rfl, rfl⟩

/-- A source with blanks and a schema in angle brackets are accepted. -/
theorem accepted_uris_not_derivable :
    Accepts reference (schemaEvent "not a uri" "http://<>") (schemaSheep "not a uri" "http://<>") ∧
      "not a uri".toList ∉ uriReference ∧ "http://<>".toList ∉ absoluteUri := by
  refine ⟨schemaEvent_accepted reference (by decide) (by decide), ?_, ?_⟩
  · intro derived
    exact absurd (uriReference_le derived ' ' (by decide)) (by decide)
  · intro derived
    exact absurd (absoluteUri_le derived '<' (by decide)) (by decide)

end CountingSheep.Ingest
