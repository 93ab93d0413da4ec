/-
# CountingSheep.Ingest.Routing — which path a `Content-Type` value takes

What a value *names* is read off its bytes: the part before the first `;`, without
blanks, in any ASCII case (`namedRoute`). What it *takes* is how `createSheep`
behaves on every request that carries it (`Takes`). The two agree as long as the
value can be read as text, since `to_str` gives up on the whole value at the first
byte outside ASCII, also in a parameter.

* `Route.run_injective`: the three ways to go on are told apart by some request, so
  a value takes at most one.
* `takes_of_ascii`, `takes_of_high`: what a value takes, with and without a byte
  outside ASCII.
* `takes_named_iff`: so it is routed as named, unless it names one of the two media
  types and has such a byte behind the first `;`.
-/
import CountingSheep.Http.Router
import CountingSheep.Rust.Reference
import CountingSheep.Theory.Margins

namespace CountingSheep.Ingest

open Rust Http
open Theory (Prog Event)
open Theory.Margins

set_option autoImplicit false

/-! ## What a value names -/

/-- A legal field value: no control character but the tab. -/
def LegalValue (value : Bytes) : Prop := ∀ b ∈ value, (32 ≤ b ∧ b ≠ 127) ∨ b = 9

def isBlank (b : UInt8) : Bool := b = 32 || b = 9

/-- The part before the first `;`, without blanks. -/
def namedPart (value : Bytes) : Bytes := strip isBlank (upTo 59 value)

/-- The first `;` and everything after it. -/
def parameters (value : Bytes) : Bytes := value.dropWhile (· ≠ 59)

def asChar (b : UInt8) : Char := Char.ofNat b.toNat

/-- The part before the first `;` is `media`, in any ASCII case. -/
def Names (value : Bytes) (media : String) : Prop :=
  eqIgnoreAsciiCase ((namedPart value).map asChar) media.toList = true

instance (value : Bytes) (media : String) : Decidable (Names value media) :=
  inferInstanceAs (Decidable (_ = true))

inductive Route where
  | single
  | batch
  | unsupported
  deriving DecidableEq

def namedRoute (value : Bytes) : Route :=
  if Names value cloudeventsJson then .single
  else if Names value cloudeventsBatchJson then .batch
  else .unsupported

/-- Two values that name the same thing: equal before the first `;` up to blanks and case. -/
def SameName (value value' : Bytes) : Prop :=
  eqIgnoreAsciiCase ((namedPart value).map asChar) ((namedPart value').map asChar) = true

theorem namedRoute_congr {value value' : Bytes} (same : SameName value value') :
    namedRoute value = namedRoute value' := by
  have named (media : String) : Names value media ↔ Names value' media := by
    unfold SameName eqIgnoreAsciiCase at same
    unfold Names eqIgnoreAsciiCase
    rw [beq_iff_eq.mp same]
  simp only [namedRoute, named]

/-! ## What a value takes -/

section Run

variable (crates : Crates)

def unsupportedMediaType : AppError :=
  .unsupportedMediaType ("Content-Type must be " ++ cloudeventsJson ++ " or " ++ cloudeventsBatchJson)

/-- The rest of `createSheep` on each path. -/
def Route.run (state : AppState) (body : Bytes) : Route → Handler StatusCode
  | .single => ingestSingle crates body
  | .batch => ingestBatch crates body state.maxBatchEvents
  | .unsupported => throw (.error unsupportedMediaType)

/-- Every request with this `Content-Type` goes this way. -/
def Takes (value : Bytes) (route : Route) : Prop :=
  ∀ (crates : Crates) (state : AppState) (headers : HeaderMap) (body : Bytes),
    headers.lookup "content-type" = some value →
      createSheep crates state headers body = route.run crates state body

end Run

/-- Crates that read every body as `null`. -/
def nullCrates : Crates := { reference with fromSlice := fun _ => some .null }

theorem refusals_distinct {halt halt' : Halt}
    (same : (follow (.error halt) >>= publishAll nullCrates) =
      (follow (.error halt') >>= publishAll nullCrates)) : halt = halt' := by
  have ended : Prog.Returns (follow (.error halt) >>= publishAll nullCrates).run [] (.error halt) :=
    (planned_returns_iff nullCrates).mpr (.inl ⟨halt, rfl, rfl, rfl⟩)
  rw [same] at ended
  rcases (planned_returns_iff nullCrates).mp ended with ⟨_, ⟨⟩, -, ⟨⟩⟩ | ⟨_, ⟨⟩, -⟩
  rfl

/-- The paths are never confused: a body read as `null` is refused differently on each. -/
theorem Route.run_injective {route route' : Route}
    (same : ∀ crates state body, route.run crates state body = route'.run crates state body) :
    route = route' := by
  have refusal : ∀ route : Route, route.run nullCrates ⟨1⟩ [] =
      follow (.error (.error (match route with
        | .single => .ofDetails ["body must be a JSON object"]
        | .batch => .badRequest "batch body must be a JSON array"
        | .unsupported => unsupportedMediaType))) >>= publishAll nullCrates := by
    intro route
    cases route with
    | single => exact ingestSingle_eq nullCrates []
    | batch => exact ingestBatch_eq nullCrates [] 1
    | unsupported => rfl
  have agreed := same nullCrates ⟨1⟩ []
  rw [refusal, refusal] at agreed
  have halted := refusals_distinct agreed
  cases route <;> cases route' <;> first | rfl | cases halted

theorem Takes.unique {value : Bytes} {route route' : Route} (taken : Takes value route)
    (taken' : Takes value route') : route = route' := by
  apply Route.run_injective
  intro crates state body
  have here : [("content-type", value)].lookup "content-type" = some value := rfl
  rw [← taken crates state _ body here, taken' crates state _ body here]

/-! ## Reading a value as text -/

theorem asChar_toNat (b : UInt8) : (asChar b).toNat = b.toNat := by
  have small : b.toNat < 256 := b.toNat_lt
  rw [asChar, Char.toNat_ofNat, if_pos (.inl (by omega))]

theorem asChar_injective {b b' : UInt8} (same : asChar b = asChar b') : b = b' := by
  apply UInt8.toNat_inj.mp
  rw [← asChar_toNat, ← asChar_toNat, same]

theorem isWhitespace_asChar {b : UInt8} (legal : (32 ≤ b ∧ b ≠ 127) ∨ b = 9) (ascii : b < 128) :
    isWhitespace (asChar b) = isBlank b := by
  have bounds : (32 ≤ b.toNat ∨ b.toNat = 9) ∧ b.toNat < 128 := by
    refine ⟨?_, UInt8.lt_iff_toNat_lt.mp ascii⟩
    rcases legal with ⟨lower, -⟩ | rfl
    · exact .inl (UInt8.le_iff_toNat_le.mp lower)
    · exact .inr rfl
  have blank : isBlank b = (decide (b.toNat = 32) || decide (b.toNat = 9)) := by
    simp only [isBlank, ← UInt8.toNat_inj]
    rfl
  rw [blank, Bool.eq_iff_iff]
  simp only [isWhitespace, asChar_toNat, Bool.or_eq_true, Bool.and_eq_true, decide_eq_true_eq]
  omega

theorem headerToStr_of_ascii {value : Bytes} (legal : LegalValue value) (ascii : ∀ b ∈ value, b < 128) :
    headerToStr value = some (.ofList (value.map asChar)) := by
  apply if_pos
  rw [List.all_eq_true]
  intro b member
  have upper := UInt8.lt_iff_toNat_lt.mp (ascii b member)
  simp only [Bool.or_eq_true, Bool.and_eq_true, decide_eq_true_eq]
  rcases legal b member with ⟨lower, notDelete⟩ | tab
  · refine .inl ⟨lower, UInt8.lt_iff_toNat_lt.mpr ?_⟩
    have apart : b.toNat ≠ 127 := fun same => notDelete (UInt8.toNat_inj.mp same)
    change b.toNat < 128 at upper
    change b.toNat < 127
    omega
  · exact .inr tab

theorem headerToStr_of_high {value : Bytes} (high : ∃ b ∈ value, 128 ≤ b) : headerToStr value = none := by
  apply if_neg
  rw [List.all_eq_true]
  intro readable
  obtain ⟨b, member, above⟩ := high
  have below := readable b member
  have lower := UInt8.le_iff_toNat_le.mp above
  change 128 ≤ b.toNat at lower
  simp only [Bool.or_eq_true, Bool.and_eq_true, decide_eq_true_eq] at below
  rcases below with ⟨-, upper⟩ | rfl
  · have upper := UInt8.lt_iff_toNat_lt.mp upper
    change b.toNat < 127 at upper
    omega
  · exact absurd lower (by decide)

/-- Cutting and trimming the text of a value is cutting and trimming the value. -/
theorem mediaType_of_ascii {value : Bytes} {headers : HeaderMap} (legal : LegalValue value)
    (ascii : ∀ b ∈ value, b < 128) (held : headers.lookup "content-type" = some value) :
    mediaType headers = (namedPart value).map asChar := by
  have semicolon : asChar 59 = ';' := rfl
  have cut : upTo ';' (value.map asChar) = (upTo 59 value).map asChar := by
    apply upTo_map
    intro b _
    rw [← semicolon]
    exact ⟨fun same => asChar_injective same, fun same => by rw [same]⟩
  have margins : ∀ b ∈ upTo 59 value, isWhitespace (asChar b) = isBlank b := by
    intro b member
    have inside := upTo_subset member
    exact isWhitespace_asChar (legal b inside) (ascii b inside)
  calc mediaType headers = trim (beforeFirst ';' (value.map asChar)) := by
        rw [mediaType, held]
        simp only [Option.bind_some, headerToStr_of_ascii legal ascii, Option.getD_some,
          String.toList_ofList]
    _ = strip isWhitespace (upTo ';' (value.map asChar)) := rfl
    _ = (namedPart value).map asChar := by rw [cut, strip_map margins, namedPart]

theorem takes_of_ascii {value : Bytes} (legal : LegalValue value) (ascii : ∀ b ∈ value, b < 128) :
    Takes value (namedRoute value) := by
  intro crates state headers body held
  rw [createSheep, mediaType_of_ascii legal ascii held]
  by_cases single : Names value cloudeventsJson
  · rw [namedRoute, if_pos single]
    exact if_pos single
  · rw [namedRoute, if_neg single]
    refine (if_neg single).trans ?_
    by_cases batch : Names value cloudeventsBatchJson
    · rw [if_pos batch]
      exact if_pos batch
    · rw [if_neg batch]
      exact if_neg batch

theorem takes_of_high {value : Bytes} (high : ∃ b ∈ value, 128 ≤ b) : Takes value .unsupported := by
  intro crates state headers body held
  have blank : mediaType headers = [] := by
    rw [mediaType, held]
    simp only [Option.bind_some, headerToStr_of_high high, Option.getD_none]
    rfl
  unfold createSheep
  rw [blank]
  rfl

/-! ## Routed as named -/

theorem toLower_of_high {c : Char} (high : 128 ≤ c.toNat) : c.toLower = c := by
  unfold Char.toLower
  apply dif_neg
  rintro ⟨-, upper⟩
  have below : c.toNat ≤ 90 := upper
  omega

/-- Only ASCII names a media type that is ASCII. -/
theorem ascii_of_eqIgnoreAsciiCase {l media : List Char}
    (ascii : (media.all fun c => c.toLower.toNat < 128) = true)
    (named : eqIgnoreAsciiCase l media = true) : ∀ c ∈ l, c.toNat < 128 := by
  intro c member
  have lowered : c.toLower ∈ media.map Char.toLower := by
    rw [← beq_iff_eq.mp named]
    exact List.mem_map_of_mem member
  obtain ⟨d, inside, same⟩ := List.mem_map.mp lowered
  have small : d.toLower.toNat < 128 := of_decide_eq_true (List.all_eq_true.mp ascii d inside)
  rw [same] at small
  by_cases high : 128 ≤ c.toNat
  · rwa [toLower_of_high high] at small
  · omega

theorem ascii_of_names {value : Bytes} {media : String}
    (ascii : (media.toList.all fun c => c.toLower.toNat < 128) = true) (named : Names value media) :
    ∀ b ∈ upTo 59 value, b < 128 := by
  intro b member
  have inside := ascii_of_eqIgnoreAsciiCase ascii named
  obtain ⟨before, after, whole, front, back⟩ := exists_margins isBlank (upTo 59 value)
  have blank : ∀ b, isBlank b = true → b < 128 := by
    intro b held
    simp only [isBlank, Bool.or_eq_true, decide_eq_true_eq] at held
    rcases held with rfl | rfl <;> decide
  rw [whole, List.mem_append, List.mem_append] at member
  rcases member with (early | middle) | late
  · exact blank b (front b early)
  · have small := inside (asChar b) (List.mem_map_of_mem middle)
    rw [asChar_toNat] at small
    exact UInt8.lt_iff_toNat_lt.mpr small
  · exact blank b (back b late)

theorem ascii_of_named {value : Bytes} (named : namedRoute value ≠ .unsupported) :
    ∀ b ∈ upTo 59 value, b < 128 := by
  unfold namedRoute at named
  split_ifs at named with first second
  · exact ascii_of_names (by decide) first
  · exact ascii_of_names (by decide) second
  · exact absurd rfl named

/-- Nothing outside ASCII behind the first `;`, unless it names neither media type anyway. -/
def PlainParameters (value : Bytes) : Prop :=
  (∀ b ∈ parameters value, b < 128) ∨ namedRoute value = .unsupported

theorem high_or_ascii (value : Bytes) : (∃ b ∈ value, 128 ≤ b) ∨ ∀ b ∈ value, b < 128 := by
  by_cases high : ∃ b ∈ value, 128 ≤ b
  · exact .inl high
  · right
    intro b member
    exact UInt8.not_le.mp fun above => high ⟨b, member, above⟩

theorem takes_named_iff {value : Bytes} (legal : LegalValue value) :
    Takes value (namedRoute value) ↔ PlainParameters value := by
  rcases high_or_ascii value with high | ascii
  · have refused := takes_of_high high
    constructor
    · intro taken
      exact .inr (taken.unique refused)
    · rintro (plain | unnamed)
      · have unnamed : namedRoute value = .unsupported := by
          by_contra named
          obtain ⟨b, member, above⟩ := high
          rw [← List.takeWhile_append_dropWhile (p := (· ≠ 59)) (l := value)] at member
          rcases List.mem_append.mp member with early | late
          · exact UInt8.not_le.mpr (ascii_of_named named b early) above
          · exact UInt8.not_le.mpr (plain b late) above
        rwa [unnamed]
      · rwa [unnamed]
  · refine ⟨fun _ => .inl fun b member => ?_, fun _ => takes_of_ascii legal ascii⟩
    exact ascii b ((List.dropWhile_suffix _).subset member)

theorem unsupported_returns_iff {crates : Crates} {state : AppState} {body : Bytes}
    {events : List (Event Effect Effect.Answer)} {out : Except Halt StatusCode} :
    Prog.Returns (Route.unsupported.run crates state body).run events out ↔
      events = [] ∧ out = .error (.error unsupportedMediaType) :=
  Prog.throw_returns_iff

/-- **What decides the path a `Content-Type` value takes.** A legal value is routed by the media
type it names if and only if nothing outside ASCII stands behind its first `;` (or it names
neither). It takes one path at most; values that name the same thing take the same; and on the
415 path the body is not looked at and nothing is published. -/
theorem content_type_dispatch {value : Bytes} (legal : LegalValue value) :
    (Takes value (namedRoute value) ↔ PlainParameters value) ∧
    (∀ route route', Takes value route → Takes value route' → route = route') ∧
    (∀ value', LegalValue value' → SameName value value' → PlainParameters value →
      PlainParameters value' → ∀ route, Takes value route ↔ Takes value' route) ∧
    (Takes value .unsupported → ∀ (crates : Crates) (state : AppState) (headers : HeaderMap)
      (body : Bytes), headers.lookup "content-type" = some value →
        ∀ events out, Prog.Returns (createSheep crates state headers body).run events out ↔
          events = [] ∧ out = .error (.error unsupportedMediaType)) := by
  refine ⟨takes_named_iff legal, fun _ _ => Takes.unique, ?_, ?_⟩
  · intro value' legal' same plain plain' route
    have taken := (takes_named_iff legal).mpr plain
    have taken' := (takes_named_iff legal').mpr plain'
    rw [namedRoute_congr same] at taken
    constructor
    · intro holds
      rwa [holds.unique taken]
    · intro holds
      rwa [holds.unique taken']
  · intro refused crates state headers body held events out
    rw [refused crates state headers body held]
    exact unsupported_returns_iff

theorem legalValue_of_all {value : Bytes}
    (all : (value.all fun b => (32 ≤ b && b ≠ 127) || b = 9) = true) : LegalValue value := by
  intro b member
  simpa using List.all_eq_true.mp all b member

/-- A spelling of the single media type, with a parameter. -/
def charsetValue : Bytes := utf8 "Application/CloudEvents+JSON ;charset=utf-8".toList

theorem content_type_dispatch_charset : Takes charsetValue .single := by
  have legal : LegalValue charsetValue := legalValue_of_all (by decide)
  have named : namedRoute charsetValue = .single := by decide
  have ascii : ((parameters charsetValue).all fun b => b < 128) = true := by decide
  rw [← named]
  apply (content_type_dispatch legal).1.mpr
  exact .inl fun b member => of_decide_eq_true (List.all_eq_true.mp ascii b member)

/-- A quoted parameter with a letter outside ASCII. -/
def accentedNote : Bytes := utf8 "application/cloudevents+json; note=\"é\"".toList

theorem accentedNote_unsupported : LegalValue accentedNote ∧ namedRoute accentedNote = .single ∧
    Takes accentedNote .unsupported ∧ ¬ Takes accentedNote (namedRoute accentedNote) := by
  have named : namedRoute accentedNote = .single := by decide
  have refused : Takes accentedNote .unsupported := takes_of_high ⟨0xC3, by decide, by decide⟩
  refine ⟨legalValue_of_all (by decide), named, refused, ?_⟩
  rw [named]
  intro taken
  cases taken.unique refused

end CountingSheep.Ingest
