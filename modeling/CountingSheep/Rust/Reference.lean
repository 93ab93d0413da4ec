/-
# CountingSheep.Rust.Reference — concrete choices of the crates

JSON text by `Theory.JsonText` with the crate's nesting limit, over UTF-8, and RFC
3339 text by `Rfc3339`. Results hold for every `Crates`; these show that what they
assume can be met, and are what they are tried on. `withDecimals` leaves open how a
float is read: `reference` rounds to nearest.

* `withDecimals_reads`: a value within the limit is read back from its bytes with its
  floats reread; `reference_reads`: with no change at all.
* `withDecimals_wellFormed`: nothing else is read from any bytes.
-/
import CountingSheep.Rust.Crates
import CountingSheep.Rust.Rfc3339
import CountingSheep.Theory.JsonRoundTrip
import CountingSheep.Theory.JsonWellFormed

namespace CountingSheep.Rust

open Theory.Json (Value Canonical depth mapFloats mapFloats_of_fixed)
open Theory.JsonText

set_option autoImplicit false

def utf8 (text : List Char) : Bytes := text.flatMap String.utf8EncodeChar

def fromUtf8 (bytes : Bytes) : Option (List Char) := bytes.toByteArray.utf8Decode?.map Array.toList

theorem fromUtf8_utf8 (text : List Char) : fromUtf8 (utf8 text) = some text := by
  have decoded : (utf8 text).toByteArray.utf8Decode? = some text.toArray :=
    List.utf8Decode?_utf8Encode
  rw [fromUtf8, decoded]
  rfl

/-- `serde_json` stops at the 128th level of arrays and objects. -/
def nestingLimit : Nat := 127

def withDecimals (decimals : DecimalReader) : Crates where
  fromSlice := fun body => (fromUtf8 body).bind (readText decimals nestingLimit)
  toVec := fun v => utf8 (writeValue v)
  parseRfc3339 := fun text => Rfc3339.parse text.toList
  toOffsetPanic := "local datetime out of valid range"
  lengthLimitText := "Failed to buffer the request body: length limit exceeded"
  unknownBodyText := fun error => "Failed to buffer the request body: " ++ error

theorem withDecimals_reads (decimals : DecimalReader) {v : Value} (canonical : Canonical v)
    (within : depth v ≤ nestingLimit) :
    (withDecimals decimals).fromSlice ((withDecimals decimals).toVec v) =
      mapFloats (reread decimals) v := by
  change (fromUtf8 (utf8 (writeValue v))).bind _ = _
  rw [fromUtf8_utf8]
  exact readText_writeValue decimals canonical within

theorem withDecimals_wellFormed {decimals : DecimalReader} {body : Bytes} {v : Value}
    (read : (withDecimals decimals).fromSlice body = some v) : WellFormed nestingLimit v := by
  obtain ⟨text, -, read⟩ := Option.bind_eq_some_iff.mp read
  exact readText_wellFormed read

def reference : Crates := withDecimals nearest

theorem reference_reads {v : Value} (canonical : Canonical v) (within : depth v ≤ nestingLimit) :
    reference.fromSlice (reference.toVec v) = some v :=
  (withDecimals_reads nearest canonical within).trans
    (mapFloats_of_fixed (fun _ => reread_nearest) v canonical)

end CountingSheep.Rust
