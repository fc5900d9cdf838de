import ApiTruth.Foundation.Json.Value

/-!
# The runtime

The packages call functions of the JavaScript runtime and of libraries whose source is not part of
the repository: collation, case mapping, the compilation of regular expressions, the Ajv validator,
SHA-256 and the conversion of values into byte buffers.  They are the fields of `Host`, over which
the model is parametrized.

## Main definitions

* `Host` : the functions taken from the runtime and from libraries.
* `Host.Collation` : the properties of `localeCompare` that sorting relies on.
* `Host.ascii` : a runtime that behaves like the real one on ASCII texts.
-/

namespace ApiTruth.Ir

/-- The functions taken from the runtime and from libraries. -/
structure Host where
  /-- `String.prototype.localeCompare`. -/
  localeCompare : String → String → Ordering
  /-- `String.prototype.toLowerCase`. -/
  toLowerCase : String → String
  /-- `new RegExp(pattern)` does not throw. -/
  regExpCompiles : String → Bool
  /-- The `date-time` format of `ajv-formats`. -/
  isDateTime : String → Bool
  /-- The strict Ajv instance accepts and compiles a schema graph. -/
  ajvCompiles : Json → Bool
  /-- The hexadecimal SHA-256 digest of the UTF-8 encoding of a text. -/
  sha256Hex : String → String
  /-- `Buffer.from(value, "utf8")`, or nothing where it throws. -/
  bufferFrom : Json → Option (List UInt8)

namespace Host

variable (host : Host)

/-- `left.localeCompare(right) <= 0`. -/
def localeLe (left right : String) : Bool := host.localeCompare left right != .gt

/-- `localeCompare` is a total preorder. -/
structure Collation : Prop where
  total : ∀ a b, host.localeLe a b = true ∨ host.localeLe b a = true
  trans : ∀ {a b c}, host.localeLe a b = true → host.localeLe b c = true →
    host.localeLe a c = true

/-- The bytes of a text in UTF-8. -/
def utf8 (s : String) : List UInt8 := s.toUTF8.data.toList

/-- Strings are converted into their UTF-8 bytes. -/
def Utf8Buffers : Prop := ∀ s, host.bufferFrom (.str s) = some (utf8 s)

theorem utf8_injective : Function.Injective utf8 := by
  intro s t h
  exact String.toByteArray_inj.mp (ByteArray.ext (Array.toList_inj.mp h))

/-! ### ASCII texts -/

/-- The primary collation weight of an ASCII character: punctuation, digits, letters. -/
def primaryWeight (c : Char) : ℕ :=
  if c.isAlpha then 200 + c.toLower.toNat
  else if c.isDigit then 100 + c.toNat
  else " _-,;:!?.'\"()[]\x7b\x7d@*/\\&#%`^+<=>|~$".toList.idxOf c

/-- The default collation of ASCII texts: control characters do not count, and of two texts that
differ in case only the one with the first lower case letter comes first. -/
def asciiLocaleCompare (left right : String) : Ordering :=
  let key := fun s : String =>
    let cs := s.toList.filter fun c => 32 ≤ c.toNat
    (cs.map primaryWeight, cs.map fun c => if c.isUpper then 1 else 0)
  let (l, r) := (key left, key right)
  if l.1 < r.1 then .lt else if r.1 < l.1 then .gt
  else if l.2 < r.2 then .lt else if r.2 < l.2 then .gt else .eq

/-- The runtime on ASCII texts, with every pattern, date and schema graph accepted. -/
def ascii : Host where
  localeCompare := asciiLocaleCompare
  toLowerCase := String.toLower
  regExpCompiles _ := true
  isDateTime _ := true
  ajvCompiles _ := true
  sha256Hex text := text
  bufferFrom
    | .str s => some (utf8 s)
    | _ => none

theorem ascii_utf8Buffers : ascii.Utf8Buffers := fun _ => rfl

end Host

end ApiTruth.Ir
