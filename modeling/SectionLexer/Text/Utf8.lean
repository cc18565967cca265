/-! Texts from bytes in UTF-8. -/
namespace SectionLexer.Utf8

/-- What the first byte of a character of several bytes tells: how many follow, the bounds of the
first of them, and its own share of the code point. -/
def lead? (b : Nat) : Option (Nat × Nat × Nat × Nat) :=
  if b < 0xC2 then none
  else if b ≤ 0xDF then some (1, 0x80, 0xBF, b - 0xC0)
  else if b ≤ 0xEF then
    some (2, if b = 0xE0 then 0xA0 else 0x80, if b = 0xED then 0x9F else 0xBF, b - 0xE0)
  else if b ≤ 0xF4 then
    some (3, if b = 0xF0 then 0x90 else 0x80, if b = 0xF4 then 0x8F else 0xBF, b - 0xF0)
  else none

/-- The bytes that go on with a character, of which `count` are due. -/
def following : Nat → Nat → Nat → List UInt8 → List UInt8
  | 0, _, _, _ => []
  | _ + 1, _, _, [] => []
  | count + 1, low, high, b :: bytes =>
    if low ≤ b.toNat ∧ b.toNat ≤ high then b :: following count 0x80 0xBF bytes else []

/-- The character that starts with `b`, and how many of the bytes after `b` it takes. -/
def first? (b : UInt8) (bytes : List UInt8) : Option (Char × Nat) :=
  if b.toNat < 0x80 then some (Char.ofNat b.toNat, 0)
  else do
    let (count, low, high, share) ← lead? b.toNat
    let more := following count low high bytes
    let code := more.foldl (fun n b => 0x40 * n + (b.toNat - 0x80)) share
    if more.length = count then some (Char.ofNat code, count) else none

/-- The characters behind the next `skip` bytes. -/
def decodeFrom? : Nat → List UInt8 → Option (List Char)
  | _, [] => some []
  | skip + 1, _ :: bytes => decodeFrom? skip bytes
  | 0, b :: bytes => do
    let (c, skip) ← first? b bytes
    return c :: (← decodeFrom? skip bytes)

/-- The text that bytes spell. There is none where a byte is out of place. -/
def decode? (bytes : List UInt8) : Option String := (decodeFrom? 0 bytes).map String.ofList

/-- What is said of bytes that are no text. -/
def complaint : String := "stream did not contain valid UTF-8"

example : decode? [0x61, 0xC3, 0xA9, 0xF0, 0x9F, 0x98, 0x80] = some "aé😀" := by decide
example : decode? [0xE2, 0x88] = none := by decide
example : decode? [0x61, 0xED, 0xA0, 0x80] = none := by decide

end SectionLexer.Utf8
