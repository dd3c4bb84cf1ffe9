/-!
# Reading bytes as text

File contents and Unix paths are bytes.  `strict` reads bytes as text only if they are valid
UTF-8.  `lossy` always yields text: each maximal run of bytes that begins a character but does
not finish one, and each byte that can begin no character, becomes one replacement character.

The repair is a small machine over the bytes.  Between characters it holds nothing; inside one
it holds how many bytes are due, which bytes may come next, and the bits read so far.
-/

namespace EngineFuzz.Text

/-- The octets of a path or a file. -/
abbrev Bytes := List UInt8

/-- The octets of a text. -/
def bytesOf (text : String) : Bytes := text.toUTF8.data.toList

/-- The text that the bytes are, if they are valid. -/
def strict (bytes : Bytes) : Option String := String.fromUTF8? ⟨bytes.toArray⟩

/-- A character that has begun and is not finished: `due` more bytes, the next one from `low` to
`high`, and the bits so far. -/
structure Unfinished where
  due : Nat
  low : UInt8
  high : UInt8
  bits : Nat
deriving DecidableEq, Repr

/-- What stands for bytes that are no character. -/
def replacement : Char := '\ufffd'

/-- The effect of a byte between characters: what is written, and the character it begins.  The
bounds of the second byte keep out overlong forms, surrogates and numbers past the last code
point. -/
def Unfinished.start (b : UInt8) : List Char × Option Unfinished :=
  if b < 0x80 then ([Char.ofNat b.toNat], none)
  else if 0xc2 ≤ b ∧ b ≤ 0xdf then ([], some ⟨1, 0x80, 0xbf, (b &&& 0x1f).toNat⟩)
  else if 0xe0 ≤ b ∧ b ≤ 0xef then
    ([], some ⟨2, if b = 0xe0 then 0xa0 else 0x80, if b = 0xed then 0x9f else 0xbf,
      (b &&& 0x0f).toNat⟩)
  else if 0xf0 ≤ b ∧ b ≤ 0xf4 then
    ([], some ⟨3, if b = 0xf0 then 0x90 else 0x80, if b = 0xf4 then 0x8f else 0xbf,
      (b &&& 0x07).toNat⟩)
  else ([replacement], none)

/-- The effect of a byte inside a character.  A byte that does not belong there ends it
unfinished and is then looked at afresh. -/
def Unfinished.continue (u : Unfinished) (b : UInt8) : List Char × Option Unfinished :=
  if u.low ≤ b ∧ b ≤ u.high then
    let bits := u.bits * 64 + (b &&& 0x3f).toNat
    if u.due ≤ 1 then ([Char.ofNat bits], none) else ([], some ⟨u.due - 1, 0x80, 0xbf, bits⟩)
  else
    let (written, next) := Unfinished.start b
    (replacement :: written, next)

/-- The characters of the bytes, with replacements, from a state of the machine on. -/
def repairFrom : Option Unfinished → Bytes → List Char
  | none, [] => []
  | some _, [] => [replacement]
  | none, b :: rest =>
    let (written, next) := Unfinished.start b
    written ++ repairFrom next rest
  | some u, b :: rest =>
    let (written, next) := u.continue b
    written ++ repairFrom next rest

/-- The bytes as text.  Valid text is left as it is. -/
def lossy (bytes : Bytes) : String :=
  match strict bytes with
  | some text => text
  | none => String.ofList (repairFrom none bytes)

/-- Reading the octets of a text gives the text back. -/
@[simp] theorem strict_bytesOf (text : String) : strict (bytesOf text) = some text := by
  have h : (⟨(bytesOf text).toArray⟩ : ByteArray) = text.toByteArray := by
    simp [bytesOf, String.toUTF8]
  rw [strict, h, String.fromUTF8?, dif_pos text.isValidUTF8]
  rfl

end EngineFuzz.Text
