import EngineFuzz.Randomness.Source
/-!
# Universally unique identifiers

An identifier is sixteen octets.  It is written in two ways: the *hyphenated* form has the
lower-case hexadecimal digits in groups of 8, 4, 4, 4 and 12, and the *simple* form is the same
without hyphens.  A drawn identifier is of version 4: four bits of octet 6 and two bits of octet
8 are fixed, and all other bits are those of sixteen drawn bytes.
-/

namespace EngineFuzz

open Randomness

/-- A universally unique identifier. -/
structure Uuid where
  octets : Vector UInt8 16
deriving DecidableEq, Repr

namespace Uuid

/-- The lower-case hexadecimal digit of a number below sixteen. -/
def hexDigit (n : UInt8) : Char :=
  if n < 10 then Char.ofNat (48 + n.toNat) else Char.ofNat (87 + n.toNat)

/-- The two digits of an octet. -/
def octetText (b : UInt8) : List Char := [hexDigit (b >>> 4), hexDigit (b &&& 15)]

/-- The digits of the octets, one after the other. -/
def digits (octets : List UInt8) : List Char := octets.flatMap octetText

/-- The identifier without hyphens, as characters. -/
def simpleChars (u : Uuid) : List Char := digits u.octets.toList

/-- The identifier in groups of 8, 4, 4, 4 and 12 digits, as characters. -/
def hyphenatedChars (u : Uuid) : List Char :=
  let cs := u.simpleChars
  cs.take 8 ++ '-' :: (cs.drop 8).take 4 ++ '-' :: (cs.drop 12).take 4 ++ '-' ::
    (cs.drop 16).take 4 ++ '-' :: cs.drop 20

/-- The text without hyphens. -/
def simple (u : Uuid) : String := String.ofList u.simpleChars

/-- The text with hyphens. -/
def hyphenated (u : Uuid) : String := String.ofList u.hyphenatedChars

/-- The number that a hexadecimal digit of either case stands for. -/
def digitValue? (c : Char) : Option UInt8 :=
  if '0' ≤ c ∧ c ≤ '9' then some (c.toNat - 48).toUInt8
  else if 'a' ≤ c ∧ c ≤ 'f' then some (c.toNat - 87).toUInt8
  else if 'A' ≤ c ∧ c ≤ 'F' then some (c.toNat - 55).toUInt8
  else none

/-- The octets that pairs of digits stand for. -/
def octets? : List Char → Option (List UInt8)
  | [] => some []
  | [_] => none
  | high :: low :: rest => do
    let h ← digitValue? high
    let l ← digitValue? low
    return (h <<< 4 ||| l) :: (← octets? rest)

/-- Reads the hyphenated form. -/
def parse? (text : String) : Option Uuid := do
  let groups := text.splitOn "-"
  guard (groups.map String.length = [8, 4, 4, 4, 12])
  let octets ← octets? (groups.flatMap String.toList)
  if h : octets.length = 16 then return ⟨⟨octets.toArray, by simpa using h⟩⟩ else none

/-- Sets the bits that say "version 4" and "the common layout". -/
def ofRandomOctets (octets : Vector UInt8 16) : Uuid :=
  ⟨(octets.set 6 (octets[6] &&& 0x0f ||| 0x40)).set 8 (octets[8] &&& 0x3f ||| 0x80)⟩

/-- An identifier of version 4, from sixteen drawn bytes. -/
def draw : Draw Uuid := do
  let octets ← Draw.many Draw.byte 16
  return ofRandomOctets octets

/-- The simple form has two digits for every octet. -/
theorem length_simpleChars (u : Uuid) : u.simpleChars.length = 32 := by
  have h : ∀ bs : List UInt8, (digits bs).length = 2 * bs.length := by
    intro bs
    induction bs with
    | nil => rfl
    | cons b bs ih =>
      simp only [digits, List.flatMap_cons, List.length_append, List.length_cons] at ih ⊢
      rw [ih]
      simp [octetText]
      omega
  simp [simpleChars, h]

end Uuid

end EngineFuzz
