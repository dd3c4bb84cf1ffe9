import EngineFuzz.Shell.Arithmetic
import EngineFuzz.Shell.Machine
/-!
# The fields that words become

A word is expanded piece by piece into fragments.  What comes from an expansion that is not
quoted is divided into fields at the separators; quoted text and text of the script itself never
is.

* `expand` — the fragments of a word;
* `Fragment.fields` — the fields that fragments make;
* `Fragment.joined` — the one field that they make where fields are not divided.
-/

namespace EngineFuzz.Shell

open Text (Bytes)

/-- A part of a word that has been expanded. -/
inductive Fragment where
  /-- An octet, which divides fields if it is a separator and may divide them. -/
  | octet (mark : Mark) (divides : Bool)
  /-- A field is here even if it is empty. -/
  | here
  /-- A field ends; where fields are not divided, the octets stand there. -/
  | boundary (joint : Bytes)
deriving DecidableEq, Repr

namespace Fragment

/-- The fragments of a value that an expansion has. -/
def ofValue (quoted : Bool) (value : Bytes) : List Fragment :=
  if quoted then .here :: value.map fun b => .octet ⟨b, true⟩ false
  else value.map fun b => .octet ⟨b, false⟩ true

/-- The fragments of text of a script, which may stand inside an expansion. -/
def ofText (quoted inside : Bool) (octets : Bytes) : List Fragment :=
  if quoted then .here :: octets.map fun b => .octet ⟨b, true⟩ false
  else octets.map fun b => .octet ⟨b, false⟩ inside

/-- Whether a separator is white space, of which any number divides as one does. -/
def isGap (b : UInt8) : Bool := b = 0x20 || b = 0x09 || b = 0x0a

/-- The fields that fragments make.  `current` is the field that has begun, and `closed` tells
that white space has just ended one, so that another separator belongs to the same division. -/
def fields (separators : Bytes) :
    (current : Option (List Mark)) → (closed : Bool) → List Fragment → List (List Mark)
  | none, _, [] => []
  | some marks, _, [] => [marks]
  | none, _, .boundary _ :: rest => fields separators none false rest
  | some marks, _, .boundary _ :: rest => marks :: fields separators none false rest
  | current, _, .here :: rest => fields separators (some (current.getD [])) false rest
  | current, closed, .octet mark divides :: rest =>
    if divides && separators.contains mark.octet then
      match current with
      | some marks => marks :: fields separators none (isGap mark.octet) rest
      | none =>
        if isGap mark.octet then fields separators none closed rest
        else if closed then fields separators none false rest
        else [] :: fields separators none false rest
    else fields separators (some (current.getD [] ++ [mark])) false rest

/-- The one field that fragments make where fields are not divided. -/
def joined (fragments : List Fragment) : List Mark :=
  fragments.flatMap fun fragment =>
    match fragment with
    | .octet mark _ => [mark]
    | .here => []
    | .boundary joint => joint.map fun b => ⟨b, false⟩

/-- The octets of that field. -/
def octets (fragments : List Fragment) : Bytes := (joined fragments).map (·.octet)

end Fragment

/-- The value without the part at its head or its end that a pattern stands for. -/
def cutValue (pattern : Pattern) (atHead longest : Bool) (value : Bytes) : Bytes :=
  let lengths := List.range (value.length + 1)
  let order := if longest then lengths.reverse else lengths
  if atHead then
    match order.find? fun n => pattern.accepts (value.take n) with
    | some n => value.drop n
    | none => value
  else
    match order.find? fun n => pattern.accepts (value.drop (value.length - n)) with
    | some n => value.take (value.length - n)
    | none => value

/-- The value without the line feeds at its end. -/
def withoutLastFeeds (value : Bytes) : Bytes := (value.reverse.dropWhile (· = 0x0a)).reverse

/-- The fragments of the parameters, each a field of its own. -/
def parameterFragments (quoted : Bool) (joint : Bytes) (parameters : List Bytes) : List Fragment :=
  [.boundary joint].intercalate (parameters.map (Fragment.ofValue quoted))

/-- The value of an arithmetic expression, whose assignments are carried out. -/
def calculate (text : Bytes) : Eval Bytes := do
  let complainOf (what : String) : Eval Bytes :=
    fail (ascii ("arithmetic expression: " ++ what ++ ": \"") ++ text ++ ascii "\"")
  match Arithmetic.parse? text with
  | .error missing => complainOf missing
  | .ok expression =>
    let machine ← get
    match expression.evaluate (fun name => (machine.lookup? name).getD []) [] with
    | .error .divisionByZero => complainOf "division by zero"
    | .error (.illegal value) => fail (ascii "Illegal number: " ++ value)
    | .ok (value, made) =>
      made.reverse.forM fun (name, value) => assign name (ascii (toString value.toInt))
      return ascii (toString value.toInt)

/-- The value of a parameter that has to be there if the settings say so. -/
def demanded (name : Bytes) : Eval Bytes := do
  let machine ← get
  match machine.value? name with
  | some value => return value
  | none =>
    if machine.hasSetting 'u' && name ≠ ascii "@" && name ≠ ascii "*" && name ≠ ascii "!" then
      fail (name ++ ascii ": parameter not set")
    else return []

/-- Expands pieces.  `output` runs a phrase and gives what it writes; `inside` tells whether the
pieces stand inside an expansion. -/
def expand (output : Phrase → Eval Bytes) :
    (bound : Nat) → (inside : Bool) → List Piece → Eval (List Fragment)
  | 0, _, _ => pure []
  | _ + 1, _, [] => pure []
  | bound + 1, inside, piece :: rest => do
    let fragments ← match piece with
      | .literal quoted octets => pure (Fragment.ofText quoted inside octets)
      | .parameter quoted name => do
        let machine ← get
        if name = ascii "@" then pure (parameterFragments quoted [0x20] machine.parameters)
        else if name = ascii "*" && !quoted then
          pure (parameterFragments quoted machine.joint machine.parameters)
        else pure (Fragment.ofValue quoted (← demanded name))
      | .modified quoted name operator word => do
        let found := (← get).value? name
        let mark := if quoted then [Fragment.here] else []
        let given (orEmpty : Bool) : Bool := match found with
          | some value => !orEmpty || value ≠ []
          | none => false
        match operator with
        | .length => pure (Fragment.ofValue quoted (decimal (← demanded name).length))
        | .otherwise orEmpty isAssigned =>
          if given orEmpty then pure (Fragment.ofValue quoted (found.getD []))
          else do
            let fragments ← expand output bound true word
            if isAssigned then
              assign name (Fragment.octets fragments)
              pure (Fragment.ofValue quoted (Fragment.octets fragments))
            else pure (mark ++ fragments)
        | .instead orEmpty =>
          if given orEmpty then pure (mark ++ (← expand output bound true word)) else pure mark
        | .demand orEmpty =>
          if given orEmpty then pure (Fragment.ofValue quoted (found.getD []))
          else do
            let text := Fragment.octets (← expand output bound true word)
            let usual := if orEmpty then "parameter not set or null" else "parameter not set"
            fail (name ++ ascii ": " ++ if text = [] then ascii usual else text)
        | .cut atHead longest => do
          let value ← demanded name
          let pattern := Pattern.ofMarks (Fragment.joined (← expand output bound true word))
          pure (Fragment.ofValue quoted (cutValue pattern atHead longest value))
        | .unknown => fail (ascii "Bad substitution")
      | .output quoted phrase => do
        let octets ← output phrase
        pure (Fragment.ofValue quoted (withoutLastFeeds (octets.filter (· ≠ 0))))
      | .number quoted expression => do
        let text := Fragment.octets (← expand output bound false expression)
        pure (Fragment.ofValue quoted (← calculate text))
    let more ← expand output bound inside rest
    return fragments ++ more

end EngineFuzz.Shell
