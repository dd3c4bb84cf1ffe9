import EngineFuzz.Text.Utf8
/-!
# Patterns over octets

A pattern stands for a set of octet strings.  A star stands for any string, a question mark for
any one octet, and a bracket for one octet out of a choice; a quoted octet always stands for
itself.
-/

namespace EngineFuzz.Shell

open Text (Bytes)

/-- An octet of an expanded word, and whether it was quoted. -/
structure Mark where
  octet : UInt8
  quoted : Bool
deriving DecidableEq, Repr

/-- A part of a pattern. -/
inductive PatternPart where
  | exactly (octet : UInt8)
  | anyOctet
  | anyString
  /-- One octet inside, or outside, some intervals. -/
  | choice (outside : Bool) (intervals : List (UInt8 × UInt8))
deriving DecidableEq, Repr

namespace PatternPart

/-- Whether a choice takes an octet. -/
def chosen (outside : Bool) (intervals : List (UInt8 × UInt8)) (octet : UInt8) : Bool :=
  (intervals.any fun (low, high) => low ≤ octet && octet ≤ high) != outside

/-- Whether a pattern stands for a string. -/
def accepts : List PatternPart → Bytes → Bool
  | [], octets => octets.isEmpty
  | .anyString :: parts, [] => accepts parts []
  | .anyString :: parts, octet :: octets =>
    accepts parts (octet :: octets) || accepts (.anyString :: parts) octets
  | .exactly wanted :: parts, octet :: octets => octet = wanted && accepts parts octets
  | .anyOctet :: parts, _ :: octets => accepts parts octets
  | .choice outside intervals :: parts, octet :: octets =>
    chosen outside intervals octet && accepts parts octets
  | _ :: _, [] => false
termination_by parts octets => parts.length + octets.length

/-- The octets of a class by its name. -/
def classes : List (String × List (UInt8 × UInt8)) :=
  [("alpha", [(0x41, 0x5a), (0x61, 0x7a)]), ("digit", [(0x30, 0x39)]),
    ("alnum", [(0x30, 0x39), (0x41, 0x5a), (0x61, 0x7a)]), ("upper", [(0x41, 0x5a)]),
    ("lower", [(0x61, 0x7a)]), ("space", [(0x09, 0x0d), (0x20, 0x20)]),
    ("blank", [(0x09, 0x09), (0x20, 0x20)]),
    ("punct", [(0x21, 0x2f), (0x3a, 0x40), (0x5b, 0x60), (0x7b, 0x7e)]),
    ("cntrl", [(0x00, 0x1f), (0x7f, 0x7f)]),
    ("graph", [(0x21, 0x7e)]), ("print", [(0x20, 0x7e)]),
    ("xdigit", [(0x30, 0x39), (0x41, 0x46), (0x61, 0x66)])]

/-- The class that is named between colons and brackets, and what is left. -/
def class? (octets : Bytes) : Option (List (UInt8 × UInt8) × Nat) :=
  classes.findSome? fun (name, intervals) =>
    let spelled := Text.bytesOf ("[:" ++ name ++ ":]")
    if spelled.isPrefixOf octets then some (intervals, spelled.length) else none

/-- The intervals up to a closing bracket, and how many marks they take with it.  A closing
bracket that comes first is a member.  The bound is the number of marks. -/
def intervals? : (bound : Nat) → (first : Bool) → List Mark → Option (List (UInt8 × UInt8) × Nat)
  | 0, _, _ => none
  | _ + 1, _, [] => none
  | bound + 1, first, mark :: marks => do
    if !first && mark = ⟨0x5d, false⟩ then return ([], 1)
    match if mark.quoted then none else class? ((mark :: marks).map (·.octet)) with
    | some (members, length) =>
      let (more, count) ← intervals? bound false (marks.drop (length - 1))
      return (members ++ more, count + length)
    | none =>
      match marks with
      | ⟨0x2d, false⟩ :: high :: rest =>
        if high = ⟨0x5d, false⟩ then
          let (more, count) ← intervals? bound false marks
          return ((mark.octet, mark.octet) :: more, count + 1)
        else
          let (more, count) ← intervals? bound false rest
          return ((mark.octet, high.octet) :: more, count + 3)
      | _ =>
        let (more, count) ← intervals? bound false marks
        return ((mark.octet, mark.octet) :: more, count + 1)

/-- The choice behind an opening bracket, and how many marks it takes. -/
def choice? (marks : List Mark) : Option (PatternPart × Nat) := do
  let sign := match marks with
    | ⟨octet, false⟩ :: _ => octet = 0x21 || octet = 0x5e
    | _ => false
  let members := if sign then marks.tail else marks
  let (found, count) ← intervals? (members.length + 1) true members
  return (.choice sign found, (if sign then 1 else 0) + count)

/-- The pattern that an expanded word is.  The bound is the number of marks. -/
def ofMarks : (bound : Nat) → List Mark → List PatternPart
  | _, [] => []
  | 0, _ :: _ => []
  | bound + 1, ⟨octet, quoted⟩ :: marks =>
    if quoted then .exactly octet :: ofMarks bound marks
    else if octet = 0x2a then .anyString :: ofMarks bound marks
    else if octet = 0x3f then .anyOctet :: ofMarks bound marks
    else if octet = 0x5b then
      match choice? marks with
      | some (part, length) => part :: ofMarks bound (marks.drop length)
      | none => .exactly octet :: ofMarks bound marks
    else .exactly octet :: ofMarks bound marks

/-- Whether a part can stand for more than one string. -/
def isLoose : PatternPart → Bool
  | .exactly _ => false
  | _ => true

end PatternPart

/-- A pattern. -/
abbrev Pattern := List PatternPart

/-- The pattern that an expanded word is. -/
def Pattern.ofMarks (marks : List Mark) : Pattern := PatternPart.ofMarks marks.length marks

/-- Whether a pattern stands for a string. -/
def Pattern.accepts (pattern : Pattern) (octets : Bytes) : Bool :=
  PatternPart.accepts pattern octets

/-- Whether a pattern can stand for more than one string. -/
def Pattern.isLoose (pattern : Pattern) : Bool := pattern.any PatternPart.isLoose

end EngineFuzz.Shell
