import EngineFuzz.Shell.Scanner
/-!
# Reading shell scripts

A reader takes a phrase from the head of a script.  A script is read line by line, because each
line is carried out before the next one is looked at; a line goes on for as long as its phrases
do.

Every reader has a bound on its depth.  The depth of a script is at most a small multiple of its
length, so `Scan.line?` sets a bound that is never reached.
-/

namespace EngineFuzz.Shell

open Text (Bytes)

/-- Whether a character ends a word. -/
def isWordEnd (c : Char) : Bool := " \t\n;&|<>()".toList.contains c

/-- Whether a character can begin a name. -/
def isNameHead (c : Char) : Bool := c.isAlpha || c = '_'

/-- Whether a character can stand in a name. -/
def isNameChar (c : Char) : Bool := c.isAlphanum || c = '_'

/-- Whether characters are a name. -/
def isName (cs : List Char) : Bool := cs.head?.any isNameHead && cs.all isNameChar

/-- The parameters that are named by one character other than a digit. -/
def specialParameters : List Char := "@*#?$!-".toList

/-- The commands that belong to the language itself: no function can take their names, and an
error in one of them ends the script. -/
def specialCommands : List String :=
  [".", ":", "break", "continue", "eval", "exec", "exit", "export", "local", "readonly", "return",
    "set", "shift", "times", "trap", "unset"]

/-- Where a run of pieces stands, which decides what ends it and what is quoted. -/
inductive Place where
  | bare
  /-- Between double quotation marks. -/
  | quoted
  /-- Inside the braces of a parameter, which may stand in a quoted place. -/
  | braced (inQuotes : Bool)
  /-- In a document. -/
  | document
  /-- In an arithmetic expression, inside so many parentheses. -/
  | arithmetic (depth : Nat)
deriving DecidableEq, Repr

namespace Place

/-- Whether text at a place is quoted. -/
def isQuoted : Place → Bool
  | .bare => false
  | .braced inQuotes => inQuotes
  | _ => true

/-- What is missing if the script ends at a place. -/
def complaint? : Place → Option String
  | .bare | .document => none
  | .quoted | .braced true => some "Unterminated quoted string"
  | .braced false => some r"Missing '}'"
  | .arithmetic _ => some "Missing '))'"

/-- Whether a backslash protects a character at a quoted place. -/
def protects (place : Place) (c : Char) : Bool :=
  "$`\\".toList.contains c || (c = '"' && place ≠ .document) || (c = '}' && place = .braced true)

end Place

/-- The parts of a simple command that have been read. -/
structure CommandParts where
  assignments : List (Bytes × Word)
  words : List Word
  redirections : List Redirection

/-- The assignment that a word is. -/
def assignment? : Word → Option (Bytes × Word)
  | .literal false octets :: rest =>
    let name := octets.takeWhile (· ≠ 0x3d)
    if isName (charsOf name) && name.length < octets.length then
      let value := octets.drop (name.length + 1)
      some (name, if value = [] then rest else .literal false value :: rest)
    else none
  | _ => none

/-- The line that closes a document, and whether the document is to be taken as it stands. -/
def closingOf (word : Word) : List Char × Bool :=
  (word.flatMap fun piece =>
    match piece with
    | .literal _ octets => charsOf octets
    | .parameter _ name => '$' :: charsOf name
    | _ => [],
    word.any fun piece => piece matches .literal true _)

/-- The operators behind a parameter that take a word, by their sign. -/
def wordOperator? (orEmpty : Bool) : Char → Option Operator
  | '-' => some (.otherwise orEmpty false)
  | '=' => some (.otherwise orEmpty true)
  | '+' => some (.instead orEmpty)
  | '?' => some (.demand orEmpty)
  | _ => none

namespace Scan

/-- The operator behind a parameter inside braces. -/
def operator : Scan Operator := do
  if ← accept ':' then
    match (← peek).bind (wordOperator? true) with
    | some operator =>
      let _ ← next
      return operator
    | none => return .unknown
  else if ← accept '%' then return .cut false (← accept '%')
  else if ← accept '#' then return .cut true (← accept '#')
  else
    match (← peek).bind (wordOperator? false) with
    | some operator =>
      let _ ← next
      return operator
    | none => return .unknown

/-- The name of a parameter inside braces. -/
def parameterName : Scan (List Char) := do
  match ← peek with
  | some c =>
    if isNameHead c then run isNameChar
    else if c.isDigit then run Char.isDigit
    else if specialParameters.contains c then
      let _ ← next
      return [c]
    else return []
  | none => return []

/-- The stream of a redirection, if the word before it names one. -/
def streamOf (word : Word) (usual : Nat) : Option Nat :=
  match word with
  | [] => some usual
  | [.literal false [digit]] =>
    if 0x30 ≤ digit && digit ≤ 0x39 then some (digit.toNat - 48) else none
  | _ => none

/-- The rest of the sign of a redirection. -/
def redirection (c : Char) (word : Word) : Scan Token := do
  let make (usual : Nat) (kind : RedirectionKind) (withoutTabs : Bool) : Token :=
    .redirection ((streamOf word usual).getD usual) kind withoutTabs
  if c = '>' then
    if ← accept '>' then return make 1 .append false
    else if ← accept '&' then return make 1 .duplicate false
    else return make 1 (.write (← accept '|')) false
  else
    if ← accept '<' then return make 0 .document (← accept '-')
    else if ← accept '&' then return make 0 .duplicate false
    else if ← accept '>' then return make 0 .update false
    else return make 0 .read false

mutual

/-- The pieces of a word, up to the end of their place; the character that ends a place other
than a bare one is taken. -/
def pieces : (bound : Nat) → Place → Scan Word
  | 0, _ => fault "too deep"
  | bound + 1, place => do
    let isQuoted := place.isQuoted
    let literally (c : Char) : Scan Word := do
      return Word.cons (.literal isQuoted (octetsOf [c])) (← pieces bound place)
    match ← peek with
    | none =>
      match place.complaint? with
      | some complaint => fault complaint
      | none => return []
    | some c =>
      if place = .bare && isWordEnd c then return []
      let _ ← nextRaw
      match c, place with
      | '"', .quoted => return []
      | '}', .braced _ => return []
      | '"', .braced true => pieces bound place
      | '"', .document => literally c
      | '"', .arithmetic _ => literally c
      | '"', _ => do
        let inner ← pieces bound .quoted
        let inner := if inner.isEmpty then [.literal true []] else inner
        return inner.foldr Word.cons (← pieces bound place)
      | '(', .arithmetic depth => do
        return Word.cons (.literal true (octetsOf [c])) (← pieces bound (.arithmetic (depth + 1)))
      | ')', .arithmetic (depth + 1) => do
        return Word.cons (.literal true (octetsOf [c])) (← pieces bound (.arithmetic depth))
      | ')', .arithmetic 0 => if ← accept ')' then return [] else literally c
      | '$', _ => do
        let piece ← dollar bound isQuoted
        return Word.cons piece (← pieces bound place)
      | '\x60', _ => do
        let inner ← takeBackquoted isQuoted (← get).rest.length
        let phrases ← apart inner 1 (phraseList bound false true)
        return .output isQuoted (.sequence phrases) :: (← pieces bound place)
      | '\\', _ => do
        match ← nextRaw with
        | none => literally c
        | some d =>
          let kept := if isQuoted && !place.protects d then ['\\', d] else [d]
          return Word.cons (.literal true (octetsOf kept)) (← pieces bound place)
      | '\'', _ =>
        if isQuoted then literally c
        else do
          let inner ← takeUntil '\'' "Unterminated quoted string" ((← get).rest.length + 1)
          return Word.cons (.literal true (octetsOf inner)) (← pieces bound place)
      | _, _ => literally c

/-- The piece behind a dollar sign. -/
def dollar : (bound : Nat) → (isQuoted : Bool) → Scan Piece
  | 0, _ => fault "too deep"
  | bound + 1, isQuoted => do
    match ← peek with
    | none => return .literal isQuoted (octetsOf ['$'])
    | some c =>
      if c = '(' then do
        let _ ← next
        if ← accept '(' then return .number isQuoted (← pieces bound (.arithmetic 0))
        let phrases ← phraseList bound false true
        let closing ← token bound false false
        match closing with
        | .sign ")" => return .output isQuoted (.sequence phrases)
        | _ => unexpected closing (some "\")\"")
      else if c = '{' then do
        let _ ← next
        braces bound isQuoted
      else if isNameHead c then return .parameter isQuoted (octetsOf (← run isNameChar))
      else if c.isDigit || specialParameters.contains c then do
        let _ ← next
        return .parameter isQuoted (octetsOf [c])
      else return .literal isQuoted (octetsOf ['$'])

/-- The piece behind a dollar sign and a brace. -/
def braces : (bound : Nat) → (isQuoted : Bool) → Scan Piece
  | 0, _ => fault "too deep"
  | bound + 1, isQuoted => do
    let hasLength ← match (← get).rest with
      | '#' :: c :: d :: _ =>
        pure (isNameChar c || (c ≠ '}' && specialParameters.contains c && d = '}'))
      | _ => pure false
    if hasLength then
      let _ ← next
      let name ← parameterName
      if ← accept '}' then return .modified isQuoted (octetsOf name) .length []
      else return .modified isQuoted (octetsOf name) .unknown (← pieces bound (.braced isQuoted))
    let name ← parameterName
    if name ≠ [] then
      if ← accept '}' then return .parameter isQuoted (octetsOf name)
    let operator ← if name = [] then pure .unknown else operator
    let isPattern := operator matches .cut _ _
    return .modified isQuoted (octetsOf name) operator
      (← pieces bound (.braced (isQuoted && !isPattern)))

/-- The next token.  Where `lines` is set the ends of lines are skipped, and where `words` is set a
keyword is told from a word. -/
def token : (bound : Nat) → (lines words : Bool) → Scan Token
  | 0, _, _ => fault "too deep"
  | bound + 1, lines, words => do
    let found ← match (← get).held with
      | some token => do
        modify fun scanner => { scanner with held := none }
        pure token
      | none => freshToken bound
    match found with
    | .newline => if lines then token bound lines words else return .newline
    | found => return if words then found.asKeyword else found

/-- The next token of the text. -/
def freshToken : (bound : Nat) → Scan Token
  | 0 => fault "too deep"
  | bound + 1 => do
    skipBlanks (← get).rest.length
    match ← peek with
    | none => return .finish
    | some c =>
      if c = '\n' then do
        let _ ← nextRaw
        return .newline
      else if c = '&' then do
        let _ ← nextRaw
        return .sign (if ← accept '&' then "&&" else "&")
      else if c = '|' then do
        let _ ← nextRaw
        return .sign (if ← accept '|' then "||" else "|")
      else if c = ';' then do
        let _ ← nextRaw
        return .sign (if ← accept ';' then ";;" else ";")
      else if c = '(' || c = ')' then do
        let _ ← nextRaw
        return .sign (String.singleton c)
      else do
        let word ← pieces bound .bare
        match ← peek with
        | some c =>
          if (c = '<' || c = '>') && (streamOf word 0).isSome then
            let _ ← nextRaw
            redirection c word
          else return .word word
        | none => return .word word

/-- The target of a redirection whose sign has been read. -/
def target : (bound : Nat) → (stream : Nat) → RedirectionKind → (withoutTabs : Bool) →
    Scan Redirection
  | 0, _, _, _ => fault "too deep"
  | bound + 1, stream, kind, withoutTabs => do
    let found ← token bound false false
    match found with
    | .word word =>
      match kind with
      | .document => do
        let (closing, isRaw) := closingOf word
        let text ← document closing withoutTabs
        let line := (← get).line
        let content ← if isRaw then pure [.literal true (octetsOf text)]
          else apart text (line + 1) (pieces bound .document)
        return .mk stream kind content
      | .duplicate =>
        match Word.plain? word with
        | some [octet] =>
          if octet = 0x2d || (0x30 ≤ octet && octet ≤ 0x39) then return .mk stream kind word
          else fault "Bad fd number"
        | some _ => fault "Bad fd number"
        | none => return .mk stream kind word
      | _ => return .mk stream kind word
    | found => unexpected found none

/-- The redirections behind a phrase. -/
def redirections : (bound : Nat) → Scan (List Redirection)
  | 0 => fault "too deep"
  | bound + 1 => do
    let found ← token bound false true
    match found with
    | .redirection stream kind withoutTabs => do
      let first ← target bound stream kind withoutTabs
      return first :: (← redirections bound)
    | found => do
      hold found
      return []

/-- The rest of a simple command, or the definition of a function. -/
def simple : (bound : Nat) → (line : Nat) → CommandParts → Scan Phrase
  | 0, _, _ => fault "too deep"
  | bound + 1, line, parts => do
    let found ← token bound false false
    match found with
    | .word word =>
      match if parts.words.isEmpty then assignment? word else none with
      | some assignment =>
        simple bound line { parts with assignments := parts.assignments ++ [assignment] }
      | none => simple bound line { parts with words := parts.words ++ [word] }
    | .redirection stream kind withoutTabs => do
      let first ← target bound stream kind withoutTabs
      simple bound line { parts with redirections := parts.redirections ++ [first] }
    | .sign "(" =>
      match parts with
      | ⟨[], [word], []⟩ => do
        let closing ← token bound false false
        match closing with
        | .sign ")" =>
          match (Word.plain? word).map charsOf with
          | some name =>
            if isName name && !specialCommands.contains (String.ofList name) then
              return .define (octetsOf name) (← command bound true)
            else fault "Bad function name"
          | none => fault "Bad function name"
        | _ => unexpected closing (some "\")\"")
      | _ => do
        hold found
        return .simple line parts.assignments parts.words parts.redirections
    | found => do
      hold found
      return .simple line parts.assignments parts.words parts.redirections

/-- The words that a loop goes through, and the end of their line. -/
def wordsOfLoop : (bound : Nat) → Scan (List Word)
  | 0 => fault "too deep"
  | bound + 1 => do
    let found ← token bound false false
    match found with
    | .word word => return word :: (← wordsOfLoop bound)
    | .newline | .sign ";" => return []
    | found => unexpected found none

/-- The patterns of a clause, up to the bracket behind them. -/
def patterns : (bound : Nat) → (first : Token) → Scan (List Word)
  | 0, _ => fault "too deep"
  | bound + 1, first => do
    let word ← match first with
      | .word word => pure word
      | .keyword text => pure [.literal false (Text.bytesOf text)]
      | first => unexpected first none
    let found ← token bound false false
    match found with
    | .sign "|" => do
      let second ← token bound false false
      return word :: (← patterns bound second)
    | .sign ")" => return [word]
    | found => unexpected found (some "\")\"")

/-- The clauses of a choice, up to the word that closes it. -/
def clauses : (bound : Nat) → Scan (List (List Word × Phrase))
  | 0 => fault "too deep"
  | bound + 1 => do
    let found ← token bound true true
    match found with
    | .keyword "esac" => return []
    | found => do
      let first ← match found with
        | .sign "(" => token bound false false
        | found => pure found
      let wanted ← patterns bound first
      let phrases ← phraseList bound false true
      let closing ← token bound true true
      match closing with
      | .keyword "esac" => return [(wanted, .sequence phrases)]
      | .sign ";;" => return (wanted, .sequence phrases) :: (← clauses bound)
      | closing => unexpected closing (some "\";;\"")

/-- The rest of a condition, behind its first word and up to its last one. -/
def condition : (bound : Nat) → Scan Phrase
  | 0 => fault "too deep"
  | bound + 1 => do
    let test ← phraseList bound false false
    expect bound "then"
    let yes ← phraseList bound false false
    let found ← token bound false false
    match found with
    | .keyword "elif" => return .branch (.sequence test) (.sequence yes) (← condition bound)
    | .keyword "else" => do
      let no ← phraseList bound false false
      return .branch (.sequence test) (.sequence yes) (.sequence no)
    | found => do
      hold found
      return .branch (.sequence test) (.sequence yes) (.sequence [])

/-- Takes a keyword that has to come next. -/
def expect : (bound : Nat) → (keyword : String) → Scan Unit
  | 0, _ => fault "too deep"
  | bound + 1, keyword => do
    let found ← token bound false true
    match found with
    | .keyword text =>
      if text = keyword then return ()
      else unexpected found (some ("\"" ++ keyword ++ "\""))
    | found => unexpected found (some ("\"" ++ keyword ++ "\""))

/-- The body of a loop. -/
def loopBody : (bound : Nat) → Scan Phrase
  | 0 => fault "too deep"
  | bound + 1 => do
    expect bound "do"
    let phrases ← phraseList bound false false
    expect bound "done"
    return .sequence phrases

/-- A phrase that the given token begins and that may be redirected as a whole. -/
def compound : (bound : Nat) → (line : Nat) → (first : Token) → Scan Phrase
  | 0, _, _ => fault "too deep"
  | bound + 1, line, first => do
    match first with
    | .keyword "if" => do
      let phrase ← condition bound
      expect bound "fi"
      return phrase
    | .keyword "while" => do
      let test ← phraseList bound false false
      return .loop false (.sequence test) (← loopBody bound)
    | .keyword "until" => do
      let test ← phraseList bound false false
      return .loop true (.sequence test) (← loopBody bound)
    | .keyword "for" => do
      let named ← token bound false false
      let name ← match named with
        | .word word =>
          match Word.plain? word with
          | some name => if isName (charsOf name) then pure name else fault "Bad for loop variable"
          | none => fault "Bad for loop variable"
        | _ => fault "Bad for loop variable"
      let found ← token bound true true
      let words ← match found with
        | .keyword "in" => wordsOfLoop bound
        | found => do
          match found with
          | .sign ";" => pure ()
          | found => hold found
          pure [[.parameter true (Text.bytesOf "@")]]
      let found ← token bound true true
      hold found
      return .each line name words (← loopBody bound)
    | .keyword "case" => do
      let found ← token bound false false
      match found with
      | .word word => do
        let found ← token bound true true
        match found with
        | .keyword "in" => return .choose line word (← clauses bound)
        | found => unexpected found (some "\"in\"")
      | found => unexpected found (some "word")
    | .keyword r"{" => do
      let phrases ← phraseList bound false false
      expect bound r"}"
      return .sequence phrases
    | .sign "(" => do
      let phrases ← phraseList bound false false
      let closing ← token bound false false
      match closing with
      | .sign ")" => return .separate line (.sequence phrases) []
      | closing => unexpected closing (some "\")\"")
    | first => unexpected first none

/-- A command. -/
def command : (bound : Nat) → (lines : Bool) → Scan Phrase
  | 0, _ => fault "too deep"
  | bound + 1, lines => do
    let first ← token bound lines true
    let line := (← get).line
    match first with
    | .word _ | .redirection _ _ _ => do
      hold first
      simple bound line ⟨[], [], []⟩
    | first => do
      let phrase ← compound bound line first
      let targets ← redirections bound
      match phrase with
      | .separate line inner _ => return .separate line inner targets
      | phrase => return if targets.isEmpty then phrase else .redirected line phrase targets

/-- Commands joined by pipes. -/
def piped : (bound : Nat) → (lines : Bool) → Scan (List Phrase)
  | 0, _ => fault "too deep"
  | bound + 1, lines => do
    let first ← command bound lines
    let found ← token bound false false
    match found with
    | .sign "|" => return first :: (← piped bound true)
    | found => do
      hold found
      return [first]

/-- Commands joined by pipes, which may be negated as a whole. -/
def pipeline : (bound : Nat) → (lines : Bool) → Scan Phrase
  | 0, _ => fault "too deep"
  | bound + 1, lines => do
    let found ← token bound lines true
    let isNegated := found matches .keyword "!"
    if !isNegated then hold found
    let phrases ← piped bound false
    let phrase := match phrases with
      | [phrase] => phrase
      | phrases => .pipe phrases
    return if isNegated then .negated phrase else phrase

/-- Pipelines joined by "and" and "or", behind a phrase that has been read. -/
def joined : (bound : Nat) → (first : Phrase) → Scan Phrase
  | 0, _ => fault "too deep"
  | bound + 1, first => do
    let found ← token bound false false
    match found with
    | .sign "&&" => do
      let second ← pipeline bound true
      joined bound (.both first second)
    | .sign "||" => do
      let second ← pipeline bound true
      joined bound (.either first second)
    | found => do
      hold found
      return first

/-- A list of phrases.  On the outer level it ends with its line, and otherwise before a token
that closes it; it may be empty if it is `closable`. -/
def phraseList : (bound : Nat) → (outer closable : Bool) → Scan (List Phrase)
  | 0, _, _ => fault "too deep"
  | bound + 1, outer, closable => do
    let found ← token bound (!outer) true
    match found with
    | .newline => return []
    | .finish => do
      hold .finish
      return []
    | found => do
      hold found
      if !outer && closable && found.isClosing then return []
      let first ← pipeline bound false
      let first ← joined bound first
      let found ← token bound false false
      match found with
      | .finish => do
        hold .finish
        return [first]
      | .newline => do
        hold .newline
        return first :: (← phraseList bound outer true)
      | .sign ";" => return first :: (← phraseList bound outer true)
      | .sign "&" => return .background first :: (← phraseList bound outer true)
      | found =>
        if outer then unexpected found none
        else do
          hold found
          return [first]

end

/-- The phrases of the next line of a script, unless the script is over. -/
def line? : Scan (Option (List Phrase)) := do
  let bound := 16 * (← get).rest.length + 256
  let found ← token bound false true
  match found with
  | .finish => return none
  | found => do
    hold found
    return some (← phraseList bound true false)

end Scan

end EngineFuzz.Shell
