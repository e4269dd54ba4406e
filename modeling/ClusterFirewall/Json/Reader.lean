import ClusterFirewall.Json.Basic

/-!
# Reading JSON

The reader accepts the texts of the JSON grammar and nothing more. It is a recursive descent whose
depth is bounded by a count of steps; `Json.parse` starts it with more steps than the text has
characters, so that the bound never decides.
-/

namespace ClusterFirewall

namespace Json

/-! ## Blanks, digits and numbers -/

/-- The blanks between the parts of a document. -/
def isSpace (c : Char) : Bool := c == ' ' || c == '\n' || c == '\t' || c == '\r'

/-- A text without the blanks at its front. -/
def skipSpace (cs : List Char) : List Char := cs.dropWhile isSpace

/-- The digits at the front of a text and what follows them. -/
def readDigits (cs : List Char) : List Char × List Char :=
  (cs.takeWhile Char.isDigit, cs.dropWhile Char.isDigit)

/-- The digits after a point, if the text goes on with one. -/
def readFraction : List Char → Option (List (Fin 10) × List Char)
  | '.' :: cs =>
    let (ds, rest) := readDigits cs
    if ds.isEmpty then none else some (ds.map digitValue, rest)
  | cs => some ([], cs)

/-- The digits of an exponent. -/
def readPower (cs : List Char) : Option (Nat × List Char) :=
  let (ds, rest) := readDigits cs
  if ds.isEmpty then none else some (Nat.ofDigitChars 10 ds 0, rest)

/-- The exponent, if the text goes on with one. -/
def readExponent : List Char → Option (Option Int × List Char)
  | c :: cs =>
    if c = 'e' ∨ c = 'E' then
      match cs with
      | '-' :: rest => (readPower rest).map fun p => (some (-(p.1 : Int)), p.2)
      | '+' :: rest => (readPower rest).map fun p => (some (p.1 : Int), p.2)
      | rest => (readPower rest).map fun p => (some (p.1 : Int), p.2)
    else some (none, c :: cs)
  | [] => some (none, [])

/-- A number without its sign: no leading zero unless it stands alone. -/
def readUnsigned (negative : Bool) (cs : List Char) : Option (Numeral × List Char) :=
  let (ds, rest) := readDigits cs
  if ds.isEmpty || (ds.head? == some '0' && ds.length != 1) then none
  else do
    let (fraction, rest) ← readFraction rest
    let (exponent, rest) ← readExponent rest
    pure (⟨negative, Nat.ofDigitChars 10 ds 0, fraction, exponent⟩, rest)

/-- A number. -/
def readNumeral : List Char → Option (Numeral × List Char)
  | '-' :: cs => readUnsigned true cs
  | cs => readUnsigned false cs

/-! ## Strings -/

/-- The value of a hexadecimal digit. -/
def hexValue? (c : Char) : Option Nat :=
  if c.isDigit then some (c.toNat - '0'.toNat)
  else if 'a' ≤ c ∧ c ≤ 'f' then some (c.toNat - 'a'.toNat + 10)
  else if 'A' ≤ c ∧ c ≤ 'F' then some (c.toNat - 'A'.toNat + 10)
  else none

/-- The number that four hexadecimal digits write. -/
def hexValue4? (a b c d : Char) : Option Nat := do
  let a ← hexValue? a
  let b ← hexValue? b
  let c ← hexValue? c
  let d ← hexValue? d
  pure (((a * 16 + b) * 16 + c) * 16 + d)

/-- Whether a unit is the first half of a surrogate pair. -/
def isHighHalf (n : Nat) : Bool := 0xD800 ≤ n && n < 0xDC00

/-- Whether a unit is the second half of a surrogate pair. -/
def isLowHalf (n : Nat) : Bool := 0xDC00 ≤ n && n < 0xE000

/-- The character that a surrogate pair writes. -/
def joinHalves (high low : Nat) : Char :=
  Char.ofNat (0x10000 + (high - 0xD800) * 0x400 + (low - 0xDC00))

/-- The character that an escape of one letter writes. -/
def unescape? : Char → Option Char
  | '"' => some '"'
  | '\\' => some '\\'
  | '/' => some '/'
  | 'b' => some '\x08'
  | 'f' => some '\x0c'
  | 'n' => some '\n'
  | 'r' => some '\r'
  | 't' => some '\t'
  | _ => none

/-- A piece of a string: a character, or one unit of UTF-16 that is written as its number. -/
inductive StringPiece where
  /-- A character that stands for itself or has an escape of one letter. -/
  | char (c : Char)
  /-- A numbered unit. -/
  | unit (n : Nat)

/-- The pieces of a string up to its closing quote, and what follows the quote. -/
def readPieces : List Char → Option (List StringPiece × List Char)
  | [] => none
  | '"' :: rest => some ([], rest)
  | '\\' :: 'u' :: a :: b :: c :: d :: rest =>
    match hexValue4? a b c d with
    | none => none
    | some n => (readPieces rest).map fun r => (.unit n :: r.1, r.2)
  | '\\' :: c :: rest =>
    match unescape? c with
    | none => none
    | some c' => (readPieces rest).map fun r => (.char c' :: r.1, r.2)
  | c :: rest =>
    if c.toNat < 0x20 then none else (readPieces rest).map fun r => (.char c :: r.1, r.2)

/-- The characters that pieces stand for, unless half of a surrogate pair stands alone. -/
def joinPieces : List StringPiece → Option (List Char)
  | [] => some []
  | .char c :: rest => (joinPieces rest).map (c :: ·)
  | .unit n :: rest =>
    if isHighHalf n then
      -- The second half must follow at once, and as a number too.
      match rest with
      | .unit m :: rest' =>
        if isLowHalf m then (joinPieces rest').map (joinHalves n m :: ·) else none
      | _ => none
    else if isLowHalf n then none
    else (joinPieces rest).map (Char.ofNat n :: ·)

/-- A string after its opening quote. -/
def readText (cs : List Char) : Option (Option String × List Char) :=
  (readPieces cs).map fun r => ((joinPieces r.1).map String.ofList, r.2)

/-! ## Documents -/

/-- The rest of a text after a word at its front. -/
def dropWord? (word : List Char) (cs : List Char) : Option (List Char) :=
  if word.isPrefixOf cs then some (cs.drop word.length) else none

mutual

/-- A document at the front of a text. -/
def readValue : Nat → List Char → Option (Json × List Char)
  | 0, _ => none
  | n + 1, cs =>
    match skipSpace cs with
    | '{' :: rest =>
      match skipSpace rest with
      | '}' :: rest' => some (.object [], rest')
      | _ => (readMembers n rest).map fun r => (.object r.1, r.2)
    | '[' :: rest =>
      match skipSpace rest with
      | ']' :: rest' => some (.array [], rest')
      | _ => (readItems n rest).map fun r => (.array r.1, r.2)
    | '"' :: rest => (readText rest).map fun r => (.string r.1, r.2)
    | 'n' :: rest => (dropWord? ['u', 'l', 'l'] rest).map fun r => (.null, r)
    | 't' :: rest => (dropWord? ['r', 'u', 'e'] rest).map fun r => (.bool true, r)
    | 'f' :: rest => (dropWord? ['a', 'l', 's', 'e'] rest).map fun r => (.bool false, r)
    | rest => (readNumeral rest).map fun r => (.number r.1, r.2)

/-- The items of a list up to its closing bracket; there is at least one. -/
def readItems : Nat → List Char → Option (List Json × List Char)
  | 0, _ => none
  | n + 1, cs => do
    let (j, rest) ← readValue n cs
    match skipSpace rest with
    | ',' :: rest' =>
      let (items, rest'') ← readItems n rest'
      pure (j :: items, rest'')
    | ']' :: rest' => pure ([j], rest')
    | _ => none

/-- The members of an object up to its closing brace; there is at least one. -/
def readMembers : Nat → List Char → Option (List (Option String × Json) × List Char)
  | 0, _ => none
  | n + 1, cs =>
    match skipSpace cs with
    | '"' :: rest => do
      let (k, rest) ← readText rest
      match skipSpace rest with
      | ':' :: rest' =>
        let (j, rest'') ← readValue n rest'
        match skipSpace rest'' with
        | ',' :: rest''' =>
          let (members, last) ← readMembers n rest'''
          pure ((k, j) :: members, last)
        | '}' :: rest''' => pure ([(k, j)], rest''')
        | _ => none
      | _ => none
    | _ => none

end

/-- The document that a text writes, with nothing but blanks around it. -/
def parseChars (cs : List Char) : Option Json := do
  let (j, rest) ← readValue (cs.length + 1) cs
  if (skipSpace rest).isEmpty then some j else none

/-- The document that a string writes. -/
def parse (s : String) : Option Json := parseChars s.toList

end Json

end ClusterFirewall
