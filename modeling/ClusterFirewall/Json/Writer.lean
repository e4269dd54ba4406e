import ClusterFirewall.Json.Basic

/-!
# Writing JSON

Two layouts: the compact one without blanks, and the wide one with one member or item a line and
two blanks of indentation a level, where empty lists and objects stay on one line. In strings only
the quote, the backslash and the control characters below the blank are escaped.
-/

namespace ClusterFirewall

/-! ## Numbers and strings -/

/-- The text of an exponent, which always has a sign. -/
def exponentChars : Option Int → List Char
  | none => []
  | some (.ofNat n) => 'e' :: '+' :: Nat.toDigits 10 n
  | some (.negSucc n) => 'e' :: '-' :: Nat.toDigits 10 (n + 1)

/-- The text of the digits after the point. -/
def fractionChars : List (Fin 10) → List Char
  | [] => []
  | d :: ds => '.' :: (d :: ds).map fun d => Nat.digitChar d.val

/-- The text of a number. -/
def Numeral.chars (n : Numeral) : List Char :=
  (if n.negative then ['-'] else []) ++ Nat.toDigits 10 n.whole ++ fractionChars n.fraction ++
    exponentChars n.exponent

namespace Json

/-- The digit of a number below sixteen. -/
def hexChar (n : Nat) : Char := Nat.digitChar n

/-- The text of one character inside a string. -/
def escape (c : Char) : List Char :=
  if c = '"' then ['\\', '"']
  else if c = '\\' then ['\\', '\\']
  else if c = '\x08' then ['\\', 'b']
  else if c = '\x0c' then ['\\', 'f']
  else if c = '\n' then ['\\', 'n']
  else if c = '\r' then ['\\', 'r']
  else if c = '\t' then ['\\', 't']
  else if c.toNat < 0x20 then
    ['\\', 'u', '0', '0', hexChar (c.toNat / 16), hexChar (c.toNat % 16)]
  else [c]

/-- The text of a string; one without a value is written as half of a surrogate pair. -/
def stringChars : Option String → List Char
  | some s => '"' :: s.toList.flatMap escape ++ ['"']
  | none => ['"', '\\', 'u', 'd', '8', '0', '0', '"']

/-! ## The compact layout -/

mutual

/-- The compact text of a document. -/
def compactChars : Json → List Char
  | .null => ['n', 'u', 'l', 'l']
  | .bool true => ['t', 'r', 'u', 'e']
  | .bool false => ['f', 'a', 'l', 's', 'e']
  | .number n => n.chars
  | .string s => stringChars s
  | .array items => '[' :: compactItems items ++ [']']
  | .object members => '{' :: compactMembers members ++ ['}']

/-- The compact texts of items, commas between them. -/
def compactItems : List Json → List Char
  | [] => []
  | [j] => compactChars j
  | j :: j' :: rest => compactChars j ++ ',' :: compactItems (j' :: rest)

/-- The compact texts of members, commas between them. -/
def compactMembers : List (Option String × Json) → List Char
  | [] => []
  | [(k, j)] => stringChars k ++ ':' :: compactChars j
  | (k, j) :: m :: rest => stringChars k ++ ':' :: compactChars j ++ ',' :: compactMembers (m :: rest)

end

/-- The compact text of a document. -/
def compact (j : Json) : String := String.ofList j.compactChars

/-! ## The wide layout -/

/-- A line break and the indentation of a level. -/
def newLine (level : Nat) : List Char := '\n' :: List.replicate (2 * level) ' '

mutual

/-- The wide text of a document that stands at a level. -/
def wideChars (level : Nat) : Json → List Char
  | .null => ['n', 'u', 'l', 'l']
  | .bool true => ['t', 'r', 'u', 'e']
  | .bool false => ['f', 'a', 'l', 's', 'e']
  | .number n => n.chars
  | .string s => stringChars s
  | .array [] => ['[', ']']
  | .array (j :: rest) => '[' :: wideItems (level + 1) (j :: rest) ++ newLine level ++ [']']
  | .object [] => ['{', '}']
  | .object (m :: rest) => '{' :: wideMembers (level + 1) (m :: rest) ++ newLine level ++ ['}']

/-- The wide texts of items, each on a line of its own. -/
def wideItems (level : Nat) : List Json → List Char
  | [] => []
  | [j] => newLine level ++ wideChars level j
  | j :: j' :: rest => newLine level ++ wideChars level j ++ ',' :: wideItems level (j' :: rest)

/-- The wide texts of members, each on a line of its own. -/
def wideMembers (level : Nat) : List (Option String × Json) → List Char
  | [] => []
  | [(k, j)] => newLine level ++ stringChars k ++ ':' :: ' ' :: wideChars level j
  | (k, j) :: m :: rest =>
    newLine level ++ stringChars k ++ ':' :: ' ' :: wideChars level j ++
      ',' :: wideMembers level (m :: rest)

end

/-- The wide text of a document. -/
def wide (j : Json) : String := String.ofList (j.wideChars 0)

end Json

end ClusterFirewall
