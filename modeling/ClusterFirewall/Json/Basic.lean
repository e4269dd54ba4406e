/-!
# JSON documents as they are written

A document keeps what its text says: the order and repetition of an object's members, the digits of
a number, and whether a string has a value at all (the escape of half a surrogate pair has none).
Readers of typed values decide what of this they accept.
-/

namespace ClusterFirewall

/-- A number as written: sign, digits before the point, digits after it, and power of ten. -/
structure Numeral where
  /-- Whether a minus sign stands in front. -/
  negative : Bool
  /-- The number before the point. -/
  whole : Nat
  /-- The digits after the point; none if there is no point. -/
  fraction : List (Fin 10)
  /-- The power of ten, if one is written. -/
  exponent : Option Int
  deriving DecidableEq, Repr

/-- The value of a decimal digit. -/
def digitValue (c : Char) : Fin 10 := ⟨(c.toNat - '0'.toNat) % 10, Nat.mod_lt _ (by decide)⟩

/-- A JSON document. A string is `none` if its escapes leave half of a surrogate pair alone. -/
inductive Json where
  /-- The word `null`. -/
  | null
  /-- A truth value. -/
  | bool (b : Bool)
  /-- A number. -/
  | number (n : Numeral)
  /-- A string. -/
  | string (s : Option String)
  /-- A list of documents. -/
  | array (items : List Json)
  /-- Named documents in the order in which they are written. -/
  | object (members : List (Option String × Json))
  deriving Inhabited

namespace Json

/-- The document of a natural number. -/
def nat (n : Nat) : Json := .number ⟨false, n, [], none⟩

/-- The document of a string. -/
def str (s : String) : Json := .string (some s)

/-- An object with the given members. -/
def record (members : List (String × Json)) : Json :=
  .object (members.map fun m => (some m.1, m.2))

/-! ## Looking into documents -/

/-- The value of an object's first member of a name. -/
def member? (name : String) : Json → Option Json
  | .object members => members.lookup (some name)
  | _ => none

/-- The text of a string. -/
def string? : Json → Option String
  | .string s => s
  | _ => none

/-- The items of a list. -/
def items? : Json → Option (List Json)
  | .array items => some items
  | _ => none

end Json

end ClusterFirewall
