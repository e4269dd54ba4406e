import ClusterFirewall.Json.Reader
import ClusterFirewall.Json.Writer

/-!
# Typed values in JSON

A type with a JSON form says how its values are written and which documents are read. A record is
read from an object, where unknown members are skipped and no known one may occur twice, or from a
list of its fields in their order, where fields at the end may be left out. An enumeration is read
from its word, or from an object with that word as its only name and `null` as its value.
-/

namespace ClusterFirewall

/-- A type whose values have a JSON form. -/
class JsonForm (α : Type) where
  /-- The document of a value. -/
  toJson : α → Json
  /-- The value of a document, if it has the form. -/
  ofJson? : Json → Option α

export JsonForm (toJson)

namespace Json

/-- The value that a text writes. -/
def read? (α : Type) [JsonForm α] (s : String) : Option α := (parse s).bind JsonForm.ofJson?

end Json

/-! ## Basic values -/

instance : JsonForm String where
  toJson := Json.str
  ofJson? | .string s => s
          | _ => none

instance : JsonForm Bool where
  toJson := .bool
  ofJson? | .bool b => some b
          | _ => none

/-- The natural number that a document writes: without sign, point and power of ten. -/
def Json.nat? : Json → Option Nat
  | .number ⟨false, n, [], none⟩ => some n
  | _ => none

/-- The natural number below a bound that a document writes. -/
def Json.natBelow? (bound : Nat) (j : Json) : Option Nat :=
  j.nat?.bind fun n => if n < bound then some n else none

instance : JsonForm UInt16 where
  toJson n := .nat n.toNat
  ofJson? j := (j.natBelow? UInt16.size).map UInt16.ofNat

instance : JsonForm UInt32 where
  toJson n := .nat n.toNat
  ofJson? j := (j.natBelow? UInt32.size).map UInt32.ofNat

instance : JsonForm UInt64 where
  toJson n := .nat n.toNat
  ofJson? j := (j.natBelow? UInt64.size).map UInt64.ofNat

instance {α : Type} [JsonForm α] : JsonForm (List α) where
  toJson xs := .array (xs.map toJson)
  ofJson? | .array items => items.mapM JsonForm.ofJson?
          | _ => none

instance {α : Type} [JsonForm α] : JsonForm (Option α) where
  toJson | some a => toJson a
         | none => .null
  ofJson? | .null => some none
          | j => (JsonForm.ofJson? j).map some

/-- The word that a document names: the word itself, or an object of that name whose value is
`null`. -/
def Json.word? : Json → Option String
  | .string s => s
  | .object [(k, .null)] => k
  | _ => none

/-! ## Records -/

/-- The fields of a record that a document gives, by their names. -/
structure Fields where
  /-- The given fields; each name at most once. -/
  given : List (String × Json)
  /-- Whether they were given by their places and not by their names. -/
  byPlace : Bool

/-- Whether no name occurs twice. -/
def allDistinct : List String → Bool
  | [] => true
  | x :: xs => !xs.contains x && allDistinct xs

/-- The members of an object, if all their names have values. -/
def namedMembers? (members : List (Option String × Json)) : Option (List (String × Json)) :=
  members.mapM fun m => m.1.map fun k => (k, m.2)

/-- The fields with the given names, if a document is a record of them. -/
def Json.fields? (names : List String) : Json → Option Fields
  | .object members => do
    let members ← namedMembers? members
    let known := members.filter fun m => names.contains m.1
    if allDistinct (known.map (·.1)) then some ⟨known, false⟩ else none
  | .array items => if items.length ≤ names.length then some ⟨names.zip items, true⟩ else none
  | _ => none

namespace Fields

/-- The value of a field that must be given. -/
def required {α : Type} [JsonForm α] (r : Fields) (name : String) : Option α :=
  (r.given.lookup name).bind JsonForm.ofJson?

/-- The value of a field that may be left out. -/
def orElse {α : Type} [JsonForm α] (r : Fields) (name : String) (default : α) : Option α :=
  match r.given.lookup name with
  | none => some default
  | some j => JsonForm.ofJson? j

end Fields

/-- A member that is written only if a test says so. -/
def memberIf {α : Type} [JsonForm α] (written : Bool) (name : String) (a : α) :
    List (String × Json) :=
  if written then [(name, toJson a)] else []

/-- A member that is written if there is a value. -/
def memberOf {α : Type} [JsonForm α] (name : String) : Option α → List (String × Json)
  | some a => [(name, toJson a)]
  | none => []

end ClusterFirewall
