import ClusterFirewall.Disk.Basic
import ClusterFirewall.Disk.Path

/-!
# Finding places

A path is followed step by step from the root or the working folder. Every place on the way has to
be a folder, and so has the place that a single dot stays in. The last step is left to the
operation: it may name what is not there yet, and a name is not the same as dots that lead to a
folder.
-/

namespace ClusterFirewall

/-- The place that a step leads to. -/
def Place.after (here : Place) (step : String) : Place :=
  if step = "." then here else if step = ".." then here.dropLast else here ++ [step]

/-- The places on a way, with that where it starts. -/
def Place.along : Place → List String → List Place
  | here, [] => [here]
  | here, step :: rest => here :: Place.along (Place.after here step) rest

/-- Whether a text holds the character zero, which no path can hold. -/
def holdsZero (s : String) : Bool := s.toList.contains '\x00'

/-- The bytes that a name may have. -/
def longestName : Nat := 255

/-- The bytes that a path may have. -/
def longestPath : Nat := 4095

/-- Checks a path before anything is looked up. -/
def checkPath (path : String) : Except Fault Unit :=
  if holdsZero path then .error .zeroInName
  else if path.isEmpty then .error .notFound
  else if longestPath < path.utf8ByteSize then .error .nameTooLong
  else .ok ()

/-- Checks the length of a name. -/
def checkName (name : String) : Except Fault Unit :=
  if longestName < name.utf8ByteSize then .error .nameTooLong else .ok ()

/-- What a path leads to. -/
inductive Destination where
  /-- The root, or a folder that dots lead to. -/
  | folder (place : Place)
  /-- A name in a folder, with whether a slash follows it. -/
  | entry (folder : Place) (name : String) (withSlash : Bool)
  deriving DecidableEq, Repr

namespace Disk

/-- Checks that a place is a folder. -/
def checkFolder (d : Disk) (p : Place) : Except Fault Unit :=
  match d.get? p with
  | some (.folder _) => .ok ()
  | some (.file ..) => .error .notADirectory
  | none => .error .notFound

/-- Follows steps from a place; all places that a step is taken from must be folders. -/
def follow (d : Disk) : Place → List String → Except Fault Place
  | here, [] => .ok here
  | here, step :: rest => do
    d.checkFolder here
    checkName step
    d.follow (Place.after here step) rest

/-- Where a path starts. -/
def startOf (d : Disk) (p : Path) : Place := if p.absolute then [] else d.workingFolder

/-- The places that a path passes. -/
def placesOn (d : Disk) (path : String) : List Place :=
  let p := Path.ofText path
  Place.along (d.startOf p) p.steps

/-- Follows a path up to its last step. -/
def resolve (d : Disk) (path : String) : Except Fault Destination := do
  checkPath path
  let p := Path.ofText path
  let here ← d.follow (d.startOf p) p.steps.dropLast
  d.checkFolder here
  match p.steps.getLast? with
  | none => pure (.folder here)
  | some step =>
    if step = "." || step = ".." then pure (.folder (Place.after here step))
    else pure (.entry here step p.endsWithSlash)

/-- The place of a name in a folder. -/
def placeIn (folder : Place) (name : String) : Except Fault Place := do
  checkName name
  pure (folder ++ [name])

/-- The place that a path names, whether or not something stands there. -/
def locate (d : Disk) (path : String) : Except Fault Place := do
  match ← d.resolve path with
  | .folder place => pure place
  | .entry folder name _ => placeIn folder name

/-- What stands where a path leads. -/
def find (d : Disk) (path : String) : Except Fault Node := do
  match ← d.resolve path with
  | .folder place =>
    match d.get? place with
    | some node => pure node
    | none => throw .notFound
  | .entry folder name withSlash =>
    match d.get? (← placeIn folder name) with
    | some (.folder mode) => pure (.folder mode)
    | some (.file content mode) =>
      if withSlash then throw .notADirectory else pure (.file content mode)
    | none => throw .notFound

end Disk

end ClusterFirewall
