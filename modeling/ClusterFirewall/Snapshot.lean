import ClusterFirewall.Digest.Sha256
import ClusterFirewall.Disk.Files
import ClusterFirewall.Error
import ClusterFirewall.Policy.Form
import ClusterFirewall.SortedMap

/-!
# Snapshots of applied policies

The store remembers, for every policy that was part of a loaded ruleset, what it allowed then and
which sets its selectors were resolved to. Drift is what differs from it.

The store is kept in a file of one JSON object: the format version, a checksum and the entries, each
under the text of its key. The checksum is the digest of the compact text of the entries in the
order of their names, so the layout of the file does not matter to it and everything else does.
-/

namespace ClusterFirewall

/-! ## The store -/

/-- The applied policies by their keys. -/
abbrev SnapshotStore := SortedMap PolicyKey PolicySpec

namespace SnapshotStore

/-- Records what a policy allows. -/
def record (s : SnapshotStore) (p : Policy) : SnapshotStore := s.insert p.key p.spec

/-- Records policies one after the other. -/
def recordAll (s : SnapshotStore) (policies : List Policy) : SnapshotStore :=
  policies.foldl record s

end SnapshotStore

/-! ## The content of a file -/

/-- The content of a snapshot file. -/
structure SnapshotFile where
  /-- The format version. -/
  version : UInt32
  /-- The checksum of the entries. -/
  checksum : String
  /-- The entries by the texts of their keys. -/
  specs : SortedMap String PolicySpec
  deriving DecidableEq

/-- The document of named entries. -/
def specsToJson (specs : SortedMap String PolicySpec) : Json :=
  .record (specs.entries.map fun e => (e.1, toJson e.2))

/-- The named entries that a document writes; of equal names the last one stays. -/
def specsOfJson? : Json → Option (SortedMap String PolicySpec)
  | .object members => do
    let members ← namedMembers? members
    let entries ← members.mapM fun m => (JsonForm.ofJson? m.2).map fun spec => (m.1, spec)
    pure (SortedMap.ofList entries)
  | _ => none

instance : JsonForm (SortedMap String PolicySpec) where
  toJson := specsToJson
  ofJson? := specsOfJson?

instance : JsonForm SnapshotFile where
  toJson f := .record
    [("version", toJson f.version), ("checksum", toJson f.checksum), ("specs", toJson f.specs)]
  ofJson? j := do
    let r ← j.fields? ["version", "checksum", "specs"]
    pure ⟨← r.required "version", ← r.required "checksum", ← r.required "specs"⟩

namespace SnapshotFile

/-- The format version of the files that are written and read. -/
def currentVersion : UInt32 := 1

/-- The checksum of entries. -/
def checksumOf (specs : SortedMap String PolicySpec) : String :=
  Sha256.hex (specsToJson specs).compact

/-- The file of a store. -/
def ofStore (s : SnapshotStore) : SnapshotFile :=
  let specs : SortedMap String PolicySpec :=
    SortedMap.ofList (s.entries.map fun e => (e.1.text, e.2))
  ⟨currentVersion, checksumOf specs, specs⟩

/-- Records entries under the keys that their names write. -/
def recordEntries : List (String × PolicySpec) → SnapshotStore → Except SnapshotError SnapshotStore
  | [], s => .ok s
  | (name, spec) :: rest, s =>
    match PolicyKey.parse? name with
    | none => .error (.invalidKey name)
    | some key => recordEntries rest (s.insert key spec)

/-- The store of a file, if version, checksum and keys are in order, checked one after the other. -/
def toStore (f : SnapshotFile) : Except SnapshotError SnapshotStore :=
  if f.version ≠ currentVersion then .error (.versionMismatch f.version currentVersion)
  else if checksumOf f.specs ≠ f.checksum then
    .error (.checksumMismatch f.checksum (checksumOf f.specs))
  else recordEntries f.specs.entries ∅

end SnapshotFile

/-! ## The store in its file -/

namespace SnapshotStore

/-- The text of a store's file. -/
def fileText (s : SnapshotStore) : String := (toJson (SnapshotFile.ofStore s)).wide

/-- The store that the text of a file writes. -/
def ofFileText (text : String) : Except Error SnapshotStore :=
  match Json.read? SnapshotFile text with
  | none => .error .json
  | some f =>
    match f.toStore with
    | .ok s => .ok s
    | .error e => .error (.snapshot e)

/-- Writes a store to its file. -/
def save (s : SnapshotStore) (d : Disk) (path : String) : Except Error Disk :=
  orFault (d.writeAtomic path s.fileText.toUTF8)

/-- Reads a store from its file; a missing file is an empty store. -/
def load (d : Disk) (path : String) : Except Error SnapshotStore :=
  match d.readText path with
  | .ok text => ofFileText text
  | .error .notFound => .ok ∅
  | .error f => .error (.io f)

/-- Reads a store from its file, or starts with an empty one. -/
def loadOrEmpty (d : Disk) (path : String) : SnapshotStore :=
  match load d path with
  | .ok s => s
  | .error _ => ∅

end SnapshotStore

end ClusterFirewall
