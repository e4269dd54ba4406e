import ClusterFirewall.Disk.Walk
import ClusterFirewall.Text.Utf8

/-!
# Reading and changing files

Every operation gives what it read, or the new disk, or the fault that stopped it. Where several
faults are possible the order of the checks is that of the system: the path's text, the way to the
last step, the last step itself, and then what stands there.
-/

namespace ClusterFirewall.Disk

/-! ## Reading -/

/-- The bytes of a file. -/
def readBytes (d : Disk) (path : String) : Except Fault ByteArray := do
  match ← d.find path with
  | .folder _ => throw .isADirectory
  | .file content _ => pure content

/-- The text of a file. -/
def readText (d : Disk) (path : String) : Except Fault String := do
  match Text.decode? (← d.readBytes path) with
  | some s => pure s
  | none => throw .notText

/-- The permission bits of what a path names. -/
def mode? (d : Disk) (path : String) : Option Nat :=
  match d.find path with
  | .ok (.file _ mode) => some mode
  | .ok (.folder mode) => some mode
  | .error _ => none

/-- Whether a path names a folder. -/
def isFolder (d : Disk) (path : String) : Bool :=
  match d.find path with
  | .ok (.folder _) => true
  | _ => false

/-- The names in a folder, in order. -/
def namesIn (d : Disk) (folder : Place) : List String :=
  let below := d.nodes.filterMap fun e =>
    if e.1.dropLast = folder && e.1 != [] then e.1.getLast? else none
  below.mergeSort fun a b => a ≤ b

/-! ## Changing files -/

/-- Changes the bytes of a file in place; a missing file is made, from no bytes. -/
def change (d : Disk) (path : String) (f : ByteArray → ByteArray) : Except Fault Disk := do
  match ← d.resolve path with
  | .folder _ => throw .isADirectory
  | .entry folder name withSlash =>
    if withSlash then throw .isADirectory
    let place ← placeIn folder name
    match d.get? place with
    | some (.folder _) => throw .isADirectory
    | some (.file old mode) => pure (d.set place (.file (f old) mode))
    | none => pure (d.set place (.file (f .empty) 0o644))

/-- Adds bytes at the end of a file, which is made if it is missing. -/
def append (d : Disk) (path : String) (content : ByteArray) : Except Fault Disk :=
  d.change path (· ++ content)

/-- Gives a file new bytes in place; it is made if it is missing. -/
def write (d : Disk) (path : String) (content : ByteArray) : Except Fault Disk :=
  d.change path fun _ => content

/-- Removes a file. -/
def remove (d : Disk) (path : String) : Except Fault Disk := do
  match ← d.find path with
  | .folder _ => throw .isADirectory
  | .file .. => pure (d.erase (← d.locate path))

/-- The place that a file gets with a new name: a folder keeps its name, a file loses it. -/
def newPlace (d : Disk) (path : String) : Except Fault Place := do
  match ← d.resolve path with
  | .folder _ => throw .busy
  | .entry folder name withSlash =>
    let place ← placeIn folder name
    if withSlash then throw .notADirectory
    match d.get? place with
    | some (.folder _) => throw .isADirectory
    | _ => pure place

/-- Gives a file another name, replacing the file that has it. -/
def rename (d : Disk) (source target : String) : Except Fault Disk := do
  match ← d.find source with
  | .folder _ => throw .isADirectory
  | .file content mode =>
    let here ← d.locate source
    let there ← d.newPlace target
    pure ((d.erase here).set there (.file content mode))

/-- A name of the length that files have while they are written. -/
def scratchName : String := ".tmp000000"

/-- The path of the file that new bytes are written to before they take the name of a path. It is
beside that name and starts at the root. -/
def scratchPath (d : Disk) (path : String) : String :=
  let folder := (((Path.ofText path).parent?).map Path.text).getD ""
  Path.join ("/" ++ "/".intercalate d.workingFolder)
    (Path.join (if folder.isEmpty then "." else folder) scratchName)

/-- Replaces a file as a whole. The new bytes are written beside it, readable by the owner only, and
take its name in one step. -/
def writeAtomic (d : Disk) (path : String) (content : ByteArray) : Except Fault Disk := do
  let _ ← d.resolve (d.scratchPath path)
  if holdsZero path then throw .invalidArgument
  pure (d.set (← d.newPlace path) (.file content 0o600))

/-! ## Making folders -/

/-- Makes one folder in a folder that is there. -/
def makeFolder (d : Disk) (path : String) (mode : Nat) : Except Fault Disk := do
  match ← d.resolve path with
  | .folder _ => throw .alreadyExists
  | .entry folder name _ =>
    let place ← placeIn folder name
    match d.get? place with
    | some _ => throw .alreadyExists
    | none => pure (d.set place (.folder mode))

/-- Makes one folder unless it is there. -/
def ensureFolder (d : Disk) (path : String) (mode : Nat) : Except Fault Disk :=
  match d.makeFolder path mode with
  | .ok d => .ok d
  | .error f => if d.isFolder path then .ok d else .error f

/-- Makes a folder; where the way to it is missing, that above it is made before. -/
def makeFolders (d : Disk) (p : Path) (mode : Nat) : Except Fault Disk :=
  match d.ensureFolder p.text mode with
  | .ok d => .ok d
  | .error .notFound =>
    match _ : p.parent? with
    | none => .error .notFound
    | some above => do
      let d ← if above.text.isEmpty then pure d else d.makeFolders above mode
      d.ensureFolder p.text mode
  | .error f => .error f
termination_by p.pieces.length
decreasing_by exact Path.length_pieces_parent? ‹_›

/-- Makes a folder and those above it that are missing. -/
def createFolder (d : Disk) (path : String) (mode : Nat) : Except Fault Disk :=
  if path.isEmpty then .ok d else d.makeFolders (.ofText path) mode

end ClusterFirewall.Disk
