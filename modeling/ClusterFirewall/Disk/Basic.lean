/-!
# Files and folders

The part of a file system that the controller reads and writes, as a value: files with their bytes
and permission bits, folders, and the folder that relative paths start from. A fault is what the
system answers when it cannot do something with a file, a folder or a program.

Main statements: `get?_set` and `get?_erase` say what a change does to the places of the disk.
-/

namespace ClusterFirewall

/-! ## Faults -/

/-- Why the system did not do something. -/
inductive Fault where
  /-- Nothing has that name. -/
  | notFound
  /-- A file stands where a folder is needed. -/
  | notADirectory
  /-- A folder stands where a file is needed. -/
  | isADirectory
  /-- Something stands where a folder is to be made. -/
  | alreadyExists
  /-- The name is that of a folder in use. -/
  | busy
  /-- The path, or a name in it, is too long. -/
  | nameTooLong
  /-- The path holds the character zero. -/
  | zeroInName
  /-- A new name holds the character zero. -/
  | invalidArgument
  /-- The file is no UTF-8. -/
  | notText
  /-- The file is no program. -/
  | permissionDenied
  /-- A command holds the character zero. -/
  | zeroInCommand
  /-- No program can be started. -/
  | notSupported
  deriving DecidableEq, Repr

/-- The wording of a fault. -/
def Fault.message : Fault → String
  | .notFound => "No such file or directory (os error 2)"
  | .notADirectory => "Not a directory (os error 20)"
  | .isADirectory => "Is a directory (os error 21)"
  | .alreadyExists => "File exists (os error 17)"
  | .busy => "Device or resource busy (os error 16)"
  | .nameTooLong => "File name too long (os error 36)"
  | .zeroInName => "file name contained an unexpected NUL byte"
  | .invalidArgument => "Invalid argument (os error 22)"
  | .notText => "stream did not contain valid UTF-8"
  | .permissionDenied => "Permission denied (os error 13)"
  | .zeroInCommand => "nul byte found in provided data"
  | .notSupported => "Operation not supported (os error 95)"

/-! ## Disks -/

/-- A place on a disk: the names on the way from the root. -/
abbrev Place := List String

/-- What stands at a place. -/
inductive Node where
  /-- A file with its bytes and permission bits. -/
  | file (content : ByteArray) (mode : Nat)
  /-- A folder with its permission bits. -/
  | folder (mode : Nat)

instance : DecidableEq Node
  | .file c m, .file c' m' =>
    decidable_of_iff (c.data = c'.data ∧ m = m') (by simp [ByteArray.ext_iff])
  | .folder m, .folder m' => decidable_of_iff (m = m') (by simp)
  | .file .., .folder _ => isFalse (by simp)
  | .folder _, .file .. => isFalse (by simp)

/-- Files and folders. -/
structure Disk where
  /-- What stands where; the first entry of a place counts. -/
  nodes : List (Place × Node)
  /-- The folder that relative paths start from. -/
  workingFolder : Place

namespace Disk

/-- What stands at a place; the root is always a folder. -/
def get? (d : Disk) (p : Place) : Option Node :=
  if p = [] then some (.folder 0o755) else d.nodes.lookup p

/-- Empties a place. -/
def erase (d : Disk) (p : Place) : Disk := { d with nodes := d.nodes.filter fun e => e.1 != p }

/-- Puts something at a place. -/
def set (d : Disk) (p : Place) (n : Node) : Disk :=
  { d with nodes := (p, n) :: (d.erase p).nodes }

private theorem lookup_cons_ne {p q : Place} (h : q ≠ p) (n : Node) (l : List (Place × Node)) :
    ((p, n) :: l).lookup q = l.lookup q := by
  rw [List.lookup_cons, beq_eq_false_iff_ne.2 h]

private theorem lookup_filter_ne (l : List (Place × Node)) (p q : Place) :
    (l.filter fun e => e.1 != p).lookup q = if q = p then none else l.lookup q := by
  induction l with
  | nil => simp
  | cons e rest ih =>
    obtain ⟨r, n⟩ := e
    by_cases hr : r = p
    · by_cases hq : q = p
      · subst hr hq
        simpa using ih
      · simp [hr, hq, ih, lookup_cons_ne]
    · by_cases hq : q = r
      · subst hq
        simp [hr]
      · simp [hr, ih, lookup_cons_ne hq]

/-- Emptying a place leaves all others as they are. -/
theorem get?_erase (d : Disk) {p q : Place} (hq : q ≠ []) :
    (d.erase p).get? q = if q = p then none else d.get? q := by
  simp [get?, erase, hq, lookup_filter_ne]

/-- Filling a place leaves all others as they are. -/
theorem get?_set (d : Disk) {p q : Place} (n : Node) (hq : q ≠ []) :
    (d.set p n).get? q = if q = p then some n else d.get? q := by
  by_cases h : q = p
  · subst h
    simp [get?, set, hq]
  · simp [get?, set, erase, hq, h, lookup_filter_ne, lookup_cons_ne h]

end Disk

end ClusterFirewall
