import ClusterFirewall.Disk.Files
import ClusterFirewall.Error
import ClusterFirewall.Json.Reader
import ClusterFirewall.Json.Stored
import ClusterFirewall.Text.Split

/-!
# Commands and their diagnostics

A command is a program with arguments. What it does is left open: a launcher says how each command
ends on each disk. Some commands cannot be started whatever programs there are, which `obstacle?`
finds.

A command that fails reports in one of two ways: a JSON object with a list of errors, or lines of
text. A line is stripped of the marks that the command puts in front.
-/

namespace ClusterFirewall

/-! ## Diagnostics -/

namespace Diagnostics

/-- The messages of a JSON report, if the text is one; errors without a message are passed over. -/
def ofReport? (stderr : String) : Option (List String) := do
  let report ← (Json.parse stderr).bind (Json.stored? Json.nestingLimit)
  let errors ← (report.member? "errors").bind Json.items?
  pure (errors.filterMap fun e => (e.member? "message").bind Json.string?)

/-- A line without the marks at its front. -/
def stripMarks (line : String) : String :=
  Text.dropRepeated "nft: " (Text.dropRepeated "Error: " (Text.trim line))

/-- The messages of lines of text. -/
def ofLines (stderr : String) : List String :=
  ((Text.lines stderr).filter fun line => !Text.isAllBlank line).map stripMarks

/-- The messages of a report. -/
def messages (stderr : String) : List String := (ofReport? stderr).getD (ofLines stderr)

end Diagnostics

/-! ## Commands -/

/-- A program with its arguments. -/
structure Command where
  /-- The program. -/
  program : String
  /-- The arguments. -/
  arguments : List String
  deriving DecidableEq, Repr

/-- How a command ended. -/
inductive Exit where
  /-- It could not be started. -/
  | notStarted (fault : Fault)
  /-- It ended by itself. -/
  | code (status : Nat) (stderr : ByteArray)
  /-- It was ended by a signal. -/
  | signal (number : Nat) (name : String) (stderr : ByteArray)

/-- How each command ends on each disk. -/
abbrev Launcher := Command → Disk → Exit

/-- A command that was started, with the disk that it found. -/
structure Launch where
  /-- The command. -/
  command : Command
  /-- The disk at its start. -/
  disk : Disk

/-! ## Starting -/

/-- Whether a file with these permission bits is a program. -/
def isProgram (mode : Nat) : Bool := mode &&& 0o111 != 0

/-- Why a command cannot be started on a disk. A program with a slash in its name is a file; a name
without one is looked for in the folders of the system, where the dots are folders. -/
def Command.obstacle? (c : Command) (d : Disk) : Option Fault :=
  if (c.program :: c.arguments).any holdsZero then some .zeroInCommand
  else if c.program.toList.contains '/' then
    match d.find c.program with
    | .ok (.file _ mode) => if isProgram mode then none else some .permissionDenied
    | .ok (.folder _) => some .permissionDenied
    | .error f => some f
  else if c.program = "." || c.program = ".." then some .permissionDenied
  else if longestName < c.program.utf8ByteSize then some .nameTooLong
  else none

/-- Starts a command unless there is an obstacle. -/
def Launcher.start (launcher : Launcher) : Launcher := fun c d =>
  match c.obstacle? d with
  | some fault => .notStarted fault
  | none => launcher c d

/-! ## Judging the end -/

/-- The error of a command that failed: its own messages, or else how it ended. -/
def failedCommand (program ending : String) (exitCode : Option Int) (stderr : ByteArray) : Error :=
  let text := Text.decodeLossy stderr
  let messages := Diagnostics.messages text
  .nftables
    (if messages.isEmpty then program ++ " exited with " ++ ending else "; ".intercalate messages)
    (some text) exitCode

/-- Whether a command succeeded, and else the error. -/
def Exit.check (program : String) : Exit → Except Error Unit
  | .notStarted fault => .error (.internal s!"Failed to spawn {program}: {fault.message}")
  | .code status stderr =>
    if status = 0 then .ok ()
    else
      .error (failedCommand program ("exit status: " ++ toString status) (some status) stderr)
  | .signal number name stderr =>
    .error
      (failedCommand program ("signal: " ++ toString number ++ " (" ++ name ++ ")") none stderr)

/-- Whether a command was started at all. -/
def Exit.started : Exit → Bool
  | .notStarted _ => false
  | .code .. => true
  | .signal .. => true

/-- Runs a command: the launch, if there was one, and whether the command succeeded. -/
def Launcher.run (launcher : Launcher) (c : Command) (d : Disk) :
    List Launch × Except Error Unit :=
  let exit := launcher c d
  (if exit.started then [⟨c, d⟩] else [], exit.check c.program)

end ClusterFirewall
