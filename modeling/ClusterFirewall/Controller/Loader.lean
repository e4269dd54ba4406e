import ClusterFirewall.Controller.Diagnostics
import ClusterFirewall.Ruleset.Basic

/-!
# Loading a ruleset

A ruleset is written beside its target file, checked by a command, loaded by the same command, and
only then put in the target's place. If the target holds the text already, nothing is done. A dry
run leaves the commands out.

The commands are started by a launcher; the launches of a call are part of its result.
-/

namespace ClusterFirewall

/-! ## The loader -/

/-- What loading did. -/
inductive ApplyOutcome where
  /-- The ruleset was loaded; this is its digest. -/
  | applied (checksum : String)
  /-- The ruleset was the loaded one. -/
  | unchanged (checksum : String)
  deriving DecidableEq, Repr

/-- The digest of the ruleset that is loaded now. -/
def ApplyOutcome.checksum : ApplyOutcome → String
  | .applied checksum => checksum
  | .unchanged checksum => checksum

/-- How rulesets are loaded. -/
structure Loader where
  /-- The program that checks and loads. -/
  program : String
  /-- The arguments that come first. -/
  arguments : List String
  /-- The file of the loaded ruleset. -/
  target : String
  /-- Whether the program is left out. -/
  dryRun : Bool
  deriving DecidableEq, Repr

/-- The result of loading a ruleset. -/
structure LoadResult where
  /-- The disk afterwards. -/
  disk : Disk
  /-- The commands that were started, in order. -/
  launches : List Launch
  /-- What was done, or why not. -/
  result : Except Error ApplyOutcome

namespace Loader

/-- The loader of a command line, which is cut at its blanks. -/
def ofCommandLine (commandLine target : String) (dryRun : Bool) : Except Error Loader :=
  match Text.words commandLine with
  | [] => .error (.config "nft command must not be empty")
  | program :: arguments => .ok ⟨program, arguments, target, dryRun⟩

/-- The file beside a target that a ruleset is checked and loaded from. -/
def stagingOf (target : String) : String :=
  let p := Path.ofText target
  p.sibling (p.fileName?.getD "" ++ ".staging")

/-- The file that a ruleset is checked and loaded from. -/
def staging (l : Loader) : String := stagingOf l.target

/-- The command that checks the staged ruleset. -/
def checkCommand (l : Loader) : Command :=
  ⟨l.program, l.arguments ++ ["-c", "-f", l.staging]⟩

/-- The command that loads the staged ruleset. -/
def loadCommand (l : Loader) : Command := ⟨l.program, l.arguments ++ ["-f", l.staging]⟩

/-- The text of the target file, if there is one. -/
def previous (l : Loader) (d : Disk) : Except Error (Option String) :=
  match d.readText l.target with
  | .ok text => .ok (some text)
  | .error .notFound => .ok none
  | .error f => .error (.io f)

/-- Checks and loads the staged ruleset; a failed check leaves the loading out. -/
def runCommands (l : Loader) (launcher : Launcher) (d : Disk) : List Launch × Except Error Unit :=
  match launcher.run l.checkCommand d with
  | (launches, .error e) => (launches, .error e)
  | (launches, .ok ()) =>
    let (more, result) := launcher.run l.loadCommand d
    (launches ++ more, result)

/-- The disk without the staging file. -/
def dropStaging (l : Loader) (d : Disk) : Disk :=
  match d.remove l.staging with
  | .ok d => d
  | .error _ => d

/-- Puts the staged ruleset in the target's place. -/
def commit (l : Loader) (launches : List Launch) (d : Disk) (text : String) : LoadResult :=
  match d.rename l.staging l.target with
  | .ok d => ⟨d, launches, .ok (.applied (checksum text))⟩
  | .error f => ⟨d, launches, .error (.io f)⟩

/-- Loads a staged ruleset. -/
def loadStaged (l : Loader) (launcher : Launcher) (d : Disk) (text : String) : LoadResult :=
  if l.dryRun then l.commit [] d text
  else
    match l.runCommands launcher d with
    | (launches, .ok ()) => l.commit launches d text
    | (launches, .error e) => ⟨l.dropStaging d, launches, .error e⟩

/-- Loads a ruleset, unless it is the loaded one. -/
def apply (l : Loader) (launcher : Launcher) (d : Disk) (text : String) : LoadResult :=
  match l.previous d with
  | .error e => ⟨d, [], .error e⟩
  | .ok previous =>
    if previous = some text then ⟨d, [], .ok (.unchanged (checksum text))⟩
    else
      match d.writeAtomic l.staging text.toUTF8 with
      | .error f => ⟨d, [], .error (.io f)⟩
      | .ok staged => l.loadStaged launcher staged text

end Loader

end ClusterFirewall
