import ClusterFirewall.Text.Split

/-!
# Arguments of the command line

The first argument that is no option names what to do; options follow it. An option that takes a
value has it after an equals sign, directly after its letter, or as the next argument, which may
start with a dash only if it is nothing else. Letters may be put together behind one dash. Every
option may be given once, and paths may not be empty.
-/

namespace ClusterFirewall.CommandLine

/-! ## Options -/

/-- An option. -/
structure Flag where
  /-- The word that stands after two dashes. -/
  word : String
  /-- The letter that stands after one dash. -/
  letter : Option Char
  /-- Whether a value belongs to it. -/
  takesValue : Bool
  deriving DecidableEq, Repr

/-- Asks for more messages; it may stand before and after the name of what to do. -/
def verbose : Flag := ⟨"verbose", some 'v', false⟩

/-- The file of the cluster's state. -/
def stateFlag : Flag := ⟨"state", some 's', true⟩

/-- The file of the resolutions. -/
def setsFlag : Flag := ⟨"sets", none, true⟩

/-- The format of the output. -/
def formatFlag : Flag := ⟨"format", some 'f', true⟩

/-- The file of the snapshots. -/
def snapshotsFlag : Flag := ⟨"snapshots", none, true⟩

/-- The file of the settings. -/
def configFlag : Flag := ⟨"config", some 'c', true⟩

/-- An option with its value, which is empty if it takes none. -/
abbrev Given := String × String

/-! ## Reading options -/

/-- What an argument holds: complete options, and the word of one whose value is the next
argument. -/
structure Piece where
  /-- The complete options. -/
  given : List Given
  /-- The option that waits for its value. -/
  waiting : Option String

/-- Reads the letters after one dash. -/
def readLetters (flags : List Flag) : List Char → Option Piece
  | [] => some ⟨[], none⟩
  | c :: rest =>
    match flags.find? fun f => f.letter == some c with
    | none => none
    | some f =>
      if f.takesValue then
        match rest with
        -- Nothing is left of the argument, so the value is the next one.
        | [] => some ⟨[], some f.word⟩
        | '=' :: value => some ⟨[(f.word, String.ofList value)], none⟩
        | value => some ⟨[(f.word, String.ofList value)], none⟩
      else (readLetters flags rest).map fun p => { p with given := (f.word, "") :: p.given }

/-- Reads what stands after two dashes. -/
def readWord (flags : List Flag) (cs : List Char) : Option Piece :=
  match Text.splitOnce '=' cs with
  | some (word, value) =>
    match flags.find? fun f => f.word == String.ofList word with
    | some f =>
      if f.takesValue then some ⟨[(f.word, String.ofList value)], none⟩ else none
    | none => none
  | none =>
    match flags.find? fun f => f.word == String.ofList cs with
    | some f => some (if f.takesValue then ⟨[], some f.word⟩ else ⟨[(f.word, "")], none⟩)
    | none => none

/-- Reads an argument that must hold options. -/
def readArgument (flags : List Flag) (argument : String) : Option Piece :=
  match argument.toList with
  | '-' :: '-' :: rest => readWord flags rest
  | '-' :: c :: rest => readLetters flags (c :: rest)
  | _ => none

/-- Whether an argument can be the value of the option before it. -/
def isValue (argument : String) : Bool := !argument.startsWith '-' || argument == "-"

/-- Reads options, where one may wait for its value. Two dashes alone may stand at the end. -/
def readOptions (flags : List Flag) : Option String → List String → Option (List Given)
  | none, [] => some []
  | some _, [] => none
  | some word, value :: rest =>
    if isValue value then (readOptions flags none rest).map fun gs => (word, value) :: gs else none
  | none, argument :: rest =>
    if argument = "--" then if rest.isEmpty then some [] else none
    else
      match readArgument flags argument with
      | none => none
      | some p => (readOptions flags p.waiting rest).map fun gs => p.given ++ gs

/-- Whether no option is given twice. -/
def allOnce : List Given → Bool
  | [] => true
  | g :: rest => !rest.any (fun h => h.1 == g.1) && allOnce rest

/-- Reads the options of a list of flags, each at most once. -/
def options? (flags : List Flag) (arguments : List String) : Option (List Given) :=
  (readOptions (verbose :: flags) none arguments).filter allOnce

/-! ## Requests -/

/-- The format of a compiled ruleset. -/
inductive Format where
  /-- The text of the ruleset. -/
  | ruleset
  /-- The policies in force as JSON. -/
  | json
  deriving DecidableEq, Repr

/-- What is asked for. -/
inductive Request where
  /-- Print the ruleset of a cluster. -/
  | compile (state : String) (sets : Option String) (format : Format)
  /-- Say whether the applied ruleset is stale. -/
  | check (state snapshots : String) (sets : Option String)
  /-- Reconcile until interrupted. -/
  | run (state : String) (sets config : Option String)
  deriving DecidableEq, Repr

/-- A path that must be given. -/
def requiredPath (given : List Given) (f : Flag) : Option String :=
  (given.lookup f.word).filter fun path => !path.isEmpty

/-- A path that may be left out. -/
def optionalPath (given : List Given) (f : Flag) : Option (Option String) :=
  match given.lookup f.word with
  | none => some none
  | some path => if path.isEmpty then none else some (some path)

/-- The format, which is the ruleset's text if it is left out. -/
def format (given : List Given) : Option Format :=
  match given.lookup formatFlag.word with
  | none => some .ruleset
  | some "nft" => some .ruleset
  | some "json" => some .json
  | some _ => none

/-- Reads the options of what is asked for by name. -/
def requestNamed (name : String) (arguments : List String) : Option Request :=
  match name with
  | "compile" => do
    let given ← options? [stateFlag, setsFlag, formatFlag] arguments
    pure (.compile (← requiredPath given stateFlag) (← optionalPath given setsFlag) (← format given))
  | "check" => do
    let given ← options? [stateFlag, snapshotsFlag, setsFlag] arguments
    pure
      (.check (← requiredPath given stateFlag) (← requiredPath given snapshotsFlag)
        (← optionalPath given setsFlag))
  | "run" => do
    let given ← options? [stateFlag, setsFlag, configFlag] arguments
    pure
      (.run (← requiredPath given stateFlag) (← optionalPath given setsFlag)
        (← optionalPath given configFlag))
  | _ => none

/-- The request that arguments make, if they make one. -/
def request? (arguments : List String) : Option Request :=
  let front := arguments.takeWhile fun a => a.startsWith '-'
  match arguments.drop front.length with
  | [] => none
  | name :: rest =>
    match options? [] front with
    | some _ => if front.contains "--" then none else requestNamed name rest
    | none => none

end ClusterFirewall.CommandLine
