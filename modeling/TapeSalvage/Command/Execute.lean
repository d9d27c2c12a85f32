import TapeSalvage.Command.Arguments
import TapeSalvage.Command.Store
import TapeSalvage.Recovery.Pipeline
import TapeSalvage.Strings.Report
import TapeSalvage.Strings.Run
import TapeSalvage.Text.Utf8

/-!
The commands. Each reads its arguments, then its file, and writes its results; what was printed or
written before a failure stays. A fault of the recovery is reported on the error channel and ends
the command with exit code 1; any other failure is passed on.
-/
namespace TapeSalvage.Command

structure World where
  store : Store
  console : Console

abbrev Action (ρ : Type) := ExceptT Failure (StateM World) ρ

def orFail {ρ : Type} (result : Except Failure ρ) : Action ρ := ExceptT.mk (pure result)

def orFault {ρ : Type} (result : Except Fault ρ) : Action ρ := orFail (result.mapError .fault)

def onConsole (change : Console → Console) : Action Unit :=
  modify fun world => { world with console := change world.console }

def print (line : String) : Action Unit := onConsole (·.print line)

def complain (line : String) : Action Unit := onConsole (·.complain line)

def readFile (path : String) : Action Bytes := do
  orFail ((← get).store.read path)

def writeFile (path : String) (data : Bytes) : Action Unit := do
  let store ← orFail ((← get).store.write path data)
  modify fun world => { world with store := store }

def runRecovery {ρ : Type} (attempt : Recovery.Attempt Float ρ) : Action ρ := do
  let (result, journal) := Recovery.run attempt
  onConsole (·.append journal.console)
  orFault result

def operand (arguments : Arguments) (what : String) : Action String :=
  match arguments.operand? with
  | some value => pure value
  | none => throw (.operandMissing what)

/-- Writes a result and says so, unless the path is empty. -/
def writeResult (path : String) (data : Bytes) : Action Unit := do
  if path ≠ "" then
    writeFile path data
    print s!"Wrote: {path}"

def recoverForms : List OptionForm :=
  [⟨"mode", true, none⟩, ⟨"copy", true, none⟩, ⟨"header", true, none⟩, ⟨"prg", true, none⟩,
   ⟨"bas", true, none⟩, ⟨"decoded", true, none⟩, ⟨"start-skip", true, none⟩,
   ⟨"quiet", false, none⟩]

def modes : List (String × Recovery.Mode) :=
  [("blocks", .blocks), ("scan", .scan), ("auto", .automatic)]

def copies : List (String × Block.Choice) :=
  [("A", .only .a), ("B", .only .b), ("AUTO", .automatic)]

def strategies : List (String × Header.Strategy) := [("first", .first), ("scored", .scored)]

def recoverConfig (arguments : Arguments) (path : String) :
    Except Failure (Recovery.Config Float) := do
  let mode ← Arguments.choose "--mode" modes .automatic (arguments.value? "mode")
  let copy ← Arguments.choose "--copy" copies .automatic (arguments.value? "copy")
  let strategy ← Arguments.choose "--header" strategies .first (arguments.value? "header")
  let skip ← Arguments.count "--start-skip" 0 (arguments.value? "start-skip")
  let isQuiet := arguments.isSet "quiet"
  return { Recovery.Config.standard with
    name := path, mode, copy, strategy, isQuiet
    listing := { startSkip := some skip } }

def recover (words : List String) : Action Unit := do
  let arguments ← orFail (Arguments.read recoverForms words)
  let path ← operand arguments "TAP file"
  let config ← orFail (recoverConfig arguments path)
  let capture ← readFile path
  let result ← runRecovery (Recovery.recover config capture)
  writeResult ((arguments.value? "decoded").getD "") result.decoded
  writeResult ((arguments.value? "prg").getD "recovered.prg") result.image.bytes
  writeResult ((arguments.value? "bas").getD "recovered.bas.txt") (Text.encode result.listing)

def listForms : List OptionForm :=
  [⟨"out", true, some 'o'⟩, ⟨"start-skip", true, none⟩, ⟨"layout", false, none⟩]

def list (words : List String) : Action Unit := do
  let arguments ← orFail (Arguments.read listForms words)
  let path ← operand arguments "PRG file"
  let data ← readFile path
  let image ← orFault (Program.Image.ofBytes data)
  let skip ← orFail (Arguments.count "--start-skip" 0 (arguments.value? "start-skip"))
  let style := if arguments.isSet "layout" then .layout else .strict
  let rules := { Listing.Rules.standard with startSkip := skip, style }
  let listing := Listing.format (Listing.lines rules image)
  let out := (arguments.value? "out").getD ""
  if out ≠ "" then writeFile out (Text.encode listing)
  else onConsole (·.write listing)

def stringsForms : List OptionForm := [⟨"out", true, some 'o'⟩, ⟨"min-length", true, none⟩]

def rows (strings : List String) : Bytes :=
  Text.encode (String.join (strings.map fun string => string ++ "\n"))

/-- The file that strings are written to and grouped from, unless another one is named. -/
def stringsFile : String := "all_strings.txt"

def strings (words : List String) : Action Unit := do
  let arguments ← orFail (Arguments.read stringsForms words)
  let path ← operand arguments "TAP file"
  let capture ← readFile path
  let config := { Recovery.Config.standard with name := path }
  let (decoded, _) ← runRecovery (Recovery.decode config capture)
  let least ← orFail
    (Arguments.count "--min-length" Strings.leastLength (arguments.value? "min-length"))
  let found := Strings.dump decoded least
  writeFile ((arguments.value? "out").getD stringsFile) (rows found)
  print s!"Strings written: {found.length}"

def groupForms : List OptionForm := [⟨"out", true, some 'o'⟩]

def filledRows (text : String) : List String :=
  ((text.toList.splitOnP (· == '\n')).filter fun row => !(Text.trim row).isEmpty).map String.ofList

def group (words : List String) : Action Unit := do
  let arguments ← orFail (Arguments.read groupForms words)
  let data ← readFile (arguments.operand?.getD stringsFile)
  let cleaned := (filledRows (Text.decode data)).map Strings.clean
  let groups := Strings.group Strings.placeOpenings cleaned
  let out := (arguments.value? "out").getD "grouped_by_location.txt"
  writeFile out (Text.encode (Strings.report groups))
  print s!"Groups written: {groups.length} -> {out}"

/-- Reports a fault of the recovery on the error channel; any other failure is passed on. -/
def reportFailure (failure : Failure) : Action Nat := do
  match failure with
  | .fault cause =>
    match cause.origin? with
    | some (stage, step) =>
      complain s!"[{cause.kind.label}] {stage.name}/{step}: {cause.message}"
      if let some hint := cause.hint? then complain s!"Hint: {hint}"
      return 1
    | none => throw failure
  | _ => throw failure

def dispatch (command : String) (words : List String) : Action Nat := do
  match command with
  | "recover" => recover words
  | "list" => list words
  | "strings" => strings words
  | "group" => group words
  | _ =>
    complain usage
    return 1
  return 0

/-- Runs a command line; the result is the exit code. -/
def execute : List String → Action Nat
  | [] => do
    complain usage
    return 1
  | command :: words => tryCatch (dispatch command words) reportFailure

end TapeSalvage.Command
