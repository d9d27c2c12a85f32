import TapeSalvage.Fault

/-!
Why a command fails: a fault of the recovery, arguments that make no sense, or a file that is not
there.
-/
namespace TapeSalvage.Command

def usage : String :=
  "Usage: tape-recover <command> [options]\n" ++
  "\n" ++
  "Commands:\n" ++
  "  recover <tap>          Recover a BASIC listing from a TAP capture\n" ++
  "  list <prg>             List a tokenized .prg file\n" ++
  "  strings <tap>          Dump printable strings from a TAP capture\n" ++
  "  group <strings.txt>    Group dumped strings by location header\n"

inductive Failure where
  | fault (fault : Fault)
  | operandMissing (what : String)
  | choiceInvalid (option value : String) (expected : List String)
  | numberInvalid (option value : String)
  | optionUnknown
  /-- An option lacks its value, or has one that it cannot take. -/
  | optionValue
  /-- There is no such file, or no folder to put it into. -/
  | fileMissing
  /-- A folder stands where a file is needed. -/
  | isFolder
  /-- A file stands where a folder is needed. -/
  | noFolder
  deriving DecidableEq

def Failure.message : Failure → String
  | fault cause => cause.message
  | operandMissing what => s!"Missing {what}\n\n{usage}"
  | choiceInvalid option value expected =>
    let choices := ", ".intercalate expected
    s!"Invalid {option}: {value} (expected {choices})"
  | numberInvalid option value => s!"Invalid {option}: {value}"
  | optionUnknown => "unknown option"
  | optionValue => "invalid option value"
  | fileMissing => "no such file or directory"
  | isFolder => "illegal operation on a directory"
  | noFolder => "not a directory"

end TapeSalvage.Command
