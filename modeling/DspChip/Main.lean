import DspChip.CommandLine.Commands
/-! The command line: `run` and `trace`, each followed by its own arguments. -/

namespace DspChip.Main

def readFiles (paths : List String) : IO Files := do
  let found ← paths.filterMapM fun (path : String) => do
    try
      let text ← IO.FS.readFile path
      return some (path, text)
    catch _ => return none
  return fun path => found.lookup path

def systemError? : IO.Error → Option (String × UInt32)
  | .noFileOrDirectory _ code text | .interrupted _ code text | .alreadyExists _ code text
  | .invalidArgument _ code text | .permissionDenied _ code text
  | .resourceExhausted _ code text | .inappropriateType _ code text
  | .noSuchThing _ code text | .otherError code text | .resourceBusy code text
  | .resourceVanished code text | .unsupportedOperation code text | .hardwareFault code text
  | .unsatisfiedConstraints code text | .illegalOperation code text
  | .protocolError code text | .timeExpired code text => some (text, code)
  | .unexpectedEof | .userError _ => none

def reason (error : IO.Error) : String :=
  match systemError? error with
  | some (text, code) => s!"{text} (os error {code})"
  | none => toString error

def writeFile (outcome : Outcome) : IO Outcome := do
  match outcome.file with
  | none => return outcome
  | some (path, contents) =>
    try
      IO.FS.writeFile path contents
      return outcome
    catch error => return outcome.unwritten (reason error)

def usage : String := "usage: (run | trace) [OPTION VALUE]... SOURCE"

def carryOut : Request → IO UInt32
  | .inquiry => do
    IO.println usage
    return 0
  | .misuse => do
    IO.eprintln usage
    return UInt32.ofNat Outcome.usageCode
  | .command understood => do
    let files ← readFiles understood.paths
    let outcome ← writeFile (understood.outcome files)
    IO.print outcome.output
    IO.eprint outcome.errorText
    return UInt32.ofNat outcome.exitCode

end DspChip.Main

def main : List String → IO UInt32
  | "run" :: arguments => DspChip.Main.carryOut (DspChip.Request.run arguments)
  | "trace" :: arguments => DspChip.Main.carryOut (DspChip.Request.trace arguments)
  | _ => DspChip.Main.carryOut .misuse
