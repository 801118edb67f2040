import HtmlTemplate.CommandLine.Run

/-!
# Main — the command

Reads the template files of the folder, and writes the module where it belongs.
-/

namespace HtmlTemplate
namespace Main

/-- Why a file could not be opened. -/
def openFault : IO.Error → OpenFault
  | .inappropriateType _ code _ => if code == 20 then .notFolder else .isFolder
  | .invalidArgument _ code _ => if code == 36 then .nameTooLong else .missing
  | _ => .missing

/-- The template files of a folder. -/
def loadFolder (path : String) : IO (Except OpenFault Folder) := do
  try
    let place ← IO.FS.realPath path
    if ← place.isDir then
      let mut files := []
      for entry in ← place.readDir do
        if FunctionName.isTemplate entry.fileName && !(← entry.path.isDir) then
          files := (entry.fileName, (← IO.FS.readBinFile entry.path).toList) :: files
      return .ok ⟨files⟩
    else return .error .notFolder
  catch e => return .error (openFault e)

/-- Shows an outcome and gives its exit code. -/
def finish : CommandLine.Outcome → IO UInt32
  | .finished exitCode out err => do
    (← IO.getStderr).putStr err
    (← IO.getStdout).putStr out
    return exitCode.toUInt32
  | .broken option => do
    (← IO.getStderr).putStr (CommandLine.errorLine option.message)
    return 1

/-- Writes a module, and reports the reason if that fails. -/
def writeModule (path text log : String) : IO CommandLine.Outcome := do
  match ← (IO.FS.writeFile path text).toBaseIO with
  | .ok () => return .finished 0 "" log
  | .error e => return .failed log ((openFault e).message (FilePath.normalize path))

end Main
end HtmlTemplate

open HtmlTemplate in
def main (texts : List String) : IO UInt32 := do
  match Arguments.read texts with
  | .error stop => Main.finish (.ofStop stop)
  | .ok a =>
    let report := CommandLine.build a (← Main.loadFolder a.folder)
    let log := logText a.verbose report.log
    match report.result, a.output with
    | .error e, _ => Main.finish (.ofError a log e)
    | .ok bundle, .absent => Main.finish (.finished 0 bundle.text log)
    | .ok _, .void => Main.finish (.broken .output)
    | .ok bundle, .text path => Main.finish (← Main.writeModule path bundle.text log)
