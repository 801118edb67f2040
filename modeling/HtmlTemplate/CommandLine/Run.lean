import HtmlTemplate.CommandLine.Arguments
import HtmlTemplate.FileTree

/-!
# Run — what the command does

The command makes a module of a folder and writes it to a file or to the standard output.  Nothing
is written unless the whole module could be made.
-/

namespace HtmlTemplate
namespace CommandLine

/-! ## Texts -/

def usage : String :=
  "usage: hcompile [-h] [-o OUTPUT] [--context-name CONTEXT_NAME] [-v]\n" ++
    "                [directory]\n"

def help : String :=
  usage ++ "\nCompile a directory of HTML templates into a Python module\n\n" ++
    "positional arguments:\n" ++
    "  directory             Directory holding *.html templates (default: current\n" ++
    "                        directory)\n\n" ++
    "options:\n" ++
    "  -h, --help            show this help message and exit\n" ++
    "  -o OUTPUT, --output OUTPUT\n" ++
    "                        Write the module here instead of stdout\n" ++
    "  --context-name CONTEXT_NAME\n" ++
    "                        Parameter name of the generated functions (default:\n" ++
    "                        context)\n" ++
    "  -v, --verbose         Log debug output\n"

/-- The line that says why the command failed. -/
def errorLine (message : String) : String := "hcompile: error: " ++ message ++ "\n"

/-! ## Outcomes -/

/-- An option that is void where its value is needed. -/
inductive VoidOption where
  | output
  | contextName
  deriving DecidableEq, Repr

namespace VoidOption

def message : VoidOption → String
  | output => "'list' object has no attribute 'write_text'"
  | contextName => "'list' object has no attribute 'isidentifier'"

end VoidOption

/-- What the command leaves behind: its exit code and what it wrote to the two standard outputs, or
the void option that broke it. -/
inductive Outcome where
  | finished (exitCode : Nat) (out err : String)
  | broken (option : VoidOption)
  deriving DecidableEq, Repr

namespace Outcome

/-- A command line that could not be read, or that asks for help. -/
def ofStop : ArgumentsStop → Outcome
  | .help => finished 0 help ""
  | .fault fault => finished 2 "" (usage ++ errorLine fault.message)

/-- A failure after something was logged. -/
def failed (log message : String) : Outcome := finished 1 "" (log ++ errorLine message)

/-- A module that cannot be made.  A void name fails where a name that is none would. -/
def ofError (a : Arguments) (log : String) (e : Error) : Outcome :=
  match a.contextName, e with
  | .void, .invalidContextName _ => broken .contextName
  | _, e => failed log e.message

end Outcome

/-- The name of the context in the command's module, the empty one being no name. -/
def contextNameOf : OptionValue → String
  | .text name => name
  | _ => ""

/-- The module of the folder that was found. -/
def build (a : Arguments) (found : Except OpenFault Folder) : Report Bundle :=
  Bundle.build (FilePath.normalize a.folder) found (contextNameOf a.contextName)

/-- What a command line does to a file tree. -/
def run (texts : List String) (tree : FileTree) : Outcome × FileTree :=
  match Arguments.read texts with
  | .error stop => (Outcome.ofStop stop, tree)
  | .ok a =>
    let report := build a (tree.folderAt a.folder)
    let log := logText a.verbose report.log
    match report.result, a.output with
    | .error e, _ => (Outcome.ofError a log e, tree)
    | .ok bundle, .absent => (.finished 0 bundle.text log, tree)
    | .ok _, .void => (.broken .output, tree)
    | .ok bundle, .text path =>
      match tree.write path bundle.text.toUTF8.toList with
      | .ok tree => (.finished 0 "" log, tree)
      | .error fault => (Outcome.failed log (fault.message (FilePath.normalize path)), tree)

end CommandLine
end HtmlTemplate
