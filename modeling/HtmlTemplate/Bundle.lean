import HtmlTemplate.Bundle.FunctionName
import HtmlTemplate.Compile
import HtmlTemplate.Log
import HtmlTemplate.Text.Builder
import HtmlTemplate.Text.Docstring

/-!
# Bundle — a folder of templates as one module of functions

Every template file of a folder becomes a function, in the order of the file names.  The first
file that cannot become one stops the work: because it has no name, shares its name with an
earlier file, is not UTF-8, or does not compile, in this order.
-/

namespace HtmlTemplate

open Text

/-- The regular files that stand directly in a folder, with their content. -/
structure Folder where
  files : List (String × List UInt8)

namespace Folder

/-- The template files in the order of their names. -/
def templates (f : Folder) : List (String × List UInt8) :=
  (f.files.filter fun file => FunctionName.isTemplate file.1).mergeSort
    fun a b => !decide (b.1 < a.1)

end Folder

/-- A function of a module. -/
structure TemplateFunction where
  name : String
  file : String
  compiled : Compiled
  deriving DecidableEq, Repr

namespace TemplateFunction

/-- The margin of the shape's text in a function's description. -/
def margin : String := "        "

/-- The description of a function as it stands between triple quotes. -/
def description (file : String) (c : Compiled) : String :=
  "Render " ++ encodeDoc file ++ ".\n\n    Context:\n" ++ indent margin c.typeText ++ "\n    "

/-- The text of a function. -/
def text (name file : String) (c : Compiled) : String :=
  "\n\ndef " ++ name ++ "(" ++ c.contextName ++ (if c.anyRequired then "" else "=None") ++ "):\n" ++
    "    \"\"\"" ++ description file c ++ "\"\"\"\n" ++
    "    return unsafe(" ++ c.expression ++ ")\n"

/-- The description of a function as it is read. -/
def doc (f : TemplateFunction) : Option String :=
  (readDoc ((description f.file f.compiled).toList ++ ['"', '"', '"'])).map fun (text, _) =>
    String.ofList text

end TemplateFunction

/-- The functions of a module, and the folder that they come from. -/
structure Bundle where
  folder : String
  functions : List TemplateFunction
  deriving DecidableEq, Repr

/-- What came of the work, and what was reported meanwhile. -/
structure Report (α : Type) where
  log : List LogLine
  result : Except Error α

namespace Report

/-- Puts lines in front. -/
def after {α : Type} (lines : List LogLine) (r : Report α) : Report α :=
  ⟨lines ++ r.log, r.result⟩

def map {α β : Type} (f : α → β) (r : Report α) : Report β := ⟨r.log, r.result.map f⟩

end Report

namespace Bundle

/-! ## The module's text -/

/-- The start of a module. -/
def header (folder : String) : String :=
  "# Generated by hcompile from " ++ folder ++ ". Do not edit.\n\n" ++
    "from hcompile.runtime import (\n    if_check,\n    if_defined,\n    is_nonempty,\n" ++
    "    lookup,\n    loop,\n    render_body,\n    unsafe,\n)\n"

/-- The text of a module. -/
def text (b : Bundle) : String :=
  (b.functions.foldl
    (fun out f => out.append (TemplateFunction.text f.name f.file f.compiled))
    (({} : Builder).append (header b.folder))).build

/-! ## Building -/

def log (name : String) (level : LogLevel) (message : String) : LogLine :=
  ⟨LogLine.channelOf name, level, message⟩

/-- The name of a file's function, which no earlier file may have. -/
def nameOf (earlier : List (String × String)) (file : String) : Except Error String := do
  let name ← FunctionName.ofStem (FunctionName.stem file)
  match earlier.lookup name with
  | some first => throw (.duplicateTemplate name first file)
  | none => return name

/-- The text of a file, with every line break as a line feed. -/
def sourceOf (bytes : List UInt8) : Except Error String :=
  match decodeUtf8 bytes with
  | .ok cs => .ok (String.ofList (unifyLineEnds cs))
  | .error fault => .error (.undecodable fault)

/-- Whether an error says that a template cannot be compiled. -/
def isRefusal : Error → Bool
  | .template _ _ | .tag _ _ _ | .duplicateTemplate _ _ _ | .reported _ => true
  | _ => false

/-- Compiles the source of one file. -/
def compileFile (contextName file source : String) : Report Compiled :=
  let config : Config := { contextName, sourceFile := some file }
  let compiled := do
    let parts ← Compiled.templateOf config source
    return (parts.length, ← Compiled.ofParts contextName parts)
  match compiled with
  | .ok (count, c) => ⟨[log "codegen" .debug (c.summary (some file) count)], .ok c⟩
  | .error e =>
    ⟨if isRefusal e then [log "cli" .error ("Failed to compile " ++ file)] else [], .error e⟩

/-- Makes a function of one file, whose name is known. -/
def functionOf (contextName name file : String) (bytes : List UInt8) : Report TemplateFunction :=
  let report : Report Compiled :=
    match sourceOf bytes with
    | .error e => ⟨[], .error e⟩
    | .ok source => compileFile contextName file source
  (report.map fun c => ⟨name, file, c⟩).after
    [log "cli" .info ("Compiling " ++ file ++ " -> " ++ name)]

/-- Makes functions of files, `earlier` being the names that earlier files have taken. -/
def functionsOf (contextName : String) :
    List (String × String) → List (String × List UInt8) → Report (List TemplateFunction)
  | _, [] => ⟨[], .ok []⟩
  | earlier, (file, bytes) :: rest =>
    match nameOf earlier file with
    | .error e => ⟨[], .error e⟩
    | .ok name =>
      match functionOf contextName name file bytes with
      | ⟨lines, .error e⟩ => ⟨lines, .error e⟩
      | ⟨lines, .ok f⟩ =>
        ((functionsOf contextName ((name, file) :: earlier) rest).map (f :: ·)).after lines

/-- Reports a folder without templates. -/
def remark (folder : String) (functions : List TemplateFunction) : List LogLine :=
  if functions.isEmpty then [log "cli" .warning ("No *.html templates found in " ++ folder)] else []

/-- Why there is no folder at a path. -/
def folderError (path : String) : OpenFault → Error
  | .nameTooLong => .unopened .nameTooLong path
  | _ => .notDirectory path

/-- Makes a module of the folder that was found at a path. -/
def build (path : String) (found : Except OpenFault Folder) (contextName : String) :
    Report Bundle :=
  match found with
  | .error fault => ⟨[], .error (folderError path fault)⟩
  | .ok folder =>
    match functionsOf contextName [] folder.templates with
    | ⟨lines, .error e⟩ => ⟨lines, .error e⟩
    | ⟨lines, .ok functions⟩ => ⟨lines ++ remark path functions, .ok ⟨path, functions⟩⟩

end Bundle
end HtmlTemplate
