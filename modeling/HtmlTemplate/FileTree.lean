import HtmlTemplate.Bundle

/-!
# FileTree — files and folders below a working folder

What lies outside the working folder is not known, but for the folders on the way up from it and
some at the top that are always there.  They count as empty.
-/

namespace HtmlTemplate

/-- Where a file or folder lies: the names from the working folder to it. -/
abbrev Place := List String

structure FileTree where
  files : List (Place × List UInt8) := []
  folders : List Place := []

namespace FileTree

def isFolder (t : FileTree) (place : Place) : Bool := place.isEmpty || t.folders.contains place

def file? (t : FileTree) (place : Place) : Option (List UInt8) := t.files.lookup place

/-- The folders on the way to a place from the folder `above`, and the place itself. -/
def ancestorsFrom (above : Place) : List String → List Place
  | [] => []
  | name :: rest => (above ++ [name]) :: ancestorsFrom (above ++ [name]) rest

/-- The folders on the way to a place, and the place itself. -/
def ancestors (place : Place) : List Place := ancestorsFrom [] place

/-- Makes a folder with those on the way to it. -/
def addFolder (t : FileTree) (place : Place) : FileTree :=
  { t with folders := t.folders ++ (ancestors place).filter (!t.folders.contains ·) }

/-- Gives a file its content. -/
def setFile (t : FileTree) (place : Place) (content : List UInt8) : FileTree :=
  { t with files := t.files.filter (·.1 != place) ++ [(place, content)] }

/-- Gives a file its content, with the folders on the way to it. -/
def addFile (t : FileTree) (place : Place) (content : List UInt8) : FileTree :=
  (t.addFolder place.dropLast).setFile place content

/-! ## Following a path -/

/-- Where a path leads. -/
inductive Spot where
  /-- To a place in the working folder, where something may be. -/
  | inside (place : Place)
  /-- To a folder outside of it. -/
  | outside
  /-- To a name in such a folder, where nothing is. -/
  | beyond
  deriving DecidableEq, Repr

/-- The folders that are always at the top. -/
def topFolders : List String :=
  ["bin", "boot", "dev", "etc", "home", "lib", "media", "mnt", "opt", "proc", "root", "run", "sbin",
    "srv", "sys", "tmp", "usr", "var"]

/-- Follows one part of a path. -/
def step (t : FileTree) (spot : Spot) (part : String) : Except OpenFault Spot :=
  let long := FilePath.maxNameSize < part.utf8ByteSize
  match spot with
  | .inside place =>
    if t.isFolder place then
      if part = ".." then .ok (if place.isEmpty then .outside else .inside place.dropLast)
      else if long then .error .nameTooLong
      else .ok (.inside (place ++ [part]))
    else if (t.file? place).isSome then .error .notFolder
    else .error .missing
  | .outside =>
    if part = ".." then .ok .outside else if long then .error .nameTooLong else .ok .beyond
  | .beyond => .error .missing

/-- Where a path leads.  The last part need not exist. -/
def find (t : FileTree) (path : String) : Except OpenFault Spot :=
  if path.toList.contains '\x00' then .error .nullCharacter
  else if FilePath.maxPathSize < (FilePath.normalize path).utf8ByteSize then .error .nameTooLong
  else if (FilePath.root path.toList).isEmpty then
    (FilePath.parts path).foldlM t.step (.inside [])
  else
    match FilePath.parts path with
    | [] => .ok .outside
    | top :: rest =>
      if topFolders.contains top then rest.foldlM t.step .outside
      else (top :: rest).foldlM t.step .outside

/-- The files directly in a folder, by name. -/
def filesIn (t : FileTree) (place : Place) : Folder :=
  ⟨t.files.filterMap fun (p, content) =>
    match p.getLast? with
    | some name => if p.dropLast = place then some (name, content) else none
    | none => none⟩

/-- The folder at a path. -/
def folderAt (t : FileTree) (path : String) : Except OpenFault Folder := do
  match ← t.find path with
  | .inside place =>
    if t.isFolder place then return t.filesIn place
    else if (t.file? place).isSome then throw .notFolder
    else throw .missing
  | .outside => return ⟨[]⟩
  | .beyond => throw .missing

/-- Writes a file at a path.  One outside the working folder is not kept. -/
def write (t : FileTree) (path : String) (content : List UInt8) : Except OpenFault FileTree := do
  match ← t.find path with
  | .inside place =>
    if t.isFolder place then throw .isFolder
    return t.setFile place content
  | .outside => throw .isFolder
  | .beyond => return t

end FileTree
end HtmlTemplate
