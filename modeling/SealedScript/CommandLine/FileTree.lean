/-! Files in directories, and how a path leads to one of them. -/

namespace SealedScript

/-- The files below one directory, by the names on the way to them. -/
structure FileTree where
  files : List (List String × ByteArray)

inductive FileNode where
  | file (contents : ByteArray)
  | directory

/-- What the operating system says of a path. -/
inductive PathError where
  | missing
  | notDirectory
  | isDirectory
  deriving DecidableEq, Repr

def PathError.message : PathError → String
  | .missing => "No such file or directory (os error 2)"
  | .notDirectory => "Not a directory (os error 20)"
  | .isDirectory => "Is a directory (os error 21)"

/-- The contents of a file; those of a directory cannot be had. -/
def FileNode.contents : FileNode → Except PathError ByteArray
  | .file contents => .ok contents
  | .directory => .error .isDirectory

namespace FileTree

def splitPath (path : String) : List String :=
  path.splitOn "/"

/-- A name that stays where it is. -/
def isIdle (name : String) : Bool :=
  name == "" || name == "."

/-- The names on the way, without those that stay where they are. -/
def steps (path : String) : List String :=
  (splitPath path).filter (!isIdle ·)

def empty : FileTree := ⟨[]⟩

/-- Adds a file; the directories on the way come with it. -/
def add (tree : FileTree) (path : String) (contents : ByteArray) : FileTree :=
  ⟨(steps path, contents) :: tree.files⟩

/-- What stands at a place. A place above a file is a directory, and so is the top. -/
def node? (tree : FileTree) (place : List String) : Option FileNode :=
  match tree.files.find? (·.1 == place) with
  | some (_, contents) => some (.file contents)
  | none =>
    if place.isEmpty || tree.files.any (fun file => place.isPrefixOf file.1) then some .directory
    else none

/-- Outside the tree there are directories, but nothing that is known by name. -/
def outside (rest : List String) : Except PathError FileNode :=
  if rest.all fun name => isIdle name || name == ".." then .ok .directory else .error .missing

/-- Follows a path name by name; every name but the last must lead to a directory, and the last one
too if a slash follows it. -/
def walk (tree : FileTree) : List String → List String → Except PathError FileNode
  | place, [] =>
    match tree.node? place with
    | some node => .ok node
    | none => .error .missing
  | place, name :: rest =>
    match tree.node? place with
    | none => .error .missing
    | some (.file _) => .error .notDirectory
    | some .directory =>
      if isIdle name then walk tree place rest
      else if name = ".." then
        if place.isEmpty then outside rest else walk tree place.dropLast rest
      else walk tree (place ++ [name]) rest

def find (tree : FileTree) (path : String) : Except PathError FileNode :=
  if path.isEmpty then .error .missing
  else if path.startsWith "/" then outside (splitPath path)
  else tree.walk [] (splitPath path)

def read (tree : FileTree) (path : String) : Except PathError ByteArray := do
  (← tree.find path).contents

end FileTree

end SealedScript
