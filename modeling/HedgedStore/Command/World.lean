import HedgedStore.Bytes
import HedgedStore.Config.Placeholder
import HedgedStore.FileFault

/-! What a program can reach besides the store: its environment and its files. One such world is a
directory that is held in memory. -/
namespace HedgedStore.Command

structure World (m : Type → Type) where
  environment : Environment
  contents : String → m (Except FileFault Bytes)
  /-- Makes a file of these bytes, or puts them in the place of its old ones. -/
  save : String → Bytes → m (Except FileFault Unit)

/-- Files by their names; a name with slashes lies in directories below. -/
abbrev Directory := List (String × Bytes)

inductive Entry where
  | file (contents : Bytes)
  | directory
deriving DecidableEq, Repr

def longestName : Nat := 255

def longestPath : Nat := 4095

namespace Directory

/-- The names that lead from the root of all files to the directory. -/
def workplace : List String := ["tmp", "work"]

/-- The directories below the root that every machine has. -/
def usualDirectories : List String :=
  ["bin", "boot", "dev", "etc", "home", "lib", "media", "mnt", "opt", "proc", "root", "run",
    "sbin", "srv", "sys", "tmp", "usr", "var"]

/-- What stands at a place, told by the names that lead there from the root. Beside the directory
there is not much: other directories, and a file that is always empty. -/
def entry? (files : Directory) (names : List String) : Option Entry :=
  if workplace.isPrefixOf names && names != workplace then
    let name := "/".intercalate (names.drop workplace.length)
    match files.lookup name with
    | some contents => some (.file contents)
    | none =>
      if files.any fun file => (name ++ "/").toList.isPrefixOf file.1.toList then some .directory
      else none
  else if names == ["dev", "null"] then some (.file [])
  else if names.isPrefixOf workplace || usualDirectories.any fun name => names == [name] then
    some .directory
  else none

/-- Takes one step of a path. Only a directory leads on. -/
def walk (files : Directory) (names : List String) (step : String) :
    Except FileFault (List String) :=
  match files.entry? names with
  | none => .error .missing
  | some (.file _) => .error .notDirectory
  | some .directory =>
    if step == "" || step == "." then .ok names
    else if step == ".." then .ok names.dropLast
    else if step.utf8ByteSize > longestName then .error .nameTooLong
    else .ok (names ++ [step])

/-- The place to which a path leads, whether anything stands there or not. -/
def locate (files : Directory) (path : String) : Except FileFault (List String) :=
  if path.utf8ByteSize > longestPath then .error .nameTooLong
  else if path.isEmpty then .error .missing
  else
    let first := if path.startsWith "/" then [] else workplace
    (path.splitOn "/").foldlM (walk files) first

def contents (files : Directory) (path : String) : Except FileFault Bytes := do
  match files.entry? (← files.locate path) with
  | none => throw .missing
  | some .directory => throw .directory
  | some (.file contents) => return contents

/-- Puts a file at a place. What lies beside the directory is not kept. -/
def put (files : Directory) (names : List String) (data : Bytes) : Directory :=
  if workplace.isPrefixOf names then
    let name := "/".intercalate (names.drop workplace.length)
    if (files.lookup name).isSome then
      files.map fun file => if file.1 == name then (name, data) else file
    else files ++ [(name, data)]
  else files

/-- A file is made where its directory exists. A path that ends with a slash makes none. -/
def save (files : Directory) (path : String) (data : Bytes) : Except FileFault Directory := do
  let file := String.ofList (path.toList.reverse.dropWhile (· == '/')).reverse
  let names ← files.locate (if path.endsWith "/" && !file.isEmpty then file else path)
  match files.entry? names with
  | some .directory => throw .directory
  | some (.file _) => if path.endsWith "/" then throw .notDirectory else return files.put names data
  | none => if path.endsWith "/" then throw .directory else return files.put names data

def world (environment : Environment) : World (StateM Directory) :=
  { environment
    contents := fun path => do return (← get).contents path
    save := fun path data => do
      match (← get).save path data with
      | .error fault => return .error fault
      | .ok files =>
        set files
        return .ok () }

end Directory

end HedgedStore.Command
