import Scriptlet.Text.Lines
import Scriptlet.Text.Utf8

/-!
# Reading scripts

A script is read from a path, or there is a reason why it cannot be. Scripts are UTF-8, and every way
to end a line is read as a line feed. What lies at a path is up to the files at hand: whatever needs
a script takes a function from paths to what is read there. `FileStore.read` is the one that belongs
to a hierarchy of files and directories.
-/

namespace Scriptlet

/-- Why a script could not be read. -/
inductive ReadFault where
  | notFound
  | permissionDenied
  /-- There is a directory at the path. -/
  | isDirectory
  /-- The path leads through something that is not a directory. -/
  | notDirectory
  | undecodable (fault : Text.Utf8.Fault)
  /-- Any other reason: a name that is too long or cannot be one, links that lead in a circle, a
  device that fails. -/
  | other
  deriving DecidableEq, Repr

/-- The text of a script with these bytes. -/
def ReadFault.decode (bytes : List UInt8) : Except ReadFault String :=
  match Text.Utf8.decode bytes with
  | .ok text => .ok (String.ofList (Text.unifyNewlines text))
  | .error fault => .error (.undecodable fault)

/-- What a name stands for. -/
inductive FileStore.Entry where
  | file (bytes : List UInt8)
  | directory
  deriving DecidableEq, Repr

/-- A hierarchy of files. Entries and the working directory are given by the names that lead to them
from the root. Paths that may not be opened are given as they are asked for. -/
structure FileStore where
  entries : List (List String × FileStore.Entry) := []
  workingDirectory : List String := []
  denied : List String := []

namespace FileStore

/-- The names of a path. -/
def components : List Char → List (List Char)
  | [] => [[]]
  | c :: cs =>
    if c = '/' then [] :: components cs
    else
      match components cs with
      | [] => [[c]]
      | name :: rest => (c :: name) :: rest

/-- What the names from the root downwards lead to. There are directories on the way to every entry,
and on the way to the working directory. -/
def entry? (store : FileStore) (names : List String) : Option Entry :=
  match store.entries.lookup names with
  | some entry => some entry
  | none =>
    if (store.workingDirectory :: store.entries.map (·.1)).any names.isPrefixOf then some .directory
    else none

/-- Goes on by one name. The root is above itself. -/
def step (store : FileStore) (names : List String) (name : String) : Except ReadFault (List String) :=
  match store.entry? names with
  | none => .error .notFound
  | some (.file _) => .error .notDirectory
  | some .directory =>
    if name = "" ∨ name = "." then .ok names
    else if name = ".." then .ok names.dropLast
    else .ok (names ++ [name])

/-- The bytes of a file. -/
def bytes (store : FileStore) (path : String) : Except ReadFault (List UInt8) :=
  if store.denied.contains path then .error .permissionDenied
  else if path = "" then .error .notFound
  else do
    let start := if path.toList.head? = some '/' then [] else store.workingDirectory
    let names ← ((components path.toList).map String.ofList).foldlM store.step start
    match store.entry? names with
    | none => .error .notFound
    | some .directory => .error .isDirectory
    | some (.file bytes) => .ok bytes

/-- The text of a script. -/
def read (store : FileStore) (path : String) : Except ReadFault String := do
  ReadFault.decode (← store.bytes path)

end FileStore

end Scriptlet
