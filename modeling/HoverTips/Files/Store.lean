import HoverTips.Files.Path

/-!
# A file store

Files and directories by path, with the ways in which reading and writing fail. Paths are followed
step by step: each step needs a directory to start from, and a step up from the top stays there.
-/

namespace HoverTips.Files

/-- A file with its bytes, or a directory with its entries. -/
inductive Entry where
  | file (bytes : ByteArray)
  | directory (entries : List (String × Entry))

/-- Why a file could not be read or written. -/
inductive Fault where
  | notFound
  | alreadyExists
  | notADirectory
  | isADirectory
  /-- The bytes of a file are no text. -/
  | notText
  deriving DecidableEq, Repr

def Fault.message : Fault → String
  | notFound => "No such file or directory (os error 2)"
  | alreadyExists => "File exists (os error 17)"
  | notADirectory => "Not a directory (os error 20)"
  | isADirectory => "Is a directory (os error 21)"
  | notText => "stream did not contain valid UTF-8"

namespace Entry

def isDirectory : Entry → Bool
  | directory _ => true
  | file _ => false

/-- The entry at the end of some names. -/
def get? : List String → Entry → Option Entry
  | [], e => some e
  | _ :: _, file _ => none
  | name :: names, directory entries =>
    match entries.lookup name with
    | some e => e.get? names
    | none => none

/-- The entries with one name changed; a new name is added behind the others. -/
def alterIn (name : String) (change : Option Entry → Entry) :
    List (String × Entry) → List (String × Entry)
  | [] => [(name, change none)]
  | (n, e) :: rest =>
    if n == name then (n, change (some e)) :: rest else (n, e) :: alterIn name change rest

/-- The entry with another one put at the end of some names; directories on the way are made. -/
def put (new : Entry) : List String → Entry → Entry
  | [], _ => new
  | name :: names, old =>
    let entries := match old with
      | directory entries => entries
      | file _ => []
    .directory (alterIn name (fun e => put new names (e.getD (.directory []))) entries)

end Entry

/-- All files, with the directory that relative paths start from. -/
structure Store where
  root : Entry
  workingDirectory : List String

/-- Where a path leads: the names from the top, and the entry there if there is one. -/
structure Place where
  names : List String
  entry : Option Entry

/-- Follows steps from a directory. -/
def follow (root : Entry) (names : List String) : List String → Except Fault Place
  | [] => .ok ⟨names, root.get? names⟩
  | step :: later =>
    match root.get? names with
    | none => .error .notFound
    | some (.file _) => .error .notADirectory
    | some (.directory _) =>
      follow root (if step == ".." then names.dropLast else names ++ [step]) later

namespace Store

def empty : Store := ⟨.directory [("work", .directory [])], ["work"]⟩

def base (s : Store) (path : String) : List String :=
  if isAbsolute path then [] else s.workingDirectory

/-- Where a path leads. The empty path leads nowhere, and a path that ends in a slash to no file. -/
def locate (s : Store) (path : String) : Except Fault Place := do
  if path == "" then throw .notFound
  let place ← follow s.root (s.base path) (steps path)
  match place.entry with
  | some (.file _) => if endsInDirectory path then throw .notADirectory else return place
  | _ => return place

def entryAt (s : Store) (path : String) : Except Fault Entry := do
  match (← s.locate path).entry with
  | some e => return e
  | none => throw .notFound

def hasEntry (s : Store) (path : String) : Bool := (s.entryAt path).toOption.isSome

def hasDirectory (s : Store) (path : String) : Bool := (s.entryAt path).toOption.any (·.isDirectory)

def readText (s : Store) (path : String) : Except Fault String := do
  match ← s.entryAt path with
  | .directory _ => throw .isADirectory
  | .file bytes =>
    match String.fromUTF8? bytes with
    | some text => return text
    | none => throw .notText

def putAt (s : Store) (names : List String) (e : Entry) : Store :=
  { s with root := Entry.put e names s.root }

def makeDirectory (s : Store) (start : List String) (path : List String) : Except Fault Store := do
  let place ← follow s.root start path
  match place.entry with
  | some _ => throw .alreadyExists
  | none => return s.putAt place.names (.directory [])

def isDirectoryAt (s : Store) (start : List String) (path : List String) : Bool :=
  match follow s.root start path with
  | .ok place => place.entry.any (·.isDirectory)
  | .error _ => false

/-- Makes the directory at the end of some steps, given from the last one, and those on the way to
it. -/
def makeDirectories (s : Store) (start : List String) : List String → Except Fault Store
  | [] => .ok s
  | last :: before =>
    let path := (last :: before).reverse
    match s.makeDirectory start path with
    | .ok made => .ok made
    | .error .notFound => do
      let s ← s.makeDirectories start before
      match s.makeDirectory start path with
      | .ok made => return made
      | .error e => if s.isDirectoryAt start path then return s else throw e
    | .error e => if s.isDirectoryAt start path then .ok s else .error e

/-- Writes a file whose directory is there. -/
def writeText (s : Store) (path text : String) : Except Fault Store := do
  let place ← s.locate path
  match place.entry with
  | some (.directory _) => throw .isADirectory
  | some (.file _) => return s.putAt place.names (.file text.toUTF8)
  | none =>
    if endsInDirectory path then throw .isADirectory
    return s.putAt place.names (.file text.toUTF8)

def withParent (s : Store) (path : String) : Except Fault Store :=
  s.makeDirectories (s.base path) (steps path).reverse.tail

/-- Writes a file and makes the directories on the way to it. Also hands back the store when the
file could not be written, with the directories that were made. -/
def writeFile (s : Store) (path text : String) : Except Fault Unit × Store :=
  match s.withParent path with
  | .error e => (.error e, s)
  | .ok ready =>
    match ready.writeText path text with
    | .ok written => (.ok (), written)
    | .error e => (.error e, ready)

end Store

/-- Why an operation on the docs tree failed. -/
inductive FileError where
  | fault (f : Fault)
  | noDocsDirectory
  | notADocsDirectory
  deriving DecidableEq, Repr

def FileError.message : FileError → String
  | fault f => "IO error: " ++ f.message
  | noDocsDirectory => "Invalid docs directory: docs directory not found"
  | notADocsDirectory => "Invalid docs directory: Directory does not exist"

def Store.checkDocs (s : Store) (path : String) : Except FileError Unit :=
  if s.hasDirectory path then .ok () else .error .notADocsDirectory

end HoverTips.Files
