import HoverTips.Files.Scan

/-!
# Disks

The operations on files that the program needs. The program asks a disk and nothing else, so it runs
wherever a monad has these operations; a store in a monad's state is such a disk.
-/

namespace HoverTips.Files

/-- The files of a machine, as seen from its working directory. -/
structure Disk (m : Type → Type) where
  /-- What reading the path gives, if there is something at it. -/
  read : (path : String) → m (Option (Except Fault String))
  /-- Whether there is a docs tree at the path. -/
  checkDocs : (path : String) → m (Except FileError Unit)
  /-- The relative paths of the pages below the root that no pattern matches, in order. -/
  scan : (root : String) → (exclude : List Glob) → m (Except FileError (List String))
  /-- Makes the directory that the path names a file in. -/
  makeParent : (path : String) → m (Except Fault Unit)
  /-- Writes a file whose directory is there. -/
  write : (path text : String) → m (Except Fault Unit)

namespace Store

def read? (s : Store) (path : String) : Option (Except Fault String) :=
  if s.hasEntry path then some (s.readText path) else none

/-- The store after a change, and whether the change could be made. After a failure the store is as
it was. -/
def attempt (change : Store → Except Fault Store) (s : Store) : Except Fault Unit × Store :=
  match change s with
  | .ok changed => (.ok (), changed)
  | .error e => (.error e, s)

variable {m : Type → Type} [Monad m] [MonadStateOf Store m]

def disk : Disk m where
  read path := return (← getThe Store).read? path
  checkDocs path := return (← getThe Store).checkDocs path
  scan root exclude := return (← getThe Store).scan root exclude
  makeParent path := modifyGetThe Store (attempt (·.withParent path))
  write path text := modifyGetThe Store (attempt (·.writeText path text))

/-- Writes a file to the store in the state with the directories on the way to it, and answers
whether that could be done. -/
def save (path text : String) : m Bool :=
  modifyGetThe Store fun s =>
    let (outcome, after) := s.writeFile path text
    (outcome.isOk, after)

end Store

end HoverTips.Files
