import HoverTips.Files.Store
import HoverTips.Json.Parse

/-!
# Snapshots

The files of a working directory as one JSON object: each path with the text of its file, with its
bytes, or with null for a directory. `Store.changesSince` lists what is to be written back.
-/

namespace HoverTips.Files

mutual

def Entry.files (path : List String) : Entry → List (List String × ByteArray)
  | .file bytes => [(path, bytes)]
  | .directory entries => filesIn path entries

def filesIn (path : List String) : List (String × Entry) → List (List String × ByteArray)
  | [] => []
  | (name, e) :: rest => e.files (path ++ [name]) ++ filesIn path rest

end

namespace Store

def files (s : Store) : List (String × ByteArray) :=
  match s.root.get? s.workingDirectory with
  | some e => (e.files []).map fun (names, bytes) => ("/".intercalate names, bytes)
  | none => []

/-- The files in the working directory that an older store has not, or not like this. -/
def changesSince (s old : Store) : List (String × ByteArray) :=
  let known := old.files
  s.files.filter fun (path, bytes) => known.lookup path != some bytes

/-- Puts a directory into the working directory, unless there is something else in its place. -/
def putDirectory (s : Store) (path : String) : Store :=
  match s.makeDirectories s.workingDirectory (steps path).reverse with
  | .ok made => made
  | .error _ => s

def putFile (s : Store) (path : String) (bytes : ByteArray) : Store :=
  s.putAt (s.workingDirectory ++ steps path) (.file bytes)

def putMember (s : Store) (path : String) : Json → Option Store
  | .null => some (s.putDirectory path)
  | .str text => some (s.putFile path text.toUTF8)
  | content => do
    let bytes ← (← (← content.get? "bytes").asItems?).mapM Json.asNat?
    return s.putFile path ⟨(bytes.map Nat.toUInt8).toArray⟩

/-- The store with the files of a snapshot in its working directory. -/
def ofJson? : Json → Option Store
  | .obj members => members.foldlM (fun s (path, content) => s.putMember path content) empty
  | _ => none

end Store

end HoverTips.Files
