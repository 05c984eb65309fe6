/-!
# Paths

A path is a text of names between slashes. Empty names and single dots are no steps; two dots are a
step up. Paths of pages are relative to the root of the docs tree.
-/

namespace HoverTips.Files

def splitSlashes : List Char → List (List Char)
  | [] => [[]]
  | c :: cs =>
    match splitSlashes cs with
    | [] => [[c]]
    | piece :: pieces => if c == '/' then [] :: piece :: pieces else (c :: piece) :: pieces

/-- The names of a path between its slashes, empty ones included. -/
def rawNames (path : String) : List String := (splitSlashes path.toList).map String.ofList

/-- The steps of a path: its names without empty ones and single dots. -/
def steps (path : String) : List String := (rawNames path).filter fun n => n != "" && n != "."

def isAbsolute (path : String) : Bool := path.toList.head? == some '/'

/-- Whether a path can only mean a directory, by how it ends. -/
def endsInDirectory (path : String) : Bool :=
  match (rawNames path).getLast? with
  | some last => last == "" || last == "."
  | none => false

def join (directory name : String) : String :=
  if isAbsolute name || directory == "" then name
  else if directory.toList.getLast? == some '/' then directory ++ name
  else directory ++ "/" ++ name

/-- The path of a relative path below a root: its names, one behind the other. -/
def below (root relative : String) : String :=
  ((rawNames relative).filter (· != "")).foldl
    (fun path name => if path == "" then name else path ++ "/" ++ name) root

/-- A file name up to its last dot and behind it. A dot at the front separates nothing. -/
def splitExtension (name : List Char) : List Char × Option (List Char) :=
  let behind := (name.reverse.takeWhile (· != '.')).reverse
  let stem := name.take (name.length - behind.length - 1)
  if name.length == behind.length || stem.isEmpty then (name, none) else (stem, some behind)

/-- What stands behind the last dot of a file name. -/
def extension? (name : String) : Option String :=
  (splitExtension name.toList).2.map String.ofList

/-- The text of a path without the slashes and single dots at its end, by steps from the end. -/
def dropTrailing : List (List Char) → List (List Char)
  | [] => []
  | name :: names => if name.isEmpty || name == ['.'] then dropTrailing names else name :: names

def joinSlashes : List (List Char) → List Char
  | [] => []
  | [name] => name
  | name :: names => name ++ '/' :: joinSlashes names

/-- The path with another extension in place of the last one of its file name. A path whose last
step is up, or that has no step, stays as it is. -/
def withExtension (path extension : String) : String :=
  match dropTrailing (splitSlashes path.toList).reverse with
  | [] => path
  | name :: before =>
    if name == ['.', '.'] then path
    else
      String.ofList
        (joinSlashes (((splitExtension name).1 ++ '.' :: extension.toList) :: before).reverse)

/-- The path of a page's side-car, relative like the page's own. -/
def sidecarPath (page : String) : String := withExtension page "tooltips.json"

end HoverTips.Files
