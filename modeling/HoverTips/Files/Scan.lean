import HoverTips.Files.Glob
import HoverTips.Files.Store

/-!
# Scanning the docs tree

The pages of a docs tree are its markdown files at any depth, without those that a pattern excludes,
in the order of their names, directory by directory.
-/

namespace HoverTips.Files

def isPageName (name : String) : Bool := extension? name == some "md"

mutual

/-- The names that lead to the pages in an entry called `name`. A directory is never a page. -/
def Entry.pagesAs (name : String) : Entry → List (List String)
  | .file _ => if isPageName name then [[name]] else []
  | .directory entries => (pagesOf entries).map (name :: ·)

def pagesOf : List (String × Entry) → List (List String)
  | [] => []
  | (name, e) :: rest => e.pagesAs name ++ pagesOf rest

end

/-- Whether a list of names comes before another or is equal to it, name by name. -/
def namesLe (a b : List String) : Bool := !decide (b < a)

def pathOf (names : List String) : String := "/".intercalate names

/-- The relative paths of the pages in some entries that no pattern matches, in order. -/
def pagePaths (exclude : List Glob) (entries : List (String × Entry)) : List String :=
  (((pagesOf entries).filter fun names => !exclude.any (·.accepts (pathOf names))).mergeSort
    namesLe).map pathOf

def Store.scan (s : Store) (root : String) (exclude : List Glob) :
    Except FileError (List String) :=
  match s.entryAt root with
  | .error _ => .error .noDocsDirectory
  | .ok (.file _) => .error (.fault .notADirectory)
  | .ok (.directory entries) => .ok (pagePaths exclude entries)

end HoverTips.Files
