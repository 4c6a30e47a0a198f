import Stencil.Resource.Disk
/-!
Written paths: how they are put together and taken apart. Nothing here looks at a disk, so two paths
of one file may differ; a name that is empty or a dot counts for nothing where paths are compared.
-/

namespace Stencil.FilePath

def isAbsolute (path : String) : Bool := path.toList.head? == some '/'

/-- A path seen from a base directory. An absolute path stands by itself. -/
def join (base path : String) : String :=
  if isAbsolute path then path
  else if base.toList.getLast? == some '/' then base ++ path
  else base ++ "/" ++ path

/-- Whether a name stays where it is. -/
def isIdle (name : String) : Bool := name == "" || name == "."

def dropIdleEnd (names : List String) : List String := (names.reverse.dropWhile isIdle).reverse

/-- Names without idle ones at either end, as a path. -/
def ofNames (names : List String) : String := "/".intercalate (dropIdleEnd (names.dropWhile isIdle))

/-- The names of a path that lead anywhere. -/
def steps (path : String) : List String := (Disk.namesOf path).filter fun n ↦ !isIdle n

def dropSteps : List String → List String → Option (List String)
  | [], names => some names
  | _ :: _, [] => none
  | s :: ss, n :: ns =>
    if isIdle n then dropSteps (s :: ss) ns
    else if n = s then dropSteps ss ns
    else none

/-- An absolute path seen from a base directory, if it leads below that. -/
def relativeTo? (base path : String) : Option String :=
  (dropSteps (steps base) (Disk.namesOf path)).map ofNames

/-- An absolute path seen from a base directory, as far as it leads below that. -/
def relativeTo (base path : String) : String := (relativeTo? base path).getD path

/-- The path of the directory that an absolute path stands in. The root stands in none. -/
def parent? (path : String) : Option String :=
  match dropIdleEnd ((Disk.namesOf path).drop 1) with
  | [] => none
  | names => some ("/" ++ "/".intercalate (dropIdleEnd names.dropLast))

/-- The extension of a file name: what follows its last dot, unless that is its first character. -/
def nameExtension? (name : String) : Option String :=
  let reversed := name.toList.reverse
  match reversed.dropWhile (· ≠ '.') with
  | [] => none
  | [_] => none
  | _ => some (String.ofList (reversed.takeWhile (· ≠ '.')).reverse)

def extension? (path : String) : Option String :=
  match (steps path).getLast? with
  | none => none
  | some name => if name = ".." then none else nameExtension? name

def namesLe : List String → List String → Bool
  | [], _ => true
  | _ :: _, [] => false
  | a :: as, b :: bs => decide (a < b) || (a == b && namesLe as bs)

def sort (paths : List String) : List String := paths.mergeSort fun p q ↦ namesLe (steps p) (steps q)

def filesBelow (disk : Disk) (directory : String) : List String :=
  sort ((disk.filesBelow directory).map fun names ↦ join directory ("/".intercalate names))

end Stencil.FilePath
