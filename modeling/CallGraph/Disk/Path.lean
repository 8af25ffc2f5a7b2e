import CallGraph.Disk.Basic

/-! Paths as texts: joining, the folder above, and the absolute form. -/
namespace CallGraph.Path

/-- A name within a folder. -/
def join (folder name : String) : String :=
  if folder.isEmpty then name
  else if folder.toList.getLast? = some '/' then folder ++ name
  else folder ++ "/" ++ name

/-- The parts between slashes without those at the end that name nothing; the first part stays. -/
def trimEnd : List (List Char) → List (List Char)
  | [] => []
  | first :: rest =>
    first :: (rest.reverse.dropWhile fun part => part.isEmpty || part = ['.']).reverse

/-- The path of the folder that a path's last name stands in. -/
def parent? (path : String) : Option String :=
  let parts := trimEnd (path.toList.splitOn '/')
  match parts with
  | [] => none
  | [part] => if part.isEmpty then none else some ""
  | first :: rest =>
    let above := trimEnd (first :: rest.dropLast)
    if above = [[]] then some "/" else some (String.ofList (List.intercalate ['/'] above))

/-- The names in a path that lead anywhere. -/
def parts (path : String) : List String :=
  (Disk.pathNames path).filter (· ≠ ".")

/-- Whether parts come before others: the first that differ decide, and the folder above comes first. -/
def precede : List String → List String → Bool
  | _, [] => false
  | [], _ :: _ => true
  | x :: xs, y :: ys => if x = y then precede xs ys else x = ".." || y ≠ ".." && x < y

/-- Whether the first of two absolute paths does not come after the second. -/
def le (x y : String) : Bool :=
  !precede (parts y) (parts x)

/-- The root that an absolute path starts from; two slashes are kept, more of them are one. -/
def rootOf (path : String) : String :=
  if "//".toList.isPrefixOf path.toList && !"///".toList.isPrefixOf path.toList then "//" else "/"

/-- A path from the root, without the parts that name nothing. -/
def absolute (working path : String) : String :=
  (parts path).foldl join
    (if Disk.isAbsolute path then rootOf path else working)

def ofLocation (loc : Location) : String :=
  if loc.isEmpty then "/" else String.join (loc.map ("/" ++ ·))

end CallGraph.Path
