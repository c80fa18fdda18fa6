/-!
# Paths

File paths by their components. Empty components and single points mean nothing and are left out;
two points stay, because what lies above a directory is for the file tree to say.
-/

namespace BusScript

/-- A path: the slashes it starts with and its components. A path that starts with exactly two
slashes keeps both, any other number counts as one. -/
structure Path where
  slashes : Nat
  components : List String
  deriving DecidableEq, Repr

namespace Path

/-- What stands between the slashes of a text. -/
def pieces (text : String) : List String :=
  (text.toList.splitOn '/').map String.ofList

def ofString (text : String) : Path where
  slashes := match (text.toList.takeWhile (· == '/')).length with
    | 0 => 0
    | 2 => 2
    | _ => 1
  components := (pieces text).filter fun piece => piece != "" && piece != "."

def isAbsolute (path : Path) : Bool :=
  0 < path.slashes

/-- The path as text; a path of nothing is a point. -/
def toString (path : Path) : String :=
  let text := String.ofList (List.replicate path.slashes '/') ++ "/".intercalate path.components
  if text.isEmpty then "." else text

instance : ToString Path := ⟨Path.toString⟩

/-- A path seen from another one. -/
def join (base path : Path) : Path :=
  if path.isAbsolute then path
  else { base with components := base.components ++ path.components }

/-- The path without its last component. -/
def parent (path : Path) : Path :=
  { path with components := path.components.dropLast }

/-- The last component. -/
def name (path : Path) : String :=
  path.components.getLast?.getD ""

/-- The last point of the name and what follows it; a name that starts or ends with its last point
has no suffix. -/
def suffix (path : Path) : String :=
  let back := path.name.toList.reverse
  let extension := back.takeWhile (· != '.')
  let stem := (back.dropWhile (· != '.')).drop 1
  if extension.isEmpty || stem.isEmpty then "" else String.ofList ('.' :: extension.reverse)

end Path

end BusScript
