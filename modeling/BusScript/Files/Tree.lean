import BusScript.Files.Path
import BusScript.Text.Quoted

/-!
# File trees

The files and directories that a program sees from where it stands, with the faults that reading
and writing a path can meet. A path is walked from piece to piece, and each piece on the way has to
be a directory. What lies above the place where the program stands is empty, unless the tree says
otherwise.
-/

namespace BusScript

/-- Why a path cannot be opened. -/
inductive FileFault
  | missing
  | notDirectory
  | isDirectory
  | nameTooLong
  deriving DecidableEq, Repr

def FileFault.number : FileFault → Nat
  | .missing => 2
  | .notDirectory => 20
  | .isDirectory => 21
  | .nameTooLong => 36

def FileFault.reason : FileFault → String
  | .missing => "No such file or directory"
  | .notDirectory => "Not a directory"
  | .isDirectory => "Is a directory"
  | .nameTooLong => "File name too long"

/-- The fault with its number and the path. -/
def FileFault.message (fault : FileFault) (path : String) : String :=
  s!"[Errno {fault.number}] {fault.reason}: {Text.quoted path}"

/-- Why opening a path came to nothing: the files are in the way, or the path itself cannot be
asked for. -/
inductive OpenFault
  | file (fault : FileFault)
  /-- The path holds a NUL. -/
  | nul
  deriving DecidableEq, Repr

def OpenFault.message (path : String) : OpenFault → String
  | .file fault => fault.message path
  | .nul => "embedded null byte"

/-- What stands at a place. -/
inductive Node
  | file (bytes : List UInt8)
  | directory
  deriving DecidableEq, Repr

/-- Places and what stands there. A place is a list of names, from where the program stands; an
absolute one starts with a slash. The latest entry of a place counts. -/
structure Tree where
  nodes : List (List String × Node) := []

namespace Tree

/-- What stands at a place. The place where the program stands, the places above it and the root
are directories in any case. -/
def node? (tree : Tree) (place : List String) : Option Node :=
  match tree.nodes.lookup place with
  | some node => some node
  | none => if place.all fun name => name == ".." || name == "/" then some .directory else none

/-- The tree with a node at a place, and directories on the way to it. -/
def add (tree : Tree) (place : List String) (node : Node) : Tree :=
  let above := (List.range place.length).map place.take
  let directories := above.filter fun place => (tree.node? place).isNone
  ⟨(place, node) :: directories.map (·, .directory) ++ tree.nodes⟩

/-- The most bytes that a name has. -/
def nameLimit : Nat := 255

/-- The most bytes that a path has. -/
def pathLimit : Nat := 4095

/-- The place above a place. -/
def above (place : List String) : List String :=
  if place = ["/"] then place
  else if place.all (· == "..") then place ++ [".."]
  else place.dropLast

/-- The place that pieces lead to from a place, and what stands there, if anything does. Only the
last piece may lead to nothing. -/
def walk (tree : Tree) (place : List String) :
    List String → Except FileFault (List String × Option Node)
  | [] => .ok (place, tree.node? place)
  | piece :: rest => do
    match tree.node? place with
    | none => throw .missing
    | some (.file _) => throw .notDirectory
    | some .directory =>
      if piece = "" || piece = "." then tree.walk place rest
      else if piece = ".." then tree.walk (above place) rest
      else if nameLimit < piece.utf8ByteSize then throw .nameTooLong
      else tree.walk (place ++ [piece]) rest

/-- The place that a path leads to, and what stands there. -/
def resolve (tree : Tree) (path : String) : Except OpenFault (List String × Option Node) :=
  if path.toList.any (·.toNat == 0) then .error .nul
  else if path.isEmpty then .error (.file .missing)
  else if pathLimit < path.utf8ByteSize then .error (.file .nameTooLong)
  else
    let start := if path.toList.head? = some '/' then ["/"] else []
    (tree.walk start (Path.pieces path)).mapError .file

/-- The bytes of the file that a path leads to. -/
def read (tree : Tree) (path : String) : Except OpenFault (List UInt8) := do
  match ← tree.resolve path with
  | (_, some (.file bytes)) => return bytes
  | (_, some .directory) => throw (.file .isDirectory)
  | (_, none) => throw (.file .missing)

/-- A path leads to a file or a directory. -/
def holds (tree : Tree) (path : String) : Bool :=
  match tree.resolve path with
  | .ok (_, some _) => true
  | _ => false

/-- A path leads to a directory. -/
def isDirectory (tree : Tree) (path : String) : Bool :=
  match tree.resolve path with
  | .ok (_, some .directory) => true
  | _ => false

/-- The tree with bytes written to a path, which leads to a file or to nothing in a directory. -/
def write (tree : Tree) (path : String) (bytes : List UInt8) : Except OpenFault Tree := do
  match ← tree.resolve path with
  | (_, some .directory) => throw (.file .isDirectory)
  | (place, some (.file _)) => return tree.add place (.file bytes)
  | (place, none) =>
    match tree.node? place.dropLast with
    | some .directory => return tree.add place (.file bytes)
    | some (.file _) => throw (.file .notDirectory)
    | none => throw (.file .missing)

end Tree

end BusScript
