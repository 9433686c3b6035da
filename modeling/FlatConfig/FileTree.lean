import FlatConfig.Path

/-!
Directory trees, and what a path means in one.

A place is the list of names from the root down to an entry. A path leads to a place: links on the
way are followed, and the last one is or is not, as the operation needs. Names and whole paths that
are too long lead nowhere.
-/

set_option autoImplicit false

namespace FlatConfig

inductive FileTree where
  | file (content : ByteArray)
  | link (target : String)
  | directory (entries : List (String × FileTree))
  | closed

namespace FileTree

/-- The names from the root down. -/
abbrev Place := List String

def isDirectory : FileTree → Bool
  | .directory _ | .closed => true
  | _ => false

def isFile : FileTree → Bool
  | .file _ => true
  | _ => false

def child? (tree : FileTree) (name : String) : Option FileTree :=
  match tree with
  | .directory entries => entries.lookup name
  | _ => none

def at? (tree : FileTree) : Place → Option FileTree
  | [] => some tree
  | name :: rest => (tree.child? name).bind (·.at? rest)

/-- The entries with one of them changed; a new one comes last. -/
def alter (f : Option FileTree → FileTree) (name : String) :
    List (String × FileTree) → List (String × FileTree)
  | [] => [(name, f none)]
  | (n, tree) :: rest =>
    if n = name then (n, f (some tree)) :: rest else (n, tree) :: alter f name rest

def put (entry : FileTree) : Place → FileTree → FileTree
  | [], _ => entry
  | name :: rest, .directory entries =>
    .directory (alter (fun tree => put entry rest (tree.getD (.directory []))) name entries)
  | _, tree => tree

def erase : Place → FileTree → FileTree
  | [name], .directory entries => .directory (entries.filter fun entry => entry.1 != name)
  | name :: rest, .directory entries =>
    .directory (entries.map fun (n, tree) => (n, if n = name then erase rest tree else tree))
  | _, tree => tree

/-- An entry that a walk comes to: the names from the root down to it, as the disk keeps them, and
whether it is a regular file. -/
structure Visit (Name : Type) where
  place : List Name
  isFile : Bool
  deriving DecidableEq, Repr

def Visit.name {Name : Type} (top : Name) (visit : Visit Name) : Name :=
  visit.place.getLast?.getD top

def Visit.below {Name : Type} (name : Name) (visit : Visit Name) : Visit Name :=
  { visit with place := name :: visit.place }

mutual
/-- Every entry from the root down, and none where there is one that cannot be read; links are not
followed. -/
def visits : FileTree → List (Option (Visit String))
  | .file _ => [some ⟨[], true⟩]
  | .link _ => [some ⟨[], false⟩]
  | .directory entries => some ⟨[], false⟩ :: entryVisits entries
  | .closed => [some ⟨[], false⟩, none]

def entryVisits : List (String × FileTree) → List (Option (Visit String))
  | [] => []
  | (name, tree) :: rest => tree.visits.map (·.map (Visit.below name)) ++ entryVisits rest
end

def close : FileTree → FileTree
  | .directory _ => .closed
  | tree => tree

mutual
/-- The tree with those directories closed whose path below this one takes more than `room`
bytes. -/
def within (room : Nat) : FileTree → FileTree
  | .directory entries => .directory (entriesWithin room entries)
  | tree => tree

def entriesWithin (room : Nat) : List (String × FileTree) → List (String × FileTree)
  | [] => []
  | (name, tree) :: rest =>
    let size := name.utf8ByteSize + 1
    (name, if size ≤ room then tree.within (room - size) else tree.close) ::
      entriesWithin room rest
end

inductive Obstacle where
  | absent
  | blocked
  deriving DecidableEq, Repr

inductive Location where
  | entry (place : Place)
  | vacant (place : Place)
  deriving DecidableEq, Repr

def maxLinks : Nat := 40

def maxNameLength : Nat := 255

def maxPathLength : Nat := 4095

/-- The way from the root down to an entry, as the names with what they lead to, the last first. -/
abbrev Trail := List (String × FileTree)

namespace Trail

def place (trail : Trail) : Place := (trail.map Prod.fst).reverse

def target (root : FileTree) (trail : Trail) : FileTree := (trail.head?.map Prod.snd).getD root

end Trail

def trailFrom? (tree : FileTree) (trail : Trail) : Place → Option Trail
  | [] => some trail
  | name :: rest =>
    (tree.child? name).bind fun child => child.trailFrom? ((name, child) :: trail) rest

def walk (root : FileTree) (followLast : Bool) (links : Nat) (trail : Trail) :
    List String → Except Obstacle Location
  | [] => .ok (.entry trail.place)
  | part :: rest =>
    if part = "" ∨ part = "." then walk root followLast links trail rest
    else if part = ".." then walk root followLast links trail.tail rest
    else if part.utf8ByteSize > maxNameLength then .error .blocked
    else
      match trail.target root with
      | .directory entries =>
        match entries.lookup part with
        | none => if rest.isEmpty then .ok (.vacant (trail.place ++ [part])) else .error .absent
        | some (.file _) =>
          if rest.isEmpty then .ok (.entry (trail.place ++ [part])) else .error .blocked
        | some (.link target) =>
          if rest.isEmpty ∧ ¬ followLast then .ok (.entry (trail.place ++ [part]))
          else
            match links with
            | 0 => .error .blocked
            | links + 1 =>
              walk root followLast links (if Path.isAbsolute target then [] else trail)
                (Path.parts target ++ rest)
        | some tree => walk root followLast links ((part, tree) :: trail) rest
      | _ => .error .blocked
termination_by parts => (links, parts.length)

end FileTree

/-- A directory tree with the directory that relative paths start from. -/
structure Disk where
  root : FileTree
  current : FileTree.Place

namespace Disk

open FileTree

def isRefused (path : String) : Bool :=
  path.contains '\x00' || path.utf8ByteSize > maxPathLength

def locate (disk : Disk) (followLast : Bool) (path : String) : Except Obstacle Location :=
  if path = "" then .error .absent
  else if isRefused path then .error .blocked
  else
    match disk.root.trailFrom? [] (if Path.isAbsolute path then [] else disk.current) with
    | some trail => walk disk.root followLast maxLinks trail (Path.parts path)
    | none => .error .absent

def place? (disk : Disk) (path : String) : Option Place :=
  match disk.locate true path with
  | .ok (.entry place) => some place
  | _ => none

def entry? (disk : Disk) (path : String) : Option FileTree :=
  (disk.place? path).bind disk.root.at?

def isPresent (disk : Disk) (path : String) : Bool := (disk.entry? path).isSome

def isFile (disk : Disk) (path : String) : Bool := (disk.entry? path).any FileTree.isFile

def isDirectory (disk : Disk) (path : String) : Bool := (disk.entry? path).any FileTree.isDirectory

def content? (disk : Disk) (path : String) : Option ByteArray :=
  match disk.entry? path with
  | some (.file content) => some content
  | _ => none

/-- The text of a file; none also when its bytes are no text. -/
def read? (disk : Disk) (path : String) : Option String :=
  (disk.content? path).bind String.fromUTF8?

def withEntry (disk : Disk) (place : Place) (entry : FileTree) : Disk :=
  { disk with root := FileTree.put entry place disk.root }

def modify? (disk : Disk) (path : String) (f : ByteArray → ByteArray) : Option Disk :=
  match disk.locate true path with
  | .ok (.vacant place) => some (disk.withEntry place (.file (f .empty)))
  | .ok (.entry place) =>
    match disk.root.at? place with
    | some (.file content) => some (disk.withEntry place (.file (f content)))
    | _ => none
  | .error _ => none

def write? (disk : Disk) (path : String) (content : ByteArray) : Option Disk :=
  disk.modify? path fun _ => content

def append? (disk : Disk) (path : String) (content : ByteArray) : Option Disk :=
  disk.modify? path (· ++ content)

/-- The part of a path before its last name, and that name; slashes at the end do not count. -/
def splitLast (path : String) : String × String :=
  let reversed := (Path.parts path).reverse.dropWhile (· == "")
  match reversed with
  | [] => (path, "")
  | name :: above => ("/".intercalate above.reverse ++ (if above.isEmpty then "." else "/"), name)

/-- Makes one directory. A link that leads nowhere is in the way too. -/
def makeDirectory (disk : Disk) (path : String) : Except Obstacle Disk :=
  let (above, name) := splitLast path
  if path = "" then .error .absent
  else if isRefused path then .error .blocked
  else
    match disk.locate true above with
    | .error e => .error e
    | .ok (.vacant _) => .error .absent
    | .ok (.entry place) =>
      if name = "" ∨ name = "." ∨ name = ".." ∨ name.utf8ByteSize > maxNameLength then
        .error .blocked
      else
        match disk.root.at? place with
        | some (.directory entries) =>
          if (entries.lookup name).isSome then .error .blocked
          else .ok (disk.withEntry (place ++ [name]) (.directory []))
        | _ => .error .blocked

def ensureDirectory (disk : Disk) (path : String) : Bool × Disk :=
  match disk.makeDirectory path with
  | .ok made => (true, made)
  | .error _ => (disk.isDirectory path, disk)

/-- Makes the first directory of a list, and first the others as far as they are missing. What has
been made stays there when the next is refused. -/
def makeChain (disk : Disk) : List String → Bool × Disk
  | [] => (false, disk)
  | path :: above =>
    if path = "" then (true, disk)
    else
      match disk.makeDirectory path with
      | .error .absent =>
        match disk.makeChain above with
        | (true, made) => made.ensureDirectory path
        | refused => refused
      | _ => disk.ensureDirectory path

def makeDirectories (disk : Disk) (path : String) : Bool × Disk :=
  disk.makeChain (Path.ancestors path)

def makeDirectories? (disk : Disk) (path : String) : Option Disk :=
  match disk.makeDirectories path with
  | (true, made) => some made
  | (false, _) => none

def link? (disk : Disk) (target path : String) : Option Disk :=
  match disk.locate false path with
  | .ok (.vacant place) =>
    if target = "" ∨ isRefused target then none else some (disk.withEntry place (.link target))
  | _ => none

def remove? (disk : Disk) (path : String) : Option Disk :=
  match disk.locate false path with
  | .ok (.entry place) => some { disk with root := disk.root.erase place }
  | _ => none

/-- What a listing begins at: a link to a directory is followed, one to a file is not. -/
def tree? (disk : Disk) (path : String) : Option FileTree :=
  match disk.locate false path with
  | .ok (.entry place) =>
    match disk.root.at? place with
    | some (.link _) => (disk.entry? path).filter FileTree.isDirectory
    | tree => tree
  | _ => none

/-- The tree that a listing goes through. Directories whose path is too long are not looked into; a
slash at the end of the path takes no room of its own. -/
def listing? (disk : Disk) (path : String) : Option FileTree :=
  let size := path.utf8ByteSize - (if path.toList.getLast? == some '/' then 1 else 0)
  (disk.tree? path).map (·.within (maxPathLength - size))

/-- The directory that relative paths start from, as an absolute path; none when it is gone. -/
def currentPath? (disk : Disk) : Option String :=
  if (disk.root.at? disk.current).any FileTree.isDirectory then
    some ("/" ++ "/".intercalate disk.current)
  else none

def enter? (disk : Disk) (path : String) : Option Disk :=
  match disk.place? path with
  | some place =>
    if (disk.root.at? place).any FileTree.isDirectory then some { disk with current := place }
    else none
  | none => none

end Disk
end FlatConfig
