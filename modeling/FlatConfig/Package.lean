import FlatConfig.FileTree

set_option autoImplicit false

namespace FlatConfig.Package

open FileTree

def extensions : List String := ["yaml", "yml", "json"]

/-- A source is named like a project's own, or ends in `.usagi` and an extension. -/
def isSourceName (name : String) : Bool :=
  extensions.any fun extension =>
    name == "usagi.config." ++ extension ||
      (".usagi." ++ extension).toList.isSuffixOf name.toList

section
variable {Name : Type} [DecidableEq Name] [LE Name] [DecidableLE Name]

def isBefore : List Name → List Name → Bool
  | [], _ => true
  | _ :: _, [] => false
  | a :: as, b :: bs => if a = b then isBefore as bs else a ≤ b

/-- The places of the sources among the entries of a walk, in order. What could not be read is
passed over, and a name that is no text is the name of no source. -/
def select (text? : Name → Option String) (top : Name) (visits : List (Option (Visit Name))) :
    List (List Name) :=
  let files := (visits.filterMap id).filter Visit.isFile
  let sources := files.filter fun visit => isSourceName ((text? (visit.name top)).getD "")
  (sources.map Visit.place).mergeSort isBefore

end

def nameOf (root : String) : String := (Path.fileName? root).getD root

def pathAt (root : String) (place : Place) : String := place.foldl Path.join root

/-- The sources in a tree that stands at the path `root`. Names are compared in code point order. -/
def sources (root : String) (tree : FileTree) : List String :=
  (select some (nameOf root) tree.visits).map (pathAt root)

def find (root : String) (disk : Disk) : List String :=
  ((disk.listing? root).map (sources root)).getD []

end FlatConfig.Package
