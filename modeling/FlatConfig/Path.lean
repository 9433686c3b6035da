/-!
Paths as text: names with slashes between.

An empty part and the part `.` name nothing, except that a leading `.` names the current directory.
Cutting a path keeps the text of what is left as it was written.
-/

set_option autoImplicit false

namespace FlatConfig.Path

def splitSlashes : List Char → List (List Char)
  | [] => [[]]
  | c :: rest =>
    if c = '/' then [] :: splitSlashes rest
    else
      match splitSlashes rest with
      | [] => [[c]]
      | part :: parts => (c :: part) :: parts

def parts (path : String) : List String := (splitSlashes path.toList).map String.ofList

def isAbsolute (path : String) : Bool := path.toList.head? == some '/'

/-- The path of `name` inside `directory`; an absolute name stays as it is. -/
def join (directory name : String) : String :=
  if isAbsolute name || directory == "" then name
  else if directory.toList.getLast? == some '/' then directory ++ name
  else directory ++ "/" ++ name

def reversedParts (path : String) : List String :=
  ((parts path).drop (if isAbsolute path then 1 else 0)).reverse

def isNamed (absolute : Bool) (part : String) (before : List String) : Bool :=
  part != "" && (part != "." || (before.isEmpty && !absolute))

def trimmed (absolute : Bool) : List String → List String
  | [] => []
  | part :: before =>
    if isNamed absolute part before then part :: before else trimmed absolute before

def ofReversed (absolute : Bool) (reversed : List String) : String :=
  (if absolute then "/" else "") ++ "/".intercalate reversed.reverse

def parentsOf (absolute : Bool) : List String → List String
  | [] => []
  | part :: before =>
    if isNamed absolute part before then
      ofReversed absolute (trimmed absolute before) :: parentsOf absolute before
    else parentsOf absolute before

def parents (path : String) : List String := parentsOf (isAbsolute path) (reversedParts path)

def parent? (path : String) : Option String := (parents path).head?

def ancestors (path : String) : List String := path :: parents path

/-- The last named part, unless it stands for a directory by its place. -/
def fileName? (path : String) : Option String :=
  match trimmed (isAbsolute path) (reversedParts path) with
  | name :: _ => if name == "." || name == ".." then none else some name
  | [] => none

/-- What follows the last point of a name; a point that begins the name does not count. -/
def nameExtension? (name : String) : Option String :=
  let reversed := name.toList.reverse
  match reversed.dropWhile (· != '.') with
  | _ :: _ :: _ => some (String.ofList (reversed.takeWhile (· != '.')).reverse)
  | _ => none

def extension? (path : String) : Option String := (fileName? path).bind nameExtension?

end FlatConfig.Path
