import FlatConfig.FileTree

set_option autoImplicit false

namespace FlatConfig

/-- Paths may be relative to the current directory. The answers `false` and `none` mean that the
machine refused. -/
class Host (m : Type → Type) where
  isPresent (path : String) : m Bool
  isFile (path : String) : m Bool
  read? (path : String) : m (Option String)
  write (path text : String) : m Bool
  append (path text : String) : m Bool
  makeDirectories (path : String) : m Bool
  currentDirectory : m (Option String)

namespace Disk

def attempt (change : Disk → Option Disk) : StateM Disk Bool := fun disk =>
  match change disk with
  | some changed => (true, changed)
  | none => (false, disk)

instance : Host (StateM Disk) where
  isPresent path := return (← get).isPresent path
  isFile path := return (← get).isFile path
  read? path := return (← get).read? path
  write path text := attempt (·.write? path text.toUTF8)
  append path text := attempt (·.append? path text.toUTF8)
  makeDirectories path := fun disk => disk.makeDirectories path
  currentDirectory := return (← get).currentPath?

end Disk
end FlatConfig
