import FlatConfig.Program

set_option autoImplicit false

namespace FlatConfig

def succeeds (action : IO Unit) : IO Bool := do
  try
    action
    return true
  catch _ => return false

instance : Host IO where
  isPresent path := succeeds (discard (IO.FS.realPath path))
  isFile path := succeeds do
    let handle ← IO.FS.Handle.mk path .read
    discard (handle.read 1)
  read? path := try some <$> IO.FS.readFile path catch _ => return none
  write path text := succeeds (IO.FS.writeFile path text)
  append path text := succeeds do
    let handle ← IO.FS.Handle.mk path .append
    handle.putStr text
  makeDirectories path := if path == "" then return true else succeeds (IO.FS.createDirAll path)
  currentDirectory := try return some (← IO.currentDir).toString catch _ => return none

def Environment.read : IO Environment := do
  let names := [Source.pathVariable, CommandLine.outputVariable, Log.filterVariable,
    Log.colorVariable]
  return (← names.mapM fun name => return (← IO.getEnv name).map (name, ·)).filterMap id

def uptime : IO String := do
  let micros := (← IO.monoNanosNow) / 1000
  let fraction := toString (micros % 1000000)
  return toString (micros / 1000000) ++ "." ++
    String.ofList (List.replicate (6 - fraction.length) '0') ++ fraction ++ "s"

end FlatConfig

def main (arguments : List String) : IO UInt32 := do
  let env ← FlatConfig.Environment.read
  let outcome ← FlatConfig.Program.run FlatConfig.uptime env arguments
  IO.print outcome.printed.out
  IO.eprint outcome.printed.err
  return outcome.code.toUInt32
