import ExamVariants.CommandLine.Run

namespace ExamVariants

def readContent (path : String) : IO (Option Content) := do
  try
    return some (.ofBytes (← IO.FS.readBinFile path))
  catch _ => return none

def readTree (paths : List String) : IO FileTree := do
  let mut tree := FileTree.empty
  for path in paths do
    if let some content ← readContent path then tree := tree.adopt path content
  return tree

def writeContent (place : Path.Location) (content : Content) : IO Unit := do
  let path := Path.ofLocation place
  if place.length > 1 then IO.FS.createDirAll (Path.ofLocation place.dropLast)
  match content with
  | .text s => IO.FS.writeFile path s
  | .binary bytes => IO.FS.writeBinFile path bytes

def drawSeed : IO Int64 := do
  let bytes ← IO.getRandomBytes 8
  return (bytes.foldl (fun n b => n * 256 + b.toUInt64) 0).toInt64

def runProgram (arguments : List String) : IO UInt32 := do
  let invocation := CommandLine.Invocation.ofArguments arguments
  if (invocation.toOption.map CommandLine.Invocation.typesets).getD false then
    IO.eprintln "error: no typesetter is available"
    return 1
  let tree ← readTree ((invocation.toOption.map CommandLine.Invocation.inputs).getD [])
  let environment ← IO.getEnv "RUST_LOG"
  let outcome := CommandLine.run arguments environment (← drawSeed) (Session.ofFiles tree)
  for (place, content) in outcome.session.files.changesFrom tree do
    writeContent place content
  IO.print outcome.stdout
  IO.eprint outcome.stderr
  return UInt32.ofNat outcome.exitCode

end ExamVariants

def main (arguments : List String) : IO UInt32 := ExamVariants.runProgram arguments
