import PageTest.CommandLine.Program
import Std.Time.DateTime.Timestamp

/-! The command line: carries out on the real file system what the program asks for. -/

namespace PageTest.CommandLine

def readContent (path : String) : IO FileContent := do
  try
    return .bytes (← IO.FS.readBinFile path)
  catch _ =>
    return .missing

/-- Whether something could be done. -/
def succeeded (action : IO Unit) : IO Bool := do
  try
    action
    return true
  catch _ =>
    return false

def Program.carryOut : Program → IO UInt32
  | .ends e => do
    (← IO.getStdout).putStr e.output
    if e.remark ≠ "" then (← IO.getStderr).putStrLn e.remark
    return e.code.toUInt32
  | .reads path next => do
    let content ← readContent path
    carryOut (next content)
  | .makes directory next => do
    let made ← succeeded (if directory = "" then pure () else IO.FS.createDirAll directory)
    carryOut (next made)
  | .writes directory name text next => do
    let written ← succeeded (IO.FS.writeFile (Files.join directory name) text)
    carryOut (next written)

end PageTest.CommandLine

def main (args : List String) : IO UInt32 := do
  let now ← Std.Time.Timestamp.now
  let epoch : PageTest.Timestamp := ⟨now.val.second.val, now.val.nano.val.toNat⟩
  let clockSecs := (← IO.monoMsNow) / 1000
  let file ← IO.getEnv "WEBTEST_CONFIG"
  (PageTest.CommandLine.Program.ofArguments epoch clockSecs file args).carryOut
