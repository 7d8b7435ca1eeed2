import PageTest.CommandLine.Arguments
import PageTest.CommandLine.Files
import PageTest.Demo
import PageTest.Report.Wire
import PageTest.Session

/-! The program behind the command line, as the sequence of its dealings with the file system: it may read a
configuration file, it may make a directory and write the results in it, and it ends with an exit code and its
output. -/

namespace PageTest.CommandLine

/-- How the program ends. -/
structure Ending where
  code : Nat
  output : String
  /-- What is said about it outside the output. -/
  remark : String
  deriving DecidableEq, Repr

inductive Program where
  | ends (e : Ending)
  | reads (path : String) (next : FileContent → Program)
  /-- Makes a directory and those it is in, where they are missing, and goes on knowing whether it could. -/
  | makes (directory : String) (next : Bool → Program)
  /-- Writes a file in a directory, and goes on knowing whether it could. -/
  | writes (directory name text : String) (next : Bool → Program)

namespace Program

def versionText : String := "webtest 0.1.0"

def resultsName : String := "test-results.json"

def helpText (fromEnvironment : Option String) : String :=
  "Load webtest scripts and report their results\n\n" ++
  "Usage: webtest [OPTIONS] [PATHS]...\n\n" ++
  "Arguments:\n" ++
  "  [PATHS]...  Test paths to load, in order\n\n" ++
  "Options:\n" ++
  "  -c, --config <CONFIG>              TOML config file [env: WEBTEST_CONFIG=" ++
    fromEnvironment.getD "" ++ "]\n" ++
  "  -o, --output <OUTPUT>              Output directory for results\n" ++
  "      --timeout-secs <TIMEOUT_SECS>  Per-path timeout in seconds\n" ++
  "      --json                         Print the suite report as JSON on stdout\n" ++
  "      --list                         List the scripts the demo catalog serves and exit\n" ++
  "  -h, --help                         Print help\n" ++
  "  -V, --version                      Print version\n"

/-- The program could not do what it was asked to. -/
def fails (remark : String) : Program := .ends ⟨2, "", remark⟩

/-- The program does what it was asked to. -/
def succeeds (output : String) : Program := .ends ⟨0, output, ""⟩

def configRemark (e : ConfigError) : String :=
  match e with
  | .unreadable => "Error: IO error: the configuration cannot be read"
  | .malformed => "Error: Config parse error"
  | e => "Error: Harness error: " ++ e.message?.getD ""

/-- The settings, with those from the command line before those from the file. -/
def override (a : Arguments) (c : DriverConfig) : DriverConfig :=
  { c with
    outputDir := a.output.getD c.outputDir
    timeoutSecs := a.timeoutSecs.getD c.timeoutSecs }

/-- The paths to load; all there are unless some are named. -/
def pathsOf (a : Arguments) : List String := if a.paths.isEmpty then Demo.catalog.paths else a.paths

/-- The demo page and its scripts at some time of day. However often the log is looked at, time goes on
between two looks. -/
def setup (epoch : Timestamp) (clockSecs : Nat) (c : DriverConfig) : Setup where
  driver := { c with pollIntervalMs := max 1 c.pollIntervalMs }
  catalog := Demo.catalog
  loader := ⟨0, none⟩
  deaf := false
  outputBlocked := false
  epoch := epoch
  clockSecs := clockSecs
  patience := none

/-- What a run of all paths comes to. -/
def runAll (epoch : Timestamp) (clockSecs : Nat) (c : DriverConfig) (paths : List String) : Outcome :=
  Session.outcomeOf (setup epoch clockSecs c) (.ofPage Demo.page) (.runPaths paths)

/-- The end of a run whose results are written. -/
def reported (json : Bool) (s : SuiteReport) : Program :=
  .ends ⟨if s.success then 0 else 1, if json then s.fileText ++ "\n" else "", ""⟩

def unwritten : Program := fails "Error: IO error: the results cannot be written"

/-- Writes the results of a run into a directory, and ends. -/
def writeResults (directory : String) (json : Bool) (s : SuiteReport) : Program :=
  .makes directory fun made =>
    if made then
      .writes directory resultsName s.fileText fun written => if written then reported json s else unwritten
    else unwritten

def runWith (epoch : Timestamp) (clockSecs : Nat) (a : Arguments) (c : DriverConfig) : Program :=
  let c := override a c
  match runAll epoch clockSecs c (pathsOf a) with
  | .value (.suite s) => writeResults c.outputDir a.json s
  | .panic p => .ends ⟨101, "", p.text⟩
  | .fault f => fails ("Error: " ++ f.cause.summary)
  | .value _ => fails "Error: no results"

def perform (epoch : Timestamp) (clockSecs : Nat) (a : Arguments) : Program :=
  if a.list then succeeds (String.join (Demo.catalog.paths.map (· ++ "\n")))
  else match a.config with
    | none => runWith epoch clockSecs a .default
    | some path =>
      .reads path fun file =>
        match DriverConfig.ofFile file with
        | .error e => fails (configRemark e)
        | .ok c => runWith epoch clockSecs a c

/-- The program for some arguments, at a time of day and with so many seconds on the monotonic clock. -/
def ofArguments (epoch : Timestamp) (clockSecs : Nat) (fromEnvironment : Option String)
    (args : List String) : Program :=
  match Request.ofArguments fromEnvironment args with
  | .error e => fails ("error: " ++ e.message)
  | .ok .help => succeeds (helpText fromEnvironment)
  | .ok .version => succeeds (versionText ++ "\n")
  | .ok (.run a) => perform epoch clockSecs a

/-- Runs the program on a tree of files. -/
def run : Files → Program → Files × Ending
  | fs, .ends e => (fs, e)
  | fs, .reads path next => run fs (next (fs.read path))
  | fs, .makes directory next =>
    let (fs, made) := fs.makeDirectories directory
    run fs (next made)
  | fs, .writes directory name text next =>
    let (fs, written) := fs.write directory name text
    run fs (next written)

end Program

end PageTest.CommandLine
