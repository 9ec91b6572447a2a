import Clearing.Fixture
import Clearing.Report
import Clearing.Session
import Clearing.Toml

/-!
# The command line

The program is told a fixture and, if need be, a format and a file with
settings.  It processes the transactions of the fixture as one batch of the
format and prints what customers and products amount to.

Arguments are looked at before files, the settings before the fixture, and the
first thing that is wrong is reported alone; nothing is printed then.
-/

namespace Clearing

/-- What is found where a path points. -/
inductive FileContent where
  /-- Nothing that could be opened, for a reason. -/
  | closed (reason : String)
  /-- Something that cannot be read to its end. -/
  | unreadable
  | bytes (content : Bytes)

/-- Nothing is where a path points. -/
def FileContent.missing : FileContent := .closed "No such file or directory (os error 2)"

/-- What is wrong with a call of the program. -/
inductive Complaint where
  /-- No fixture was named. -/
  | usage
  | unknownFormat (name : String)
  /-- The settings cannot be read or are invalid. -/
  | badSettings (path : String)
  /-- The fixture cannot be opened, for a reason. -/
  | closedFixture (reason : String)
  /-- The fixture cannot be read. -/
  | badFixture (path : String)
  /-- The totals could not be had. -/
  | failed (failure : Failure)

/-- How a complaint is worded. -/
def Complaint.message : Complaint → String
  | .usage => "Usage: txn-pipeline <fixture.json> [text|binary] [config.toml]"
  | .unknownFormat name => WireFormat.unknownMessage name
  | .badSettings path => "loading config from " ++ path
  | .closedFixture reason => reason
  | .badFixture path => "reading fixture " ++ path
  | .failed failure => failure.message

/-- How a run of the program ends. -/
inductive Exit where
  | printed (report : String)
  | refused (complaint : Complaint)
  | aborted

/-- The number that the program leaves behind. -/
def Exit.code : Exit → Nat
  | .printed _ => 0
  | .refused _ => 1
  | .aborted => 101

/-- What the arguments ask for. -/
structure Invocation where
  fixturePath : String
  format : WireFormat
  settingsPath : Option String

namespace Invocation

/-- The invocation by some arguments; more than three do not matter. -/
def ofArguments : List String → Except Complaint Invocation
  | [] => .error .usage
  | fixturePath :: rest =>
    match rest with
    | [] => .ok { fixturePath, format := .text, settingsPath := none }
    | name :: rest =>
      match WireFormat.ofName name with
      | .ok format => .ok { fixturePath, format, settingsPath := rest.head? }
      | .error unknown => .error (.unknownFormat unknown)

/-- The settings that are asked for. -/
def settings (invocation : Invocation) (files : String → FileContent) :
    Except Complaint Settings :=
  match invocation.settingsPath with
  | none => .ok .initial
  | some path =>
    match files path with
    | .bytes content =>
      match (Text.decode? content).map Settings.ofToml with
      | some (.ok settings) => .ok settings
      | _ => .error (.badSettings path)
    | _ => .error (.badSettings path)

/-- The fixture that is asked for. -/
def fixture (invocation : Invocation) (files : String → FileContent) :
    Except Complaint Fixture :=
  match files invocation.fixturePath with
  | .bytes content =>
    match Fixture.ofBytes? content with
    | some fixture => .ok fixture
    | none => .error (.badFixture invocation.fixturePath)
  | .closed reason => .error (.closedFixture reason)
  | .unreadable => .error (.badFixture invocation.fixturePath)

end Invocation

namespace CommandLine

/-- The files that are needed. -/
def paths (arguments : List String) : List String :=
  match Invocation.ofArguments arguments with
  | .ok invocation => invocation.fixturePath :: invocation.settingsPath.toList
  | .error _ => []

/-- The totals after everything was processed. -/
def report (session : Session) : Exit :=
  let (customers, session) := session.tell .customerSummary
  let (products, _) := session.tell .productSummary
  match customers, products with
  | some (.customerSummary (.returned (.ok customerRows))),
    some (.productSummary (.returned (.ok productRows))) =>
    .printed (Report.both customerRows productRows)
  | some (.customerSummary (.returned (.error failure))), _ => .refused (.failed failure)
  | some (.customerSummary (.returned (.ok _))),
    some (.productSummary (.returned (.error failure))) => .refused (.failed failure)
  | _, _ => .aborted

/-- Processes the transactions of a fixture that can be read. -/
def process (settings : Settings) (fixture : Fixture) (format : WireFormat)
    (clock : Nat → Timestamp) : Exit :=
  match Session.new? settings fixture.ledger clock with
  | none => .aborted
  | some session =>
    let transactions := (fixture.transactions format).filterMap (·.toOption)
    match session.tell (.batch transactions format) with
    | (some (.batch _), session) => report session
    | _ => .aborted

/-- Runs the program with some arguments. -/
def run (clock : Nat → Timestamp) (files : String → FileContent) (arguments : List String) :
    Exit :=
  let prepared := do
    let invocation ← Invocation.ofArguments arguments
    let settings ← invocation.settings files
    let fixture ← invocation.fixture files
    pure (settings, fixture, invocation.format)
  match prepared with
  | .ok (settings, fixture, format) => process settings fixture format clock
  | .error complaint => .refused complaint

end CommandLine

end Clearing
