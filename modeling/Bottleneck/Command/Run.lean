import Bottleneck.Contents
import Bottleneck.Diagnosis
import Bottleneck.Report.Basic

/-!
A run of the program on the files that it is told of. Files are read by a given function, in any
monad. A run writes to the standard output as it goes, and what it has written before it fails stays
written; a failure ends it with one message to the standard error.
-/

namespace Bottleneck.Command

/-- What to analyze and how to report it. -/
structure Invocation where
  snapshot : String
  format : Report.Format := .text
  config : Option String := none
deriving DecidableEq, Repr

/-- How a run ends. -/
structure Outcome where
  exitCode : UInt32 := 0
  stdout : String := ""
  stderr : String := ""
deriving DecidableEq, Repr

/-- What a report is introduced with. Only a text report is meant for a person. -/
def banner : Report.Format → String
  | .text => "🔍 Analyzing metrics...\n\n"
  | .json => ""

/-- The message of a failed run. That of an unreadable snapshot says itself that it is an error. -/
def failureText (failure : Failure) : String :=
  match failure with
  | .unreadable _ => "❌ " ++ failure.message ++ "\n"
  | _ => "❌ Error: " ++ failure.message ++ "\n"

/-! ## Attempts -/

variable {m : Type → Type} [Monad m]

/-- An attempt at something that can fail. The text it carries along is what has been written to the
standard output so far, before a failure as well. -/
abbrev Attempt (m : Type → Type) := ExceptT Failure (StateT String m)

/-- Write a text behind all that has been written before. -/
def Attempt.write (text : String) : Attempt m Unit := modify (· ++ text)

/-- The outcome of an attempt that ended like this, with this much written. -/
def Outcome.ofAttempt : Except Failure Unit × String → Outcome
  | (.ok (), written) => { stdout := written }
  | (.error failure, written) =>
    { exitCode := 1, stdout := written, stderr := failureText failure }

namespace Invocation

/-- The rules of a run, which are the built-in ones unless a configuration extends them. -/
def rules (reader : Config.Reader) (read : String → m Contents) (i : Invocation) :
    Attempt m Rules :=
  match i.config with
  | none => return .builtIn
  | some path => do
    let config ← ofExcept ((← read path).config reader path)
    return config.rules

/-- Write what the rules find in the snapshot. The banner is written before the snapshot is
analyzed. -/
def reportWith (read : String → m Contents) (i : Invocation) (rules : Rules) : Attempt m Unit := do
  let text ← ofExcept ((← read i.snapshot).snapshotText i.snapshot)
  .write (banner i.format)
  .write (Report.render (analyze rules text) i.format)

/-- Write the report that is asked for. The configuration is read before the snapshot. -/
def report (reader : Config.Reader) (read : String → m Contents) (i : Invocation) :
    Attempt m Unit := do
  i.reportWith read (← i.rules reader read)

/-- The outcome of a run, which is an attempt at the report. -/
def run (reader : Config.Reader) (read : String → m Contents) (i : Invocation) : m Outcome := do
  return .ofAttempt (← (i.report reader read).run.run "")

end Invocation

end Bottleneck.Command
