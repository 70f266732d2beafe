import Bottleneck.Config.Load

/-!
What a run takes from its files: the text of a snapshot and a configuration. Both start from what
reading the file gave, so they do not depend on where files are kept. A snapshot that is not there
is a failure of its own kind; a configuration that cannot be read is a bad one, whatever the reason.
-/

namespace Bottleneck

/-- Why a file cannot be read as text. -/
structure ReadError where
  /-- Nothing is at the path. -/
  missing : Bool
  /-- The reason in words. -/
  reason : String
deriving DecidableEq, Repr

/-- What reading a file as text gives. -/
abbrev Contents := Except ReadError String

/-- The failure of a run whose snapshot cannot be read. -/
def ReadError.snapshotFailure (path : String) (e : ReadError) : Failure :=
  if e.missing then .notFound path else .unreadable e.reason

/-- The failure of a run whose configuration cannot be read. -/
def ReadError.configFailure (path : String) (e : ReadError) : Failure :=
  .badConfig ("read config " ++ path ++ " failed: " ++ e.reason)

namespace Contents

/-- The text of the snapshot file at the path. -/
def snapshotText (path : String) (contents : Contents) : Except Failure String :=
  contents.mapError (ReadError.snapshotFailure path)

/-- The configuration in the file at the path. -/
def config (reader : Config.Reader) (path : String) (contents : Contents) :
    Except Failure Config := do
  Config.ofText reader (← contents.mapError (ReadError.configFailure path))

end Contents

end Bottleneck
