/-!
Failures that end a run. Each has a kind, which is stable, and a message, which tells the reason.
-/

namespace Bottleneck

inductive Failure where
  /-- There is no file at the path. -/
  | notFound (path : String)
  /-- There is a file but it cannot be read as text. -/
  | unreadable (reason : String)
  | malformed (reason : String)
  | badConfig (reason : String)
  | unsupportedVersion
  | internal (reason : String)
deriving DecidableEq, Repr

namespace Failure

def kind : Failure → String
  | .notFound _ => "NOT_FOUND"
  | .unreadable _ => "UNREADABLE"
  | .malformed _ => "MALFORMED"
  | .badConfig _ => "BAD_CONFIG"
  | .unsupportedVersion => "UNSUPPORTED_VERSION"
  | .internal _ => "INTERNAL"

def message : Failure → String
  | .notFound path => "File '" ++ path ++ "' not found."
  | .unreadable reason => "Error reading file: " ++ reason
  | .malformed reason => "malformed input: " ++ reason
  | .badConfig reason => "bad config: " ++ reason
  | .unsupportedVersion => "unsupported config version"
  | .internal reason => "internal: " ++ reason

end Failure

end Bottleneck
