import Bottleneck.Config.Schema

/-!
Loading a configuration from its text. The text must be one YAML document that fits the schema
before its version and its patterns are looked at. YAML itself is read by a given reader.
-/

namespace Bottleneck.Config

/-- What is asked of a reader of YAML. -/
structure Reader where
  /-- The tree of a text that is one document, or the reason why the text is none. -/
  tree : String → Except String Yaml.Node
  /-- The reason in words why the document of that text does not fit the schema. -/
  wording : String → Schema.Mismatch → String

/-- The failure of a text that describes no configuration. -/
def invalidYaml (reason : String) : Failure := .badConfig ("invalid yaml: " ++ reason)

/-- The configuration of a document, if it fits the schema and is usable. -/
def ofNode (wording : Schema.Mismatch → String) (node : Yaml.Node) : Except Failure Config :=
  match Schema.config node with
  | .error e => .error (invalidYaml (wording e))
  | .ok config => do
    config.validate
    return config

def ofText (reader : Reader) (text : String) : Except Failure Config :=
  match reader.tree text with
  | .error reason => .error (invalidYaml reason)
  | .ok node => ofNode (reader.wording text) node

end Bottleneck.Config
