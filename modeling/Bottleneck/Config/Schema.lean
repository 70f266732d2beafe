import Bottleneck.Config.Basic
import Bottleneck.Text.Digit

/-!
The schema of a configuration document, on the tree of the document. It is strict: a mapping has the
fields that are named here and no others, none of them twice, and only optional fields may be
missing. Where a mapping or a list is expected an empty place counts as an empty one.
-/

namespace Bottleneck

/-! ## Documents -/

/-- The tree of a YAML document, in which an alias is replaced by what it stands for. What a document
leaves out, such as the value of a key with nothing after its colon, is the empty plain scalar. -/
inductive Yaml.Node where
  /-- A plain scalar is neither quoted nor a block. A literal block with something in it that is
  tagged as a number counts as plain. -/
  | scalar (plain : Bool) (text : String)
  | sequence (items : List Node)
  /-- The pairs in document order; keys may repeat. -/
  | mapping (entries : List (Node × Node))

/-- What stands where the document has nothing. -/
def Yaml.Node.empty : Node := .scalar true ""

namespace Schema

open Yaml (Node)

/-- Why a document does not fit the schema. -/
inductive Mismatch where
  | mappingExpected
  | listExpected
  | textExpected
  | versionExpected
  | unknownField (name : String)
  | repeatedField (name : String)
  | missingField (name : String)
deriving DecidableEq, Repr

/-! ## Scalars -/

/-- A scalar stands for its text, quoted or not. -/
def text : Node → Except Mismatch String
  | .scalar _ text => .ok text
  | _ => .error .textExpected

/-- A number in that base, of at least one digit. -/
def digits? (base : Nat) (cs : List Char) : Option Nat :=
  if cs = [] then none
  else (cs.mapM fun c => (Text.hexDigit? c).filter (· < base)).map (·.foldl (base * · + ·) 0)

/-- A number without its sign: hexadecimal, octal or binary after `0x`, `0o` or `0b`, else decimal
and without leading zeros. -/
def magnitude? : List Char → Option Nat
  | '0' :: 'x' :: cs => digits? 16 cs
  | '0' :: 'o' :: cs => digits? 8 cs
  | '0' :: 'b' :: cs => digits? 2 cs
  | '0' :: _ :: _ => none
  | cs => digits? 10 cs

/-- An unsigned number may have a plus in front. -/
def unsigned? : List Char → Option Nat
  | '+' :: cs => magnitude? cs
  | cs => magnitude? cs

/-- A version is an unsigned number below `2 ^ 32` that is not quoted. -/
def version : Node → Except Mismatch UInt32
  | .scalar true text =>
    match (unsigned? text.toList).filter (· < UInt32.size) with
    | some n => .ok (.ofNat n)
    | none => .error .versionExpected
  | _ => .error .versionExpected

/-! ## Collections -/

def list {α : Type} (item : Node → Except Mismatch α) : Node → Except Mismatch (List α)
  | .sequence items => items.mapM item
  | .scalar true "" => .ok []
  | _ => .error .listExpected

/-- Every field is known and none is there twice. -/
def checkFields (known : List String) : List (String × Node) → Except Mismatch Unit
  | [] => .ok ()
  | (name, _) :: fields =>
    if ¬ name ∈ known then .error (.unknownField name)
    else if name ∈ fields.map (·.1) then .error (.repeatedField name)
    else checkFields known fields

/-- The fields of a mapping. -/
def fields (known : List String) : Node → Except Mismatch (List (String × Node))
  | .mapping entries => do
    let fields ← entries.mapM fun (key, value) => do return (← text key, value)
    checkFields known fields
    return fields
  | .scalar true "" => .ok []
  | _ => .error .mappingExpected

def required {α : Type} (name : String) (read : Node → Except Mismatch α)
    (fields : List (String × Node)) : Except Mismatch α :=
  match fields.lookup name with
  | some node => read node
  | none => .error (.missingField name)

def optional {α : Type} (name : String) (default : α) (read : Node → Except Mismatch α)
    (fields : List (String × Node)) : Except Mismatch α :=
  match fields.lookup name with
  | some node => read node
  | none => .ok default

/-! ## The parts of a configuration -/

/-- A pool entry has exactly two patterns. -/
def poolPattern (current : String) (node : Node) : Except Mismatch PoolPattern := do
  let fields ← fields [current, "max"] node
  let inUse ← required current text fields
  let max ← required "max" text fields
  return ⟨inUse, max⟩

def extension (node : Node) : Except Mismatch Rules := do
  let fields ← fields ["thread_pool", "connection_pool", "latency_histograms"] node
  let threadPool ← optional "thread_pool" [] (list (poolPattern "busy")) fields
  let connectionPool ← optional "connection_pool" [] (list (poolPattern "active")) fields
  let latencyHistograms ← optional "latency_histograms" [] (list text) fields
  return { threadPool, connectionPool, latencyHistograms }

/-- The configuration that a document describes, whether or not it is usable. -/
def config (node : Node) : Except Mismatch Config := do
  let fields ← fields ["version", "rules"] node
  let version ← required "version" version fields
  let extension ← optional "rules" ⟨[], [], []⟩ extension fields
  return { version, extension }

end Schema

end Bottleneck
