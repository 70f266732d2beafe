import Bottleneck.Config.Load
import Bottleneck.Proofs.Config.Form
import Bottleneck.Proofs.Config.Validation

/-!
Loading a configuration is strict, and its failures have an order (`Config.verdict_ofText`): a
document that does not fit the schema is invalid whatever its version and its patterns are, then an
unsupported version is refused whatever the patterns are, and only then a pattern.
-/

namespace Bottleneck

open Yaml (Node)

namespace Config

theorem entryName_eq (table : String) (i : Nat) :
    entryName table i = "rules." ++ (table ++ "[" ++ toString i ++ "]") := by
  simp only [entryName, String.append_assoc]

/-- Every pattern is named by its place below the rules. -/
theorem exists_of_mem_fields {extension : Rules} {field : String × String}
    (h : field ∈ fields extension) : ∃ place, field.1 = "rules." ++ place := by
  have hpool (table current : String) (entries : List PoolPattern)
      (hmem : field ∈ poolFields table current entries) : ∃ place, field.1 = "rules." ++ place := by
    obtain ⟨⟨pair, i⟩, -, hmem⟩ := List.mem_flatMap.mp hmem
    rcases List.mem_pair.mp hmem with rfl | rfl
    · exact ⟨_, by rw [entryName_eq, String.append_assoc, String.append_assoc]⟩
    · exact ⟨_, by rw [entryName_eq, String.append_assoc]⟩
  rw [fields, List.mem_append, List.mem_append] at h
  rcases h with (hthread | hconnection) | hlatency
  · exact hpool _ _ _ hthread
  · exact hpool _ _ _ hconnection
  · obtain ⟨⟨pattern, i⟩, -, rfl⟩ := List.mem_map.mp hlatency
    exact ⟨_, entryName_eq _ i⟩

/-- The failure of a configuration that was read does not say that it could not be read. -/
theorem ne_invalidYaml_of_validate {config : Config} {failure : Failure}
    (h : config.validate = .error failure) (reason : String) : failure ≠ invalidYaml reason := by
  intro heq
  subst heq
  unfold validate at h
  split at h
  · cases h
  · split at h
    · rename_i name pattern hfound
      obtain ⟨place, hplace⟩ := exists_of_mem_fields (List.mem_of_find?_eq_some hfound)
      -- The two messages differ in their first characters.
      obtain rfl : name = "rules." ++ place := hplace
      have hfirst := congrArg (·.toList.head?) (Failure.badConfig.inj (Except.error.inj h))
      simp at hfirst
    · cases h

/-- What loading a document comes to, from the tree of the document. -/
structure Verdict (node : Node) (loaded : Except Failure Config) : Prop where
  invalid : (∃ reason, loaded = .error (.badConfig ("invalid yaml: " ++ reason))) ↔
    ¬ Schema.Fits node
  unsupported : ∀ config, Schema.IsConfig config node →
    (loaded = .error .unsupportedVersion ↔ config.version ≠ 1)
  refused : ∀ config failure, Schema.IsConfig config node → config.version = 1 →
    (loaded = .error failure ↔ config.validate = .error failure)
  accepted : ∀ config, loaded = .ok config ↔
    Schema.IsConfig config node ∧ config.version = 1 ∧ config.validate = .ok ()
  /-- The entries of the document stand behind the built-in ones, as they are. -/
  rules : ∀ config, loaded = .ok config →
    config.rules.threadPool = Rules.builtIn.threadPool ++ config.extension.threadPool ∧
    config.rules.connectionPool = Rules.builtIn.connectionPool ++ config.extension.connectionPool ∧
    config.rules.latencyHistograms =
      Rules.builtIn.latencyHistograms ++ config.extension.latencyHistograms

theorem ofText_of_tree {reader : Reader} {text : String} {node : Node}
    (h : reader.tree text = .ok node) : ofText reader text = ofNode (reader.wording text) node := by
  rw [ofText, h]

theorem ofText_of_noTree {reader : Reader} {text reason : String}
    (h : reader.tree text = .error reason) : ofText reader text = .error (invalidYaml reason) := by
  rw [ofText, h]

variable {wording : Schema.Mismatch → String}

theorem ofNode_of_isConfig {node : Node} {config : Config} (h : Schema.IsConfig config node) :
    ofNode wording node = config.validate.map fun _ => config := by
  rw [ofNode, Schema.config_eq_ok_iff.mpr h]
  cases hvalidate : config.validate with
  | ok _ => simp [hvalidate, Except.map, bind, Except.bind, pure, Except.pure]
  | error failure => simp [hvalidate, Except.map, bind, Except.bind]

theorem ofNode_of_mismatch {node : Node} {e : Schema.Mismatch} (h : Schema.config node = .error e) :
    ofNode wording node = .error (invalidYaml (wording e)) := by
  rw [ofNode, h]

theorem ofNode_of_not_fits {node : Node} (h : ¬ Schema.Fits node) :
    ∃ reason, ofNode wording node = .error (invalidYaml reason) := by
  cases hconfig : Schema.config node with
  | error e => exact ⟨wording e, ofNode_of_mismatch hconfig⟩
  | ok config => exact absurd ⟨config, Schema.config_eq_ok_iff.mp hconfig⟩ h

theorem ofText_of_isConfig {reader : Reader} {text : String} {node : Node} {config : Config}
    (h : reader.tree text = .ok node) (hconfig : Schema.IsConfig config node) :
    ofText reader text = config.validate.map fun _ => config := by
  rw [ofText_of_tree h, ofNode_of_isConfig hconfig]

theorem validate_eq_unsupportedVersion_iff {config : Config} :
    config.validate = .error .unsupportedVersion ↔ config.version ≠ 1 := by
  constructor
  · intro h hversion
    rw [validate, if_neg (not_not_intro hversion)] at h
    split at h
    · cases h
    · cases h
  · exact validate_of_version

theorem verdict_ofNode (node : Node) : Verdict node (ofNode wording node) where
  invalid := by
    constructor
    · intro h hfits
      obtain ⟨reason, hreason⟩ := h
      obtain ⟨config, hconfig⟩ := hfits
      rw [ofNode_of_isConfig hconfig, Schema.map_eq_error_iff] at hreason
      exact ne_invalidYaml_of_validate hreason reason rfl
    · exact ofNode_of_not_fits
  unsupported := by
    intro config hconfig
    rw [ofNode_of_isConfig hconfig, Schema.map_eq_error_iff]
    exact validate_eq_unsupportedVersion_iff
  refused := by
    intro config failure hconfig _
    rw [ofNode_of_isConfig hconfig, Schema.map_eq_error_iff]
  accepted := by
    intro config
    constructor
    · intro h
      cases hread : Schema.config node with
      | error e =>
        rw [ofNode_of_mismatch hread] at h
        cases h
      | ok read =>
        have hconfig := Schema.config_eq_ok_iff.mp hread
        rw [ofNode_of_isConfig hconfig] at h
        cases hvalid : read.validate with
        | error failure =>
          rw [hvalid] at h
          cases h
        | ok _ =>
          rw [hvalid] at h
          cases h
          exact ⟨hconfig, (validate_eq_ok_iff.mp hvalid).1, hvalid⟩
    · intro h
      obtain ⟨hconfig, -, hvalid⟩ := h
      rw [ofNode_of_isConfig hconfig, hvalid]
      rfl
  rules := by
    intro config _
    exact ⟨rfl, rfl, rfl⟩

/-- **Loading is strict**, whichever reader the trees come from, and documents of one form are
invalid together. -/
theorem verdict_ofText {reader : Reader} {text : String} {node : Node}
    (h : reader.tree text = .ok node) :
    Verdict node (ofText reader text) ∧
      ∀ text' node', reader.tree text' = .ok node' → Schema.form node' = Schema.form node →
        ((∃ reason, ofText reader text' = .error (.badConfig ("invalid yaml: " ++ reason))) ↔
          ∃ reason, ofText reader text = .error (.badConfig ("invalid yaml: " ++ reason))) := by
  have hverdict {text : String} {node : Node} (h : reader.tree text = .ok node) :
      Verdict node (ofText reader text) := by
    rw [ofText_of_tree h]
    exact verdict_ofNode node
  refine ⟨hverdict h, ?_⟩
  intro text' node' h' hform
  rw [(hverdict h').invalid, (hverdict h).invalid, ← Schema.fits_form, hform, Schema.fits_form]

/-- A reader that knows these documents and no others. -/
def Reader.ofDocuments (documents : List (String × Node)) : Reader where
  tree text := ((documents.lookup text).map .ok).getD (.error "unknown document")
  wording _ _ := "no configuration"

/-- A document of another version, with a pattern that no version can use. -/
def laterText : String := "version: 2\nrules:\n  latency_histograms:\n  -\n"

def laterNode : Node :=
  .mapping
    [(.scalar true "version", .scalar true "2"),
      (.scalar true "rules", .mapping [(.scalar true "latency_histograms", .sequence [.empty])])]

theorem verdict_ofText_laterText :
    (Reader.ofDocuments [(laterText, laterNode)]).tree laterText = .ok laterNode ∧
      ofText (.ofDocuments [(laterText, laterNode)]) laterText = .error .unsupportedVersion := by
  have htree : (Reader.ofDocuments [(laterText, laterNode)]).tree laterText = .ok laterNode := by
    simp [Reader.ofDocuments]
  have hconfig : Schema.config laterNode = .ok ⟨2, ⟨[], [], [""]⟩⟩ := by rfl
  have hverdict := (verdict_ofText htree).1
  refine ⟨htree, ?_⟩
  exact (hverdict.unsupported _ (Schema.config_eq_ok_iff.mp hconfig)).mpr (by decide)

def emptyRulesText : String := "version: 1\nrules:"

/-- Nothing is behind the colon of the rules. -/
def emptyRulesNode : Node :=
  .mapping [(.scalar true "version", .scalar true "1"), (.scalar true "rules", .empty)]

/-- Rules with nothing behind their colon are no mapping, but they are accepted as rules without
entries. -/
theorem ofText_emptyRules :
    (Reader.ofDocuments [(emptyRulesText, emptyRulesNode)]).tree emptyRulesText =
        .ok emptyRulesNode ∧
      (∀ entries, Node.empty ≠ .mapping entries) ∧
      ofText (.ofDocuments [(emptyRulesText, emptyRulesNode)]) emptyRulesText =
        .ok { version := 1 } := by
  have htree : (Reader.ofDocuments [(emptyRulesText, emptyRulesNode)]).tree emptyRulesText =
      .ok emptyRulesNode := by
    simp [Reader.ofDocuments]
  have hconfig : Schema.config emptyRulesNode = .ok { version := 1 } := by rfl
  refine ⟨htree, ?_, ?_⟩
  · intro entries h
    cases h
  · have hvalid : Config.validate { version := 1 } = .ok () := by rfl
    rw [ofText_of_isConfig htree (Schema.config_eq_ok_iff.mp hconfig), hvalid]
    rfl

end Config

end Bottleneck
