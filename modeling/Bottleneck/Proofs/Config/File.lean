import Bottleneck.Contents
import Bottleneck.Proofs.Config.Refusal
import Bottleneck.Proofs.Config.Strictness

/-!
What a configuration file comes to. It is read, it is one document, the document fits the schema,
its version is the supported one and every pattern can be used, in this order: a file fails with the
first of these that does not hold (`Config.config_eq_error_iff`), and else it loads
(`Config.config_eq_ok_iff`).
-/

namespace Bottleneck.Config

open Yaml (Node)

/-- The first thing that is wrong with a configuration file: the file, its text, its document, its
version, or the first pattern that cannot be used. -/
inductive Fails (reader : Reader) (path : String) : Contents → Failure → Prop
  | unreadable {e : ReadError} :
    Fails reader path (.error e) (.badConfig ("read config " ++ path ++ " failed: " ++ e.reason))
  | noDocument {text reason : String} (htree : reader.tree text = .error reason) :
    Fails reader path (.ok text) (.badConfig ("invalid yaml: " ++ reason))
  | unfit {text : String} {node : Node} {e : Schema.Mismatch} (htree : reader.tree text = .ok node)
      (hread : Schema.config node = .error e) :
    Fails reader path (.ok text) (.badConfig ("invalid yaml: " ++ reader.wording text e))
  | otherVersion {text : String} {node : Node} {config : Config}
      (htree : reader.tree text = .ok node) (hconfig : Schema.IsConfig config node)
      (hversion : config.version ≠ 1) :
    Fails reader path (.ok text) .unsupportedVersion
  | unusable {text : String} {node : Node} {config : Config} {place : Place}
      (htree : reader.tree text = .ok node) (hconfig : Schema.IsConfig config node)
      (hversion : config.version = 1) (hplace : place.IsOffender config.extension) :
    Fails reader path (.ok text) place.refusal

/-- A configuration file that holds this configuration, and nothing is wrong with it. -/
def Loads (reader : Reader) (contents : Contents) (config : Config) : Prop :=
  ∃ text node, contents = .ok text ∧ reader.tree text = .ok node ∧ Schema.IsConfig config node ∧
    config.version = 1 ∧ ∀ pattern ∈ config.extension.patterns, Usable pattern

variable {reader : Reader} {path : String} {contents : Contents}

theorem config_eq_ok_iff {config : Config} :
    contents.config reader path = .ok config ↔ Loads reader contents config := by
  constructor
  · intro h
    cases contents with
    | error e => cases h
    | ok text =>
      change ofText reader text = .ok config at h
      cases htree : reader.tree text with
      | error reason =>
        rw [ofText_of_noTree htree] at h
        cases h
      | ok node =>
        rw [ofText_of_tree htree, (verdict_ofNode node).accepted] at h
        obtain ⟨hconfig, hversion, hvalid⟩ := h
        refine ⟨text, node, rfl, htree, hconfig, hversion, fun pattern hpattern => ?_⟩
        exact isUsable_iff_usable.mp ((validate_eq_ok_iff.mp hvalid).2 pattern hpattern)
  · intro h
    obtain ⟨text, node, rfl, htree, hconfig, hversion, husable⟩ := h
    show ofText reader text = .ok config
    rw [ofText_of_tree htree, (verdict_ofNode node).accepted]
    refine ⟨hconfig, hversion, validate_eq_ok_iff.mpr ⟨hversion, fun pattern hpattern => ?_⟩⟩
    exact isUsable_iff_usable.mpr (husable pattern hpattern)

theorem fails_of_config {failure : Failure} (h : contents.config reader path = .error failure) :
    Fails reader path contents failure := by
  cases contents with
  | error e =>
    cases h
    exact .unreadable
  | ok text =>
    change ofText reader text = .error failure at h
    cases htree : reader.tree text with
    | error reason =>
      rw [ofText_of_noTree htree] at h
      cases h
      exact .noDocument htree
    | ok node =>
      rw [ofText_of_tree htree] at h
      cases hread : Schema.config node with
      | error e =>
        rw [ofNode_of_mismatch hread] at h
        cases h
        exact .unfit htree hread
      | ok config =>
        have hconfig := Schema.config_eq_ok_iff.mp hread
        rw [ofNode_of_isConfig hconfig, Schema.map_eq_error_iff] at h
        rcases validate_eq_error_iff.mp h with ⟨hversion, rfl⟩ | ⟨hversion, place, hplace, rfl⟩
        · exact .otherVersion htree hconfig hversion
        · exact .unusable htree hconfig hversion hplace

theorem config_of_fails {failure : Failure} (h : Fails reader path contents failure) :
    contents.config reader path = .error failure := by
  have hrefused {text : String} {node : Node} {config : Config} {failure : Failure}
      (htree : reader.tree text = .ok node) (hconfig : Schema.IsConfig config node)
      (hvalidate : config.validate = .error failure) : ofText reader text = .error failure := by
    rw [ofText_of_isConfig htree hconfig, hvalidate]
    rfl
  cases h with
  | unreadable => rfl
  | noDocument htree => exact ofText_of_noTree htree
  | unfit htree hread => exact (ofText_of_tree htree).trans (ofNode_of_mismatch hread)
  | otherVersion htree hconfig hversion =>
    exact hrefused htree hconfig (validate_of_version hversion)
  | unusable htree hconfig hversion hplace =>
    exact hrefused htree hconfig (validate_eq_error_iff.mpr (.inr ⟨hversion, _, hplace, rfl⟩))

theorem config_eq_error_iff {failure : Failure} :
    contents.config reader path = .error failure ↔ Fails reader path contents failure :=
  ⟨fails_of_config, config_of_fails⟩

end Bottleneck.Config
