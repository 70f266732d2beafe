import Bottleneck.Config.Basic

/-!
What a configuration that was accepted can hold. It has the supported version, and none of its
patterns is empty or has a blank in it (`Config.validate_eq_ok_iff`). The built-in patterns have no
blanks either, so none occurs in any table that a run works with (`Rules.Available.unblank`).
-/

namespace Bottleneck

open Text (isBlank)

/-! ## The patterns of a configuration -/

/-- All patterns of the tables, in the order in which they are checked. -/
def Rules.patterns (rules : Rules) : List String :=
  rules.threadPool.flatMap (fun pair => [pair.current, pair.max]) ++
    rules.connectionPool.flatMap (fun pair => [pair.current, pair.max]) ++
    rules.latencyHistograms

theorem Rules.patterns_of_mem_threadPool {rules : Rules} {pair : PoolPattern}
    (h : pair ∈ rules.threadPool) :
    pair.current ∈ rules.patterns ∧ pair.max ∈ rules.patterns := by
  have hpair : ∀ pattern ∈ [pair.current, pair.max], pattern ∈ rules.patterns := by
    intro pattern hpattern
    rw [patterns, List.append_assoc]
    exact List.mem_append_left _ (List.mem_flatMap.mpr ⟨pair, h, hpattern⟩)
  exact ⟨hpair _ (by simp), hpair _ (by simp)⟩

theorem Rules.patterns_of_mem_connectionPool {rules : Rules} {pair : PoolPattern}
    (h : pair ∈ rules.connectionPool) :
    pair.current ∈ rules.patterns ∧ pair.max ∈ rules.patterns := by
  have hpair : ∀ pattern ∈ [pair.current, pair.max], pattern ∈ rules.patterns := by
    intro pattern hpattern
    rw [patterns]
    refine List.mem_append_left _ (List.mem_append_right _ ?_)
    exact List.mem_flatMap.mpr ⟨pair, h, hpattern⟩
  exact ⟨hpair _ (by simp), hpair _ (by simp)⟩

theorem Rules.mem_patterns_extend {rules extension : Rules} {pattern : String} :
    pattern ∈ (rules.extend extension).patterns ↔
      pattern ∈ rules.patterns ∨ pattern ∈ extension.patterns := by
  simp only [patterns, extend, List.flatMap_append, List.mem_append]
  grind

namespace Config

theorem isUsable_iff {pattern : String} :
    isUsable pattern = true ↔ pattern ≠ "" ∧ ∀ c ∈ pattern.toList, isBlank c = false := by
  simp [isUsable]

theorem map_poolFields (table current : String) (entries : List PoolPattern) :
    (poolFields table current entries).map (·.2) =
      entries.flatMap fun pair => [pair.current, pair.max] := by
  calc (poolFields table current entries).map (·.2)
      = entries.zipIdx.flatMap fun entry => [entry.1.current, entry.1.max] := by
        rw [poolFields, List.map_flatMap]
        rfl
    _ = (entries.zipIdx.map Prod.fst).flatMap fun pair => [pair.current, pair.max] := by
        rw [List.flatMap_map]
    _ = entries.flatMap fun pair => [pair.current, pair.max] := by rw [List.zipIdx_map_fst]

/-- Every pattern is checked, and nothing else. -/
theorem map_fields (extension : Rules) : (fields extension).map (·.2) = extension.patterns := by
  have hlatency : (extension.latencyHistograms.zipIdx.map fun entry =>
      (entryName "latency_histograms" entry.2, entry.1)).map (·.2) =
        extension.latencyHistograms := by
    rw [List.map_map]
    exact List.zipIdx_map_fst 0 extension.latencyHistograms
  rw [fields, List.map_append, List.map_append, map_poolFields, map_poolFields, hlatency,
    Rules.patterns]

/-! ## Acceptance -/

theorem validate_of_version {config : Config} (h : config.version ≠ 1) :
    config.validate = .error .unsupportedVersion := if_pos h

theorem validate_eq_ok_iff {config : Config} :
    config.validate = .ok () ↔
      config.version = 1 ∧ ∀ pattern ∈ config.extension.patterns, isUsable pattern = true := by
  by_cases hversion : config.version = 1
  · rw [← map_fields, List.forall_mem_map, validate, if_neg (not_not_intro hversion)]
    split
    · rename_i name pattern hfound
      simp only [reduceCtorEq, hversion, true_and, false_iff]
      intro husable
      have hbad := List.find?_some hfound
      rw [husable _ (List.mem_of_find?_eq_some hfound)] at hbad
      cases hbad
    · rename_i hnone
      simpa [hversion] using hnone
  · rw [validate_of_version hversion]
    simp [hversion]

end Config

/-! ## The tables of a run -/

namespace Rules

/-- The tables that a run can work with: the built-in ones, or those of a configuration that was
accepted. -/
def Available (rules : Rules) : Prop :=
  rules = .builtIn ∨ ∃ config : Config, config.validate = .ok () ∧ rules = config.rules

theorem unblank_builtIn :
    ∀ pattern ∈ builtIn.patterns, ∀ c ∈ pattern.toList, isBlank c = false := by
  have hall : (builtIn.patterns.all fun pattern => pattern.toList.all (!isBlank ·)) = true := by
    decide +kernel
  intro pattern hpattern c hc
  simpa using List.all_eq_true.mp (List.all_eq_true.mp hall pattern hpattern) c hc

/-- **No pattern of a run has a blank in it.** -/
theorem Available.unblank {rules : Rules} (h : rules.Available) {pattern : String}
    (hpattern : pattern ∈ rules.patterns) : ∀ c ∈ pattern.toList, isBlank c = false := by
  rcases h with rfl | ⟨config, hvalid, rfl⟩
  · exact unblank_builtIn pattern hpattern
  · rcases mem_patterns_extend.mp hpattern with hbuiltIn | hadded
    · exact unblank_builtIn pattern hbuiltIn
    · exact (Config.isUsable_iff.mp ((Config.validate_eq_ok_iff.mp hvalid).2 pattern hadded)).2

end Rules

end Bottleneck
