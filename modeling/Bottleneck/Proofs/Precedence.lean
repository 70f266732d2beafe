import Bottleneck.Config.Basic
import Bottleneck.Diagnosis
import Bottleneck.Proofs.First
import Bottleneck.Proofs.Log

/-!
Entries that were there before take precedence. A check asks its table for the first entry that the
snapshot has data for, so entries behind that one are never looked at. Main statement: rules that are
extended find what they found before, in the same order, and an issue on top of that can only come
from a check for which the rules had nothing (`analyze_extend`).
-/

namespace Bottleneck

open Text (occursIn)

/-! ## The entry that a check uses -/

namespace PoolUsage

/-- The snapshot has a value for both patterns, and the maximum can be used. -/
def Resolvable (s : Snapshot) (pattern : PoolPattern) : Prop :=
  ∃ current max, s.valueMatching? pattern.current = some current ∧
    s.valueMatching? pattern.max = some max ∧ ¬ max ≤ 0

theorem isSome_ofPattern?_iff {s : Snapshot} {pattern : PoolPattern} :
    (ofPattern? s pattern).isSome = true ↔ Resolvable s pattern := by
  unfold ofPattern? Resolvable
  cases s.valueMatching? pattern.current with
  | none => simp
  | some current =>
    cases s.valueMatching? pattern.max with
    | none => simp
    | some max =>
      by_cases hmax : max ≤ 0 <;> simp [hmax]

theorem isSome_first?_iff {s : Snapshot} {patterns : List PoolPattern} :
    (first? s patterns).isSome = true ↔ ∃ pattern ∈ patterns, Resolvable s pattern := by
  simp only [first?, List.findSome?_isSome_iff, isSome_ofPattern?_iff]

end PoolUsage

theorem Snapshot.isSome_latencyHistogram?_iff {s : Snapshot} {patterns : List String} :
    (s.latencyHistogram? patterns).isSome = true ↔
      ∃ pattern ∈ patterns, ∃ name ∈ s.histogramNames, occursIn pattern name = true := by
  simp only [latencyHistogram?, List.findSome?_isSome_iff, List.find?_isSome]

/-- Entries behind one that is used are not looked at. -/
theorem findSome?_append_of_isSome {α β : Type} {f : α → Option β} {xs : List α}
    (h : (xs.findSome? f).isSome = true) (ys : List α) :
    (xs ++ ys).findSome? f = xs.findSome? f := by
  rw [List.findSome?_append, Option.or_of_isSome h]

/-! ## The checks -/

inductive Check where
  | threadPool
  | connectionPool
  | latencyTail

namespace Check

/-- The checks in the order in which a diagnosis runs them. -/
def all : List Check := [threadPool, connectionPool, latencyTail]

def run : Check → Rules → Snapshot → Option Issue
  | threadPool => checkThreadPool
  | connectionPool => checkConnectionPool
  | latencyTail => checkLatencyTail

/-- The table of the check has an entry that the snapshot has data for. -/
def Resolves : Check → Rules → Snapshot → Prop
  | threadPool, rules, s => ∃ pattern ∈ rules.threadPool, PoolUsage.Resolvable s pattern
  | connectionPool, rules, s => ∃ pattern ∈ rules.connectionPool, PoolUsage.Resolvable s pattern
  | latencyTail, rules, s =>
    ∃ pattern ∈ rules.latencyHistograms, ∃ name ∈ s.histogramNames, occursIn pattern name = true

end Check

theorem diagnose_eq_filterMap (rules : Rules) (s : Snapshot) :
    diagnose rules s = Check.all.filterMap (·.run rules s) := rfl

section Pool

variable {kind : IssueKind} {explain : PoolUsage → String} {s : Snapshot}
  {patterns : List PoolPattern}

theorem checkPool_append (h : ∃ pattern ∈ patterns, PoolUsage.Resolvable s pattern)
    (later : List PoolPattern) :
    checkPool kind explain s (patterns ++ later) = checkPool kind explain s patterns := by
  have hfirst : PoolUsage.first? s (patterns ++ later) = PoolUsage.first? s patterns :=
    findSome?_append_of_isSome (PoolUsage.isSome_first?_iff.mpr h) later
  rw [checkPool, hfirst, checkPool]

theorem checkPool_eq_none (h : ¬ ∃ pattern ∈ patterns, PoolUsage.Resolvable s pattern) :
    checkPool kind explain s patterns = none := by
  rw [← PoolUsage.isSome_first?_iff, Bool.not_eq_true, Option.isSome_eq_false_iff,
    Option.isNone_iff_eq_none] at h
  rw [checkPool, h]
  rfl

end Pool

namespace Check

variable {check : Check} {rules : Rules} {s : Snapshot}

/-- **A check that has an entry to use keeps to it**, whatever is added to the tables. -/
theorem run_extend (h : check.Resolves rules s) (extension : Rules) :
    check.run (rules.extend extension) s = check.run rules s := by
  cases check with
  | threadPool => exact checkPool_append h extension.threadPool
  | connectionPool => exact checkPool_append h extension.connectionPool
  | latencyTail =>
    have hfirst : s.latencyHistogram? (rules.extend extension).latencyHistograms =
        s.latencyHistogram? rules.latencyHistograms :=
      findSome?_append_of_isSome (Snapshot.isSome_latencyHistogram?_iff.mpr h)
        extension.latencyHistograms
    change checkLatencyTail _ s = checkLatencyTail _ s
    rw [checkLatencyTail, hfirst, checkLatencyTail]

/-- A check without an entry to use finds nothing. -/
theorem run_eq_none (h : ¬ check.Resolves rules s) : check.run rules s = none := by
  cases check with
  | threadPool => exact checkPool_eq_none h
  | connectionPool => exact checkPool_eq_none h
  | latencyTail =>
    have hnone : s.latencyHistogram? rules.latencyHistograms = none := by
      rw [← Option.isNone_iff_eq_none, ← Option.isSome_eq_false_iff, ← Bool.not_eq_true,
        Snapshot.isSome_latencyHistogram?_iff]
      exact h
    change checkLatencyTail rules s = none
    rw [checkLatencyTail, hnone]
    rfl

theorem run_extend_or (check : Check) (rules extension : Rules) (s : Snapshot) :
    check.run rules s = none ∨ check.run (rules.extend extension) s = check.run rules s := by
  by_cases h : check.Resolves rules s
  · exact .inr (run_extend h extension)
  · exact .inl (run_eq_none h)

end Check

theorem filterMap_sublist_filterMap {α β : Type} {f g : α → Option β} {xs : List α}
    (h : ∀ x ∈ xs, f x = none ∨ g x = f x) : (xs.filterMap f).Sublist (xs.filterMap g) := by
  induction xs with
  | nil => exact List.Sublist.refl _
  | cons x xs ih =>
    obtain ⟨hx, hxs⟩ := List.forall_mem_cons.mp h
    have ih := ih hxs
    rw [List.filterMap_cons, List.filterMap_cons]
    rcases hx with hx | hx
    · rw [hx]
      cases g x with
      | none => exact ih
      | some y => exact ih.cons y
    · rw [hx]
      cases f x with
      | none => exact ih
      | some y => exact ih.cons_cons y

theorem diagnose_sublist_extend (rules extension : Rules) (s : Snapshot) :
    (diagnose rules s).Sublist (diagnose (rules.extend extension) s) := by
  rw [diagnose_eq_filterMap, diagnose_eq_filterMap]
  exact filterMap_sublist_filterMap fun check _ => check.run_extend_or rules extension s

/-- **Extensions neither hide nor change a finding.** All issues are found again, field for field and
in their order. A check that had an entry to use gives what it gave before, and one that had none
gave nothing, so only there can an issue be new. In particular no configuration takes away from what
the built-in tables find. -/
theorem analyze_extend (rules extension : Rules) (text : String) :
    (analyze rules text).Sublist (analyze (rules.extend extension) text) ∧
      (∀ check : Check,
        (check.Resolves rules (.parse text) →
          check.run (rules.extend extension) (.parse text) = check.run rules (.parse text)) ∧
        (¬ check.Resolves rules (.parse text) → check.run rules (.parse text) = none) ∧
        ∀ issue, check.run (rules.extend extension) (.parse text) = some issue →
          check.run rules (.parse text) = some issue ∨ ¬ check.Resolves rules (.parse text)) ∧
      ∀ config : Config, (analyze .builtIn text).Sublist (analyze config.rules text) := by
  refine ⟨diagnose_sublist_extend rules extension _, fun check => ⟨fun h => ?_, fun h => ?_, ?_⟩, ?_⟩
  · exact Check.run_extend h extension
  · exact Check.run_eq_none h
  · intro issue hissue
    by_cases h : check.Resolves rules (.parse text)
    · rw [Check.run_extend h] at hissue
      exact .inl hissue
    · exact .inr h
  · intro config
    exact diagnose_sublist_extend .builtIn config.extension _

/-- Three tables, of which the second has no entry that the text has data for. -/
def sparseRules : Rules where
  threadPool := [⟨"busy", "threads_max"⟩]
  connectionPool := [⟨"open", "open_max"⟩]
  latencyHistograms := ["wait_bucket"]

def addedRules : Rules where
  threadPool := [⟨"threads", "threads"⟩]
  connectionPool := [⟨"open", "threads_max"⟩]
  latencyHistograms := ["early_bucket"]

def busyText : String :=
  "threads_max 100\nearly_bucket 1\nbusy 85\nwait_bucket 5\nopen 95\n"

theorem analyze_extend_busyText :
    Check.threadPool.Resolves sparseRules (.parse busyText) ∧
      ¬ Check.connectionPool.Resolves sparseRules (.parse busyText) ∧
      Check.threadPool.run (sparseRules.extend addedRules) (.parse busyText) =
        Check.threadPool.run sparseRules (.parse busyText) ∧
      Check.connectionPool.run sparseRules (.parse busyText) = none ∧
      (∃ issue,
        Check.connectionPool.run (sparseRules.extend addedRules) (.parse busyText) = some issue ∧
          (Check.connectionPool.run sparseRules (.parse busyText) = some issue ∨
            ¬ Check.connectionPool.Resolves sparseRules (.parse busyText))) ∧
      (analyze sparseRules busyText).Sublist
        (analyze (sparseRules.extend addedRules) busyText) := by
  have hthreads : Check.threadPool.Resolves sparseRules (.parse busyText) := by
    refine ⟨⟨"busy", "threads_max"⟩, List.mem_singleton_self _, 85, 100, ?_, ?_, by decide⟩
    · rw [Snapshot.valueMatching?_parse_eq_collect]
      decide +kernel
    · rw [Snapshot.valueMatching?_parse_eq_collect]
      decide +kernel
  have hopen : ¬ Check.connectionPool.Resolves sparseRules (.parse busyText) := by
    rintro ⟨pattern, hmem, _, max, -, hmax, -⟩
    have hnone : (Snapshot.parse busyText).valueMatching? "open_max" = none := by
      rw [Snapshot.valueMatching?_parse_eq_collect]
      decide +kernel
    rw [List.mem_singleton.mp hmem, hnone] at hmax
    cases hmax
  have hissue : (Check.connectionPool.run (sparseRules.extend addedRules) (.parse busyText)).isSome
      = true := by
    change (checkPool _ _ _ _).isSome = true
    unfold checkPool PoolUsage.first? PoolUsage.ofPattern?
    simp only [Snapshot.valueMatching?_parse_eq_collect]
    decide +kernel
  obtain ⟨issue, hissue⟩ := Option.isSome_iff_exists.mp hissue
  obtain ⟨hsublist, hchecks, -⟩ := analyze_extend sparseRules addedRules busyText
  exact ⟨hthreads, hopen, (hchecks .threadPool).1 hthreads, (hchecks .connectionPool).2.1 hopen,
    ⟨issue, hissue, (hchecks .connectionPool).2.2 issue hissue⟩, hsublist⟩

end Bottleneck
