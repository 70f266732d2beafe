import Bottleneck.Proofs.Config.Validation
import Bottleneck.Proofs.First
import Bottleneck.Proofs.LineParts
import Bottleneck.Proofs.Number.Written

/-!
What is said of a configuration that cannot be used. Every pattern has a place in the tables, and the
places have an order: the pairs of the thread pool, those of the connection pool, the histograms; and
in a pair what is in use comes before the maximum. The check goes through the places in this order,
and no two of them have one name. Main statement: a configuration is accepted exactly if it is
usable, another version is refused whatever the patterns are, and else the refusal names the first
place whose pattern cannot be used (`Config.validate_verdict`).
-/

namespace Bottleneck

open Text (isBlank)

namespace Config

/-! ## Places of patterns -/

/-- The patterns of a pair. -/
inductive Side where
  | current
  | max
deriving DecidableEq, Repr

def Side.pattern (pair : PoolPattern) : Side → String
  | current => pair.current
  | max => pair.max

def Side.rank : Side → Nat
  | current => 0
  | max => 1

/-- A place for a pattern in the tables of a configuration. -/
inductive Place where
  | thread (entry : Nat) (side : Side)
  | connection (entry : Nat) (side : Side)
  | histogram (entry : Nat)
deriving DecidableEq, Repr

namespace Place

def table : Place → String
  | thread _ _ => "thread_pool"
  | connection _ _ => "connection_pool"
  | histogram _ => "latency_histograms"

/-- Entries are counted from zero. -/
def entry : Place → Nat
  | thread i _ => i
  | connection i _ => i
  | histogram i => i

/-- The key of the pattern in its entry. An entry of the histograms is a pattern itself. -/
def key : Place → String
  | thread _ .current => ".busy"
  | connection _ .current => ".active"
  | thread _ .max => ".max"
  | connection _ .max => ".max"
  | histogram _ => ""

def name (place : Place) : String :=
  "rules." ++ place.table ++ "[" ++ toString place.entry ++ "]" ++ place.key

theorem name_eq (place : Place) :
    place.name = entryName place.table place.entry ++ place.key := rfl

/-- The failure of a configuration whose pattern at that place cannot be used. -/
def refusal (place : Place) : Failure :=
  .badConfig (place.name ++ " must be a non-empty pattern without whitespace")

/-- The pattern at that place, if the tables have the place. -/
def pattern? (rules : Rules) : Place → Option String
  | thread i side => rules.threadPool[i]?.map side.pattern
  | connection i side => rules.connectionPool[i]?.map side.pattern
  | histogram i => rules.latencyHistograms[i]?

/-- The numbers of the table, the entry and the side. -/
def rank : Place → Nat × Nat × Nat
  | thread i side => (0, i, side.rank)
  | connection i side => (1, i, side.rank)
  | histogram i => (2, i, 0)

/-- Table goes before entry, and entry before side. -/
def Before (p q : Place) : Prop := Prod.Lex (· < ·) (Prod.Lex (· < ·) (· < ·)) p.rank q.rank

theorem before_iff {p q : Place} : p.Before q ↔ p.rank.1 < q.rank.1 ∨ p.rank.1 = q.rank.1 ∧
    (p.rank.2.1 < q.rank.2.1 ∨ p.rank.2.1 = q.rank.2.1 ∧ p.rank.2.2 < q.rank.2.2) := by
  rw [Before, Prod.lex_def, Prod.lex_def]

theorem Before.asymm (p q : Place) (h : p.Before q) : ¬ q.Before p := by
  rw [before_iff] at *
  omega

/-! ## Names of places -/

theorem bracket_notMem_table (place : Place) : '[' ∉ place.table.toList := by
  unfold table
  split <;> decide

theorem bracket_notMem_toString (n : Nat) : ']' ∉ (toString n).toList :=
  fun h => absurd (Number.isDigit_of_mem_toString h) (by decide)

/-- The digits of a number give it back. -/
theorem toString_inj {m n : Nat} (h : toString m = toString n) : m = n := by
  have hdigits (k : Nat) : Nat.ofDigitChars 10 (toString k).toList 0 = k := by
    rw [Nat.toString_eq_repr, Nat.toList_repr, Nat.ofDigitChars_ten_toDigits]
  rw [← hdigits m, h, hdigits n]

theorem eq_of_parts {p q : Place} (htable : p.table = q.table) (hentry : p.entry = q.entry)
    (hkey : p.key = q.key) : p = q := by
  rcases p with ⟨i, _ | _⟩ | ⟨i, _ | _⟩ | i <;> rcases q with ⟨j, _ | _⟩ | ⟨j, _ | _⟩ | j <;>
    simp_all [table, entry, key]

/-- **A name tells the place.** -/
theorem name_inj {p q : Place} (h : p.name = q.name) : p = q := by
  have hlists := congrArg String.toList h
  simp only [name, String.toList_append, List.append_assoc] at hlists
  obtain ⟨htable, hrest⟩ := Text.split_inj p.bracket_notMem_table
    (List.append_cancel_left hlists) q.bracket_notMem_table
  obtain ⟨hentry, hkey⟩ := Text.split_inj (bracket_notMem_toString _) hrest
    (bracket_notMem_toString _)
  exact eq_of_parts (String.toList_inj.mp htable) (toString_inj (String.toList_inj.mp hentry))
    (String.toList_inj.mp hkey)

theorem refusal_inj {p q : Place} (h : p.refusal = q.refusal) : p = q :=
  name_inj ((String.append_left_inj _).mp (Failure.badConfig.inj h))

end Place

/-! ## The patterns with their places -/

/-- The patterns of a pool table, where `make` gives the places in that table. -/
def placedPairs (make : Nat → Side → Place) (pairs : List PoolPattern) : List (Place × String) :=
  pairs.zipIdx.flatMap fun (pair, i) => [(make i .current, pair.current), (make i .max, pair.max)]

def placedHistograms (patterns : List String) : List (Place × String) :=
  patterns.zipIdx.map fun (pattern, i) => (.histogram i, pattern)

/-- All patterns with their places, in the order in which they are checked. -/
def placed (rules : Rules) : List (Place × String) :=
  placedPairs .thread rules.threadPool ++ placedPairs .connection rules.connectionPool ++
    placedHistograms rules.latencyHistograms

theorem poolFields_eq (table current : String) (make : Nat → Side → Place)
    (hentry : ∀ i side, entryName (make i side).table (make i side).entry = entryName table i)
    (hcurrent : ∀ i, (make i .current).key = "." ++ current)
    (hmax : ∀ i, (make i .max).key = ".max") (pairs : List PoolPattern) :
    poolFields table current pairs =
      (placedPairs make pairs).map fun field => (field.1.name, field.2) := by
  rw [poolFields, placedPairs, List.map_flatMap]
  refine List.flatMap_congr fun entry _ => ?_
  simp only [List.map_cons, List.map_nil, Place.name_eq, hentry, hcurrent, hmax,
    String.append_assoc]

/-- The patterns are checked under the names of their places. -/
theorem fields_eq (rules : Rules) :
    fields rules = (placed rules).map fun field => (field.1.name, field.2) := by
  have hthread := poolFields_eq "thread_pool" "busy" .thread (fun _ _ => rfl) (fun _ => rfl)
    (fun _ => rfl) rules.threadPool
  have hconnection := poolFields_eq "connection_pool" "active" .connection (fun _ _ => rfl)
    (fun _ => rfl) (fun _ => rfl) rules.connectionPool
  have hhistogram (i : Nat) :
      (Place.histogram i).name = entryName "latency_histograms" i := String.append_empty
  rw [fields, placed, List.map_append, List.map_append, hthread, hconnection, placedHistograms,
    List.map_map]
  simp only [Function.comp_def, hhistogram]

theorem mem_placedPairs {make : Nat → Side → Place} {pairs : List PoolPattern}
    {field : Place × String} : field ∈ placedPairs make pairs ↔
      ∃ i side, field.1 = make i side ∧ pairs[i]?.map side.pattern = some field.2 := by
  simp only [placedPairs, List.mem_flatMap, Prod.exists, List.mk_mem_zipIdx_iff_getElem?,
    List.mem_pair, Option.map_eq_some_iff]
  constructor
  · intro h
    obtain ⟨pair, i, hpair, rfl | rfl⟩ := h
    · exact ⟨i, .current, rfl, pair, hpair, rfl⟩
    · exact ⟨i, .max, rfl, pair, hpair, rfl⟩
  · intro h
    obtain ⟨i, side, hplace, pair, hpair, hpattern⟩ := h
    refine ⟨pair, i, hpair, ?_⟩
    cases side with
    | current => exact .inl (Prod.ext hplace hpattern.symm)
    | max => exact .inr (Prod.ext hplace hpattern.symm)

theorem mem_placedHistograms {patterns : List String} {field : Place × String} :
    field ∈ placedHistograms patterns ↔
      ∃ i, field.1 = .histogram i ∧ patterns[i]? = some field.2 := by
  simp only [placedHistograms, List.mem_map, Prod.exists, List.mk_mem_zipIdx_iff_getElem?]
  constructor
  · intro h
    obtain ⟨pattern, i, hpattern, rfl⟩ := h
    exact ⟨i, rfl, hpattern⟩
  · intro h
    obtain ⟨i, hplace, hpattern⟩ := h
    exact ⟨field.2, i, hpattern, Prod.ext hplace.symm rfl⟩

theorem mem_placed_iff {rules : Rules} {field : Place × String} :
    field ∈ placed rules ↔ field.1.pattern? rules = some field.2 := by
  obtain ⟨place, pattern⟩ := field
  rw [placed, List.mem_append, List.mem_append, mem_placedPairs, mem_placedPairs,
    mem_placedHistograms]
  cases place <;> simp [Place.pattern?]

/-! ## The order of the check -/

theorem pairwise_zipIdx {α : Type} (xs : List α) : xs.zipIdx.Pairwise fun a b => a.2 < b.2 := by
  rw [← List.pairwise_map, List.zipIdx_map_snd]
  exact List.pairwise_lt_range'

section Pairs

variable {make : Nat → Side → Place} {table : Nat}
  (hmake : ∀ i side, (make i side).rank = (table, i, side.rank)) {pairs : List PoolPattern}
include hmake

theorem table_of_mem_placedPairs {field : Place × String} (h : field ∈ placedPairs make pairs) :
    field.1.rank.1 = table := by
  obtain ⟨i, side, hplace, -⟩ := mem_placedPairs.mp h
  rw [hplace, hmake]

theorem pairwise_placedPairs : (placedPairs make pairs).Pairwise fun a b => a.1.Before b.1 := by
  have hentry {pair : PoolPattern} {i : Nat} {field : Place × String}
      (h : field ∈ [(make i .current, pair.current), (make i .max, pair.max)]) :
      field.1.rank.1 = table ∧ field.1.rank.2.1 = i := by
    rcases List.mem_pair.mp h with rfl | rfl <;> simp [hmake]
  rw [placedPairs, List.pairwise_flatMap]
  constructor
  · intro entry _
    rw [List.pairwise_pair, Place.before_iff, hmake, hmake]
    exact .inr ⟨rfl, .inr ⟨rfl, Nat.zero_lt_one⟩⟩
  · refine (pairwise_zipIdx pairs).imp fun {a b} hlt field hfield field' hfield' => ?_
    obtain ⟨htable, hindex⟩ := hentry hfield
    obtain ⟨htable', hindex'⟩ := hentry hfield'
    rw [Place.before_iff, htable, htable', hindex, hindex']
    exact .inr ⟨rfl, .inl hlt⟩

end Pairs

theorem pairwise_placedHistograms (patterns : List String) :
    (placedHistograms patterns).Pairwise fun a b => a.1.Before b.1 := by
  refine List.pairwise_map.mpr ((pairwise_zipIdx patterns).imp fun hlt => ?_)
  exact Place.before_iff.mpr (.inr ⟨rfl, .inl hlt⟩)

/-- The check goes through the places in their order. -/
theorem pairwise_placed (rules : Rules) :
    (placed rules).Pairwise fun a b => a.1.Before b.1 := by
  have hthread {field : Place × String} (h : field ∈ placedPairs .thread rules.threadPool) :
      field.1.rank.1 = 0 := table_of_mem_placedPairs (fun _ _ => rfl) h
  have hconnection {field : Place × String}
      (h : field ∈ placedPairs .connection rules.connectionPool) : field.1.rank.1 = 1 :=
    table_of_mem_placedPairs (fun _ _ => rfl) h
  have hhistogram {field : Place × String}
      (h : field ∈ placedHistograms rules.latencyHistograms) : field.1.rank.1 = 2 := by
    obtain ⟨i, hplace, -⟩ := mem_placedHistograms.mp h
    rw [hplace, Place.rank]
  rw [placed, List.pairwise_append, List.pairwise_append]
  refine ⟨⟨pairwise_placedPairs fun _ _ => rfl, pairwise_placedPairs fun _ _ => rfl, ?_⟩,
    pairwise_placedHistograms _, ?_⟩
  · intro a ha b hb
    rw [Place.before_iff, hthread ha, hconnection hb]
    exact .inl Nat.zero_lt_one
  · intro a ha b hb
    rw [Place.before_iff, hhistogram hb]
    rcases List.mem_append.mp ha with ha | ha
    · rw [hthread ha]
      exact .inl Nat.zero_lt_two
    · rw [hconnection ha]
      exact .inl Nat.one_lt_two

/-! ## The verdict -/

/-- A pattern that a series can have in its name. -/
def Usable (pattern : String) : Prop := pattern ≠ "" ∧ ∀ c ∈ pattern.toList, isBlank c = false

theorem isUsable_iff_usable {pattern : String} : isUsable pattern = true ↔ Usable pattern :=
  isUsable_iff

/-- The place is the first one whose pattern cannot be used. -/
structure Place.IsOffender (rules : Rules) (place : Place) : Prop where
  unusable : ∃ pattern, place.pattern? rules = some pattern ∧ ¬ Usable pattern
  first : ∀ (earlier : Place) (pattern : String), earlier.Before place →
    earlier.pattern? rules = some pattern → Usable pattern

theorem isOffender_iff_first {rules : Rules} {place : Place} :
    place.IsOffender rules ↔
      ∃ pattern, First (fun field => ¬ Usable field.2) (place, pattern) (placed rules) := by
  simp only [first_iff_of_pairwise (fun a b => Place.Before.asymm a.1 b.1) (pairwise_placed rules),
    mem_placed_iff, Prod.forall, not_not]
  constructor
  · intro h
    obtain ⟨pattern, hpattern, hunusable⟩ := h.unusable
    exact ⟨pattern, hpattern, hunusable, fun p q hq hbefore => h.first p q hbefore hq⟩
  · intro h
    obtain ⟨pattern, hpattern, hunusable, hfirst⟩ := h
    exact ⟨⟨pattern, hpattern, hunusable⟩, fun p q hbefore hq => hfirst p q hq hbefore⟩

theorem validate_of_version_eq {config : Config} (h : config.version = 1) :
    config.validate = match (placed config.extension).find? (fun field => !isUsable field.2) with
      | some field => .error field.1.refusal
      | none => .ok () := by
  rw [validate, if_neg (not_not_intro h), fields_eq, List.find?_map]
  simp only [Function.comp_def]
  cases (placed config.extension).find? fun field => !isUsable field.2 <;> rfl

theorem find?_placed_eq_some_iff {rules : Rules} {field : Place × String} :
    (placed rules).find? (fun field => !isUsable field.2) = some field ↔
      First (fun field => ¬ Usable field.2) field (placed rules) := by
  simp only [find?_eq_some_iff_first, Bool.not_eq_true', Bool.eq_false_iff, ne_eq,
    isUsable_iff_usable]

/-- **A configuration is refused for the first thing that is wrong with it.** -/
theorem validate_eq_error_iff {config : Config} {failure : Failure} :
    config.validate = .error failure ↔
      config.version ≠ 1 ∧ failure = .unsupportedVersion ∨
      config.version = 1 ∧ ∃ place : Place, place.IsOffender config.extension ∧
        failure = place.refusal := by
  by_cases hversion : config.version = 1
  · simp only [hversion, ne_eq, not_true_eq_false, false_and, false_or, true_and,
      isOffender_iff_first, validate_of_version_eq hversion, ← find?_placed_eq_some_iff]
    cases (placed config.extension).find? fun field => !isUsable field.2 with
    | none => simp
    | some field => simp [Prod.ext_iff, eq_comm]
  · rw [validate_of_version hversion]
    simp [hversion, eq_comm]

theorem forall_patterns_iff {rules : Rules} {p : String → Prop} :
    (∀ pattern ∈ rules.patterns, p pattern) ↔
      (∀ pair ∈ rules.threadPool, p pair.current ∧ p pair.max) ∧
      (∀ pair ∈ rules.connectionPool, p pair.current ∧ p pair.max) ∧
      ∀ pattern ∈ rules.latencyHistograms, p pattern := by
  have hpair (pair : PoolPattern) :
      (∀ pattern ∈ [pair.current, pair.max], p pattern) ↔ p pair.current ∧ p pair.max := by simp
  simp only [Rules.patterns, List.forall_mem_append, List.forall_mem_flatMap, hpair, and_assoc]

/-- **The verdict on a configuration.** The refusal tells the place, so no other one is named. -/
theorem validate_verdict (config : Config) :
    (config.validate = .ok () ↔ config.version = 1 ∧
      (∀ pair ∈ config.extension.threadPool, Usable pair.current ∧ Usable pair.max) ∧
      (∀ pair ∈ config.extension.connectionPool, Usable pair.current ∧ Usable pair.max) ∧
      ∀ pattern ∈ config.extension.latencyHistograms, Usable pattern) ∧
    (∀ failure, config.validate = .error failure ↔
      config.version ≠ 1 ∧ failure = .unsupportedVersion ∨
      config.version = 1 ∧ ∃ place : Place, place.IsOffender config.extension ∧
        failure = place.refusal) ∧
    ∀ place : Place, config.validate = .error place.refusal ↔
      config.version = 1 ∧ place.IsOffender config.extension := by
  refine ⟨?_, fun failure => validate_eq_error_iff, fun place => ?_⟩
  · rw [validate_eq_ok_iff, ← forall_patterns_iff]
    simp only [isUsable_iff_usable]
  · rw [validate_eq_error_iff]
    constructor
    · intro h
      rcases h with ⟨-, hfailure⟩ | ⟨hversion, other, hoffender, hfailure⟩
      · cases hfailure
      · rw [Place.refusal_inj hfailure]
        exact ⟨hversion, hoffender⟩
    · intro h
      exact .inr ⟨h.1, place, h.2, rfl⟩

/-- A pattern of a later table cannot be used either. -/
example :
    validate ⟨1, ⟨[⟨"busy", "max"⟩, ⟨"busy", ""⟩], [⟨"in use", "max"⟩], []⟩⟩ = .error (.badConfig
      "rules.thread_pool[1].max must be a non-empty pattern without whitespace") := by rfl

end Config

end Bottleneck
