import Bottleneck.Config.Schema
import Mathlib.Data.List.Forall2
import Mathlib.Data.Nat.Digits.Defs

/-!
What the schema of a configuration accepts, said without a reader: `IsConfig config node` holds of a
tree and the configuration that it describes. The reader succeeds on these trees and on no others
(`config_eq_ok_iff`). The relations below follow the readers one by one.
-/

namespace Bottleneck.Schema

open Yaml (Node)

/-! ## Attempts in sequence -/

theorem bind_eq_ok_iff {ε α β : Type} {attempt : Except ε α} {next : α → Except ε β} {b : β} :
    (attempt >>= next) = .ok b ↔ ∃ a, attempt = .ok a ∧ next a = .ok b := by
  cases attempt with
  | error e => simp [bind, Except.bind]
  | ok a => simp [bind, Except.bind]

theorem pure_eq_ok_iff {ε α : Type} {a b : α} : (pure a : Except ε α) = .ok b ↔ a = b := by
  simp [pure, Except.pure]

theorem map_eq_error_iff {ε α β : Type} {f : α → β} {attempt : Except ε α} {e : ε} :
    attempt.map f = .error e ↔ attempt = .error e := by
  cases attempt with
  | ok a => simp [Except.map]
  | error e => simp [Except.map]

theorem mapM_eq_ok_iff {ε α β : Type} {f : α → Except ε β} {as : List α} {bs : List β} :
    as.mapM f = .ok bs ↔ List.Forall₂ (fun b a => f a = .ok b) bs as := by
  induction as generalizing bs with
  | nil =>
    rw [List.mapM_nil, pure_eq_ok_iff, List.forall₂_nil_right_iff, eq_comm]
  | cons a as ih =>
    simp only [List.mapM_cons, bind_eq_ok_iff, pure_eq_ok_iff, ih, List.forall₂_cons_right_iff]
    grind

theorem mapM_eq_some_iff {α β : Type} {f : α → Option β} {as : List α} {bs : List β} :
    as.mapM f = some bs ↔ List.Forall₂ (fun b a => f a = some b) bs as := by
  induction as generalizing bs with
  | nil => simp [eq_comm]
  | cons a as ih =>
    simp only [List.mapM_cons, Option.bind_eq_bind, Option.bind_eq_some_iff, Option.pure_def,
      Option.some.injEq, ih, List.forall₂_cons_right_iff]
    grind

/-! ## Scalars -/

/-- The text is that of a scalar, quoted or not. -/
def IsText (text : String) (node : Node) : Prop := ∃ plain, node = .scalar plain text

theorem text_eq_ok_iff {node : Node} {s : String} : text node = .ok s ↔ IsText s node := by
  unfold IsText
  cases node with
  | scalar plain t => simp [text]
  | sequence items => simp [text]
  | mapping entries => simp [text]

/-- Digits of a base, at least one, and the number that they write. -/
def IsDigits (base : Nat) (cs : List Char) (n : Nat) : Prop :=
  cs ≠ [] ∧ ∃ digits : List Nat,
    List.Forall₂ (fun d c => Text.hexDigit? c = some d ∧ d < base) digits cs ∧
      n = Nat.ofDigits base digits.reverse

theorem foldl_digits (base : Nat) (digits : List Nat) :
    digits.foldl (base * · + ·) 0 = Nat.ofDigits base digits.reverse := by
  rw [Nat.ofDigits_eq_foldr, List.foldl_eq_foldr_reverse]
  refine congrArg (List.foldr · 0 digits.reverse) ?_
  funext d n
  exact Nat.add_comm _ _

theorem digits?_eq_some_iff {base : Nat} {cs : List Char} {n : Nat} :
    digits? base cs = some n ↔ IsDigits base cs n := by
  unfold digits? IsDigits
  split
  · rename_i hnil
    simp [hnil]
  · rename_i hcons
    simp only [Option.map_eq_some_iff, mapM_eq_some_iff, foldl_digits, Option.filter_eq_some_iff,
      decide_eq_true_eq, ne_eq, hcons, not_false_eq_true, true_and]
    simp only [eq_comm]

/-- A number without a sign. A decimal one has no leading zero. -/
inductive IsMagnitude : List Char → Nat → Prop
  | hexadecimal {cs : List Char} {n : Nat} (h : IsDigits 16 cs n) : IsMagnitude ('0' :: 'x' :: cs) n
  | octal {cs : List Char} {n : Nat} (h : IsDigits 8 cs n) : IsMagnitude ('0' :: 'o' :: cs) n
  | binary {cs : List Char} {n : Nat} (h : IsDigits 2 cs n) : IsMagnitude ('0' :: 'b' :: cs) n
  | decimal {cs : List Char} {n : Nat} (h : IsDigits 10 cs n)
      (hlead : cs.head? = some '0' → cs = ['0']) : IsMagnitude cs n

theorem magnitude?_eq_some_iff {cs : List Char} {n : Nat} :
    magnitude? cs = some n ↔ IsMagnitude cs n := by
  constructor
  · intro h
    unfold magnitude? at h
    split at h
    · exact .hexadecimal (digits?_eq_some_iff.mp h)
    · exact .octal (digits?_eq_some_iff.mp h)
    · exact .binary (digits?_eq_some_iff.mp h)
    · cases h
    · rename_i hlong
      refine .decimal (digits?_eq_some_iff.mp h) ?_
      intro hhead
      obtain ⟨rest, rfl⟩ := List.head?_eq_some_iff.mp hhead
      cases rest with
      | nil => rfl
      | cons c rest => exact absurd rfl (hlong c rest)
  · intro h
    cases h with
    | hexadecimal h => exact digits?_eq_some_iff.mpr h
    | octal h => exact digits?_eq_some_iff.mpr h
    | binary h => exact digits?_eq_some_iff.mpr h
    | decimal h hlead =>
      -- A number that starts with a zero is that zero, so no earlier case of the reader takes it.
      rw [← digits?_eq_some_iff] at h
      unfold magnitude?
      split
      all_goals first
        | exact h
        | cases hlead rfl

/-- A number that may have a plus in front. -/
inductive IsUnsigned : List Char → Nat → Prop
  | plus {cs : List Char} {n : Nat} (h : IsMagnitude cs n) : IsUnsigned ('+' :: cs) n
  | bare {cs : List Char} {n : Nat} (h : IsMagnitude cs n) : IsUnsigned cs n

theorem magnitude?_plus (cs : List Char) : magnitude? ('+' :: cs) = none := by
  have hplus : Text.hexDigit? '+' = none := by decide
  simp [magnitude?, digits?, hplus]

theorem unsigned?_eq_some_iff {cs : List Char} {n : Nat} :
    unsigned? cs = some n ↔ IsUnsigned cs n := by
  constructor
  · intro h
    unfold unsigned? at h
    split at h
    · exact .plus (magnitude?_eq_some_iff.mp h)
    · exact .bare (magnitude?_eq_some_iff.mp h)
  · intro h
    cases h with
    | plus h => exact magnitude?_eq_some_iff.mpr h
    | bare h =>
      rw [← magnitude?_eq_some_iff] at h
      unfold unsigned?
      split
      · rw [magnitude?_plus] at h
        cases h
      · exact h

/-- The version is written as a plain number. Every version is below `2 ^ 32`. -/
def IsVersion (version : UInt32) (node : Node) : Prop :=
  ∃ text, node = .scalar true text ∧ IsUnsigned text.toList version.toNat

theorem version_eq_ok_iff {node : Node} {v : UInt32} : version node = .ok v ↔ IsVersion v node := by
  constructor
  · intro h
    unfold version at h
    split at h
    · rename_i text
      split at h
      · rename_i n hn
        obtain ⟨hunsigned, hlt⟩ := Option.filter_eq_some_iff.mp hn
        cases h
        refine ⟨text, rfl, unsigned?_eq_some_iff.mp ?_⟩
        rw [hunsigned, UInt32.toNat_ofNat_of_lt' (of_decide_eq_true hlt)]
      · cases h
    · cases h
  · intro h
    obtain ⟨text, rfl, hunsigned⟩ := h
    have hfilter : (unsigned? text.toList).filter (· < UInt32.size) = some v.toNat :=
      Option.filter_eq_some_iff.mpr
        ⟨unsigned?_eq_some_iff.mpr hunsigned, decide_eq_true v.toNat_lt⟩
    simp only [version, hfilter, UInt32.ofNat_toNat]

/-! ## Collections -/

/-- The values are those of a list, one for each item in its order. Where the document has nothing
there is an empty list. -/
inductive IsList {α : Type} (item : α → Node → Prop) : List α → Node → Prop
  | sequence {values : List α} {items : List Node} (h : List.Forall₂ item values items) :
      IsList item values (.sequence items)
  | empty : IsList item [] .empty

theorem list_eq_ok_iff {α : Type} {read : Node → Except Mismatch α} {item : α → Node → Prop}
    (h : ∀ {node value}, read node = .ok value ↔ item value node) {node : Node}
    {values : List α} : list read node = .ok values ↔ IsList item values node := by
  constructor
  · intro hread
    unfold list at hread
    split at hread
    · rw [mapM_eq_ok_iff] at hread
      exact .sequence (hread.imp fun _ _ => h.mp)
    · cases hread
      exact .empty
    · cases hread
  · intro hlist
    cases hlist with
    | sequence hitems => exact mapM_eq_ok_iff.mpr (hitems.imp fun _ _ => h.mpr)
    | empty => rfl

/-- The field is an entry of a mapping. Its name may be quoted. -/
def IsField (field : String × Node) (entry : Node × Node) : Prop :=
  IsText field.1 entry.1 ∧ field.2 = entry.2

/-- The fields are those of a mapping, in its order. Their names are among the known ones, and none
is there twice. Where the document has nothing there is a mapping without fields. -/
inductive IsMapping (known : List String) : List (String × Node) → Node → Prop
  | mapping {fields : List (String × Node)} {entries : List (Node × Node)}
      (h : List.Forall₂ IsField fields entries)
      (hknown : ∀ field ∈ fields, field.1 ∈ known) (hnodup : (fields.map (·.1)).Nodup) :
      IsMapping known fields (.mapping entries)
  | empty : IsMapping known [] .empty

theorem checkFields_eq_ok_iff {known : List String} {fields : List (String × Node)} :
    checkFields known fields = .ok () ↔
      (∀ field ∈ fields, field.1 ∈ known) ∧ (fields.map (·.1)).Nodup := by
  induction fields with
  | nil => simp [checkFields]
  | cons field fields ih =>
    obtain ⟨name, value⟩ := field
    simp only [checkFields, List.forall_mem_cons, List.map_cons, List.nodup_cons]
    split
    · rename_i hunknown
      simp [hunknown]
    · rename_i hknown
      split
      · rename_i htwice
        simp [htwice]
      · rename_i honce
        rw [ih]
        simp only [not_not.mp hknown, honce, true_and, not_false_eq_true]

theorem fields_eq_ok_iff {known : List String} {node : Node} {fs : List (String × Node)} :
    fields known node = .ok fs ↔ IsMapping known fs node := by
  have hentry (field : String × Node) (entry : Node × Node) :
      (∃ name, text entry.1 = .ok name ∧ (name, entry.2) = field) ↔ IsField field entry := by
    simp only [text_eq_ok_iff, IsField, Prod.ext_iff]
    grind
  constructor
  · intro h
    unfold fields at h
    split at h
    · simp only [bind_eq_ok_iff, pure_eq_ok_iff, mapM_eq_ok_iff, hentry] at h
      obtain ⟨fs, hentries, _, hcheck, rfl⟩ := h
      obtain ⟨hknown, hnodup⟩ := checkFields_eq_ok_iff.mp hcheck
      exact .mapping hentries hknown hnodup
    · cases h
      exact .empty
    · cases h
  · intro h
    cases h with
    | mapping hentries hknown hnodup =>
      simp only [fields, bind_eq_ok_iff, pure_eq_ok_iff, mapM_eq_ok_iff, hentry]
      exact ⟨fs, hentries, (), checkFields_eq_ok_iff.mpr ⟨hknown, hnodup⟩, rfl⟩
    | empty => rfl

theorem IsMapping.nodup {known : List String} {fs : List (String × Node)} {node : Node}
    (h : IsMapping known fs node) : (fs.map (·.1)).Nodup := by
  cases h with
  | mapping _ _ hnodup => exact hnodup
  | empty => exact List.nodup_nil

/-! ## Fields -/

section Fields

variable {α : Type} {read : Node → Except Mismatch α} {is : α → Node → Prop} {name : String}
  {fs : List (String × Node)} {value : α}

/-- There is a field of that name, and it holds the value. -/
def Has (name : String) (is : α → Node → Prop) (value : α) (fs : List (String × Node)) : Prop :=
  ∃ node, (name, node) ∈ fs ∧ is value node

/-- The value of a field that may be missing. -/
def HasOr (name : String) (default : α) (is : α → Node → Prop) (value : α)
    (fs : List (String × Node)) : Prop :=
  Has name is value fs ∨ name ∉ fs.map (·.1) ∧ value = default

theorem lookup_eq_some_iff (hnodup : (fs.map (·.1)).Nodup) {node : Node} :
    fs.lookup name = some node ↔ (name, node) ∈ fs := by
  induction fs with
  | nil => simp
  | cons field fs ih =>
    obtain ⟨key, value⟩ := field
    obtain ⟨hfresh, hnodup⟩ := List.nodup_cons.mp hnodup
    rw [List.lookup_cons, List.mem_cons]
    split
    · rename_i hkey
      obtain rfl := beq_iff_eq.mp hkey
      have hnot : (name, node) ∉ fs := fun hmem => hfresh (List.mem_map.mpr ⟨_, hmem, rfl⟩)
      simp [hnot, eq_comm]
    · rename_i hkey
      rw [ih hnodup]
      simp [beq_eq_false_iff_ne.mp hkey]

theorem lookup_eq_none_iff : fs.lookup name = none ↔ name ∉ fs.map (·.1) := by
  rw [List.lookup_eq_none_iff, List.mem_map]
  grind

variable (h : ∀ {node value}, read node = .ok value ↔ is value node)
  (hnodup : (fs.map (·.1)).Nodup)
include h hnodup

theorem required_eq_ok_iff : required name read fs = .ok value ↔ Has name is value fs := by
  unfold required Has
  simp only [← lookup_eq_some_iff hnodup, ← h]
  cases fs.lookup name with
  | none => simp
  | some node => simp

theorem optional_eq_ok_iff {default : α} :
    optional name default read fs = .ok value ↔ HasOr name default is value fs := by
  unfold optional HasOr Has
  simp only [← lookup_eq_some_iff hnodup, ← lookup_eq_none_iff, ← h]
  cases fs.lookup name with
  | none => simp [eq_comm]
  | some node => simp

end Fields

/-! ## The parts of a configuration -/

/-- A mapping of exactly two fields, which are scalars. -/
def IsPoolPattern (current : String) (pair : PoolPattern) (node : Node) : Prop :=
  ∃ fs, IsMapping [current, "max"] fs node ∧
    Has current IsText pair.current fs ∧ Has "max" IsText pair.max fs

/-- A mapping of at most three fields, each with the entries of a table. -/
def IsExtension (extension : Rules) (node : Node) : Prop :=
  ∃ fs, IsMapping ["thread_pool", "connection_pool", "latency_histograms"] fs node ∧
    HasOr "thread_pool" [] (IsList (IsPoolPattern "busy")) extension.threadPool fs ∧
    HasOr "connection_pool" [] (IsList (IsPoolPattern "active")) extension.connectionPool fs ∧
    HasOr "latency_histograms" [] (IsList IsText) extension.latencyHistograms fs

/-- A mapping of a version, maybe rules, and no other field. -/
def IsConfig (config : Config) (node : Node) : Prop :=
  ∃ fs, IsMapping ["version", "rules"] fs node ∧
    Has "version" IsVersion config.version fs ∧
    HasOr "rules" ⟨[], [], []⟩ IsExtension config.extension fs

theorem poolPattern_eq_ok_iff {current : String} {node : Node} {pair : PoolPattern} :
    poolPattern current node = .ok pair ↔ IsPoolPattern current pair node := by
  simp only [poolPattern, bind_eq_ok_iff, pure_eq_ok_iff, fields_eq_ok_iff, IsPoolPattern]
  refine exists_congr fun fs => and_congr_right fun hfs => ?_
  simp only [required_eq_ok_iff text_eq_ok_iff hfs.nodup]
  constructor
  · intro h
    obtain ⟨inUse, hcurrent, max, hmax, rfl⟩ := h
    exact ⟨hcurrent, hmax⟩
  · intro h
    exact ⟨pair.current, h.1, pair.max, h.2, rfl⟩

theorem extension_eq_ok_iff {node : Node} {rules : Rules} :
    extension node = .ok rules ↔ IsExtension rules node := by
  simp only [extension, bind_eq_ok_iff, pure_eq_ok_iff, fields_eq_ok_iff, IsExtension]
  refine exists_congr fun fs => and_congr_right fun hfs => ?_
  simp only [optional_eq_ok_iff (list_eq_ok_iff poolPattern_eq_ok_iff) hfs.nodup,
    optional_eq_ok_iff (list_eq_ok_iff text_eq_ok_iff) hfs.nodup]
  constructor
  · intro h
    obtain ⟨threadPool, hthread, connectionPool, hconnection, latency, hlatency, rfl⟩ := h
    exact ⟨hthread, hconnection, hlatency⟩
  · intro h
    exact ⟨rules.threadPool, h.1, rules.connectionPool, h.2.1, rules.latencyHistograms, h.2.2, rfl⟩

/-- **The reader accepts what fits the schema, and reads what is there.** -/
theorem config_eq_ok_iff {node : Node} {c : Config} : config node = .ok c ↔ IsConfig c node := by
  simp only [config, bind_eq_ok_iff, pure_eq_ok_iff, fields_eq_ok_iff, IsConfig]
  refine exists_congr fun fs => and_congr_right fun hfs => ?_
  simp only [required_eq_ok_iff version_eq_ok_iff hfs.nodup,
    optional_eq_ok_iff extension_eq_ok_iff hfs.nodup]
  constructor
  · intro h
    obtain ⟨version, hversion, rules, hrules, rfl⟩ := h
    exact ⟨hversion, hrules⟩
  · intro h
    exact ⟨c.version, h.1, c.extension, h.2, rfl⟩

end Bottleneck.Schema
