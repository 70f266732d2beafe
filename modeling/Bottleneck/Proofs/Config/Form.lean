import Bottleneck.Proofs.Config.Schema

/-!
The form of a document: what is left of it without the number of its version and the texts of its
patterns. The form decides whether the document fits the schema (`Schema.fits_form`). A mapping is
changed one field at a time, and what is said of one field does not depend on the others, so the
proof goes through the records of the schema from the innermost to the whole.
-/

namespace Bottleneck.Schema

open Yaml (Node)

/-- The node describes something that the schema allows where it stands. -/
def Describes {α : Type} (is : α → Node → Prop) (node : Node) : Prop := ∃ value, is value node

/-- The document describes a configuration, usable or not. -/
def Fits (node : Node) : Prop := Describes IsConfig node

/-! ## The form of a document

Two documents have the same form if they differ in the number of the version and in the texts of the
patterns only. -/

/-- Change an entry of a mapping if it has that name. -/
def changeEntry (name : String) (change : Node → Node) (entry : Node × Node) : Node × Node :=
  (entry.1, if (text entry.1).toOption = some name then change entry.2 else entry.2)

def onField (name : String) (change : Node → Node) : Node → Node
  | .mapping entries => .mapping (entries.map (changeEntry name change))
  | node => node

/-- Change every item of a sequence. -/
def onItems (change : Node → Node) : Node → Node
  | .sequence items => .sequence (items.map change)
  | node => node

/-- Leave out which scalar it is. -/
def blankText : Node → Node
  | .scalar _ _ => .scalar false ""
  | node => node

/-- Leave out which version it is. -/
def blankVersion (node : Node) : Node :=
  match version node with
  | .ok _ => .scalar true "1"
  | .error _ => node

def blankPool (current : String) (node : Node) : Node :=
  onField current blankText (onField "max" blankText node)

def blankRules (node : Node) : Node :=
  onField "thread_pool" (onItems (blankPool "busy"))
    (onField "connection_pool" (onItems (blankPool "active"))
      (onField "latency_histograms" (onItems blankText) node))

/-- The document without the number of its version and without the texts of its patterns. -/
def form (node : Node) : Node := onField "version" blankVersion (onField "rules" blankRules node)

section Form

variable {α : Type} {is : α → Node → Prop} {name other : String} {change : Node → Node}
  {known : List String} {fs : List (String × Node)} {node : Node}

theorem describes_blankText : Describes IsText (blankText node) ↔ Describes IsText node := by
  unfold Describes IsText
  cases node with
  | scalar plain text => simp [blankText]
  | sequence items => rfl
  | mapping entries => rfl

theorem describes_blankVersion :
    Describes IsVersion (blankVersion node) ↔ Describes IsVersion node := by
  unfold blankVersion
  split
  · rename_i v hv
    have hone : version (.scalar true "1") = .ok 1 := by decide +kernel
    exact iff_of_true ⟨1, version_eq_ok_iff.mp hone⟩ ⟨v, version_eq_ok_iff.mp hv⟩
  · rfl

theorem exists_forall₂_iff {items : List Node} :
    (∃ values, List.Forall₂ is values items) ↔ ∀ item ∈ items, Describes is item := by
  induction items with
  | nil => simp
  | cons item items ih =>
    rw [List.forall_mem_cons]
    constructor
    · intro h
      obtain ⟨_, hall⟩ := h
      cases hall with
      | cons hitem hitems => exact ⟨⟨_, hitem⟩, ih.mp ⟨_, hitems⟩⟩
    · intro h
      obtain ⟨⟨value, hvalue⟩, hitems⟩ := h
      obtain ⟨values, hvalues⟩ := ih.mpr hitems
      exact ⟨value :: values, .cons hvalue hvalues⟩

theorem describes_sequence {items : List Node} :
    Describes (IsList is) (.sequence items) ↔ ∀ item ∈ items, Describes is item := by
  rw [← exists_forall₂_iff]
  constructor
  · intro h
    obtain ⟨values, hlist⟩ := h
    cases hlist with
    | sequence hvalues => exact ⟨values, hvalues⟩
  · intro h
    obtain ⟨values, hvalues⟩ := h
    exact ⟨values, .sequence hvalues⟩

theorem describes_onItems (h : ∀ node, Describes is (change node) ↔ Describes is node) :
    Describes (IsList is) (onItems change node) ↔ Describes (IsList is) node := by
  cases node with
  | sequence items => simp only [onItems, describes_sequence, List.forall_mem_map, h]
  | scalar plain text => rfl
  | mapping entries => rfl

/-- What changing a field of a mapping does to its fields. -/
def changeField (name : String) (change : Node → Node) (field : String × Node) : String × Node :=
  (field.1, if field.1 = name then change field.2 else field.2)

theorem isField_changeEntry {field : String × Node} {entry : Node × Node} :
    IsField field (changeEntry name change entry) ↔
      ∃ old, IsField old entry ∧ changeField name change old = field := by
  obtain ⟨key, value⟩ := entry
  simp only [IsField, changeEntry, changeField, ← text_eq_ok_iff, Prod.ext_iff]
  cases text key with
  | error e => simp
  | ok s =>
    simp [Except.toOption]
    grind

theorem forall₂_changeEntry {entries : List (Node × Node)} :
    List.Forall₂ IsField fs (entries.map (changeEntry name change)) ↔
      ∃ old, List.Forall₂ IsField old entries ∧ old.map (changeField name change) = fs := by
  induction entries generalizing fs with
  | nil => simp [eq_comm]
  | cons entry entries ih =>
    rw [List.map_cons, List.forall₂_cons_right_iff]
    constructor
    · intro h
      obtain ⟨field, rest, hfield, hrest, rfl⟩ := h
      obtain ⟨old, hold, rfl⟩ := isField_changeEntry.mp hfield
      obtain ⟨olds, holds, rfl⟩ := ih.mp hrest
      exact ⟨old :: olds, .cons hold holds, rfl⟩
    · intro h
      obtain ⟨_, hall, rfl⟩ := h
      cases hall with
      | cons hold holds =>
        exact ⟨_, _, isField_changeEntry.mpr ⟨_, hold, rfl⟩, ih.mpr ⟨_, holds, rfl⟩, rfl⟩

theorem map_fst_changeField : (fs.map (changeField name change)).map (·.1) = fs.map (·.1) := by
  rw [List.map_map]
  rfl

theorem forall_changeField :
    (∀ field ∈ fs.map (changeField name change), field.1 ∈ known) ↔
      ∀ field ∈ fs, field.1 ∈ known := List.forall_mem_map

theorem isMapping_onField : IsMapping known fs (onField name change node) ↔
    ∃ old, IsMapping known old node ∧ old.map (changeField name change) = fs := by
  constructor
  · intro h
    cases node with
    | mapping entries =>
      cases h with
      | mapping hfields hknown hnodup =>
        obtain ⟨old, hold, rfl⟩ := forall₂_changeEntry.mp hfields
        rw [map_fst_changeField] at hnodup
        exact ⟨old, .mapping hold (forall_changeField.mp hknown) hnodup, rfl⟩
    | scalar plain text =>
      cases h with
      | empty => exact ⟨[], .empty, rfl⟩
    | sequence items => cases h
  · intro h
    obtain ⟨old, hold, rfl⟩ := h
    cases hold with
    | mapping hfields hknown hnodup =>
      rw [← map_fst_changeField] at hnodup
      exact .mapping (forall₂_changeEntry.mpr ⟨old, hfields, rfl⟩) (forall_changeField.mpr hknown)
        hnodup
    | empty => exact .empty

/-- What is said of a mapping through its fields survives a change that keeps it of the fields. -/
theorem exists_isMapping_onField {P : List (String × Node) → Prop}
    (h : ∀ fs, P (fs.map (changeField name change)) ↔ P fs) :
    (∃ fs, IsMapping known fs (onField name change node) ∧ P fs) ↔
      ∃ fs, IsMapping known fs node ∧ P fs := by
  simp only [isMapping_onField]
  constructor
  · intro hnew
    obtain ⟨_, ⟨fs, hfs, rfl⟩, hP⟩ := hnew
    exact ⟨fs, hfs, (h fs).mp hP⟩
  · intro hold
    obtain ⟨fs, hfs, hP⟩ := hold
    exact ⟨_, ⟨fs, hfs, rfl⟩, (h fs).mpr hP⟩

theorem exists_has_iff :
    (∃ value, Has other is value fs) ↔ ∃ node, (other, node) ∈ fs ∧ Describes is node := by
  unfold Has Describes
  grind

theorem exists_has_changeField
    (h : other = name → ∀ node, Describes is (change node) ↔ Describes is node) :
    (∃ value, Has other is value (fs.map (changeField name change))) ↔
      ∃ value, Has other is value fs := by
  rw [exists_has_iff, exists_has_iff]
  constructor
  · intro hnew
    obtain ⟨node, hmem, hnode⟩ := hnew
    obtain ⟨⟨key, old⟩, hold, heq⟩ := List.mem_map.mp hmem
    obtain ⟨rfl, rfl⟩ := Prod.mk.inj heq
    refine ⟨old, hold, ?_⟩
    dsimp only at hnode
    split at hnode
    · rename_i hname
      exact (h hname old).mp hnode
    · exact hnode
  · intro hold
    obtain ⟨old, hmem, hnode⟩ := hold
    refine ⟨_, List.mem_map_of_mem hmem, ?_⟩
    dsimp only [changeField]
    split
    · rename_i hname
      exact (h hname old).mpr hnode
    · exact hnode

theorem exists_hasOr_iff {default : α} :
    (∃ value, HasOr other default is value fs) ↔
      (∃ value, Has other is value fs) ∨ other ∉ fs.map (·.1) := by
  unfold HasOr
  rw [exists_or]
  simp

theorem exists_hasOr_changeField {default : α}
    (h : other = name → ∀ node, Describes is (change node) ↔ Describes is node) :
    (∃ value, HasOr other default is value (fs.map (changeField name change))) ↔
      ∃ value, HasOr other default is value fs := by
  rw [exists_hasOr_iff, exists_hasOr_iff, exists_has_changeField h, map_fst_changeField]

theorem exists_hasOr_changeField_of_ne {default : α} (h : other ≠ name := by decide) :
    (∃ value, HasOr other default is value (fs.map (changeField name change))) ↔
      ∃ value, HasOr other default is value fs :=
  exists_hasOr_changeField fun heq => absurd heq h

end Form

/-! ## A document fits if one of its form does -/

section Records

variable {current : String} {node : Node}

theorem describes_poolPattern_iff :
    Describes (IsPoolPattern current) node ↔ ∃ fs, IsMapping [current, "max"] fs node ∧
      (∃ text, Has current IsText text fs) ∧ ∃ text, Has "max" IsText text fs := by
  constructor
  · intro h
    obtain ⟨pair, fs, hfs, hcurrent, hmax⟩ := h
    exact ⟨fs, hfs, ⟨_, hcurrent⟩, ⟨_, hmax⟩⟩
  · intro h
    obtain ⟨fs, hfs, ⟨current, hcurrent⟩, ⟨max, hmax⟩⟩ := h
    exact ⟨⟨current, max⟩, fs, hfs, hcurrent, hmax⟩

theorem describes_blankPool :
    Describes (IsPoolPattern current) (blankPool current node) ↔
      Describes (IsPoolPattern current) node := by
  have htext (name other : String) (fs : List (String × Node)) :
      (∃ text, Has other IsText text (fs.map (changeField name blankText))) ↔
        ∃ text, Has other IsText text fs :=
    exists_has_changeField fun _ _ => describes_blankText
  unfold blankPool
  rw [describes_poolPattern_iff, describes_poolPattern_iff, exists_isMapping_onField,
    exists_isMapping_onField]
  · intro fs
    rw [htext, htext]
  · intro fs
    rw [htext, htext]

theorem describes_extension_iff :
    Describes IsExtension node ↔
      ∃ fs, IsMapping ["thread_pool", "connection_pool", "latency_histograms"] fs node ∧
        (∃ pairs, HasOr "thread_pool" [] (IsList (IsPoolPattern "busy")) pairs fs) ∧
        (∃ pairs, HasOr "connection_pool" [] (IsList (IsPoolPattern "active")) pairs fs) ∧
        ∃ texts, HasOr "latency_histograms" [] (IsList IsText) texts fs := by
  constructor
  · intro h
    obtain ⟨rules, fs, hfs, hthread, hconnection, hlatency⟩ := h
    exact ⟨fs, hfs, ⟨_, hthread⟩, ⟨_, hconnection⟩, ⟨_, hlatency⟩⟩
  · intro h
    obtain ⟨fs, hfs, ⟨thread, hthread⟩, ⟨connection, hconnection⟩, ⟨latency, hlatency⟩⟩ := h
    exact ⟨⟨thread, connection, latency⟩, fs, hfs, hthread, hconnection, hlatency⟩

theorem describes_blankRules :
    Describes IsExtension (blankRules node) ↔ Describes IsExtension node := by
  have hpools (current : String) (node : Node) :
      Describes (IsList (IsPoolPattern current)) (onItems (blankPool current) node) ↔
        Describes (IsList (IsPoolPattern current)) node :=
    describes_onItems fun _ => describes_blankPool
  have htexts (node : Node) :
      Describes (IsList IsText) (onItems blankText node) ↔ Describes (IsList IsText) node :=
    describes_onItems fun _ => describes_blankText
  unfold blankRules
  -- One goal for each field that is changed; in each the other two stay as they are.
  rw [describes_extension_iff, describes_extension_iff, exists_isMapping_onField,
    exists_isMapping_onField, exists_isMapping_onField]
  · intro fs
    rw [exists_hasOr_changeField_of_ne, exists_hasOr_changeField_of_ne,
      exists_hasOr_changeField fun _ => htexts]
  · intro fs
    rw [exists_hasOr_changeField_of_ne,
      exists_hasOr_changeField fun _ => hpools "active",
      exists_hasOr_changeField_of_ne]
  · intro fs
    rw [exists_hasOr_changeField fun _ => hpools "busy",
      exists_hasOr_changeField_of_ne, exists_hasOr_changeField_of_ne]

theorem fits_iff : Fits node ↔ ∃ fs, IsMapping ["version", "rules"] fs node ∧
    (∃ version, Has "version" IsVersion version fs) ∧
      ∃ rules, HasOr "rules" ⟨[], [], []⟩ IsExtension rules fs := by
  constructor
  · intro h
    obtain ⟨config, fs, hfs, hversion, hrules⟩ := h
    exact ⟨fs, hfs, ⟨_, hversion⟩, ⟨_, hrules⟩⟩
  · intro h
    obtain ⟨fs, hfs, ⟨version, hversion⟩, ⟨rules, hrules⟩⟩ := h
    exact ⟨⟨version, rules⟩, fs, hfs, hversion, hrules⟩

/-- **Neither the number of the version nor the text of a pattern decides whether a document
fits.** -/
theorem fits_form : Fits (form node) ↔ Fits node := by
  unfold form
  rw [fits_iff, fits_iff, exists_isMapping_onField, exists_isMapping_onField]
  · intro fs
    rw [exists_has_changeField (by simp), exists_hasOr_changeField fun _ _ => describes_blankRules]
  · intro fs
    rw [exists_has_changeField fun _ _ => describes_blankVersion,
      exists_hasOr_changeField_of_ne]

end Records

end Bottleneck.Schema
