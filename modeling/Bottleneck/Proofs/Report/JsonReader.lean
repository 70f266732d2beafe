import Bottleneck.Report.Json
import Bottleneck.Text.Digit
import Mathlib.Data.List.Basic

/-!
A reader of JSON texts, and what it makes of written ones. It knows strings with all their escapes,
arrays and objects, with blanks around every part; numbers and words are no part of a report, so a
text with one is refused, as is every text that is not JSON. Main statement: what is written in a
layout that sets parts apart by blanks alone is read back, and nothing of the text behind it is used
(`Json.readValue_write`).
-/

namespace Bottleneck.Report.Json

/-! ## Reading -/

/-- The characters that may stand between the parts of a text. -/
def isSpace (c : Char) : Bool := c == ' ' || c == '\t' || c == '\n' || c == '\r'

def skipSpace (cs : List Char) : List Char := cs.dropWhile isSpace

/-- A reader takes what it reads from the front of a text. -/
abbrev Reader (α : Type) := List Char → Option (α × List Char)

/-- The number that four hexadecimal digits spell. -/
def readCodeUnit? : Reader Nat
  | a :: b :: c :: d :: cs => do
    let digits ← [a, b, c, d].mapM Text.hexDigit?
    return (digits.foldl (16 * · + ·) 0, cs)
  | _ => none

/-- The character of a surrogate pair, of which the first half has been read. -/
def readPaired? (high : Nat) : Reader Char
  | '\\' :: 'u' :: cs => do
    let (low, cs) ← readCodeUnit? cs
    if high < 0xDC00 ∧ 0xDC00 ≤ low ∧ low < 0xE000 then
      return (.ofNat (0x10000 + (high - 0xD800) * 0x400 + (low - 0xDC00)), cs)
    else none
  | _ => none

/-- The character of a code unit, or of two that are a surrogate pair. A surrogate that stands alone
is no character. -/
def readUnicode? (cs : List Char) : Option (Char × List Char) := do
  let (unit, cs) ← readCodeUnit? cs
  if unit.isValidChar then return (.ofNat unit, cs) else readPaired? unit cs

/-- The letters that stand for a character behind a backslash. -/
def escape? (c : Char) : Option Char :=
  match c with
  | '"' => some '"'
  | '\\' => some '\\'
  | '/' => some '/'
  | 'b' => some '\x08'
  | 'f' => some '\x0c'
  | 'n' => some '\n'
  | 'r' => some '\r'
  | 't' => some '\t'
  | _ => none

/-- The character behind a backslash. -/
def readEscape? : Reader Char
  | [] => none
  | c :: cs => if c = 'u' then readUnicode? cs else (escape? c).map (·, cs)

theorem length_of_readCodeUnit? {cs rest : List Char} {n : Nat}
    (h : readCodeUnit? cs = some (n, rest)) : rest.length ≤ cs.length := by
  unfold readCodeUnit? at h
  split at h
  · obtain ⟨digits, -, hdigits⟩ := Option.bind_eq_some_iff.mp h
    cases hdigits
    simp only [List.length_cons]
    omega
  · cases h

theorem length_of_readPaired? {high : Nat} {cs rest : List Char} {c : Char}
    (h : readPaired? high cs = some (c, rest)) : rest.length ≤ cs.length := by
  unfold readPaired? at h
  split at h
  · rename_i after
    obtain ⟨⟨low, behind⟩, hlow, h⟩ := Option.bind_eq_some_iff.mp h
    have hle := length_of_readCodeUnit? hlow
    dsimp only at h
    split at h
    · obtain ⟨-, rfl⟩ := Prod.mk.inj (Option.some.inj h)
      simp only [List.length_cons]
      omega
    · cases h
  · cases h

theorem length_of_readUnicode? {cs rest : List Char} {c : Char}
    (h : readUnicode? cs = some (c, rest)) : rest.length ≤ cs.length := by
  obtain ⟨⟨unit, after⟩, hunit, h⟩ := Option.bind_eq_some_iff.mp h
  have hle := length_of_readCodeUnit? hunit
  dsimp only at h
  split at h
  · cases h
    exact hle
  · exact Nat.le_trans (length_of_readPaired? h) hle

theorem length_of_readEscape? {cs rest : List Char} {c : Char}
    (h : readEscape? cs = some (c, rest)) : rest.length ≤ cs.length := by
  unfold readEscape? at h
  split at h
  · cases h
  · split at h
    · have := length_of_readUnicode? h
      rw [List.length_cons]
      omega
    · obtain ⟨d, -, hd⟩ := Option.map_eq_some_iff.mp h
      cases hd
      exact Nat.le_succ _

/-- The characters of a string up to its closing quote. Controls must be escaped. -/
def readChars (cs : List Char) : Option (List Char × List Char) :=
  match cs with
  | [] => none
  | c :: cs =>
    if c = '"' then some ([], cs)
    else if c = '\\' then
      match h : readEscape? cs with
      | none => none
      | some (d, rest) =>
        have := length_of_readEscape? h
        (readChars rest).map fun (ds, rest) => (d :: ds, rest)
    else if c.toNat < 0x20 then none
    else (readChars cs).map fun (ds, rest) => (c :: ds, rest)
termination_by cs.length

def readString? : Reader String
  | '"' :: cs => (readChars cs).map fun (s, cs) => (.ofList s, cs)
  | _ => none

variable {α : Type}

/-- Parts with commas between them, up to the closing bracket and with it. They are counted down
from the length of the text, which has more characters than parts. -/
def readParts (close : Char) (part : Reader α) : Nat → Reader (List α)
  | 0, _ => none
  | limit + 1, cs => do
    let (item, cs) ← part cs
    match skipSpace cs with
    | [] => none
    | c :: cs =>
      if c = close then return ([item], cs)
      else if c = ',' then do
        let (items, cs) ← readParts close part limit cs
        return (item :: items, cs)
      else none

/-- All parts between brackets, behind the opening one. -/
def readEnclosed (close : Char) (part : Reader α) : Reader (List α) := fun cs =>
  match skipSpace cs with
  | [] => none
  | c :: cs => if c = close then some ([], cs) else readParts close part (cs.length + 1) (c :: cs)

def readField (value : Reader Json) : Reader (String × Json) := fun cs => do
  let (key, cs) ← readString? (skipSpace cs)
  match skipSpace cs with
  | ':' :: cs => do
    let (item, cs) ← value cs
    return ((key, item), cs)
  | _ => none

/-- One value, nested at most so deep. -/
def readValue : Nat → Reader Json
  | 0, _ => none
  | depth + 1, cs =>
    match skipSpace cs with
    | '[' :: cs => (readEnclosed ']' (readValue depth) cs).map fun (items, cs) => (.array items, cs)
    | '{' :: cs =>
      (readEnclosed '}' (readField (readValue depth)) cs).map fun (fields, cs) =>
        (.object fields, cs)
    | cs => (readString? cs).map fun (s, cs) => (.string s, cs)

/-- The value of a text that is one JSON value with nothing but blanks around it. No value is nested
deeper than its text is long. -/
def read? (text : String) : Option Json :=
  match readValue text.toList.length text.toList with
  | some (j, rest) => if rest.all isSpace then some j else none
  | none => none

/-- Other texts of JSON than those that are written here are read too. -/
example : read? " [\"\\ud83d\\ude00\" ]" = some (.array [.string "😀"]) := by cbv

example : read? "[\"\\ud83d\"]" = none ∧ read? "[\"a\",]" = none ∧ read? "[] []" = none := by
  refine ⟨?_, ?_, ?_⟩
  all_goals cbv

/-! ## Strings -/

theorem readChars_quote (cs : List Char) : readChars ('"' :: cs) = some ([], cs) := by
  rw [readChars, if_pos rfl]

theorem readChars_backslash {cs rest : List Char} {c : Char}
    (h : readEscape? cs = some (c, rest)) :
    readChars ('\\' :: cs) = (readChars rest).map fun (ds, rest) => (c :: ds, rest) := by
  rw [readChars, if_neg (by decide), if_pos rfl]
  split
  · rename_i hnone
    rw [h] at hnone
    cases hnone
  · rename_i hsome
    rw [h] at hsome
    cases hsome
    rfl

theorem readChars_plain {c : Char} (hquote : c ≠ '"') (hslash : c ≠ '\\')
    (hcontrol : ¬ c.toNat < 0x20) (cs : List Char) :
    readChars (c :: cs) = (readChars cs).map fun (ds, rest) => (c :: ds, rest) := by
  rw [readChars, if_neg hquote, if_neg hslash, if_neg hcontrol]

theorem readEscape?_letter {letter c : Char} (h : escape? letter = some c) (rest : List Char) :
    readEscape? (letter :: rest) = some (c, rest) := by
  have hu : letter ≠ 'u' := by
    intro hu
    subst hu
    cases h
  rw [readEscape?, if_neg hu, h]
  rfl

theorem hexDigit?_digitChar : ∀ d < 16, Text.hexDigit? (Nat.digitChar d) = some d := by decide

/-- A control that has no letter is written as its code point, of which two digits are zero. -/
theorem readEscape?_control {c : Char} (h : c.toNat < 0x20) (rest : List Char) :
    readEscape? ('u' :: '0' :: '0' :: Nat.digitChar (c.toNat / 16) ::
      Nat.digitChar (c.toNat % 16) :: rest) = some (c, rest) := by
  have hzero : Text.hexDigit? '0' = some 0 := by decide
  have hhigh := hexDigit?_digitChar (c.toNat / 16) (by omega)
  have hlow := hexDigit?_digitChar (c.toNat % 16) (by omega)
  have hunit : readCodeUnit? ('0' :: '0' :: Nat.digitChar (c.toNat / 16) ::
      Nat.digitChar (c.toNat % 16) :: rest) = some (c.toNat, rest) := by
    simp only [readCodeUnit?, List.mapM_cons, List.mapM_nil, hzero, hhigh, hlow]
    show some (16 * (16 * (16 * (16 * 0 + 0) + 0) + c.toNat / 16) + c.toNat % 16, rest) = _
    congr 2
    omega
  have hvalid : c.toNat.isValidChar := c.valid
  rw [readEscape?, if_pos rfl, readUnicode?, hunit]
  show (if c.toNat.isValidChar then some (Char.ofNat c.toNat, rest) else _) = _
  rw [if_pos hvalid, Char.ofNat_toNat]

/-- A character of a string is read back, however it was written. -/
theorem readChars_quoteChar (c : Char) (rest : List Char) :
    readChars (quoteChar c ++ rest) =
      (readChars rest).map fun (ds, rest) => (c :: ds, rest) := by
  have hletter {letter : Char} (h : escape? letter = some c) :
      readChars ('\\' :: letter :: rest) =
        (readChars rest).map fun (ds, rest) => (c :: ds, rest) :=
    readChars_backslash (readEscape?_letter h rest)
  unfold quoteChar
  split
  · rename_i hc
    subst hc
    exact hletter rfl
  split
  · rename_i hc
    subst hc
    exact hletter rfl
  split
  · rename_i hc
    subst hc
    exact hletter rfl
  split
  · rename_i hc
    subst hc
    exact hletter rfl
  split
  · rename_i hc
    subst hc
    exact hletter rfl
  split
  · rename_i hc
    subst hc
    exact hletter rfl
  split
  · rename_i hc
    subst hc
    exact hletter rfl
  split
  · rename_i hcontrol
    exact readChars_backslash (readEscape?_control hcontrol rest)
  · rename_i hquote hslash _ _ _ _ _ hcontrol
    exact readChars_plain hquote hslash hcontrol rest

theorem readString?_quote (s : String) (rest : List Char) :
    readString? (quote s ++ rest) = some (s, rest) := by
  have hchars (cs : List Char) :
      readChars (cs.flatMap quoteChar ++ '"' :: rest) = some (cs, rest) := by
    induction cs with
    | nil => exact readChars_quote rest
    | cons c cs ih =>
      rw [List.flatMap_cons, List.append_assoc, readChars_quoteChar, ih]
      rfl
  rw [quote, List.cons_append, List.append_assoc, List.singleton_append, readString?,
    hchars s.toList]
  show some (String.ofList s.toList, rest) = some (s, rest)
  rw [String.ofList_toList]

/-! ## Parts -/

theorem skipSpace_append {gap : List Char} (h : ∀ c ∈ gap, isSpace c = true) (cs : List Char) :
    skipSpace (gap ++ cs) = skipSpace cs := List.dropWhile_append_of_pos h

theorem skipSpace_cons {c : Char} (h : isSpace c = false) (cs : List Char) :
    skipSpace (c :: cs) = c :: cs := List.dropWhile_cons_of_neg (by simp [h])

/-- A reader that reads back what was written of these items, with blanks in front of it. -/
def ReadsBack (part : Reader α) (written : α → List Char) (items : List α) : Prop :=
  ∀ item ∈ items, ∀ gap : List Char, (∀ c ∈ gap, isSpace c = true) → ∀ rest,
    part (gap ++ (written item ++ rest)) = some (item, rest)

section Steps

variable {part : Reader α} {close : Char} {item : α} {cs after rest : List Char}

theorem readParts_last (hitem : part cs = some (item, after))
    (hafter : skipSpace after = close :: rest) (limit : Nat) :
    readParts close part (limit + 1) cs = some ([item], rest) := by
  simp [readParts, hitem, hafter]

theorem readParts_more (hitem : part cs = some (item, after))
    (hafter : skipSpace after = ',' :: rest) (hcomma : ',' ≠ close) {limit : Nat} {items : List α}
    {behind : List Char} (hmore : readParts close part limit rest = some (items, behind)) :
    readParts close part (limit + 1) cs = some (item :: items, behind) := by
  simp [readParts, hitem, hafter, hcomma, hmore]

end Steps

/-- Written parts are read up to the bracket that closes them. -/
theorem readParts_intercalate {part : Reader α} {written : α → List Char} {items : List α}
    (hpart : ReadsBack part written items) (hne : items ≠ []) {close : Char} (hcomma : ',' ≠ close)
    (hclose : isSpace close = false) {margin last : List Char}
    (hmargin : ∀ c ∈ margin, isSpace c = true) (hlast : ∀ c ∈ last, isSpace c = true)
    {limit : Nat} (hlimit : items.length ≤ limit) {gap : List Char}
    (hgap : ∀ c ∈ gap, isSpace c = true) (rest : List Char) :
    readParts close part limit
        (gap ++ ((',' :: margin).intercalate (items.map written) ++ (last ++ close :: rest))) =
      some (items, rest) := by
  induction items generalizing limit gap with
  | nil => exact absurd rfl hne
  | cons item items ih =>
    obtain ⟨limit, rfl⟩ := Nat.exists_eq_succ_of_ne_zero (Nat.ne_zero_of_lt hlimit)
    have hitem := hpart item List.mem_cons_self gap hgap
    cases items with
    | nil =>
      rw [List.map_singleton, List.intercalate_singleton]
      refine readParts_last (hitem _) ?_ limit
      rw [skipSpace_append hlast, skipSpace_cons hclose]
    | cons next items =>
      have hmore := ih (fun x hx => hpart x (List.mem_cons_of_mem item hx)) (List.cons_ne_nil _ _)
        (Nat.le_of_succ_le_succ hlimit) hmargin
      rw [List.map_cons, List.map_cons, List.intercalate_cons_cons, ← List.map_cons,
        List.append_assoc, List.append_assoc]
      refine readParts_more (hitem _) ?_ hcomma hmore
      rw [List.cons_append, skipSpace_cons rfl]

section Lengths

variable {between : List Char} {parts : List (List Char)}

theorem exists_intercalate_cons (between part : List Char) (parts : List (List Char)) :
    ∃ tail, between.intercalate (part :: parts) = part ++ tail := by
  cases parts with
  | nil => exact ⟨[], by rw [List.intercalate_singleton, List.append_nil]⟩
  | cons next parts =>
    rw [List.intercalate_cons_cons, List.append_assoc]
    exact ⟨_, rfl⟩

theorem length_le_length_intercalate (h : ∀ part ∈ parts, part ≠ []) :
    parts.length ≤ (between.intercalate parts).length := by
  induction parts with
  | nil => exact Nat.zero_le _
  | cons part parts ih =>
    obtain ⟨hpart, hparts⟩ := List.forall_mem_cons.mp h
    have hpos := List.length_pos_iff.mpr hpart
    cases parts with
    | nil =>
      rw [List.intercalate_singleton]
      exact hpos
    | cons next parts =>
      have hmore := ih hparts
      rw [List.intercalate_cons_cons, List.length_append, List.length_append, List.length_cons]
      omega

theorem length_le_of_mem_intercalate {part : List Char} (h : part ∈ parts) :
    part.length ≤ (between.intercalate parts).length := by
  induction parts with
  | nil => cases h
  | cons first parts ih =>
    cases parts with
    | nil =>
      rw [List.intercalate_singleton]
      exact Nat.le_of_eq (congrArg List.length (List.mem_singleton.mp h))
    | cons next parts =>
      rw [List.intercalate_cons_cons, List.length_append, List.length_append]
      rcases List.mem_cons.mp h with rfl | hmem
      · omega
      · have := ih hmem
        omega

end Lengths

/-- A layout that sets parts apart by blanks alone. -/
structure Layout.Blank (l : Layout) : Prop where
  margin : ∀ depth, ∀ c ∈ l.margin depth, isSpace c = true
  afterColon : ∀ c ∈ l.afterColon, isSpace c = true

theorem Layout.blank_compact : Layout.compact.Blank where
  margin := fun _ => List.forall_mem_nil _
  afterColon := List.forall_mem_nil _

theorem Layout.blank_pretty : Layout.pretty.Blank where
  margin := fun depth => by
    refine List.forall_mem_cons.mpr ⟨rfl, fun c hc => ?_⟩
    rw [List.eq_of_mem_replicate hc]
    rfl
  afterColon := List.forall_mem_singleton.mpr rfl

theorem length_lt_length_enclose {l : Layout} {depth : Nat} {opening closing : Char}
    {parts : List (List Char)} {part : List Char} (h : part ∈ parts) :
    part.length < (enclose l depth opening closing parts).length := by
  have hle : part.length ≤ ((',' :: l.margin (depth + 1)).intercalate parts).length :=
    length_le_of_mem_intercalate h
  cases parts with
  | nil => cases h
  | cons first parts =>
    simp only [enclose, List.length_cons, List.length_append]
    omega

/-- What is between written brackets is read behind the opening one. -/
theorem readEnclosed_enclose {l : Layout} (hl : l.Blank) (depth : Nat) (opening : Char)
    {close : Char} (hcomma : ',' ≠ close) (hclose : isSpace close = false) {part : Reader α}
    {written : α → List Char} {items : List α} (hpart : ReadsBack part written items)
    (hstart : ∀ item ∈ items, ∃ c tail, written item = c :: tail ∧ isSpace c = false ∧ c ≠ close)
    (rest : List Char) :
    ∃ cs, enclose l depth opening close (items.map written) ++ rest = opening :: cs ∧
      readEnclosed close part cs = some (items, rest) := by
  cases items with
  | nil =>
    refine ⟨close :: rest, rfl, ?_⟩
    rw [readEnclosed, skipSpace_cons hclose]
    exact if_pos rfl
  | cons item items =>
    let inner := (',' :: l.margin (depth + 1)).intercalate ((item :: items).map written)
    refine ⟨l.margin (depth + 1) ++ (inner ++ (l.margin depth ++ close :: rest)), ?_, ?_⟩
    · simp only [List.map_cons, enclose, inner, List.cons_append, List.append_assoc,
        List.nil_append]
    · obtain ⟨c, tail, hitem, hc, hne⟩ := hstart item List.mem_cons_self
      obtain ⟨more, hinner⟩ : ∃ more, inner = c :: more := by
        obtain ⟨more, hmore⟩ := exists_intercalate_cons (',' :: l.margin (depth + 1))
          (written item) (items.map written)
        exact ⟨tail ++ more, by rw [← List.cons_append, ← hitem, ← hmore]; rfl⟩
      have hlength : (item :: items).length ≤ inner.length := by
        rw [← List.length_map written]
        refine length_le_length_intercalate fun part hpart => ?_
        obtain ⟨other, hother, rfl⟩ := List.mem_map.mp hpart
        obtain ⟨d, behind, hwritten, -⟩ := hstart other hother
        rw [hwritten]
        exact List.cons_ne_nil d behind
      have hlimit : (item :: items).length ≤
          (more ++ (l.margin depth ++ close :: rest)).length + 1 := by
        simp only [hinner, List.length_cons, List.length_append] at hlength ⊢
        omega
      have hread := readParts_intercalate hpart (List.cons_ne_nil item items) hcomma hclose
        (hl.margin (depth + 1)) (hl.margin depth) hlimit (List.forall_mem_nil _) rest
      rw [List.nil_append] at hread
      change readParts close part _ (inner ++ _) = _ at hread
      rw [hinner] at hread
      rw [readEnclosed, skipSpace_append (hl.margin _), hinner, List.cons_append,
        skipSpace_cons hc]
      show (if c = close then _ else readParts close part _ _) = _
      rw [if_neg hne]
      exact hread

/-! ## Values -/

/-- What holds of a value if it holds of all its parts holds of every value. -/
theorem induct {P : Json → Prop} (string : ∀ s, P (.string s))
    (array : ∀ items, (∀ item ∈ items, P item) → P (.array items))
    (object : ∀ fields, (∀ field ∈ fields, P field.2) → P (.object fields)) : ∀ j, P j
  | .string s => string s
  | .array items => array items fun item _ => induct string array object item
  | .object fields => object fields fun field _ => induct string array object field.2
termination_by j => sizeOf j
decreasing_by
  · have := List.sizeOf_lt_of_mem ‹item ∈ items›
    simp only [Json.array.sizeOf_spec]
    omega
  · have := List.sizeOf_lt_of_mem ‹field ∈ fields›
    have : sizeOf field.2 < sizeOf field := by
      obtain ⟨name, value⟩ := field
      show sizeOf value < 1 + sizeOf name + sizeOf value
      omega
    simp only [Json.object.sizeOf_spec]
    omega

theorem writeItems_eq_map (l : Layout) (depth : Nat) (items : List Json) :
    writeItems l depth items = items.map (write l depth) := by
  induction items with
  | nil => rw [writeItems, List.map_nil]
  | cons item items ih => rw [writeItems, ih, List.map_cons]

/-- One field of an object in written form. -/
def writtenField (l : Layout) (depth : Nat) (field : String × Json) : List Char :=
  quote field.1 ++ ':' :: l.afterColon ++ write l depth field.2

theorem writeFields_eq_map (l : Layout) (depth : Nat) (fields : List (String × Json)) :
    writeFields l depth fields = fields.map (writtenField l depth) := by
  induction fields with
  | nil => rw [writeFields, List.map_nil]
  | cons field fields ih => rw [writeFields, ih, List.map_cons, writtenField]

/-- A written value starts with a quote or an opening bracket. -/
theorem write_eq_cons (l : Layout) (depth : Nat) (j : Json) :
    ∃ c tail, write l depth j = c :: tail ∧ isSpace c = false ∧ c ≠ ']' := by
  cases j with
  | string s =>
    rw [write]
    exact ⟨'"', _, rfl, rfl, by decide⟩
  | array items =>
    rw [write]
    cases writeItems l (depth + 1) items with
    | nil => exact ⟨'[', _, rfl, rfl, by decide⟩
    | cons part parts => exact ⟨'[', _, rfl, rfl, by decide⟩
  | object fields =>
    rw [write]
    cases writeFields l (depth + 1) fields with
    | nil => exact ⟨'{', _, rfl, rfl, by decide⟩
    | cons part parts => exact ⟨'{', _, rfl, rfl, by decide⟩

section Steps

variable {cs after behind rest : List Char} {limit : Nat}

theorem readField_eq {value : Reader Json} {key : String} {item : Json}
    (hkey : readString? (skipSpace cs) = some (key, after))
    (hcolon : skipSpace after = ':' :: behind)
    (hvalue : value behind = some (item, rest)) :
    readField value cs = some ((key, item), rest) := by
  simp [readField, hkey, hcolon, hvalue]

theorem readValue_string {s : String} (hquote : skipSpace cs = '"' :: after)
    (hstring : readString? ('"' :: after) = some (s, rest)) :
    readValue (limit + 1) cs = some (.string s, rest) := by
  simp [readValue, hquote, hstring]

theorem readValue_array {items : List Json} (hopen : skipSpace cs = '[' :: after)
    (hitems : readEnclosed ']' (readValue limit) after = some (items, rest)) :
    readValue (limit + 1) cs = some (.array items, rest) := by
  simp [readValue, hopen, hitems]

theorem readValue_object {fields : List (String × Json)} (hopen : skipSpace cs = '{' :: after)
    (hfields : readEnclosed '}' (readField (readValue limit)) after = some (fields, rest)) :
    readValue (limit + 1) cs = some (.object fields, rest) := by
  simp [readValue, hopen, hfields]

end Steps

/-- A field is read back if its value is. -/
theorem readsBack_field {l : Layout} (hl : l.Blank) {depth limit : Nat}
    {fields : List (String × Json)}
    (hvalues : ∀ field ∈ fields, ReadsBack (readValue limit) (write l depth) [field.2]) :
    ReadsBack (readField (readValue limit)) (writtenField l depth) fields := by
  intro field hfield gap hgap rest
  have hvalue := hvalues field hfield field.2 (List.mem_singleton_self _) l.afterColon hl.afterColon
  have hkey : skipSpace (gap ++ (writtenField l depth field ++ rest)) =
      quote field.1 ++ ':' :: (l.afterColon ++ (write l depth field.2 ++ rest)) := by
    rw [skipSpace_append hgap, writtenField, quote, List.cons_append, List.cons_append,
      List.cons_append, skipSpace_cons rfl]
    simp only [List.cons_append, List.append_assoc]
  refine readField_eq ?_ (skipSpace_cons rfl _) (hvalue rest)
  rw [hkey, readString?_quote]

theorem exists_succ_of_length_write_le {l : Layout} {depth limit : Nat} {j : Json}
    (h : (write l depth j).length ≤ limit) : ∃ n, limit = n + 1 := by
  obtain ⟨c, tail, hwrite, -⟩ := write_eq_cons l depth j
  rw [hwrite, List.length_cons] at h
  exact Nat.exists_eq_succ_of_ne_zero (Nat.ne_zero_of_lt h)

/-- **What is written is read back**, and nothing of the text behind it is used. -/
theorem readValue_write {l : Layout} (hl : l.Blank) (j : Json) :
    ∀ {depth limit : Nat}, (write l depth j).length ≤ limit →
      ReadsBack (readValue limit) (write l depth) [j] := by
  induction j using induct with
  | string s =>
    intro depth limit hlimit j hj gap hgap rest
    cases List.mem_singleton.mp hj
    obtain ⟨limit, rfl⟩ := exists_succ_of_length_write_le hlimit
    have hquote : skipSpace (gap ++ (write l depth (.string s) ++ rest)) =
        '"' :: (s.toList.flatMap quoteChar ++ ['"'] ++ rest) := by
      rw [skipSpace_append hgap, write, quote, List.cons_append, skipSpace_cons rfl]
    exact readValue_string hquote (readString?_quote s rest)
  | array items ih =>
    intro depth limit hlimit j hj gap hgap rest
    cases List.mem_singleton.mp hj
    obtain ⟨limit, rfl⟩ := exists_succ_of_length_write_le hlimit
    rw [write, writeItems_eq_map] at hlimit ⊢
    have hitems : ReadsBack (readValue limit) (write l (depth + 1)) items := by
      intro item hitem
      have hlt := Nat.lt_of_lt_of_le (length_lt_length_enclose (List.mem_map_of_mem hitem)) hlimit
      exact ih item hitem (Nat.le_of_lt_succ hlt) item (List.mem_singleton_self item)
    have hstart : ∀ item ∈ items, ∃ c tail,
        write l (depth + 1) item = c :: tail ∧ isSpace c = false ∧ c ≠ ']' :=
      fun item _ => write_eq_cons l (depth + 1) item
    obtain ⟨cs, hcs, hread⟩ := readEnclosed_enclose hl depth '[' (by decide) (by decide)
      hitems hstart rest
    refine readValue_array ?_ hread
    rw [skipSpace_append hgap, hcs, skipSpace_cons rfl]
  | object fields ih =>
    intro depth limit hlimit j hj gap hgap rest
    cases List.mem_singleton.mp hj
    obtain ⟨limit, rfl⟩ := exists_succ_of_length_write_le hlimit
    rw [write, writeFields_eq_map] at hlimit ⊢
    have hfields : ReadsBack (readField (readValue limit)) (writtenField l (depth + 1)) fields := by
      refine readsBack_field hl fun field hfield => ih field hfield ?_
      have hlt := Nat.lt_of_lt_of_le (length_lt_length_enclose (List.mem_map_of_mem hfield)) hlimit
      rw [writtenField, List.length_append] at hlt
      omega
    have hstart : ∀ field ∈ fields, ∃ c tail,
        writtenField l (depth + 1) field = c :: tail ∧ isSpace c = false ∧ c ≠ '}' :=
      fun field _ => ⟨'"', _, rfl, rfl, by decide⟩
    obtain ⟨cs, hcs, hread⟩ := readEnclosed_enclose hl depth '{' (by decide) (by decide)
      hfields hstart rest
    refine readValue_object ?_ hread
    rw [skipSpace_append hgap, hcs, skipSpace_cons rfl]

/-- A text that was written is read as the value that was written, also with blanks behind it. -/
theorem read?_write {l : Layout} (hl : l.Blank) (j : Json) {rest : List Char}
    (hrest : ∀ c ∈ rest, isSpace c = true) :
    read? (.ofList (write l 0 j ++ rest)) = some j := by
  have hlength : (write l 0 j).length ≤ (write l 0 j ++ rest).length := by
    rw [List.length_append]
    omega
  have hread := readValue_write hl j hlength j (List.mem_singleton_self j) []
    (List.forall_mem_nil _) rest
  rw [List.nil_append] at hread
  rw [read?, String.toList_ofList, hread]
  exact if_pos (List.all_eq_true.mpr hrest)

end Bottleneck.Report.Json
