import Bottleneck.Failure
import Bottleneck.Label.Basic

/-!
Reading a label block, the text between the braces of a line. A block is a sequence of pairs
`name="value"` separated by commas; blanks may stand around every part and a comma may follow the
last pair. In a value a backslash takes the next character as it is, and `\n` is a line feed.
-/

namespace Bottleneck.Label

open Text (trimStart length_trimStart_le)

/-- Why a block is refused. -/
inductive BlockError where
  /-- A pair does not start with a label name. -/
  | nameMissing
  /-- The wanted character is not the next one; at the end of the block there is no next one. -/
  | expected (wanted : Char) (found : Option Char)
  | unterminatedValue
  /-- The block ends right after a backslash. -/
  | danglingEscape
  /-- A pair is followed neither by a comma nor by the end of the block. -/
  | unexpected (found : Char)
deriving DecidableEq, Repr

def BlockError.message : BlockError → String
  | .nameMissing => "label name missing"
  | .expected wanted (some found) =>
    "expected '" ++ wanted.toString ++ "' in label block, found '" ++ found.toString ++ "'"
  | .expected wanted none =>
    "expected '" ++ wanted.toString ++ "' in label block, found end of input"
  | .unterminatedValue => "unterminated label value"
  | .danglingEscape => "dangling escape in label value"
  | .unexpected found => "unexpected '" ++ found.toString ++ "' after label value"

/-- A refused block is malformed input. -/
def BlockError.failure (e : BlockError) : Failure := .malformed e.message

/-- The longest label name in front, and the text after it. -/
def readName (cs : List Char) : Except BlockError (List Char × List Char) :=
  match Text.readName? isNameStart isNamePart cs with
  | some (name, rest) => .ok (name, rest)
  | none => .error .nameMissing

/-- The text after the wanted character, in front of which blanks may stand. -/
def expect (wanted : Char) (cs : List Char) : Except BlockError (List Char) :=
  match trimStart cs with
  | [] => .error (.expected wanted none)
  | c :: cs => if c = wanted then .ok cs else .error (.expected wanted (some c))

/-- What a backslash makes of the character after it. -/
def unescapeChar (c : Char) : Char := if c = 'n' then '\n' else c

/-- The value up to its closing quote, and the text after the quote. The first argument holds the
characters read so far, the last one first. -/
def readValue (read : List Char) : List Char → Except BlockError (List Char × List Char)
  | [] => .error .unterminatedValue
  | '"' :: cs => .ok (read.reverse, cs)
  | ['\\'] => .error .danglingEscape
  | '\\' :: c :: cs => readValue (unescapeChar c :: read) cs
  | c :: cs => readValue (c :: read) cs

/-- One pair, and the text after it. -/
def readPair (cs : List Char) : Except BlockError (Label × List Char) := do
  let (name, cs) ← readName cs
  let cs ← expect '=' cs
  let cs ← expect '"' cs
  let (value, cs) ← readValue [] cs
  return (⟨.ofList name, .ofList value⟩, cs)

/-- The text after the comma that follows a pair. The last pair needs none. -/
def skipComma (cs : List Char) : Except BlockError (List Char) :=
  match trimStart cs with
  | [] => .ok []
  | c :: cs => if c = ',' then .ok cs else .error (.unexpected c)

/-- One pair with its comma, and the text after them; nothing if only blanks are left. -/
def readItem (cs : List Char) : Except BlockError (Option (Label × List Char)) :=
  match trimStart cs with
  | [] => .ok none
  | c :: cs => do
    let (label, cs) ← readPair (c :: cs)
    return some (label, ← skipComma cs)

/-! ## What a reader that succeeds has read -/

theorem readName_eq_ok_iff {cs name rest : List Char} :
    readName cs = .ok (name, rest) ↔
      Text.readName? isNameStart isNamePart cs = some (name, rest) := by
  unfold readName
  split
  · rename_i hname
    simp [hname]
  · rename_i hname
    simp [hname]

theorem readPair_eq_ok_iff {cs rest : List Char} {label : Label} :
    readPair cs = .ok (label, rest) ↔
      ∃ name cs₁ cs₂ cs₃ value, readName cs = .ok (name, cs₁) ∧ expect '=' cs₁ = .ok cs₂ ∧
        expect '"' cs₂ = .ok cs₃ ∧ readValue [] cs₃ = .ok (value, rest) ∧
        label = ⟨.ofList name, .ofList value⟩ := by
  constructor
  · intro h
    simp only [readPair, bind, Except.bind] at h
    split at h
    · cases h
    rename_i hname
    split at h
    · cases h
    rename_i hequals
    split at h
    · cases h
    rename_i hquote
    split at h
    · cases h
    rename_i hvalue
    cases h
    exact ⟨_, _, _, _, _, hname, hequals, hquote, hvalue, rfl⟩
  · rintro ⟨name, cs₁, cs₂, cs₃, value, hname, hequals, hquote, hvalue, rfl⟩
    simp only [readPair, bind, Except.bind, hname, hequals, hquote, hvalue]
    rfl

theorem readItem_eq_none_iff {cs : List Char} : readItem cs = .ok none ↔ trimStart cs = [] := by
  unfold readItem
  cases trimStart cs with
  | nil => simp
  | cons c cs =>
    simp only [bind, Except.bind, reduceCtorEq, iff_false]
    intro h
    split at h
    · cases h
    split at h
    · cases h
    · cases h

theorem readItem_eq_some_iff {cs rest : List Char} {label : Label} :
    readItem cs = .ok (some (label, rest)) ↔
      ∃ after, readPair (trimStart cs) = .ok (label, after) ∧ skipComma after = .ok rest := by
  unfold readItem
  cases trimStart cs with
  | nil => simp [readPair, readName, Text.readName?, bind, Except.bind]
  | cons c cs =>
    constructor
    · intro h
      simp only [bind, Except.bind] at h
      split at h
      · cases h
      rename_i hpair
      split at h
      · cases h
      rename_i hcomma
      cases h
      exact ⟨_, hpair, hcomma⟩
    · rintro ⟨after, hpair, hcomma⟩
      simp only [hpair, bind, Except.bind, hcomma]
      rfl

theorem readItem_eq_error {cs after : List Char} {label : Label} {e : BlockError}
    (hpair : readPair (trimStart cs) = .ok (label, after)) (hcomma : skipComma after = .error e) :
    readItem cs = .error e := by
  unfold readItem
  cases hcs : trimStart cs with
  | nil =>
    rw [hcs] at hpair
    cases hpair
  | cons c cs =>
    rw [hcs] at hpair
    simp only [hpair, bind, Except.bind, hcomma]

/-! ## An item takes up some of the text -/

theorem length_of_readName {cs name rest : List Char} (h : readName cs = .ok (name, rest)) :
    rest.length < cs.length := Text.length_of_readName? (readName_eq_ok_iff.mp h)

theorem length_of_expect {wanted : Char} {cs rest : List Char} (h : expect wanted cs = .ok rest) :
    rest.length < cs.length := by
  have hle := length_trimStart_le cs
  unfold expect at h
  split at h
  · cases h
  · rename_i hc
    rw [hc, List.length_cons] at hle
    split at h
    · cases h
      omega
    · cases h

theorem length_of_readValue {read cs value rest : List Char}
    (h : readValue read cs = .ok (value, rest)) : rest.length < cs.length := by
  fun_induction readValue read cs with
  | case1 => cases h
  | case2 => cases h; simp
  | case3 => cases h
  | case4 read c cs ih => have := ih h; simp only [List.length_cons]; omega
  | case5 read c cs _ _ _ ih => have := ih h; simp only [List.length_cons]; omega

theorem length_of_readPair {cs rest : List Char} {label : Label}
    (h : readPair cs = .ok (label, rest)) : rest.length < cs.length := by
  obtain ⟨name, cs₁, cs₂, cs₃, value, hname, hequals, hquote, hvalue, -⟩ := readPair_eq_ok_iff.mp h
  have := length_of_readName hname
  have := length_of_expect hequals
  have := length_of_expect hquote
  have := length_of_readValue hvalue
  omega

theorem length_of_skipComma {cs rest : List Char} (h : skipComma cs = .ok rest) :
    rest.length ≤ cs.length := by
  have hle := length_trimStart_le cs
  unfold skipComma at h
  split at h
  · cases h
    exact Nat.zero_le _
  · rename_i hc
    rw [hc, List.length_cons] at hle
    split at h
    · cases h
      omega
    · cases h

theorem length_of_readItem {cs rest : List Char} {label : Label}
    (h : readItem cs = .ok (some (label, rest))) : rest.length < cs.length := by
  obtain ⟨after, hpair, hcomma⟩ := readItem_eq_some_iff.mp h
  have := length_trimStart_le cs
  have := length_of_readPair hpair
  have := length_of_skipComma hcomma
  omega

/-! ## Whole blocks -/

/-- The pairs of a block in the order in which it lists them. -/
def readPairs (cs : List Char) : Except BlockError (List Label) :=
  match h : readItem cs with
  | .error e => .error e
  | .ok none => .ok []
  | .ok (some (label, rest)) =>
    have := length_of_readItem h
    (label :: ·) <$> readPairs rest
termination_by cs.length

/-- The labels of a block, sorted. -/
def parseBlock (raw : String) : Except BlockError (List Label) := sort <$> readPairs raw.toList

theorem readPairs_of_none {cs : List Char} (h : readItem cs = .ok none) :
    readPairs cs = .ok [] := by
  rw [readPairs]
  split <;> simp_all

theorem readPairs_of_some {cs rest : List Char} {label : Label}
    (h : readItem cs = .ok (some (label, rest))) :
    readPairs cs = (label :: ·) <$> readPairs rest := by
  rw [readPairs]
  split <;> simp_all

theorem readPairs_of_error {cs : List Char} {e : BlockError} (h : readItem cs = .error e) :
    readPairs cs = .error e := by
  rw [readPairs]
  split <;> simp_all

end Bottleneck.Label
