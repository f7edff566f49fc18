import SchedulerPolicy.Keyed
import SchedulerPolicy.Value

/-!
# Reading and writing the schema

A type of the schema says once how it is read and how it is written (`Schema`). It is read from
anything that offers the views of `Readable`, of which there are three, and they differ in what they
let pass:

* `Value`: a value that is already typed. A text is a text and a number a number.
* `Buffered`: a value under the rules of a section whose keys are shared between several types. Null
  is no list and no record there, but a record may be given by position.
* a node of a YAML document, which still has its notation, so that a text field takes any scalar.
  That instance lives with the nodes.

Writing always gives a `Value`. Fields are written in the order of their declaration, and a field
that holds nothing is left out.
-/

namespace SchedulerPolicy

/-- Why something does not fit the type that it is read as. -/
inductive DecodeError where
  /-- A scalar, a list or a record stands where another of them is due. -/
  | mismatch
  /-- A field that has to be there is not. -/
  | missing (field : String)
  /-- A field, or a key of a mapping, is there twice. -/
  | repeated (field : String)
  /-- A number does not fit its range. -/
  | outOfRange
  /-- A tag stands where no tag can be kept. -/
  | unexpectedTag
deriving DecidableEq, Repr

/-- What is read, or why it cannot be. -/
abbrev Decoded (α : Type) := Except DecodeError α

/-- The views through which the schema looks at what it reads. -/
class Readable (ν : Type) where
  /-- What an optional field looks at, and `none` when that stands for absence. -/
  present? : ν → Decoded (Option ν)
  /-- A text. -/
  text : ν → Decoded String
  /-- A truth value. -/
  flag : ν → Decoded Bool
  /-- A number from 0 to 4294967295. -/
  count : ν → Decoded UInt32
  /-- The items of a list. -/
  items : ν → Decoded (List ν)
  /-- The entries of a mapping from texts, or of a record with fields of the given names. -/
  entries : List String → ν → Decoded (List (String × ν))
  /-- A value without tags, kept as it is. -/
  content : ν → Decoded Value

/-- The number as an unsigned 32-bit count. -/
def count? (n : Int) : Decoded UInt32 :=
  if 0 ≤ n ∧ n ≤ 0xffffffff then .ok (UInt32.ofNat n.toNat) else .error .outOfRange

/-! ### Typed values -/

namespace Value

/-- The text of a text value. -/
def readText (v : Value) : Decoded String :=
  match v.untag with
  | .string s => .ok s
  | _ => .error .mismatch

/-- The entries of a mapping whose keys are all texts. -/
def textEntries : List (Value × Value) → Decoded (List (String × Value))
  | [] => .ok []
  | (k, v) :: rest => do
    let key ← k.readText
    return (key, v) :: (← textEntries rest)

/-- Tags are passed over, null is the empty list or record, and nothing is converted. -/
instance : Readable Value where
  present?
    | .null => .ok none
    | v => .ok (some v)
  text := readText
  flag v :=
    match v.untag with
    | .bool b => .ok b
    | _ => .error .mismatch
  count v :=
    match v.untag with
    | .int n => count? n
    | _ => .error .mismatch
  items v :=
    match v.untag with
    | .null => .ok []
    | .seq vs => .ok vs
    | _ => .error .mismatch
  entries _ v :=
    match v.untag with
    | .null => .ok []
    | .map es => textEntries es
    | _ => .error .mismatch
  content v := if v.isTagFree then .ok v else .error .unexpectedTag

end Value

/-! ### Buffered values -/

/-- A value without tags, read under the rules of a section with shared keys. -/
structure Buffered where
  value : Value

namespace Buffered

/-- The field that a key names: a text by itself, a number by its position. A number past the last
field names none. -/
def fieldName (names : List String) : Value → Decoded (Option String)
  | .string s => .ok (some s)
  | .int n => if n < 0 then .error .mismatch else .ok names[n.toNat]?
  | _ => .error .mismatch

/-- The entries of a mapping whose keys name fields. -/
def namedEntries (names : List String) : List (Value × Value) → Decoded (List (String × Buffered))
  | [] => .ok []
  | (k, v) :: rest => do
    let key ← fieldName names k
    let others ← namedEntries names rest
    return match key with
      | some key => (key, ⟨v⟩) :: others
      | none => others

/-- Null is absence for an optional field and nothing else; a record may be the list of its fields
in order, with the last ones left out. -/
instance : Readable Buffered where
  present?
    | ⟨.null⟩ => .ok none
    | v => .ok (some v)
  text
    | ⟨.string s⟩ => .ok s
    | _ => .error .mismatch
  flag
    | ⟨.bool b⟩ => .ok b
    | _ => .error .mismatch
  count
    | ⟨.int n⟩ => count? n
    | _ => .error .mismatch
  items
    | ⟨.seq vs⟩ => .ok (vs.map Buffered.mk)
    | _ => .error .mismatch
  entries names
    | ⟨.map es⟩ => namedEntries names es
    | ⟨.seq vs⟩ =>
      if names.length < vs.length then .error .mismatch
      else .ok (names.zip (vs.map Buffered.mk))
    | _ => .error .mismatch
  content v := .ok v.value

end Buffered

/-! ### Types of the schema -/

/-- A type that is read from anything readable and written as a value. -/
class Schema (α : Type) where
  read : {ν : Type} → [Readable ν] → ν → Decoded α
  write : α → Value

export Schema (read write)

instance : Schema String where
  read := Readable.text
  write := .string

instance : Schema Bool where
  read := Readable.flag
  write := .bool

instance : Schema UInt32 where
  read := Readable.count
  write n := .int n.toNat

/-- Reads every member of a list, up to the first that does not fit. -/
def readAll {ν α : Type} [Readable ν] [Schema α] : List ν → Decoded (List α)
  | [] => .ok []
  | x :: xs => do
    let y ← read x
    return y :: (← readAll xs)

instance {α : Type} [Schema α] : Schema (List α) where
  read x := do readAll (← Readable.items x)
  write xs := .seq (xs.map write)

/-- Reads the value of every entry; of entries with one key the last counts. -/
def readEntries {ν α : Type} [Readable ν] [Schema α] (acc : Keyed α) :
    List (String × ν) → Decoded (Keyed α)
  | [] => .ok acc
  | (key, x) :: rest => do
    let y ← read x
    readEntries (acc.insert key y) rest

instance {α : Type} [Schema α] : Schema (Keyed α) where
  read x := do readEntries ∅ (← Readable.entries [] x)
  write m := .record (m.entries.map fun e => (e.1, write e.2))

/-! ### Records -/

/-- The entries of a record that is being read. -/
structure Fields (ν : Type) where
  entries : List (String × ν)

namespace Fields

variable {ν : Type}

/-- Whether a name stands in more than one entry. -/
def repeats (es : List (String × ν)) (name : String) : Bool :=
  1 < (es.filter fun e => e.1 == name).length

/-- The entries of a record with fields of the given names. No field may be there twice; entries
under other names are left to the caller. -/
def ofReadable [Readable ν] (names : List String) (x : ν) : Decoded (Fields ν) := do
  let es ← Readable.entries names x
  match names.find? (repeats es) with
  | some name => .error (.repeated name)
  | none => return ⟨es⟩

/-- What stands under a name. -/
def find? (fs : Fields ν) (name : String) : Option ν := fs.entries.lookup name

/-- A field that may be absent. -/
def optional [Readable ν] {α : Type} [Schema α] (fs : Fields ν) (name : String) :
    Decoded (Option α) :=
  match fs.find? name with
  | none => .ok none
  | some x => do
    match ← Readable.present? x with
    | none => return none
    | some y => return some (← read y)

/-- A field with a value to fall back on when it is absent. -/
def getD [Readable ν] {α : Type} [Schema α] (fs : Fields ν) (name : String) (fallback : α) :
    Decoded α :=
  match fs.find? name with
  | none => .ok fallback
  | some x => read x

/-- A field that has to be there. -/
def required [Readable ν] {α : Type} [Schema α] (fs : Fields ν) (name : String) : Decoded α :=
  match fs.find? name with
  | none => .error (.missing name)
  | some x => read x

/-- Keeps the entries under names other than the given ones, as values without tags. -/
def contentOf [Readable ν] (names : List String) :
    List (String × ν) → Decoded (List (String × Value))
  | [] => .ok []
  | (key, x) :: rest => do
    if names.contains key then contentOf names rest
    else
      let v ← Readable.content x
      return (key, v) :: (← contentOf names rest)

/-- The entries under names other than the given ones. -/
def others [Readable ν] (names : List String) (fs : Fields ν) : Decoded (List (String × Value)) :=
  contentOf names fs.entries

/-- The entries under names other than the given ones as a map of kept values. No mapping inside a
kept value may have a key twice; of two kept values under one key the last counts. -/
def extra [Readable ν] (names : List String) (fs : Fields ν) : Decoded (Keyed Value) := do
  let es ← fs.others names
  if es.all fun e => e.2.hasDistinctKeys then return Keyed.ofList es
  else .error (.repeated "")

end Fields

/-- A field in its place, whatever it holds. -/
def field {α : Type} [Schema α] (name : String) (x : α) : List (String × Value) :=
  [(name, write x)]

/-- A field that is left out when it holds nothing. -/
def field? {α : Type} [Schema α] (name : String) : Option α → List (String × Value)
  | none => []
  | some x => [(name, write x)]

/-- A field that is left out under a condition. -/
def fieldUnless {α : Type} [Schema α] (name : String) (omitted : Bool) (x : α) :
    List (String × Value) :=
  if omitted then [] else [(name, write x)]

end SchedulerPolicy
