import SchedulerPolicy.Codec
import SchedulerPolicy.Yaml.Tree

/-!
# Reading YAML

A node is a tree whose aliases have given way to what they stand for. It is read in two ways.

* As a type of the schema, directly (`Yaml.read?`). A text field takes any scalar as it was
  written, a section without content is an empty one, and of the entries of a map under one key the
  last counts.
* As a value first (`Yaml.values?`). Then a plain scalar stands for what it spells, and no mapping
  may have a key twice.

A node is unreadable when it lies below more than 128 collections, or when its document refers to
anchors more than a hundred times as often as it has nodes.
-/

namespace SchedulerPolicy.Yaml

/-- A node of a document without aliases. -/
inductive Node where
  | scalar (tag : Option String) (s : Scalar)
  | seq (tag : Option String) (items : List Node)
  | map (tag : Option String) (entries : List (Node × Node))
  | unreadable

/-- The tags that say what kind of scalar is meant. -/
def coreTag (name : String) : String := "tag:yaml.org,2002:" ++ name

namespace Node

/-! ### Aliases -/

/-- How many collections may lie around each other. -/
def depthLimit : Nat := 128

/-- How many aliases are followed for each node of a document. -/
def aliasLimit : Nat := 100

/-- The tree that an alias stands for, if another alias may be followed; any other tree is itself.
-/
def target? (table : List (Nat × Tree)) : Tree → StateM Nat (Option Tree)
  | .alias anchor => do
    match ← get with
    | 0 => return none
    | left + 1 => set left; return table.lookup anchor
  | t => return some t

/-- The node of a tree at most `depth` collections deep. The state counts the aliases that may still
be followed. -/
def expand (table : List (Nat × Tree)) : (depth : Nat) → Tree → StateM Nat Node
  | 0, t => do
    match ← target? table t with
    | some (.scalar _ tag s) => return .scalar tag s
    | _ => return .unreadable
  | depth + 1, t => do
    match ← target? table t with
    | some (.scalar _ tag s) => return .scalar tag s
    | some (.seq _ tag items) => return .seq tag (← items.mapM (expand table depth))
    | some (.map _ tag entries) =>
      return .map tag (← entries.mapM fun e => do
        return (← expand table depth e.1, ← expand table depth e.2))
    | _ => return .unreadable

/-- The node of a document. -/
def ofTree (t : Tree) : Node :=
  ((expand t.anchored.reverse depthLimit t).run (aliasLimit * t.size)).1

/-! ### Values -/

/-- What a plain scalar stands for, as a value. Whole numbers have 64 bits. -/
def plainValue (text : String) : Decoded Value :=
  match Yaml.plain text with
  | .null => .ok .null
  | .bool b => .ok (.bool b)
  | .int n =>
    if -0x8000000000000000 ≤ n ∧ n ≤ 0xffffffffffffffff then .ok (.int n)
    else .error .outOfRange
  | .float x => .ok (.float x)
  | .text => .ok (.string text)

/-- What a scalar without a tag stands for. -/
def untaggedValue (s : Scalar) : Decoded Value :=
  if s.isPlain then plainValue s.text else .ok (.string s.text)

/-- What a scalar with a tag of the language stands for: a tag that names a kind of scalar enforces
it, and any other makes a text of it. -/
def taggedValue (tag : String) (s : Scalar) : Decoded Value :=
  let orMismatch (v : Option Value) : Decoded Value :=
    match v with
    | some v => .ok v
    | none => .error .mismatch
  if tag == coreTag "bool" then orMismatch ((bool? s.text).map .bool)
  else if tag == coreTag "int" then
    if (int? s.text.toList).isSome then plainValue s.text else .error .mismatch
  else if tag == coreTag "float" then orMismatch ((float? s.text).map .float)
  else if tag == coreTag "null" then (if isNull s.text then .ok .null else .error .mismatch)
  else .ok (.string s.text)

/-- The name of an application's own tag. -/
def ownTag? (tag : Option String) : Option String :=
  match tag.map String.toList with
  | some ('!' :: name) => some (if name.isEmpty then "!" else String.ofList name)
  | _ => none

/-- Puts a value behind an application's own tag, if such tags are kept. -/
def withOwnTag (keepsTags : Bool) (tag : Option String) (v : Decoded Value) : Decoded Value :=
  match ownTag? tag with
  | some name => if keepsTags then v.map (.tagged name) else .error .unexpectedTag
  | none => v

mutual

/-- The value of a node, with an application's own tags or without. -/
def toValue (keepsTags : Bool) : Node → Decoded Value
  | .scalar tag s =>
    if (ownTag? tag).isSome then withOwnTag keepsTags tag (untaggedValue s)
    else
      match tag with
      | some tag => taggedValue tag s
      | none => untaggedValue s
  | .seq tag items => withOwnTag keepsTags tag ((itemValues keepsTags items).map .seq)
  | .map tag entries => withOwnTag keepsTags tag ((entryValues keepsTags entries).map .map)
  | .unreadable => .error .mismatch

/-- The values of the items of a list. -/
def itemValues (keepsTags : Bool) : List Node → Decoded (List Value)
  | [] => .ok []
  | n :: rest => do
    let v ← toValue keepsTags n
    return v :: (← itemValues keepsTags rest)

/-- The values of the entries of a mapping. -/
def entryValues (keepsTags : Bool) : List (Node × Node) → Decoded (List (Value × Value))
  | [] => .ok []
  | (k, n) :: rest => do
    let key ← toValue keepsTags k
    let v ← toValue keepsTags n
    return (key, v) :: (← entryValues keepsTags rest)

end

/-- The value of a node in which no mapping has a key twice. -/
def strictValue (n : Node) : Decoded Value := do
  let v ← n.toValue true
  if v.hasDistinctKeys then return v else .error (.repeated "")

/-! ### Types of the schema -/

/-- The text of a scalar as it was written. -/
def readText : Node → Decoded String
  | .scalar _ s => .ok s.text
  | _ => .error .mismatch

/-- The entries of a mapping, whose keys are texts as they were written. -/
def textEntries : List (Node × Node) → Decoded (List (String × Node))
  | [] => .ok []
  | (k, n) :: rest => do
    let key ← k.readText
    return (key, n) :: (← textEntries rest)

/-- Whether a scalar may stand for a truth value or a number: a plain one, or a literal block with
the tag of the kind. -/
def isTyped (kind : String) (tag : Option String) (s : Scalar) : Bool :=
  s.isPlain || (s.isLiteral && tag == some (coreTag kind))

/-- Whether a node has no content. -/
def isVoid : Node → Bool
  | .scalar _ s => s.isPlain && s.text.isEmpty
  | _ => false

/-- A field is absent when nothing or null is written, without a tag or with the tag of null. -/
def present (n : Node) : Decoded (Option Node) :=
  match n with
  | .scalar tag s =>
    if !s.isPlain then .ok (some n)
    else
      match tag with
      | none => .ok (if s.text.isEmpty || isNull s.text then none else some n)
      | some tag =>
        if tag == coreTag "null" then
          if isNull s.text then .ok none else .error .mismatch
        else .ok (some n)
  | .unreadable => .error .mismatch
  | _ => .ok (some n)

instance : Readable Node where
  present? := present
  text := readText
  flag
    | .scalar tag s =>
      match bool? s.text with
      | some b => if isTyped "bool" tag s then .ok b else .error .mismatch
      | none => .error .mismatch
    | _ => .error .mismatch
  count
    | .scalar tag s =>
      match Yaml.natural? s.text.toList with
      | some n => if isTyped "int" tag s then count? n else .error .mismatch
      | none => .error .mismatch
    | _ => .error .mismatch
  items n :=
    match n with
    | .seq _ items => .ok items
    | _ => if n.isVoid then .ok [] else .error .mismatch
  entries _ n :=
    match n with
    | .map _ entries => textEntries entries
    | _ => if n.isVoid then .ok [] else .error .mismatch
  content n := n.toValue false

end Node

/-- The nodes of the documents of a text, at least one; `none` when the text is malformed. -/
def nodes? (text : String) : Option (List Node) :=
  (documents? text).map fun trees =>
    (if trees.isEmpty then [Tree.missing] else trees).map Node.ofTree

/-- Reads a text of one document as a type of the schema. -/
def read? {α : Type} [Schema α] (text : String) : Option α :=
  match nodes? text with
  | some [n] => (SchedulerPolicy.read n).toOption
  | _ => none

/-- The values of the documents of a text. -/
def values? (text : String) : Option (List Value) := do
  let nodes ← nodes? text
  nodes.mapM fun n => n.strictValue.toOption

end SchedulerPolicy.Yaml
