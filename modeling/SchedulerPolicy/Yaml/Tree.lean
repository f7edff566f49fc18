import SchedulerPolicy.Yaml.Token

/-!
# Documents as trees

The tokens of a text become one tree for each document (`documents?`). A tree still has the
notation of its scalars, its tags, and aliases in the place of what they stand for.

An anchor is known by a number. The numbers are given out by counting the names that are in use, so
a name that is taken again gets a number anew, which a later name may get too; what a number stands
for in the end is the last node that has it (`Document.anchored`).
-/

namespace SchedulerPolicy.Yaml

/-- A node of a document. -/
inductive Tree where
  | scalar (anchor : Option Nat) (tag : Option String) (s : Scalar)
  | seq (anchor : Option Nat) (tag : Option String) (items : List Tree)
  | map (anchor : Option Nat) (tag : Option String) (entries : List (Tree × Tree))
  | alias (anchor : Nat)

namespace Tree

/-- The node that stands where nothing is written. -/
def missing : Tree := .scalar none none { text := "", isPlain := true }

instance : Inhabited Tree := ⟨missing⟩

mutual

/-- The nodes with anchors, in the order in which they start. -/
def anchored : Tree → List (Nat × Tree)
  | t@(.scalar a _ _) => a.toList.map (·, t)
  | t@(.seq a _ items) => a.toList.map (·, t) ++ itemsAnchored items
  | t@(.map a _ entries) => a.toList.map (·, t) ++ entriesAnchored entries
  | .alias _ => []

/-- The nodes with anchors among the items of a list. -/
def itemsAnchored : List Tree → List (Nat × Tree)
  | [] => []
  | t :: rest => anchored t ++ itemsAnchored rest

/-- The nodes with anchors among the entries of a mapping. -/
def entriesAnchored : List (Tree × Tree) → List (Nat × Tree)
  | [] => []
  | (k, v) :: rest => anchored k ++ anchored v ++ entriesAnchored rest

end

mutual

/-- The number of nodes and of ends of collections. -/
def size : Tree → Nat
  | .scalar .. => 1
  | .seq _ _ items => itemsSize items + 2
  | .map _ _ entries => entriesSize entries + 2
  | .alias _ => 1

/-- The size of the items of a list. -/
def itemsSize : List Tree → Nat
  | [] => 0
  | t :: rest => size t + itemsSize rest

/-- The size of the entries of a mapping. -/
def entriesSize : List (Tree × Tree) → Nat
  | [] => 0
  | (k, v) :: rest => size k + size v + entriesSize rest

end

end Tree

namespace Grammar

/-- What is known while a document is read. -/
structure State where
  tokens : List Token
  /-- The names of anchors, with their numbers. -/
  names : List (String × Nat) := []
  /-- The handles of tags, with their meanings. -/
  handles : List (String × String) := []

/-- A step that may find the document malformed. -/
abbrev Step := StateT State Option

/-- The next token. -/
def peek? : Step (Option Token) := return (← get).tokens.head?

/-- Passes over a token. -/
def pass : Step Unit := modify fun s => { s with tokens := s.tokens.tail }

/-- What two handles mean unless a document says otherwise. -/
def defaultHandles : List (String × String) := [("!", "!"), ("!!", "tag:yaml.org,2002:")]

/-- The tag that was written. -/
def resolveTag (t : Lexeme.TagText) : Step String := do
  if t.handle.isEmpty then return t.suffix
  else
    match (← get).handles.lookup t.handle with
    | some meaning => return meaning ++ t.suffix
    | none => failure

/-- Gives a name its number. -/
def nameAnchor (name : String) : Step Nat := do
  let s ← get
  let number := s.names.length
  set { s with names := (name, number) :: s.names.filter (·.1 != name) }
  return number

/-- The node that an alias stands for. -/
def aliasOf (name : String) : Step Tree := do
  match (← get).names.lookup name with
  | some number => return .alias number
  | none => failure

/-- What stands in front of a node. -/
structure Properties where
  anchor : Option String := none
  tag : Option Lexeme.TagText := none

/-- The anchor and the tag in front of a node, in either order. -/
def properties : Step Properties := do
  match ← peek? with
  | some (.anchor name) =>
    pass
    match ← peek? with
    | some (.tag t) => pass; return { anchor := some name, tag := some t }
    | _ => return { anchor := some name }
  | some (.tag t) =>
    pass
    match ← peek? with
    | some (.anchor name) => pass; return { anchor := some name, tag := some t }
    | _ => return { tag := some t }
  | _ => return {}

/-- The tag of a scalar. A lone exclamation mark only says that the scalar is no plain one. -/
def scalarOf (anchor : Option Nat) (tag : Option String) (s : Scalar) : Tree :=
  if tag == some "!" then .scalar anchor none s else .scalar anchor tag s

/-- The node that has no content, and is there only by what stands in front of it. -/
def bareNode (p : Properties) (anchor : Option Nat) (tag : Option String) : Step Tree :=
  if p.anchor.isNone && p.tag.isNone then failure
  else return .scalar anchor tag { text := "", isPlain := true }

mutual

/-- A node. Blocks are possible when `inBlock` is set, and a list that is not indented when
`allowsFlat` is. -/
def node (inBlock allowsFlat : Bool) : (fuel : Nat) → Step Tree
  | 0 => failure
  | fuel + 1 => do
    if let some (.alias name) ← peek? then
      let t ← aliasOf name
      pass
      return t
    -- a tag is resolved before the anchor gets its number
    let p ← properties
    let tag ← p.tag.mapM resolveTag
    let anchor ← p.anchor.mapM nameAnchor
    match ← peek? with
    | some .item =>
      if allowsFlat then return .seq anchor tag (← flatItems fuel)
      else bareNode p anchor tag
    | some (.scalar s) => pass; return scalarOf anchor tag s
    | some .flowSeqStart => pass; return .seq anchor tag (← flowItems true fuel)
    | some .flowMapStart => pass; return .map anchor tag (← flowEntries true fuel)
    | some .blockSeqStart =>
      if inBlock then pass; return .seq anchor tag (← blockItems fuel)
      else bareNode p anchor tag
    | some .blockMapStart =>
      if inBlock then pass; return .map anchor tag (← blockEntries fuel)
      else bareNode p anchor tag
    | _ => bareNode p anchor tag

/-- The items of an indented list, to its end. -/
def blockItems : (fuel : Nat) → Step (List Tree)
  | 0 => failure
  | fuel + 1 => do
    match ← peek? with
    | some .item =>
      pass
      let t ← match ← peek? with
        | some .item => pure Tree.missing
        | some .blockEnd => pure Tree.missing
        | _ => node true false fuel
      return t :: (← blockItems fuel)
    | some .blockEnd => pass; return []
    | _ => failure

/-- The items of a list under a key that is not indented. -/
def flatItems : (fuel : Nat) → Step (List Tree)
  | 0 => failure
  | fuel + 1 => do
    match ← peek? with
    | some .item =>
      pass
      let t ← match ← peek? with
        | some .item => pure Tree.missing
        | some .key => pure Tree.missing
        | some .value => pure Tree.missing
        | some .blockEnd => pure Tree.missing
        | _ => node true false fuel
      return t :: (← flatItems fuel)
    | _ => return []

/-- A key or a value of an indented mapping, which may be missing. -/
def blockPart : (fuel : Nat) → Step Tree
  | 0 => failure
  | fuel + 1 => do
    match ← peek? with
    | some .key => return Tree.missing
    | some .value => return Tree.missing
    | some .blockEnd => return Tree.missing
    | _ => node true true fuel

/-- The entries of an indented mapping, to its end. -/
def blockEntries : (fuel : Nat) → Step (List (Tree × Tree))
  | 0 => failure
  | fuel + 1 => do
    match ← peek? with
    | some .key =>
      pass
      let k ← blockPart fuel
      let v ← match ← peek? with
        | some .value => pass; blockPart fuel
        | _ => pure Tree.missing
      return (k, v) :: (← blockEntries fuel)
    | some .blockEnd => pass; return []
    | _ => failure

/-- The items of a list in brackets, to its end. An item may be an entry, which is a mapping of one
entry. -/
def flowItems (isFirst : Bool) : (fuel : Nat) → Step (List Tree)
  | 0 => failure
  | fuel + 1 => do
    match ← peek? with
    | some .flowSeqEnd => pass; return []
    | some t =>
      if !isFirst then
        match t with
        | .comma => pass
        | _ => failure
      match ← peek? with
      | some .flowSeqEnd => pass; return []
      | some .key =>
        pass
        let k ← pairKey fuel
        let v ← pairValue fuel
        return .map none none [(k, v)] :: (← flowItems false fuel)
      | _ =>
        let t ← node false false fuel
        return t :: (← flowItems false fuel)
    | none => failure

/-- The key of an entry in a list. Where the key is missing the token behind it is passed over. -/
def pairKey : (fuel : Nat) → Step Tree
  | 0 => failure
  | fuel + 1 => do
    match ← peek? with
    | some .value => pass; return Tree.missing
    | some .comma => pass; return Tree.missing
    | some .flowSeqEnd => pass; return Tree.missing
    | _ => node false false fuel

/-- The value of an entry in a list. -/
def pairValue : (fuel : Nat) → Step Tree
  | 0 => failure
  | fuel + 1 => do
    match ← peek? with
    | some .value =>
      pass
      match ← peek? with
      | some .comma => return Tree.missing
      | some .flowSeqEnd => return Tree.missing
      | _ => node false false fuel
    | _ => return Tree.missing

/-- A key or a value of a mapping in brackets, which may be missing. -/
def flowPart (isKey : Bool) : (fuel : Nat) → Step Tree
  | 0 => failure
  | fuel + 1 => do
    match ← peek? with
    | some .value => if isKey then return Tree.missing else node false false fuel
    | some .comma => return Tree.missing
    | some .flowMapEnd => return Tree.missing
    | _ => node false false fuel

/-- The entries of a mapping in brackets, to its end. An entry without a colon has no value. -/
def flowEntries (isFirst : Bool) : (fuel : Nat) → Step (List (Tree × Tree))
  | 0 => failure
  | fuel + 1 => do
    match ← peek? with
    | some .flowMapEnd => pass; return []
    | some t =>
      if !isFirst then
        match t with
        | .comma => pass
        | _ => failure
      match ← peek? with
      | some .flowMapEnd => pass; return []
      | some .key =>
        pass
        let k ← flowPart true fuel
        let v ← match ← peek? with
          | some .value => pass; flowPart false fuel
          | _ => pure Tree.missing
        return (k, v) :: (← flowEntries false fuel)
      | _ =>
        let k ← node false false fuel
        return (k, Tree.missing) :: (← flowEntries false fuel)
    | none => failure

end

/-! ### Documents -/

/-- The directives in front of a document: at most one version, and at most one meaning for each
handle. -/
def directives : (fuel : Nat) → (hasVersion : Bool) → List (String × String) →
    Step (List (String × String))
  | 0, _, _ => failure
  | fuel + 1, hasVersion, found => do
    match ← peek? with
    | some (.directive .version) =>
      if hasVersion then failure
      else
        pass
        directives fuel true found
    | some (.directive (.tag handle meaning)) =>
      if found.any (·.1 == handle) then failure
      else
        pass
        directives fuel hasVersion (found ++ [(handle, meaning)])
    | _ => return found ++ defaultHandles

/-- Passes over the marks that end documents. -/
def passEnds : (fuel : Nat) → Step Unit
  | 0 => return ()
  | fuel + 1 => do
    match ← peek? with
    | some .documentEnd => pass; passEnds fuel
    | _ => return ()

/-- What a document holds. -/
def content (fuel : Nat) : Step Tree := do
  match ← peek? with
  | none => return Tree.missing
  | some (.directive _) => return Tree.missing
  | some .documentStart => return Tree.missing
  | some .documentEnd => return Tree.missing
  | _ => node true false fuel

/-- The next document, if there is one. The first needs no mark in front of it. -/
def document? (isFirst : Bool) (fuel : Nat) : Step (Option Tree) := do
  if !isFirst then passEnds fuel
  match ← peek? with
  | none => return none
  | some t =>
    let isBare := match t with
      | .directive _ => false
      | .documentStart => false
      | _ => true
    -- anchors and handles are those of one document only
    let handles ← directives fuel false []
    modify fun s => { s with handles, names := [] }
    let tree ←
      if isFirst && isBare then node true false fuel
      else
        match ← peek? with
        | some .documentStart => pass; content fuel
        | _ => failure
    if let some .documentEnd ← peek? then pass
    return some tree

/-- All documents. -/
def documents (isFirst : Bool) (size : Nat) : (fuel : Nat) → Step (List Tree)
  | 0 => failure
  | fuel + 1 => do
    match ← document? isFirst size with
    | none => return []
    | some t => return t :: (← documents false size fuel)

end Grammar

/-- The documents of a text; `none` when it is malformed. -/
def documents? (text : String) : Option (List Tree) := do
  let tokens ← tokens? text
  let fuel := 2 * tokens.length + 4
  (Grammar.documents true fuel fuel).run' { tokens }

end SchedulerPolicy.Yaml
