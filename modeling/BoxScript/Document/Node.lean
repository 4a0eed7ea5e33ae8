import BoxScript.Document.Stream

/-!
# Nodes

A document is a tree of scalars, sequences and mappings. It is read from the
tokens by recursive descent: a node is an alias, or it has an anchor and a tag
in either order, both of which may be missing, and a content. A missing key or
value is an empty scalar.

Only the first document is read, and one token behind it. What follows that
token is not looked at.
-/

set_option autoImplicit false

namespace BoxScript.Document

inductive Node where
  /-- A scalar. It is open if its kind shows in its text alone. -/
  | scalar (tag : Bytes) (isOpen : Bool) (text : String)
  | sequence (items : List Node)
  | mapping (entries : List (Node × Node))
  | alias (target : Node)

namespace Node

/-- What stands for a missing node. -/
def empty : Node := .scalar [] true ""

/-- The tag that leaves the kind open. -/
def openTag : Bytes := Utf8.encode "!"

end Node

/-- What the tokens seen so far say about those to come. -/
structure Context where
  /-- What the handles of tags stand for. -/
  handles : List (String × Bytes) := []
  /-- The named nodes, the last ones first. A node that is not complete has
  none. -/
  anchors : List (String × Option Node) := []

/-- What reads nodes. -/
abbrev Compose := StateT Context Scan

namespace Compose

open Scan (token take)

def refuse {α : Type} : Compose α := fun _ => Scan.refuse

/-! ## Properties of nodes -/

/-- Names a node. -/
def name (anchor : Option String) (node : Option Node) : Compose Unit :=
  match anchor with
  | none => return
  | some anchor => modify fun c => { c with anchors := (anchor, node) :: c.anchors }

/-- The node with a name. -/
def named (anchor : String) : Compose Node := do
  match (← get).anchors.lookup anchor with
  | some (some node) => return .alias node
  | _ => refuse

/-- A tag in full. -/
def fullTag (handle : String) (suffix : Bytes) : Compose Bytes := do
  if handle = "" then return suffix
  else
    match (← get).handles.lookup handle with
    | some stem => return stem ++ suffix
    | none => refuse

def readAnchor : Compose (Option String) := do
  match ← token with
  | .anchor anchor =>
    take
    return some anchor
  | _ => return none

/-- Reads a tag; a missing one is empty. -/
def readTag : Compose Bytes := do
  match ← token with
  | .tag handle suffix =>
    take
    fullTag handle suffix
  | _ => return []

/-- Reads an anchor and a tag, in either order. -/
def readProperties : Compose (Option String × Bytes) := do
  match ← readAnchor with
  | some anchor => return (some anchor, ← readTag)
  | none =>
    let tag ← readTag
    if tag.isEmpty then return (none, []) else return (← readAnchor, tag)

/-- An empty scalar with properties, one of which it must have. -/
def bare (anchor : Option String) (tag : Bytes) : Compose Node :=
  if anchor.isNone && tag.isEmpty then refuse else return .scalar tag tag.isEmpty ""

/-! ## Nodes

The number bounds the depth and the length of what is read. `block` says whether
a block may start here, `inMapping` whether a sequence may start without a
deeper indentation. -/

mutual

/-- Reads a node. -/
def readNode (block inMapping : Bool) : Nat → Compose Node
  | 0 => refuse
  | n + 1 => do
    match ← token with
    | .alias anchor =>
      take
      named anchor
    | _ =>
      let (anchor, tag) ← readProperties
      name anchor none
      let node ← readContent block inMapping anchor tag n
      name anchor (some node)
      return node

/-- Reads a node behind its properties. -/
def readContent (block inMapping : Bool) (anchor : Option String) (tag : Bytes) :
    Nat → Compose Node
  | 0 => refuse
  | n + 1 => do
    match ← token, block, inMapping with
    | .blockEntry, _, true => return .sequence (← readItems false [] n)
    | .scalar text plain, _, _ =>
      take
      return .scalar tag ((tag.isEmpty && plain) || tag = Node.openTag) text
    | .flowSequenceStart, _, _ =>
      take
      return .sequence (← readFlowItems true [] n)
    | .flowMappingStart, _, _ =>
      take
      return .mapping (← readFlowEntries true [] n)
    | .blockSequenceStart, true, _ =>
      take
      return .sequence (← readItems true [] n)
    | .blockMappingStart, true, _ =>
      take
      return .mapping (← readEntries [] n)
    | _, _, _ => bare anchor tag

/-- Reads the items of a sequence in a block. One without an indentation of its
own ends where no item follows. -/
def readItems (indented : Bool) (seen : List Node) : Nat → Compose (List Node)
  | 0 => refuse
  | n + 1 => do
    match ← token, indented with
    | .blockEntry, _ =>
      take
      let item ← match ← token, indented with
        | .blockEntry, _ => pure Node.empty
        | .blockEnd, _ => pure Node.empty
        | .key, false => pure Node.empty
        | .value, false => pure Node.empty
        | _, _ => readNode true false n
      readItems indented (item :: seen) n
    | .blockEnd, true =>
      take
      return seen.reverse
    | _, true => refuse
    | _, false => return seen.reverse

/-- Reads a key or value in a block, which may be missing. -/
def readBlockPart : Nat → Compose Node
  | 0 => refuse
  | n + 1 => do
    match ← token with
    | .key => return Node.empty
    | .value => return Node.empty
    | .blockEnd => return Node.empty
    | _ => readNode true true n

/-- Reads the entries of a mapping in a block. -/
def readEntries (seen : List (Node × Node)) : Nat → Compose (List (Node × Node))
  | 0 => refuse
  | n + 1 => do
    match ← token with
    | .key =>
      take
      let key ← readBlockPart n
      match ← token with
      | .value =>
        take
        let value ← readBlockPart n
        readEntries ((key, value) :: seen) n
      | _ => readEntries ((key, Node.empty) :: seen) n
    | .blockEnd =>
      take
      return seen.reverse
    | _ => refuse

/-- Reads the items of a sequence between brackets. A key makes a mapping with
one entry, and cannot be missing. -/
def readFlowItems (first : Bool) (seen : List Node) : Nat → Compose (List Node)
  | 0 => refuse
  | n + 1 => do
    match ← token, first with
    | .flowSequenceEnd, _ =>
      take
      return seen.reverse
    | .flowEntry, false =>
      take
      readFlowItem seen n
    | _, false => refuse
    | _, true => readFlowItem seen n

/-- Reads an item of a sequence between brackets, if there is one, and those
behind it. -/
def readFlowItem (seen : List Node) : Nat → Compose (List Node)
  | 0 => refuse
  | n + 1 => do
    match ← token with
    | .flowSequenceEnd =>
      take
      return seen.reverse
    | .key =>
      take
      let key ← readNode false false n
      let value ← readFlowValue .flowSequenceEnd n
      readFlowItems false (.mapping [(key, value)] :: seen) n
    | _ =>
      let item ← readNode false false n
      readFlowItems false (item :: seen) n

/-- Reads a value between brackets, which may be missing. -/
def readFlowValue (closing : Token) : Nat → Compose Node
  | 0 => refuse
  | n + 1 => do
    match ← token with
    | .value =>
      take
      let t ← token
      if t = .flowEntry || t = closing then return Node.empty else readNode false false n
    | _ => return Node.empty

/-- Reads the entries of a mapping between brackets. -/
def readFlowEntries (first : Bool) (seen : List (Node × Node)) :
    Nat → Compose (List (Node × Node))
  | 0 => refuse
  | n + 1 => do
    match ← token, first with
    | .flowMappingEnd, _ =>
      take
      return seen.reverse
    | .flowEntry, false =>
      take
      readFlowPair seen n
    | _, false => refuse
    | _, true => readFlowPair seen n

/-- Reads an entry of a mapping between brackets, if there is one, and those
behind it. What is not marked as a key has no value. -/
def readFlowPair (seen : List (Node × Node)) : Nat → Compose (List (Node × Node))
  | 0 => refuse
  | n + 1 => do
    match ← token with
    | .flowMappingEnd =>
      take
      return seen.reverse
    | .key =>
      take
      let t ← token
      let key ← if t = .value || t = .flowEntry || t = .flowMappingEnd then pure Node.empty
        else readNode false false n
      let value ← readFlowValue .flowMappingEnd n
      readFlowEntries false ((key, value) :: seen) n
    | _ =>
      let key ← readNode false false n
      readFlowEntries false ((key, Node.empty) :: seen) n

end

/-! ## Documents -/

/-- What the handles of tags stand for in every document. -/
def commonHandles : List (String × Bytes) :=
  [("!", Utf8.encode "!"), ("!!", Utf8.encode "tag:yaml.org,2002:")]

/-- Reads directives. The version may be stated once and must be 1.1, and each
handle may be stated once. -/
def readDirectives (versioned : Bool) : Nat → Compose Unit
  | 0 => refuse
  | n + 1 => do
    match ← token with
    | .version major minor =>
      if versioned || (major, minor) ≠ (1, 1) then refuse
      else
        take
        readDirectives true n
    | .tagDirective handle stem =>
      if ((← get).handles.lookup handle).isSome then refuse
      else
        take
        modify fun c => { c with handles := (handle, stem) :: c.handles }
        readDirectives versioned n
    | _ => modify fun c => { c with handles := c.handles ++ commonHandles }

/-- Whether a token shows that a document has no content. -/
def endsDocument : Token → Bool
  | .version _ _ => true
  | .tagDirective _ _ => true
  | .documentStart => true
  | .documentEnd => true
  | .streamEnd => true
  | _ => false

/-- Whether a token shows that a document starts with a marker. -/
def startsMarked : Token → Bool
  | .version _ _ => true
  | .tagDirective _ _ => true
  | .documentStart => true
  | _ => false

/-- Reads the content of the first document, if there is one, and the token
behind it. -/
def readDocument (n : Nat) : Compose (Option Node) := do
  let _ ← token
  take
  let t ← token
  if t = .streamEnd then return none
  else
    readDirectives false n
    if startsMarked t then
      match ← token with
      | .documentStart => take
      | _ => refuse
    let content ← if startsMarked t && endsDocument (← token) then pure Node.empty
      else readNode true false n
    let _ ← token
    return some content

end Compose

/-- What reading a document found. -/
inductive Found where
  | nothing
  | content (root : Node)

/-- Reads the first document of a text. The number of tokens, and of the steps
between two of them, is less than the bound. -/
def read? (source : Bytes) : Option Found :=
  let limit := 16 * (source.length + 16)
  match (Compose.readDocument limit).run {} |>.run { cursor := Cursor.start source, limit } with
  | none => none
  | some ((none, _), _) => some .nothing
  | some ((some root, _), _) => some (.content root)

end BoxScript.Document
