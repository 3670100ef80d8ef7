import Switchyard.Yaml.Layout
/-!
# YAML nodes

The tree that a text writes: scalars, sequences, mappings and references to anchored nodes. A text
holds one document; one without any content holds none.
-/

namespace Switchyard.Yaml

inductive Node where
  | scalar (tag : Option String) (style : Style) (text : String)
  | sequence (items : List Node)
  | mapping (entries : List (Node × Node))
  | alias (anchor : Nat)
  deriving Repr, Inhabited

def Node.empty : Node := .scalar none .plain ""

/-- A document: its root, if it has one, and the nodes that aliases refer to. -/
structure Document where
  root : Option Node := none
  anchored : List (Nat × Node) := []
  deriving Repr, Inhabited

def Document.deref (d : Document) : Node → Node
  | .alias anchor => ((d.anchored.find? fun e => e.1 == anchor).map (·.2)).getD .empty
  | n => n

/-- The rest of the tokens, the handles of tags, and the anchors so far. An anchor has the number of
names that were in use before it; each anchored node has a serial number, by which the node that was
begun last keeps a number that is used again. -/
structure Draft where
  tokens : List Token
  handles : List (String × String) := []
  names : List (String × Nat) := []
  begun : List (Nat × Nat) := []
  finished : List (Nat × Node) := []

namespace Draft

/-- The steps of the reader; a step that breaks the grammar fails. -/
abbrev Step := StateT Draft Option

def peek? : Step (Option Token) := return (← get).tokens.head?

def advance : Step Unit := modify fun d => { d with tokens := d.tokens.tail }

/-- Takes the next token if it is `t`, and says whether it was. -/
def accept (t : Token) : Step Bool := do
  if (← peek?) = some t then
    advance
    return true
  else return false

def expect (t : Token) : Step Unit := do
  if !(← accept t) then failure

def sees (ts : List Token) : Step Bool := return (← peek?).any ts.contains

def begin (name : String) : Step Nat := do
  let d ← get
  let names := d.names.filter (fun e => e.1 != name)
  let number := d.names.length
  let serial := d.begun.length
  set { d with names := (name, number) :: names, begun := (number, serial) :: d.begun }
  return serial

def finish (serial : Nat) (n : Node) : Step Unit :=
  modify fun d => { d with finished := (serial, n) :: d.finished }

def tagOf (handle suffix : String) : Step String := do
  if handle.isEmpty then return suffix
  match (← get).handles.find? fun e => e.1 == handle with
  | some (_, meaning) => return meaning ++ suffix
  | none => failure

def properties : Step (Option String × Option String) := do
  let anchor? : Step (Option String) := do
    match ← peek? with
    | some (.anchor name) =>
      advance
      return some name
    | _ => return none
  let tag? : Step (Option String) := do
    match ← peek? with
    | some (.tag handle suffix) =>
      advance
      return some (← tagOf handle suffix)
    | _ => return none
  match ← anchor? with
  | some name => return (some name, ← tag?)
  | none =>
    let tag ← tag?
    if tag.isNone then return (none, none)
    return (← anchor?, tag)

mutual

/-- Reads a node. Blocks may stand outside brackets only, and a sequence without indentation only
as part of a mapping. -/
def node (block unindented : Bool) : Nat → Step Node
  | 0 => failure
  | fuel + 1 => do
    match ← peek? with
    | some (.alias name) =>
      advance
      match (← get).names.find? fun e => e.1 == name with
      | some (_, number) => return .alias number
      | none => failure
    | _ =>
      let (anchor, tag) ← properties
      let serial ← anchor.mapM begin
      let n ← content block unindented anchor.isSome tag fuel
      if let some serial := serial then finish serial n
      return n

/-- Reads what follows anchor and tag; behind one of them nothing has to follow. A lone exclamation
mark is no tag for a scalar that is written. -/
def content (block unindented anchored : Bool) (tag : Option String) : Nat → Step Node
  | 0 => failure
  | fuel + 1 => do
    match ← peek? with
    | some (.scalar style text) =>
      advance
      return .scalar (tag.filter (· ≠ "!")) style text
    | some .flowSequence =>
      advance
      return .sequence (← flowItems true fuel)
    | some .flowMapping =>
      advance
      return .mapping (← flowEntries true fuel)
    | some .blockEntry =>
      if unindented then return .sequence (← unindentedItems fuel) else bare
    | some .blockSequence =>
      if !block then bare
      else
        advance
        return .sequence (← blockItems fuel)
    | some .blockMapping =>
      if !block then bare
      else
        advance
        return .mapping (← blockEntries fuel)
    | _ => bare
where
  bare : Step Node := if anchored || tag.isSome then return .scalar tag .plain "" else failure

def nodeUnless (stops : List Token) (block unindented : Bool) : Nat → Step Node
  | 0 => failure
  | fuel + 1 => do if ← sees stops then return .empty else node block unindented fuel

/-- Reads the items of an indented sequence up to its end. -/
def blockItems : Nat → Step (List Node)
  | 0 => failure
  | fuel + 1 => do
    if ← accept .blockEnd then return []
    expect .blockEntry
    let item ← nodeUnless [.blockEntry, .blockEnd] true false fuel
    return item :: (← blockItems fuel)

/-- Reads the items of a sequence at the indentation of the mapping around it. -/
def unindentedItems : Nat → Step (List Node)
  | 0 => failure
  | fuel + 1 => do
    if !(← accept .blockEntry) then return []
    let item ← nodeUnless [.blockEntry, .key, .value, .blockEnd] true false fuel
    return item :: (← unindentedItems fuel)

/-- Reads the entries of an indented mapping up to its end. -/
def blockEntries : Nat → Step (List (Node × Node))
  | 0 => failure
  | fuel + 1 => do
    if ← accept .blockEnd then return []
    expect .key
    let stops : List Token := [.key, .value, .blockEnd]
    let key ← nodeUnless stops true true fuel
    let value ← if ← accept .value then nodeUnless stops true true fuel else pure .empty
    return (key, value) :: (← blockEntries fuel)

/-- Reads the items of a sequence in brackets. An item may be a mapping of one entry. -/
def flowItems (isFirst : Bool) : Nat → Step (List Node)
  | 0 => failure
  | fuel + 1 => do
    if ← accept .flowSequenceEnd then return []
    if !isFirst then expect .flowEntry
    if ← accept .flowSequenceEnd then return []
    let item ←
      if ← accept .key then do
        let key ←
          if ← sees [.value, .flowEntry, .flowSequenceEnd] then
            advance
            pure .empty
          else node false false fuel
        let value ← flowValue .flowSequenceEnd fuel
        pure (.mapping [(key, value)])
      else node false false fuel
    return item :: (← flowItems false fuel)

/-- Reads the entries of a mapping in braces. A key may stand alone. -/
def flowEntries (isFirst : Bool) : Nat → Step (List (Node × Node))
  | 0 => failure
  | fuel + 1 => do
    if ← accept .flowMappingEnd then return []
    if !isFirst then expect .flowEntry
    if ← accept .flowMappingEnd then return []
    let entry ←
      if ← accept .key then do
        let key ← nodeUnless [.value, .flowEntry, .flowMappingEnd] false false fuel
        let value ← flowValue .flowMappingEnd fuel
        pure (key, value)
      else do
        let key ← node false false fuel
        pure (key, .empty)
    return entry :: (← flowEntries false fuel)

/-- Reads the value behind a key in brackets, if there is one. -/
def flowValue (closing : Token) : Nat → Step Node
  | 0 => failure
  | fuel + 1 => do
    if ← accept .value then nodeUnless [.flowEntry, closing] false false fuel else return .empty

end

def defaultHandles : List (String × String) := [("!", "!"), ("!!", "tag:yaml.org,2002:")]

/-- Reads directives. A version may be declared once and has to be 1.1 or 1.2, and each handle may be
declared once. -/
def directives (version : Bool) (handles : List (String × String)) : Nat → Step Bool
  | 0 => failure
  | fuel + 1 => do
    match ← peek? with
    | some (.version major minor) =>
      if version || major ≠ 1 || (minor ≠ 1 && minor ≠ 2) then failure
      advance
      directives true handles fuel
    | some (.tagHandle handle meaning) =>
      if handles.any (·.1 == handle) then failure
      advance
      directives version ((handle, meaning) :: handles) fuel
    | _ =>
      modify fun d => { d with handles := handles ++ defaultHandles }
      return version || !handles.isEmpty

def document (size : Nat) : Step (Option Node) := do
  if (← peek?).isNone then return none
  let declared ← directives false [] size
  let started ← accept .documentStart
  if declared && !started then failure
  let isEmpty := started &&
    ((← peek?).isNone || (← sees [.documentStart, .documentEnd]) || (← atDirective))
  let root ← if isEmpty then pure .empty else node true false (8 * size + 8)
  endMarks size
  return some root
where
  atDirective : Step Bool := return match ← peek? with
    | some (.version ..) | some (.tagHandle ..) => true
    | _ => false
  endMarks : Nat → Step Unit
    | 0 => failure
    | fuel + 1 => do
      if ← accept .documentEnd then endMarks fuel
      else if (← peek?).isSome then failure

def anchored (d : Draft) : List (Nat × Node) :=
  d.begun.filterMap fun (number, serial) =>
    (d.finished.find? fun e => e.1 == serial).map fun e => (number, e.2)

end Draft

/-- The document of a text, or none for a text that is no YAML or holds several documents. -/
def Document.parse? (text : String) : Option Document := do
  let tokens ← tokens? text.toList
  let (root, d) ← (Draft.document (tokens.length + 1)).run { tokens }
  return { root, anchored := d.anchored }

end Switchyard.Yaml
