import ExamVariants.Document.Yaml.Layout

namespace ExamVariants.Document.Yaml

abbrev Tag := List Char

inductive Node where
  | scalar (tag : Option Tag) (plain : Bool) (text : List Char)
  | list (tag : Option Tag) (items : List Node)
  | mapping (tag : Option Tag) (entries : List (Node × Node))
  /-- What an alias refers to. -/
  | shared (node : Node)
  deriving Inhabited

/-- What stands where nothing is written. -/
def Node.missing : Node := .scalar none true []

/-- The meaning of a handle: those of the document come before the common ones. -/
abbrev Handles := List (List Char × List Char)

def commonHandles : Handles :=
  [("!".toList, "!".toList), ("!!".toList, "tag:yaml.org,2002:".toList)]

def Handles.tag (handles : Handles) (name : TagName) : Except Problem Tag :=
  if name.handle.isEmpty then .ok name.suffix
  else
    match (handles ++ commonHandles).lookup name.handle with
    | some meaning => .ok (meaning ++ name.suffix)
    | none => .error .undefinedHandle

/-- The anchors of a document in the order of their nodes; those of unfinished nodes are empty. -/
abbrev Anchors := Array (List Char × Option Node)

/-- The node of the last anchor of a name. -/
def Anchors.find? (anchors : Anchors) (name : List Char) : Option Node :=
  (anchors.toList.reverse.lookup name).bind id

structure Reading where
  rest : List Token
  anchors : Anchors

abbrev Reader := StateT Reading (Except Problem)

namespace Reader

def peek : Reader (Option Token) := do return (← get).rest.head?

def skip : Reader Unit := modify fun r => { r with rest := r.rest.tail }

def accept (t : Token) : Reader Bool := do
  if (← peek) = some t then
    skip
    return true
  else return false

/-- Whether one of some tokens, or the end, is next. -/
def atOneOf (ts : List Token) : Reader Bool := do
  return (← peek).all ts.contains

def anchor? : Reader (Option (List Char)) := do
  match ← peek with
  | some (.anchor name) =>
    skip
    return some name
  | _ => return none

def tag? (handles : Handles) : Reader (Option Tag) := do
  match ← peek with
  | some (.tag name) =>
    skip
    return some (← handles.tag name)
  | _ => return none

/-- An anchor and a tag in either order. -/
def properties (handles : Handles) : Reader (Option (List Char) × Option Tag) := do
  match ← anchor? with
  | some name => return (some name, ← tag? handles)
  | none =>
    match ← tag? handles with
    | some t => return (← anchor?, some t)
    | none => return (none, none)

def anchored (name : Option (List Char)) (read : Reader Node) : Reader Node := do
  match name with
  | none => read
  | some name =>
    let place := (← get).anchors.size
    modify fun r => { r with anchors := r.anchors.push (name, none) }
    let node ← read
    modify fun r => { r with anchors := r.anchors.setIfInBounds place (name, some node) }
    return node

def aliased (name : List Char) : Reader Node := do
  match (← get).anchors.find? name with
  | some node => return .shared node
  | none => throw .undefinedAlias

/-- The tag of a scalar; the lone mark says nothing about it. -/
def scalarTag (tag : Option Tag) : Option Tag := if tag = some ['!'] then none else tag

mutual

/-- A node; `block` allows block collections, `indentless` a list at the depth of its mapping. -/
def node (handles : Handles) (block indentless : Bool) : Nat → Reader Node
  | 0 => throw .tooDeep
  | fuel + 1 => do
    match ← peek with
    | some (.alias name) =>
      skip
      aliased name
    | _ =>
      let (anchor, tag) ← properties handles
      anchored anchor do
        match ← peek, block with
        | some .blockEntry, _ =>
          if indentless then return .list tag (← indentlessItems handles fuel)
          else return ← bare anchor tag
        | some (.scalar plain text), _ =>
          skip
          return .scalar (scalarTag tag) plain text
        | some .flowSequenceStart, _ =>
          skip
          return .list tag (← flowItems handles true fuel)
        | some .flowMappingStart, _ =>
          skip
          return .mapping tag (← flowEntries handles true fuel)
        | some .blockSequenceStart, true =>
          skip
          return .list tag (← blockItems handles fuel)
        | some .blockMappingStart, true =>
          skip
          return .mapping tag (← blockEntries handles fuel)
        | _, _ => return ← bare anchor tag
where
  /-- A node of which only an anchor or a tag is written. -/
  bare (anchor : Option (List Char)) (tag : Option Tag) : Reader Node :=
    if anchor.isSome || tag.isSome then pure (.scalar tag true []) else throw .missingNode

def nodeOrMissing (handles : Handles) (block : Bool) (stops : List Token) : Nat → Reader Node
  | 0 => throw .tooDeep
  | fuel + 1 => do
    if ← atOneOf stops then return Node.missing
    else node handles block (block && !stops.contains .blockEntry) fuel

def blockItems (handles : Handles) : Nat → Reader (List Node)
  | 0 => throw .tooDeep
  | fuel + 1 => do
    if ← accept .blockEntry then
      let item ← nodeOrMissing handles true [.blockEntry, .blockEnd] fuel
      return item :: (← blockItems handles fuel)
    else if ← accept .blockEnd then return []
    else throw .missingEntry

/-- The items of a list that is as deep as the mapping around it. -/
def indentlessItems (handles : Handles) : Nat → Reader (List Node)
  | 0 => throw .tooDeep
  | fuel + 1 => do
    if ← accept .blockEntry then
      let item ← nodeOrMissing handles true [.blockEntry, .key, .value, .blockEnd] fuel
      return item :: (← indentlessItems handles fuel)
    else return []

def blockEntries (handles : Handles) : Nat → Reader (List (Node × Node))
  | 0 => throw .tooDeep
  | fuel + 1 => do
    let stops := [.key, .value, .blockEnd]
    if ← accept .key then
      let key ← nodeOrMissing handles true stops fuel
      let value ← if ← accept .value then nodeOrMissing handles true stops fuel
        else pure Node.missing
      return (key, value) :: (← blockEntries handles fuel)
    else if ← accept .blockEnd then return []
    else throw .missingKey

def flowItems (handles : Handles) (first : Bool) : Nat → Reader (List Node)
  | 0 => throw .tooDeep
  | fuel + 1 => do
    if ← accept .flowSequenceEnd then return []
    if !first then
      if !(← accept .flowEntry) then throw .unclosedFlow
    if ← accept .flowSequenceEnd then return []
    let item ← if ← accept .key then flowPair handles fuel else node handles false false fuel
    return item :: (← flowItems handles false fuel)

/-- An entry of a list that is a mapping of one key. The token behind a missing key is dropped. -/
def flowPair (handles : Handles) : Nat → Reader Node
  | 0 => throw .tooDeep
  | fuel + 1 => do
    let key ← if ← atOneOf [.value, .flowEntry, .flowSequenceEnd] then do
        skip
        pure Node.missing
      else node handles false false fuel
    let value ← if ← accept .value then
        nodeOrMissing handles false [.flowEntry, .flowSequenceEnd] fuel
      else pure Node.missing
    return .mapping none [(key, value)]

def flowEntries (handles : Handles) (first : Bool) : Nat → Reader (List (Node × Node))
  | 0 => throw .tooDeep
  | fuel + 1 => do
    if ← accept .flowMappingEnd then return []
    if !first then
      if !(← accept .flowEntry) then throw .unclosedFlow
    if ← accept .flowMappingEnd then return []
    let entry ← if ← accept .key then do
        let key ← nodeOrMissing handles false [.value, .flowEntry, .flowMappingEnd] fuel
        let value ← if ← accept .value then
            nodeOrMissing handles false [.flowEntry, .flowMappingEnd] fuel
          else pure Node.missing
        pure (key, value)
      else do pure (← node handles false false fuel, Node.missing)
    return entry :: (← flowEntries handles false fuel)

end

end Reader

def isKnownVersion (major minor : Nat) : Bool := major == 1 && (minor == 1 || minor == 2)

/-- The handles that the directives of a document define. -/
def readDirectives (version : Bool) (handles : Handles) :
    List Token → Except Problem (Handles × List Token)
  | .versionDirective major minor :: ts =>
    if version || !isKnownVersion major minor then .error .badDirective
    else readDirectives true handles ts
  | .tagDirective handle meaning :: ts =>
    if (handles.lookup handle).isSome then .error .badDirective
    else readDirectives version (handles ++ [(handle, meaning)]) ts
  | ts => .ok (handles, ts)

def isDocumentToken : Token → Bool
  | .versionDirective _ _ | .tagDirective _ _ | .documentStart | .documentEnd => true
  | _ => false

def readRoot (handles : Handles) (ts : List Token) : Except Problem (Node × List Token) := do
  let (root, r) ← (Reader.node handles true false (4 * ts.length + 4)).run ⟨ts, #[]⟩
  return (root, r.rest)

/-- The roots of the documents; the first may do without its start. -/
def readDocuments (first : Bool) : Nat → List Token → Except Problem (List Node)
  | 0, _ => .ok []
  | fuel + 1, ts => do
    let ts := if first then ts else ts.dropWhile (· = .documentEnd)
    if ts.isEmpty then return []
    let (root, ts) ←
      if first && !ts.head?.any (fun t => isDocumentToken t && t ≠ .documentEnd) then
        readRoot [] ts
      else
        let (handles, ts) ← readDirectives false [] ts
        match ts with
        | .documentStart :: ts =>
          if ts.head?.all isDocumentToken then pure (Node.missing, ts) else readRoot handles ts
        | _ => throw .missingDocumentStart
    return root :: (← readDocuments false fuel ts)

end ExamVariants.Document.Yaml
