import CircuitNetwork.Yaml.Node
import CircuitNetwork.Yaml.Token.Stream

namespace CircuitNetwork.Yaml

/-!
# Documents

The nodes that a stream of tokens writes. Only the first document of a text is
read, up to the token behind it.
-/

/-- The state of reading a document: its tokens, the tag handles, and the named nodes. A name may be
given again, so each node that has one is kept by a number, with whether it is still open. -/
structure Reading where
  tokens : TokenStream
  handles : List (String × String) := []
  names : List (String × Nat) := []
  nodes : List (Nat × Bool × Node) := []
  deriving Inhabited

/-- Reading nodes. -/
abbrev ReadingM := EStateM Malformed Reading

namespace Reading

/-- Run an operation on the tokens. -/
def onTokens {α : Type} (operation : Tokenizing α) : ReadingM α := do
  let reading ← get
  match operation.run reading.tokens with
  | .ok value tokens =>
      set { reading with tokens := tokens }
      return value
  | .error report _ => throw report

/-- The next token, which stays. -/
def peek : ReadingM Token := onTokens TokenStream.peek

/-- The token behind the next one, which is taken away. -/
def next : ReadingM Token := do
  onTokens TokenStream.advance
  peek

/-- Name a node, and give its number. -/
def register (name : Option String) (isOpen : Bool) (node : Node) : ReadingM Nat := do
  let reading ← get
  let number := reading.nodes.length
  if let some name := name then
    set { reading with
      names := (name, number) :: reading.names
      nodes := (number, isOpen, node) :: reading.nodes }
  return number

/-- Complete the node with a number, if it has a name. -/
def complete (name : Option String) (number : Nat) (node : Node) : ReadingM Node := do
  if name.isSome then
    modify fun reading => { reading with
      nodes := reading.nodes.map fun entry =>
        if entry.1 = number then (number, false, node) else entry }
  return node

/-- The node that an alias stands for. -/
def resolve (line : Nat) (name : String) : ReadingM Node := do
  let reading ← get
  match (reading.names.lookup name).bind (List.lookup · reading.nodes) with
  | some (isOpen, node) => return .reference line name isOpen node
  | none => throw (.overall (.unknownAnchor name))

/-- The tag that a tag name stands for. -/
def expand (start place : Nat) (name : TagName) : ReadingM String := do
  if name.handle = "" then
    return name.suffix
  else
    match (← get).handles.lookup name.handle with
    | some lead => return lead ++ name.suffix
    | none => throw (.inOrder start place .undefinedHandle)

/-- What stands in front of a node: a name, a tag, and the line where all starts. -/
structure Properties where
  line : Nat
  name : Option String := none
  tag : Option (Nat × TagName) := none
  deriving Repr, DecidableEq, Inhabited

/-- Read the properties of a node, in any order but each at most once. -/
def readProperties : Nat → Properties → ReadingM Properties
  | 0, properties => pure properties
  | count + 1, properties => do
      let token ← peek
      match token.kind, properties.name, properties.tag with
      | .anchor name, none, _ =>
          onTokens TokenStream.advance
          readProperties count { properties with name := some name }
      | .tag tag, _, none =>
          onTokens TokenStream.advance
          readProperties count { properties with tag := some (token.line, tag) }
      | _, _, _ => return properties

/-- Whether a token is one that ends an item of an indented mapping. -/
def endsEntry : Token.Kind → Bool
  | .key => true
  | .value => true
  | .blockEnd => true
  | _ => false

/-- A node that is not there, unless one of the tokens that end it does not follow. -/
def unlessEnded
    (ends : Token.Kind → Bool)
    (token : Token)
    (line : Nat)
    (read : ReadingM Node) :
    ReadingM Node :=
  if ends token.kind then pure (.absent (line + 1)) else read

mutual

/-- Read a node. Block collections are allowed or not, and so is a sequence at the indentation of
the mapping that it is in. -/
def readNode : Nat → Bool → Bool → ReadingM Node
  | 0, _, _ => throw (.overall .tooDeep)
  | fuel + 1, inBlock, indentless => do
      let token ← peek
      if let .reference name := token.kind then
        onTokens TokenStream.advance
        resolve (token.line + 1) name
      else
        let properties ← readProperties 2 { line := token.line }
        let tag ← match properties.tag with
          | none => pure ""
          | some (place, name) => expand properties.line place name
        readContent fuel inBlock indentless properties tag

/-- Read a node behind its properties. -/
def readContent : Nat → Bool → Bool → Properties → String → ReadingM Node
  | 0, _, _, _, _ => throw (.overall .tooDeep)
  | fuel + 1, inBlock, indentless, properties, tag => do
      let token ← peek
      let line := properties.line + 1
      let collect (outline : Node) (read : ReadingM Node) : ReadingM Node := do
        let number ← register properties.name true outline
        complete properties.name number (← read)
      let sequence (read : ReadingM (List Node)) : ReadingM Node :=
        collect (.ofItems line tag []) (read.map (.ofItems line tag))
      let mapping (read : ReadingM (List (Node × Node))) : ReadingM Node :=
        collect (.ofEntries line tag []) (read.map (.ofEntries line tag))
      let scalar (text : String) (plain : Bool) : ReadingM Node := do
        let node := Node.ofScalar line tag text plain
        let _ ← register properties.name false node
        return node
      match token.kind, inBlock, indentless with
      | .blockEntry, _, true => sequence (readIndentless fuel [])
      | .scalar text plain, _, _ =>
          onTokens TokenStream.advance
          scalar text plain
      | .flowSequenceStart, _, _ =>
          sequence do
            let _ ← next
            readFlowItems fuel token.line true []
      | .flowMappingStart, _, _ =>
          mapping do
            let _ ← next
            readFlowEntries fuel token.line true []
      | .blockSequenceStart, true, _ =>
          sequence do
            let _ ← next
            readItems fuel token.line []
      | .blockMappingStart, true, _ =>
          mapping do
            let _ ← next
            readEntries fuel token.line []
      | _, _, _ =>
          if properties.name.isSome || tag ≠ "" then scalar "" true
          else throw (.inOrder properties.line token.line .missingContent)

/-- Read the items of a block sequence that starts on a line. -/
def readItems : Nat → Nat → List Node → ReadingM (List Node)
  | 0, _, _ => throw (.overall .tooDeep)
  | fuel + 1, start, items => do
      let token ← peek
      match token.kind with
      | .blockEntry =>
          let following ← next
          let ends (kind : Token.Kind) : Bool := kind = .blockEntry || kind = .blockEnd
          let item ← unlessEnded ends following token.line (readNode fuel true false)
          readItems fuel start (items ++ [item])
      | .blockEnd =>
          onTokens TokenStream.advance
          return items
      | _ => throw (.inOrder start token.line .missingDash)

/-- Read the items of a sequence at the indentation of the mapping that it is in. -/
def readIndentless : Nat → List Node → ReadingM (List Node)
  | 0, _ => throw (.overall .tooDeep)
  | fuel + 1, items => do
      let token ← peek
      if token.kind = .blockEntry then
        let following ← next
        let ends (kind : Token.Kind) : Bool := kind = .blockEntry || endsEntry kind
        let item ← unlessEnded ends following token.line (readNode fuel true false)
        readIndentless fuel (items ++ [item])
      else
        return items

/-- Read the entries of a block mapping that starts on a line. -/
def readEntries : Nat → Nat → List (Node × Node) → ReadingM (List (Node × Node))
  | 0, _, _ => throw (.overall .tooDeep)
  | fuel + 1, start, entries => do
      let token ← peek
      match token.kind with
      | .key =>
          let following ← next
          let key ← unlessEnded endsEntry following token.line (readNode fuel true true)
          let token ← peek
          if token.kind = .value then
            let following ← next
            let value ← unlessEnded endsEntry following token.line (readNode fuel true true)
            readEntries fuel start (entries ++ [(key, value)])
          else
            readEntries fuel start (entries ++ [(key, .absent (token.line + 1))])
      | .blockEnd =>
          onTokens TokenStream.advance
          return entries
      | _ => throw (.inOrder start token.line .missingKey)

/-- Read the items between brackets that start on a line. A pair is a mapping with one entry. -/
def readFlowItems : Nat → Nat → Bool → List Node → ReadingM (List Node)
  | 0, _, _, _ => throw (.overall .tooDeep)
  | fuel + 1, start, first, items => do
      let token ← peek
      if token.kind = .flowSequenceEnd then
        onTokens TokenStream.advance
        return items
      let token ←
        if first then pure token
        else if token.kind = .flowEntry then next
        else throw (.inOrder start token.line .openSequence)
      match token.kind with
      | .flowSequenceEnd =>
          onTokens TokenStream.advance
          return items
      | .key =>
          let entry ← readPair fuel
          readFlowItems fuel start false (items ++ [.ofEntries (token.line + 1) "" [entry]])
      | _ =>
          let item ← readNode fuel false false
          readFlowItems fuel start false (items ++ [item])

/-- Read a pair in a sequence, from its key token on. The token behind a key that is left out is
passed over. -/
def readPair : Nat → ReadingM (Node × Node)
  | 0 => throw (.overall .tooDeep)
  | fuel + 1 => do
      let ends (kind : Token.Kind) : Bool := kind = .flowEntry || kind = .flowSequenceEnd
      let token ← next
      let key ←
        if token.kind = .value || ends token.kind then do
          onTokens TokenStream.advance
          pure (.absent (token.line + 1))
        else
          readNode fuel false false
      let token ← peek
      if token.kind = .value then
        let following ← next
        return (key, ← unlessEnded ends following token.line (readNode fuel false false))
      else
        return (key, .absent (token.line + 1))

/-- Read the entries between braces that start on a line. -/
def readFlowEntries : Nat → Nat → Bool → List (Node × Node) → ReadingM (List (Node × Node))
  | 0, _, _, _ => throw (.overall .tooDeep)
  | fuel + 1, start, first, entries => do
      let token ← peek
      if token.kind = .flowMappingEnd then
        onTokens TokenStream.advance
        return entries
      let token ←
        if first then pure token
        else if token.kind = .flowEntry then next
        else throw (.inOrder start token.line .openMapping)
      let ends (kind : Token.Kind) : Bool := kind = .flowEntry || kind = .flowMappingEnd
      match token.kind with
      | .flowMappingEnd =>
          onTokens TokenStream.advance
          return entries
      | .key =>
          let following ← next
          let endsKey (kind : Token.Kind) : Bool := kind = .value || ends kind
          let key ← unlessEnded endsKey following following.line (readNode fuel false false)
          let token ← peek
          if token.kind = .value then
            let following ← next
            let value ← unlessEnded ends following following.line (readNode fuel false false)
            readFlowEntries fuel start false (entries ++ [(key, value)])
          else
            readFlowEntries fuel start false (entries ++ [(key, .absent (token.line + 1))])
      | _ =>
          let key ← readNode fuel false false
          let token ← peek
          readFlowEntries fuel start false (entries ++ [(key, .absent (token.line + 1))])

end

/-- Read the directives of a document. The version is 1.1, and each directive is given once. -/
def readDirectives : Nat → Bool → ReadingM Unit
  | 0, _ => pure ()
  | fuel + 1, versioned => do
      let token ← peek
      match token.kind with
      | .versionDirective major minor =>
          if versioned then throw (.inOrder 0 token.line .repeatedVersion)
          else if major ≠ 1 || minor ≠ 1 then throw (.inOrder 0 token.line .wrongVersion)
          else
            onTokens TokenStream.advance
            readDirectives fuel true
      | .tagDirective handle lead =>
          let reading ← get
          if (reading.handles.lookup handle).isSome then
            throw (.inOrder 0 token.line .repeatedHandle)
          else
            set { reading with handles := reading.handles ++ [(handle, lead)] }
            onTokens TokenStream.advance
            readDirectives fuel versioned
      | _ => return

/-- Add the tag handles that every document has. -/
def addHandles : ReadingM Unit :=
  modify fun reading =>
    { reading with handles := reading.handles ++ [("!", "!"), ("!!", "tag:yaml.org,2002:")] }

/-- Read the root of a document that starts with directives or a rule. -/
def readExplicit (fuel : Nat) : ReadingM Node := do
  readDirectives fuel false
  addHandles
  let token ← peek
  if token.kind = .documentStart then
    let following ← next
    match following.kind with
    | .versionDirective .. | .tagDirective .. | .documentStart | .documentEnd | .streamEnd =>
        return .absent (following.line + 1)
    | _ => readNode fuel true false
  else
    throw (.inOrder 0 token.line .missingDocument)

/-- Read the first document, if there is one, and look at the token behind it. -/
def readDocument (fuel : Nat) : ReadingM (Option Node) := do
  let _ ← peek
  let token ← next
  match token.kind with
  | .streamEnd => return none
  | .versionDirective .. | .tagDirective .. | .documentStart =>
      let node ← readExplicit fuel
      let _ ← peek
      return some node
  | _ =>
      addHandles
      let node ← readNode fuel true false
      let _ ← peek
      return some node

end Reading

/-- The first document of a text, if there is one. A byte order mark in front is no part of it. -/
def parse (text : String) : Except Malformed (Option Node) :=
  let characters := match text.toList with
    | '\ufeff' :: rest => rest
    | characters => characters
  if characters.all isAllowed then
    let fuel := 16 * (characters.length + 8)
    match (Reading.readDocument fuel).run { tokens := { cursor := { rest := characters } } } with
    | .ok node _ => .ok node
    | .error report _ => .error report
  else
    .error (.overall .controlCharacter)

end CircuitNetwork.Yaml
