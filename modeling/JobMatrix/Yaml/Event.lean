import JobMatrix.Yaml.Token.Stream
import JobMatrix.Entries

set_option autoImplicit false

/-!
The events of a YAML text: its documents, nodes and aliases in reading order. The grammar is a
machine with a stack: it expects something, looks at one token, and yields one event in each step.
-/

namespace JobMatrix.Yaml

inductive EventKind where
  | documentStart
  | documentEnd
  | streamEnd
  | alias (name : String)
  /-- A scalar. Without a tag, a plain one gets the tag that its text suggests. -/
  | scalar (anchor tag : Option String) (plain : Bool) (text : Text)
  | sequenceStart (anchor tag : Option String)
  | sequenceEnd
  | mappingStart (anchor tag : Option String)
  | mappingEnd
  deriving DecidableEq, Repr

structure Event where
  kind : EventKind
  start : Mark
  deriving Repr

/-- What the grammar expects next. -/
inductive Expectation where
  | firstDocument
  | document
  | documentContent
  | documentEnd
  | blockNode
  | blockSequenceFirst
  | blockSequence
  | indentlessSequence
  | blockMappingFirst
  | blockMapping
  | blockMappingValue
  | flowSequenceFirst
  | flowSequence
  | flowPairKey
  | flowPairValue
  | flowPairEnd
  | flowMappingFirst
  | flowMapping
  | flowMappingValue
  | flowMappingMissingValue
  | nothing
  deriving DecidableEq, Repr

structure Grammar where
  stream : TokenStream
  expects : Expectation := .firstDocument
  /-- What is expected after the node that is being read. -/
  later : List Expectation := []
  /-- Where the open collections began. -/
  opened : List Mark := []
  handles : Entries String := []

/-- Steps of the grammar. -/
abbrev Parsing := StateT Grammar Reading

namespace Grammar

/-- The expansions that hold in every document. -/
def defaultHandles : Entries String := [("!", "!"), ("!!", "tag:yaml.org,2002:")]

/-- The next token, or the fault that the stream ends with. -/
def peek : Parsing Token := do
  let g ← get
  match g.stream.tokens, g.stream.fault with
  | t :: _, _ => return t
  | [], some e => throw e
  | [], none => return .empty .streamEnd ⟨0, 0, 0⟩

def take : Parsing Token := do
  let t ← peek
  modify fun g => { g with stream := { g.stream with tokens := g.stream.tokens.drop 1 } }
  return t

def expect (e : Expectation) : Parsing Unit := modify fun g => { g with expects := e }

/-- What is to come once the next node has been read. -/
def defer (e : Expectation) : Parsing Unit := modify fun g => { g with later := e :: g.later }

/-- Goes on with what was deferred last. -/
def resume : Parsing Unit :=
  modify fun g => { g with expects := g.later.headD .nothing, later := g.later.drop 1 }

def openAt (m : Mark) : Parsing Unit := modify fun g => { g with opened := m :: g.opened }

def closeCollection : Parsing Unit := modify fun g => { g with opened := g.opened.drop 1 }

def fail {α : Type} (context : String) (since : Mark) (problem : String) (at_ : Mark) : Parsing α :=
  throw (.report ⟨some context, some since, problem, at_⟩)

def failPlain {α : Type} (problem : String) (at_ : Mark) : Parsing α :=
  throw (.report ⟨none, none, problem, at_⟩)

/-- An empty scalar, where a node is left out. -/
def missingNode (m : Mark) : Event := ⟨.scalar none none true [], m⟩

/-- What a node is written with in front: its anchor, its tag, and where the first of them is. -/
structure Properties where
  anchor : Option String := none
  /-- The tag as written, with its place. -/
  tag : Option (Option String × String × Mark) := none
  start : Option Mark := none

/-- Reads an anchor and a tag, in either order, each at most once. -/
def readProperties : Parsing Properties := do
  let t ← peek
  match t.kind with
  | .anchor name =>
    let _ ← take
    let u ← peek
    match u.kind with
    | .tag handle suffix =>
      let _ ← take
      return ⟨some name, some (handle, suffix, u.start), some t.start⟩
    | _ => return ⟨some name, none, some t.start⟩
  | .tag handle suffix =>
    let _ ← take
    let u ← peek
    match u.kind with
    | .anchor name =>
      let _ ← take
      return ⟨some name, some (handle, suffix, t.start), some t.start⟩
    | _ => return ⟨none, some (handle, suffix, t.start), some t.start⟩
  | _ => return {}

/-- The tag in full, its handle replaced by what the document makes of it. -/
def expandTag (p : Properties) : Parsing (Option String) := do
  match p.tag with
  | none => return none
  | some (none, suffix, _) => return some suffix
  | some (some handle, suffix, m) =>
    match (← get).handles.get? handle with
    | some expansion => return some (expansion ++ suffix)
    | none =>
      fail "while parsing a node" (p.start.getD m)
        ("found undefined tag handle " ++ Text.quoted handle) m

/-- Reads a node, or the beginning of one. `block` allows block collections, and `indentless` a
sequence that is not indented more than the mapping around it. -/
def node (block indentless : Bool) : Parsing Event := do
  let first ← peek
  if let .alias name := first.kind then
    let _ ← take
    resume
    return ⟨.alias name, first.start⟩
  let p ← readProperties
  let tag ← expandTag p
  let t ← peek
  let start := p.start.getD t.start
  -- The tag `!` alone leaves the choice to the text.
  let chosen := if tag == some "!" then none else tag
  match t.kind with
  | .scalar text plain =>
    let _ ← take
    resume
    return ⟨.scalar p.anchor chosen ((plain && tag.isNone) || tag == some "!") text, start⟩
  | .flowSequenceStart =>
    expect .flowSequenceFirst
    return ⟨.sequenceStart p.anchor chosen, start⟩
  | .flowMappingStart =>
    expect .flowMappingFirst
    return ⟨.mappingStart p.anchor chosen, start⟩
  | kind =>
    if indentless && kind == .blockEntry then
      expect .indentlessSequence
      return ⟨.sequenceStart p.anchor chosen, start⟩
    else if block && kind == .blockSequenceStart then
      expect .blockSequenceFirst
      return ⟨.sequenceStart p.anchor chosen, start⟩
    else if block && kind == .blockMappingStart then
      expect .blockMappingFirst
      return ⟨.mappingStart p.anchor chosen, start⟩
    else if p.start.isSome then
      resume
      return ⟨.scalar p.anchor chosen chosen.isNone [], start⟩
    else
      fail ("while parsing a " ++ (if block then "block" else "flow") ++ " node") start
        ("expected the node content, but found " ++ Text.quoted kind.name) t.start

/-- Reads a node after which `e` is expected, unless the next token is one of `ends`: then the node
is left out, at the place `m`. -/
def nodeUnless (ends : List TokenKind) (e : Expectation) (m : Mark) (block indentless : Bool) :
    Parsing Event := do
  let t ← peek
  if ends.contains t.kind then
    expect e
    return missingNode m
  else
    defer e
    node block indentless

/-- Reads the directives of a document. -/
def directivesFrom : Nat → Option Unit → Entries String → Parsing (Entries String)
  | 0, _, handles => return handles
  | n + 1, version, handles => do
    let t ← peek
    match t.kind with
    | .directive d =>
      let _ ← take
      match d with
      | .version major _ =>
        if version.isSome then failPlain "found duplicate YAML directive" t.start
        else if major != 1 then
          failPlain "found incompatible YAML document (version 1.* is required)" t.start
        else directivesFrom n (some ()) handles
      | .tag handle expansion =>
        if (handles.get? handle).isSome then
          failPlain ("duplicate tag handle " ++ Text.quoted handle) t.start
        else directivesFrom n version (handles.set handle expansion)
      | .other _ => directivesFrom n version handles
    | _ => return handles

/-- Takes the document ends that stand one after the other. -/
def skipDocumentEnds : Nat → Parsing Unit
  | 0 => return ()
  | n + 1 => do
    if (← peek).kind == .documentEnd then
      let _ ← take
      skipDocumentEnds n

/-- A document with a start marker, or the end of the text. -/
def document : Parsing Event := do
  let bound := (← get).stream.tokens.length + 1
  skipDocumentEnds bound
  let t ← peek
  if t.kind == .streamEnd then
    let _ ← take
    expect .nothing
    return ⟨.streamEnd, t.start⟩
  let handles ← directivesFrom bound none []
  modify fun g => { g with
    handles := handles ++ defaultHandles.filter fun h => (handles.get? h.1).isNone }
  let u ← peek
  if u.kind != .documentStart then
    failPlain ("expected '<document start>', but found " ++ Text.quoted u.kind.name) u.start
  let _ ← take
  defer .documentEnd
  expect .documentContent
  return ⟨.documentStart, t.start⟩

def isDirective : TokenKind → Bool
  | .directive _ => true
  | _ => false

/-- Ends the innermost collection. -/
def finishCollection (kind : EventKind) : Parsing Event := do
  let t ← take
  resume
  closeCollection
  return ⟨kind, t.start⟩

/-- Where the innermost collection began. -/
def lastOpened : Parsing Mark := return (← get).opened.headD ⟨0, 0, 0⟩

/-- Begins a collection: its opening token is taken. -/
def enter : Parsing Unit := do
  let t ← take
  openAt t.start

def blockSequence : Parsing Event := do
  let t ← peek
  match t.kind with
  | .blockEntry =>
    let _ ← take
    nodeUnless [.blockEntry, .blockEnd] .blockSequence t.stop true false
  | .blockEnd => finishCollection .sequenceEnd
  | kind =>
    fail "while parsing a block collection" (← lastOpened)
      ("expected <block end>, but found " ++ Text.quoted kind.name) t.start

def indentlessSequence : Parsing Event := do
  let t ← peek
  if t.kind == .blockEntry then
    let _ ← take
    nodeUnless [.blockEntry, .key, .value, .blockEnd] .indentlessSequence t.stop true false
  else
    resume
    return ⟨.sequenceEnd, t.start⟩

def blockMapping : Parsing Event := do
  let t ← peek
  match t.kind with
  | .key =>
    let _ ← take
    nodeUnless [.key, .value, .blockEnd] .blockMappingValue t.stop true true
  | .blockEnd => finishCollection .mappingEnd
  | kind =>
    fail "while parsing a block mapping" (← lastOpened)
      ("expected <block end>, but found " ++ Text.quoted kind.name) t.start

def blockMappingValue : Parsing Event := do
  let t ← peek
  if t.kind == .value then
    let _ ← take
    nodeUnless [.key, .value, .blockEnd] .blockMapping t.stop true true
  else
    expect .blockMapping
    return missingNode t.start

/-- Takes the comma before an item other than the first. -/
def separator (first : Bool) (context closing : String) : Parsing Unit := do
  let t ← peek
  if first then return ()
  else if t.kind == .flowEntry then
    let _ ← take
  else
    fail context (← lastOpened)
      ("expected ',' or '" ++ closing ++ "', but got " ++ Text.quoted t.kind.name) t.start

def flowSequence (first : Bool) : Parsing Event := do
  if (← peek).kind == .flowSequenceEnd then finishCollection .sequenceEnd
  else
    separator first "while parsing a flow sequence" "]"
    let t ← peek
    if t.kind == .key then
      expect .flowPairKey
      return ⟨.mappingStart none none, t.start⟩
    else if t.kind == .flowSequenceEnd then finishCollection .sequenceEnd
    else
      defer .flowSequence
      node false false

def flowPairKey : Parsing Event := do
  let t ← take
  nodeUnless [.value, .flowEntry, .flowSequenceEnd] .flowPairValue t.stop false false

def flowPairValue : Parsing Event := do
  let t ← peek
  if t.kind == .value then
    let _ ← take
    nodeUnless [.flowEntry, .flowSequenceEnd] .flowPairEnd t.stop false false
  else
    expect .flowPairEnd
    return missingNode t.start

def flowPairEnd : Parsing Event := do
  let t ← peek
  expect .flowSequence
  return ⟨.mappingEnd, t.start⟩

def flowMapping (first : Bool) : Parsing Event := do
  if (← peek).kind == .flowMappingEnd then finishCollection .mappingEnd
  else
    separator first "while parsing a flow mapping" "\x7d"
    let t ← peek
    if t.kind == .key then
      let _ ← take
      nodeUnless [.value, .flowEntry, .flowMappingEnd] .flowMappingValue t.stop false false
    else if t.kind == .flowMappingEnd then finishCollection .mappingEnd
    else
      defer .flowMappingMissingValue
      node false false

def flowMappingValue : Parsing Event := do
  let t ← peek
  if t.kind == .value then
    let _ ← take
    nodeUnless [.flowEntry, .flowMappingEnd] .flowMapping t.stop false false
  else
    expect .flowMapping
    return missingNode t.start

/-- Yields the next event. -/
def step : Parsing Event := do
  match (← get).expects with
  | .firstDocument =>
    let t ← peek
    if isDirective t.kind || [.documentStart, .streamEnd].contains t.kind then document
    else
      modify fun g => { g with handles := defaultHandles }
      defer .documentEnd
      expect .blockNode
      return ⟨.documentStart, t.start⟩
  | .document => document
  | .documentContent =>
    let t ← peek
    if isDirective t.kind || [.documentStart, .documentEnd, .streamEnd].contains t.kind then
      resume
      return missingNode t.start
    else node true false
  | .documentEnd =>
    let t ← peek
    if t.kind == .documentEnd then
      let _ ← take
    expect .document
    return ⟨.documentEnd, t.start⟩
  | .blockNode => node true false
  | .blockSequenceFirst => enter; blockSequence
  | .blockSequence => blockSequence
  | .indentlessSequence => indentlessSequence
  | .blockMappingFirst => enter; blockMapping
  | .blockMapping => blockMapping
  | .blockMappingValue => blockMappingValue
  | .flowSequenceFirst => enter; flowSequence true
  | .flowSequence => flowSequence false
  | .flowPairKey => flowPairKey
  | .flowPairValue => flowPairValue
  | .flowPairEnd => flowPairEnd
  | .flowMappingFirst => enter; flowMapping true
  | .flowMapping => flowMapping false
  | .flowMappingValue => flowMappingValue
  | .flowMappingMissingValue =>
    let t ← peek
    expect .flowMapping
    return missingNode t.start
  | .nothing => return ⟨.streamEnd, ⟨0, 0, 0⟩⟩

end Grammar

/-- The events of a text, and the fault that ends them, if there is one. -/
structure EventStream where
  events : List Event
  fault : Option Fault

/-- Yields events up to the end of the stream; the count bounds their number. -/
def EventStream.readFrom : Nat → Grammar → EventStream
  | 0, _ => ⟨[], none⟩
  | n + 1, g =>
    match (Grammar.step).run g with
    | .error e => ⟨[], some e⟩
    | .ok (event, g) =>
      if event.kind == .streamEnd then ⟨[event], none⟩
      else
        let rest := readFrom n g
        ⟨event :: rest.events, rest.fault⟩

/-- The events of a token stream. Each token leads to at most four of them. -/
def EventStream.ofTokens (stream : TokenStream) : EventStream :=
  let inner := { stream with tokens := stream.tokens.drop 1 }
  readFrom (4 * stream.tokens.length + 8) { stream := inner }

end JobMatrix.Yaml
