import ManifestSecrets.Yaml.Token.Scan

set_option autoImplicit false

namespace ManifestSecrets.Yaml

structure Properties where
  anchor : Option String := none
  tag : Option String := none
deriving DecidableEq, Repr

inductive Event where
  | documentStart
  | documentEnd
  | alias (name : String)
  | scalar (properties : Properties) (plain : Bool) (text : String)
  | sequenceStart (properties : Properties)
  | sequenceEnd
  | mappingStart (properties : Properties)
  | mappingEnd
  | streamEnd
  | fault
deriving DecidableEq, Repr

inductive Expect where
  | firstDocument
  | document
  | documentContent
  | documentEnd
  | blockNode
  | blockSequenceFirst
  | blockSequenceEntry
  | indentlessEntry
  | blockMappingFirst
  | blockMappingKey
  | blockMappingValue
  | flowSequenceFirst
  | flowSequenceEntry
  | flowPairKey
  | flowPairValue
  | flowPairEnd
  | flowMappingFirst
  | flowMappingKey
  | flowMappingValue
  | flowMappingEmptyValue
  | nothing
deriving DecidableEq, Repr

structure Grammar where
  tokens : List Token
  expect : Expect := .firstDocument
  stack : List Expect := []
  handles : List (String × String) := []

namespace Grammar

def emptyScalar : Event := .scalar {} true ""

def next (g : Grammar) : Grammar := { g with tokens := g.tokens.drop 1 }

def push (g : Grammar) (e : Expect) : Grammar := { g with stack := e :: g.stack }

def pop (g : Grammar) : Grammar := { g with expect := g.stack.headD .nothing, stack := g.stack.drop 1 }

def goto (g : Grammar) (e : Expect) : Grammar := { g with expect := e }

def head (g : Grammar) : Token := g.tokens.headD .fault

def defaultHandles : List (String × String) := [("!", "!"), ("!!", "tag:yaml.org,2002:")]

def directives? : List Token → Bool → List (String × String) → Option (List Token × List (String × String))
  | .version major minor :: rest, seen, handles =>
      if seen || major ≠ 1 || (minor ≠ 1 && minor ≠ 2) then none else directives? rest true handles
  | .tagDirective handle pfx :: rest, seen, handles =>
      if handles.any (·.1 == handle) then none else directives? rest seen (handles ++ [(handle, pfx)])
  | tokens, _, handles => some (tokens, handles)

def tag? (g : Grammar) (handle suffix : String) : Option String :=
  if handle = "" then some suffix
  else ((g.handles ++ defaultHandles).find? (·.1 == handle)).map fun found => found.2 ++ suffix

def properties? (g : Grammar) : Option (Properties × Grammar) :=
  match g.tokens with
  | .anchor name :: .tag handle suffix :: _ => do
      return (⟨some name, ← g.tag? handle suffix⟩, g.next.next)
  | .tag handle suffix :: .anchor name :: _ => do
      return (⟨some name, ← g.tag? handle suffix⟩, g.next.next)
  | .anchor name :: _ => some (⟨some name, none⟩, g.next)
  | .tag handle suffix :: _ => do return (⟨none, ← g.tag? handle suffix⟩, g.next)
  | _ => some ({}, g)

-- A node after its properties. An empty node has to have some. On a scalar the mark alone is no tag.
def content? (g : Grammar) (p : Properties) (block indentless : Bool) : Option (Event × Grammar) :=
  match g.head with
  | .blockEntry =>
      if indentless then some (.sequenceStart p, g.goto .indentlessEntry) else empty?
  | .scalar plain text =>
      let tag := if p.tag == some "!" then none else p.tag
      some (.scalar { p with tag } plain text, g.pop.next)
  | .flowSequenceStart => some (.sequenceStart p, g.goto .flowSequenceFirst)
  | .flowMappingStart => some (.mappingStart p, g.goto .flowMappingFirst)
  | .blockSequenceStart => if block then some (.sequenceStart p, g.goto .blockSequenceFirst) else empty?
  | .blockMappingStart => if block then some (.mappingStart p, g.goto .blockMappingFirst) else empty?
  | .fault => none
  | _ => empty?
where
  empty? : Option (Event × Grammar) :=
    if p.anchor.isSome || p.tag.isSome then some (.scalar p true "", g.pop) else none

def node? (g : Grammar) (block indentless : Bool) : Option (Event × Grammar) :=
  match g.head with
  | .alias name => some (.alias name, g.pop.next)
  | _ => do
      let (p, g) ← g.properties?
      g.content? p block indentless

def nodeOr? (g : Grammar) (ends : List Token) (block indentless : Bool) (after : Expect) : Option (Event × Grammar) :=
  if g.head == .fault then none
  else if ends.contains g.head then some (emptyScalar, g.goto after)
  else (g.push after).node? block indentless

def explicitDocument? (g : Grammar) : Option (Event × Grammar) :=
  match g.head with
  | .streamEnd => some (.streamEnd, (g.goto .nothing).next)
  | _ => do
      let (tokens, handles) ← directives? g.tokens false []
      match tokens with
      | .documentStart :: rest =>
          return (.documentStart, { g with
            tokens := rest, handles, expect := .documentContent, stack := .documentEnd :: g.stack })
      | _ => none

def document? (g : Grammar) (first : Bool) : Option (Event × Grammar) :=
  if first then
    match g.head with
    | .fault => none
    | .version .. | .tagDirective .. | .documentStart | .streamEnd => g.explicitDocument?
    | _ => some (.documentStart, { g with handles := [], expect := .blockNode, stack := .documentEnd :: g.stack })
  else explicitDocument? { g with tokens := g.tokens.dropWhile (· == .documentEnd) }

def documentContent? (g : Grammar) : Option (Event × Grammar) :=
  match g.head with
  | .version .. | .tagDirective .. | .documentStart | .documentEnd | .streamEnd => some (emptyScalar, g.pop)
  | _ => g.node? true false

def documentEnd? (g : Grammar) : Option (Event × Grammar) :=
  match g.head with
  | .fault => none
  | .documentEnd => some (.documentEnd, { g.next with handles := [], expect := .document })
  | _ => some (.documentEnd, { g with handles := [], expect := .document })

def blockSequenceEntry? (g : Grammar) : Option (Event × Grammar) :=
  match g.head with
  | .blockEntry => g.next.nodeOr? [.blockEntry, .blockEnd] true false .blockSequenceEntry
  | .blockEnd => some (.sequenceEnd, g.pop.next)
  | _ => none

def indentlessEntry? (g : Grammar) : Option (Event × Grammar) :=
  match g.head with
  | .blockEntry => g.next.nodeOr? [.blockEntry, .key, .value, .blockEnd] true false .indentlessEntry
  | .fault => none
  | _ => some (.sequenceEnd, g.pop)

def blockMappingKey? (g : Grammar) : Option (Event × Grammar) :=
  match g.head with
  | .key => g.next.nodeOr? [.key, .value, .blockEnd] true true .blockMappingValue
  | .blockEnd => some (.mappingEnd, g.pop.next)
  | _ => none

def blockMappingValue? (g : Grammar) : Option (Event × Grammar) :=
  match g.head with
  | .value => g.next.nodeOr? [.key, .value, .blockEnd] true true .blockMappingKey
  | .fault => none
  | _ => some (emptyScalar, g.goto .blockMappingKey)

def comma? (g : Grammar) (first : Bool) (closing : Token) : Option Grammar :=
  if first || g.head == closing then some g
  else if g.head == .flowEntry then some g.next
  else none

def flowSequenceEntry? (g : Grammar) (first : Bool) : Option (Event × Grammar) := do
  let g ← g.comma? first .flowSequenceEnd
  match g.head with
  | .flowSequenceEnd => return (.sequenceEnd, g.pop.next)
  | .key => return (.mappingStart {}, (g.goto .flowPairKey).next)
  | _ => (g.push .flowSequenceEntry).node? false false

-- The key of a pair inside a flow sequence. The token that ends an empty key is passed over.
def flowPairKey? (g : Grammar) : Option (Event × Grammar) :=
  match g.head with
  | .value | .flowEntry | .flowSequenceEnd => some (emptyScalar, g.next.goto .flowPairValue)
  | _ => (g.push .flowPairValue).node? false false

def flowPairValue? (g : Grammar) : Option (Event × Grammar) :=
  match g.head with
  | .value => g.next.nodeOr? [.flowEntry, .flowSequenceEnd] false false .flowPairEnd
  | .fault => none
  | _ => some (emptyScalar, g.goto .flowPairEnd)

def flowMappingKey? (g : Grammar) (first : Bool) : Option (Event × Grammar) := do
  let g ← g.comma? first .flowMappingEnd
  match g.head with
  | .flowMappingEnd => return (.mappingEnd, g.pop.next)
  | .key => g.next.nodeOr? [.value, .flowEntry, .flowMappingEnd] false false .flowMappingValue
  | _ => (g.push .flowMappingEmptyValue).node? false false

def flowMappingValue? (g : Grammar) : Option (Event × Grammar) :=
  match g.head with
  | .value => g.next.nodeOr? [.flowEntry, .flowMappingEnd] false false .flowMappingKey
  | .fault => none
  | _ => some (emptyScalar, g.goto .flowMappingKey)

def flowMappingEmptyValue? (g : Grammar) : Option (Event × Grammar) :=
  match g.head with
  | .fault => none
  | _ => some (emptyScalar, g.goto .flowMappingKey)

def step? (g : Grammar) : Option (Event × Grammar) :=
  match g.expect with
  | .firstDocument => g.document? true
  | .document => g.document? false
  | .documentContent => g.documentContent?
  | .documentEnd => g.documentEnd?
  | .blockNode => g.node? true false
  | .blockSequenceFirst => g.next.blockSequenceEntry?
  | .blockSequenceEntry => g.blockSequenceEntry?
  | .indentlessEntry => g.indentlessEntry?
  | .blockMappingFirst => g.next.blockMappingKey?
  | .blockMappingKey => g.blockMappingKey?
  | .blockMappingValue => g.blockMappingValue?
  | .flowSequenceFirst => g.next.flowSequenceEntry? true
  | .flowSequenceEntry => g.flowSequenceEntry? false
  | .flowPairKey => g.flowPairKey?
  | .flowPairValue => g.flowPairValue?
  | .flowPairEnd => some (.mappingEnd, g.goto .flowSequenceEntry)
  | .flowMappingFirst => g.next.flowMappingKey? true
  | .flowMappingKey => g.flowMappingKey? false
  | .flowMappingValue => g.flowMappingValue?
  | .flowMappingEmptyValue => g.flowMappingEmptyValue?
  | .nothing => none

def run : Nat → Grammar → List Event → List Event
  | 0, _, events => (.fault :: events).reverse
  | steps + 1, g, events =>
      match g.step? with
      | none => (.fault :: events).reverse
      | some (.streamEnd, _) => (.streamEnd :: events).reverse
      | some (event, g) => run steps g (event :: events)

end Grammar

-- The events of a text, up to the end or to a fault. Between two tokens lie at most three events that
-- take none, so five steps for each token are enough.
def Event.ofText (s : String) : List Event :=
  let tokens := Token.ofText s
  Grammar.run (5 * tokens.length + 5) { tokens } []

end ManifestSecrets.Yaml
