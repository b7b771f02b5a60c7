import AuroraMigration.Yaml.Node
import AuroraMigration.Yaml.Tokens

/-!
# Documents of YAML

A document is the node that the tokens of a text make up. Nodes may be named by
anchors, and an alias stands for the node that has its name. Only one document
may stand in a text.
-/

namespace AuroraMigration.Yaml

/-- The nodes that have names, the last named first; a node that is still being read is missing. -/
abbrev Anchors := List (Text × Option Yaml)

/-- A node with what follows it: the tokens after it and the names up to there. -/
structure Parsed (α : Type) where
  value : α
  tokens : List Token
  anchors : Anchors

def Parsed.map {α β : Type} (f : α → β) (parsed : Parsed α) : Parsed β :=
  { value := f parsed.value, tokens := parsed.tokens, anchors := parsed.anchors }

structure Properties where
  anchor : Option Text := none
  tag : Option Text := none

def splitProperties : List Token → Properties × List Token
  | .anchor name :: .tag tag :: rest => ({ anchor := some name, tag := some tag }, rest)
  | .anchor name :: rest => ({ anchor := some name }, rest)
  | .tag tag :: .anchor name :: rest => ({ anchor := some name, tag := some tag }, rest)
  | .tag tag :: rest => ({ tag := some tag }, rest)
  | tokens => ({}, tokens)

def Properties.name (properties : Properties) (parsed : Parsed Yaml) : Parsed Yaml :=
  match properties.anchor with
  | some name => { parsed with anchors := (name, some parsed.value) :: parsed.anchors }
  | none => parsed

def endsBlockPart (token : Option Token) : Bool :=
  token == some .key || token == some .value || token == some .blockEnd

def endsFlowPart (token : Option Token) : Bool :=
  token == some .comma || token == some .flowListEnd || token == some .flowMapEnd

mutual

/--
Read a node; `block` says whether a block may start, and `flush` whether a list
may start without a block of its own. The number of nodes is bounded by `fuel`.
-/
def readNode? (fuel : Nat) (block flush : Bool) (tokens : List Token) (anchors : Anchors) :
    Option (Parsed Yaml) :=
  match fuel with
  | 0 => none
  | fuel + 1 =>
      match tokens with
      | .alias name :: rest =>
          match anchors.lookup name with
          | some (some value) => some { value, tokens := rest, anchors }
          | _ => none
      | _ =>
          let (properties, tokens) := splitProperties tokens
          let anchors := match properties.anchor with
            | some name => (name, none) :: anchors
            | none => anchors
          (readContent? fuel block flush properties tokens anchors).map properties.name

def readContent? (fuel : Nat) (block flush : Bool) (properties : Properties) (tokens : List Token)
    (anchors : Anchors) : Option (Parsed Yaml) :=
  match fuel with
  | 0 => none
  | fuel + 1 =>
      match tokens with
      | .scalar style text :: rest =>
          some { value := .scalar style properties.tag text, tokens := rest, anchors }
      | .flowList :: rest => (readFlowItems? fuel true rest anchors).map (·.map .list)
      | .flowMap :: rest => (readFlowEntries? fuel true rest anchors).map (·.map .map)
      | token :: rest =>
          if flush ∧ token = .item then (readFlushItems? fuel tokens anchors).map (·.map .list)
          else if block ∧ token = .blockList then
            (readItems? fuel rest anchors).map (·.map .list)
          else if block ∧ token = .blockMap then
            (readEntries? fuel rest anchors).map (·.map .map)
          else if properties.anchor.isSome || properties.tag.isSome then
            some { value := .scalar .plain properties.tag [], tokens, anchors }
          else none
      | [] => none

def readItems? (fuel : Nat) (tokens : List Token) (anchors : Anchors) :
    Option (Parsed (List Yaml)) :=
  match fuel with
  | 0 => none
  | fuel + 1 =>
      match tokens with
      | .blockEnd :: rest => some { value := [], tokens := rest, anchors }
      | .item :: rest => do
          let item ←
            if rest.head? = some .item ∨ rest.head? = some .blockEnd then
              some { value := absent, tokens := rest, anchors }
            else readNode? fuel true false rest anchors
          let items ← readItems? fuel item.tokens item.anchors
          some (items.map (item.value :: ·))
      | _ => none

/-- Read the items of a list that has no block of its own. -/
def readFlushItems? (fuel : Nat) (tokens : List Token) (anchors : Anchors) :
    Option (Parsed (List Yaml)) :=
  match fuel with
  | 0 => none
  | fuel + 1 =>
      match tokens with
      | .item :: rest => do
          let item ←
            if rest.head? = some .item || endsBlockPart rest.head? then
              some { value := absent, tokens := rest, anchors }
            else readNode? fuel true false rest anchors
          let items ← readFlushItems? fuel item.tokens item.anchors
          some (items.map (item.value :: ·))
      | _ => some { value := [], tokens, anchors }

def readEntries? (fuel : Nat) (tokens : List Token) (anchors : Anchors) :
    Option (Parsed (List (Yaml × Yaml))) :=
  match fuel with
  | 0 => none
  | fuel + 1 =>
      match tokens with
      | .blockEnd :: rest => some { value := [], tokens := rest, anchors }
      | .key :: rest => do
          let key ←
            if endsBlockPart rest.head? then some { value := absent, tokens := rest, anchors }
            else readNode? fuel true true rest anchors
          readEntry? fuel key
      | .value :: _ => readEntry? fuel { value := absent, tokens, anchors }
      | _ => none

def readEntry? (fuel : Nat) (key : Parsed Yaml) : Option (Parsed (List (Yaml × Yaml))) :=
  match fuel with
  | 0 => none
  | fuel + 1 => do
      let value ← match key.tokens with
        | .value :: rest =>
            if endsBlockPart rest.head? then some { key with value := absent, tokens := rest }
            else readNode? fuel true true rest key.anchors
        | _ => some { key with value := absent }
      let entries ← readEntries? fuel value.tokens value.anchors
      some (entries.map ((key.value, value.value) :: ·))

/-- Read a key or value inside a flow collection, which is missing before the end of its part. -/
def readFlowPart? (fuel : Nat) (tokens : List Token) (anchors : Anchors) : Option (Parsed Yaml) :=
  match fuel with
  | 0 => none
  | fuel + 1 =>
      if endsFlowPart tokens.head? ∨ tokens.head? = some .value then
        some { value := absent, tokens, anchors }
      else readNode? fuel false false tokens anchors

def readFlowValue? (fuel : Nat) (key : Parsed Yaml) : Option (Parsed (Yaml × Yaml)) :=
  match fuel with
  | 0 => none
  | fuel + 1 =>
      match key.tokens with
      | .value :: rest =>
          if endsFlowPart rest.head? then
            some { key with value := (key.value, absent), tokens := rest }
          else (readNode? fuel false false rest key.anchors).map (·.map ((key.value, ·)))
      | _ => some { key with value := (key.value, absent) }

/-- Read the items of a flow list up to its bracket, with a comma before all but the first. -/
def readFlowItems? (fuel : Nat) (first : Bool) (tokens : List Token) (anchors : Anchors) :
    Option (Parsed (List Yaml)) :=
  match fuel with
  | 0 => none
  | fuel + 1 => do
      let tokens ← match tokens with
        | .comma :: rest => if first then none else some rest
        | .flowListEnd :: _ => some tokens
        | _ => if first then some tokens else none
      match tokens with
      | .flowListEnd :: rest => some { value := [], tokens := rest, anchors }
      | _ =>
          let item ← readFlowItem? fuel tokens anchors
          let items ← readFlowItems? fuel false item.tokens item.anchors
          some (items.map (item.value :: ·))

/-- Read an item of a flow list; a key with its value is a mapping of one entry. -/
def readFlowItem? (fuel : Nat) (tokens : List Token) (anchors : Anchors) : Option (Parsed Yaml) :=
  match fuel with
  | 0 => none
  | fuel + 1 =>
      match tokens with
      | .key :: rest => do
          let key ← readFlowPart? fuel rest anchors
          let entry ← readFlowValue? fuel key
          some (entry.map fun entry => .map [entry])
      | .value :: _ => do
          let entry ← readFlowValue? fuel { value := absent, tokens, anchors }
          some (entry.map fun entry => .map [entry])
      | _ => readNode? fuel false false tokens anchors

def readFlowEntries? (fuel : Nat) (first : Bool) (tokens : List Token) (anchors : Anchors) :
    Option (Parsed (List (Yaml × Yaml))) :=
  match fuel with
  | 0 => none
  | fuel + 1 => do
      let tokens ← match tokens with
        | .comma :: rest => if first then none else some rest
        | .flowMapEnd :: _ => some tokens
        | _ => if first then some tokens else none
      match tokens with
      | .flowMapEnd :: rest => some { value := [], tokens := rest, anchors }
      | _ =>
          let entry ← readFlowEntry? fuel tokens anchors
          let entries ← readFlowEntries? fuel false entry.tokens entry.anchors
          some (entries.map (entry.value :: ·))

/-- Read an entry of a flow mapping; a node that is no key has no value. -/
def readFlowEntry? (fuel : Nat) (tokens : List Token) (anchors : Anchors) :
    Option (Parsed (Yaml × Yaml)) :=
  match fuel with
  | 0 => none
  | fuel + 1 =>
      match tokens with
      | .key :: rest => do
          let key ← readFlowPart? fuel rest anchors
          readFlowValue? fuel key
      | .value :: _ => readFlowValue? fuel { value := absent, tokens, anchors }
      | _ => (readNode? fuel false false tokens anchors).map (·.map ((·, absent)))

end

def Token.isDirective (token : Token) : Bool :=
  token == .directive true || token == .directive false

/-- The tokens after the directives and the start marker of a document, if it has them. -/
def skipPrologue? (tokens : List Token) : Option (List Token) :=
  let directives := tokens.takeWhile (·.isDirective)
  match tokens.drop directives.length with
  | .documentStart :: rest => if directives.count (.directive true) ≤ 1 then some rest else none
  | rest => if directives.isEmpty then some rest else none

def endsDocument (token : Option Token) : Bool :=
  token.any fun token =>
    token.isDirective || token == .documentStart || token == .documentEnd || token == .finish

def readRoot? (tokens : List Token) : Option (Parsed Yaml) :=
  if endsDocument tokens.head? then some { value := absent, tokens, anchors := [] }
  else readNode? (4 * tokens.length + 4) true false tokens []

/-- Whether a text may go on after its first end marker: not with another document. -/
def mayFollowEnd (tokens : List Token) : Bool :=
  match tokens.dropWhile (· == .documentEnd) with
  | .finish :: _ => true
  | .invalid :: _ => true
  | token :: rest => token.isDirective && (skipPrologue? (token :: rest)).isNone
  | [] => false

/--
Whether a text may go on after its document: not with another document, nor with
anything that cannot be read. What else follows without a marker is passed over.
-/
def mayFollowDocument : List Token → Bool
  | .documentEnd :: rest => mayFollowEnd rest
  | .documentStart :: _ => false
  | .invalid :: _ => false
  | token :: _ => !token.isDirective
  | [] => false

def read? (s : Text) : Option Yaml := do
  let tokens ← skipPrologue? ((tokens s).dropWhile (· == .documentEnd))
  let root ← readRoot? tokens
  if mayFollowDocument root.tokens then some root.value else none

end AuroraMigration.Yaml
