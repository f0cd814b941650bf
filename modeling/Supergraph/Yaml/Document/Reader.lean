import Supergraph.Yaml.Document
import Supergraph.Yaml.Token

namespace Supergraph.Yaml

structure ReaderState where
  tokens : List Token
  anchors : List (String × Nat) := []
  anchored : List (Nat × Node) := []

abbrev Reader := StateT ReaderState Option

namespace Reader

def next? : Reader (Option Token) := return (← get).tokens.head?

def atOneOf (tokens : List Token) : Reader Bool := return (← next?).any tokens.contains

def skip : Reader Unit := modify fun s => { s with tokens := s.tokens.tail }

def skipIf (token : Token) : Reader Bool := do
  if ← atOneOf [token] then
    skip
    return true
  else return false

def require (token : Token) : Reader Unit := do
  if !(← skipIf token) then failure

structure Properties where
  anchor : Option Nat := none
  tag : Option Tag := none

def anchor : Reader (Option Nat) := do
  if let some (.anchor name) ← next? then
    skip
    let number := (← get).anchors.length
    -- The name may have been in use before.
    modify fun s => { s with anchors := (name, number) :: s.anchors }
    return number
  else return none

def tag : Reader (Option Tag) := do
  if let some (.tag tag) ← next? then
    skip
    return tag
  else return none

def properties : Reader Properties := do
  let first ← anchor
  let tag ← tag
  if first.isSome then return { anchor := first, tag }
  else if tag.isSome then return { anchor := ← anchor, tag }
  else return {}

def complete (p : Properties) (node : Node) : Reader Node := do
  if let some number := p.anchor then
    modify fun s => { s with anchored := (number, node) :: s.anchored }
  return node

def reference (name : String) : Reader Node := do
  match (← get).anchors.lookup name with
  | some number => return .reference number
  | none => failure

mutual

/--
A node. A block collection can stand where `block` says so, and a sequence that is indented no
further than its key where `loose` does. Properties may stand alone.
-/
def node (fuel : Nat) (block loose : Bool) : Reader Node := do
  match fuel with
  | 0 => failure
  | fuel + 1 =>
    if let some (.reference name) ← next? then
      skip
      return ← reference name
    let p ← properties
    match ← next?, block, loose with
    | some (.scalar text plain), _, _ => do
      skip
      complete p (.scalar text plain p.tag)
    | some (.opening .square), _, _ => do
      skip
      complete p (.sequence (← flowItems fuel true))
    | some (.opening .curly), _, _ => do
      skip
      complete p (.mapping (← flowEntries fuel true))
    | some .sequenceStart, true, _ => do
      skip
      complete p (.sequence (← blockItems fuel))
    | some .mappingStart, true, _ => do
      skip
      complete p (.mapping (← blockEntries fuel))
    | some .item, _, true => complete p (.sequence (← looseItems fuel))
    | _, _, _ =>
      if p.anchor.isNone && p.tag.isNone then failure
      complete p (.scalar "" true p.tag)

def optionalNode (fuel : Nat) (ends : List Token) (block loose : Bool) : Reader Node := do
  match fuel with
  | 0 => failure
  | fuel + 1 => if ← atOneOf ends then return .absent else node fuel block loose

def optionalValue (fuel : Nat) (ends : List Token) (block : Bool) : Reader Node := do
  match fuel with
  | 0 => failure
  | fuel + 1 => if ← skipIf .value then optionalNode fuel ends block block else return .absent

def blockItems (fuel : Nat) : Reader (List Node) := do
  match fuel with
  | 0 => failure
  | fuel + 1 =>
    if ← skipIf .blockEnd then return []
    require .item
    let item ← optionalNode fuel [.item, .blockEnd] true false
    return item :: (← blockItems fuel)

def looseItems (fuel : Nat) : Reader (List Node) := do
  match fuel with
  | 0 => failure
  | fuel + 1 =>
    -- The next key ends the sequence, which is indented no further than that.
    if !(← skipIf .item) then return []
    let item ← optionalNode fuel [.item, .key, .value, .blockEnd] true false
    return item :: (← looseItems fuel)

def blockEntries (fuel : Nat) : Reader (List (Node × Node)) := do
  match fuel with
  | 0 => failure
  | fuel + 1 =>
    if ← skipIf .blockEnd then return []
    let ends := [.key, .value, .blockEnd]
    let key ←
      if ← skipIf .key then optionalNode fuel ends true true
      else if ← atOneOf [.value] then pure .absent
      else failure
    let value ← optionalValue fuel ends true
    return (key, value) :: (← blockEntries fuel)

def flowItems (fuel : Nat) (first : Bool) : Reader (List Node) := do
  match fuel with
  | 0 => failure
  | fuel + 1 =>
    if ← skipIf (.closing .square) then return []
    if !first then
      require .comma
      if ← skipIf (.closing .square) then return []
    let item ←
      if ← skipIf .key then do
        let key ←
          if ← atOneOf [.value, .comma, .closing .square] then do
            -- Where the key is missing, whatever ends it is passed over.
            skip
            pure .absent
          else node fuel false false
        pure (.mapping [(key, ← optionalValue fuel [.comma, .closing .square] false)])
      else node fuel false false
    return item :: (← flowItems fuel false)

def flowEntries (fuel : Nat) (first : Bool) : Reader (List (Node × Node)) := do
  match fuel with
  | 0 => failure
  | fuel + 1 =>
    if ← skipIf (.closing .curly) then return []
    if !first then
      require .comma
      if ← skipIf (.closing .curly) then return []
    let ends := [.comma, .closing .curly]
    let entry ←
      if ← skipIf .key then do
        let key ← optionalNode fuel (.value :: ends) false false
        pure (key, ← optionalValue fuel ends false)
      else if ← atOneOf [.value] then
        pure (.absent, ← optionalValue fuel ends false)
      else pure (← node fuel false false, .absent)
    return entry :: (← flowEntries fuel false)

end

def document (fuel : Nat) : Reader Document := do
  let directed ← atOneOf [.directive]
  modify fun s => { s with tokens := s.tokens.dropWhile (· = .directive) }
  let root ←
    if ← skipIf .documentStart then
      if (← next?).isNone then pure .absent
      else optionalNode fuel [.directive, .documentStart, .documentEnd] true false
    else if directed then failure
    else node fuel true false
  let s ← get
  -- Nothing but marks of the end may follow.
  if s.tokens.any (· ≠ .documentEnd) then failure
  return { root, anchored := s.anchored }

end Reader

def Document.parse? (text : String) : Option Document := do
  let tokens ← Token.scan? text
  -- Only few steps in a row take no token, so these are enough.
  (Reader.document (4 * tokens.length + 8)).run' { tokens }

end Supergraph.Yaml
