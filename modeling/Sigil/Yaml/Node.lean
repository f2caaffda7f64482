import Sigil.Yaml.Token

/-!
# The tree of a configuration text

Tokens become a tree of scalars, sequences and mappings.  A text that breaks a rule still has a
tree: it ends in `Node.cut` where the rule is broken, and the collections around that place stay
open.  So what stands before a broken place can be examined first.
-/

namespace Sigil.Yaml

/-- A piece of a configuration. -/
inductive Node where
  /-- A scalar; `plain` says that it stood without quotes.  A missing value is the empty plain
  scalar. -/
  | scalar (text : String) (plain : Bool)
  /-- A sequence; an open one breaks off behind its last element. -/
  | sequence (items : List Node) (closed : Bool)
  /-- A mapping; an open one breaks off behind its last pair. -/
  | mapping (pairs : List (Node × Node)) (closed : Bool)
  /-- The place where the text breaks a rule. -/
  | cut
deriving Inhabited

namespace Node

/-- A missing value. -/
def missing : Node := .scalar "" true

/-- Something read from tokens, and the tokens behind it if the text did not break off. -/
abbrev Parsed (α : Type) := α × Option (List Token)

/-- The text breaks off. -/
def broken {α : Type} (a : α) : Parsed α := (a, none)

/-- A sequence of what was read. -/
def asSequence (r : Parsed (List Node)) : Parsed Node := (.sequence r.1 r.2.isSome, r.2)

/-- A mapping of what was read. -/
def asMapping (r : Parsed (List (Node × Node))) : Parsed Node := (.mapping r.1 r.2.isSome, r.2)

/-- Goes on behind the first part of a list. -/
def andThen {α : Type} (first : Parsed α) (more : List Token → Parsed (List α)) :
    Parsed (List α) :=
  match first with
  | (a, none) => ([a], none)
  | (a, some rest) =>
    let (as, rest) := more rest
    (a :: as, rest)

/-- A node that is missing if one of the tokens `enders` comes next. -/
def orMissing (enders : List Token) (parse : List Token → Parsed Node) (ts : List Token) :
    Parsed Node :=
  match ts with
  | t :: _ => if enders.contains t then (missing, some ts) else parse ts
  | [] => parse ts

/-- A key and its value, where the value comes behind the token `value`.  That there is none is only
known when another token follows. -/
def pairOf (enders : List Token) (parse : List Token → Parsed Node) (key : Parsed Node) :
    Parsed (Node × Node) :=
  match key with
  | (key, some (.value :: rest)) =>
    let (value, rest) := orMissing enders parse rest
    ((key, value), rest)
  | (key, some (t :: rest)) => ((key, missing), some (t :: rest))
  | (key, _) => ((key, .cut), none)

/-- A key by itself, which has no value if another token follows. -/
def bareKey (key : Parsed Node) : Parsed (Node × Node) :=
  match key with
  | (key, some (t :: rest)) => ((key, missing), some (t :: rest))
  | (key, _) => ((key, .cut), none)

/-- A pair that is an element of a sequence.  It ends where another token follows. -/
def asElement (pair : Parsed (Node × Node)) : Parsed Node :=
  match pair with
  | (pair, some (t :: rest)) => (.mapping [pair] true, some (t :: rest))
  | (pair, _) => (.mapping [pair] false, none)

mutual

/-- A node.  `block` allows block collections, and `bare` a sequence without indentation.  The
first argument bounds the nesting and the number of elements. -/
def node (block bare : Bool) : Nat → List Token → Parsed Node
  | 0, _ => broken .cut
  | n + 1, ts =>
    match ts with
    | .scalar text plain :: rest => (.scalar text plain, some rest)
    | .flowSequence :: rest => asSequence (flowItems true n rest)
    | .flowMapping :: rest => asMapping (flowPairs true n rest)
    | .blockSequence :: rest => if block then asSequence (blockItems n rest) else broken .cut
    | .blockMapping :: rest => if block then asMapping (blockPairs n rest) else broken .cut
    | .entry :: _ => if bare then asSequence (bareItems n ts) else broken .cut
    | _ => broken .cut

/-- The elements of a block sequence. -/
def blockItems : Nat → List Token → Parsed (List Node)
  | 0, _ => broken []
  | n + 1, ts =>
    match ts with
    | .entry :: rest =>
      andThen (orMissing [.entry, .blockEnd] (node true false n) rest) (blockItems n)
    | .blockEnd :: rest => ([], some rest)
    | _ => broken []

/-- The elements of a sequence without indentation. -/
def bareItems : Nat → List Token → Parsed (List Node)
  | 0, _ => broken []
  | n + 1, ts =>
    match ts with
    | .entry :: rest =>
      andThen (orMissing [.entry, .key, .value, .blockEnd] (node true false n) rest) (bareItems n)
    | [] => broken []
    | ts => ([], some ts)

/-- The pairs of a block mapping. -/
def blockPairs : Nat → List Token → Parsed (List (Node × Node))
  | 0, _ => broken []
  | n + 1, ts =>
    let enders := [Token.key, .value, .blockEnd]
    match ts with
    | .key :: rest =>
      andThen (pairOf enders (node true true n) (orMissing enders (node true true n) rest))
        (blockPairs n)
    | .blockEnd :: rest => ([], some rest)
    | _ => broken []

/-- The elements of a flow sequence; a comma stands before each but the first. -/
def flowItems (first : Bool) : Nat → List Token → Parsed (List Node)
  | 0, _ => broken []
  | n + 1, ts =>
    match ts, first with
    | .flowSequenceEnd :: rest, _ => ([], some rest)
    | .comma :: rest, false => flowItem n rest
    | _, false => broken []
    | ts, true => flowItem n ts

/-- The elements of a flow sequence from an element on; one with a key is a mapping by itself. -/
def flowItem : Nat → List Token → Parsed (List Node)
  | 0, _ => broken []
  | n + 1, ts =>
    match ts with
    | .flowSequenceEnd :: rest => ([], some rest)
    | .key :: rest =>
      let enders := [Token.value, .comma, .flowSequenceEnd]
      andThen (asElement (pairOf [.comma, .flowSequenceEnd] (node false false n)
        (orMissing enders (node false false n) rest))) (flowItems false n)
    | ts => andThen (node false false n ts) (flowItems false n)

/-- The pairs of a flow mapping; a comma stands before each but the first. -/
def flowPairs (first : Bool) : Nat → List Token → Parsed (List (Node × Node))
  | 0, _ => broken []
  | n + 1, ts =>
    match ts, first with
    | .flowMappingEnd :: rest, _ => ([], some rest)
    | .comma :: rest, false => flowPair n rest
    | _, false => broken []
    | ts, true => flowPair n ts

/-- The pairs of a flow mapping from a pair on; without a key token there is no value. -/
def flowPair : Nat → List Token → Parsed (List (Node × Node))
  | 0, _ => broken []
  | n + 1, ts =>
    match ts with
    | .flowMappingEnd :: rest => ([], some rest)
    | .key :: rest =>
      let enders := [Token.value, .comma, .flowMappingEnd]
      andThen (pairOf [.comma, .flowMappingEnd] (node false false n)
        (orMissing enders (node false false n) rest)) (flowPairs false n)
    | ts => andThen (bareKey (node false false n ts)) (flowPairs false n)

end

/-- The node at the front of tokens. -/
def ofTokens (ts : List Token) : Parsed Node := node true false (3 * ts.length + 3) ts

/-! ## Documents -/

/-- Behind document marks `...`, any number of them, the text ends. -/
def endsText : List Token → Bool
  | .documentEnd :: rest => endsText rest
  | .streamEnd :: _ => true
  | _ => false

/-- The tree of a document.  A text without nodes has a missing one. -/
def document : List Token → Parsed Node
  | .streamEnd :: rest => (missing, some (.streamEnd :: rest))
  | .documentStart :: rest =>
    orMissing [.documentStart, .documentEnd, .streamEnd] ofTokens rest
  | ts => ofTokens ts

/-- The tree of a text, and whether the text is one whole document. -/
def ofText (text : String) : Node × Bool :=
  match document (tokens text) with
  | (node, some rest) => (node, endsText rest)
  | (node, none) => (node, false)

end Node

end Sigil.Yaml
