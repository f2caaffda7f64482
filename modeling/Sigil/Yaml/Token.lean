/-!
# Tokens of a configuration text

The text of a configuration is YAML: block and flow collections, plain and quoted scalars, comments
and document marks.  Here it is cut into tokens.  Indentation becomes tokens of its own, which open
and close block collections.

A key needs no mark before it; that a token was one is only known when its colon follows.  So the
scanner remembers, for each level of flow collections, the last token that can still turn out to be
a key, and puts the marks in when it does.  A candidate lapses at the end of its line.

Tokens are handed out in order and the text is read only as far as that needs: a token that is a
candidate is held back until it is decided.  If the text breaks a rule, the tokens that were handed
out before that place is reached stay.  The text itself is read in blocks, and a block with a
character that is not allowed breaks a rule as a whole.
-/

namespace Sigil.Yaml

/-- A token. -/
inductive Token where
  | streamEnd
  | documentStart
  | documentEnd
  | blockSequence
  | blockMapping
  | blockEnd
  | flowSequence
  | flowSequenceEnd
  | flowMapping
  | flowMappingEnd
  /-- The dash before an element. -/
  | entry
  | comma
  | key
  | value
  /-- A scalar; `plain` says that it stood without quotes. -/
  | scalar (text : String) (plain : Bool)
deriving DecidableEq, Repr

/-! ## Characters -/

/-- The characters that end a line. -/
def isBreak (c : Char) : Bool :=
  c == '\n' || c == '\r' || c == '\x85' || c == '\u2028' || c == '\u2029'

/-- Space and tab. -/
def isGap (c : Char) : Bool := c == ' ' || c == '\t'

/-- At the end of a text, or before a gap or a line end. -/
def atGap : List Char → Bool
  | [] => true
  | c :: _ => isGap c || isBreak c

/-- The characters that a configuration may hold. -/
def isAllowed (c : Char) : Bool :=
  let n := c.toNat
  n == 0x09 || n == 0x0A || n == 0x0D || (0x20 ≤ n && n ≤ 0x7E) || n == 0x85
    || (0xA0 ≤ n && n ≤ 0xFFFD) || 0x10000 ≤ n

/-- The line end that a character counts as. -/
def normalBreak (c : Char) : Char := if c == '\u2028' || c == '\u2029' then c else '\n'

/-- The number of bytes that are read at a time. -/
def blockSize : Nat := 16384

/-- The characters of the blocks before the first one that holds a character that is not allowed,
and whether there is such a block.  `room` is what is left of the block at hand, `block` its
characters and `done` those of the blocks before it, both last one first. -/
def readableFrom (room : Nat) (done block : List Char) : List Char → List Char × Bool
  | [] => ((block ++ done).reverse, false)
  | c :: r =>
    if room < c.utf8Size then
      -- a character is never split between blocks
      let done := block ++ done
      if isAllowed c then readableFrom (blockSize - c.utf8Size) done [c] r else (done.reverse, true)
    else if isAllowed c then readableFrom (room - c.utf8Size) done (c :: block) r
    else (done.reverse, true)

/-- A place in the text. -/
structure Place where
  line : Nat := 0
  column : Nat := 0
  /-- The number of bytes before it. -/
  index : Nat := 0
deriving DecidableEq, Repr

/-- The place behind a character, where `r` follows.  A carriage return and a line feed are one line
end. -/
def Place.next (p : Place) (c : Char) (r : List Char) : Place :=
  let index := p.index + c.utf8Size
  if c == '\r' && r.head? == some '\n' then { p with index }
  else if isBreak c then ⟨p.line + 1, 0, index⟩
  else ⟨p.line, p.column + 1, index⟩

/-- A document mark, three dashes or three dots, at the start of a line. -/
def documentMark : List Char → Option Token
  | '-' :: '-' :: '-' :: r => if atGap r then some .documentStart else none
  | '.' :: '.' :: '.' :: r => if atGap r then some .documentEnd else none
  | _ => none

/-! ## Scalars -/

/-- Gaps and line ends inside a scalar that are not yet part of it. -/
structure Pending where
  /-- Gaps before the first line end, last one first. -/
  gaps : List Char := []
  /-- The first line end; an escaped one is empty. -/
  lead : Option (List Char) := none
  /-- Further line ends, last one first. -/
  trail : List Char := []

namespace Pending

/-- Adds a gap; gaps behind a line end do not count. -/
def gap (p : Pending) (c : Char) : Pending :=
  if p.lead.isSome then p else { p with gaps := c :: p.gaps }

/-- Adds a line end. -/
def lineEnd (p : Pending) (c : Char) : Pending :=
  match p.lead with
  | none => { lead := some [normalBreak c] }
  | some _ => { p with trail := normalBreak c :: p.trail }

/-- What stands between two words: the gaps as they are, a space for one line end, and one line
end less for several. -/
def join (p : Pending) : List Char :=
  match p.lead with
  | none => p.gaps.reverse
  | some ['\n'] => if p.trail.isEmpty then [' '] else p.trail.reverse
  | some lead => lead ++ p.trail.reverse

/-- Nothing pends. -/
def isEmpty (p : Pending) : Bool := p.gaps.isEmpty && p.lead.isNone

end Pending

/-- A scalar that was read, and the text behind it. -/
structure Scanned where
  text : List Char
  rest : List Char
  /-- The place of `rest`. -/
  place : Place
  /-- The scalar was followed by a line end. -/
  lineEnded : Bool := false
  /-- The number of characters of `rest` that were looked at. -/
  sight : Nat

/-- The marks of flow collections. -/
def isFlowMark (c : Char) : Bool := c == ',' || c == '[' || c == ']' || c == '{' || c == '}'

/-- A plain scalar ends before `c :: r`. -/
def endsPlain (flow : Bool) (c : Char) (r : List Char) : Bool :=
  (c == ':' && atGap r) || (flow && isFlowMark c)

/-- A colon that a plain scalar in a flow collection may not hold. -/
def badColon (flow : Bool) (c : Char) (r : List Char) : Bool :=
  flow && c == ':' && r.head?.any fun d => isFlowMark d || d == '?'

/-- How many characters are looked at behind one that was taken, if `sight` were from that one on:
at least `n`. -/
def sightBehind (sight n : Nat) : Nat := max (sight - 1) n

/-- How many characters are looked at from a character of a scalar on: four where a word starts. -/
def sightAt (sight : Nat) (p : Pending) : Nat := if p.isEmpty then sight else max sight 4

/-- Reads a plain scalar.  `indent` is the least column that its further lines may have, `place` the
place of the text, `sight` the number of its characters that were looked at, `done` what was read
before, last character first. -/
def plainFrom (flow : Bool) (indent : Nat) (place : Place) (sight : Nat) (done : List Char)
    (p : Pending) : List Char → Option Scanned
  | [] => some ⟨done.reverse, [], place, p.lead.isSome, sight⟩
  | c :: r =>
    if isBreak c then
      let p := if c == '\r' && r.head? == some '\n' then p else p.lineEnd c
      plainFrom flow indent (place.next c r) (sightBehind sight 1) done p r
    else if isGap c then
      if p.lead.isSome && decide (place.column < indent) && c == '\t' then none
      else plainFrom flow indent (place.next c r) (sightBehind sight 1) done (p.gap c) r
    else
      let ended (sight : Nat) : Scanned := ⟨done.reverse, c :: r, place, p.lead.isSome, sight⟩
      let isMark := place.column == 0 && (documentMark (c :: r)).isSome
      if !flow && !p.isEmpty && decide (place.column < indent) then some (ended sight)
      else
        let sight := sightAt sight p
        if isMark || (!p.isEmpty && c == '#') then some (ended sight)
        else if badColon flow c r then none
        else if endsPlain flow c r then some (ended sight)
        else
          let done := c :: (p.join.reverse ++ done)
          plainFrom flow indent (place.next c r) (sightBehind sight 2) done {} r

/-- Inside a single-quoted scalar; `quote` says that a quote was read that may be doubled. -/
def singleFrom (place : Place) (sight : Nat) (quote : Bool) (done : List Char) (p : Pending) :
    List Char → Option Scanned
  | [] => if quote then some ⟨done.reverse, [], place, false, sight⟩ else none
  | c :: r =>
    let next := place.next c r
    if quote then
      if c == '\'' then singleFrom next (sightBehind sight 2) false ('\'' :: done) {} r
      else some ⟨done.reverse, c :: r, place, false, sight⟩
    else if isBreak c then
      let p := if c == '\r' && r.head? == some '\n' then p else p.lineEnd c
      singleFrom next (sightBehind sight 1) false done p r
    else if isGap c then singleFrom next (sightBehind sight 1) false done (p.gap c) r
    else if place.column == 0 && (documentMark (c :: r)).isSome then none
    else
      let sight := sightAt sight p
      let done := p.join.reverse ++ done
      if c == '\'' then singleFrom next (sightBehind sight 1) true done {} r
      else singleFrom next (sightBehind sight 2) false (c :: done) {} r

/-- Where a double-quoted scalar stands. -/
inductive Escape where
  | none
  /-- Behind a backslash. -/
  | start
  /-- Inside a code, with so many digits to come. -/
  | code (digits value : Nat)
  /-- Between an escaped carriage return and its line feed. -/
  | lineEnd

/-- The character of a one-letter escape. -/
def escaped? : Char → Option Char
  | '0' => some '\x00'
  | 'a' => some '\x07'
  | 'b' => some '\x08'
  | 't' => some '\t'
  | '\t' => some '\t'
  | 'n' => some '\n'
  | 'v' => some '\x0b'
  | 'f' => some '\x0c'
  | 'r' => some '\r'
  | 'e' => some '\x1b'
  | ' ' => some ' '
  | '"' => some '"'
  | '/' => some '/'
  | '\\' => some '\\'
  | 'N' => some '\x85'
  | '_' => some '\xa0'
  | 'L' => some '\u2028'
  | 'P' => some '\u2029'
  | _ => none

/-- The number of digits behind the letter of a code. -/
def codeLength? : Char → Option Nat
  | 'x' => some 2
  | 'u' => some 4
  | 'U' => some 8
  | _ => none

/-- The value of a hexadecimal digit. -/
def hexDigit? (c : Char) : Option Nat :=
  if '0' ≤ c ∧ c ≤ '9' then some (c.toNat - 48)
  else if 'a' ≤ c ∧ c ≤ 'f' then some (c.toNat - 87)
  else if 'A' ≤ c ∧ c ≤ 'F' then some (c.toNat - 55)
  else none

/-- The character of a code. -/
def ofCode? (n : Nat) : Option Char := if h : n.isValidChar then some (Char.ofNatAux n h) else none

/-- Inside a double-quoted scalar. -/
def doubleFrom (place : Place) (sight : Nat) (e : Escape) (done : List Char) (p : Pending) :
    List Char → Option Scanned
  | [] => none
  | c :: r =>
    let next := place.next c r
    match e with
    | .start =>
      if isBreak c then
        let e := if c == '\r' && r.head? == some '\n' then Escape.lineEnd else .none
        doubleFrom next (sightBehind sight 1) e done { p with lead := some [] } r
      else
        match codeLength? c, escaped? c with
        | some n, _ => doubleFrom next (sightBehind sight n) (.code n 0) done {} r
        | none, some d => doubleFrom next (sightBehind sight 2) .none (d :: done) {} r
        | none, none => none
    | .code digits value =>
      match hexDigit? c with
      | none => none
      | some d =>
        let value := value * 16 + d
        if digits ≤ 1 then
          match ofCode? value with
          | some d => doubleFrom next (sightBehind sight 2) .none (d :: done) {} r
          | none => none
        else doubleFrom next (sightBehind sight 1) (.code (digits - 1) value) done {} r
    | .lineEnd => doubleFrom next (sightBehind sight 1) .none done p r
    | .none =>
      if isBreak c then
        let p := if c == '\r' && r.head? == some '\n' then p else p.lineEnd c
        doubleFrom next (sightBehind sight 1) .none done p r
      else if isGap c then doubleFrom next (sightBehind sight 1) .none done (p.gap c) r
      else if place.column == 0 && (documentMark (c :: r)).isSome then none
      else
        let sight := sightAt sight p
        let done := p.join.reverse ++ done
        if c == '"' then some ⟨done.reverse, r, next, false, sightBehind sight 1⟩
        else if c == '\\' then doubleFrom next (sightBehind sight 1) .start done {} r
        else doubleFrom next (sightBehind sight 2) .none (c :: done) {} r

/-! ## The scanner -/

/-- A token that may turn out to be a key. -/
structure Candidate where
  /-- The token must be a key, for it stands where the keys of a block mapping stand. -/
  required : Bool
  /-- The number of tokens before it. -/
  index : Nat
  place : Place

/-- The state between two tokens. -/
structure Scanner where
  rest : List Char
  /-- Behind `rest` stands a block that cannot be read. -/
  spoiled : Bool := false
  /-- The place of `rest`. -/
  place : Place := {}
  /-- The columns of the open block collections, innermost first. -/
  indents : List Nat := []
  /-- A key may start here. -/
  keyAllowed : Bool := true
  /-- The candidate of each level, the innermost level first; the last level is the block. -/
  candidates : List (Option Candidate) := [none]
  /-- The tokens that were handed out. -/
  given : Array Token := #[]
  /-- The tokens that are still to be handed out. -/
  queue : List Token := []
  /-- The end of the text is a token. -/
  ended : Bool := false

namespace Scanner

/-- Inside a flow collection. -/
def inFlow (s : Scanner) : Bool := decide (1 < s.candidates.length)

/-- Looking at the next `n` characters reaches into a block that cannot be read. -/
def lacks (n : Nat) (s : Scanner) : Bool := s.spoiled && (s.rest.drop (n - 1)).isEmpty

/-- Adds a token. -/
def push (s : Scanner) (t : Token) : Scanner := { s with queue := s.queue ++ [t] }

/-- Puts a token before the token of the given number. -/
def insert (s : Scanner) (index : Nat) (t : Token) : Scanner :=
  { s with queue := s.queue.insertIdx (index - s.given.size) t }

/-- Skips gaps, comments and line ends, and a byte order mark at the start of a line.  Behind a line
end of a block a key may start. -/
def gapFrom (flow keyAllowed inComment : Bool) (place : Place) :
    List Char → List Char × Place × Bool
  | [] => ([], place, keyAllowed)
  | c :: r =>
    let next := place.next c r
    if isBreak c then gapFrom flow (keyAllowed || !flow) false next r
    else if inComment then gapFrom flow keyAllowed true next r
    else if c == '\ufeff' && place.column == 0 then gapFrom flow keyAllowed false next r
    else if c == ' ' || (c == '\t' && (flow || !keyAllowed)) then
      gapFrom flow keyAllowed false next r
    else if c == '#' then gapFrom flow keyAllowed true next r
    else (c :: r, place, keyAllowed)

/-- The state at the next token. -/
def skipGap (s : Scanner) : Scanner :=
  let (rest, place, keyAllowed) := gapFrom s.inFlow s.keyAllowed false s.place s.rest
  { s with rest, place, keyAllowed }

/-- A candidate has lapsed when its line is over or too much text followed it. -/
def lapsed (s : Scanner) (c : Candidate) : Bool :=
  decide (c.place.line < s.place.line) || decide (c.place.index + 1024 < s.place.index)

/-- A required candidate has lapsed. -/
def lacksKey (s : Scanner) : Bool := s.candidates.any (·.any fun c => s.lapsed c && c.required)

/-- The candidates that have not lapsed. -/
def live (s : Scanner) : List (Option Candidate) :=
  s.candidates.map (·.filter fun c => !s.lapsed c)

/-- Gives up candidates that have lapsed; there must be none that is required. -/
def dropLapsed (s : Scanner) : Option Scanner :=
  if s.lacksKey then none else some { s with candidates := s.live }

/-- Gives up the candidate of this level, which must not be required. -/
def dropCandidate (s : Scanner) : Option Scanner :=
  match s.candidates with
  | some c :: more => if c.required then none else some { s with candidates := none :: more }
  | _ => some s

/-- Notes that the next token may be a key. -/
def noteCandidate (s : Scanner) : Option Scanner :=
  if s.keyAllowed then do
    let s ← s.dropCandidate
    let required := !s.inFlow && s.indents.head? == some s.place.column
    let candidate : Candidate := ⟨required, s.given.size + s.queue.length, s.place⟩
    return { s with candidates := some candidate :: s.candidates.tail }
  else some s

/-- Closes the block collections that are indented deeper than `column`. -/
def closeBlocks (column : Nat) (s : Scanner) : Scanner :=
  if s.inFlow then s
  else
    let deeper := s.indents.takeWhile (decide <| column < ·)
    { s with
      indents := s.indents.drop deeper.length
      queue := s.queue ++ deeper.map fun _ => Token.blockEnd }

/-- Closes all block collections. -/
def closeAllBlocks (s : Scanner) : Scanner :=
  if s.inFlow then s
  else { s with indents := [], queue := s.queue ++ s.indents.map fun _ => Token.blockEnd }

/-- Opens a block collection at a column, if it is deeper than the open ones. -/
def openBlock (column : Nat) (index : Option Nat) (t : Token) (s : Scanner) : Scanner :=
  if s.inFlow || s.indents.head?.any (decide <| column ≤ ·) then s
  else
    let s := { s with indents := column :: s.indents }
    match index with
    | some i => s.insert i t
    | none => s.push t

/-- Takes the token `t` of `n` characters, each of one byte; afterwards a key may start if
`keyAllowed`. -/
def take (n : Nat) (t : Token) (keyAllowed : Bool) (s : Scanner) : Scanner :=
  let place := { s.place with column := s.place.column + n, index := s.place.index + n }
  { s.push t with rest := s.rest.drop n, place, keyAllowed }

/-- Takes a scalar. -/
def takeScalar (s : Scanner) (plain : Bool) : Option Scanned → Option Scanner
  | none => none
  | some scanned => do
    let s ← s.noteCandidate
    let s := s.push (.scalar (String.ofList scanned.text) plain)
    let s := { s with
      rest := scanned.rest, place := scanned.place, keyAllowed := scanned.lineEnded }
    if s.lacks scanned.sight then none else some s

/-- Takes a colon.  It makes a key of the candidate, or else of nothing. -/
def takeColon (s : Scanner) : Option Scanner :=
  match s.candidates with
  | some c :: more =>
    let s := { s with candidates := none :: more }
    let s := (s.insert c.index .key).openBlock c.place.column (some c.index) .blockMapping
    some (s.take 1 .value false)
  | _ =>
    if s.inFlow then some (s.take 1 .value false)
    else if s.keyAllowed then
      some ((s.openBlock s.place.column none .blockMapping).take 1 .value true)
    else none

/-- The characters that no plain scalar starts with. -/
def isIndicator (c : Char) : Bool :=
  isGap c || "-?:,[]\x7b\x7d#&*!|>'\"%@`".toList.contains c

/-- Takes the token at `c :: r`, if one can stand there. -/
def takeToken (s : Scanner) (c : Char) (r : List Char) : Option Scanner :=
  match (if s.place.column == 0 then documentMark (c :: r) else none) with
  | some mark => do
    let s ← s.closeAllBlocks.dropCandidate
    return s.take 3 mark false
  | none =>
    if c == '[' || c == '{' then do
      let s ← s.noteCandidate
      let s := s.take 1 (if c == '[' then .flowSequence else .flowMapping) true
      return { s with candidates := none :: s.candidates }
    else if c == ']' || c == '}' then do
      let s ← s.dropCandidate
      let candidates := if s.inFlow then s.candidates.tail else s.candidates
      let s := { s with candidates }
      return s.take 1 (if c == ']' then .flowSequenceEnd else .flowMappingEnd) false
    else if c == ',' then do
      let s ← s.dropCandidate
      return s.take 1 .comma true
    else if c == '-' && atGap r then
      if !s.inFlow && !s.keyAllowed then none
      else do
        let s ← (s.openBlock s.place.column none .blockSequence).dropCandidate
        return s.take 1 .entry true
    else if c == '?' && (s.inFlow || atGap r) then
      if !s.inFlow && !s.keyAllowed then none
      else do
        let s ← (s.openBlock s.place.column none .blockMapping).dropCandidate
        return s.take 1 .key (!s.inFlow)
    else if c == ':' && (s.inFlow || atGap r) then s.takeColon
    else if c == '\'' then s.takeScalar false (singleFrom (s.place.next c r) 4 false [] {} r)
    else if c == '"' then s.takeScalar false (doubleFrom (s.place.next c r) 4 .none [] {} r)
    else if !isIndicator c || c == '-' || (!s.inFlow && (c == '?' || c == ':')) then
      let indent := match s.indents with
        | [] => 0
        | column :: _ => column + 1
      s.takeScalar true (plainFrom s.inFlow indent s.place 4 [] {} (c :: r))
    else none

/-- Takes the end of the text, which counts as a line end. -/
def takeEnd (s : Scanner) : Option Scanner := do
  let line := if s.place.column == 0 then s.place.line else s.place.line + 1
  let s ← { s with place := { s.place with line, column := 0 } }.closeAllBlocks.dropCandidate
  return { s.push .streamEnd with keyAllowed := false, ended := true }

/-- One step of the scanner: the next state, or nothing if a rule is broken.  A token is told by its
first four characters. -/
def step (s : Scanner) : Option Scanner := do
  let s ← s.skipGap.dropLapsed
  if s.lacks 4 then none
  else
    match s.rest with
    | [] => s.takeEnd
    | c :: r => (s.closeBlocks s.place.column).takeToken c r

/-- How far the scanner is: the bytes behind it, and the end. -/
def reached (s : Scanner) : Nat := s.place.index + (if s.ended then 1 else 0)

/-- The next token is a candidate, which is held back. -/
def holds (s : Scanner) : Bool := s.live.any (·.any (·.index == s.given.size))

/-- The tokens that are handed out up to the end of the text, or up to the place where a rule is
broken.  Each step takes the scanner further, and never beyond `limit`. -/
def run (limit : Nat) (s : Scanner) : List Token :=
  if s.lacksKey then s.given.toList
  else
    match _hq : s.queue, s.holds with
    | t :: queue, false => run limit { s with candidates := s.live, given := s.given.push t, queue }
    | _, _ =>
      match s.step with
      | none => s.given.toList
      | some next =>
        if _hn : s.reached < next.reached ∧ next.reached ≤ limit then run limit next
        else s.given.toList
termination_by (limit - s.reached, s.queue.length)
decreasing_by
  · exact Prod.Lex.right _ (by simp [_hq])
  · exact Prod.Lex.left _ _ (by omega)

end Scanner

/-- The tokens of a text, up to `streamEnd` if the text keeps all rules of tokens. -/
def tokens (text : String) : List Token :=
  let (rest, spoiled) := readableFrom blockSize [] [] text.toList
  Scanner.run (text.utf8ByteSize + 1) { rest, spoiled }

end Sigil.Yaml
