import FabricFootprint.Yaml.Scalar
import FabricFootprint.Yaml.Text

/-!
FabricFootprint.Yaml.Token — the tokens of a YAML text.

* `Token` — the marks and scalars of a document. Block collections, which a text shows by
  columns alone, start and end with tokens of their own, so that the tree can be read from
  tokens without their places.
* `Candidate` — a place where a key may have started. That it was a key is known only
  when its colon comes, which has to be on the same line and near; then a `key` token is
  put in at that place. There is at most one candidate in the open block collection and
  in each open flow collection.
* `Scanner` — what is known at a place of the text.
* `Token.scan?` — the tokens of a text.

Anchors, tags, directives and literal blocks are refused.
-/

namespace FabricFootprint.Yaml

/-- A mark or a scalar of a document. -/
inductive Token where
  | scalar (s : YamlScalar)
  | blockSequence
  | blockMapping
  /-- The innermost block collection ends. -/
  | blockEnd
  /-- The dash of a sequence entry. -/
  | dash
  /-- A key comes next. -/
  | key
  | colon
  | openBracket
  | closeBracket
  | openBrace
  | closeBrace
  | comma
  | documentStart
  | documentEnd
  deriving DecidableEq

/-! ## Candidates -/

/-- The greatest number of bytes from the start of a key to its colon. -/
def keyReach : Nat := 1024

/-- A place where a key may have started. -/
structure Candidate where
  /-- The number of tokens before it. -/
  index : Nat
  position : Position
  /-- Whether nothing but a key can stand there. -/
  required : Bool

/-- Whether the colon of the key can still come at a place: on the same
line and within reach. -/
def Candidate.reaches (k : Candidate) (c : Cursor) : Bool :=
  k.position.line == c.line && decide (c.bytes ≤ k.position.bytes + keyReach)

/-! ## Scanners -/

/-- What is known at a place of a text. -/
structure Scanner where
  place : Cursor
  /-- The tokens up to the place, the last one first. -/
  tokens : List Token
  /-- The number of these tokens. -/
  count : Nat
  /-- The columns of the open block collections, the innermost first. -/
  columns : List Nat
  /-- Where a key of the innermost collection may have started. -/
  candidate : Option Candidate
  /-- The candidates outside of each open flow collection, the innermost first. -/
  outer : List (Option Candidate)
  /-- Whether a key may start at the place. -/
  keys : Bool

namespace Scanner

def ofChars (cs : List Char) : Scanner := ⟨⟨.start, cs⟩, [], 0, [], none, [], true⟩

def inFlow (s : Scanner) : Bool := !s.outer.isEmpty

/-- The least column of the further lines of a plain scalar. -/
def margin (s : Scanner) : Nat :=
  match s.columns with
  | [] => 0
  | col :: _ => col + 1

/-- Puts a token in behind the first `index` ones. -/
def insertToken (s : Scanner) (index : Nat) (t : Token) : Scanner :=
  let later := s.count - index
  { s with tokens := s.tokens.take later ++ t :: s.tokens.drop later, count := s.count + 1 }

def push (s : Scanner) (t : Token) : Scanner :=
  { s with tokens := t :: s.tokens, count := s.count + 1 }

/-- Takes `n` characters of the line as a token, and says whether a key
may start behind it. -/
def take (s : Scanner) (n : Nat) (t : Token) (keys : Bool) : Scanner :=
  { s.push t with place := s.place.advance n, keys := keys }

/-! ### Block collections -/

/-- Ends the block collections whose columns `ends` holds of. -/
def endBlocks (s : Scanner) (ends : Nat → Bool) : Scanner :=
  if s.inFlow then s
  else
    { (s.columns.takeWhile ends).foldl (fun s _ => s.push .blockEnd) s with
      columns := s.columns.dropWhile ends }

/-- Starts a block collection at a column, behind the first `index` tokens, unless one that is
open starts at this column or right of it. -/
def startBlock (s : Scanner) (col index : Nat) (t : Token) : Scanner :=
  if s.inFlow || s.columns.head?.any (fun c => decide (col ≤ c)) then s
  else { s.insertToken index t with columns := col :: s.columns }

/-! ### Keys -/

/-- Gives up the candidate; it fails when nothing but a key can stand there. -/
def dropCandidate (s : Scanner) : Option Scanner :=
  if s.candidate.any Candidate.required then none else some { s with candidate := none }

/-- Gives up the candidate if its colon can no longer come; it fails when nothing but a key
can stand there. Outer candidates are not looked at before their flow collection has ended. -/
def expire (s : Scanner) : Option Scanner :=
  match s.candidate with
  | none => some s
  | some k => if k.reaches s.place then some s else s.dropCandidate

/-- Notes that a key may start at the place. In a block mapping one has to
start at its column. -/
def noteCandidate (s : Scanner) : Option Scanner :=
  if s.keys then
    let required := !s.inFlow && s.columns.head? == some s.place.col
    s.dropCandidate.map fun s =>
      { s with candidate := some ⟨s.count, s.place.toPosition, required⟩ }
  else some s

/-! ### One token -/

/-- A document marker, which ends every block collection. -/
def marker (s : Scanner) : Option Scanner :=
  (s.endBlocks fun _ => true).dropCandidate.map fun s =>
    s.take 3 (if s.place.rest.head? = some '.' then .documentEnd else .documentStart) false

/-- The start of a flow collection, which may be a key itself. -/
def openFlow (s : Scanner) (t : Token) : Option Scanner :=
  s.noteCandidate.map fun s =>
    { s.take 1 t true with candidate := none, outer := s.candidate :: s.outer }

def closeFlow (s : Scanner) (t : Token) : Option Scanner :=
  s.dropCandidate.map fun s =>
    match s.outer with
    | [] => s.take 1 t false
    | candidate :: outer => { s.take 1 t false with candidate := candidate, outer := outer }

def comma (s : Scanner) : Option Scanner := s.dropCandidate.map fun s => s.take 1 .comma true

def startsPart (s : Scanner) : Bool := s.inFlow || s.keys

def dash (s : Scanner) : Option Scanner :=
  if s.startsPart then
    (s.startBlock s.place.col s.count .blockSequence).dropCandidate.map fun s =>
      s.take 1 .dash true
  else none

/-- The question mark of an explicit key. -/
def explicitKey (s : Scanner) : Option Scanner :=
  if s.startsPart then
    (s.startBlock s.place.col s.count .blockMapping).dropCandidate.map fun s =>
      s.take 1 .key (!s.inFlow)
  else none

/-- The colon behind a key: behind the candidate, or behind an explicit key. -/
def colon (s : Scanner) : Option Scanner :=
  match s.candidate with
  | some k =>
    let s := { s.insertToken k.index .key with candidate := none }
    some ((s.startBlock k.position.col k.index .blockMapping).take 1 .colon false)
  | none =>
    if s.startsPart then
      some ((s.startBlock s.place.col s.count .blockMapping).take 1 .colon (!s.inFlow))
    else none

/-- A scalar, which may be a key. A key may follow one whose last line has ended. -/
def scalar (s : Scanner) : Option Scanner :=
  s.noteCandidate.bind fun s =>
    match scanQuoted? s.place with
    | some quoted =>
      quoted.map fun (cs, place) =>
        { s.push (.scalar (.quoted (String.ofList cs))) with place := place, keys := false }
    | none =>
      if startsPlain s.inFlow s.place.rest then
        (scanPlain s.inFlow s.margin s.place).map fun (cs, place, ended) =>
          { s.push (.scalar (.plain (String.ofList cs))) with place := place, keys := ended }
      else none

/-- The scanner behind the token at its place. -/
def next (s : Scanner) : Option Scanner :=
  if s.place.atMarker then s.marker
  else
    match s.place.rest with
    | [] => none
    | c :: rest =>
      if c = '[' then s.openFlow .openBracket
      else if c = '\x7b' then s.openFlow .openBrace
      else if c = ']' then s.closeFlow .closeBracket
      else if c = '\x7d' then s.closeFlow .closeBrace
      else if c = ',' then s.comma
      else if c = '-' ∧ atWordEnd rest then s.dash
      else if c = '?' ∧ (s.inFlow ∨ atWordEnd rest) then s.explicitKey
      else if c = ':' ∧ (s.inFlow ∨ atWordEnd rest) then s.colon
      else s.scalar

/-- The scanner behind a gap: a lesser column ends block collections. -/
def skipGap (s : Scanner) : Option Scanner :=
  let (place, keys) := s.place.skipGap s.inFlow s.keys
  ({ s with place := place, keys := keys } : Scanner).expire.map fun s =>
    s.endBlocks fun col => decide (s.place.col < col)

/-- The tokens of the whole text, in at most `fuel` steps. -/
def run : Nat → Scanner → Option (List Token)
  | 0, _ => none
  | fuel + 1, s =>
    match s.skipGap with
    | none => none
    | some s =>
      if s.place.rest.isEmpty then
        (s.endBlocks fun _ => true).dropCandidate.map fun s => s.tokens.reverse
      else
        match s.next with
        | none => none
        | some s => run fuel s

end Scanner

/-- The tokens of a text. Every step takes a character, so its length is enough fuel. -/
def Token.scan? (text : String) : Option (List Token) :=
  match normalize text with
  | none => none
  | some cs => (Scanner.ofChars cs).run (cs.length + 1)

end FabricFootprint.Yaml
