/-!
FabricFootprint.Yaml.Cursor — places in a YAML text, and the gaps between its parts.

* `Position`, `Cursor` — where a place is, and the text from there on. Columns count
  characters; bytes are counted too, for they bound the length of a key.
* `normalize` — a text with a single kind of ordinary line break; it fails on a character
  that no document may hold.
* `Cursor.skipGap` — blanks, comments and line breaks. Where a key may start, a tab
  is no blank in block style. A byte order mark that starts a line belongs to the
  gap and takes a column.
* `Fold` — the blanks and breaks met inside a scalar, and what they are folded into.
-/

namespace FabricFootprint.Yaml

/-! ## Characters -/

/-- Whether a document may hold a character. -/
def isPrintable (c : Char) : Bool :=
  let n := c.toNat
  n == 0x09 || n == 0x0A || n == 0x0D || (0x20 ≤ n && n ≤ 0x7E) || n == 0x85 ||
    (0xA0 ≤ n && n ≤ 0xD7FF) || (0xE000 ≤ n && n ≤ 0xFFFD) || 0x10000 ≤ n

def isBreak (c : Char) : Bool := c == '\n' || c == '\u2028' || c == '\u2029'

def isBlank (c : Char) : Bool := c == ' ' || c == '\t'

/-- Whether a place ends a word: the end of the text, a blank or a break. -/
def atWordEnd : List Char → Bool
  | [] => true
  | c :: _ => isBlank c || isBreak c

def isFlowMark (c : Char) : Bool :=
  c == ',' || c == '[' || c == ']' || c == '\x7b' || c == '\x7d'

/-- A text whose carriage returns and next-line characters are line feeds. -/
def unifyBreaks : List Char → List Char
  | [] => []
  | '\r' :: '\n' :: rest => '\n' :: unifyBreaks rest
  | c :: rest => (if c = '\r' ∨ c = '\u0085' then '\n' else c) :: unifyBreaks rest

/-- The characters of a document, with a single kind of ordinary line break. -/
def normalize (text : String) : Option (List Char) :=
  if text.toList.all isPrintable then some (unifyBreaks text.toList) else none

/-! ## Cursors -/

/-- Where a place is: its line, and how much of the line is before it. -/
structure Position where
  line : Nat
  /-- The number of characters before the place. -/
  col : Nat
  /-- The number of UTF-8 bytes before the place. -/
  bytes : Nat

namespace Position

def start : Position := ⟨0, 0, 0⟩

def past (p : Position) (c : Char) : Position := ⟨p.line, p.col + 1, p.bytes + c.utf8Size⟩

def pastAll (p : Position) (cs : List Char) : Position := cs.foldl past p

def nextLine (p : Position) : Position := ⟨p.line + 1, 0, 0⟩

end Position

/-- A place in a text: the text from there on, and its position. -/
structure Cursor extends Position where
  rest : List Char

namespace Cursor

/-- The place after `n` characters of the line. -/
def advance (c : Cursor) (n : Nat) : Cursor :=
  ⟨c.toPosition.pastAll (c.rest.take n), c.rest.drop n⟩

/-- Whether a document marker stands at the place: three dashes or three dots at
the start of a line. -/
def atMarker (c : Cursor) : Bool :=
  c.col == 0 &&
    (["---".toList, "...".toList].any fun mark =>
      mark.isPrefixOf c.rest && atWordEnd (c.rest.drop 3))

end Cursor

/-- The place of the next part of a text, and whether a key may start there. `flow`
says whether a flow collection is open, `keys` whether a key may start at the place so
far, and `comment` whether that place is inside a comment. A line break lets a key
start in block style. -/
def skipFrom (flow : Bool) : Bool → Bool → Position → List Char → Cursor × Bool
  | keys, _, p, [] => (⟨p, []⟩, keys)
  | keys, comment, p, c :: rest =>
    if isBreak c then skipFrom flow (keys || !flow) false p.nextLine rest
    else if comment then skipFrom flow keys true (p.past c) rest
    else if c = ' ' ∨ (c = '\t' ∧ (flow ∨ !keys)) ∨ (c = '\ufeff' ∧ p.col = 0) then
      skipFrom flow keys false (p.past c) rest
    else if c = '#' then skipFrom flow keys true (p.past c) rest
    else (⟨p, c :: rest⟩, keys)

/-- The place of the next part of a text, and whether a key may start there. -/
def Cursor.skipGap (c : Cursor) (flow keys : Bool) : Cursor × Bool :=
  skipFrom flow keys false c.toPosition c.rest

/-! ## Folding -/

/-- The blanks and breaks met inside a scalar. -/
inductive Fold where
  | none
  | blanks (cs : List Char)
  /-- A first break, unless it was escaped, and the breaks after it. -/
  | breaks (first : Option Char) (others : List Char)

namespace Fold

/-- One more blank; blanks around a break are dropped. -/
def addBlank (c : Char) : Fold → Fold
  | .none => .blanks [c]
  | .blanks cs => .blanks (cs ++ [c])
  | .breaks first others => .breaks first others

def addBreak (c : Char) : Fold → Fold
  | .none | .blanks _ => .breaks (some c) []
  | .breaks first others => .breaks first (others ++ [c])

def isBroken : Fold → Bool
  | .breaks .. => true
  | _ => false

def isNone : Fold → Bool
  | .none => true
  | _ => false

/-- What blanks and breaks are folded into: a single line feed becomes a blank, and each
further break stands for itself. -/
def chars : Fold → List Char
  | .none => []
  | .blanks cs => cs
  | .breaks .none others => others
  | .breaks (some c) others =>
    if c = '\n' then (if others.isEmpty then [' '] else others) else c :: others

end Fold

end FabricFootprint.Yaml
