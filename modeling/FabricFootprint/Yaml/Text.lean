import FabricFootprint.Yaml.Cursor

/-!
FabricFootprint.Yaml.Text — plain and quoted scalars of YAML documents.

A scalar may go on over several lines, which are folded: blanks around a break are dropped, a
single break becomes a blank. A plain scalar in block style goes on only over lines that are
indented deeper than the collection it stands in. Each scanner returns the characters of the
scalar and the place after it.
-/

namespace FabricFootprint.Yaml

/-! ## Plain scalars -/

/-- Whether a plain scalar can start at a place. -/
def startsPlain (flow : Bool) : List Char → Bool
  | [] => false
  | c :: rest =>
    if c = '-' then !atWordEnd rest
    else if c = '?' ∨ c = ':' then !flow && !atWordEnd rest
    else !(isBlank c || isBreak c || ",[]\x7b\x7d#&*!|>'\"%@\x60".toList.contains c)

/-- Whether a plain scalar ends before the character `c` that `rest` follows. -/
def endsPlain (flow : Bool) (c : Char) (rest : List Char) : Bool :=
  (c == ':' && atWordEnd rest) || (flow && isFlowMark c)

/-- A plain scalar from a place inside it, the place after it, and whether its last line has
ended. `margin` is the least column its further lines may start at in block style; a tab never
stands left of it. `acc` holds the characters so far, the last one first. -/
def plainFrom (flow : Bool) (margin : Nat) :
    List Char → Fold → Position → List Char → Option (List Char × Cursor × Bool)
  | acc, fold, p, [] => some (acc.reverse, ⟨p, []⟩, fold.isBroken)
  | acc, fold, p, c :: rest =>
    if isBreak c then plainFrom flow margin acc (fold.addBreak c) p.nextLine rest
    else if isBlank c then
      if c = '\t' ∧ fold.isBroken ∧ p.col < margin then none
      else plainFrom flow margin acc (fold.addBlank c) (p.past c) rest
    else if (fold.isBroken && !flow && decide (p.col < margin)) ||
        (!fold.isNone && c == '#') ||
        (fold.isBroken && (Cursor.mk p (c :: rest)).atMarker) then
      some (acc.reverse, ⟨p, c :: rest⟩, fold.isBroken)
    else if flow && c == ':' && rest.head?.any (fun d => isFlowMark d || d == '?') then none
    else if endsPlain flow c rest then some (acc.reverse, ⟨p, c :: rest⟩, fold.isBroken)
    else plainFrom flow margin (c :: (fold.chars.reverse ++ acc)) .none (p.past c) rest

/-- The plain scalar at a place, the place after it, and whether its last line has ended. -/
def scanPlain (flow : Bool) (margin : Nat) (c : Cursor) :
    Option (List Char × Cursor × Bool) :=
  plainFrom flow margin [] .none c.toPosition c.rest

/-! ## Quoted scalars -/

/-- A single-quoted scalar from a place inside it; a quote in it is written twice. -/
def singleFrom : List Char → Fold → Position → List Char → Option (List Char × Cursor)
  | _, _, _, [] => none
  | acc, fold, p, c :: rest =>
    if isBreak c then singleFrom acc (fold.addBreak c) p.nextLine rest
    else if isBlank c then singleFrom acc (fold.addBlank c) (p.past c) rest
    else if fold.isBroken && (Cursor.mk p (c :: rest)).atMarker then none
    else
      let acc := fold.chars.reverse ++ acc
      if c = '\'' then
        match rest with
        | '\'' :: rest => singleFrom (c :: acc) .none ((p.past c).past c) rest
        | rest => some (acc.reverse, ⟨p.past c, rest⟩)
      else singleFrom (c :: acc) .none (p.past c) rest

def escaped? (c : Char) : Option Char :=
  [('0', '\x00'), ('a', '\x07'), ('b', '\x08'), ('t', '\t'), ('\t', '\t'), ('n', '\n'),
    ('v', '\x0b'), ('f', '\x0c'), ('r', '\r'), ('e', '\x1b'), (' ', ' '), ('"', '"'),
    ('/', '/'), ('\\', '\\'), ('N', '\u0085'), ('_', '\u00a0'), ('L', '\u2028'),
    ('P', '\u2029')].lookup c

/-- The number of hexadecimal digits of a numeric escape. -/
def escapeLength? (c : Char) : Option Nat := [('x', 2), ('u', 4), ('U', 8)].lookup c

def hexValue? (cs : List Char) : Option Nat :=
  (cs.mapM fun (c : Char) =>
    if c.isDigit then some (c.toNat - '0'.toNat)
    else if 'a' ≤ c ∧ c ≤ 'f' then some (c.toNat - 'a'.toNat + 10)
    else if 'A' ≤ c ∧ c ≤ 'F' then some (c.toNat - 'A'.toNat + 10)
    else none).map fun ds => ds.foldl (fun n d => n * 16 + d) 0

/-- The character with a given code point; half of a surrogate pair is none. -/
def charOf? (n : Nat) : Option Char :=
  if h : n.isValidChar then some (Char.ofNatAux n h) else none

/-- A double-quoted scalar from a place inside it, in at most `fuel` steps. -/
def doubleFrom : Nat → List Char → Fold → Position → List Char → Option (List Char × Cursor)
  | 0, _, _, _, _ => none
  | _, _, _, _, [] => none
  | fuel + 1, acc, fold, p, c :: rest =>
    if isBreak c then doubleFrom fuel acc (fold.addBreak c) p.nextLine rest
    else if isBlank c then doubleFrom fuel acc (fold.addBlank c) (p.past c) rest
    else if fold.isBroken && (Cursor.mk p (c :: rest)).atMarker then none
    else
      let acc := fold.chars.reverse ++ acc
      if c = '"' then some (acc.reverse, ⟨p.past c, rest⟩)
      else if c = '\\' then
        match rest with
        | [] => none
        | e :: rest =>
          let p' := (p.past c).past e
          if isBreak e then doubleFrom fuel acc (.breaks none []) p.nextLine rest
          else
            match escaped? e, escapeLength? e with
            | some d, _ => doubleFrom fuel (d :: acc) .none p' rest
            | none, none => none
            | none, some n =>
              if (rest.take n).length < n then none
              else
                match (hexValue? (rest.take n)).bind charOf? with
                | none => none
                | some d =>
                  doubleFrom fuel (d :: acc) .none (p'.pastAll (rest.take n)) (rest.drop n)
      else doubleFrom fuel (c :: acc) .none (p.past c) rest

/-- The quoted scalar at a place, if one starts there. Every step takes a character, so the
length of the text is enough fuel. -/
def scanQuoted? (c : Cursor) : Option (Option (List Char × Cursor)) :=
  match c.rest with
  | '\'' :: rest => some (singleFrom [] .none (c.past '\'') rest)
  | '"' :: rest => some (doubleFrom (rest.length + 1) [] .none (c.past '"') rest)
  | _ => none

end FabricFootprint.Yaml
