import FabricFootprint.Json.Literal

/-!
FabricFootprint.Proofs.Json.Literal — string literals are read back as they are written.

* `scan_encodeChar` — a written character is one piece of a literal, and the piece denotes the
  character. The control characters without a letter of their own are the only units.
* `scan_encode` — the literal of a text has pieces that denote this text,
  up to its closing quote.
-/

namespace FabricFootprint.Literal

/-! ## Pieces -/

/-- The piece that a character is written as. -/
def pieceOf (c : Char) : Piece :=
  if c.toNat < 0x20 ∧ c ≠ '\x08' ∧ c ≠ '\x0c' ∧ c ≠ '\n' ∧ c ≠ '\r' ∧ c ≠ '\t' then
    .unit c.toNat
  else .char c

theorem decodeChars?_pieceOf (c : Char) (pieces : List Piece) :
    decodeChars? (pieceOf c :: pieces) = (decodeChars? pieces).map (c :: ·) := by
  unfold pieceOf
  split
  · next h =>
    have hlow : ¬(0xD800 ≤ c.toNat ∧ c.toNat < 0xDC00) := by omega
    have hhigh : ¬(0xDC00 ≤ c.toNat ∧ c.toNat < 0xE000) := by omega
    rw [decodeChars?.eq_def]
    simp only [if_neg hlow, if_neg hhigh, Char.ofNat_toNat]
  · rw [decodeChars?]

theorem decode?_map_pieceOf (s : String) : decode? (s.toList.map pieceOf) = some s := by
  have hchars (cs : List Char) : decodeChars? (cs.map pieceOf) = some cs := by
    induction cs with
    | nil => rfl
    | cons c cs ih => rw [List.map_cons, decodeChars?_pieceOf, ih, Option.map_some]
  rw [decode?, hchars, Option.map_some, String.ofList_toList]

/-! ## Scanning -/

/-- Two hexadecimal digits after two zeros spell a number below 32. -/
theorem hexUnit?_digitChar {n : Nat} (h : n < 0x20) :
    hexUnit? '0' '0' (Nat.digitChar (n / 16)) (Nat.digitChar (n % 16)) = some n := by
  have hall : ∀ k : Fin 0x20,
      hexUnit? '0' '0' (Nat.digitChar (k.val / 16)) (Nat.digitChar (k.val % 16)) =
        some k.val := by
    decide
  exact hall ⟨n, h⟩

/-- A quote ends the literal. -/
theorem scan_quote (rest : List Char) : scan ('"' :: rest) = some ([], rest) := by
  rw [scan.eq_def]
  rfl

/-- A letter after a backslash stands for a character of its own. -/
theorem scan_escaped {e c : Char} (he : e ≠ 'u') (h : escaped? e = some c) (cs : List Char) :
    scan ('\\' :: e :: cs) = (scan cs).map fun r => (.char c :: r.1, r.2) := by
  rw [scan.eq_def]
  simp only [Char.reduceEq, if_false, if_true, if_neg he, h]
  cases scan cs <;> rfl

/-- Four hexadecimal digits after a backslash and the letter of a unit stand for that unit. -/
theorem scan_unit {a b c d : Char} {n : Nat} (h : hexUnit? a b c d = some n)
    (cs : List Char) :
    scan ('\\' :: 'u' :: a :: b :: c :: d :: cs) =
      (scan cs).map fun r => (.unit n :: r.1, r.2) := by
  rw [scan.eq_def]
  simp only [Char.reduceEq, if_false, if_true, h]
  cases scan cs <;> rfl

/-- Any other character stands for itself. -/
theorem scan_plain {c : Char} (hquote : c ≠ '"') (hslash : c ≠ '\\')
    (hcontrol : ¬c.toNat < 0x20)
    (cs : List Char) : scan (c :: cs) = (scan cs).map fun r => (.char c :: r.1, r.2) := by
  rw [scan.eq_def]
  simp only [if_neg hquote, if_neg hslash, if_neg hcontrol]
  cases scan cs <;> rfl

/-- A written character is scanned as its piece. The cases are those of `encodeChar`. -/
theorem scan_encodeChar (c : Char) (cs : List Char) :
    scan (encodeChar c ++ cs) = (scan cs).map fun r => (pieceOf c :: r.1, r.2) := by
  unfold encodeChar
  -- seven characters have an escape of one letter
  iterate 7
    split
    · next h => subst h; exact scan_escaped (by decide) rfl cs
  split
  · next hback hfeed hline hreturn htab hcontrol =>
    have hpiece : pieceOf c = .unit c.toNat :=
      if_pos ⟨hcontrol, hback, hfeed, hline, hreturn, htab⟩
    rw [hpiece]
    exact scan_unit (hexUnit?_digitChar hcontrol) cs
  · next hquote hslash hback hfeed hline hreturn htab hcontrol =>
    have hpiece : pieceOf c = .char c := if_neg fun h => hcontrol h.1
    rw [hpiece]
    exact scan_plain hquote hslash hcontrol cs

/-- The literal of a text is scanned up to its closing quote, into the pieces of the text. -/
theorem scan_encode (s : String) (rest : List Char) :
    scan (s.toList.flatMap encodeChar ++ '"' :: rest) =
      some (s.toList.map pieceOf, rest) := by
  generalize s.toList = cs
  induction cs with
  | nil => exact scan_quote rest
  | cons c cs ih =>
    rw [List.flatMap_cons, List.append_assoc, scan_encodeChar, ih, Option.map_some,
      List.map_cons]

/-- The literal without a text is scanned into half of a surrogate pair,
which denotes none. -/
theorem scan_broken (rest : List Char) :
    scan (broken.tail ++ rest) = some ([.unit 0xD800], rest) := by
  show scan ('\\' :: 'u' :: 'd' :: '8' :: '0' :: '0' :: '"' :: rest) = _
  rw [scan_unit (show hexUnit? 'd' '8' '0' '0' = some 0xD800 by decide), scan_quote]
  rfl

end FabricFootprint.Literal
