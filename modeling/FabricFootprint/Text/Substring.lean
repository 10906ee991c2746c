/-!
FabricFootprint.Text.Substring — parts of texts, by characters.

* `startsWith s stem` — `stem` is an initial part of `s`.
* `contains s part` — `part` stands somewhere in `s`; the empty text stands in every text.
* `lowerAscii s` — the letters A to Z in lower case, every other character as it is.
-/

namespace FabricFootprint.Text

/-- Whether `part` is a run of neighbouring characters of the list. -/
def containsChars (part : List Char) : List Char → Bool
  | [] => part.isEmpty
  | c :: cs => part.isPrefixOf (c :: cs) || containsChars part cs

/-- Whether `stem` is an initial part of `s`. -/
def startsWith (s stem : String) : Bool := stem.toList.isPrefixOf s.toList

/-- Whether `part` is a run of neighbouring characters of `s`. -/
def contains (s part : String) : Bool := containsChars part.toList s.toList

/-- The letters A to Z in lower case, every other character as it is. -/
def lowerAscii (s : String) : String := String.ofList (s.toList.map Char.toLower)

theorem containsChars_iff {part : List Char} :
    ∀ {cs : List Char}, containsChars part cs = true ↔ part <:+: cs
  | [] => by simp [containsChars]
  | c :: cs => by
      simp only [containsChars, Bool.or_eq_true, List.isPrefixOf_iff_prefix,
        containsChars_iff]
      exact List.infix_cons_iff.symm

theorem contains_iff {s part : String} : contains s part = true ↔ part.toList <:+: s.toList :=
  containsChars_iff

theorem startsWith_iff {s stem : String} :
    startsWith s stem = true ↔ stem.toList <+: s.toList := List.isPrefixOf_iff_prefix

end FabricFootprint.Text
