import FabricFootprint.Json.Reader
import FabricFootprint.Proofs.Json.Lexemes

/-!
FabricFootprint.Proofs.Json.RoundTrip — documents are read back as they are written.

* `parseNode_tokens` — a document is parsed from its lexemes. Fuel twice the number of lexemes
  is enough, since every call takes a lexeme or hands on to one that does.
* `read_pretty`, `read_compact`, `read_written` — reading gives back any document that
  was written, in either form. Numerals come back as numerals: which numbers they
  stand for is decided later.
-/

namespace FabricFootprint.Json

/-- The lexemes of a document do not start with a closing bracket. -/
theorem head?_tokens (t : Json) (rest : List Token) :
    (tokens t ++ rest).head? ≠ some .closeList ∧
    (tokens t ++ rest).head? ≠ some .closeRecord := by
  cases t <;> exact ⟨nofun, nofun⟩

theorem head?_itemTokens (n : Json) (items : List Json) (rest : List Token) :
    (itemTokens (n :: items) ++ rest).head? ≠ some .closeList := by
  cases items with
  | nil => exact (head?_tokens n rest).1
  | cons m items =>
    rw [itemTokens, List.append_assoc]
    exact (head?_tokens n _).1

theorem head?_memberTokens (m : Option String × Json) (members : List (Option String × Json))
    (rest : List Token) :
    (memberTokens (m :: members) ++ rest).head? ≠ some .closeRecord := by
  cases members <;> exact nofun

/-- After an opening bracket that no closing one follows, items are parsed. -/
theorem parseNode_openList {ts : List Token} (h : ts.head? ≠ some .closeList) (fuel : Nat) :
    parseNode (fuel + 1) (.openList :: ts) =
      (parseItems fuel ts).map fun r => (.list r.1, r.2) := by
  rw [parseNode.eq_4 _ _ (by rintro rest rfl; exact h rfl)]
  cases parseItems fuel ts <;> rfl

theorem parseNode_openRecord {ts : List Token} (h : ts.head? ≠ some .closeRecord)
    (fuel : Nat) :
    parseNode (fuel + 1) (.openRecord :: ts) =
      (parseMembers fuel ts).map fun r => (.record r.1, r.2) := by
  rw [parseNode.eq_6 _ _ (by rintro rest rfl; exact h rfl)]
  cases parseMembers fuel ts <;> rfl

theorem length_tokens_pos (t : Json) : 0 < (tokens t).length := by
  cases t <;> simp [tokens]

mutual

/-- A document is parsed from its lexemes, whatever comes after them. -/
theorem parseNode_tokens : ∀ (t : Json) (fuel : Nat) (rest : List Token),
    2 * (tokens t).length ≤ fuel + 1 → parseNode fuel (tokens t ++ rest) = some (t, rest)
  | t, 0, _, h => by
      have hpos := length_tokens_pos t
      omega
  | .scalar s, _ + 1, _, _ => rfl
  | .list [], _ + 1, _, _ => rfl
  | .list (n :: items), fuel + 1, rest, h => by
      have hfuel : 2 * (itemTokens (n :: items)).length ≤ fuel := by
        simp only [tokens, List.length_cons, List.length_append, List.length_nil] at h
        omega
      rw [tokens, List.cons_append, List.append_assoc, List.singleton_append,
        parseNode_openList (head?_itemTokens n items _),
        parseItems_itemTokens n items fuel rest hfuel, Option.map_some]
  | .record [], _ + 1, _, _ => rfl
  | .record (m :: members), fuel + 1, rest, h => by
      have hfuel : 2 * (memberTokens (m :: members)).length ≤ fuel := by
        simp only [tokens, List.length_cons, List.length_append, List.length_nil] at h
        omega
      rw [tokens, List.cons_append, List.append_assoc, List.singleton_append,
        parseNode_openRecord (head?_memberTokens m members _),
        parseMembers_memberTokens m members fuel rest hfuel, Option.map_some]

/-- The items of a list are parsed up to its closing bracket. -/
theorem parseItems_itemTokens :
    ∀ (n : Json) (items : List Json) (fuel : Nat) (rest : List Token),
    2 * (itemTokens (n :: items)).length ≤ fuel →
      parseItems fuel (itemTokens (n :: items) ++ .closeList :: rest) =
        some (n :: items, rest)
  | n, [], 0, _, h => by
      have hpos := length_tokens_pos n
      simp only [itemTokens] at h
      omega
  | n, m :: items, 0, _, h => by
      simp only [itemTokens, List.length_append, List.length_cons] at h
      omega
  | n, [], fuel + 1, rest, h => by
      have hnode := parseNode_tokens n fuel (.closeList :: rest) h
      rw [itemTokens, parseItems, hnode]
  | n, m :: items, fuel + 1, rest, h => by
      simp only [itemTokens, List.length_append, List.length_cons] at h
      have hnode := parseNode_tokens n fuel
        (.comma :: (itemTokens (m :: items) ++ .closeList :: rest)) (by omega)
      have hitems := parseItems_itemTokens m items fuel rest (by omega)
      rw [itemTokens, List.append_assoc, List.cons_append, parseItems, hnode]
      simp only [hitems]

/-- The members of a record are parsed up to its closing bracket. -/
theorem parseMembers_memberTokens : ∀ (m : Option String × Json)
    (members : List (Option String × Json)) (fuel : Nat) (rest : List Token),
    2 * (memberTokens (m :: members)).length ≤ fuel →
      parseMembers fuel (memberTokens (m :: members) ++ .closeRecord :: rest) =
        some (m :: members, rest)
  | (k, n), [], 0, _, h => by
      simp only [memberTokens, List.length_cons] at h
      omega
  | (k, n), m :: members, 0, _, h => by
      simp only [memberTokens, List.length_cons] at h
      omega
  | (k, n), [], fuel + 1, rest, h => by
      simp only [memberTokens, List.length_cons] at h
      have hnode := parseNode_tokens n fuel (.closeRecord :: rest) (by omega)
      rw [memberTokens, List.cons_append, List.cons_append, parseMembers, hnode]
  | (k, n), m :: members, fuel + 1, rest, h => by
      simp only [memberTokens, List.length_append, List.length_cons] at h
      have hnode := parseNode_tokens n fuel
        (.comma :: (memberTokens (m :: members) ++ .closeRecord :: rest)) (by omega)
      have hmembers := parseMembers_memberTokens m members fuel rest (by omega)
      rw [memberTokens, List.cons_append, List.cons_append, List.append_assoc,
        List.cons_append, parseMembers, hnode]
      simp only [hmembers]

end

theorem ofTokens?_tokens (t : Json) : ofTokens? (tokens t) = some t := by
  have hnode := parseNode_tokens t (2 * (tokens t).length + 1) [] (by omega)
  rw [List.append_nil] at hnode
  rw [ofTokens?, hnode]

/-- What is scanned into the lexemes of a document is read as this document. -/
theorem read_ofList {run : List Char} {t : Json} (h : Lexes run (tokens t)) :
    read (String.ofList run) = some t := by
  rw [read, String.toList_ofList, h.scanAll_eq, Option.bind_some, ofTokens?_tokens]

/-- A document written on several lines is read back. -/
theorem read_pretty (t : Json) : read t.pretty = some t := read_ofList (lexes_prettyChars 0 t)

/-- A document written without blanks is read back. -/
theorem read_compact (t : Json) : read t.compact = some t :=
  read_ofList (lexes_compactChars t)

theorem read_written {text : Json → String} (h : text ∈ [pretty, compact]) (t : Json) :
    read (text t) = some t := by
  have htext : text = pretty ∨ text = compact := by simpa using h
  rcases htext with rfl | rfl
  · exact read_pretty t
  · exact read_compact t

end FabricFootprint.Json
