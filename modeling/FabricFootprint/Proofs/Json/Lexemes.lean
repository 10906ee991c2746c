import FabricFootprint.Json.Writer
import FabricFootprint.Proofs.Json.Literal
import FabricFootprint.Proofs.Json.Numeral

/-!
FabricFootprint.Proofs.Json.Lexemes — the lexemes of a written document.

* `tokens` — the lexemes of a document, in order.
* `Lexes` — a run of characters is scanned into some lexemes, whatever follows it that its
  last lexeme could not go on with. Runs are put together by `Lexes.append`, and brackets,
  separators and blanks are put in front of them by `Lexes.punctuation` and `Lexes.gap`, which
  ask nothing of what follows.
* `lexes_prettyChars`, `lexes_compactChars` — both written forms of a document are
  scanned into its lexemes.
-/

namespace FabricFootprint.Json

/-! ## Lexemes of a document -/

mutual

/-- The lexemes of a document. -/
def tokens : Json → List Token
  | .scalar s => [.scalar s]
  | .list items => .openList :: (itemTokens items ++ [.closeList])
  | .record members => .openRecord :: (memberTokens members ++ [.closeRecord])

/-- The lexemes of list items, with the commas between them. -/
def itemTokens : List Json → List Token
  | [] => []
  | [n] => tokens n
  | n :: m :: rest => tokens n ++ .comma :: itemTokens (m :: rest)

/-- The lexemes of record members, with the commas between them. -/
def memberTokens : List (Option String × Json) → List Token
  | [] => []
  | [(k, n)] => .scalar (.text k) :: .colon :: tokens n
  | (k, n) :: m :: rest =>
    .scalar (.text k) :: .colon :: (tokens n ++ .comma :: memberTokens (m :: rest))

end

/-! ## Runs of characters -/

/-- A run of characters is scanned into lexemes, in no more steps than it has characters. -/
def Lexes (run : List Char) (ts : List Token) : Prop :=
  ∃ steps ≤ run.length, ∀ fuel rest, Stops rest →
    scanSteps (steps + fuel) (run ++ rest) = (scanSteps fuel rest).map (ts ++ ·)

theorem stops_append {run rest : List Char} (hrun : Stops run) (hrest : Stops rest) :
    Stops (run ++ rest) := by
  cases run with
  | nil => exact hrest
  | cons c run => exact hrun

/-- Some character other than a digit, a point and the letter of an exponent. -/
theorem stops_cons {c : Char} (h : c.isDigit = false ∧ c ≠ '.' ∧ c ≠ 'e' ∧ c ≠ 'E')
    (rest : List Char) : Stops (c :: rest) := by
  intro d hd
  cases hd
  exact h

theorem lexes_nil : Lexes [] [] :=
  ⟨0, Nat.le_refl 0, fun fuel rest _ => by simp⟩

theorem Lexes.append {run next : List Char} {ts us : List Token} (h : Lexes run ts)
    (hnext : Lexes next us) (hstops : Stops next) : Lexes (run ++ next) (ts ++ us) := by
  obtain ⟨steps, hsteps, hscan⟩ := h
  obtain ⟨more, hmore, hscan'⟩ := hnext
  refine ⟨steps + more, ?_, fun fuel rest hrest => ?_⟩
  · rw [List.length_append]
    omega
  · rw [List.append_assoc, Nat.add_assoc, hscan _ _ (stops_append hstops hrest),
      hscan' _ _ hrest, Option.map_map]
    congr 1
    funext vs
    exact (List.append_assoc ts us vs).symm

/-- A blank in front adds no lexeme. -/
theorem Lexes.gap {c : Char} {run : List Char} {ts : List Token} (h : Lexes run ts)
    (hc : isGap c = true) : Lexes (c :: run) ts := by
  obtain ⟨steps, hsteps, hscan⟩ := h
  refine ⟨steps + 1, Nat.succ_le_succ hsteps, fun fuel rest hrest => ?_⟩
  rw [Nat.add_right_comm, List.cons_append, scanSteps, if_pos hc, hscan _ _ hrest]

/-- A lexeme of one character is read by itself. -/
theorem Lexes.punctuation {c : Char} {t : Token} {run : List Char} {ts : List Token}
    (h : Lexes run ts) (hc : isGap c = false)
    (hscan : ∀ rest, scanToken c rest = some (t, rest)) :
    Lexes (c :: run) (t :: ts) := by
  obtain ⟨steps, hsteps, hrun⟩ := h
  refine ⟨steps + 1, Nat.succ_le_succ hsteps, fun fuel rest hrest => ?_⟩
  rw [Nat.add_right_comm, List.cons_append, scanSteps, if_neg (by simp [hc])]
  simp only [hscan, hrun _ _ hrest, Option.map_map]
  rfl

/-- A lexeme of several characters, read as far as it goes. -/
theorem lexes_token {c : Char} (body : List Char) {t : Token} (hc : isGap c = false)
    (hscan : ∀ rest, Stops rest → scanToken c (body ++ rest) = some (t, rest)) :
    Lexes (c :: body) [t] := by
  refine ⟨1, by simp, fun fuel rest hrest => ?_⟩
  rw [Nat.add_comm, List.cons_append, scanSteps, if_neg (by simp [hc])]
  simp only [hscan rest hrest]
  rfl

theorem Lexes.newLine {run : List Char} {ts : List Token} (h : Lexes run ts) (depth : Nat) :
    Lexes (newLine depth ++ run) ts := by
  have hblanks (n : Nat) : Lexes (List.replicate n ' ' ++ run) ts := by
    induction n with
    | zero => exact h
    | succ n ih => exact ih.gap rfl
  exact (hblanks (2 * depth)).gap rfl

/-! ## Scalars -/

/-- A digit or a minus sign starts no other lexeme than a numeral. -/
theorem scanToken_of_numeral {c : Char} (h : c.isDigit = true ∨ c = '-') (rest : List Char) :
    isGap c = false ∧ scanToken c rest =
      (scanNumeral (c :: rest)).map fun (n, rest) => (.scalar (.number n), rest) := by
  have hne (d : Char) (hd : d.isDigit = false ∧ d ≠ '-') : c ≠ d := by
    rintro rfl
    rcases h with h | h
    · exact nomatch h.symm.trans hd.1
    · exact hd.2 h
  constructor
  · simp only [isGap, Bool.or_eq_false_iff, beq_eq_false_iff_ne]
    exact ⟨⟨⟨hne _ (by decide), hne _ (by decide)⟩, hne _ (by decide)⟩, hne _ (by decide)⟩
  · rw [scanToken, if_neg (hne _ (by decide)), if_neg (hne _ (by decide)),
      if_neg (hne _ (by decide)), if_neg (hne _ (by decide)), if_neg (hne _ (by decide)),
      if_neg (hne _ (by decide)), if_neg (hne _ (by decide)), if_neg (hne _ (by decide)),
      if_neg (hne _ (by decide)), if_neg (hne _ (by decide))]

/-- A numeral starts with a digit or a minus sign. -/
theorem exists_cons_chars (n : Numeral) :
    ∃ c body, n.chars = c :: body ∧ (c.isDigit = true ∨ c = '-') := by
  rw [Numeral.chars_eq]
  cases n.negative with
  | true => exact ⟨'-', _, rfl, .inr rfl⟩
  | false =>
    cases hds : Nat.toDigits 10 n.whole with
    | nil => exact absurd hds Nat.toDigits_ne_nil
    | cons d ds =>
      exact ⟨d, _, rfl,
        .inl (isDigit_of_mem_toDigits d (by rw [hds]; exact List.mem_cons_self))⟩

theorem lexes_numeral (n : Numeral) : Lexes n.chars [.scalar (.number n)] := by
  obtain ⟨c, body, hchars, hc⟩ := exists_cons_chars n
  rw [hchars]
  refine lexes_token body (scanToken_of_numeral hc []).1 fun rest hrest => ?_
  rw [(scanToken_of_numeral hc _).2, ← List.cons_append, ← hchars, scanNumeral_chars n hrest]
  rfl

theorem lexes_text (t : Option String) :
    Lexes (scalarChars (.text t)) [.scalar (.text t)] := by
  cases t with
  | none =>
    refine lexes_token Literal.broken.tail rfl fun rest _ => ?_
    show (Literal.scan (Literal.broken.tail ++ rest)).map _ = _
    rw [Literal.scan_broken]
    rfl
  | some s =>
    refine lexes_token (s.toList.flatMap Literal.encodeChar ++ ['"']) rfl fun rest _ => ?_
    rw [List.append_assoc, List.singleton_append]
    show (Literal.scan (s.toList.flatMap Literal.encodeChar ++ '"' :: rest)).map _ = _
    rw [Literal.scan_encode, Option.map_some]
    simp only [Literal.decode?_map_pieceOf]

/-- A scalar is scanned as itself; a word is told from the others by its first letter. -/
theorem lexes_scalar (s : JsonScalar) : Lexes (scalarChars s) [.scalar s] := by
  cases s with
  | null => exact lexes_token _ rfl fun rest _ => rfl
  | bool b =>
    cases b with
    | true => exact lexes_token _ rfl fun rest _ => rfl
    | false => exact lexes_token _ rfl fun rest _ => rfl
  | number n => exact lexes_numeral n
  | text t => exact lexes_text t

/-! ## Documents -/

theorem Lexes.openList {run : List Char} {ts : List Token} (h : Lexes run ts) :
    Lexes ('[' :: run) (.openList :: ts) := h.punctuation rfl fun _ => rfl

theorem Lexes.openRecord {run : List Char} {ts : List Token} (h : Lexes run ts) :
    Lexes ('\x7b' :: run) (.openRecord :: ts) := h.punctuation rfl fun _ => rfl

theorem lexes_closeList : Lexes [']'] [.closeList] := lexes_nil.punctuation rfl fun _ => rfl

theorem lexes_closeRecord : Lexes ['\x7d'] [.closeRecord] :=
  lexes_nil.punctuation rfl fun _ => rfl

theorem Lexes.comma {run : List Char} {ts : List Token} (h : Lexes run ts) :
    Lexes (',' :: run) (.comma :: ts) := h.punctuation rfl fun _ => rfl

theorem Lexes.colon {run : List Char} {ts : List Token} (h : Lexes run ts) :
    Lexes (':' :: run) (.colon :: ts) := h.punctuation rfl fun _ => rfl

/-- A key and its colon, in front of the content. -/
theorem Lexes.key {run : List Char} {ts : List Token} (h : Lexes run ts) (k : Option String) :
    Lexes (keyChars k ++ ':' :: run) (.scalar (.text k) :: .colon :: ts) :=
  (lexes_text k).append h.colon (stops_cons (by decide) run)

mutual

/-- A document written without blanks is scanned into its lexemes. -/
theorem lexes_compactChars : ∀ t : Json, Lexes (compactChars t) (tokens t)
  | .scalar s => lexes_scalar s
  | .list items =>
    ((lexes_compactItems items).append lexes_closeList (stops_cons (by decide) [])).openList
  | .record members =>
    ((lexes_compactMembers members).append lexes_closeRecord
      (stops_cons (by decide) [])).openRecord

theorem lexes_compactItems :
    ∀ items : List Json, Lexes (compactItems items) (itemTokens items)
  | [] => lexes_nil
  | [n] => lexes_compactChars n
  | n :: m :: rest =>
    (lexes_compactChars n).append (lexes_compactItems (m :: rest)).comma
      (stops_cons (by decide) _)

theorem lexes_compactMembers : ∀ members : List (Option String × Json),
    Lexes (compactMembers members) (memberTokens members)
  | [] => lexes_nil
  | [(k, n)] => (lexes_compactChars n).key k
  | (k, n) :: m :: rest => by
      have hrest := (lexes_compactMembers (m :: rest)).comma
      have h := (((lexes_compactChars n).append hrest (stops_cons (by decide) _))).key k
      simpa only [compactMembers, memberTokens, List.append_assoc, List.cons_append] using h

end

theorem stops_newLine (depth : Nat) (rest : List Char) : Stops (newLine depth ++ rest) :=
  stops_cons (by decide) _

mutual

/-- A document written on several lines is scanned into its lexemes. -/
theorem lexes_prettyChars : ∀ (depth : Nat) (t : Json), Lexes (prettyChars depth t) (tokens t)
  | _, .scalar s => lexes_scalar s
  | _, .list [] => lexes_closeList.openList
  | depth, .list (n :: rest) => by
      have hitems := lexes_prettyItems (depth + 1) (n :: rest)
      have h :=
        (hitems.append (lexes_closeList.newLine depth) (stops_newLine depth _)).openList
      simpa only [prettyChars, tokens, List.append_assoc, List.cons_append] using h
  | _, .record [] => lexes_closeRecord.openRecord
  | depth, .record (m :: rest) => by
      have hmembers := lexes_prettyMembers (depth + 1) (m :: rest)
      have h :=
        (hmembers.append (lexes_closeRecord.newLine depth) (stops_newLine depth _)).openRecord
      simpa only [prettyChars, tokens, List.append_assoc, List.cons_append] using h

theorem lexes_prettyItems : ∀ (depth : Nat) (items : List Json),
    Lexes (prettyItems depth items) (itemTokens items)
  | _, [] => lexes_nil
  | depth, [n] => (lexes_prettyChars depth n).newLine depth
  | depth, n :: m :: rest => by
      have hrest := (lexes_prettyItems depth (m :: rest)).comma
      have h :=
        ((lexes_prettyChars depth n).append hrest (stops_cons (by decide) _)).newLine depth
      simpa only [prettyItems, itemTokens, List.append_assoc] using h

theorem lexes_prettyMembers : ∀ (depth : Nat) (members : List (Option String × Json)),
    Lexes (prettyMembers depth members) (memberTokens members)
  | _, [] => lexes_nil
  | depth, [(k, n)] => by
      have h := (((lexes_prettyChars depth n).gap (c := ' ') rfl).key k).newLine depth
      simpa only [prettyMembers, memberTokens, List.append_assoc] using h
  | depth, (k, n) :: m :: rest => by
      have hrest := (lexes_prettyMembers depth (m :: rest)).comma
      have hcontent := (lexes_prettyChars depth n).append hrest (stops_cons (by decide) _)
      have h := ((hcontent.gap (c := ' ') rfl).key k).newLine depth
      simpa only [prettyMembers, memberTokens, List.append_assoc, List.cons_append] using h

end

/-- A run that is a whole text is scanned into its lexemes. -/
theorem Lexes.scanAll_eq {run : List Char} {ts : List Token} (h : Lexes run ts) :
    scanAll run = some ts := by
  obtain ⟨steps, hsteps, hscan⟩ := h
  have hend := hscan (run.length - steps) [] fun c hc => nomatch hc
  have hnil (fuel : Nat) : scanSteps fuel [] = some [] := by cases fuel <;> rfl
  rw [Nat.add_sub_of_le hsteps, List.append_nil, hnil, Option.map_some,
    List.append_nil] at hend
  exact hend

end FabricFootprint.Json
