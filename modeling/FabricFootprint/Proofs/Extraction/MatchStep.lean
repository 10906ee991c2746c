import FabricFootprint.Proofs.Extraction.Issues
import FabricFootprint.Proofs.Extraction.Reach

/-!
FabricFootprint.Proofs.Extraction.MatchStep — what a match step selects, and what it reports.

* `Rule.Clashes` — the compared field of a record holds a value of a type that the seed cannot
  be compared with. A field that is absent or null does not clash.
* `Rule.mistyped_eq_cons_iff`, `Rule.length_mistyped` — the first clash of a
  chunk, and their number.
* `RunContext.IsMismatch` — a report of a type that was not expected, with its wording.
* `Rule.MatchesExactly` — the records that fit are selected, in chunk order, and the clashes
  are reported once, if there are any.
* `selectWithIssue_exact` — every match step does so. One that compares texts needs a seed
  that is a text; any other seed selects nothing and is reported itself.
-/

namespace FabricFootprint

open Decimal (countText)

/-! ## Records that clash with a seed -/

/-- A value cannot be compared with the seed: it is of another type, or where texts are
compared it is no text. -/
def Incomparable (matchType : MatchType) (seed v : Value) : Prop :=
  match matchType with
  | .full => v.type? ≠ seed.type?
  | .containment => v.type? ≠ some .string
  | .noMatch => False

instance (matchType : MatchType) (seed v : Value) :
    Decidable (Incomparable matchType seed v) :=
  match matchType with
  | .full => inferInstanceAs (Decidable (v.type? ≠ seed.type?))
  | .containment => inferInstanceAs (Decidable (v.type? ≠ some .string))
  | .noMatch => inferInstanceAs (Decidable False)

namespace Rule

/-- The seed is of a type that the match step can compare: a text, where
texts are compared. -/
def Compares (rule : Rule) (seed : Value) : Prop :=
  rule.matchType = .containment → seed.type? = some .string

/-- The compared field of a record holds `v`, which clashes with the seed. -/
def ClashesAt (rule : Rule) (seed : Value) (record : Record) (v : Value) : Prop :=
  record.get? rule.destName = some v ∧ v ≠ .null ∧ Incomparable rule.matchType seed v

/-- The compared field of a record is present, not null, and clashes with the seed. -/
def Clashes (rule : Rule) (seed : Value) (record : Record) : Prop :=
  ∃ v, rule.ClashesAt seed record v

section Verdicts

variable {rule : Rule} {seed : Value} {record : Record}

theorem Compares.exists_text (h : rule.Compares seed)
    (hmatch : rule.matchType = .containment) :
    ∃ text, seed = .str text := by
  have htype := h hmatch
  cases seed <;> simp_all [Value.type?]

theorem judgeValue_eq_mistyped_iff (h : rule.Compares seed) {v : Value} {found : String} :
    judgeValue rule.matchType seed v = .mistyped found ↔
      Incomparable rule.matchType seed v ∧ v.typeName = found := by
  cases hmatch : rule.matchType with
  | full =>
    by_cases htype : v.type? = seed.type?
    · by_cases hv : v = seed <;> simp [judgeValue, Incomparable, htype, hv]
    · simp [judgeValue, Incomparable, htype]
  | containment =>
    obtain ⟨text, rfl⟩ := h.exists_text hmatch
    cases v with
    | str a =>
      by_cases hoverlaps : overlaps a text = true <;>
        simp [judgeValue, Incomparable, Value.str?, Value.type?, hoverlaps]
    | _ => simp [judgeValue, Incomparable, Value.str?, Value.type?]
  | noMatch => simp [judgeValue, Incomparable]

theorem judge_eq_mistyped_iff (h : rule.Compares seed) {found : String} :
    rule.judge seed record = .mistyped found ↔
      ∃ v, rule.ClashesAt seed record v ∧ v.typeName = found := by
  unfold judge ClashesAt
  cases hfield : Value.ofField? record rule.destName with
  | none =>
    simp only [reduceCtorEq, false_iff, not_exists]
    rintro v ⟨⟨hget, hnull, -⟩, -⟩
    have hsome := Value.ofField?_eq_some_iff.2 ⟨hget, hnull⟩
    exact nomatch hfield.symm.trans hsome
  | some v =>
    obtain ⟨hget, hnull⟩ := Value.ofField?_eq_some_iff.1 hfield
    simp [judgeValue_eq_mistyped_iff h, hget, hnull]

theorem clashes_iff (h : rule.Compares seed) :
    rule.Clashes seed record ↔ ∃ found, rule.judge seed record = .mistyped found := by
  simp only [Clashes, judge_eq_mistyped_iff h]
  exact ⟨fun ⟨v, hv⟩ => ⟨_, v, hv, rfl⟩, fun ⟨_, v, hv, _⟩ => ⟨v, hv⟩⟩

end Verdicts

instance (rule : Rule) (seed : Value) : DecidablePred (rule.Fits seed) :=
  fun _ => decidable_of_iff _ judge_eq_selected_iff

instance (rule : Rule) (seed : Value) : DecidablePred (rule.Clashes seed) := fun record =>
  match hget : record.get? rule.destName with
  | none => isFalse fun ⟨_, hv, _⟩ => nomatch hget.symm.trans hv
  | some v => decidable_of_iff (v ≠ .null ∧ Incomparable rule.matchType seed v)
      (by simp [Clashes, ClashesAt, hget])

/-- The type that a verdict complains about. -/
def Verdict.mistyped? : Verdict → Option String
  | .mistyped found => some found
  | _ => none

theorem Verdict.mistyped?_eq_some_iff {verdict : Verdict} {found : String} :
    verdict.mistyped? = some found ↔ verdict = .mistyped found := by
  cases verdict <;> simp [mistyped?]

/-! ## The clashes of a chunk -/

section Chunks

variable {rule : Rule} {seed : Value} {chunk : List Record}

theorem mistyped_eq_filterMap (rule : Rule) (seed : Value) (chunk : List Record) :
    rule.mistyped seed chunk = chunk.filterMap fun record =>
      (rule.judge seed record).mistyped? :=
  rfl

theorem select_eq_filter (rule : Rule) (seed : Value) (chunk : List Record) :
    rule.select seed chunk = chunk.filter (rule.Fits seed) := by
  refine List.filter_congr fun record _ => ?_
  rw [decide_eq_decide, judge_eq_selected_iff]

theorem mistyped?_judge_eq_none_iff (h : rule.Compares seed) {record : Record} :
    (rule.judge seed record).mistyped? = none ↔ ¬ rule.Clashes seed record := by
  rw [clashes_iff h, Option.eq_none_iff_forall_ne_some, not_exists]
  simp only [ne_eq, Verdict.mistyped?_eq_some_iff]

theorem mistyped_eq_nil_iff (h : rule.Compares seed) :
    rule.mistyped seed chunk = [] ↔ ∀ record ∈ chunk, ¬ rule.Clashes seed record := by
  rw [mistyped_eq_filterMap, List.filterMap_eq_nil_iff]
  simp only [mistyped?_judge_eq_none_iff h]

/-- The first clash of a chunk: no record before it clashes. -/
theorem mistyped_eq_cons_iff (h : rule.Compares seed) {found : String} {rest : List String} :
    rule.mistyped seed chunk = found :: rest ↔
      ∃ before record after, chunk = before ++ record :: after ∧
        (∀ other ∈ before, ¬ rule.Clashes seed other) ∧
        (∃ v, rule.ClashesAt seed record v ∧ v.typeName = found) ∧
        rule.mistyped seed after = rest := by
  rw [mistyped_eq_filterMap, List.filterMap_eq_cons_iff]
  simp only [mistyped?_judge_eq_none_iff h, Verdict.mistyped?_eq_some_iff,
    judge_eq_mistyped_iff h, mistyped_eq_filterMap]

theorem length_mistyped (h : rule.Compares seed) :
    (rule.mistyped seed chunk).length = chunk.countP (rule.Clashes seed) := by
  rw [mistyped_eq_filterMap, List.length_filterMap_eq_countP]
  refine List.countP_congr fun record _ => ?_
  rw [decide_eq_true_iff, ← Option.ne_none_iff_isSome, ne_eq, mistyped?_judge_eq_none_iff h,
    not_not]

end Chunks

end Rule

/-! ## Reports -/

/-- A report at a rule of a run: a field holds another type than was expected. -/
structure RunContext.IsMismatch (context : RunContext) (index : Nat)
    (field expected found note : String) (e : Incident) :
    Prop extends context.IsIssue index e where
  mismatch : e.kind = .typeMismatch
  wording :
    e.message = "Field " ++ field ++ " expected " ++ expected ++ ", found " ++ found ++ note

namespace RunContext

variable (context : RunContext) (index : Nat) (rule : Rule) (seed : Value)

theorem isMismatch_seedIssue :
    context.IsMismatch index rule.sourceName "string" seed.typeName ""
      (context.seedIssue index rule seed) where
  toIsIssue := isIssue_locate (.inl rfl)
  mismatch := rfl
  wording := by rw [String.append_empty]; rfl

theorem message_mistypedIssue (found : String) (count : Nat) :
    (context.mistypedIssue index rule seed found count).message =
      "Field " ++ rule.destName ++ " expected " ++ seed.typeName ++ ", found " ++ found ++
        (" (" ++ countText count ++ " records skipped)") := by
  have hsummary : (context.mistypedIssue index rule seed found count).message =
      "Field " ++ rule.destName ++ " expected " ++ seed.typeName ++ ", found " ++ found ++
        " (" ++ countText count ++ " records skipped)" := rfl
  rw [hsummary]
  simp only [String.append_assoc]

theorem isMismatch_mistypedIssue (found : String) (count : Nat) :
    context.IsMismatch index rule.destName seed.typeName found
      (" (" ++ countText count ++ " records skipped)")
      (context.mistypedIssue index rule seed found count) where
  toIsIssue := isIssue_locate (.inl rfl)
  mismatch := rfl
  wording := message_mistypedIssue context index rule seed found count

end RunContext

/-! ## Match steps -/

/-- What a match step finds for a seed that it can compare. -/
structure Rule.MatchesExactly (rule : Rule) (context : RunContext) (index : Nat)
    (seed : Value) (chunk records : List Record) (issue : Option Incident) : Prop where
  /-- The records that fit, each once, in chunk order. -/
  records : records = chunk.filter (rule.Fits seed)
  silent : issue = none ↔ ∀ record ∈ chunk, ¬ rule.Clashes seed record
  /-- One report for all clashes: it names the type of the first one, and
  how many there are. -/
  reported : ∀ e, issue = some e → ∃ before record after v,
    chunk = before ++ record :: after ∧
    (∀ other ∈ before, ¬ rule.Clashes seed other) ∧ rule.ClashesAt seed record v ∧
    context.IsMismatch index rule.destName seed.typeName v.typeName
      (" (" ++ countText (chunk.countP (rule.Clashes seed)) ++ " records skipped)") e

namespace Rule

variable {rule : Rule} {seed : Value}

theorem matchesExactly_selectWithIssue (h : rule.Compares seed) (context : RunContext)
    (index : Nat) (chunk : List Record) :
    rule.MatchesExactly context index seed chunk
      (rule.selectWithIssue context index seed chunk).1
      (rule.selectWithIssue context index seed chunk).2 := by
  -- the seed is of a type to compare, so it is not the seed that is reported
  have hcompares : ¬ (rule.matchType = .containment ∧ seed.str? = none) := by
    rintro ⟨hmatch, hnone⟩
    obtain ⟨text, rfl⟩ := h.exists_text hmatch
    exact nomatch hnone
  rw [selectWithIssue_eq, if_neg hcompares]
  cases hmistyped : rule.mistyped seed chunk with
  | nil =>
    refine ⟨select_eq_filter rule seed chunk, ?_, ?_⟩
    · exact iff_of_true rfl ((mistyped_eq_nil_iff h).1 hmistyped)
    · intro e he
      exact nomatch he
  | cons found rest =>
    refine ⟨select_eq_filter rule seed chunk, ?_, ?_⟩
    · rw [← mistyped_eq_nil_iff h, hmistyped]
      simp
    · intro e he
      obtain ⟨before, record, after, hchunk, hbefore, ⟨v, hclash, rfl⟩, -⟩ :=
        (mistyped_eq_cons_iff h).1 hmistyped
      have hcount : rest.length + 1 = chunk.countP (rule.Clashes seed) := by
        rw [← length_mistyped h, hmistyped, List.length_cons]
      obtain rfl := Option.some.inj he
      refine ⟨before, record, after, v, hchunk, hbefore, hclash, ?_⟩
      rw [← hcount]
      exact context.isMismatch_mistypedIssue index rule seed v.typeName (rest.length + 1)

theorem selectWithIssue_of_not_compares (h : ¬ rule.Compares seed) (context : RunContext)
    (index : Nat) (chunk : List Record) :
    rule.selectWithIssue context index seed chunk =
      ([], some (context.seedIssue index rule seed)) := by
  obtain ⟨hmatch, htype⟩ := Classical.not_imp.1 h
  have hnone : seed.str? = none := by
    cases seed with
    | str text => exact absurd rfl htype
    | _ => rfl
  rw [selectWithIssue_eq, if_pos ⟨hmatch, hnone⟩]

end Rule

/-- A rule whose seed has been found works on what its match step selects, after the issue
that the match step raises. -/
theorem Progress.step_of_seed {p : Progress} {context : RunContext} {index : Nat}
    {rule : Rule} {seed : Value} (hmatch : rule.hasMatchStep = true)
    (hseed : rule.seed context.registry context.key p.data = .found seed) :
    let found := rule.selectWithIssue context index seed (context.device.records rule.chunk)
    p.step context index rule = .ok ((p.withIssue? found.2).absorb rule found.1) := by
  intro found
  have hfound : rule.candidates context index p.data = .ok found := by
    rw [Rule.candidates, if_pos hmatch, hseed]
  rw [step, hfound]
  obtain ⟨records, issue⟩ := found
  cases issue <;> rfl

/-- Every match step selects exactly the records that fit its seed, and raises one issue when
values of the wrong type are in its way, else none. Only a seed that is no text, where texts
are compared, selects nothing and is an issue itself. In a run the rule then works on these
records, after this issue. -/
theorem selectWithIssue_exact {rule : Rule} (hmatch : rule.hasMatchStep = true)
    (context : RunContext) (index : Nat) (seed : Value) (chunk : List Record) :
    let found := rule.selectWithIssue context index seed chunk
    (rule.Compares seed → rule.MatchesExactly context index seed chunk found.1 found.2) ∧
    (¬ rule.Compares seed → found.1 = [] ∧
      ∃ e, found.2 = some e ∧
        context.IsMismatch index rule.sourceName "string" seed.typeName "" e) ∧
    ∀ p : Progress, context.device.records rule.chunk = chunk →
      rule.seed context.registry context.key p.data = .found seed →
        p.step context index rule = .ok ((p.withIssue? found.2).absorb rule found.1) := by
  intro found
  refine ⟨?_, ?_, ?_⟩
  · intro hcompares
    exact Rule.matchesExactly_selectWithIssue hcompares context index chunk
  · intro hcompares
    have hfound : found = ([], some (context.seedIssue index rule seed)) :=
      Rule.selectWithIssue_of_not_compares hcompares context index chunk
    rw [hfound]
    exact ⟨rfl, _, rfl, context.isMismatch_seedIssue index rule seed⟩
  · rintro p rfl hseed
    exact Progress.step_of_seed hmatch hseed

/-- Two of five identifiers are numbers where the seed is a text, one is null, and one record
has none: one record is selected, and the two numbers are reported. A number in place of the
seed is reported when texts are compared, and selects nothing. -/
theorem selectWithIssue_exact_ids :
    let byId : Rule := { (default : Rule) with chunk := "domains", destName := "id" }
    let byPart : Rule :=
      { byId with matchType := .containment, linkage := .indirect, sourceName := "vlan" }
    let named (id : Value) : Record := FieldMap.ofList [("id", id)]
    let chunk : List Record :=
      [named .null, named (.int 100), FieldMap.empty, named (.str "100"), named (.int 7)]
    let context : RunContext := ⟨"100", ⟨"leaf-1", FieldMap.empty⟩, .standard⟩
    (byId.hasMatchStep = true ∧ byId.Compares (.str "100") ∧ ∃ e,
      byId.selectWithIssue context 0 (.str "100") chunk = ([named (.str "100")], some e) ∧
      byId.MatchesExactly context 0 (.str "100") chunk [named (.str "100")] (some e) ∧
      e.message = "Field id expected string, found integer (2 records skipped)") ∧
    (byPart.hasMatchStep = true ∧ ¬ byPart.Compares (.int 7) ∧ ∃ e,
      byPart.selectWithIssue context 1 (.int 7) chunk = ([], some e) ∧
      context.IsMismatch 1 "vlan" "string" "integer" "" e) := by
  intro byId byPart named chunk context
  have compares : byId.Compares (.str "100") := fun h => nomatch h
  have notCompares : ¬ byPart.Compares (.int 7) := fun h => nomatch h rfl
  have mixed : byId.selectWithIssue context 0 (.str "100") chunk =
      ([named (.str "100")], some (context.mistypedIssue 0 byId (.str "100") "integer" 2)) :=
    rfl
  have wording : (context.mistypedIssue 0 byId (.str "100") "integer" 2).message =
      "Field id expected string, found integer (2 records skipped)" := by decide
  have full : byId.hasMatchStep = true := rfl
  have part : byPart.hasMatchStep = true := rfl
  obtain ⟨hmatches, -, -⟩ := selectWithIssue_exact full context 0 (.str "100") chunk
  obtain ⟨-, hreports, -⟩ := selectWithIssue_exact part context 1 (.int 7) chunk
  obtain ⟨hnone, e, he, hmismatch⟩ := hreports notCompares
  refine ⟨⟨full, compares, _, mixed, ?_, wording⟩, part, notCompares, e, ?_, hmismatch⟩
  · have hexact := hmatches compares
    rwa [mixed] at hexact
  · exact Prod.ext hnone he

end FabricFootprint
