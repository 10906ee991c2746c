import FabricFootprint.Proofs.Conversion.Whole
import FabricFootprint.Proofs.Json.Numeral
import FabricFootprint.Proofs.Text.Trim

/-!
FabricFootprint.Proofs.Conversion.Spelled — conversions between integers and the
texts that spell them.

* `Decimal.Spells` — the grammar: ASCII digits, one at least, after an optional sign; each
  text spells one integer at most.
* `Decimal.readDigits_eq_ok_iff` — the digit-by-digit reading with its check for overflow
  after every digit accepts exactly the digits of a number within the limit.
* `Decimal.readInteger_eq_ok_iff` — an integer of 64 bits is read from the texts that spell
  it, and from no others.
* `Decimal.spells_signedDigits` — an integer is written as a text that spells it.
* `standard_integer_texts` — so texts are converted to integers exactly when they spell one in
  range, blanks around it aside, and what an integer is converted to is converted back.
-/

namespace FabricFootprint

namespace Decimal

/-! ## The grammar -/

/-- One or more ASCII digits. -/
structure IsDigits (cs : List Char) : Prop where
  ne_nil : cs ≠ []
  digits : ∀ c ∈ cs, c.isDigit = true

/-- A text spells an integer: one or more ASCII digits, which denote its magnitude in base
ten, after an optional sign. Leading zeros count for nothing. -/
inductive Spells : List Char → Int → Prop where
  | unsigned {ds : List Char} (h : IsDigits ds) : Spells ds (Nat.ofDigitChars 10 ds 0)
  | plus {ds : List Char} (h : IsDigits ds) : Spells ('+' :: ds) (Nat.ofDigitChars 10 ds 0)
  | minus {ds : List Char} (h : IsDigits ds) :
      Spells ('-' :: ds) (-(Nat.ofDigitChars 10 ds 0 : Int))

section Grammar

variable {c : Char} {ds : List Char} {n : Int}

theorem not_isDigits_nil : ¬ IsDigits [] := fun h => h.ne_nil rfl

theorem not_spells_nil : ¬ Spells [] n := by
  rintro ⟨h⟩
  exact not_isDigits_nil h

/-- A digit is no sign. -/
theorem IsDigits.ne_sign (h : IsDigits (c :: ds)) : c ≠ '+' ∧ c ≠ '-' := by
  have hc := h.digits c List.mem_cons_self
  constructor <;> rintro rfl <;> exact absurd hc (by decide)

theorem spells_plus_iff :
    Spells ('+' :: ds) n ↔ IsDigits ds ∧ n = (Nat.ofDigitChars 10 ds 0 : Nat) := by
  constructor
  · intro h
    cases h with
    | unsigned h => exact absurd rfl h.ne_sign.1
    | plus h => exact ⟨h, rfl⟩
  · rintro ⟨h, rfl⟩
    exact .plus h

theorem spells_minus_iff :
    Spells ('-' :: ds) n ↔ IsDigits ds ∧ n = -(Nat.ofDigitChars 10 ds 0 : Int) := by
  constructor
  · intro h
    cases h with
    | unsigned h => exact absurd rfl h.ne_sign.2
    | minus h => exact ⟨h, rfl⟩
  · rintro ⟨h, rfl⟩
    exact .minus h

theorem spells_unsigned_iff {cs : List Char} (hplus : ∀ ds, cs ≠ '+' :: ds)
    (hminus : ∀ ds, cs ≠ '-' :: ds) :
    Spells cs n ↔ IsDigits cs ∧ n = (Nat.ofDigitChars 10 cs 0 : Nat) := by
  constructor
  · intro h
    cases h with
    | unsigned h => exact ⟨h, rfl⟩
    | plus h => exact absurd rfl (hplus _)
    | minus h => exact absurd rfl (hminus _)
  · rintro ⟨h, rfl⟩
    exact .unsigned h

/-- A text spells one integer at most. -/
theorem Spells.unique {cs : List Char} {m : Int} (h : Spells cs n) (h' : Spells cs m) :
    n = m := by
  cases h with
  | unsigned h =>
    cases h' with
    | unsigned _ => rfl
    | plus _ => exact absurd rfl h.ne_sign.1
    | minus _ => exact absurd rfl h.ne_sign.2
  | plus h => exact (spells_plus_iff.1 h').2.symm
  | minus h => exact (spells_minus_iff.1 h').2.symm

theorem isBlank_of_isDigit {c : Char} (h : c.isDigit = true) : Text.isBlank c = false := by
  simp only [Char.isDigit, ge_iff_le, Bool.and_eq_true, decide_eq_true_eq] at h
  have hlow : 48 ≤ c.toNat := h.1
  have hhigh : c.toNat ≤ 57 := h.2
  simp [Text.isBlank]
  omega

theorem IsDigits.noBlank (h : IsDigits ds) : Text.NoBlank ds :=
  fun c hc => isBlank_of_isDigit (h.digits c hc)

/-- What spells an integer has no blank in it. -/
theorem Spells.noBlank {cs : List Char} (h : Spells cs n) : Text.NoBlank cs := by
  cases h with
  | unsigned h => exact h.noBlank
  | plus h => exact List.forall_mem_cons.2 ⟨by decide, h.noBlank⟩
  | minus h => exact List.forall_mem_cons.2 ⟨by decide, h.noBlank⟩

end Grammar

/-! ## Reading -/

/-- More digits do not make a number smaller. -/
theorem le_ofDigitChars (cs : List Char) (n : Nat) : n ≤ Nat.ofDigitChars 10 cs n := by
  induction cs generalizing n with
  | nil => exact Nat.le_refl n
  | cons c cs ih =>
    rw [Nat.ofDigitChars_cons]
    exact Nat.le_trans (by omega) (ih _)

/-- Digits are read onto `n` when they all are digits and the number they denote is
within the limit. The reading stops at the first digit past the limit, and more digits
would only lead further away. -/
theorem readDigits_eq_ok_iff {limit : Nat} {overflow : IntegerFault} {n m : Nat}
    {cs : List Char} (hn : n ≤ limit) :
    readDigits limit overflow n cs = .ok m ↔
      (∀ c ∈ cs, c.isDigit = true) ∧ m = Nat.ofDigitChars 10 cs n ∧ m ≤ limit := by
  induction cs generalizing n with
  | nil =>
    simp only [readDigits, Except.ok.injEq, List.not_mem_nil, false_implies,
      implies_true, true_and, Nat.ofDigitChars_nil]
    constructor
    · rintro rfl
      exact ⟨rfl, hn⟩
    · rintro ⟨rfl, -⟩
      rfl
  | cons c cs ih =>
    by_cases hc : c.isDigit = true
    · have hdigit : Nat.ofDigitChars 10 (c :: cs) n =
          Nat.ofDigitChars 10 cs (n * 10 + (c.toNat - '0'.toNat)) := by
        rw [Nat.ofDigitChars_cons, Nat.mul_comm]
      simp only [readDigits, digit?_eq_of_isDigit hc, hdigit, List.forall_mem_cons,
        hc, true_and]
      by_cases hlimit : limit < n * 10 + (c.toNat - '0'.toNat)
      · have hmore := le_ofDigitChars cs (n * 10 + (c.toNat - '0'.toNat))
        simp only [hlimit, ↓reduceIte, reduceCtorEq, false_iff, not_and]
        intro _ _ hm
        omega
      · simp only [hlimit, ↓reduceIte]
        exact ih (by omega)
    · have hnone : digit? c = none := if_neg hc
      simp [readDigits, hnone, hc]

/-- The integer that a magnitude stands for: itself, or its negative after a minus sign. -/
def signed (negative : Bool) (magnitude : Int) : Int :=
  if negative then -magnitude else magnitude

/-- The greatest magnitude after a sign. There is one more negative integer than
there are positive ones. -/
def magnitudeLimit (negative : Bool) : Nat :=
  if negative then integerBound else integerBound - 1

/-- A magnitude within the limit of its sign is that of the integer it stands for. -/
theorem ofInt_signed_eq_iff {negative : Bool} {m : Nat} {i : Int64} :
    m ≤ magnitudeLimit negative ∧ Int64.ofInt (signed negative m) = i ↔
      i.toInt = signed negative m := by
  have hlow := i.le_toInt
  have hhigh := i.toInt_lt
  rw [magnitudeLimit, integerBound_eq]
  constructor
  · rintro ⟨hlimit, rfl⟩
    refine Int64.toInt_ofInt_of_le ?_ ?_ <;> cases negative <;> simp [signed] at * <;> omega
  · intro hi
    refine ⟨?_, ?_⟩
    · cases negative <;> simp [signed] at * <;> omega
    · rw [← hi, Int64.ofInt_toInt]

/-- After its sign an integer is read from the digits of its magnitude. -/
theorem readSigned_eq_ok_iff (negative : Bool) {overflow : IntegerFault} {ds : List Char}
    (hds : ds ≠ []) {i : Int64} :
    Except.map (fun m => Int64.ofInt (signed negative m))
        (do let m ← readDigits (magnitudeLimit negative) overflow 0 ds; pure (m : Int)) =
          .ok i ↔
      IsDigits ds ∧ i.toInt = signed negative (Nat.ofDigitChars 10 ds 0 : Nat) := by
  have hread (m : Nat) : readDigits (magnitudeLimit negative) overflow 0 ds = .ok m ↔ _ :=
    readDigits_eq_ok_iff (Nat.zero_le _)
  rw [← ofInt_signed_eq_iff]
  constructor
  · intro h
    cases hm : readDigits (magnitudeLimit negative) overflow 0 ds with
    | error fault =>
      rw [hm] at h
      exact nomatch h
    | ok m =>
      rw [hm] at h
      injection h with h
      obtain ⟨hdigits, rfl, hlimit⟩ := (hread m).1 hm
      exact ⟨⟨hds, hdigits⟩, hlimit, h⟩
  · rintro ⟨hdigits, hlimit, rfl⟩
    rw [(hread _).2 ⟨hdigits.digits, rfl, hlimit⟩]
    rfl

/-- An integer of 64 bits is read from the texts that spell it. -/
theorem readInteger_eq_ok_iff {cs : List Char} {i : Int64} :
    readInteger cs = .ok i ↔ Spells cs i.toInt := by
  unfold readInteger
  split
  · simp [not_spells_nil]
  · simp [spells_plus_iff, not_isDigits_nil]
  · simp [spells_minus_iff, not_isDigits_nil]
  · next rest hne =>
    rw [spells_minus_iff]
    exact readSigned_eq_ok_iff true hne
  · next rest hne =>
    rw [spells_plus_iff]
    exact readSigned_eq_ok_iff false hne
  · next hnil _ _ hminus hplus =>
    rw [spells_unsigned_iff hplus hminus]
    exact readSigned_eq_ok_iff false hnil

/-! ## Writing -/

theorem isDigits_toDigits (n : Nat) : IsDigits (Nat.toDigits 10 n) :=
  ⟨Nat.toDigits_ne_nil, isDigit_of_mem_toDigits⟩

/-- An integer is written as a text that spells it. -/
theorem spells_signedDigits (n : Int) : Spells (Numeral.signedDigits n) n := by
  have hvalue : Nat.ofDigitChars 10 (Nat.toDigits 10 n.natAbs) 0 = n.natAbs :=
    Nat.ofDigitChars_toDigits (by decide) (by decide)
  by_cases hn : n < 0
  · have hspells := Spells.minus (isDigits_toDigits n.natAbs)
    rw [hvalue] at hspells
    simpa [Numeral.signedDigits, hn, abs_of_neg hn] using hspells
  · have hspells := Spells.unsigned (isDigits_toDigits n.natAbs)
    rw [hvalue] at hspells
    simpa [Numeral.signedDigits, hn, abs_of_nonneg (Int.not_lt.1 hn)] using hspells

end Decimal

/-! ## Conversions -/

open Decimal (Spells)

/-- A text is converted to the integer that it spells, blanks around it aside. -/
theorem convert_text_eq_ok_iff {s : String} {w : Value} :
    ConversionRegistry.standard.convert .string .integer (.str s) = .ok w ↔
      ∃ i : Int64, w = .int i ∧ Spells (Text.trim s).toList i.toInt := by
  rw [ConversionRegistry.convert_eq_ok_iff (by decide) rfl]
  simp only [← Decimal.readInteger_eq_ok_iff, Converter.textToInteger, Converter.expectText,
    Value.str?, bind, Except.bind]
  cases Decimal.readInteger (Text.trim s).toList <;> simp [eq_comm]

/-- The conversions between integers and texts. A text is converted to an integer exactly
when, blanks at its two ends aside, it is one or more ASCII digits after an optional sign and
denotes an integer of 64 bits; the result is this integer. The text that an integer is
converted to is converted back to it, whatever blanks are put around it. -/
theorem standard_integer_texts :
    let convert := ConversionRegistry.standard.convert
    (∀ (s : String) (w : Value), convert .string .integer (.str s) = .ok w ↔
      ∃ n : Int, Spells (Text.trim s).toList n ∧ -2 ^ 63 ≤ n ∧ n ≤ 2 ^ 63 - 1 ∧
        w = .int (Int64.ofInt n)) ∧
    ∀ (i : Int64) (before after : String), Text.AllBlank before.toList →
      Text.AllBlank after.toList →
      ∃ t, convert .integer .string (.int i) = .ok (.str t) ∧
        convert .string .integer (.str (before ++ t ++ after)) = .ok (.int i) := by
  intro convert
  constructor
  · intro s w
    rw [convert_text_eq_ok_iff]
    constructor
    · rintro ⟨i, rfl, hspells⟩
      have hhigh := i.toInt_lt
      exact ⟨i.toInt, hspells, i.le_toInt, by omega, by rw [Int64.ofInt_toInt]⟩
    · rintro ⟨n, hspells, hlow, hhigh, rfl⟩
      refine ⟨Int64.ofInt n, rfl, ?_⟩
      rwa [Int64.toInt_ofInt_of_le hlow (by omega)]
  · intro i before after hbefore hafter
    have hspells := Decimal.spells_signedDigits i.toInt
    refine ⟨Decimal.integerText i.toInt, rfl, convert_text_eq_ok_iff.2 ⟨i, rfl, ?_⟩⟩
    -- the blanks are trimmed off, and there are none among the digits
    have htrim : (Text.trim (before ++ Decimal.integerText i.toInt ++ after)).toList =
        Numeral.signedDigits i.toInt := by
      simp only [Text.trim, String.toList_append, String.toList_ofList, Decimal.integerText]
      rw [Text.trimChars_append hbefore hafter, Text.trimChars_of_noBlank hspells.noBlank]
    rwa [htrim]

/-- The least integer comes back from its text between a tabulator and an ideographic space.
Its magnitude alone spells an integer too, after a plus sign and zeros as well, but one that
64 bits do not hold. -/
theorem standard_integer_texts_least :
    let convert := ConversionRegistry.standard.convert
    let spelled := "+009223372036854775808"
    Text.AllBlank "\t".toList ∧ Text.AllBlank "\u3000".toList ∧
      (∃ t, convert .integer .string (.int Int64.minValue) = .ok (.str t) ∧
        convert .string .integer (.str ("\t" ++ t ++ "\u3000")) = .ok (.int Int64.minValue)) ∧
      Spells (Text.trim spelled).toList (2 ^ 63) ∧
      ∀ w, convert .string .integer (.str spelled) ≠ .ok w := by
  intro convert spelled
  obtain ⟨hreads, hback⟩ := standard_integer_texts
  have htab : Text.AllBlank "\t".toList := by
    intro c hc
    obtain rfl : c = '\t' := by simpa using hc
    decide
  have hspace : Text.AllBlank "\u3000".toList := by
    intro c hc
    obtain rfl : c = '\u3000' := by simpa using hc
    decide
  have hspells : Spells (Text.trim spelled).toList (2 ^ 63) := by
    have hchars : (Text.trim spelled).toList = '+' :: "009223372036854775808".toList := by
      decide
    have hdigits : "009223372036854775808".toList.all Char.isDigit = true := by decide
    rw [hchars, Decimal.spells_plus_iff]
    exact ⟨⟨by decide, List.all_eq_true.1 hdigits⟩, by decide⟩
  have hleast := hback Int64.minValue "\t" "\u3000" htab hspace
  refine ⟨htab, hspace, hleast, hspells, ?_⟩
  intro w hw
  obtain ⟨n, hn, -, hhigh, -⟩ := (hreads spelled w).1 hw
  rw [hn.unique hspells] at hhigh
  exact absurd hhigh (by decide)

end FabricFootprint
