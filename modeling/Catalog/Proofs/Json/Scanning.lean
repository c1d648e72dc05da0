import Catalog.Json.Printer
import Catalog.Json.Scanner

/-!
Scanning what has been printed. A string comes out of its escapes, and a whole number out of its
digits wherever none of the signs that go on with a number follow.
-/
namespace Catalog.Json

/-! Strings. -/

theorem hexValue?_hexDigit : ∀ n < 16, hexValue? (hexDigit n) = some n := by
  decide

/-- A control character is escaped with the four digits of its code. -/
theorem codeUnit?_hexDigit {n : Nat} (hn : n < 32) :
    codeUnit? '0' '0' (hexDigit (n / 16)) (hexDigit (n % 16)) = some n := by
  have hzero : hexValue? '0' = some 0 := by decide
  have hhigh := hexValue?_hexDigit (n / 16) (by omega)
  have hlow := hexValue?_hexDigit (n % 16) (by omega)
  simp only [codeUnit?, hzero, hhigh, hlow, Option.bind_eq_bind, Option.bind_some, Option.pure_def,
    Option.some.injEq]
  omega

section Steps

variable (s : List Char)

theorem scanString_quote : scanString 0 ('"' :: s) = ⟨.ok [], .ok s⟩ := by
  rw [scanString.eq_def]
  rfl

theorem scanString_short {e c : Char} (he : e ≠ 'u') (hc : shortEscapes.lookup e = some c) :
    scanString 0 ('\\' :: e :: s) = (scanString 0 s).map (c :: ·) := by
  rw [scanString.eq_def]
  simp [he, hc]

theorem scanString_unit {a b c d : Char} {n : Nat} (hn : codeUnit? a b c d = some n)
    (hlt : n < 0xD800) :
    scanString 0 ('\\' :: 'u' :: a :: b :: c :: d :: s)
      = (scanString 0 s).map (Char.ofNat n :: ·) := by
  have hhigh : ¬ isHighSurrogate n = true := by
    simp only [isHighSurrogate, Bool.and_eq_true, decide_eq_true_eq]
    omega
  have hlow : ¬ isLowSurrogate n = true := by
    simp only [isLowSurrogate, Bool.and_eq_true, decide_eq_true_eq]
    omega
  rw [scanString.eq_def]
  simp [hn, hhigh, hlow]

theorem scanString_plain {c : Char} (hquote : c ≠ '"') (hslash : c ≠ '\\')
    (hcontrol : ¬ c.toNat < 32) :
    scanString 0 (c :: s) = (scanString 0 s).map (c :: ·) := by
  rw [scanString.eq_def]
  simp only [if_neg hquote, if_neg hslash, if_neg hcontrol]

/-- A character is scanned from its escape. -/
theorem scanString_escape (c : Char) :
    scanString 0 (escape c ++ s) = (scanString 0 s).map (c :: ·) := by
  unfold escape
  split
  · subst_vars
    exact scanString_short s (by decide) rfl
  split
  · subst_vars
    exact scanString_short s (by decide) rfl
  split
  · subst_vars
    exact scanString_short s (by decide) rfl
  split
  · subst_vars
    exact scanString_short s (by decide) rfl
  split
  · subst_vars
    exact scanString_short s (by decide) rfl
  split
  · subst_vars
    exact scanString_short s (by decide) rfl
  split
  · subst_vars
    exact scanString_short s (by decide) rfl
  split
  · rename_i hcontrol
    have hscan := scanString_unit s (codeUnit?_hexDigit hcontrol) (by omega)
    rw [Char.ofNat_toNat] at hscan
    exact hscan
  · rename_i hquote hslash _ _ _ _ _ hcontrol
    exact scanString_plain s hquote hslash hcontrol

/-- A string is scanned from its quotation. -/
theorem scanString_flatMap_escape (cs : List Char) :
    scanString 0 (cs.flatMap escape ++ '"' :: s) = ⟨.ok cs, .ok s⟩ := by
  induction cs with
  | nil => exact scanString_quote s
  | cons c cs ih =>
    rw [List.flatMap_cons, List.append_assoc, scanString_escape, ih]
    rfl

end Steps

/-! Numbers. -/

/-- Nothing here goes on with a number. -/
def Halts (s : List Char) : Prop :=
  ∀ c ∈ s.head?, c.isDigit = false ∧ c ≠ '.' ∧ c ≠ 'e' ∧ c ≠ 'E'

theorem halts_nil : Halts [] :=
  fun _ hc => nomatch hc

theorem halts_cons {c : Char} {s : List Char}
    (h : c.isDigit = false ∧ c ≠ '.' ∧ c ≠ 'e' ∧ c ≠ 'E') : Halts (c :: s) := by
  intro c' hc'
  cases hc'
  exact h

theorem isDigit_toDigits {n : Nat} : ∀ c ∈ Nat.toDigits 10 n, c.isDigit = true :=
  fun _ hc => Nat.isDigit_of_mem_toDigits (by decide) (by decide) hc

theorem Numeral.natOf_toDigits (n : Nat) : natOf (Nat.toDigits 10 n) = n := by
  have hread : Nat.ofDigitChars 10 (Nat.toDigits 10 n) 0 = n :=
    Nat.ofDigitChars_toDigits (by decide) (by decide)
  rwa [Nat.ofDigitChars_eq_foldl] at hread

/-- The digits of a number begin with a zero only where it is zero. -/
theorem head?_toDigits {n : Nat} (h : (Nat.toDigits 10 n).head? = some '0') : n = 0 := by
  induction n using Nat.strongRecOn with
  | _ n ih =>
    rcases Nat.lt_or_ge n 10 with hlt | hge
    · rw [Nat.toDigits_of_lt_base hlt, List.head?_cons, Option.some.injEq] at h
      exact Nat.digitChar_eq_zero.mp h
    · rw [Nat.toDigits_of_base_le (by decide) hge] at h
      have hhead : (Nat.toDigits 10 (n / 10)).head? = some '0' := by
        cases hds : Nat.toDigits 10 (n / 10) with
        | nil => exact absurd hds Nat.toDigits_ne_nil
        | cons d ds =>
          rw [hds] at h
          exact h
      have hzero := ih (n / 10) (by omega) hhead
      omega

theorem toDigits_ne_zero_cons (n : Nat) (d : Char) (ds : List Char) :
    Nat.toDigits 10 n ≠ '0' :: d :: ds := by
  intro hzero
  have hn : n = 0 := head?_toDigits (by rw [hzero, List.head?_cons])
  rw [hn, Nat.toDigits_of_lt_base (by decide)] at hzero
  exact absurd (congrArg List.length hzero) (by simp)

section Numerals

variable {s : List Char}

theorem scanDigits_append {ds : List Char} (hds : ∀ c ∈ ds, c.isDigit = true) (hne : ds ≠ [])
    (hs : Halts s) : scanDigits (ds ++ s) = .ok (ds, s) := by
  have hstop : s.takeWhile Char.isDigit = [] ∧ s.dropWhile Char.isDigit = s := by
    cases s with
    | nil => exact ⟨rfl, rfl⟩
    | cons c s => simp [(hs c rfl).1]
  rw [scanDigits, List.takeWhile_append_of_pos hds, List.dropWhile_append_of_pos hds, hstop.1,
    hstop.2, List.append_nil]
  cases ds with
  | nil => exact absurd rfl hne
  | cons d ds => rfl

theorem scanWhole_toDigits (n : Nat) (hs : Halts s) :
    scanWhole (Nat.toDigits 10 n ++ s) = .ok (Nat.toDigits 10 n, s) := by
  rw [scanWhole, scanDigits_append isDigit_toDigits Nat.toDigits_ne_nil hs]
  dsimp only [bind, Except.bind]
  split
  · rename_i hzero
    exact absurd hzero (toDigits_ne_zero_cons n _ _)
  · rfl

theorem scanFraction_of_halts (hs : Halts s) : scanFraction s = .ok (none, s) := by
  unfold scanFraction
  split
  · exact absurd rfl (hs '.' rfl).2.1
  · rfl

theorem scanExponent_of_halts (hs : Halts s) : scanExponent s = .ok (none, s) := by
  cases s with
  | nil => rfl
  | cons c s =>
    obtain ⟨-, -, he, hE⟩ := hs c rfl
    rw [scanExponent.eq_def]
    exact if_neg (not_or.mpr ⟨he, hE⟩)

/-- A whole number as it is scanned. -/
def Numeral.ofDigits (negative : Bool) (n : Nat) : Numeral where
  negative
  whole := Nat.toDigits 10 n
  fraction := []
  exponent := none
  isWhole := true

/-- Without a sign a number begins with a digit. -/
theorem exists_toDigits_cons (n : Nat) : ∃ d ds, Nat.toDigits 10 n = d :: ds ∧ d.isDigit = true := by
  cases hds : Nat.toDigits 10 n with
  | nil => exact absurd hds Nat.toDigits_ne_nil
  | cons d ds => exact ⟨d, ds, rfl, isDigit_toDigits d (hds ▸ List.mem_cons_self)⟩

/-- What is scanned of a number after its sign. -/
def scanMagnitude (negative : Bool) (s : List Char) : Except Flaw (Numeral × List Char) := do
  let (whole, s) ← scanWhole s
  let (fraction, s) ← scanFraction s
  let (exponent, s) ← scanExponent s
  let isWhole := fraction.isNone && exponent.isNone
  pure ({ negative, whole, fraction := fraction.getD [], exponent, isWhole }, s)

theorem scanNumeral_minus (s : List Char) : scanNumeral ('-' :: s) = scanMagnitude true s :=
  rfl

theorem scanNumeral_cons {c : Char} (hc : c ≠ '-') (s : List Char) :
    scanNumeral (c :: s) = scanMagnitude false (c :: s) := by
  unfold scanNumeral
  split
  rename_i hsign
  split at hsign
  · rename_i hminus
    exact absurd (List.cons.inj hminus).1 hc
  · cases hsign
    rfl

theorem scanMagnitude_toDigits (negative : Bool) (n : Nat) (hs : Halts s) :
    scanMagnitude negative (Nat.toDigits 10 n ++ s) = .ok (.ofDigits negative n, s) := by
  simp only [scanMagnitude, scanWhole_toDigits n hs, scanFraction_of_halts hs,
    scanExponent_of_halts hs, bind, Except.bind]
  rfl

theorem scanNumeral_toDigits (n : Nat) (hs : Halts s) :
    scanNumeral (Nat.toDigits 10 n ++ s) = .ok (.ofDigits false n, s) := by
  obtain ⟨d, ds, hds, hdigit⟩ := exists_toDigits_cons n
  have hsign : d ≠ '-' := by
    rintro rfl
    cases hdigit
  rw [← scanMagnitude_toDigits false n hs, hds]
  exact scanNumeral_cons hsign (ds ++ s)

/-- A whole number is scanned from its digits and its sign. -/
theorem scanNumeral_intText (i : Int) (hs : Halts s) :
    scanNumeral (Number.intText i ++ s) = .ok (.ofDigits (i < 0) i.natAbs, s) := by
  unfold Number.intText
  split
  · rename_i hneg
    rw [decide_eq_true hneg]
    exact (scanNumeral_minus _).trans (scanMagnitude_toDigits true i.natAbs hs)
  · rename_i hnonneg
    rw [decide_eq_false hnonneg]
    exact scanNumeral_toDigits i.natAbs hs

/-- Whole numbers that 64 bits hold come out exact. -/
theorem Numeral.value?_ofDigits {i : Int} (hlow : Int64.minValue.toInt ≤ i) (hhigh : i < UInt64.size) :
    (ofDigits (i < 0) i.natAbs).value? = some (.int i) := by
  have hmin : Int64.minValue.toInt = -9223372036854775808 := rfl
  have hsize : UInt64.size = 18446744073709551616 := rfl
  simp only [value?, ofDigits, natOf_toDigits, hsize, true_and, decide_eq_false_iff_not,
    decide_eq_true_eq]
  by_cases hneg : i < 0
  · rw [if_neg (by omega), if_pos (by omega)]
    congr 2
    omega
  · rw [if_pos (by omega)]
    congr 2
    omega

end Numerals

/-! Keys. -/

/-- A key that has been printed: it is the string, and the number if the string spells one out. -/
structure Key.Spells (key : Key) (k : String) : Prop where
  text : key.text = .ok k
  numeral : ∀ n : Nat, k = toString n →
    key.numeral = .ok (.ofDigits false n) ∧ key.isNumeral = true

/-- Digits stand for themselves. -/
theorem escape_of_isDigit {c : Char} (hc : c.isDigit = true) : escape c = [c] := by
  have hcode : 48 ≤ c.toNat := by
    simp only [Char.isDigit, Bool.and_eq_true, decide_eq_true_eq] at hc
    exact hc.1
  unfold escape
  rw [if_neg, if_neg, if_neg, if_neg, if_neg, if_neg, if_neg, if_neg]
  · omega
  all_goals
    rintro rfl
    revert hc
    decide

theorem flatMap_escape_toDigits (n : Nat) :
    (Nat.toDigits 10 n).flatMap escape = Nat.toDigits 10 n := by
  rw [List.flatMap_def, List.map_congr_left fun c hc => escape_of_isDigit (isDigit_toDigits c hc),
    ← List.flatMap_def, List.flatMap_singleton']

theorem scanKey_numeral {c : Char} {s t : List Char} {n : Numeral} (hc : startsNumeral c = true)
    (h : scanNumeral (c :: s) = .ok (n, '"' :: t)) :
    (scanKey (c :: s)).1.numeral = .ok n ∧ (scanKey (c :: s)).1.isNumeral = true := by
  simp only [scanKey, if_pos hc, h]
  exact ⟨rfl, trivial⟩

theorem scanKey_quote (k : String) (s : List Char) :
    ∃ key, scanKey (k.toList.flatMap escape ++ '"' :: s) = (key, .ok s) ∧ key.Spells k := by
  have hstring := scanString_flatMap_escape s k.toList
  refine ⟨(scanKey (k.toList.flatMap escape ++ '"' :: s)).1, ?_, ?_, ?_⟩
  · have hrest : (scanKey (k.toList.flatMap escape ++ '"' :: s)).2 = .ok s :=
      congrArg Scan.rest hstring
    exact Prod.ext rfl hrest
  · have hvalue : (scanString 0 (k.toList.flatMap escape ++ '"' :: s)).value = .ok k.toList :=
      congrArg Scan.value hstring
    change Except.map String.ofList (scanString 0 _).value = _
    rw [hvalue]
    exact congrArg Except.ok String.ofList_toList
  · rintro n rfl
    rw [Nat.toString_eq_ofList_toDigits, String.toList_ofList, flatMap_escape_toDigits]
    have hscan : scanNumeral (Nat.toDigits 10 n ++ '"' :: s) = .ok (.ofDigits false n, '"' :: s) :=
      scanNumeral_toDigits n (halts_cons (by decide))
    obtain ⟨d, ds, hds, hdigit⟩ := exists_toDigits_cons n
    rw [hds] at hscan ⊢
    apply scanKey_numeral _ hscan
    rw [startsNumeral, hdigit, Bool.or_true]

end Catalog.Json
