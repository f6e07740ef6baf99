import OviproApi.Ecma.Double
import OviproApi.Ecma.Json

/-! The text of a finite number parses to the number. -/

namespace Ecma.Json

/-- Nothing here continues a number. -/
def Terminated (rest : List Char) : Prop :=
  ∀ c ∈ rest.head?, c.isDigit = false ∧ c ≠ '.' ∧ c ≠ 'e' ∧ c ≠ 'E'

theorem span_digits {ds rest : List Char} (hds : ∀ c ∈ ds, c.isDigit = true)
    (hrest : ∀ c ∈ rest.head?, c.isDigit = false) :
    (ds ++ rest).span Char.isDigit = (ds, rest) := by
  rw [List.span_eq_takeWhile_dropWhile, List.takeWhile_append_of_pos hds,
    List.dropWhile_append_of_pos hds]
  cases rest with
  | nil => simp
  | cons c rest =>
    have hc : c.isDigit = false := hrest c rfl
    simp [hc]

theorem digitsValue_eq (ds : List Char) : digitsValue ds = Nat.ofDigitChars 10 ds 0 := by
  have hstep : (fun (n : Nat) (c : Char) => n * 10 + (c.toNat - 48)) =
      fun n c => 10 * n + (c.toNat - '0'.toNat) := by
    funext n c
    rw [Nat.mul_comm]
    rfl
  rw [Nat.ofDigitChars_eq_foldl, digitsValue, hstep]

theorem digitsValue_zeros_append (n : Nat) (ds : List Char) :
    digitsValue (List.replicate n '0' ++ ds) = digitsValue ds := by
  rw [digitsValue_eq, digitsValue_eq, Nat.ofDigitChars_append, Nat.ofDigitChars_replicate_zero,
    Nat.mul_zero]

theorem digitsValue_append_zeros (ds : List Char) (n : Nat) :
    digitsValue (ds ++ List.replicate n '0') = digitsValue ds * 10 ^ n := by
  rw [digitsValue_eq, digitsValue_eq, Nat.ofDigitChars_append, Nat.ofDigitChars_replicate_zero,
    Nat.mul_comm]

theorem digitsValue_toDigits (n : Nat) : digitsValue (Nat.toDigits 10 n) = n := by
  rw [digitsValue_eq, Nat.ofDigitChars_ten_toDigits]

theorem isDigit_toDigits (n : Nat) : ∀ c ∈ Nat.toDigits 10 n, c.isDigit = true :=
  fun _ hc => Nat.isDigit_of_mem_toDigits (by decide) (by decide) hc

/-- A positive number has no leading zero. -/
theorem toDigits_head {n : Nat} (h : 0 < n) :
    ∃ c ds, Nat.toDigits 10 n = c :: ds ∧ c ≠ '0' := by
  induction n using Nat.strong_induction_on with
  | _ n ih =>
    rcases Nat.lt_or_ge n 10 with hlt | hge
    · have hne : ∀ m < 10, 0 < m → m.digitChar ≠ '0' := by decide
      exact ⟨n.digitChar, [], Nat.toDigits_of_lt_base hlt, hne n hlt h⟩
    · obtain ⟨c, ds, hhead, hc⟩ := ih (n / 10) (by omega) (by omega)
      rw [Nat.toDigits_of_base_le (by decide) hge, hhead]
      exact ⟨c, _, rfl, hc⟩

theorem parseIntegerPart_zero (rest : List Char) :
    parseIntegerPart ('0' :: rest) = some (['0'], rest) := rfl

theorem parseIntegerPart_digits {c : Char} {ds rest : List Char} (hc : c ≠ '0')
    (hds : ∀ d ∈ c :: ds, d.isDigit = true) (hrest : ∀ d ∈ rest.head?, d.isDigit = false) :
    parseIntegerPart (c :: ds ++ rest) = some (c :: ds, rest) := by
  unfold parseIntegerPart
  split
  · rename_i hhead
    exact absurd (List.cons.inj hhead).1 hc
  · rw [span_digits hds hrest]

theorem parseFraction_digits {c : Char} {ds rest : List Char}
    (hds : ∀ d ∈ c :: ds, d.isDigit = true) (hrest : ∀ d ∈ rest.head?, d.isDigit = false) :
    parseFraction ('.' :: (c :: ds ++ rest)) = some (c :: ds, rest) := by
  simp only [parseFraction, span_digits hds hrest]

theorem parseFraction_none {cs : List Char} (h : ∀ c ∈ cs.head?, c ≠ '.') :
    parseFraction cs = some ([], cs) := by
  unfold parseFraction
  split
  · exact absurd rfl (h '.' rfl)
  · rfl

theorem parseExponent_none {cs : List Char} (h : ∀ c ∈ cs.head?, c ≠ 'e' ∧ c ≠ 'E') :
    parseExponent cs = some (0, cs) := by
  unfold parseExponent
  split
  · exact absurd rfl (h 'e' rfl).1
  · exact absurd rfl (h 'E' rfl).2
  · exact absurd rfl (h 'e' rfl).1
  · exact absurd rfl (h 'E' rfl).2
  · exact absurd rfl (h 'e' rfl).1
  · exact absurd rfl (h 'E' rfl).2
  · rfl

theorem parseExponentDigits_toDigits (negative : Bool) (n : Nat) {rest : List Char}
    (hrest : ∀ c ∈ rest.head?, c.isDigit = false) :
    parseExponentDigits negative (Nat.toDigits 10 n ++ rest) =
      some (if negative then -(n : Int) else n, rest) := by
  have hvalue := digitsValue_toDigits n
  unfold parseExponentDigits
  rw [span_digits (isDigit_toDigits n) hrest]
  split
  · rename_i hnil
    exact absurd (Prod.mk.inj hnil).1 Nat.toDigits_ne_nil
  · rename_i hsome
    obtain ⟨rfl, rfl⟩ := Prod.mk.inj hsome
    rw [hvalue]

theorem Terminated.digit {rest : List Char} (h : Terminated rest) :
    ∀ c ∈ rest.head?, c.isDigit = false := fun c hc => (h c hc).1

/-- A decimal without an exponent. -/
theorem parseUnsigned_plain {negative : Bool} {integer fractionText fraction rest : List Char}
    {cs : List Char} (hinteger : parseIntegerPart cs = some (integer, fractionText))
    (hfraction : parseFraction fractionText = some (fraction, rest)) (hrest : Terminated rest) :
    parseUnsigned negative cs =
      some (.ofDecimal negative (digitsValue (integer ++ fraction)) (-fraction.length), rest) := by
  have hexponent : parseExponent rest = some (0, rest) :=
    parseExponent_none fun c hc => (hrest c hc).2.2
  unfold parseUnsigned
  simp only [hinteger, hfraction, hexponent, bind, Option.bind, zero_sub]
  rfl

theorem parseUnsigned_scientific {negative : Bool} {integer fractionText fraction cs : List Char}
    {exponent : Int} (hinteger : parseIntegerPart cs = some (integer, fractionText))
    {rest : List Char} (hfraction : parseFraction fractionText = some (fraction,
      'e' :: (if 0 < exponent then '+' else '-') :: Nat.toDigits 10 exponent.natAbs ++ rest))
    (hrest : Terminated rest) :
    parseUnsigned negative cs =
      some (.ofDecimal negative (digitsValue (integer ++ fraction)) (exponent - fraction.length),
        rest) := by
  have hexponent : parseExponent
      ('e' :: (if 0 < exponent then '+' else '-') :: Nat.toDigits 10 exponent.natAbs ++ rest) =
      some (exponent, rest) := by
    by_cases hpositive : 0 < exponent
    · have hdigits := parseExponentDigits_toDigits false exponent.natAbs hrest.digit
      have hvalue : ((exponent.natAbs : Nat) : Int) = exponent := by omega
      rw [if_pos hpositive]
      exact hdigits.trans (by rw [hvalue]; rfl)
    · have hdigits := parseExponentDigits_toDigits true exponent.natAbs hrest.digit
      have hvalue : -((exponent.natAbs : Nat) : Int) = exponent := by omega
      rw [if_neg hpositive]
      exact hdigits.trans (by rw [if_pos rfl, hvalue])
  unfold parseUnsigned
  simp only [hinteger, hfraction, hexponent, bind, Option.bind]
  rfl

/-- The text reads as a decimal of the same value. -/
def ReadsBack (text : List Char) (digits : Nat) (exponent : Int) : Prop :=
  ∀ (negative : Bool) (rest : List Char), Terminated rest →
    ∃ (digits' : Nat) (exponent' : Int),
      parseUnsigned negative (text ++ rest) = some (.ofDecimal negative digits' exponent', rest) ∧
        0 < digits' ∧ (digits' * 10 ^ exponent' : ℚ) = digits * 10 ^ exponent

theorem readsBack_integer {digits zeros : Nat} (h : 0 < digits) :
    ReadsBack (Nat.toDigits 10 digits ++ List.replicate zeros '0') digits zeros := by
  intro negative rest hrest
  obtain ⟨c, ds, hdigits, hc⟩ := toDigits_head h
  have hall : ∀ d ∈ c :: (ds ++ List.replicate zeros '0'), d.isDigit = true := by
    intro d hd
    rw [← List.cons_append, ← hdigits, List.mem_append] at hd
    rcases hd with hd | hd
    · exact isDigit_toDigits digits d hd
    · rw [List.eq_of_mem_replicate hd]
      decide
  have hinteger := parseIntegerPart_digits hc hall hrest.digit
  have hfraction : parseFraction rest = some ([], rest) :=
    parseFraction_none fun d hd => (hrest d hd).2.1
  have hvalue : digitsValue (c :: (ds ++ List.replicate zeros '0') ++ []) = digits * 10 ^ zeros := by
    rw [List.append_nil, ← List.cons_append, ← hdigits, digitsValue_append_zeros,
      digitsValue_toDigits]
  rw [hdigits, List.cons_append]
  refine ⟨_, _, parseUnsigned_plain hinteger hfraction hrest, ?_, ?_⟩
  · rw [hvalue]
    positivity
  · rw [hvalue]
    push_cast
    simp

theorem readsBack_fraction {digits : Nat} (h : 0 < digits) {n : Nat} (hn : 0 < n)
    (hlt : n < (Nat.toDigits 10 digits).length) :
    ReadsBack ((Nat.toDigits 10 digits).take n ++ '.' :: (Nat.toDigits 10 digits).drop n) digits
      (n - (Nat.toDigits 10 digits).length) := by
  intro negative rest hrest
  obtain ⟨c, ds, hdigits, hc⟩ := toDigits_head h
  have hall := isDigit_toDigits digits
  obtain ⟨m, rfl⟩ := Nat.exists_eq_succ_of_ne_zero hn.ne'
  have hdrop : (Nat.toDigits 10 digits).drop m.succ ≠ [] := by
    rw [Ne, List.drop_eq_nil_iff]
    omega
  obtain ⟨d, fraction, hfraction⟩ := List.exists_cons_of_ne_nil hdrop
  have htake : (Nat.toDigits 10 digits).take m.succ = c :: ds.take m := by
    rw [hdigits, List.take_succ_cons]
  have hinteger : parseIntegerPart (c :: ds.take m ++ '.' :: (d :: fraction ++ rest)) =
      some (c :: ds.take m, '.' :: (d :: fraction ++ rest)) := by
    refine parseIntegerPart_digits hc ?_ (by simp)
    intro a ha
    rw [← htake] at ha
    exact hall a (List.mem_of_mem_take ha)
  have hpoint : parseFraction ('.' :: (d :: fraction ++ rest)) = some (d :: fraction, rest) := by
    refine parseFraction_digits ?_ hrest.digit
    intro a ha
    rw [← hfraction] at ha
    exact hall a (List.mem_of_mem_drop ha)
  have hvalue : digitsValue (c :: ds.take m ++ d :: fraction) = digits := by
    rw [← htake, ← hfraction, List.take_append_drop, digitsValue_toDigits]
  have hlength : (d :: fraction).length = (Nat.toDigits 10 digits).length - m.succ := by
    rw [← hfraction, List.length_drop]
  rw [htake, hfraction, List.append_assoc, List.cons_append]
  refine ⟨_, _, parseUnsigned_plain hinteger hpoint hrest, ?_, ?_⟩
  · rwa [hvalue]
  · rw [hvalue, hlength]
    congr 2
    push_cast [hlt.le]
    ring

theorem readsBack_small {digits : Nat} (h : 0 < digits) (zeros : Nat) :
    ReadsBack ('0' :: '.' :: List.replicate zeros '0' ++ Nat.toDigits 10 digits) digits
      (-zeros - (Nat.toDigits 10 digits).length) := by
  intro negative rest hrest
  have hall : ∀ d ∈ List.replicate zeros '0' ++ Nat.toDigits 10 digits, d.isDigit = true := by
    intro d hd
    rcases List.mem_append.mp hd with hd | hd
    · rw [List.eq_of_mem_replicate hd]
      decide
    · exact isDigit_toDigits digits d hd
  have hne : List.replicate zeros '0' ++ Nat.toDigits 10 digits ≠ [] := by
    simp [Nat.toDigits_ne_nil]
  obtain ⟨d, fraction, hfraction⟩ := List.exists_cons_of_ne_nil hne
  have hpoint : parseFraction ('.' :: (d :: fraction ++ rest)) = some (d :: fraction, rest) := by
    refine parseFraction_digits ?_ hrest.digit
    rw [← hfraction]
    exact hall
  have hvalue : digitsValue (['0'] ++ d :: fraction) = digits := by
    have hzero := digitsValue_zeros_append (zeros + 1) (Nat.toDigits 10 digits)
    rw [List.replicate_succ, List.cons_append, hfraction, digitsValue_toDigits] at hzero
    exact hzero
  have hlength : (d :: fraction).length = zeros + (Nat.toDigits 10 digits).length := by
    rw [← hfraction, List.length_append, List.length_replicate]
  have htext : '0' :: '.' :: List.replicate zeros '0' ++ Nat.toDigits 10 digits ++ rest =
      '0' :: '.' :: (d :: fraction ++ rest) := by
    rw [← hfraction]
    simp
  rw [htext]
  refine ⟨_, _, parseUnsigned_plain (parseIntegerPart_zero _) hpoint hrest, ?_, ?_⟩
  · rwa [hvalue]
  · rw [hvalue, hlength]
    congr 2
    push_cast
    ring

/-- The digits of a mantissa, with a point after the first one. -/
def mantissaText : List Char → List Char
  | [] => []
  | [d] => [d]
  | d :: ds => d :: '.' :: ds

theorem readsBack_scientific {digits : Nat} (h : 0 < digits) (exponent : Int) :
    ReadsBack (mantissaText (Nat.toDigits 10 digits) ++
      'e' :: (if 0 < exponent then '+' else '-') :: Nat.toDigits 10 exponent.natAbs) digits
      (exponent + 1 - (Nat.toDigits 10 digits).length) := by
  intro negative rest hrest
  obtain ⟨c, ds, hdigits, hc⟩ := toDigits_head h
  have hall := isDigit_toDigits digits
  have hvalue := digitsValue_toDigits digits
  rw [hdigits] at hall hvalue ⊢
  have hfirst : c.isDigit = true := hall c (List.mem_cons_self ..)
  have hsingle : ∀ d ∈ [c], d.isDigit = true := by
    intro d hd
    rwa [List.mem_singleton.mp hd]
  cases ds with
  | nil =>
    have hinteger : parseIntegerPart ([c] ++ 'e' :: (if 0 < exponent then '+' else '-') ::
        (Nat.toDigits 10 exponent.natAbs ++ rest)) = _ :=
      parseIntegerPart_digits hc hsingle (by simp)
    have hfraction : parseFraction ('e' :: (if 0 < exponent then '+' else '-') ::
        (Nat.toDigits 10 exponent.natAbs ++ rest)) = _ :=
      parseFraction_none (by simp)
    refine ⟨_, _, parseUnsigned_scientific hinteger hfraction hrest, ?_, ?_⟩
    · rwa [List.append_nil, hvalue]
    · rw [List.append_nil, hvalue]
      simp
  | cons d ds =>
    have hinteger : parseIntegerPart ([c] ++ '.' :: (d :: ds ++ 'e' ::
        (if 0 < exponent then '+' else '-') :: (Nat.toDigits 10 exponent.natAbs ++ rest))) = _ :=
      parseIntegerPart_digits hc hsingle (by simp)
    have hfraction : parseFraction ('.' :: (d :: ds ++ 'e' ::
        (if 0 < exponent then '+' else '-') :: (Nat.toDigits 10 exponent.natAbs ++ rest))) = _ :=
      parseFraction_digits (fun a ha => hall a (List.mem_cons_of_mem c ha)) (by simp)
    have hmantissa : mantissaText (c :: d :: ds) = [c] ++ '.' :: d :: ds := rfl
    rw [hmantissa, List.append_assoc, List.append_assoc]
    refine ⟨_, _, parseUnsigned_scientific hinteger hfraction hrest, ?_, ?_⟩
    · rwa [List.singleton_append, hvalue]
    · rw [List.singleton_append, hvalue]
      congr 2
      push_cast [List.length_cons]
      ring

theorem readsBack_positiveText {digits : Nat} (h : 0 < digits) (exponent : Int) :
    ReadsBack (Number.positiveText digits exponent) digits exponent := by
  have hpos : 0 < (Nat.toDigits 10 digits).length := Nat.length_toDigits_pos
  unfold Number.positiveText Number.digitsText
  dsimp only
  -- the four notations in turn: an integer, a fraction with digits before or only
  -- after the point, and the scientific one
  split
  · have hexponent : ((exponent.toNat : Nat) : Int) = exponent := by omega
    have hread := @readsBack_integer digits exponent.toNat h
    rwa [hexponent] at hread
  split
  · have hlt : ((Nat.toDigits 10 digits).length + exponent).toNat <
        (Nat.toDigits 10 digits).length := by omega
    have hread := readsBack_fraction h (by omega) hlt
    have hexponent : ((((Nat.toDigits 10 digits).length + exponent).toNat : Nat) : Int) -
        (Nat.toDigits 10 digits).length = exponent := by omega
    rwa [hexponent] at hread
  split
  · have hread := readsBack_small h (-((Nat.toDigits 10 digits).length + exponent)).toNat
    have hexponent : -(((-((Nat.toDigits 10 digits).length + exponent)).toNat : Nat) : Int) -
        (Nat.toDigits 10 digits).length = exponent := by omega
    rwa [hexponent] at hread
  have hread := readsBack_scientific h ((Nat.toDigits 10 digits).length + exponent - 1)
  have hexponent : ((Nat.toDigits 10 digits).length + exponent - 1 : Int) + 1 -
      (Nat.toDigits 10 digits).length = exponent := by omega
  have hsign : (0 : Int) < (Nat.toDigits 10 digits).length + exponent - 1 ↔
      (0 : Int) < (Nat.toDigits 10 digits).length + exponent := by omega
  simp only [hexponent, hsign] at hread
  exact hread

theorem positiveText_head {digits : Nat} (h : 0 < digits) (exponent : Int) :
    ∃ c cs, Number.positiveText digits exponent = c :: cs ∧ c.isDigit = true := by
  obtain ⟨c, ds, hdigits, -⟩ := toDigits_head h
  have hc : c.isDigit = true := isDigit_toDigits digits c (by simp [hdigits])
  unfold Number.positiveText Number.digitsText
  dsimp only
  rw [hdigits]
  split
  · exact ⟨c, _, rfl, hc⟩
  split
  · rename_i hpoint
    obtain ⟨n, hn⟩ := Nat.exists_eq_succ_of_ne_zero
      (show (((c :: ds).length : Int) + exponent).toNat ≠ 0 by omega)
    rw [hn]
    exact ⟨c, _, rfl, hc⟩
  split
  · exact ⟨'0', _, rfl, rfl⟩
  cases ds with
  | nil => exact ⟨c, _, rfl, hc⟩
  | cons d ds => exact ⟨c, _, rfl, hc⟩

theorem parseNumber_of_digit {c : Char} {cs : List Char} (h : c.isDigit = true) :
    parseNumber (c :: cs) = parseUnsigned false (c :: cs) := by
  unfold parseNumber
  split
  · rename_i hhead
    rw [(List.cons.inj hhead).1] at h
    exact absurd h (by decide)
  · rfl

theorem numberText_decimal {digits : Int} (h : digits ≠ 0) (exponent : Int) :
    numberText (.decimal digits exponent) =
      if digits < 0 then '-' :: Number.positiveText digits.natAbs exponent
      else Number.positiveText digits.natAbs exponent := by
  show (if digits = 0 then _ else _) = _
  rw [if_neg h]

/-- The text of a number starts like no other value. -/
theorem numberText_head {x : Number} (h : x.IsFinite) :
    ∃ c cs, numberText x = c :: cs ∧ (c.isDigit = true ∨ c = '-') := by
  rcases h.cases with rfl | ⟨digits, exponent, rfl, hne, -⟩
  · exact ⟨'0', [], rfl, Or.inl rfl⟩
  · have hpositive : 0 < digits.natAbs := Int.natAbs_pos.mpr hne
    obtain ⟨c, cs, htext, hc⟩ := positiveText_head hpositive exponent
    rw [numberText_decimal hne, htext]
    split
    · exact ⟨'-', _, rfl, Or.inr rfl⟩
    · exact ⟨c, cs, rfl, Or.inl hc⟩

theorem parseNumber_numberText {x : Number} (h : x.IsFinite) {rest : List Char}
    (hrest : Terminated rest) : parseNumber (numberText x ++ rest) = some (x, rest) := by
  rcases h.cases with rfl | ⟨digits, exponent, rfl, hne, hreads⟩
  · have hfraction : parseFraction rest = some ([], rest) :=
      parseFraction_none fun c hc => (hrest c hc).2.1
    exact parseUnsigned_plain (parseIntegerPart_zero rest) hfraction hrest
  · have hpositive : 0 < digits.natAbs := Int.natAbs_pos.mpr hne
    obtain ⟨c, cs, htext, hc⟩ := positiveText_head hpositive exponent
    obtain ⟨digits', exponent', hparse, hpos, hvalue⟩ :=
      readsBack_positiveText hpositive exponent (digits < 0) rest hrest
    rw [hreads digits' exponent' hpos hvalue] at hparse
    rw [numberText_decimal hne]
    by_cases hnegative : digits < 0
    · rw [if_pos hnegative]
      rwa [decide_eq_true hnegative] at hparse
    · rw [if_neg hnegative, htext, List.cons_append, parseNumber_of_digit hc]
      rwa [decide_eq_false hnegative, htext] at hparse

end Ecma.Json
