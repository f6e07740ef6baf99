import OviproApi.Ecma.JsonRoundTrip
import OviproApi.Ecma.Text

/-! JSON texts, one a line: the texts contain no line break, so that the lines of
a stream are read back one by one, whatever the values are. -/

namespace Ecma.Json

/-- No control characters, and hence no line breaks. -/
def Printable (cs : List Char) : Prop := ∀ c ∈ cs, 32 ≤ c.toNat

theorem printable_nil : Printable [] := fun _ hc => absurd hc List.not_mem_nil

@[simp] theorem printable_cons {c : Char} {cs : List Char} :
    Printable (c :: cs) ↔ 32 ≤ c.toNat ∧ Printable cs :=
  List.forall_mem_cons

@[simp] theorem printable_append {cs ds : List Char} :
    Printable (cs ++ ds) ↔ Printable cs ∧ Printable ds :=
  List.forall_mem_append

theorem Printable.no_newline {cs : List Char} (h : Printable cs) : '\n' ∉ cs := by
  intro hmem
  exact absurd (h '\n' hmem) (by decide)

theorem printable_hexDigit : ∀ n < 16, 32 ≤ (hexDigit n).toNat := by decide

theorem printable_quoteChar (c : Char) : Printable (quoteChar c) := by
  have hescape : ∀ d : Char, 32 ≤ d.toNat → Printable ['\\', d] := by
    intro d hd
    rw [printable_cons, printable_cons]
    exact ⟨by decide, hd, printable_nil⟩
  unfold quoteChar
  split_ifs with h1 h2 h3 h4 h5 h6 h7 hcontrol
  · exact hescape '"' (by decide)
  · exact hescape '\\' (by decide)
  · exact hescape 'b' (by decide)
  · exact hescape 't' (by decide)
  · exact hescape 'n' (by decide)
  · exact hescape 'f' (by decide)
  · exact hescape 'r' (by decide)
  · have hhigh := printable_hexDigit (c.toNat / 16) (by omega)
    have hlow := printable_hexDigit (c.toNat % 16) (by omega)
    simp only [printable_cons, hhigh, hlow, printable_nil, and_true]
    decide
  · rw [printable_cons]
    exact ⟨Nat.le_of_not_lt hcontrol, printable_nil⟩

theorem printable_quote (s : String) : Printable (quote s) := by
  unfold quote
  rw [printable_append, printable_cons]
  refine ⟨⟨by decide, ?_⟩, ?_⟩
  · intro c hc
    obtain ⟨d, -, hd⟩ := List.mem_flatMap.mp hc
    exact printable_quoteChar d c hd
  · rw [printable_cons]
    exact ⟨by decide, printable_nil⟩

theorem printable_of_digits {cs : List Char} (h : ∀ c ∈ cs, c.isDigit = true) : Printable cs := by
  intro c hc
  have hdigit := h c hc
  simp only [Char.isDigit, Bool.and_eq_true, decide_eq_true_eq] at hdigit
  have hge : 48 ≤ c.toNat := hdigit.1
  omega

theorem printable_positiveText (digits : Nat) (exponent : Int) :
    Printable (Number.positiveText digits exponent) := by
  have hdigits : ∀ n, Printable (Number.digitsText n) := fun n =>
    printable_of_digits (isDigit_toDigits n)
  have hzeros : ∀ n, Printable (List.replicate n '0') := fun n =>
    printable_of_digits fun c hc => by rw [List.eq_of_mem_replicate hc]; rfl
  have hmantissa : ∀ text, Printable text → Printable (mantissaText text) := by
    intro text htext
    unfold mantissaText
    split
    · exact htext
    · exact htext
    · rw [printable_cons] at htext ⊢
      rw [printable_cons]
      exact ⟨htext.1, by decide, htext.2⟩
  unfold Number.positiveText
  dsimp only
  split_ifs
  · rw [printable_append]
    exact ⟨hdigits digits, hzeros _⟩
  · rw [printable_append, printable_cons]
    exact ⟨fun c hc => hdigits digits c (List.mem_of_mem_take hc), by decide,
      fun c hc => hdigits digits c (List.mem_of_mem_drop hc)⟩
  · simp only [printable_append, printable_cons]
    exact ⟨⟨by decide, by decide, hzeros _⟩, hdigits digits⟩
  · simp only [printable_append, printable_cons]
    exact ⟨hmantissa _ (hdigits digits), by decide, by decide, hdigits _⟩
  · simp only [printable_append, printable_cons]
    exact ⟨hmantissa _ (hdigits digits), by decide, by decide, hdigits _⟩

theorem printable_numberText (x : Number) : Printable (numberText x) := by
  cases x with
  | infinite negative =>
    unfold numberText
    simp only [printable_cons, printable_nil, and_true]
    decide
  | decimal digits exponent =>
    unfold numberText Number.text
    dsimp only
    split_ifs
    · rw [printable_cons]
      exact ⟨by decide, printable_nil⟩
    · rw [printable_cons]
      exact ⟨by decide, printable_positiveText _ _⟩
    · exact printable_positiveText _ _

theorem printable_intercalate {texts : List (List Char)} (h : ∀ text ∈ texts, Printable text) :
    Printable ([','].intercalate texts) := by
  intro c hc
  rcases Ecma.mem_of_mem_intercalate hc with rfl | ⟨text, htext, hc⟩
  · decide
  · exact h text htext c hc

theorem printable_null : Printable ['n', 'u', 'l', 'l'] := by
  simp only [printable_cons, printable_nil, and_true]
  decide

mutual

/-- The text of a value contains no control character. -/
theorem printable_serialize (v : Value) {text : List Char} (h : serialize v = some text) :
    Printable text := by
  cases v with
  | undefined => cases h
  | null =>
    cases h
    exact printable_null
  | bool b =>
    cases b <;> cases h <;> simp only [printable_cons, printable_nil, and_true] <;> decide
  | num x =>
    cases h
    exact printable_numberText x
  | str s =>
    cases h
    exact printable_quote s
  | arr xs =>
    cases h
    have helements := printable_intercalate (printable_elementTexts xs)
    simp only [printable_cons, printable_append, printable_nil, and_true]
    exact ⟨⟨by decide, helements⟩, by decide⟩
  | obj ms =>
    cases h
    have hmembers := printable_intercalate (printable_memberTexts ms)
    simp only [printable_cons, printable_append, printable_nil, and_true]
    exact ⟨⟨by decide, hmembers⟩, by decide⟩

theorem printable_elementTexts (xs : List Value) : ∀ text ∈ elementTexts xs, Printable text := by
  match xs with
  | [] => exact fun _ htext => absurd htext List.not_mem_nil
  | x :: xs =>
    have htail := printable_elementTexts xs
    have hhead : Printable ((serialize x).getD ['n', 'u', 'l', 'l']) := by
      cases hx : serialize x with
      | none => exact printable_null
      | some text => exact printable_serialize x hx
    rw [elementTexts, List.forall_mem_cons]
    exact ⟨hhead, htail⟩

theorem printable_memberTexts (ms : List (String × Value)) :
    ∀ text ∈ memberTexts ms, Printable text := by
  match ms with
  | [] => exact fun _ htext => absurd htext List.not_mem_nil
  | (key, v) :: ms =>
    have htail := printable_memberTexts ms
    rw [memberTexts]
    cases hv : serialize v with
    | none => exact htail
    | some text =>
      have hvalue := printable_serialize v hv
      rw [List.forall_mem_cons, printable_append, printable_cons]
      exact ⟨⟨printable_quote key, by decide, hvalue⟩, htail⟩

end

/-! Lines. -/

/-- A stream to which texts are written line by line. -/
def lines (texts : List (List Char)) : List Char := texts.flatMap fun text => text ++ ['\n']

def readLines (stream : List Char) : List (List Char) := (stream.splitOn '\n').dropLast

theorem readLines_lines {texts : List (List Char)} (h : ∀ text ∈ texts, '\n' ∉ text) :
    readLines (lines texts) = texts := by
  unfold readLines
  have hsplit : (lines texts).splitOn '\n' = texts ++ [[]] := by
    induction texts with
    | nil => rfl
    | cons text texts ih =>
      obtain ⟨htext, htexts⟩ := List.forall_mem_cons.mp h
      have hstream : lines (text :: texts) = text ++ '\n' :: lines texts := by
        unfold lines
        rw [List.flatMap_cons, List.append_assoc, List.singleton_append]
      rw [hstream, List.splitOn_append_cons_self_of_not_mem htext, ih htexts, List.cons_append]
  rw [hsplit, List.dropLast_concat]

end Ecma.Json
