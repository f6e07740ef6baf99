import OviproApi.Ecma.JsonNumber

/-! `JSON.parse` after `JSON.stringify`: what is kept of a value comes back. -/

namespace Ecma.Json

/-! Strings. -/

theorem hexValue_hexDigit : ∀ n < 16, hexValue (hexDigit n) = some n := by decide

/-- A character that stands for itself in a string literal. -/
def Unescaped (c : Char) : Prop := c ≠ '"' ∧ c ≠ '\\' ∧ 32 ≤ c.toNat

instance (c : Char) : Decidable (Unescaped c) :=
  inferInstanceAs (Decidable (c ≠ '"' ∧ c ≠ '\\' ∧ 32 ≤ c.toNat))

theorem stringUnits_unescaped {c : Char} (h : Unescaped c) (rest : List Char) :
    stringUnits (c :: rest) =
      (stringUnits rest).map fun (units, rest) => (c.toNat :: units, rest) := by
  obtain ⟨hquote, hslash, hcontrol⟩ := h
  have hallowed : (decide (c.toNat < 32) || decide (c = '\\')) = false := by
    simp [Nat.not_lt.mpr hcontrol, hslash]
  rw [stringUnits.eq_def]
  split
  · rename_i hnil
    cases hnil
  · rename_i hhead
    exact absurd (List.cons.inj hhead).1 hquote
  · rename_i hhead
    exact absurd (List.cons.inj hhead).1 hslash
  · rename_i hhead
    exact absurd (List.cons.inj hhead).1 hslash
  · rename_i hhead
    obtain ⟨rfl, rfl⟩ := List.cons.inj hhead
    simp only [hallowed, Bool.false_eq_true, if_false]
    cases stringUnits rest <;> rfl

theorem stringUnits_escaped {e : Char} {unit : Nat} (he : escapedUnit e = some unit)
    (hu : e ≠ 'u') (rest : List Char) :
    stringUnits ('\\' :: e :: rest) =
      (stringUnits rest).map fun (units, rest) => (unit :: units, rest) := by
  rw [stringUnits.eq_def]
  split
  · rename_i hnil
    cases hnil
  · rename_i hhead
    exact absurd (List.cons.inj hhead).1 (by decide)
  · rename_i hhead
    obtain ⟨-, htail⟩ := List.cons.inj hhead
    exact absurd (List.cons.inj htail).1 hu
  · rename_i hhead
    obtain ⟨-, htail⟩ := List.cons.inj hhead
    obtain ⟨rfl, rfl⟩ := List.cons.inj htail
    simp only [he, bind, Option.bind]
    cases stringUnits rest <;> rfl
  · rename_i hnone hhead
    obtain ⟨rfl, rfl⟩ := List.cons.inj hhead
    exact absurd rfl (hnone e rest rfl)

theorem stringUnits_control {c : Char} (h : c.toNat < 32) (rest : List Char) :
    stringUnits ('\\' :: 'u' :: '0' :: '0' :: hexDigit (c.toNat / 16) :: hexDigit (c.toNat % 16) ::
        rest) = (stringUnits rest).map fun (units, rest) => (c.toNat :: units, rest) := by
  have hzero : hexValue '0' = some 0 := by decide
  have hhigh := hexValue_hexDigit (c.toNat / 16) (by omega)
  have hlow := hexValue_hexDigit (c.toNat % 16) (by omega)
  have hunit : hexUnit '0' '0' (hexDigit (c.toNat / 16)) (hexDigit (c.toNat % 16)) =
      some c.toNat := by
    unfold hexUnit
    rw [hzero, hhigh, hlow]
    show some _ = some _
    congr 1
    omega
  rw [stringUnits, hunit]
  show (stringUnits rest >>= _) = _
  cases stringUnits rest <;> rfl

theorem stringUnits_quoteChar (c : Char) (rest : List Char) :
    stringUnits (quoteChar c ++ rest) =
      (stringUnits rest).map fun (units, rest) => (c.toNat :: units, rest) := by
  have hescaped : ∀ (e : Char) (unit : Nat), escapedUnit e = some unit → e ≠ 'u' → c.toNat = unit →
      stringUnits ([('\\'), e] ++ rest) =
        (stringUnits rest).map fun (units, rest) => (c.toNat :: units, rest) := by
    intro e unit he hu hc
    rw [hc]
    exact stringUnits_escaped he hu rest
  unfold quoteChar
  split_ifs with hquote hslash h8 h9 h10 h12 h13 hcontrol
  · exact hescaped '"' 34 rfl (by decide) (hquote ▸ rfl)
  · exact hescaped '\\' 92 rfl (by decide) (hslash ▸ rfl)
  · exact hescaped 'b' 8 rfl (by decide) h8
  · exact hescaped 't' 9 rfl (by decide) h9
  · exact hescaped 'n' 10 rfl (by decide) h10
  · exact hescaped 'f' 12 rfl (by decide) h12
  · exact hescaped 'r' 13 rfl (by decide) h13
  · exact stringUnits_control hcontrol rest
  · exact stringUnits_unescaped ⟨hquote, hslash, Nat.not_lt.mp hcontrol⟩ rest

theorem toNat_not_surrogate (c : Char) : ¬ (0xD800 ≤ c.toNat ∧ c.toNat ≤ 0xDFFF) := by
  have hvalid : c.toNat < 0xD800 ∨ (0xDFFF < c.toNat ∧ c.toNat < 0x110000) := c.valid
  omega

theorem combineUnits_toNat (cs : List Char) : combineUnits (cs.map Char.toNat) = cs := by
  have hsingle : ∀ c : Char, (if 0xD800 ≤ c.toNat ∧ c.toNat ≤ 0xDFFF then Char.ofNat 0xFFFD
      else Char.ofNat c.toNat) = c := by
    intro c
    rw [if_neg (toNat_not_surrogate c), Char.ofNat_toNat]
  induction cs with
  | nil => rfl
  | cons c cs ih =>
    cases cs with
    | nil => rw [List.map_cons, List.map_nil, combineUnits, hsingle]
    | cons d ds =>
      have hnot := toNat_not_surrogate c
      have hpair : ¬ (0xD800 ≤ c.toNat ∧ c.toNat < 0xDC00 ∧ 0xDC00 ≤ d.toNat ∧
          d.toNat ≤ 0xDFFF) := by omega
      rw [List.map_cons] at ih
      rw [List.map_cons, List.map_cons, combineUnits, if_neg hpair, hsingle, ih]

theorem stringUnits_quoted (cs rest : List Char) :
    stringUnits (cs.flatMap quoteChar ++ '"' :: rest) = some (cs.map Char.toNat, rest) := by
  induction cs with
  | nil => rfl
  | cons c cs ih =>
    rw [List.flatMap_cons, List.append_assoc, stringUnits_quoteChar, ih]
    rfl

theorem parseString_quote (s : String) (rest : List Char) :
    parseString (s.toList.flatMap quoteChar ++ '"' :: rest) = some (s, rest) := by
  unfold parseString
  rw [stringUnits_quoted]
  show some (String.ofList (combineUnits (s.toList.map Char.toNat)), rest) = _
  rw [combineUnits_toNat, String.ofList_toList]

theorem quote_append (s : String) (rest : List Char) :
    quote s ++ rest = '"' :: (s.toList.flatMap quoteChar ++ '"' :: rest) := by
  unfold quote
  rw [List.append_assoc]
  rfl

theorem quoteChar_unescaped {c : Char} (h : Unescaped c) : quoteChar c = [c] := by
  obtain ⟨hquote, hslash, hcontrol⟩ := h
  unfold quoteChar
  rw [if_neg hquote, if_neg hslash]
  repeat rw [if_neg (by omega)]

theorem quote_unescaped {s : String} (h : ∀ c ∈ s.toList, Unescaped c) :
    quote s = '"' :: s.toList ++ ['"'] := by
  have htext : s.toList.flatMap quoteChar = s.toList.flatMap fun c => [c] :=
    List.flatMap_congr fun c hc => quoteChar_unescaped (h c hc)
  unfold quote
  rw [htext, List.flatMap_singleton']

/-! The order of the members of an object. -/

/-- The order in which an object keeps its keys: array indices first, ascending. -/
def Precedes (k l : String) : Prop :=
  k ≠ l ∧
    match arrayIndex k, arrayIndex l with
    | some i, some j => i < j
    | none, some _ => False
    | _, none => True

def Ordered (members : List (String × Value)) : Prop :=
  members.Pairwise fun m n => Precedes m.1 n.1

/-- Names, none of them an array index, are ordered as they come. -/
theorem ordered_of_names {members : List (String × Value)}
    (hnames : ∀ m ∈ members, arrayIndex m.1 = none) (hnodup : (members.map Prod.fst).Nodup) :
    Ordered members := by
  have hne : members.Pairwise fun m n => m.1 ≠ n.1 := List.pairwise_map.mp hnodup
  refine hne.imp_of_mem ?_
  intro m n hm hn hmn
  refine ⟨hmn, ?_⟩
  rw [hnames m hm, hnames n hn]
  trivial

theorem defineMember_append {key : String} {members : List (String × Value)}
    (h : ∀ m ∈ members, Precedes m.1 key) (v : Value) :
    defineMember key v members = members ++ [(key, v)] := by
  induction members with
  | nil => rfl
  | cons m ms ih =>
    obtain ⟨k, w⟩ := m
    obtain ⟨hne, horder⟩ := h (k, w) (List.mem_cons_self ..)
    have htail := ih fun m hm => h m (List.mem_cons_of_mem _ hm)
    rw [defineMember, if_neg hne, List.cons_append]
    cases hkey : arrayIndex key with
    | none => exact congrArg ((k, w) :: ·) htail
    | some i =>
      cases hk : arrayIndex k with
      | none => simp only [hk, hkey] at horder
      | some j =>
        simp only [hk, hkey] at horder
        simp only [Nat.not_lt.mpr horder.le, if_false, htail]

theorem precedes_snoc {acc ms : List (String × Value)} {key : String}
    (hacc : ∀ m ∈ acc, ∀ n ∈ ms, Precedes m.1 n.1) (hkey : ∀ n ∈ ms, Precedes key n.1) (v : Value) :
    ∀ m ∈ acc ++ [(key, v)], ∀ n ∈ ms, Precedes m.1 n.1 := by
  intro m hm n hn
  rcases List.mem_append.mp hm with hm | hm
  · exact hacc m hm n hn
  · rw [List.mem_singleton.mp hm]
    exact hkey n hn

/-! What is kept of a value. -/

mutual

/-- Members that are `undefined` are dropped, elements become `null`. -/
def kept : Value → Value
  | .num (.infinite _) => .null
  | .arr xs => .arr (keptElements xs)
  | .obj ms => .obj (keptMembers ms)
  | v => v

def keptElements : List Value → List Value
  | [] => []
  | x :: xs => (if x = .undefined then .null else kept x) :: keptElements xs

def keptMembers : List (String × Value) → List (String × Value)
  | [] => []
  | (key, v) :: ms => if v = .undefined then keptMembers ms else (key, kept v) :: keptMembers ms

end

mutual

/-- The numbers are finite, the members in the order of the language. -/
def WellFormed : Value → Prop
  | .num x => x.IsFinite
  | .arr xs => WellFormedElements xs
  | .obj ms => Ordered ms ∧ WellFormedMembers ms
  | _ => True

def WellFormedElements : List Value → Prop
  | [] => True
  | x :: xs => WellFormed x ∧ WellFormedElements xs

def WellFormedMembers : List (String × Value) → Prop
  | [] => True
  | (_, v) :: ms => WellFormed v ∧ WellFormedMembers ms

end

theorem wellFormedElements_of_forall {xs : List Value} (h : ∀ x ∈ xs, WellFormed x) :
    WellFormedElements xs := by
  induction xs with
  | nil => trivial
  | cons x xs ih =>
    have htail := ih fun y hy => h y (List.mem_cons_of_mem _ hy)
    exact ⟨h x (List.mem_cons_self ..), htail⟩

theorem keptElements_eq_map {xs : List Value} (h : ∀ x ∈ xs, x ≠ .undefined) :
    keptElements xs = xs.map kept := by
  induction xs with
  | nil => rfl
  | cons x xs ih =>
    have hne := h x (List.mem_cons_self ..)
    have htail := ih fun y hy => h y (List.mem_cons_of_mem _ hy)
    rw [keptElements, if_neg hne, htail, List.map_cons]

theorem lookup_keptMembers {ms : List (String × Value)} (h : (ms.map Prod.fst).Nodup)
    (key : String) :
    (keptMembers ms).lookup key = ((ms.lookup key).filter (· ≠ .undefined)).map kept := by
  induction ms with
  | nil => rfl
  | cons m ms ih =>
    obtain ⟨k, v⟩ := m
    obtain ⟨hfresh, hnodup⟩ := List.nodup_cons.mp h
    have htail := ih hnodup
    rw [keptMembers, List.lookup_cons]
    by_cases hkey : key = k
    · subst hkey
      have habsent : ms.lookup key = none := lookup_eq_none_of_not_mem hfresh
      by_cases hv : v = .undefined
      · rw [if_pos hv, htail, habsent]
        simp [hv]
      · rw [if_neg hv]
        simp [hv]
    · have hbeq : (key == k) = false := beq_eq_false_iff_ne.mpr hkey
      by_cases hv : v = .undefined
      · rw [if_pos hv, htail, hbeq]
      · rw [if_neg hv, List.lookup_cons, hbeq, htail]

theorem kept_num {x : Number} (h : x.IsFinite) : kept (.num x) = .num x := by
  rcases h.cases with rfl | ⟨digits, exponent, rfl, -⟩
  · rfl
  · rfl

theorem Ordered.nodup {ms : List (String × Value)} (h : Ordered ms) : (ms.map Prod.fst).Nodup := by
  apply List.pairwise_map.mpr
  apply h.imp
  intro m n hmn
  exact hmn.1

theorem wellFormed_of_lookup {ms : List (String × Value)} (h : WellFormedMembers ms) {key : String}
    {v : Value} (hv : ms.lookup key = some v) : WellFormed v := by
  induction ms with
  | nil => simp at hv
  | cons m ms ih =>
    obtain ⟨k, w⟩ := m
    rw [List.lookup_cons] at hv
    split at hv
    · rw [← Option.some.inj hv]
      exact h.1
    · exact ih h.2 hv

theorem lookup_of_prop {ms : List (String × Value)} {key : String} {w : Value}
    (h : (Value.obj ms).prop key = .ok w) (hw : w ≠ .undefined) : ms.lookup key = some w := by
  have hvalue : (ms.lookup key).getD .undefined = w := Except.ok.inj h
  cases hlookup : ms.lookup key with
  | none =>
    rw [hlookup] at hvalue
    exact absurd hvalue.symm hw
  | some u =>
    rw [hlookup] at hvalue
    exact congrArg some hvalue

/-- A property that is not `undefined` is kept. -/
theorem prop_kept {v w : Value} {key : String} (hv : WellFormed v) (h : v.prop key = .ok w)
    (hw : w ≠ .undefined) : WellFormed w ∧ (kept v).prop key = .ok (kept w) := by
  obtain ⟨ms, rfl⟩ := Value.isObject_of_prop_ne h hw
  obtain ⟨hordered, hmembers⟩ := hv
  have hlookup := lookup_of_prop h hw
  have hkept : (keptMembers ms).lookup key = some (kept w) := by
    rw [lookup_keptMembers hordered.nodup, hlookup]
    simp [hw]
  refine ⟨wellFormed_of_lookup hmembers hlookup, ?_⟩
  rw [kept]
  exact congrArg (fun found : Option Value => Except.ok (found.getD .undefined)) hkept

theorem serialize_eq_none_iff {v : Value} : serialize v = none ↔ v = .undefined := by
  cases v with
  | bool b => cases b <;> simp [serialize]
  | _ => simp [serialize]

theorem ne_undefined_of_serialize {v : Value} {text : List Char} (h : serialize v = some text) :
    v ≠ .undefined := by
  intro hv
  rw [serialize_eq_none_iff.mpr hv] at h
  cases h

theorem skipWhitespace_cons {c : Char} (h : isWhitespace c = false) (cs : List Char) :
    skipWhitespace (c :: cs) = c :: cs := by
  unfold skipWhitespace
  rw [List.dropWhile_cons, h]
  rfl

theorem parseValue_blank {c : Char} (h : isWhitespace c = true) (fuel : Nat) (cs : List Char) :
    parseValue fuel (c :: cs) = parseValue fuel cs := by
  have hskip : skipWhitespace (c :: cs) = skipWhitespace cs := List.dropWhile_cons_of_pos h
  cases fuel with
  | zero => rfl
  | succ fuel => rw [parseValue, parseValue, hskip]

theorem isWhitespace_number {c : Char} (h : c.isDigit = true ∨ c = '-') :
    isWhitespace c = false := by
  rcases h with h | rfl
  · have hrange := Char.isDigit_iff_toNat.mp h
    unfold isWhitespace
    grind
  · decide

/-- The text of a value starts neither with a blank nor with a closing bracket. -/
theorem serialize_head {v : Value} (hv : WellFormed v) {text : List Char}
    (h : serialize v = some text) :
    ∃ c cs, text = c :: cs ∧ isWhitespace c = false ∧ c ≠ ']' := by
  cases v with
  | undefined => cases h
  | null => cases h; exact ⟨'n', _, rfl, by decide, by decide⟩
  | bool b =>
    cases b with
    | true => cases h; exact ⟨'t', _, rfl, by decide, by decide⟩
    | false => cases h; exact ⟨'f', _, rfl, by decide, by decide⟩
  | num x =>
    obtain ⟨c, cs, htext, hc⟩ := numberText_head hv
    rw [serialize, htext] at h
    cases h
    refine ⟨c, cs, rfl, isWhitespace_number hc, ?_⟩
    rintro rfl
    exact absurd hc (by decide)
  | str s => cases h; exact ⟨'"', _, rfl, by decide, by decide⟩
  | arr xs => cases h; exact ⟨'[', _, rfl, by decide, by decide⟩
  | obj ms => cases h; exact ⟨'\x7b', _, rfl, by decide, by decide⟩

/-! How the parser goes on from the first character. -/

theorem parseValue_null (fuel : Nat) (rest : List Char) :
    parseValue (fuel + 1) ('n' :: 'u' :: 'l' :: 'l' :: rest) = some (.null, rest) := rfl

theorem parseValue_true (fuel : Nat) (rest : List Char) :
    parseValue (fuel + 1) ('t' :: 'r' :: 'u' :: 'e' :: rest) = some (.bool true, rest) := rfl

theorem parseValue_false (fuel : Nat) (rest : List Char) :
    parseValue (fuel + 1) ('f' :: 'a' :: 'l' :: 's' :: 'e' :: rest) = some (.bool false, rest) := rfl

theorem parseValue_quote (fuel : Nat) (s : String) (rest : List Char) :
    parseValue (fuel + 1) (quote s ++ rest) = some (.str s, rest) := by
  rw [quote_append]
  show ((parseString _).map fun p => (Value.str p.1, p.2)) = _
  rw [parseString_quote]
  rfl

theorem parseValue_number (fuel : Nat) {x : Number} (h : x.IsFinite) {rest : List Char}
    (hrest : Terminated rest) :
    parseValue (fuel + 1) (numberText x ++ rest) = some (.num x, rest) := by
  have hparse := parseNumber_numberText h hrest
  obtain ⟨c, cs, htext, hc⟩ := numberText_head h
  rw [htext, List.cons_append] at hparse ⊢
  have hne : ∀ d : Char, d.isDigit = false → d ≠ '-' → c ≠ d := by
    rintro d hd hminus rfl
    rcases hc with hc | hc
    · rw [hc] at hd
      cases hd
    · exact hminus hc
  rw [parseValue, skipWhitespace_cons (isWhitespace_number hc)]
  split
  · rename_i hhead
    exact absurd (List.cons.inj hhead).1 (hne 'n' (by decide) (by decide))
  · rename_i hhead
    exact absurd (List.cons.inj hhead).1 (hne 't' (by decide) (by decide))
  · rename_i hhead
    exact absurd (List.cons.inj hhead).1 (hne 'f' (by decide) (by decide))
  · rename_i hhead
    exact absurd (List.cons.inj hhead).1 (hne '"' (by decide) (by decide))
  · rename_i hhead
    exact absurd (List.cons.inj hhead).1 (hne '[' (by decide) (by decide))
  · rename_i hhead
    exact absurd (List.cons.inj hhead).1 (hne '\x7b' (by decide) (by decide))
  · rw [hparse]
    rfl

theorem parseValue_elements {fuel : Nat} {c : Char} {cs rest : List Char} {xs : List Value}
    (hw : isWhitespace c = false) (hc : c ≠ ']')
    (h : parseElements fuel (c :: cs) = some (xs, rest)) :
    parseValue (fuel + 1) ('[' :: c :: cs) = some (.arr xs, rest) := by
  have hbracket : isWhitespace '[' = false := by decide
  simp only [parseValue, skipWhitespace_cons hbracket, skipWhitespace_cons hw]
  split
  · rename_i hhead
    exact absurd (List.cons.inj hhead).1 hc
  · rw [h]
    rfl

theorem parseValue_members {fuel : Nat} {cs cs' rest : List Char} {ms : List (String × Value)}
    (hopen : skipWhitespace cs = '"' :: cs')
    (h : parseMembers fuel [] ('"' :: cs') = some (ms, rest)) :
    parseValue (fuel + 1) ('\x7b' :: cs) = some (.obj ms, rest) := by
  have hbrace : isWhitespace '\x7b' = false := by decide
  simp only [parseValue, skipWhitespace_cons hbrace, hopen]
  show ((parseMembers fuel [] ('"' :: cs')).map fun p => (Value.obj p.1, p.2)) = _
  rw [h]
  rfl

theorem parseElements_last {fuel : Nat} {cs rest : List Char} {x : Value}
    (h : parseValue fuel cs = some (x, ']' :: rest)) :
    parseElements (fuel + 1) cs = some ([x], rest) := by
  rw [parseElements, h]
  rfl

theorem parseElements_next {fuel : Nat} {cs cs' rest : List Char} {x : Value} {xs : List Value}
    (h : parseValue fuel cs = some (x, ',' :: cs'))
    (hxs : parseElements fuel cs' = some (xs, rest)) :
    parseElements (fuel + 1) cs = some (x :: xs, rest) := by
  rw [parseElements, h]
  show (parseElements fuel cs' >>= fun p => pure (x :: p.1, p.2)) = _
  rw [hxs]
  rfl

theorem parseMembers_quote (fuel : Nat) (acc : List (String × Value)) (key : String)
    (cs : List Char) :
    parseMembers (fuel + 1) acc (quote key ++ ':' :: cs) =
      (parseValue fuel cs >>= fun p =>
        match skipWhitespace p.2 with
        | ',' :: rest => parseMembers fuel (defineMember key p.1 acc) rest
        | '\x7d' :: rest => some (defineMember key p.1 acc, rest)
        | _ => none) := by
  rw [quote_append, parseMembers]
  show (parseString _ >>= _) = _
  rw [parseString_quote]
  rfl

theorem parseMembers_last {fuel : Nat} {acc : List (String × Value)} {key : String}
    {cs cs' rest : List Char} {v : Value} (h : parseValue fuel cs = some (v, cs'))
    (hclose : skipWhitespace cs' = '\x7d' :: rest) :
    parseMembers (fuel + 1) acc (quote key ++ ':' :: cs) =
      some (defineMember key v acc, rest) := by
  rw [parseMembers_quote, h]
  simp only [Option.bind_eq_bind, Option.bind_some, hclose]

theorem parseMembers_next {fuel : Nat} {acc members : List (String × Value)} {key : String}
    {cs cs' rest : List Char} {v : Value} (h : parseValue fuel cs = some (v, ',' :: cs'))
    (hms : parseMembers fuel (defineMember key v acc) cs' = some (members, rest)) :
    parseMembers (fuel + 1) acc (quote key ++ ':' :: cs) = some (members, rest) := by
  rw [parseMembers_quote, h]
  exact hms

theorem terminated_cons {c : Char} (h : c.isDigit = false ∧ c ≠ '.' ∧ c ≠ 'e' ∧ c ≠ 'E')
    (rest : List Char) : Terminated (c :: rest) := by
  intro d hd
  cases hd
  exact h

/-- The text of a list of elements starts like that of its first one. -/
theorem elementTexts_head (x : Value) (xs : List Value) (hx : WellFormed x) :
    ∃ c cs, [','].intercalate (elementTexts (x :: xs)) = c :: cs ∧ isWhitespace c = false ∧
      c ≠ ']' := by
  have hhead : ∃ c cs, (serialize x).getD ['n', 'u', 'l', 'l'] = c :: cs ∧
      isWhitespace c = false ∧ c ≠ ']' := by
    cases hserialize : serialize x with
    | none => exact ⟨'n', _, rfl, by decide, by decide⟩
    | some text => exact serialize_head hx hserialize
  obtain ⟨c, cs, htext, hc⟩ := hhead
  rw [elementTexts, htext]
  cases htail : elementTexts xs with
  | nil => exact ⟨c, cs, by rw [List.intercalate_singleton], hc⟩
  | cons t ts => exact ⟨c, _, by rw [List.intercalate_cons_cons]; rfl, hc⟩

theorem keptMembers_eq_nil {ms : List (String × Value)} (h : memberTexts ms = []) :
    keptMembers ms = [] := by
  induction ms with
  | nil => rfl
  | cons m ms ih =>
    obtain ⟨key, v⟩ := m
    rw [memberTexts] at h
    split at h
    · rename_i hnone
      rw [keptMembers, if_pos (serialize_eq_none_iff.mp hnone), ih h]
    · cases h

/-- The text of a list of members starts with the quote of a key. -/
theorem memberTexts_head {ms : List (String × Value)} (h : memberTexts ms ≠ []) :
    ∃ cs, [','].intercalate (memberTexts ms) = '"' :: cs := by
  induction ms with
  | nil => exact absurd rfl h
  | cons m ms ih =>
    obtain ⟨key, v⟩ := m
    rw [memberTexts] at h ⊢
    split at h
    · exact ih h
    · cases htail : memberTexts ms with
      | nil =>
        rw [List.intercalate_singleton, quote_append]
        exact ⟨_, rfl⟩
      | cons t ts =>
        rw [List.intercalate_cons_cons, List.append_assoc, List.append_assoc, quote_append]
        exact ⟨_, rfl⟩

/-- An element that is `undefined` reads as `null`. -/
theorem parseElement {x : Value} {cs : List Char} {fuel : Nat}
    (hfuel : 2 * ((serialize x).getD ['n', 'u', 'l', 'l']).length ≤ fuel + 1)
    (hvalue : ∀ text, serialize x = some text → 2 * text.length ≤ fuel + 1 →
      parseValue fuel (text ++ cs) = some (kept x, cs)) :
    parseValue fuel ((serialize x).getD ['n', 'u', 'l', 'l'] ++ cs) =
      some (if x = .undefined then .null else kept x, cs) := by
  cases hserialize : serialize x with
  | none =>
    rw [hserialize] at hfuel
    simp only [Option.getD_none, List.length_cons, List.length_nil] at hfuel
    obtain ⟨fuel, rfl⟩ := Nat.exists_eq_succ_of_ne_zero (show fuel ≠ 0 by omega)
    rw [if_pos (serialize_eq_none_iff.mp hserialize)]
    exact parseValue_null fuel cs
  | some text =>
    rw [hserialize] at hfuel
    rw [if_neg (ne_undefined_of_serialize hserialize)]
    exact hvalue text hserialize hfuel

-- Every value is a character or more, so twice the length of a text bounds the depth
-- of the descent into it; the induction carries this bound along with the fuel.
mutual

theorem parseValue_serialize (v : Value) (hv : WellFormed v) {text rest : List Char} {fuel : Nat}
    (h : serialize v = some text) (hfuel : 2 * text.length ≤ fuel + 1) (hrest : Terminated rest) :
    parseValue fuel (text ++ rest) = some (kept v, rest) := by
  have hpositive : 0 < text.length := by
    obtain ⟨c, cs, htext, -⟩ := serialize_head hv h
    rw [htext]
    exact Nat.succ_pos _
  obtain ⟨fuel, rfl⟩ := Nat.exists_eq_succ_of_ne_zero (show fuel ≠ 0 by omega)
  -- one case for each form of a value; the first character of the text selects it
  cases v with
  | undefined => cases h
  | null => cases h; exact parseValue_null fuel rest
  | bool b =>
    cases b with
    | true => cases h; exact parseValue_true fuel rest
    | false => cases h; exact parseValue_false fuel rest
  | num x =>
    cases h
    cases x with
    | infinite negative => exact parseValue_null fuel rest
    | decimal digits exponent => exact parseValue_number fuel hv hrest
  | str s => cases h; exact parseValue_quote fuel s rest
  | arr xs =>
    cases h
    cases xs with
    | nil => rfl
    | cons x xs =>
      obtain ⟨c, cs, htexts, hw, hc⟩ := elementTexts_head x xs hv.1
      have hlength := congrArg List.length htexts
      simp only [List.length_append, List.length_cons, List.length_nil] at hfuel hlength
      have hparse : parseElements fuel
          ([','].intercalate (elementTexts (x :: xs)) ++ ']' :: rest) = _ :=
        parseElements_texts (x :: xs) hv (List.cons_ne_nil x xs) (by omega)
      rw [htexts] at hparse ⊢
      show parseValue (fuel + 1) ('[' :: c :: (cs ++ [']'] ++ rest)) = _
      rw [List.append_assoc]
      exact parseValue_elements hw hc hparse
  | obj ms =>
    cases h
    by_cases hne : memberTexts ms = []
    · rw [hne, kept, keptMembers_eq_nil hne]
      rfl
    · obtain ⟨cs, htexts⟩ := memberTexts_head hne
      have hlength := congrArg List.length htexts
      simp only [List.length_append, List.length_cons, List.length_nil] at hfuel hlength
      have hparse : parseMembers fuel []
          ([','].intercalate (memberTexts ms) ++ '\x7d' :: rest) = _ :=
        parseMembers_texts ms hv.2 hv.1 (by simp) hne (by omega)
      rw [htexts] at hparse ⊢
      show parseValue (fuel + 1) ('\x7b' :: '"' :: (cs ++ ['\x7d'] ++ rest)) = _
      rw [List.append_assoc]
      exact parseValue_members rfl hparse

theorem parseElements_texts (xs : List Value) (hxs : WellFormedElements xs) (hne : xs ≠ [])
    {rest : List Char} {fuel : Nat}
    (hfuel : 2 * ([','].intercalate (elementTexts xs)).length ≤ fuel) :
    parseElements fuel ([','].intercalate (elementTexts xs) ++ ']' :: rest) =
      some (keptElements xs, rest) := by
  match xs with
  | [] => exact absurd rfl hne
  | x :: xs =>
    have hpositive : 0 < ([','].intercalate (elementTexts (x :: xs))).length := by
      obtain ⟨c, cs, htexts, -⟩ := elementTexts_head x xs hxs.1
      rw [htexts]
      exact Nat.succ_pos _
    obtain ⟨fuel, rfl⟩ := Nat.exists_eq_succ_of_ne_zero (show fuel ≠ 0 by omega)
    have hhead : ∀ cs, 2 * ((serialize x).getD ['n', 'u', 'l', 'l']).length ≤ fuel + 1 →
        Terminated cs → parseValue fuel ((serialize x).getD ['n', 'u', 'l', 'l'] ++ cs) = _ :=
      fun cs hlength hcs => parseElement hlength fun text hserialize hlength =>
        parseValue_serialize x hxs.1 hserialize hlength hcs
    cases xs with
    | nil =>
      rw [elementTexts, elementTexts, List.intercalate_singleton] at hfuel ⊢
      exact parseElements_last (hhead _ (by omega) (terminated_cons (by decide) rest))
    | cons y ys =>
      rw [elementTexts, elementTexts, List.intercalate_cons_cons, ← elementTexts] at hfuel ⊢
      simp only [List.length_append, List.length_cons, List.length_nil] at hfuel
      have htail : parseElements fuel
          ([','].intercalate (elementTexts (y :: ys)) ++ ']' :: rest) = _ :=
        parseElements_texts (y :: ys) hxs.2 (List.cons_ne_nil y ys) (by omega)
      rw [List.append_assoc, List.append_assoc]
      exact parseElements_next (hhead _ (by omega) (terminated_cons (by decide) _)) htail

theorem parseMembers_texts (ms : List (String × Value)) (hms : WellFormedMembers ms)
    (horder : Ordered ms) {acc : List (String × Value)}
    (hacc : ∀ m ∈ acc, ∀ n ∈ ms, Precedes m.1 n.1) (hne : memberTexts ms ≠ [])
    {rest : List Char} {fuel : Nat}
    (hfuel : 2 * ([','].intercalate (memberTexts ms)).length ≤ fuel) :
    parseMembers fuel acc ([','].intercalate (memberTexts ms) ++ '\x7d' :: rest) =
      some (acc ++ keptMembers ms, rest) := by
  match ms with
  | [] => exact absurd rfl hne
  | (key, v) :: ms =>
    obtain ⟨hfirst, horder⟩ := List.pairwise_cons.mp horder
    have hacc' : ∀ m ∈ acc, ∀ n ∈ ms, Precedes m.1 n.1 :=
      fun m hm n hn => hacc m hm n (List.mem_cons_of_mem _ hn)
    cases hserialize : serialize v with
    | none =>
      have htexts : memberTexts ((key, v) :: ms) = memberTexts ms := by
        rw [memberTexts, hserialize]
      rw [htexts] at hfuel hne ⊢
      rw [keptMembers, if_pos (serialize_eq_none_iff.mp hserialize)]
      exact parseMembers_texts ms hms.2 horder hacc' hne hfuel
    | some text =>
      have htexts : memberTexts ((key, v) :: ms) = (quote key ++ ':' :: text) :: memberTexts ms := by
        rw [memberTexts, hserialize]
      have hundefined := ne_undefined_of_serialize hserialize
      have hdefine : defineMember key (kept v) acc = acc ++ [(key, kept v)] :=
        defineMember_append (fun m hm => hacc m hm (key, v) (List.mem_cons_self ..)) _
      have hvalue := fun cs fuel => @parseValue_serialize v hms.1 text cs fuel hserialize
      rw [htexts] at hfuel ⊢
      rw [keptMembers, if_neg hundefined]
      cases htail : memberTexts ms with
      | nil =>
        rw [htail, List.intercalate_singleton] at hfuel
        simp only [List.length_append, List.length_cons] at hfuel
        obtain ⟨fuel, rfl⟩ := Nat.exists_eq_succ_of_ne_zero (show fuel ≠ 0 by omega)
        rw [List.intercalate_singleton, keptMembers_eq_nil htail, ← hdefine, List.append_assoc]
        exact parseMembers_last (hvalue _ _ (by omega) (terminated_cons (by decide) rest)) rfl
      | cons t ts =>
        have hne' : memberTexts ms ≠ [] := by simp [htail]
        rw [htail, List.intercalate_cons_cons] at hfuel
        simp only [List.length_append, List.length_cons, List.length_nil] at hfuel
        obtain ⟨fuel, rfl⟩ := Nat.exists_eq_succ_of_ne_zero (show fuel ≠ 0 by omega)
        have hext := precedes_snoc hacc' hfirst (kept v)
        have hrest : parseMembers fuel (acc ++ [(key, kept v)])
            ([','].intercalate (memberTexts ms) ++ '\x7d' :: rest) = _ :=
          parseMembers_texts ms hms.2 horder hext hne' (by rw [htail]; omega)
        rw [htail, ← hdefine] at hrest
        have hvalue' := hvalue (',' :: ([','].intercalate (t :: ts) ++ '\x7d' :: rest)) fuel
          (by omega) (terminated_cons (by decide) _)
        have hmembers := parseMembers_next hvalue' hrest
        rw [hdefine, List.append_assoc] at hmembers
        rw [List.intercalate_cons_cons, List.append_assoc, List.append_assoc, List.append_assoc]
        exact hmembers

end

theorem parse_serialize {v : Value} (hv : WellFormed v) {text : List Char}
    (h : serialize v = some text) : parse (String.ofList text) = .ok (kept v) := by
  have hterminated : Terminated [] := fun c hc => by cases hc
  have hparse : parseValue (2 * text.length + 1) (text ++ []) = _ :=
    parseValue_serialize v hv h (by omega) hterminated
  rw [List.append_nil] at hparse
  unfold parse
  rw [String.toList_ofList, hparse]
  rfl

/-- What is written for a well-formed value parses to what is kept of it. -/
theorem parse_stringify {v : Value} (hv : WellFormed v) (hne : v ≠ .undefined) :
    ∃ text, stringify v = some text ∧ parse text = .ok (kept v) := by
  cases hserialize : serialize v with
  | none => exact absurd (serialize_eq_none_iff.mp hserialize) hne
  | some text =>
    refine ⟨String.ofList text, ?_, parse_serialize hv hserialize⟩
    unfold stringify
    rw [hserialize]
    rfl

end Ecma.Json
