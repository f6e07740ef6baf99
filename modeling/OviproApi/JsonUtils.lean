import OviproApi.Ecma.JsonRoundTrip

/-! The texts that leave out what has no value. The replacer makes `null` and
`undefined` one, and what becomes of them depends on where they stand: a member
is dropped, an element stays as `null`. -/

namespace Ovipro.JsonUtils
open Ecma Json

def cleanUp : Replacer where
  replace _key value := value.coalesce .undefined
  sizeOf_replace _key value := by
    cases value <;> simp [Value.coalesce, Value.isNullish]

def stringifyClean (value : Value) : Option String := stringifyWith cleanUp value

/-! What is meant to remain of a value. -/

mutual

def cleaned : Value → Value
  | .arr xs => .arr (cleanedElements xs)
  | .obj ms => .obj (cleanedMembers ms)
  | v => v

def cleanedElements : List Value → List Value
  | [] => []
  | x :: xs => (if x.isNullish then .null else cleaned x) :: cleanedElements xs

def cleanedMembers : List (String × Value) → List (String × Value)
  | [] => []
  | (key, v) :: ms =>
    if v.isNullish then cleanedMembers ms else (key, cleaned v) :: cleanedMembers ms

end

mutual

/-- No member of an object is `null`, at any depth. -/
def NoNullMember : Value → Prop
  | .arr xs => NoNullElements xs
  | .obj ms => NoNullMembers ms
  | _ => True

def NoNullElements : List Value → Prop
  | [] => True
  | x :: xs => NoNullMember x ∧ NoNullElements xs

def NoNullMembers : List (String × Value) → Prop
  | [] => True
  | (_, v) :: ms => v ≠ .null ∧ NoNullMember v ∧ NoNullMembers ms

end

theorem cleanedMembers_eq (ms : List (String × Value)) :
    cleanedMembers ms =
      (ms.filter fun m => !m.2.isNullish).map fun m => (m.1, cleaned m.2) := by
  induction ms with
  | nil => rfl
  | cons m ms ih =>
    obtain ⟨key, v⟩ := m
    rw [cleanedMembers, ih]
    cases hv : v.isNullish with
    | true => simp [hv]
    | false => simp [hv]

theorem lookup_cleanedMembers {ms : List (String × Value)} (h : (ms.map (·.1)).Nodup)
    (key : String) : (cleanedMembers ms).lookup key =
      ((ms.lookup key).filter fun v => !v.isNullish).map cleaned := by
  induction ms with
  | nil => rfl
  | cons m ms ih =>
    obtain ⟨k, v⟩ := m
    rw [List.map_cons, List.nodup_cons] at h
    have hrest := ih h.2
    have hk : ms.lookup k = none := lookup_eq_none_of_not_mem h.1
    rw [cleanedMembers, List.lookup_cons]
    by_cases hkey : key = k
    · subst hkey
      rw [hk] at hrest
      cases hv : v.isNullish with
      | true =>
        rw [if_pos rfl, hrest]
        simp [hv]
      | false => simp [hv]
    · rw [beq_eq_false_iff_ne.mpr hkey]
      cases hv : v.isNullish with
      | true => exact hrest
      | false =>
        rw [if_neg Bool.false_ne_true, List.lookup_cons, beq_eq_false_iff_ne.mpr hkey]
        exact hrest

theorem isNullish_cleaned (v : Value) : (cleaned v).isNullish = v.isNullish := by
  cases v <;> rfl

theorem cleaned_ne_null {v : Value} (h : v.isNullish = false) : cleaned v ≠ .null := by
  intro hnull
  have hnullish := isNullish_cleaned v
  rw [hnull, h] at hnullish
  cases hnullish

theorem cleaned_ne_undefined {v : Value} (h : v.isNullish = false) : cleaned v ≠ .undefined := by
  intro hundefined
  have hnullish := isNullish_cleaned v
  rw [hundefined, h] at hnullish
  cases hnullish

/-! The text under the replacer is that of the cleaned value. -/

theorem serializeWith_of_nullish (key : String) {v : Value} (h : v.isNullish = true) :
    serializeWith cleanUp key v = none := by
  have hreplace : cleanUp.replace key v = .undefined := if_pos h
  rw [serializeWith]
  split
  · rename_i harr
    rw [hreplace] at harr
    cases harr
  · rename_i hobj
    rw [hreplace] at hobj
    cases hobj
  · rw [hreplace]
    rfl

-- The key that a value is held under plays no part, so that the claim is the same at
-- every index; what differs is what the two kinds of parents make of no text.
mutual

theorem serializeWith_cleanUp (key : String) (v : Value) :
    serializeWith cleanUp key v = if v.isNullish then none else serialize (cleaned v) := by
  cases v with
  | undefined => exact serializeWith_of_nullish key rfl
  | null => exact serializeWith_of_nullish key rfl
  | bool b => rw [serializeWith]; rfl
  | num x => rw [serializeWith]; rfl
  | str s => rw [serializeWith]; rfl
  | arr xs =>
    have helements := elementTextsWith_cleanUp 0 xs
    rw [serializeWith]
    show some ('[' :: [','].intercalate (elementTextsWith cleanUp 0 xs) ++ [']']) = _
    rw [helements]
    rfl
  | obj ms =>
    have hmembers := memberTextsWith_cleanUp ms
    rw [serializeWith]
    show some ('\x7b' :: [','].intercalate (memberTextsWith cleanUp ms) ++ ['\x7d']) = _
    rw [hmembers]
    rfl

theorem elementTextsWith_cleanUp (index : Nat) (xs : List Value) :
    elementTextsWith cleanUp index xs = elementTexts (cleanedElements xs) := by
  match xs with
  | [] => rw [elementTextsWith]; rfl
  | x :: xs =>
    have hhead := serializeWith_cleanUp (toString index) x
    have htail := elementTextsWith_cleanUp (index + 1) xs
    rw [elementTextsWith, hhead, htail, cleanedElements, elementTexts]
    cases x.isNullish with
    | true => rfl
    | false => rfl

theorem memberTextsWith_cleanUp (ms : List (String × Value)) :
    memberTextsWith cleanUp ms = memberTexts (cleanedMembers ms) := by
  match ms with
  | [] => rw [memberTextsWith]; rfl
  | (key, v) :: ms =>
    have hhead := serializeWith_cleanUp key v
    have htail := memberTextsWith_cleanUp ms
    rw [memberTextsWith, hhead, htail, cleanedMembers]
    cases v.isNullish with
    | true => rfl
    | false => rfl

end

/-! What a cleaned value is. -/

mutual

theorem cleaned_cleaned (v : Value) : cleaned (cleaned v) = cleaned v := by
  cases v with
  | arr xs => exact congrArg Value.arr (cleanedElements_cleaned xs)
  | obj ms => exact congrArg Value.obj (cleanedMembers_cleaned ms)
  | _ => rfl

theorem cleanedElements_cleaned (xs : List Value) :
    cleanedElements (cleanedElements xs) = cleanedElements xs := by
  match xs with
  | [] => rfl
  | x :: xs =>
    have htail := cleanedElements_cleaned xs
    rw [cleanedElements]
    cases hx : x.isNullish with
    | true => exact congrArg (Value.null :: ·) htail
    | false =>
      have hnullish := (isNullish_cleaned x).trans hx
      have hhead := cleaned_cleaned x
      simp only [Bool.false_eq_true, if_false, cleanedElements, hnullish, hhead, htail]

theorem cleanedMembers_cleaned (ms : List (String × Value)) :
    cleanedMembers (cleanedMembers ms) = cleanedMembers ms := by
  match ms with
  | [] => rfl
  | (key, v) :: ms =>
    have htail := cleanedMembers_cleaned ms
    rw [cleanedMembers]
    cases hv : v.isNullish with
    | true => exact htail
    | false =>
      have hnullish := (isNullish_cleaned v).trans hv
      have hhead := cleaned_cleaned v
      simp only [Bool.false_eq_true, if_false, cleanedMembers, hnullish, hhead, htail]

end

mutual

theorem noNullMember_cleaned (v : Value) : NoNullMember (cleaned v) := by
  cases v with
  | arr xs => exact noNullElements_cleaned xs
  | obj ms => exact noNullMembers_cleaned ms
  | _ => trivial

theorem noNullElements_cleaned (xs : List Value) : NoNullElements (cleanedElements xs) := by
  match xs with
  | [] => trivial
  | x :: xs =>
    have htail := noNullElements_cleaned xs
    rw [cleanedElements]
    cases x.isNullish with
    | true => exact ⟨trivial, htail⟩
    | false => exact ⟨noNullMember_cleaned x, htail⟩

theorem noNullMembers_cleaned (ms : List (String × Value)) :
    NoNullMembers (cleanedMembers ms) := by
  match ms with
  | [] => trivial
  | (key, v) :: ms =>
    have htail := noNullMembers_cleaned ms
    rw [cleanedMembers]
    cases hv : v.isNullish with
    | true => exact htail
    | false => exact ⟨cleaned_ne_null hv, noNullMember_cleaned v, htail⟩

end

/-- Members that are dropped leave the order of the others. -/
theorem ordered_cleanedMembers {ms : List (String × Value)} (h : Ordered ms) :
    Ordered (cleanedMembers ms) := by
  rw [cleanedMembers_eq]
  exact List.pairwise_map.mpr (h.filter _)

mutual

theorem wellFormed_cleaned {v : Value} (h : WellFormed v) : WellFormed (cleaned v) := by
  cases v with
  | arr xs => exact wellFormedElements_cleaned h
  | obj ms => exact ⟨ordered_cleanedMembers h.1, wellFormedMembers_cleaned h.2⟩
  | _ => exact h

theorem wellFormedElements_cleaned {xs : List Value} (h : WellFormedElements xs) :
    WellFormedElements (cleanedElements xs) := by
  match xs with
  | [] => trivial
  | x :: xs =>
    have htail := wellFormedElements_cleaned h.2
    rw [cleanedElements]
    cases x.isNullish with
    | true => exact ⟨trivial, htail⟩
    | false => exact ⟨wellFormed_cleaned h.1, htail⟩

theorem wellFormedMembers_cleaned {ms : List (String × Value)} (h : WellFormedMembers ms) :
    WellFormedMembers (cleanedMembers ms) := by
  match ms with
  | [] => trivial
  | (key, v) :: ms =>
    have htail := wellFormedMembers_cleaned h.2
    rw [cleanedMembers]
    cases v.isNullish with
    | true => exact htail
    | false => exact ⟨wellFormed_cleaned h.1, htail⟩

end

/-! Nothing of a cleaned value is lost in its text. -/

mutual

theorem kept_cleaned {v : Value} (h : WellFormed v) : kept (cleaned v) = cleaned v := by
  cases v with
  | num x => exact kept_num h
  | arr xs => exact congrArg Value.arr (keptElements_cleaned h)
  | obj ms => exact congrArg Value.obj (keptMembers_cleaned h.2)
  | _ => rfl

theorem keptElements_cleaned {xs : List Value} (h : WellFormedElements xs) :
    keptElements (cleanedElements xs) = cleanedElements xs := by
  match xs with
  | [] => rfl
  | x :: xs =>
    have htail := keptElements_cleaned h.2
    rw [cleanedElements]
    cases hx : x.isNullish with
    | true => exact congrArg (Value.null :: ·) htail
    | false =>
      have hhead := kept_cleaned h.1
      have hne := cleaned_ne_undefined hx
      simp only [Bool.false_eq_true, if_false, keptElements, hne, hhead, htail]

theorem keptMembers_cleaned {ms : List (String × Value)} (h : WellFormedMembers ms) :
    keptMembers (cleanedMembers ms) = cleanedMembers ms := by
  match ms with
  | [] => rfl
  | (key, v) :: ms =>
    have htail := keptMembers_cleaned h.2
    rw [cleanedMembers]
    cases hv : v.isNullish with
    | true => exact htail
    | false =>
      have hhead := kept_cleaned h.1
      have hne := cleaned_ne_undefined hv
      simp only [Bool.false_eq_true, if_false, keptMembers, hne, hhead, htail]

end

theorem stringifyClean_eq {v : Value} (h : v.isNullish = false) :
    stringifyClean v = stringify (cleaned v) := by
  unfold stringifyClean stringifyWith
  rw [serializeWith_cleanUp, h]
  rfl

/-- The text of a value parses to the cleaned value, and the text of that is the
same one. -/
theorem parse_stringifyClean (v : Value) (hv : WellFormed v) (hnullish : v.isNullish = false) :
    ∃ text, stringifyClean v = some text ∧ Json.parse text = .ok (cleaned v) ∧
      NoNullMember (cleaned v) ∧ stringifyClean (cleaned v) = some text := by
  have hne := cleaned_ne_undefined hnullish
  obtain ⟨text, htext, hparse⟩ := parse_stringify (wellFormed_cleaned hv) hne
  have hagain : stringifyClean (cleaned v) = stringify (cleaned v) := by
    rw [stringifyClean_eq ((isNullish_cleaned v).trans hnullish), cleaned_cleaned]
  rw [kept_cleaned hv] at hparse
  refine ⟨text, ?_, hparse, noNullMember_cleaned v, ?_⟩
  · rw [stringifyClean_eq hnullish, htext]
  · rw [hagain, htext]

/-- A page of offices with members and elements that have no value. -/
def officePage : List (String × Value) :=
  [("cursor", .null), ("name", .str "Sample office"), ("description", .undefined),
    ("count", .num .zero), ("offices", .arr [.null, .obj [("id", .null)], .undefined])]

theorem parse_stringifyClean_officePage :
    ∃ text, stringifyClean (.obj officePage) = some text ∧
      Json.parse text = .ok (cleaned (.obj officePage)) ∧
      NoNullMember (cleaned (.obj officePage)) ∧
      stringifyClean (cleaned (.obj officePage)) = some text := by
  have hordered : Ordered officePage := ordered_of_names (by decide) (by decide)
  have hwellFormed : WellFormed (.obj officePage) := by
    refine ⟨hordered, ?_⟩
    simp [officePage, WellFormedMembers, WellFormed, WellFormedElements, Ordered, Number.IsFinite]
  exact parse_stringifyClean (.obj officePage) hwellFormed rfl

end Ovipro.JsonUtils
