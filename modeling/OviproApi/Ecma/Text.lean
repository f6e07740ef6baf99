import Mathlib.Data.List.DropRight

/-! Texts as lists of characters: searching, and what comes out of splitting at a
separator, joining and trimming. -/

namespace Ecma
variable {α : Type}

theorem not_mem_of_mem_splitOn [DecidableEq α] {x : α} {xs piece : List α}
    (h : piece ∈ xs.splitOn x) : x ∉ piece := by
  induction xs generalizing piece with
  | nil =>
    rw [List.splitOn_nil, List.mem_singleton] at h
    rw [h]
    exact List.not_mem_nil
  | cons y ys ih =>
    rw [List.splitOn_cons_eq_if_modifyHead] at h
    split at h
    · rcases List.mem_cons.mp h with rfl | h
      · exact List.not_mem_nil
      · exact ih h
    · rename_i hne
      obtain ⟨first, pieces, hpieces⟩ := List.exists_cons_of_ne_nil (List.splitOn_ne_nil x ys)
      rw [hpieces] at h ih
      rcases List.mem_cons.mp h with rfl | h
      · have hfirst : x ∉ first := ih (List.mem_cons_self ..)
        have hxy : x ≠ y := fun hxy => hne (by simp [hxy])
        exact List.not_mem_cons_of_ne_of_not_mem hxy hfirst
      · exact ih (List.mem_cons_of_mem _ h)

theorem mem_of_mem_intercalate {x c : α} {pieces : List (List α)}
    (h : c ∈ [x].intercalate pieces) : c = x ∨ ∃ piece ∈ pieces, c ∈ piece := by
  induction pieces with
  | nil => cases h
  | cons piece pieces ih =>
    cases pieces with
    | nil =>
      rw [List.intercalate_singleton] at h
      exact Or.inr ⟨piece, List.mem_cons_self .., h⟩
    | cons next pieces =>
      rw [List.intercalate_cons_cons, List.append_assoc] at h
      rcases List.mem_append.mp h with h | h
      · exact Or.inr ⟨piece, List.mem_cons_self .., h⟩
      · rcases List.mem_cons.mp h with h | h
        · exact Or.inl h
        · rcases ih h with h | ⟨q, hq, hc⟩
          · exact Or.inl h
          · exact Or.inr ⟨q, List.mem_cons_of_mem _ hq, hc⟩

theorem dropWhile_eq_self_of_prefix {p : α → Bool} {xs ys : List α} (h : xs <+: ys)
    (hys : ys.dropWhile p = ys) : xs.dropWhile p = xs := by
  cases xs with
  | nil => rfl
  | cons x xs =>
    obtain ⟨rest, rfl⟩ := h
    have hx : ¬ p x := List.dropWhile_eq_self_iff.mp hys (Nat.succ_pos _)
    exact List.dropWhile_cons_of_neg hx

/-- The first position at which the pattern occurs. -/
def stringIndexOf (pattern : List Char) : List Char → Option Nat
  | [] => if pattern = [] then some 0 else none
  | c :: cs =>
    if pattern.isPrefixOf (c :: cs) then some 0 else (stringIndexOf pattern cs).map (· + 1)

theorem isSome_stringIndexOf {pattern text : List Char} :
    (stringIndexOf pattern text).isSome = true ↔ pattern <:+: text := by
  induction text with
  | nil =>
    rw [stringIndexOf, List.infix_nil]
    split <;> simp [*]
  | cons c cs ih =>
    rw [stringIndexOf, List.infix_cons_iff, ← List.isPrefixOf_iff_prefix]
    split
    · rename_i hprefix
      exact iff_of_true rfl (Or.inl hprefix)
    · rename_i hprefix
      rw [Option.isSome_map, ih]
      exact ⟨Or.inr, fun h => h.resolve_left hprefix⟩

/-- `indexOf`; the position counts characters. -/
def indexOf (text pattern : String) : Int :=
  match stringIndexOf pattern.toList text.toList with
  | some i => i
  | none => -1

def includes (text pattern : String) : Bool := (stringIndexOf pattern.toList text.toList).isSome

theorem includes_iff {text pattern : String} :
    includes text pattern = true ↔ pattern.toList <:+: text.toList := isSome_stringIndexOf

end Ecma
