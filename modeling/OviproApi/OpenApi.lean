import OviproApi.Ecma.Value

/-! The object schemas of an OpenAPI document, as far as JSON values are checked
against them. A property that the schema does not name is allowed. -/

namespace OpenApi
open Ecma

inductive Schema
  | string
  | array (items : Schema)
  | object (required : List String) (properties : List (String × Schema))

namespace Schema

mutual

def Accepts : Schema → Value → Prop
  | .string, v => ∃ s, v = .str s
  | .array items, v => ∃ xs, v = .arr xs ∧ ∀ x ∈ xs, Accepts items x
  | .object required properties, v =>
    ∃ members, v = .obj members ∧ (∀ key ∈ required, (members.lookup key).isSome) ∧
      AcceptsProperties properties members

def AcceptsProperties : List (String × Schema) → List (String × Value) → Prop
  | [], _ => True
  | (key, schema) :: properties, members =>
    (∀ v, members.lookup key = some v → Accepts schema v) ∧ AcceptsProperties properties members

end

theorem accepts_str (s : String) : string.Accepts (.str s) := by
  unfold Accepts
  exact ⟨s, rfl⟩

/-- A text, if it is there, is what a schema of type string asks for. -/
theorem accepts_text {text : Option String} {found : Option Value} (h : found = text.map .str)
    (v : Value) (hv : found = some v) : string.Accepts v := by
  rw [h] at hv
  obtain ⟨s, -, rfl⟩ := Option.map_eq_some_iff.mp hv
  exact accepts_str s

/-- The content of a value of the kind that a schema asks for. -/
theorem exists_content_iff {α : Type} {kind : α → Value} (hkind : Function.Injective kind)
    {content : α} {P : α → Prop} : (∃ found, kind content = kind found ∧ P found) ↔ P content := by
  constructor
  · intro h
    rcases h with ⟨found, heq, hP⟩
    rwa [hkind heq]
  · intro h
    exact ⟨content, rfl, h⟩

theorem accepts_object {required : List String} {properties : List (String × Schema)}
    {members : List (String × Value)} :
    (object required properties).Accepts (.obj members) ↔
      (∀ key ∈ required, (members.lookup key).isSome) ∧ AcceptsProperties properties members := by
  rw [Accepts]
  exact exists_content_iff fun _ _ => Value.obj.inj

theorem accepts_array {items : Schema} {xs : List Value} :
    (array items).Accepts (.arr xs) ↔ ∀ x ∈ xs, items.Accepts x := by
  rw [Accepts]
  exact exists_content_iff fun _ _ => Value.arr.inj

end Schema
end OpenApi
