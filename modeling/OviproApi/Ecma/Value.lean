import Mathlib.Data.List.Forall2
import OviproApi.Ecma.Number

/-! ECMAScript values as far as JSON data are made of them, and the ways in
which untyped code reads them. `undefined` is what an absent property reads as. -/

namespace Ecma

inductive Value
  | undefined
  | null
  | bool (b : Bool)
  | num (x : Number)
  | str (s : String)
  | arr (elements : List Value)
  | obj (members : List (String × Value))

inductive Error
  | typeError (message : String)
  | syntaxError (message : String)
  deriving DecidableEq, Repr

theorem lookup_eq_none_of_not_mem {α β : Type} [BEq α] [LawfulBEq α] {members : List (α × β)}
    {key : α} (h : key ∉ members.map Prod.fst) : members.lookup key = none := by
  rw [List.lookup_eq_none_iff]
  intro m hm
  rw [bne_iff_ne]
  rintro rfl
  exact h (List.mem_map_of_mem hm)

namespace Value

def truthy : Value → Bool
  | undefined | null => false
  | bool b => b
  | num x => !x.isZero
  | str s => s != ""
  | arr _ | obj _ => true

def isNullish : Value → Bool
  | undefined | null => true
  | _ => false

/-- `v ?? w`. -/
def coalesce (v w : Value) : Value := if v.isNullish then w else v

/-- `===` between values of different origin: two objects are never the same one. -/
def strictEq : Value → Value → Bool
  | undefined, undefined => true
  | null, null => true
  | bool a, bool b => a == b
  | num a, num b => a == b
  | str a, str b => a == b
  | _, _ => false

/-- A property of own data. The properties of the built-in prototypes have
other names than the ones that are read here. -/
def prop (v : Value) (key : String) : Except Error Value :=
  match v with
  | undefined => throw (.typeError s!"Cannot read properties of undefined (reading '{key}')")
  | null => throw (.typeError s!"Cannot read properties of null (reading '{key}')")
  | obj members => pure ((members.lookup key).getD undefined)
  | _ => pure undefined

/-- The elements that an array method such as `some` or `find` runs over. -/
def elements : Value → Except Error (List Value)
  | arr xs => pure xs
  | undefined => throw (.typeError "Cannot read properties of undefined")
  | null => throw (.typeError "Cannot read properties of null")
  | _ => throw (.typeError "not a function")

theorem sizeOf_lookup_lt {members : List (String × Value)} {key : String} {v : Value}
    (h : members.lookup key = some v) : sizeOf v < sizeOf members := by
  induction members with
  | nil => simp at h
  | cons m ms ih =>
    obtain ⟨k, w⟩ := m
    rw [List.lookup_cons] at h
    split at h
    · cases h
      simp only [List.cons.sizeOf_spec, Prod.mk.sizeOf_spec]
      omega
    · have hlt := ih h
      simp only [List.cons.sizeOf_spec]
      omega

theorem sizeOf_prop_lt {v : Value} {key : String} {xs : List Value}
    (h : v.prop key = .ok (arr xs)) : sizeOf xs < sizeOf v := by
  unfold prop at h
  split at h
  · cases h
  · cases h
  · rename_i members
    have hlookup : members.lookup key = some (arr xs) := by
      cases hl : members.lookup key with
      | none =>
        rw [hl] at h
        cases h
      | some w =>
        rw [hl] at h
        cases h
        rfl
    have hlt := sizeOf_lookup_lt hlookup
    simp only [arr.sizeOf_spec] at hlt
    simp only [obj.sizeOf_spec]
    omega
  · cases h

theorem elements_ok {v : Value} {xs : List Value} (h : v.elements = .ok xs) : v = arr xs := by
  cases v with
  | arr ys => exact congrArg arr (Except.ok.inj h)
  | _ => cases h

theorem sizeOf_elements_lt {v : Value} {key : String} {xs : List Value}
    (h : (v.prop key >>= elements) = .ok xs) : sizeOf xs < sizeOf v := by
  cases hprop : v.prop key with
  | error e =>
    rw [hprop] at h
    cases h
  | ok w =>
    rw [hprop] at h
    have hw : w = arr xs := elements_ok h
    exact sizeOf_prop_lt (hw ▸ hprop)

/-- The truthiness of `length`. -/
def hasLength : Value → Except Error Bool
  | arr xs => pure (xs.length != 0)
  | str s => pure (s != "")
  | v => do return (← v.prop "length").truthy

/-- A value with properties of its own. -/
def IsObject (v : Value) : Prop := ∃ members, v = obj members

theorem IsObject.truthy {v : Value} (h : v.IsObject) : v.truthy = true := by
  obtain ⟨members, rfl⟩ := h
  rfl

theorem IsObject.prop {v : Value} (h : v.IsObject) (key : String) : ∃ w, v.prop key = .ok w := by
  obtain ⟨members, rfl⟩ := h
  exact ⟨_, rfl⟩

theorem isObject_of_prop_ne {v w : Value} {key : String} (h : v.prop key = .ok w)
    (hw : w ≠ undefined) : v.IsObject := by
  cases v with
  | obj members => exact ⟨members, rfl⟩
  | undefined => cases h
  | null => cases h
  | bool b => exact absurd (Except.ok.inj h).symm hw
  | num x => exact absurd (Except.ok.inj h).symm hw
  | str s => exact absurd (Except.ok.inj h).symm hw
  | arr xs => exact absurd (Except.ok.inj h).symm hw

mutual

def same : Value → Value → Bool
  | undefined, undefined => true
  | null, null => true
  | bool a, bool b => a == b
  | num a, num b => a == b
  | str a, str b => a == b
  | arr xs, arr ys => sameElements xs ys
  | obj ms, obj ns => sameMembers ms ns
  | _, _ => false

def sameElements : List Value → List Value → Bool
  | [], [] => true
  | x :: xs, y :: ys => same x y && sameElements xs ys
  | _, _ => false

def sameMembers : List (String × Value) → List (String × Value) → Bool
  | [], [] => true
  | (k, v) :: ms, (l, w) :: ns => k == l && same v w && sameMembers ms ns
  | _, _ => false

end

mutual

theorem same_iff (v w : Value) : same v w = true ↔ v = w := by
  cases v with
  | arr xs => cases w <;> simp [same, sameElements_iff xs]
  | obj ms => cases w <;> simp [same, sameMembers_iff ms]
  | _ => cases w <;> simp [same]

theorem sameElements_iff (xs ys : List Value) : sameElements xs ys = true ↔ xs = ys := by
  cases xs with
  | nil => cases ys <;> simp [sameElements]
  | cons x xs => cases ys <;> simp [sameElements, same_iff x, sameElements_iff xs]

theorem sameMembers_iff (ms ns : List (String × Value)) : sameMembers ms ns = true ↔ ms = ns := by
  match ms, ns with
  | [], [] => simp [sameMembers]
  | [], _ :: _ => simp [sameMembers]
  | _ :: _, [] => simp [sameMembers]
  | (k, v) :: ms, (l, w) :: ns =>
    simp [sameMembers, same_iff v, sameMembers_iff ms, and_assoc]

end

instance : DecidableEq Value := fun v w => decidable_of_iff _ (same_iff v w)

end Value

section Checks
variable {α β ε : Type}

/-! Computations that return, whatever they return. -/

theorem bind_returns {x : Except ε α} {f : α → Except ε β} (hx : ∃ a, x = .ok a)
    (hf : ∀ a, ∃ b, f a = .ok b) : ∃ b, (x >>= f) = .ok b := by
  obtain ⟨a, rfl⟩ := hx
  exact hf a

theorem bind_returns_of_eq {x : Except ε α} {f : α → Except ε β} {a : α} (hx : x = .ok a)
    (hf : ∃ b, f a = .ok b) : ∃ b, (x >>= f) = .ok b := by
  subst hx
  exact hf

theorem ite_returns {c : Bool} {x y : Except ε α} (hx : ∃ a, x = .ok a) (hy : ∃ a, y = .ok a) :
    ∃ a, (if c then x else y) = .ok a := by
  cases c with
  | true => exact hx
  | false => exact hy

theorem anyM_cons (f : α → Except ε Bool) (a : α) (as : List α) :
    (a :: as).anyM f = (f a >>= fun b => if b then pure true else as.anyM f) := by
  rw [List.anyM]
  congr 1
  funext b
  cases b <;> rfl

theorem anyM_eq_any {f : α → Except ε Bool} {g : β → Bool} {xs : List α} {ys : List β}
    (h : List.Forall₂ (fun x y => f x = .ok (g y)) xs ys) : xs.anyM f = .ok (ys.any g) := by
  induction h with
  | nil => rfl
  | @cons x y xs ys hxy _ ih =>
    rw [anyM_cons, hxy, List.any_cons, ih]
    cases g y <;> rfl

theorem forall₂_of_mem {R S : α → β → Prop} {xs : List α} {ys : List β} (h : xs.Forall₂ R ys)
    (himp : ∀ x, ∀ y ∈ ys, R x y → S x y) : xs.Forall₂ S ys := by
  induction h with
  | nil => exact .nil
  | @cons x y xs ys hxy _ ih =>
    have htail := ih fun x y hy => himp x y (List.mem_cons_of_mem _ hy)
    exact .cons (himp x y (List.mem_cons_self ..) hxy) htail

theorem exists_right_of_mem {R : α → β → Prop} {xs : List α} {ys : List β} (h : xs.Forall₂ R ys)
    {x : α} (hx : x ∈ xs) : ∃ y ∈ ys, R x y := by
  induction h with
  | nil => cases hx
  | cons hxy _ ih =>
    rcases List.mem_cons.mp hx with rfl | hx
    · exact ⟨_, List.mem_cons_self .., hxy⟩
    · obtain ⟨y, hy, hrel⟩ := ih hx
      exact ⟨y, List.mem_cons_of_mem _ hy, hrel⟩

theorem anyM_returns {f : α → Except ε Bool} {xs : List α} (h : ∀ x ∈ xs, ∃ b, f x = .ok b) :
    ∃ b, xs.anyM f = .ok b := by
  induction xs with
  | nil => exact ⟨false, rfl⟩
  | cons x xs ih =>
    have hhead := h x (List.mem_cons_self ..)
    have htail := ih fun y hy => h y (List.mem_cons_of_mem _ hy)
    rw [anyM_cons]
    exact bind_returns hhead fun _ => ite_returns ⟨true, rfl⟩ htail

end Checks
end Ecma
