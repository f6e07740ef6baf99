import Mathlib.Logic.Function.Basic
import Mathlib.Data.List.Induction

/-! A store that is written key by key, and the store of the things that the keys
stand for. -/

namespace KeyedStore
variable {Key Slot Value : Type} [DecidableEq Key] [DecidableEq Slot]

def write (store : Key → Option Value) (entry : Key × Value) : Key → Option Value :=
  Function.update store entry.1 (some entry.2)

def writeAll (store : Key → Option Value) (entries : List (Key × Value)) : Key → Option Value :=
  entries.foldl write store

/-- The value of the last entry of a key. -/
def latest (entries : List (Key × Value)) (key : Key) : Option Value :=
  entries.reverse.lookup key

theorem write_self (store : Key → Option Value) (key : Key) (value : Value) :
    write store (key, value) key = some value :=
  Function.update_self ..

theorem write_of_ne {store : Key → Option Value} {entry : Key × Value} {key : Key}
    (h : key ≠ entry.1) : write store entry key = store key :=
  Function.update_of_ne h ..

theorem writeAll_snoc (store : Key → Option Value) (entries : List (Key × Value))
    (entry : Key × Value) :
    writeAll store (entries ++ [entry]) = write (writeAll store entries) entry := by
  unfold writeAll
  rw [List.foldl_append]
  rfl

theorem latest_snoc (entries : List (Key × Value)) (entry : Key × Value) (key : Key) :
    latest (entries ++ [entry]) key = if key = entry.1 then some entry.2 else latest entries key := by
  unfold latest
  rw [List.reverse_concat, List.lookup_cons]
  by_cases hkey : key = entry.1
  · simp [hkey]
  · simp [hkey, beq_eq_false_iff_ne.mpr hkey]

/-- A key is read as the last entry of it, or as before if there is none. -/
theorem writeAll_apply (store : Key → Option Value) (entries : List (Key × Value)) (key : Key) :
    writeAll store entries key = (latest entries key).or (store key) := by
  induction entries using List.reverseRecOn with
  | nil => rfl
  | append_singleton entries entry ih =>
    rw [writeAll_snoc, latest_snoc]
    by_cases hkey : key = entry.1
    · rw [if_pos hkey, hkey]
      exact write_self ..
    · rw [if_neg hkey, write_of_ne hkey, ih]

/-- Where no two slots have one key, the store of the keys is the store of the
slots under their keys. -/
theorem writeAll_comp {key : Slot → Key} (hkey : Function.Injective key)
    (store : Key → Option Value) (entries : List (Slot × Value)) :
    (fun slot => writeAll store (entries.map (Prod.map key id)) (key slot)) =
      writeAll (fun slot => store (key slot)) entries := by
  induction entries using List.reverseRecOn with
  | nil => rfl
  | append_singleton entries entry ih =>
    rw [List.map_append, List.map_singleton, writeAll_snoc, writeAll_snoc, ← ih]
    exact Function.update_comp_eq_of_injective _ hkey _ _

theorem writeAll_key {key : Slot → Key} (hkey : Function.Injective key)
    (entries : List (Slot × Value)) (slot : Slot) :
    writeAll (fun _ => none) (entries.map (Prod.map key id)) (key slot) = latest entries slot := by
  have hslots := congrFun (writeAll_comp hkey (fun _ => none) entries) slot
  have hread := writeAll_apply (fun _ => none) entries slot
  rw [Option.or_none] at hread
  exact hslots.trans hread

end KeyedStore
