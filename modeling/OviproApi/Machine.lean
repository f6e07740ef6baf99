import Mathlib.Data.List.Forall2
import Mathlib.Data.List.Induction

/-! Runs of a machine whose actions are taken one after the other, and
invariants of the runs in which every action is taken in an allowed state; runs
of a step that hands its work on to the next step until nothing is left. -/

structure Machine (State Action : Type) where
  init : State
  step : State → Action → Option State

namespace Machine
variable {State Action : Type} {m : Machine State Action}

/-- The state after the actions, `none` if one of them cannot be taken. -/
def run (m : Machine State Action) (actions : List Action) : Option State :=
  actions.foldlM m.step m.init

/-- Every action of the run is taken in a state in which `P` allows it. -/
def Always (m : Machine State Action) (P : State → Action → Prop) (actions : List Action) : Prop :=
  ∀ taken action rest, actions = taken ++ action :: rest → ∀ s, m.run taken = some s → P s action

theorem run_snoc (actions : List Action) (action : Action) :
    m.run (actions ++ [action]) = (m.run actions).bind fun s => m.step s action := by
  unfold run
  rw [List.foldlM_append]
  cases h : List.foldlM m.step m.init actions with
  | none => rfl
  | some s =>
    show (m.step s action >>= pure) = m.step s action
    exact bind_pure _

theorem Always.of_append {P : State → Action → Prop} {taken rest : List Action}
    (h : m.Always P (taken ++ rest)) : m.Always P taken := by
  rintro before action after rfl
  exact h before action (after ++ rest) (by simp)

theorem always_mono {P Q : State → Action → Prop} {actions : List Action} (h : m.Always P actions)
    (himp : ∀ taken rest s action, actions = taken ++ action :: rest → m.run taken = some s →
      P s action → Q s action) : m.Always Q actions :=
  fun taken action rest hactions s hs =>
    himp taken rest s action hactions hs (h taken action rest hactions s hs)

/-- What holds initially and is kept by every allowed action holds after every
run of allowed actions. -/
theorem invariant {I : State → Prop} {P : State → Action → Prop} (hinit : I m.init)
    (hstep : ∀ s action s', I s → P s action → m.step s action = some s' → I s')
    {actions : List Action} (h : m.Always P actions) {s : State} (hrun : m.run actions = some s) :
    I s := by
  induction actions using List.reverseRecOn generalizing s with
  | nil =>
    cases hrun
    exact hinit
  | append_singleton actions action ih =>
    rw [run_snoc] at hrun
    obtain ⟨before, hbefore, htaken⟩ := Option.bind_eq_some_iff.mp hrun
    have hI := ih h.of_append hbefore
    have hP := h actions action [] rfl before hbefore
    exact hstep before action s hI hP htaken

/-- What holds initially and is carried along by every action holds of the actions
of a run and the state that it ends in. -/
theorem run_induction {I : List Action → State → Prop} (hinit : I [] m.init)
    (hstep : ∀ actions s action s', I actions s → m.step s action = some s' →
      I (actions ++ [action]) s')
    {actions : List Action} {s : State} (hrun : m.run actions = some s) : I actions s := by
  induction actions using List.reverseRecOn generalizing s with
  | nil =>
    cases hrun
    exact hinit
  | append_singleton actions action ih =>
    rw [run_snoc] at hrun
    obtain ⟨before, hbefore, htaken⟩ := Option.bind_eq_some_iff.mp hrun
    exact hstep actions before action s (ih hbefore) htaken

theorem run_cons (action : Action) (rest : List Action) {s : State}
    (h : m.step m.init action = some s) :
    m.run (action :: rest) = { m with init := s }.run rest := by
  unfold run
  rw [List.foldlM_cons, h]
  rfl

/-- What follows on a run is a run from where that one has ended. -/
theorem run_append {taken : List Action} {s : State} (h : m.run taken = some s)
    (rest : List Action) : m.run (taken ++ rest) = { m with init := s }.run rest := by
  unfold run at h ⊢
  rw [List.foldlM_append, h]
  rfl

end Machine

section
variable {State Output Item ε : Type}

/-- The step is repeated on the state that it hands on, and what it puts out is
collected, until it stops. -/
inductive Unfolds (step : State → Except ε (Option (Output × State))) : State → List Output → Prop
  | stop {s : State} (h : step s = .ok none) : Unfolds step s []
  | emit {s s' : State} {output : Output} {outputs : List Output}
      (h : step s = .ok (some (output, s'))) (hrest : Unfolds step s' outputs) :
      Unfolds step s (output :: outputs)

variable {step : State → Except ε (Option (Output × State))}

theorem Unfolds.unique {s : State} {outputs outputs' : List Output} (h : Unfolds step s outputs)
    (h' : Unfolds step s outputs') : outputs = outputs' := by
  induction h generalizing outputs' with
  | stop hstep =>
    cases h' with
    | stop => rfl
    | emit hstep' =>
      rw [hstep] at hstep'
      cases hstep'
  | emit hstep hrest ih =>
    cases h' with
    | stop hstep' =>
      rw [hstep] at hstep'
      cases hstep'
    | emit hstep' hrest' =>
      rw [hstep] at hstep'
      cases hstep'
      rw [ih hrest']

/-- A step that takes the first pending item and leaves the others takes every
item once, in order, and then stops. -/
theorem Unfolds.of_pending {I : State → Prop} {pending : State → List Item}
    {R : Output → Item → Prop} (hstop : ∀ s, I s → pending s = [] → step s = .ok none)
    (hemit : ∀ s item items, I s → pending s = item :: items →
      ∃ output s', step s = .ok (some (output, s')) ∧ R output item ∧ pending s' = items ∧ I s')
    (s : State) (hs : I s) : ∃ outputs, Unfolds step s outputs ∧ outputs.Forall₂ R (pending s) := by
  generalize hitems : pending s = items
  induction items generalizing s with
  | nil => exact ⟨[], .stop (hstop s hs hitems), .nil⟩
  | cons item items ih =>
    obtain ⟨output, s', hstep, hR, hpending, hs'⟩ := hemit s item items hs hitems
    obtain ⟨outputs, hrest, houtputs⟩ := ih s' hs' hpending
    exact ⟨output :: outputs, .emit hstep hrest, .cons hR houtputs⟩

end
