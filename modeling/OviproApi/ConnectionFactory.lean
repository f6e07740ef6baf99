import OviproApi.Machine

/-! The connection that `getConnection` caches, under calls that interleave at
their `await`. -/

namespace Ovipro.ConnectionFactory

/-- A call of `getConnection`: its `createConnection` is pending or settled,
or the call has obtained a connection or was rejected. -/
inductive Call (Connection : Type)
  | pending
  | settled (result : Except String Connection)
  | obtained (connection : Connection)
  | rejected (error : String)

structure State (Connection : Type) where
  cachedConnection : Option Connection
  calls : List (Call Connection)

/-- A new call runs up to its `await`, a pending `createConnection` settles, or
a call resumes after its `await`. -/
inductive Action (Connection : Type)
  | getConnection
  | settle (i : Nat) (result : Except String Connection)
  | resume (i : Nat)

section
variable {Connection : Type}

def start (s : State Connection) : State Connection :=
  match s.cachedConnection with
  | some connection => { s with calls := s.calls ++ [.obtained connection] }
  -- nothing is cached before the call resumes, so the next one gets here as well
  | none => { s with calls := s.calls ++ [.pending] }

def settle (s : State Connection) (i : Nat) (result : Except String Connection) :
    Option (State Connection) :=
  match s.calls[i]? with
  | some .pending => some { s with calls := s.calls.set i (.settled result) }
  | _ => none

def resume (s : State Connection) (i : Nat) : Option (State Connection) :=
  match s.calls[i]? with
  | some (.settled (.ok connection)) =>
    some { cachedConnection := some connection, calls := s.calls.set i (.obtained connection) }
  | some (.settled (.error e)) => some { s with calls := s.calls.set i (.rejected e) }
  | _ => none

def step (s : State Connection) : Action Connection → Option (State Connection)
  | .getConnection => some (start s)
  | .settle i result => settle s i result
  | .resume i => resume s i

def factory (Connection : Type) : Machine (State Connection) (Action Connection) where
  init := ⟨none, []⟩
  step := step

/-- Its `createConnection` is pending, or has succeeded and is not yet cached. -/
def Call.inFlight : Call Connection → Bool
  | pending => true
  | settled (.ok _) => true
  | _ => false

/-- Its `createConnection` is pending or has succeeded, or it has got the
connection of one that has. -/
def Call.blocks : Call Connection → Bool
  | pending => true
  | settled (.ok _) => true
  | obtained _ => true
  | _ => false

/-- The action starts no `createConnection`, or none is pending and none has
succeeded. -/
def StartsAlone (s : State Connection) (action : Action Connection) : Prop :=
  action = .getConnection → s.cachedConnection = none → ∀ call ∈ s.calls, call.blocks = false

def SingleConnection (actions : List (Action Connection)) : Prop :=
  (factory Connection).Always StartsAlone actions ∧
    ∀ s, (factory Connection).run actions = some s →
      ∀ c c', Call.obtained c ∈ s.calls → Call.obtained c' ∈ s.calls → c = c'

/-- No call on an empty cache overlaps with another one that is on its way to
fill it. -/
def ColdCallAlone (s : State Connection) (action : Action Connection) : Prop :=
  action = .getConnection → s.cachedConnection = none → ∀ call ∈ s.calls, call.inFlight = false

/-- All that an action can do. -/
inductive Steps (s : State Connection) : Action Connection → State Connection → Prop
  | warm (c : Connection) (h : s.cachedConnection = some c) :
      Steps s .getConnection { s with calls := s.calls ++ [.obtained c] }
  | cold (h : s.cachedConnection = none) :
      Steps s .getConnection { s with calls := s.calls ++ [.pending] }
  | settle (i : Nat) (result : Except String Connection) (h : s.calls[i]? = some .pending) :
      Steps s (.settle i result) { s with calls := s.calls.set i (.settled result) }
  | store (i : Nat) (c : Connection) (h : s.calls[i]? = some (.settled (.ok c))) :
      Steps s (.resume i) ⟨some c, s.calls.set i (.obtained c)⟩
  | reject (i : Nat) (e : String) (h : s.calls[i]? = some (.settled (.error e))) :
      Steps s (.resume i) { s with calls := s.calls.set i (.rejected e) }

theorem step_cases {s s' : State Connection} {action : Action Connection}
    (h : step s action = some s') : Steps s action s' := by
  cases action with
  | getConnection =>
    cases h
    unfold start
    split
    · rename_i c hc
      exact .warm c hc
    · rename_i hc
      exact .cold hc
  | settle i result =>
    simp only [step, ConnectionFactory.settle] at h
    split at h
    · rename_i hi
      cases h
      exact .settle i result hi
    · cases h
  | resume i =>
    simp only [step, ConnectionFactory.resume] at h
    split at h
    · rename_i c hi
      cases h
      exact .store i c hi
    · rename_i e hi
      cases h
      exact .reject i e hi
    · cases h

def flights (s : State Connection) : Nat := s.calls.countP Call.inFlight

/-- At most one call is on its way to fill the cache, none once it is filled,
and whoever has a connection has the cached one. -/
structure Single (s : State Connection) : Prop where
  flights : flights s ≤ 1
  cold : ∀ c, Call.obtained c ∈ s.calls → s.cachedConnection = some c
  warm : s.cachedConnection ≠ none → ConnectionFactory.flights s = 0

theorem flights_append (s : State Connection) (call : Call Connection) :
    flights { s with calls := s.calls ++ [call] } = flights s + call.inFlight.toNat := by
  unfold flights
  rw [List.countP_append]
  cases hflight : call.inFlight <;> simp [hflight]

theorem flights_pos {s : State Connection} {i : Nat} {call : Call Connection}
    (h : s.calls[i]? = some call) (hflight : call.inFlight = true) : 0 < flights s :=
  List.countP_pos_iff.mpr ⟨call, List.mem_of_getElem? h, hflight⟩

/-- The count after one call has moved on to another phase. -/
theorem flights_set {s : State Connection} {i : Nat} {call : Call Connection}
    (h : s.calls[i]? = some call) (cached : Option Connection) (call' : Call Connection) :
    flights ⟨cached, s.calls.set i call'⟩ + call.inFlight.toNat =
      flights s + call'.inFlight.toNat := by
  have hpos := flights_pos h
  obtain ⟨hi, rfl⟩ := List.getElem?_eq_some_iff.mp h
  unfold flights at hpos ⊢
  rw [List.countP_set hi]
  cases hflight : s.calls[i].inFlight with
  | true =>
    have hlt := hpos hflight
    cases call'.inFlight <;> simp <;> omega
  | false => cases call'.inFlight <;> simp

theorem mem_append {calls : List (Call Connection)} {call : Call Connection} {c : Connection}
    (hmem : Call.obtained c ∈ calls ++ [call]) : Call.obtained c ∈ calls ∨ call = .obtained c :=
  (List.mem_append.mp hmem).imp_right fun h => (List.mem_singleton.mp h).symm

theorem mem_set {calls : List (Call Connection)} {i : Nat} {call : Call Connection} {c : Connection}
    (hmem : Call.obtained c ∈ calls.set i call) : Call.obtained c ∈ calls ∨ call = .obtained c :=
  (List.mem_or_eq_of_mem_set hmem).imp_right Eq.symm

theorem single_init : Single (factory Connection).init where
  flights := Nat.zero_le 1
  cold := by simp [factory]
  warm := by simp [factory]

theorem Single.warm_call {s : State Connection} (h : Single s) {c : Connection}
    (hc : s.cachedConnection = some c) :
    Single { s with calls := s.calls ++ [.obtained c] } := by
  have hflights : ConnectionFactory.flights { s with calls := s.calls ++ [.obtained c] } =
      ConnectionFactory.flights s := flights_append s (.obtained c)
  refine ⟨hflights ▸ h.flights, fun c' hmem => ?_, fun hne => hflights ▸ h.warm hne⟩
  rcases mem_append hmem with hold | heq
  · exact h.cold c' hold
  · cases heq
    exact hc

theorem Single.cold_call {s : State Connection} (h : Single s) (hnone : s.cachedConnection = none)
    (halone : ∀ call ∈ s.calls, call.inFlight = false) :
    Single { s with calls := s.calls ++ [.pending] } := by
  have hzero : ConnectionFactory.flights s = 0 :=
    List.countP_eq_zero.mpr fun call hcall => by simp [halone call hcall]
  have hflights := flights_append s .pending
  rw [hzero] at hflights
  refine ⟨Nat.le_of_eq hflights, fun c hmem => ?_, fun hne => absurd hnone hne⟩
  rcases mem_append hmem with hold | heq
  · exact h.cold c hold
  · cases heq

theorem Single.settled {s : State Connection} (h : Single s) {i : Nat}
    (hi : s.calls[i]? = some .pending) (result : Except String Connection) :
    Single { s with calls := s.calls.set i (.settled result) } := by
  have hpos := flights_pos hi rfl
  have hcount := flights_set hi s.cachedConnection (.settled result)
  have hle := h.flights
  have hbit := Bool.toNat_le (Call.settled result).inFlight
  have hone : (Call.pending : Call Connection).inFlight.toNat = 1 := rfl
  refine ⟨by omega, fun c hmem => ?_, fun hne => ?_⟩
  · rcases mem_set hmem with hold | heq
    · exact h.cold c hold
    · cases heq
  · have hzero := h.warm hne
    omega

theorem Single.stored {s : State Connection} (h : Single s) {i : Nat} {c : Connection}
    (hi : s.calls[i]? = some (.settled (.ok c))) :
    Single ⟨some c, s.calls.set i (.obtained c)⟩ := by
  have hpos := flights_pos hi rfl
  have hcount := flights_set hi (some c) (.obtained c)
  have hle := h.flights
  have hone : (Call.settled (.ok c)).inFlight.toNat = 1 := rfl
  have hobtained : (Call.obtained c).inFlight.toNat = 0 := rfl
  have hzero : ConnectionFactory.flights ⟨some c, s.calls.set i (.obtained c)⟩ = 0 := by omega
  -- a filled cache leaves no call in flight, but this one is
  have hnone : s.cachedConnection = none := by
    by_contra hne
    have hnot := h.warm hne
    omega
  refine ⟨hzero ▸ Nat.zero_le 1, fun c' hmem => ?_, fun _ => hzero⟩
  rcases mem_set hmem with hold | heq
  · have hsome := h.cold c' hold
    rw [hnone] at hsome
    cases hsome
  · cases heq
    rfl

theorem Single.rejected {s : State Connection} (h : Single s) {i : Nat} {e : String}
    (hi : s.calls[i]? = some (.settled (.error e))) :
    Single { s with calls := s.calls.set i (.rejected e) } := by
  have hflights : ConnectionFactory.flights { s with calls := s.calls.set i (.rejected e) } =
      ConnectionFactory.flights s := flights_set hi s.cachedConnection (.rejected e)
  refine ⟨hflights ▸ h.flights, fun c hmem => ?_, fun hne => hflights ▸ h.warm hne⟩
  rcases mem_set hmem with hold | heq
  · exact h.cold c hold
  · cases heq

/-- One allowed action keeps the connection single. -/
theorem single_step {s s' : State Connection} {action : Action Connection} (h : Single s)
    (hcold : ColdCallAlone s action) (hstep : step s action = some s') : Single s' := by
  cases step_cases hstep with
  | warm c hc => exact h.warm_call hc
  | cold hnone => exact h.cold_call hnone (hcold rfl hnone)
  | settle i result hi => exact h.settled hi result
  | store i c hi => exact h.stored hi
  | reject i e hi => exact h.rejected hi

theorem Call.inFlight_of_blocks {call : Call Connection} (h : call.blocks = false) :
    call.inFlight = false := by
  cases call with
  | pending => cases h
  | settled result =>
    cases result with
    | ok c => cases h
    | error e => rfl
  | obtained c => rfl
  | rejected e => rfl

/-- Without a cached connection no call has obtained one, so only calls in
flight can stand in the way of a new one. -/
theorem Single.blocks {s : State Connection} (h : Single s) (hnone : s.cachedConnection = none)
    {call : Call Connection} (hmem : call ∈ s.calls) (hflight : call.inFlight = false) :
    call.blocks = false := by
  cases call with
  | pending => cases hflight
  | settled result =>
    cases result with
    | ok c => cases hflight
    | error e => rfl
  | obtained c =>
    have hsome := h.cold c hmem
    rw [hnone] at hsome
    cases hsome
  | rejected e => rfl

theorem single_of_run {actions : List (Action Connection)} {s : State Connection}
    (hcold : (factory Connection).Always ColdCallAlone actions)
    (hrun : (factory Connection).run actions = some s) : Single s := by
  apply Machine.invariant single_init _ hcold hrun
  intro s action s' hs hP hstep
  exact single_step hs hP hstep

/-- A run keeps to a single connection exactly if each of its calls on an empty
cache is alone. -/
theorem singleConnection_iff (actions : List (Action Connection)) :
    SingleConnection actions ↔ (factory Connection).Always ColdCallAlone actions := by
  constructor
  · intro hsingle
    refine Machine.always_mono hsingle.1 ?_
    intro taken rest s action _ _ halone hcall hnone call hmem
    exact Call.inFlight_of_blocks (halone hcall hnone call hmem)
  · intro hcold
    constructor
    · refine Machine.always_mono hcold ?_
      intro taken rest s action hactions hrun halone hcall hnone call hmem
      have htaken : (factory Connection).Always ColdCallAlone taken := (hactions ▸ hcold).of_append
      have hs := single_of_run htaken hrun
      exact hs.blocks hnone hmem (halone hcall hnone call hmem)
    · intro s hrun c c' hc hc'
      have hs := single_of_run hcold hrun
      have hsome := hs.cold c hc
      rw [hs.cold c' hc'] at hsome
      exact (Option.some.inj hsome).symm

end

/-- Two calls before the first `createConnection` has settled. -/
def overlappingCalls : List (Action Nat) :=
  [.getConnection, .getConnection, .settle 0 (.ok 1), .settle 1 (.ok 2), .resume 0, .resume 1]

theorem overlappingCalls_differ :
    ¬ ∀ (Connection : Type) (actions : List (Action Connection)), SingleConnection actions := by
  intro h
  have hrun : (factory Nat).run overlappingCalls =
      some ⟨some 2, [.obtained 1, .obtained 2]⟩ := rfl
  have hsame := (h Nat overlappingCalls).2 _ hrun 1 2 (by simp) (by simp)
  exact absurd hsame (by decide)

end Ovipro.ConnectionFactory
