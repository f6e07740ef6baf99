import OviproApi.ConnectionFactory

/-! What the calls of `getConnection` end with, whether or not they overlap: where
their connections and their errors come from, that a filled cache serves every
later call, and that no call waits for another one. -/

namespace Ovipro.ConnectionFactory
variable {Connection : Type}

/-- Some call's `createConnection` has succeeded with it, and the call has resumed. -/
def Stored (actions : List (Action Connection)) (c : Connection) : Prop :=
  ∃ i, .settle i (.ok c) ∈ actions ∧ .resume i ∈ actions

/-- A call has the result or the error of its own `createConnection`, or a
connection that was stored. -/
def Explained (actions : List (Action Connection)) (i : Nat) : Call Connection → Prop
  | .pending => True
  | .settled result => .settle i result ∈ actions
  | .rejected e => .settle i (.error e) ∈ actions
  | .obtained c => Stored actions c

/-- Every call of the actions has its place, and what it has is explained by them. -/
structure History (actions : List (Action Connection)) (s : State Connection) : Prop where
  length : s.calls.length = actions.countP fun action => action matches .getConnection
  call : ∀ i call, s.calls[i]? = some call → Explained actions i call
  cached : ∀ c, s.cachedConnection = some c → Stored actions c

theorem Stored.append {actions : List (Action Connection)} {c : Connection}
    (h : Stored actions c) (action : Action Connection) : Stored (actions ++ [action]) c := by
  obtain ⟨i, hsettle, hresume⟩ := h
  exact ⟨i, List.mem_append_left _ hsettle, List.mem_append_left _ hresume⟩

theorem Explained.append {actions : List (Action Connection)} {i : Nat} {call : Call Connection}
    (h : Explained actions i call) (action : Action Connection) :
    Explained (actions ++ [action]) i call := by
  cases call with
  | pending => exact trivial
  | settled result => exact List.mem_append_left _ h
  | rejected e => exact List.mem_append_left _ h
  | obtained c => exact Stored.append h action

theorem History.cached_append {actions : List (Action Connection)} {s : State Connection}
    (h : History actions s) (action : Action Connection) :
    ∀ c, s.cachedConnection = some c → Stored (actions ++ [action]) c :=
  fun c hc => (h.cached c hc).append action

/-- A new call stands at the end. -/
theorem History.call_append {actions : List (Action Connection)} {s : State Connection}
    (h : History actions s) (action : Action Connection) {new : Call Connection}
    (hnew : ∀ i, Explained (actions ++ [action]) i new) :
    ∀ i call, (s.calls ++ [new])[i]? = some call → Explained (actions ++ [action]) i call := by
  intro i call hi
  rw [List.getElem?_append] at hi
  split at hi
  · exact (h.call i call hi).append action
  · obtain rfl : call = new := List.mem_singleton.mp (List.mem_of_getElem? hi)
    exact hnew i

/-- A call that moves on keeps its place. -/
theorem History.call_set {actions : List (Action Connection)} {s : State Connection}
    (h : History actions s) (action : Action Connection) {i : Nat} {new : Call Connection}
    (hnew : Explained (actions ++ [action]) i new) :
    ∀ j call, (s.calls.set i new)[j]? = some call → Explained (actions ++ [action]) j call := by
  intro j call hj
  rw [List.getElem?_set] at hj
  split at hj
  · rename_i hij
    subst hij
    split at hj
    · cases hj
      exact hnew
    · cases hj
  · exact (h.call j call hj).append action

theorem history_init : History [] (factory Connection).init where
  length := rfl
  call := by simp [factory]
  cached := by simp [factory]

theorem history_step {actions : List (Action Connection)} {s s' : State Connection}
    {action : Action Connection} (h : History actions s) (hstep : step s action = some s') :
    History (actions ++ [action]) s' := by
  have hlast : action ∈ actions ++ [action] := by simp
  have hcached := h.cached_append action
  cases step_cases hstep with
  | warm c hc =>
    refine ⟨?_, h.call_append _ fun _ => hcached c hc, hcached⟩
    simp [h.length]
  | cold hnone =>
    refine ⟨?_, h.call_append _ fun _ => trivial, hcached⟩
    simp [h.length]
  | settle i result hi =>
    refine ⟨?_, h.call_set _ hlast, hcached⟩
    simp [h.length]
  | store i c hi =>
    -- the result was the call's own, and it resumes now
    have hstored : Stored (actions ++ [.resume i]) c :=
      ⟨i, List.mem_append_left _ (h.call i _ hi), hlast⟩
    refine ⟨?_, h.call_set _ hstored, ?_⟩
    · simp [h.length]
    · rintro c' ⟨⟩
      exact hstored
  | reject i e hi =>
    refine ⟨?_, h.call_set _ (List.mem_append_left _ (h.call i _ hi)), hcached⟩
    simp [h.length]

/-- However the calls overlap: each has its place, an error is that of the call's
own `createConnection`, and a connection, obtained or cached, is one with which
the `createConnection` of a call has succeeded before. -/
theorem history_of_run (actions : List (Action Connection)) (s : State Connection)
    (hrun : (factory Connection).run actions = some s) : History actions s :=
  Machine.run_induction history_init (fun _ _ _ _ h hstep => history_step h hstep) hrun

theorem history_of_run_overlappingCalls :
    Stored overlappingCalls 1 ∧ Stored overlappingCalls 2 := by
  have hhistory := history_of_run overlappingCalls ⟨some 2, [.obtained 1, .obtained 2]⟩ rfl
  exact ⟨hhistory.call 0 (.obtained 1) rfl, hhistory.call 1 (.obtained 2) rfl⟩

/-! A filled cache. -/

/-- Since a state with so many calls the cache is filled, and every later call has
obtained a connection. -/
structure Served (n : Nat) (s : State Connection) : Prop where
  cached : s.cachedConnection.isSome = true
  calls : ∀ i, n ≤ i → ∀ call, s.calls[i]? = some call → ∃ c, call = .obtained c

theorem Served.step {n : Nat} {s s' : State Connection} {action : Action Connection}
    (h : Served n s) (hstep : ConnectionFactory.step s action = some s') : Served n s' := by
  -- a call that moves on is not one of the later ones, which have all obtained
  have hset : ∀ {i : Nat} {call : Call Connection} (new : Call Connection),
      s.calls[i]? = some call → (∀ c, call ≠ .obtained c) →
      ∀ j, n ≤ j → ∀ call', (s.calls.set i new)[j]? = some call' → ∃ c, call' = .obtained c := by
    intro i call new hi hnot j hj call' hcall'
    by_cases hij : i = j
    · subst hij
      obtain ⟨c, hc⟩ := h.calls i hj call hi
      exact absurd hc (hnot c)
    · rw [List.getElem?_set_ne hij] at hcall'
      exact h.calls j hj call' hcall'
  cases step_cases hstep with
  | warm c hc =>
    refine ⟨h.cached, fun i hi call hcall => ?_⟩
    rw [List.getElem?_append] at hcall
    split at hcall
    · exact h.calls i hi call hcall
    · exact ⟨c, List.mem_singleton.mp (List.mem_of_getElem? hcall)⟩
  | cold hnone =>
    have hsome := h.cached
    rw [hnone] at hsome
    cases hsome
  | settle i result hi => exact ⟨h.cached, hset _ hi (fun _ => nofun)⟩
  | store i c hi => exact ⟨rfl, hset _ hi (fun _ => nofun)⟩
  | reject i e hi => exact ⟨h.cached, hset _ hi (fun _ => nofun)⟩

/-- Once a connection is cached, the cache stays filled and every call that is
started from then on obtains a connection without creating one, even if calls
from before still fail or store others. -/
theorem served_of_cached (taken rest : List (Action Connection)) (s s' : State Connection)
    (htaken : (factory Connection).run taken = some s) (hcached : s.cachedConnection ≠ none)
    (hrun : (factory Connection).run (taken ++ rest) = some s') : Served s.calls.length s' := by
  rw [Machine.run_append htaken] at hrun
  refine Machine.run_induction (I := fun _ => Served s.calls.length) ?_ ?_ hrun
  · refine ⟨Option.isSome_iff_ne_none.mpr hcached, fun i hi call hcall => ?_⟩
    have hlt := (List.getElem?_eq_some_iff.mp hcall).1
    exact absurd hi (Nat.not_le.mpr hlt)
  · exact fun _ _ _ _ h hstep => h.step hstep

/-- A connection is stored by the first call while the second one still waits; the
third call is served, though the second one fails. -/
theorem served_of_cached_warm :
    ∃ s, (factory Nat).run ([.getConnection, .getConnection, .settle 0 (.ok 1), .resume 0] ++
        [.getConnection, .settle 1 (.error "timeout"), .resume 1]) = some s ∧ Served 2 s :=
  ⟨_, rfl, served_of_cached [.getConnection, .getConnection, .settle 0 (.ok 1), .resume 0]
    [.getConnection, .settle 1 (.error "timeout"), .resume 1] _ _ rfl (by simp) rfl⟩

/-! The end of the calls. -/

def Call.finish (result : Except String Connection) : Call Connection → Call Connection
  | pending => match result with
    | .ok c => .obtained c
    | .error e => .rejected e
  | settled (.ok c) => .obtained c
  | settled (.error e) => .rejected e
  | call => call

/-- A step of call `i` alone: its `createConnection` ends with the result, or it
resumes. -/
def OfCall (result : Nat → Except String Connection) (i : Nat) (action : Action Connection) : Prop :=
  action = .settle i (result i) ∨ action = .resume i

/-- Call `i` has come to its end, and the others are as they were. -/
def Finishes (result : Nat → Except String Connection) (order : List Nat)
    (s s' : State Connection) : Prop :=
  ∀ j, s'.calls[j]? = s.calls[j]?.map (if j ∈ order then Call.finish (result j) else id)

theorem finishes_of_same {result : Nat → Except String Connection} {s : State Connection} {i : Nat}
    (h : ∀ call, s.calls[i]? = some call → call.finish (result i) = call) :
    Finishes result [i] s s := by
  intro j
  by_cases hj : j = i
  · subst hj
    cases hcall : s.calls[j]? with
    | none => rfl
    | some call => simp [h call hcall]
  · simp [hj]

theorem finishes_of_set {result : Nat → Except String Connection} {s s' : State Connection}
    {i : Nat} {call : Call Connection} (h : s.calls[i]? = some call)
    (h' : s'.calls = s.calls.set i (call.finish (result i))) : Finishes result [i] s s' := by
  intro j
  rw [h', List.getElem?_set]
  by_cases hj : i = j
  · subst hj
    rw [if_pos rfl, if_pos (List.getElem?_eq_some_iff.mp h).1, h]
    simp
  · simp [hj, Ne.symm hj]

/-- A settled call resumes, whatever the others are waiting for. -/
theorem resume_settled {s : State Connection} {i : Nat} {result : Except String Connection}
    (h : s.calls[i]? = some (.settled result)) :
    ∃ s', step s (.resume i) = some s' ∧ s'.calls = s.calls.set i (Call.finish result .pending) := by
  cases result with
  | ok c => exact ⟨⟨some c, s.calls.set i (.obtained c)⟩, by simp [step, resume, h], rfl⟩
  | error e => exact ⟨{ s with calls := s.calls.set i (.rejected e) }, by simp [step, resume, h], rfl⟩

/-- Every call can come to its end by steps of its own. -/
theorem finish_call (result : Nat → Except String Connection) (s : State Connection) (i : Nat) :
    ∃ rest s', (∀ action ∈ rest, OfCall result i action) ∧
      { factory Connection with init := s }.run rest = some s' ∧ Finishes result [i] s s' := by
  cases hi : s.calls[i]? with
  | none => exact ⟨[], s, by simp, rfl, finishes_of_same (by simp [hi])⟩
  | some call =>
    cases call with
    | pending =>
      have hlt := (List.getElem?_eq_some_iff.mp hi).1
      have hsettle : step s (.settle i (result i)) =
          some { s with calls := s.calls.set i (.settled (result i)) } := by
        simp [step, settle, hi]
      have hsettled : (s.calls.set i (.settled (result i)))[i]? = some (.settled (result i)) :=
        List.getElem?_set_self hlt
      obtain ⟨s', hresume, hcalls⟩ := @resume_settled _
        { s with calls := s.calls.set i (.settled (result i)) } i _ hsettled
      refine ⟨[.settle i (result i), .resume i], s', ?_, ?_, ?_⟩
      · simp [OfCall]
      · rw [Machine.run_cons _ _ hsettle, Machine.run_cons _ _ hresume]
        rfl
      · rw [List.set_set] at hcalls
        exact finishes_of_set hi hcalls
    | settled settledResult =>
      obtain ⟨s', hresume, hcalls⟩ := resume_settled hi
      have hfinish : Call.finish settledResult .pending =
          Call.finish (result i) (.settled settledResult) := by
        cases settledResult <;> rfl
      refine ⟨[.resume i], s', by simp [OfCall], ?_, ?_⟩
      · rw [Machine.run_cons _ _ hresume]
        rfl
      · rw [hfinish] at hcalls
        exact finishes_of_set hi hcalls
    | obtained c => exact ⟨[], s, by simp, rfl, finishes_of_same (by simp [hi, Call.finish])⟩
    | rejected e => exact ⟨[], s, by simp, rfl, finishes_of_same (by simp [hi, Call.finish])⟩

theorem Call.finish_finish (result : Except String Connection) (call : Call Connection) :
    (call.finish result).finish result = call.finish result := by
  cases call with
  | pending => cases result <;> rfl
  | settled settledResult => cases settledResult <;> rfl
  | obtained c => rfl
  | rejected e => rfl

theorem Finishes.trans {result : Nat → Except String Connection} {i : Nat} {order : List Nat}
    {s s' s'' : State Connection} (h : Finishes result [i] s s') (h' : Finishes result order s' s'') :
    Finishes result (i :: order) s s'' := by
  intro j
  rw [h' j, h j, Option.map_map]
  congr 1
  funext call
  by_cases hi : j = i
  · subst hi
    by_cases hj : j ∈ order <;> simp [hj, Call.finish_finish]
  · by_cases hj : j ∈ order <;> simp [hi, hj]

/-- No call waits for another one: from every state that a run has reached, with
any outcomes of the `createConnection` that are pending, any of the calls can come
to their ends in any order, each with its own outcome and without a further call. -/
theorem calls_finish (actions : List (Action Connection)) (s : State Connection)
    (hrun : (factory Connection).run actions = some s) (result : Nat → Except String Connection)
    (order : List Nat) :
    ∃ rest s', (∀ action ∈ rest, ∃ i ∈ order, OfCall result i action) ∧
      (factory Connection).run (actions ++ rest) = some s' ∧ Finishes result order s s' := by
  induction order generalizing actions s with
  | nil =>
    refine ⟨[], s, by simp, by rwa [List.append_nil], fun j => ?_⟩
    simp
  | cons i order ih =>
    obtain ⟨first, s', hfirst, hreach, hfinishes⟩ := finish_call result s i
    have hrun' : (factory Connection).run (actions ++ first) = some s' := by
      rw [Machine.run_append hrun]
      exact hreach
    obtain ⟨others, s'', hothers, hrun'', hfinishes'⟩ := ih (actions ++ first) s' hrun'
    refine ⟨first ++ others, s'', ?_, ?_, hfinishes.trans hfinishes'⟩
    · intro action haction
      rcases List.mem_append.mp haction with hmem | hmem
      · exact ⟨i, List.mem_cons_self .., hfirst action hmem⟩
      · obtain ⟨j, hj, hcall⟩ := hothers action hmem
        exact ⟨j, List.mem_cons_of_mem _ hj, hcall⟩
    · rw [← List.append_assoc]
      exact hrun''

theorem calls_finish_reversed :
    ∃ rest s', (∀ action ∈ rest, ∃ i ∈ [1, 0], OfCall (fun i => .ok i) i action) ∧
      (factory Nat).run ([.getConnection, .getConnection] ++ rest) = some s' ∧
      Finishes (fun i => .ok i) [1, 0] ⟨none, [.pending, .pending]⟩ s' :=
  calls_finish [.getConnection, .getConnection] _ rfl (fun i => .ok i) [1, 0]

end Ovipro.ConnectionFactory
