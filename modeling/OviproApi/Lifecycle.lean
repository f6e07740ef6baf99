import OviproApi.InitChain

/-! The life of the custom resource: over every sequence of requests that may be
made for it, what is answered and which functions are invoked. -/

namespace Ovipro.InitChain

/-- A request to the handler, with the chain that the handler is configured with and
what becomes of its invocations. -/
structure Exchange where
  lambda : InvokeRequest → Except String InvokeResponse
  initChain : Option String
  event : CloudFormationCustomResourceEvent

namespace Exchange

def invoked (x : Exchange) : List InvokeRequest := (handler x.lambda x.initChain x.event).1

def answer (x : Exchange) : Except String CloudFormationCustomResourceResponse :=
  (handler x.lambda x.initChain x.event).2

end Exchange

def Requested (requestType : RequestType) : Prop :=
  requestType = .create ∨ requestType = .update ∨ requestType = .delete

/-- What is documented of a request that follows others: the resource is created,
updated or deleted, and the last two quote the physical id of an earlier answer. -/
structure Follows (earlier : List Exchange) (event : CloudFormationCustomResourceEvent) :
    Prop where
  requested : Requested event.requestType
  quoted : event.requestType ≠ .create → ∃ x ∈ earlier, ∃ response, x.answer = .ok response ∧
    response.physicalResourceId = event.physicalResourceId

/-- Any requests, one after the other. -/
inductive History : List Exchange → Prop
  | start : History []
  | next {earlier : List Exchange} {x : Exchange} (h : History earlier)
      (hx : Follows earlier x.event) : History (earlier ++ [x])

/-- The first entry of a chain that is not blank. -/
def firstEntry (initChain : Option String) : Option String :=
  let entries := ((initChain.getD "").toList.splitOn ',').map trim
  (entries.find? fun entry => entry ≠ []).map String.ofList

/-- A success that is reported for the event, and for the resource that the event is
about if it exists. -/
structure Confirms (event : CloudFormationCustomResourceEvent)
    (response : CloudFormationCustomResourceResponse) : Prop where
  status : response.status = .success
  requestId : response.requestId = event.requestId
  stackId : response.stackId = event.stackId
  logicalResourceId : response.logicalResourceId = event.logicalResourceId
  kept : event.requestType ≠ .create → response.physicalResourceId = event.physicalResourceId

/-- Every request is confirmed, always for the one resource, and the functions that
were invoked are the first ones of the chains, except for deletions. -/
structure Lived (exchanges : List Exchange) : Prop where
  confirmed : ∀ x ∈ exchanges, ∃ response, x.answer = .ok response ∧ Confirms x.event response ∧
    response.physicalResourceId = "DatabaseInitMigrationResource"
  invoked : (exchanges.flatMap fun x => x.invoked.map fun request => request.functionName) =
    exchanges.filterMap fun x =>
      if x.event.requestType = .delete then none else firstEntry x.initChain

theorem head?_chainedArns (initChain : Option String) :
    (chainedArns initChain).head? = firstEntry initChain := by
  have hblank : (fun entry : List Char => decide (entry.length > 0)) =
      fun entry => decide (entry ≠ []) := by
    funext entry
    cases entry <;> rfl
  unfold chainedArns firstEntry
  rw [List.head?_map, List.head?_filter, hblank]

theorem invokeInitChain_names (lambda : InvokeRequest → Except String InvokeResponse)
    (initChain : Option String) :
    ((invokeInitChain lambda initChain).1.map fun request => request.functionName) =
      (firstEntry initChain).toList := by
  rw [← head?_chainedArns]
  cases harns : chainedArns initChain with
  | nil =>
    rw [invokeInitChain_nil harns]
    rfl
  | cons arn childChain =>
    rw [invokeInitChain_cons harns]
    rfl

/-- What is invoked for a request. -/
theorem Exchange.invoked_eq {x : Exchange} (h : Requested x.event.requestType) :
    x.invoked = if x.event.requestType = .delete then []
      else (invokeInitChain x.lambda x.initChain).1 := by
  have hinvoke := @invokeInitChain_ok x.lambda x.initChain
  unfold Exchange.invoked
  rcases h with h | h | h
  · unfold handler onCreate
    simp only [h, hinvoke]
    rfl
  · unfold handler onUpdate
    simp only [h, hinvoke]
    rfl
  · unfold handler
    simp only [h, if_true]

/-- What is answered to a request, whatever becomes of the invocations. -/
theorem Exchange.answer_spec {x : Exchange} (h : Requested x.event.requestType) :
    ∃ response, x.answer = .ok response ∧ Confirms x.event response ∧
      (x.event.requestType = .create →
        response.physicalResourceId = "DatabaseInitMigrationResource") := by
  have hinvoke := @invokeInitChain_ok x.lambda x.initChain
  unfold Exchange.answer
  rcases h with h | h | h
  · unfold handler onCreate
    simp only [h, hinvoke]
    exact ⟨_, rfl, ⟨rfl, rfl, rfl, rfl, fun hne => absurd h hne⟩, fun _ => rfl⟩
  · unfold handler onUpdate
    simp only [h, hinvoke]
    exact ⟨_, rfl, ⟨rfl, rfl, rfl, rfl, fun _ => rfl⟩, nofun⟩
  · unfold handler onDelete
    simp only [h]
    exact ⟨_, rfl, ⟨rfl, rfl, rfl, rfl, fun _ => rfl⟩, nofun⟩

/-- A request that follows confirmed ones is confirmed for the same resource. -/
theorem Lived.confirm {exchanges : List Exchange} (h : Lived exchanges) {x : Exchange}
    (hx : Follows exchanges x.event) :
    ∃ response, x.answer = .ok response ∧ Confirms x.event response ∧
      response.physicalResourceId = "DatabaseInitMigrationResource" := by
  obtain ⟨response, hanswer, hconfirms, hcreate⟩ := Exchange.answer_spec hx.requested
  refine ⟨response, hanswer, hconfirms, ?_⟩
  by_cases htype : x.event.requestType = .create
  · exact hcreate htype
  · -- the id that the event quotes was given by an answer that had the one id
    obtain ⟨y, hy, given, hgiven, hquoted⟩ := hx.quoted htype
    obtain ⟨confirmed, hconfirmed, -, hid⟩ := h.confirmed y hy
    obtain rfl : given = confirmed := Except.ok.inj (hgiven.symm.trans hconfirmed)
    rw [hconfirms.kept htype, ← hquoted, hid]

theorem Lived.next {exchanges : List Exchange} (h : Lived exchanges) {x : Exchange}
    (hx : Follows exchanges x.event) : Lived (exchanges ++ [x]) where
  confirmed := by
    intro y hy
    rcases List.mem_append.mp hy with hy | hy
    · exact h.confirmed y hy
    · rw [List.mem_singleton.mp hy]
      exact h.confirm hx
  invoked := by
    rw [List.flatMap_append, List.filterMap_append, h.invoked, List.flatMap_singleton,
      Exchange.invoked_eq hx.requested]
    congr 1
    by_cases hdelete : x.event.requestType = .delete
    · simp [hdelete]
    · rw [if_neg hdelete, invokeInitChain_names]
      cases hfirst : firstEntry x.initChain <;> simp [hdelete, hfirst]

/-- Whatever requests are made, in any order, and however the invocations end: every
request is confirmed, the resource keeps its one id, so that an update never replaces
it, and the functions that were invoked are the first ones of the chains. -/
theorem history_lived (exchanges : List Exchange) (h : History exchanges) : Lived exchanges := by
  induction h with
  | start => exact ⟨fun _ hx => absurd hx List.not_mem_nil, rfl⟩
  | next _ hx ih => exact ih.next hx

def eventFor (requestType : RequestType) (physicalResourceId : String) :
    CloudFormationCustomResourceEvent :=
  { createEvent with requestType := requestType, physicalResourceId := physicalResourceId }

/-- The resource is created, updated with a rejected invocation, and deleted. -/
def updatedOnce : List Exchange :=
  [⟨fun _ => .ok ⟨none⟩, some " , first, second", createEvent⟩,
    ⟨fun _ => .error "AccessDeniedException", some "third",
      eventFor .update "DatabaseInitMigrationResource"⟩,
    ⟨fun _ => .ok ⟨none⟩, some "third", eventFor .delete "DatabaseInitMigrationResource"⟩]

theorem history_lived_updatedOnce :
    Lived updatedOnce ∧
      (updatedOnce.flatMap fun x => x.invoked.map fun request => request.functionName) =
        ["first", "third"] := by
  have hhistory : History updatedOnce := by
    refine .next (.next (.next .start ⟨Or.inl rfl, fun h => absurd rfl h⟩) ⟨Or.inr (Or.inl rfl), ?_⟩)
      ⟨Or.inr (Or.inr rfl), ?_⟩
    · exact fun _ => ⟨_, List.mem_cons_self, _, rfl, rfl⟩
    · exact fun _ => ⟨_, List.mem_cons_self, _, rfl, rfl⟩
  have hlived := history_lived updatedOnce hhistory
  refine ⟨hlived, ?_⟩
  rw [hlived.invoked]
  decide

end Ovipro.InitChain
