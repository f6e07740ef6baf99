import Mathlib.Data.List.Destutter
import Mathlib.Data.List.ReduceOption
import OviproApi.Lifecycle

/-! The migrations of the database schema. The migrator is invoked through a custom
resource whose only property is made from the number of the migration files. -/

namespace Ovipro.AuroraMigrator
open InitChain

def updateOfCount (count : Nat) : String := "MIGRATION_FILE_COUNT_" ++ toString count

/-- The property `update` of the custom resource. -/
def update (migrationFiles : List String) : String := updateOfCount migrationFiles.length

/-- The service that looks after the custom resource. It knows the property that the
resource is deployed with, and for the property that is wanted, or none if the stack is
deleted, there may be a request that it makes. -/
structure Service (σ : Type) where
  init : σ
  property : σ → Option String
  request : σ → Option String → Option CloudFormationCustomResourceEvent
  answered : σ → Option String → Except String CloudFormationCustomResourceResponse → σ

/-- What is documented of the service. Nothing is requested for a property that stays
the same, and a request has succeeded if it is answered for the resource that it is
about. What is done with a resource that is replaced is left open. -/
structure Service.Documented {σ : Type} (service : Service σ) : Prop where
  init : service.property service.init = none
  unchanged : ∀ s, service.request s (service.property s) = none
  created : ∀ s wanted, service.property s = none → ∃ event,
    service.request s (some wanted) = some event ∧ event.requestType = .create
  updated : ∀ s before wanted, service.property s = some before → before ≠ wanted → ∃ event,
    service.request s (some wanted) = some event ∧ event.requestType = .update
  deleted : ∀ s before, service.property s = some before → ∃ event,
    service.request s none = some event ∧ event.requestType = .delete
  answered : ∀ s wanted event response, service.request s wanted = some event →
    (event.requestType ≠ .create → response.physicalResourceId = event.physicalResourceId) →
    service.property (service.answered s wanted (.ok response)) = wanted

/-- The stack is deployed with its migration files, or deleted; the invocations that
are made on the way may end in any way. -/
structure Action where
  lambda : InvokeRequest → Except String InvokeResponse
  migrationFiles : Option (List String)

structure State (σ : Type) where
  service : σ
  exchanges : List Exchange

section
variable {σ : Type} (service : Service σ) (migratorArn : String)

def step (s : State σ) (action : Action) : State σ :=
  let wanted := action.migrationFiles.map update
  match service.request s.service wanted with
  | none => s
  | some event =>
    let x : Exchange := ⟨action.lambda, some migratorArn, event⟩
    ⟨service.answered s.service wanted x.answer, s.exchanges ++ [x]⟩

def run (actions : List Action) : State σ :=
  actions.foldl (step service migratorArn) ⟨service.init, []⟩

end

/-- The number of migration files of a deployment. -/
def Action.fileCount (action : Action) : Option Nat := action.migrationFiles.map List.length

/-- The deployments whose number of files is not that of the one before, or that come
first or after a deletion. -/
def changes (actions : List Action) : List Nat :=
  ((actions.map Action.fileCount).destutter (· ≠ ·)).reduceOption

/-- The resource is deployed with the number of the last deployment, every request was
confirmed, and the migrator was invoked once for every change. -/
structure Migrated {σ : Type} (service : Service σ) (migratorArn : String) (actions : List Action)
    (s : State σ) : Prop where
  property : service.property s.service = (actions.getLast?.bind Action.fileCount).map
    fun count => "MIGRATION_FILE_COUNT_" ++ toString count
  confirmed : ∀ x ∈ s.exchanges, ∃ response, x.answer = .ok response ∧ Confirms x.event response
  invoked : s.exchanges.flatMap Exchange.invoked =
    (changes actions).map fun _ => ⟨migratorArn, "\x7b\x7d", "Event"⟩

/-! Runs of equal elements. -/

section
variable {α : Type} [DecidableEq α]

theorem destutter'_concat (a b : α) (l : List α) :
    (l ++ [b]).destutter' (· ≠ ·) a =
      if (a :: l).getLast? = some b then l.destutter' (· ≠ ·) a
      else l.destutter' (· ≠ ·) a ++ [b] := by
  induction l generalizing a with
  | nil =>
    by_cases hab : a = b
    · simp [hab]
    · simp [hab]
  | cons x l ih =>
    rw [List.cons_append, List.getLast?_cons_cons]
    by_cases hax : a = x
    · subst hax
      rw [List.destutter'_cons_neg _ (not_not_intro rfl), List.destutter'_cons_neg _ (not_not_intro rfl)]
      exact ih a
    · rw [List.destutter'_cons_pos _ hax, List.destutter'_cons_pos _ hax, ih x]
      split_ifs <;> rfl

theorem destutter_concat (l : List α) (b : α) :
    (l ++ [b]).destutter (· ≠ ·) =
      if l.getLast? = some b then l.destutter (· ≠ ·) else l.destutter (· ≠ ·) ++ [b] := by
  cases l with
  | nil => rfl
  | cons a l => exact destutter'_concat a b l

end

theorem updateOfCount_inj {count count' : Nat} (h : updateOfCount count = updateOfCount count') :
    count = count' := by
  have hdigits : Nat.toDigits 10 count = Nat.toDigits 10 count' := by
    have htexts := congrArg String.toList h
    unfold updateOfCount at htexts
    rw [String.toList_append, String.toList_append] at htexts
    have hrepr : (Nat.repr count).toList = (Nat.repr count').toList :=
      List.append_cancel_left htexts
    rwa [Nat.toList_repr, Nat.toList_repr] at hrepr
  have hvalues := congrArg Ecma.Json.digitsValue hdigits
  rwa [Ecma.Json.digitsValue_toDigits, Ecma.Json.digitsValue_toDigits] at hvalues

theorem changes_concat (actions : List Action) (action : Action) :
    changes (actions ++ [action]) =
      if (actions.map Action.fileCount).getLast? = some action.fileCount then changes actions
      else changes actions ++ action.fileCount.toList := by
  unfold changes
  rw [List.map_append, List.map_singleton, destutter_concat]
  split_ifs
  · rfl
  · rw [List.reduceOption_append]
    cases action.fileCount <;> rfl

theorem changes_of_delete (actions : List Action) {action : Action}
    (h : action.migrationFiles = none) : changes (actions ++ [action]) = changes actions := by
  have hcount : action.fileCount = none := by
    unfold Action.fileCount
    rw [h]
    rfl
  rw [changes_concat, hcount]
  split_ifs
  · rfl
  · exact List.append_nil _

theorem invokeInitChain_migrator {migratorArn : String} (h : IsEntry migratorArn.toList)
    (lambda : InvokeRequest → Except String InvokeResponse) :
    (invokeInitChain lambda (some migratorArn)).1 = [⟨migratorArn, "\x7b\x7d", "Event"⟩] := by
  have harns : chainedArns (some migratorArn) = [migratorArn] := by
    have hjoin : join [migratorArn] = migratorArn := by
      unfold join
      rw [List.map_singleton, List.intercalate_singleton, String.ofList_toList]
    have hchain := chainedArns_join (List.forall_mem_singleton.mpr h)
    rwa [hjoin] at hchain
  rw [invokeInitChain_cons harns]
  rfl

section
variable {σ : Type} {service : Service σ} {migratorArn : String} {actions : List Action}
variable {s : State σ} {action : Action}

theorem step_of_none (h : service.request s.service (action.migrationFiles.map update) = none) :
    step service migratorArn s action = s := by
  unfold step
  simp only [h]

/-- What becomes of a request: it is answered, and then the resource is as it is
wanted. -/
theorem step_of_request (hservice : service.Documented)
    {event : CloudFormationCustomResourceEvent}
    (h : service.request s.service (action.migrationFiles.map update) = some event)
    (hrequested : Requested event.requestType) :
    ∃ x : Exchange, x.event = event ∧ x.initChain = some migratorArn ∧
      (∃ response, x.answer = .ok response ∧ Confirms x.event response) ∧
      (step service migratorArn s action).exchanges = s.exchanges ++ [x] ∧
      service.property (step service migratorArn s action).service =
        action.migrationFiles.map update := by
  obtain ⟨response, hanswer, hconfirms, -⟩ :=
    @Exchange.answer_spec ⟨action.lambda, some migratorArn, event⟩ hrequested
  have hproperty := hservice.answered s.service _ event response h hconfirms.kept
  refine ⟨⟨action.lambda, some migratorArn, event⟩, rfl, rfl, ⟨response, hanswer, hconfirms⟩, ?_, ?_⟩
  · unfold step
    simp only [h]
  · unfold step
    simp only [h, hanswer]
    exact hproperty

/-- The number of the last deployment is the one in the property. -/
theorem Migrated.getLast_fileCount (h : Migrated service migratorArn actions s) (count : Nat) :
    (actions.map Action.fileCount).getLast? = some (some count) ↔
      service.property s.service = some (updateOfCount count) := by
  rw [h.property, List.getLast?_map]
  cases actions.getLast? with
  | none => simp
  | some action =>
    show some action.fileCount = some (some count) ↔ action.fileCount.map updateOfCount = _
    cases action.fileCount with
    | none => simp
    | some last =>
      simp only [Option.map_some, Option.some_inj]
      exact ⟨congrArg updateOfCount, updateOfCount_inj⟩

theorem Migrated.unchanged (h : Migrated service migratorArn actions s)
    (hproperty : service.property s.service = action.migrationFiles.map update) :
    Migrated service migratorArn (actions ++ [action]) s where
  property := by
    rw [List.getLast?_concat, hproperty]
    show _ = (action.migrationFiles.map List.length).map _
    rw [Option.map_map]
    rfl
  confirmed := h.confirmed
  invoked := by
    rw [h.invoked]
    cases hfiles : action.migrationFiles with
    | none => rw [changes_of_delete actions hfiles]
    | some migrationFiles =>
      have hcount : action.fileCount = some migrationFiles.length := by
        unfold Action.fileCount
        rw [hfiles]
        rfl
      rw [hfiles] at hproperty
      rw [changes_concat, hcount,
        if_pos ((h.getLast_fileCount migrationFiles.length).mpr hproperty)]

/-- There is a request for a change, which deletes the resource exactly if the stack is
deleted. -/
theorem Service.Documented.request_of_change (hservice : service.Documented)
    (h : service.property s.service ≠ action.migrationFiles.map update) :
    ∃ event, service.request s.service (action.migrationFiles.map update) = some event ∧
      Requested event.requestType ∧
      (event.requestType = .delete ↔ action.migrationFiles = none) := by
  cases hfiles : action.migrationFiles with
  | none =>
    cases hproperty : service.property s.service with
    | none => exact absurd (hproperty.trans (congrArg (Option.map update) hfiles).symm) h
    | some before =>
      obtain ⟨event, hrequest, htype⟩ := hservice.deleted s.service before hproperty
      exact ⟨event, hrequest, Or.inr (Or.inr htype), iff_of_true htype rfl⟩
  | some migrationFiles =>
    cases hproperty : service.property s.service with
    | none =>
      obtain ⟨event, hrequest, htype⟩ :=
        hservice.created s.service (update migrationFiles) hproperty
      refine ⟨event, hrequest, Or.inl htype, ?_⟩
      rw [htype]
      exact iff_of_false nofun nofun
    | some before =>
      have hne : before ≠ update migrationFiles := by
        rintro rfl
        exact h (hproperty.trans (congrArg (Option.map update) hfiles).symm)
      obtain ⟨event, hrequest, htype⟩ := hservice.updated s.service before _ hproperty hne
      refine ⟨event, hrequest, Or.inr (Or.inl htype), ?_⟩
      rw [htype]
      exact iff_of_false nofun nofun

theorem Migrated.changed (h : Migrated service migratorArn actions s)
    (hservice : service.Documented) (harn : IsEntry migratorArn.toList)
    (hproperty : service.property s.service ≠ action.migrationFiles.map update) :
    Migrated service migratorArn (actions ++ [action]) (step service migratorArn s action) := by
  obtain ⟨event, hrequest, hrequested, hdelete⟩ := hservice.request_of_change hproperty
  obtain ⟨x, rfl, hchain, hconfirmed, hexchanges, hwanted⟩ :=
    step_of_request hservice hrequest hrequested
  constructor
  · rw [hwanted, List.getLast?_concat]
    show _ = (action.migrationFiles.map List.length).map _
    rw [Option.map_map]
    rfl
  · rw [hexchanges]
    intro y hy
    rcases List.mem_append.mp hy with hy | hy
    · exact h.confirmed y hy
    · rw [List.mem_singleton.mp hy]
      exact hconfirmed
  · rw [hexchanges, List.flatMap_append, h.invoked, List.flatMap_singleton,
      Exchange.invoked_eq hrequested, hchain, invokeInitChain_migrator harn]
    cases hfiles : action.migrationFiles with
    | none =>
      rw [if_pos (hdelete.mpr hfiles), List.append_nil, changes_of_delete actions hfiles]
    | some migrationFiles =>
      have hcount : action.fileCount = some migrationFiles.length := by
        unfold Action.fileCount
        rw [hfiles]
        rfl
      have hupdate : ¬ x.event.requestType = .delete := by
        rw [hdelete, hfiles]
        exact nofun
      rw [hfiles] at hproperty
      rw [if_neg hupdate, changes_concat, hcount,
        if_neg (mt (h.getLast_fileCount migrationFiles.length).mp hproperty), List.map_append]
      rfl

theorem migrated_step (hservice : service.Documented) (harn : IsEntry migratorArn.toList)
    (h : Migrated service migratorArn actions s) :
    Migrated service migratorArn (actions ++ [action]) (step service migratorArn s action) := by
  by_cases hproperty : service.property s.service = action.migrationFiles.map update
  · have hrequest := hservice.unchanged s.service
    rw [hproperty] at hrequest
    rw [step_of_none hrequest]
    exact h.unchanged hproperty
  · exact h.changed hservice harn hproperty

end

/-- However the stack is deployed and deleted and whatever becomes of the invocations:
the resource has the number of migration files of the last deployment, and the migrator
has been invoked exactly for the deployments that changed that number. -/
theorem migrations_invoked {σ : Type} (service : Service σ) (migratorArn : String)
    (actions : List Action) (hservice : service.Documented) (harn : IsEntry migratorArn.toList) :
    Migrated service migratorArn actions (run service migratorArn actions) := by
  induction actions using List.reverseRecOn with
  | nil => exact ⟨hservice.init, fun _ hx => absurd hx List.not_mem_nil, rfl⟩
  | append_singleton actions action ih =>
    have hrun : run service migratorArn (actions ++ [action]) =
        step service migratorArn (run service migratorArn actions) action := by
      unfold run
      rw [List.foldl_append]
      rfl
    rw [hrun]
    exact migrated_step hservice harn ih

/-- A service that keeps the property and the physical id of its resource. -/
def sampleService : Service (Option (String × String)) where
  init := none
  property s := s.map (·.1)
  request s wanted :=
    match s, wanted with
    | none, none => none
    | none, some _ => some (eventFor .create "")
    | some (_, id), none => some (eventFor .delete id)
    | some (before, id), some wanted =>
      if before = wanted then none else some (eventFor .update id)
  answered s wanted answer :=
    match answer with
    | .error _ => s
    | .ok response => wanted.map fun property => (property, response.physicalResourceId)

theorem sampleService_documented : sampleService.Documented where
  init := rfl
  unchanged s := by
    cases s with
    | none => rfl
    | some deployed => exact if_pos rfl
  created s wanted h := by
    obtain rfl : s = none := Option.map_eq_none_iff.mp h
    exact ⟨_, rfl, rfl⟩
  updated s before wanted h hne := by
    obtain ⟨deployed, rfl, rfl⟩ := Option.map_eq_some_iff.mp h
    exact ⟨_, if_neg hne, rfl⟩
  deleted s before h := by
    obtain ⟨deployed, rfl, rfl⟩ := Option.map_eq_some_iff.mp h
    exact ⟨_, rfl, rfl⟩
  answered s wanted event response _ _ := by
    cases wanted <;> rfl

/-- A migration is added, another one is edited, and the stack is deployed anew. -/
def migrationHistory : List Action :=
  [⟨fun _ => .ok ⟨none⟩, some ["V1__office.sql"]⟩,
    ⟨fun _ => .error "AccessDeniedException", some ["V1__office.sql", "V2__agent.sql"]⟩,
    ⟨fun _ => .ok ⟨none⟩, some ["V1__office.sql", "V3__agent.sql"]⟩, ⟨fun _ => .ok ⟨none⟩, none⟩,
    ⟨fun _ => .ok ⟨none⟩, some ["V1__office.sql", "V3__agent.sql"]⟩]

theorem migrations_invoked_history :
    Migrated sampleService "migrator" migrationHistory
        (run sampleService "migrator" migrationHistory) ∧
      changes migrationHistory = [1, 2, 2] := by
  have harn : IsEntry "migrator".toList := ⟨by decide, by decide, by decide⟩
  exact ⟨migrations_invoked sampleService "migrator" migrationHistory sampleService_documented harn,
    by decide⟩

end Ovipro.AuroraMigrator
