import Mathlib.Data.List.Induction
import Mathlib.Data.List.Nodup

/-! The aspects of the project, which visit its constructs when it is synthesized: one
gives the functions their log groups, the other one checks the removal policies. In
which order the constructs are visited is left open. -/

namespace Ovipro.Aspects

inductive CfnDeletionPolicy
  | delete
  | retain
  | snapshot
  deriving DecidableEq, Repr

inductive RetentionDays
  | oneWeek
  | oneMonth
  deriving DecidableEq, Repr

inductive RemovalPolicy
  | destroy
  deriving DecidableEq, Repr

structure LogGroupProps where
  logGroupName : String
  retention : RetentionDays
  removalPolicy : RemovalPolicy
  deriving DecidableEq, Repr

/-- The classes of constructs that are told apart. A bucket or a table comes with what
its default child gives for the deletion policy, which may be an error. -/
inductive Kind
  | bucket (deletionPolicy : Except String (Option CfnDeletionPolicy))
  | table (deletionPolicy : Except String (Option CfnDeletionPolicy))
  | cfnFunction (ref : String)
  | logGroup (props : LogGroupProps)
  | other

/-- Of no interest to the aspects. -/
def Kind.Plain : Kind → Prop
  | logGroup _ => True
  | other => True
  | _ => False

/-- The ids from the root to a construct. -/
abbrev Path := List String

/-- The constructs, each with its scope. -/
structure Tree where
  kind : Path → Option Kind
  closed : ∀ path id, (kind (path ++ [id])).isSome → (kind path).isSome

/-- What `EC` and `AC` tell of the place of a construct. -/
structure Place where
  isStable : Bool
  isVerification : Bool
  isProd : Bool
  deriving DecidableEq, Repr

/-- The constructs, and the errors that were added to them. -/
structure App where
  tree : Tree
  errors : List (Path × String)

/-! A new log group, as it is documented of the constructs. -/

/-- Nothing is changed but what is at or below the log group, where nothing is of
interest. -/
structure Added (scope : Path) (props : LogGroupProps) (tree tree' : Tree) : Prop where
  logGroup : tree'.kind (scope ++ ["LogGroup"]) = some (.logGroup props)
  others : ∀ path, ¬ scope ++ ["LogGroup"] <+: path → tree'.kind path = tree.kind path
  below : ∀ path kind, scope ++ ["LogGroup"] <+: path → tree'.kind path = some kind → kind.Plain

/-- The ids of the children of a construct are unique. -/
structure AddsLogGroup (newLogGroup : Path → LogGroupProps → Tree → Except String Tree) :
    Prop where
  taken : ∀ scope props tree, (tree.kind (scope ++ ["LogGroup"])).isSome →
    ∃ e, newLogGroup scope props tree = .error e
  added : ∀ scope props tree, (tree.kind scope).isSome →
    tree.kind (scope ++ ["LogGroup"]) = none →
    ∃ tree', newLogGroup scope props tree = .ok tree' ∧ Added scope props tree tree'

/-! The visits. -/

inductive Aspect
  | lambdaLogGroupConfig
  | resourceRemovalPolicyTester
  deriving DecidableEq, Repr

def logGroupProps (place : Place) (ref : String) : LogGroupProps where
  logGroupName := "/aws/lambda/" ++ ref
  retention := if place.isProd then .oneMonth else .oneWeek
  removalPolicy := .destroy

/-- What is wrong with the deletion policy of a bucket or a table. -/
def policyErrors (id : String) (place : Place) (policy : Option CfnDeletionPolicy) : List String :=
  if place.isStable || place.isVerification then
    if policy = none ∨ ¬ policy ∈ [some .snapshot, some .retain] then
      [s!"Resource '{id}' (S3/Dynamodb) removal policy should be RETAIN or SNAPSHOT in stable envs."]
    else []
  else if policy = none ∨ policy ≠ some .delete then
    [s!"Make sure to define a removal policy for resource '{id}' (S3/Dynamodb) in non-stable envs."]
  else []

section
variable (place : Path → Place) (newLogGroup : Path → LogGroupProps → Tree → Except String Tree)

def LambdaLogGroupConfig.visit (construct : Path) (app : App) : Except String App :=
  match app.tree.kind construct with
  | some (.cfnFunction ref) => do
    let tree ← newLogGroup construct (logGroupProps (place construct) ref) app.tree
    return { app with tree := tree }
  | _ => return app

def ResourceRemovalPolicyTesterAspect.visit (node : Path) (app : App) : Except String App :=
  match app.tree.kind node with
  | some (.bucket deletionPolicy) | some (.table deletionPolicy) => do
    let policy ← deletionPolicy
    let errors := policyErrors (node.getLast?.getD "") (place node) policy
    return { app with errors := app.errors ++ errors.map fun text => (node, text) }
  | _ => return app

def visit (app : App) : Aspect × Path → Except String App
  | (.lambdaLogGroupConfig, construct) => LambdaLogGroupConfig.visit place newLogGroup construct app
  | (.resourceRemovalPolicyTester, node) => ResourceRemovalPolicyTesterAspect.visit place node app

/-- The visits of a synthesis, one after the other. -/
def synth (visits : List (Aspect × Path)) (app : App) : Except String App :=
  visits.foldlM (visit place newLogGroup) app

end

/-! What comes of the visits, by the constructs as they were before. -/

/-- A function has no log group yet, and the deletion policy of a bucket or a table can
be read. -/
def Visitable (tree : Tree) (v : Aspect × Path) : Prop :=
  match v.1, tree.kind v.2 with
  | .lambdaLogGroupConfig, some (.cfnFunction _) => tree.kind (v.2 ++ ["LogGroup"]) = none
  | .resourceRemovalPolicyTester, some (.bucket deletionPolicy) => ∃ policy, deletionPolicy = .ok policy
  | .resourceRemovalPolicyTester, some (.table deletionPolicy) => ∃ policy, deletionPolicy = .ok policy
  | _, _ => True

/-- The error that is told of a deletion policy. -/
def expectedText (id : String) (place : Place) (policy : Option CfnDeletionPolicy) :
    Option String :=
  if place.isStable ∨ place.isVerification then
    if policy = some .retain ∨ policy = some .snapshot then none
    else some ("Resource '" ++ id ++
      "' (S3/Dynamodb) removal policy should be RETAIN or SNAPSHOT in stable envs.")
  else if policy = some .delete then none
  else some ("Make sure to define a removal policy for resource '" ++ id ++
    "' (S3/Dynamodb) in non-stable envs.")

def expectedError (place : Path → Place) (tree : Tree) (v : Aspect × Path) :
    Option (Path × String) :=
  match v.1, tree.kind v.2 with
  | .resourceRemovalPolicyTester, some (.bucket (.ok policy))
  | .resourceRemovalPolicyTester, some (.table (.ok policy)) =>
    (expectedText (v.2.getLast?.getD "") (place v.2) policy).map fun text => (v.2, text)
  | _, _ => none

/-- A function that gets its log group. -/
def Logs (tree : Tree) (visits : List (Aspect × Path)) (f : Path) (ref : String) : Prop :=
  (.lambdaLogGroupConfig, f) ∈ visits ∧ tree.kind f = some (.cfnFunction ref)

/-- Each function that is visited has its log group, everything else is as it was, and
the errors are those of the buckets and tables that are visited. -/
structure Synthesized (place : Path → Place) (tree : Tree) (visits : List (Aspect × Path))
    (app : App) : Prop where
  logGroups : ∀ f ref, Logs tree visits f ref → app.tree.kind (f ++ ["LogGroup"]) =
    some (.logGroup ⟨"/aws/lambda/" ++ ref, if (place f).isProd then .oneMonth else .oneWeek,
      .destroy⟩)
  unchanged : ∀ path, (∀ f ref, Logs tree visits f ref → ¬ f ++ ["LogGroup"] <+: path) →
    app.tree.kind path = tree.kind path
  kept : ∀ path kind, ¬ kind.Plain →
    (app.tree.kind path = some kind ↔ tree.kind path = some kind)
  errors : app.errors = visits.filterMap (expectedError place tree)

theorem Tree.isSome_of_prefix (tree : Tree) {p q : Path} (h : p <+: q)
    (hq : (tree.kind q).isSome) : (tree.kind p).isSome := by
  obtain ⟨ids, rfl⟩ := h
  induction ids using List.reverseRecOn with
  | nil => rwa [List.append_nil] at hq
  | append_singleton ids id ih =>
    rw [← List.append_assoc] at hq
    exact ih (tree.closed _ id hq)

/-- The log groups of two constructs do not contain each other. -/
theorem Tree.not_prefix (tree : Tree) {f g : Path} (hf : (tree.kind f).isSome)
    (hg : tree.kind (g ++ ["LogGroup"]) = none) (hne : g ≠ f) :
    ¬ g ++ ["LogGroup"] <+: f ++ ["LogGroup"] := by
  intro hprefix
  rcases List.prefix_concat_iff.mp hprefix with heq | habove
  · exact hne (List.append_cancel_right heq)
  · have hsome := tree.isSome_of_prefix habove hf
    rw [hg] at hsome
    cases hsome

theorem policyErrors_eq (id : String) (place : Place) (policy : Option CfnDeletionPolicy) :
    policyErrors id place policy = (expectedText id place policy).toList := by
  unfold policyErrors expectedText
  cases place.isStable <;> cases place.isVerification <;>
    rcases policy with _ | _ | _ | _ <;> rfl

section
variable {place : Path → Place} {newLogGroup : Path → LogGroupProps → Tree → Except String Tree}
variable {tree : Tree} {visits : List (Aspect × Path)} {app : App} {v : Aspect × Path}

theorem logs_append {f : Path} {ref : String} (h : Logs tree visits f ref) :
    Logs tree (visits ++ [v]) f ref :=
  ⟨List.mem_append_left _ h.1, h.2⟩

/-- A visit that changes no construct. -/
theorem Synthesized.visited (h : Synthesized place tree visits app)
    (hv : ∀ f ref, Logs tree (visits ++ [v]) f ref → Logs tree visits f ref)
    (errors : List (Path × String)) (herrors : errors = (expectedError place tree v).toList) :
    Synthesized place tree (visits ++ [v]) { app with errors := app.errors ++ errors } where
  logGroups f ref hlogs := h.logGroups f ref (hv f ref hlogs)
  unchanged path hpath := h.unchanged path fun f ref hlogs => hpath f ref (logs_append hlogs)
  kept := h.kept
  errors := by
    rw [List.filterMap_append, h.errors, herrors]
    cases hv : expectedError place tree v <;> simp [hv]

/-- A function that is not visited yet has a log group now exactly if it had one
before. -/
theorem Synthesized.logGroup_eq (h : Synthesized place tree visits app)
    (hvisitable : ∀ v ∈ visits, Visitable tree v) {f : Path} (hf : (tree.kind f).isSome)
    (hnew : (.lambdaLogGroupConfig, f) ∉ visits) :
    app.tree.kind (f ++ ["LogGroup"]) = tree.kind (f ++ ["LogGroup"]) := by
  apply h.unchanged
  rintro g ref ⟨hg, hkind⟩
  have hnone := hvisitable _ hg
  unfold Visitable at hnone
  simp only [hkind] at hnone
  apply tree.not_prefix hf hnone
  rintro rfl
  exact hnew hg

theorem Synthesized.logged (h : Synthesized place tree visits app) {f : Path} {ref : String}
    (hkind : tree.kind f = some (.cfnFunction ref)) (hnone : tree.kind (f ++ ["LogGroup"]) = none)
    (hnew : (.lambdaLogGroupConfig, f) ∉ visits) {tree' : Tree}
    (hadded : Added f (logGroupProps (place f) ref) app.tree tree') :
    Synthesized place tree (visits ++ [(.lambdaLogGroupConfig, f)]) { app with tree := tree' } where
  logGroups g ref' hlogs := by
    obtain ⟨hg, hgkind⟩ := hlogs
    rcases List.mem_append.mp hg with hg | hg
    · have hne : f ≠ g := by
        rintro rfl
        exact hnew hg
      have hsome : (tree.kind g).isSome := by
        rw [hgkind]
        rfl
      rw [hadded.others _ (tree.not_prefix hsome hnone hne)]
      exact h.logGroups g ref' ⟨hg, hgkind⟩
    · cases List.mem_singleton.mp hg
      rw [hkind] at hgkind
      cases hgkind
      exact hadded.logGroup
  unchanged path hpath := by
    have hbelow := hpath f ref ⟨List.mem_append_right _ (List.mem_singleton_self _), hkind⟩
    rw [hadded.others path hbelow]
    exact h.unchanged path fun g ref' hlogs => hpath g ref' (logs_append hlogs)
  kept path kind hplain := by
    by_cases hbelow : f ++ ["LogGroup"] <+: path
    · refine iff_of_false (fun hk => hplain (hadded.below path kind hbelow hk)) fun hk => ?_
      have hsome := tree.isSome_of_prefix hbelow (hk ▸ rfl)
      rw [hnone] at hsome
      cases hsome
    · rw [hadded.others path hbelow]
      exact h.kept path kind hplain
  errors := by
    rw [List.filterMap_append, h.errors]
    exact (List.append_nil _).symm

theorem Synthesized.function_iff (h : Synthesized place tree visits app) {path : Path}
    {ref : String} : app.tree.kind path = some (.cfnFunction ref) ↔
      tree.kind path = some (.cfnFunction ref) :=
  h.kept path (.cfnFunction ref) not_false

theorem Synthesized.bucket_iff (h : Synthesized place tree visits app) {path : Path}
    {deletionPolicy : Except String (Option CfnDeletionPolicy)} :
    app.tree.kind path = some (.bucket deletionPolicy) ↔
      tree.kind path = some (.bucket deletionPolicy) :=
  h.kept path (.bucket deletionPolicy) not_false

theorem Synthesized.table_iff (h : Synthesized place tree visits app) {path : Path}
    {deletionPolicy : Except String (Option CfnDeletionPolicy)} :
    app.tree.kind path = some (.table deletionPolicy) ↔
      tree.kind path = some (.table deletionPolicy) :=
  h.kept path (.table deletionPolicy) not_false

/-- What the visit of a function comes to, and that of any other construct. -/
theorem logGroupVisit_spec (hadds : AddsLogGroup newLogGroup)
    (h : Synthesized place tree visits app) (hvisitable : ∀ v ∈ visits, Visitable tree v) {f : Path}
    (hnew : (.lambdaLogGroupConfig, f) ∉ visits) :
    (Visitable tree (.lambdaLogGroupConfig, f) →
      ∃ app', LambdaLogGroupConfig.visit place newLogGroup f app = .ok app' ∧
        Synthesized place tree (visits ++ [(.lambdaLogGroupConfig, f)]) app') ∧
    (¬ Visitable tree (.lambdaLogGroupConfig, f) →
      ∃ e, LambdaLogGroupConfig.visit place newLogGroup f app = .error e) := by
  by_cases hfunction : ∃ ref, tree.kind f = some (.cfnFunction ref)
  · obtain ⟨ref, hkind⟩ := hfunction
    have hsome : (tree.kind f).isSome := hkind ▸ rfl
    have hnow : app.tree.kind f = some (.cfnFunction ref) := h.function_iff.mpr hkind
    have hgroup := h.logGroup_eq hvisitable hsome hnew
    have hiff : Visitable tree (.lambdaLogGroupConfig, f) ↔
        tree.kind (f ++ ["LogGroup"]) = none := by
      unfold Visitable
      simp only [hkind]
    unfold LambdaLogGroupConfig.visit
    simp only [hnow, hiff]
    constructor
    · intro hnone
      rw [hnone] at hgroup
      obtain ⟨tree', hcreated, hadded⟩ :=
        hadds.added f (logGroupProps (place f) ref) app.tree (hnow ▸ rfl) hgroup
      rw [hcreated]
      exact ⟨_, rfl, h.logged hkind hnone hnew hadded⟩
    · intro htaken
      rw [← hgroup] at htaken
      obtain ⟨e, he⟩ := hadds.taken f (logGroupProps (place f) ref) app.tree
        (Option.isSome_iff_ne_none.mpr htaken)
      rw [he]
      exact ⟨e, rfl⟩
  · have hvisit : LambdaLogGroupConfig.visit place newLogGroup f app = .ok app := by
      unfold LambdaLogGroupConfig.visit
      split
      · rename_i ref hnow
        exact absurd ⟨ref, h.function_iff.mp hnow⟩ hfunction
      · rfl
    have hlogs : ∀ g ref, Logs tree (visits ++ [(.lambdaLogGroupConfig, f)]) g ref →
        Logs tree visits g ref := by
      rintro g ref ⟨hg, hkind⟩
      refine ⟨(List.mem_append.mp hg).resolve_right fun hlast => ?_, hkind⟩
      cases List.mem_singleton.mp hlast
      exact hfunction ⟨ref, hkind⟩
    have hvisited := h.visited hlogs [] rfl
    rw [List.append_nil] at hvisited
    have hvisitable : Visitable tree (.lambdaLogGroupConfig, f) := by
      unfold Visitable
      cases hkind : tree.kind f with
      | none => trivial
      | some kind =>
        cases kind with
        | cfnFunction ref => exact absurd ⟨ref, hkind⟩ hfunction
        | _ => trivial
    exact ⟨fun _ => ⟨app, hvisit, hvisited⟩, fun hnot => absurd hvisitable hnot⟩

theorem logs_of_policyVisit {node : Path} (f : Path) (ref : String)
    (h : Logs tree (visits ++ [(.resourceRemovalPolicyTester, node)]) f ref) :
    Logs tree visits f ref := by
  refine ⟨(List.mem_append.mp h.1).resolve_right fun hlast => ?_, h.2⟩
  cases List.mem_singleton.mp hlast

theorem policyVisit_of_policy (h : Synthesized place tree visits app) {node : Path}
    {deletionPolicy : Except String (Option CfnDeletionPolicy)}
    (hkind : tree.kind node = some (.bucket deletionPolicy) ∨
      tree.kind node = some (.table deletionPolicy)) :
    (Visitable tree (.resourceRemovalPolicyTester, node) →
      ∃ app', ResourceRemovalPolicyTesterAspect.visit place node app = .ok app' ∧
        Synthesized place tree (visits ++ [(.resourceRemovalPolicyTester, node)]) app') ∧
    (¬ Visitable tree (.resourceRemovalPolicyTester, node) →
      ∃ e, ResourceRemovalPolicyTesterAspect.visit place node app = .error e) := by
  have hnow : app.tree.kind node = some (.bucket deletionPolicy) ∨
      app.tree.kind node = some (.table deletionPolicy) :=
    hkind.imp h.bucket_iff.mpr h.table_iff.mpr
  have hvisitable : Visitable tree (.resourceRemovalPolicyTester, node) ↔
      ∃ policy, deletionPolicy = .ok policy := by
    unfold Visitable
    rcases hkind with hkind | hkind <;> simp only [hkind]
  rw [hvisitable]
  cases deletionPolicy with
  | error e =>
    have hvisit : ResourceRemovalPolicyTesterAspect.visit place node app = .error e := by
      unfold ResourceRemovalPolicyTesterAspect.visit
      rcases hnow with hnow | hnow <;> simp only [hnow] <;> rfl
    refine ⟨fun hok => ?_, fun _ => ⟨e, hvisit⟩⟩
    obtain ⟨policy, hpolicy⟩ := hok
    cases hpolicy
  | ok policy =>
    have herror : expectedError place tree (.resourceRemovalPolicyTester, node) =
        (expectedText (node.getLast?.getD "") (place node) policy).map fun text => (node, text) := by
      unfold expectedError
      rcases hkind with hkind | hkind <;> simp only [hkind]
    have hvisited := h.visited logs_of_policyVisit
      ((policyErrors (node.getLast?.getD "") (place node) policy).map fun text => (node, text)) (by
        rw [herror, policyErrors_eq]
        cases expectedText (node.getLast?.getD "") (place node) policy <;> rfl)
    refine ⟨fun _ => ⟨_, ?_, hvisited⟩, fun hnot => absurd ⟨policy, rfl⟩ hnot⟩
    unfold ResourceRemovalPolicyTesterAspect.visit
    rcases hnow with hnow | hnow <;> simp only [hnow] <;> rfl

theorem policyVisit_spec (h : Synthesized place tree visits app) (node : Path) :
    (Visitable tree (.resourceRemovalPolicyTester, node) →
      ∃ app', ResourceRemovalPolicyTesterAspect.visit place node app = .ok app' ∧
        Synthesized place tree (visits ++ [(.resourceRemovalPolicyTester, node)]) app') ∧
    (¬ Visitable tree (.resourceRemovalPolicyTester, node) →
      ∃ e, ResourceRemovalPolicyTesterAspect.visit place node app = .error e) := by
  by_cases hpolicy : ∃ deletionPolicy, tree.kind node = some (.bucket deletionPolicy) ∨
      tree.kind node = some (.table deletionPolicy)
  · obtain ⟨deletionPolicy, hkind⟩ := hpolicy
    exact policyVisit_of_policy h hkind
  · have hvisit : ResourceRemovalPolicyTesterAspect.visit place node app = .ok app := by
      unfold ResourceRemovalPolicyTesterAspect.visit
      split
      · rename_i hnow
        exact absurd ⟨_, Or.inl (h.bucket_iff.mp hnow)⟩ hpolicy
      · rename_i hnow
        exact absurd ⟨_, Or.inr (h.table_iff.mp hnow)⟩ hpolicy
      · rfl
    have hnothing : Visitable tree (.resourceRemovalPolicyTester, node) ∧
        expectedError place tree (.resourceRemovalPolicyTester, node) = none := by
      unfold Visitable expectedError
      cases hkind : tree.kind node with
      | none => exact ⟨trivial, rfl⟩
      | some kind =>
        cases kind with
        | bucket deletionPolicy => exact absurd ⟨_, Or.inl hkind⟩ hpolicy
        | table deletionPolicy => exact absurd ⟨_, Or.inr hkind⟩ hpolicy
        | _ => exact ⟨trivial, rfl⟩
    have hvisited := h.visited (v := (.resourceRemovalPolicyTester, node)) logs_of_policyVisit [] (by
      rw [hnothing.2]
      rfl)
    rw [List.append_nil] at hvisited
    exact ⟨fun _ => ⟨app, hvisit, hvisited⟩, fun hnot => absurd hnothing.1 hnot⟩

/-- What a visit comes to after others. -/
theorem visit_spec (hadds : AddsLogGroup newLogGroup) (h : Synthesized place tree visits app)
    (hvisitable : ∀ v ∈ visits, Visitable tree v) (hnew : v ∉ visits) :
    (Visitable tree v → ∃ app', visit place newLogGroup app v = .ok app' ∧
      Synthesized place tree (visits ++ [v]) app') ∧
    (¬ Visitable tree v → ∃ e, visit place newLogGroup app v = .error e) := by
  obtain ⟨aspect, path⟩ := v
  cases aspect with
  | lambdaLogGroupConfig => exact logGroupVisit_spec hadds h hvisitable hnew
  | resourceRemovalPolicyTester => exact policyVisit_spec h path

theorem synth_snoc (tree : Tree) (visits : List (Aspect × Path)) (v : Aspect × Path) :
    synth place newLogGroup (visits ++ [v]) ⟨tree, []⟩ =
      (synth place newLogGroup visits ⟨tree, []⟩).bind fun app => visit place newLogGroup app v := by
  unfold synth
  rw [List.foldlM_append]
  cases List.foldlM (visit place newLogGroup) ⟨tree, []⟩ visits with
  | error e => rfl
  | ok app =>
    show (visit place newLogGroup app v >>= pure) = visit place newLogGroup app v
    exact bind_pure _

/-- The visits so far have succeeded, or there is one among them that fails. -/
theorem synth_cases (place : Path → Place) (hadds : AddsLogGroup newLogGroup) (tree : Tree)
    (visits : List (Aspect × Path)) (hnodup : visits.Nodup) :
    ((∃ app, synth place newLogGroup visits ⟨tree, []⟩ = .ok app ∧
        Synthesized place tree visits app) ∧ ∀ v ∈ visits, Visitable tree v) ∨
      (∃ e, synth place newLogGroup visits ⟨tree, []⟩ = .error e) ∧
        ∃ v ∈ visits, ¬ Visitable tree v := by
  induction visits using List.reverseRecOn with
  | nil =>
    refine Or.inl ⟨⟨⟨tree, []⟩, rfl, ?_⟩, fun _ hv => absurd hv List.not_mem_nil⟩
    exact ⟨fun _ _ h => absurd h.1 List.not_mem_nil, fun _ _ => rfl, fun _ _ _ => Iff.rfl, rfl⟩
  | append_singleton visits v ih =>
    obtain ⟨hbefore, -, hdisjoint⟩ := List.nodup_append.mp hnodup
    have hnew : v ∉ visits := fun hv => hdisjoint v hv v (List.mem_singleton_self v) rfl
    rw [synth_snoc]
    rcases ih hbefore with ⟨⟨app, hrun, hsynthesized⟩, hvisitable⟩ | ⟨⟨e, hrun⟩, w, hw, hnot⟩
    · obtain ⟨hgood, hbad⟩ := visit_spec hadds hsynthesized hvisitable hnew
      rw [hrun]
      by_cases hv : Visitable tree v
      · refine Or.inl ⟨hgood hv, ?_⟩
        intro w hw
        rcases List.mem_append.mp hw with hw | hw
        · exact hvisitable w hw
        · rwa [List.mem_singleton.mp hw]
      · exact Or.inr ⟨hbad hv, v, List.mem_append_right _ (List.mem_singleton_self v), hv⟩
    · rw [hrun]
      exact Or.inr ⟨⟨e, rfl⟩, w, List.mem_append_left _ hw, hnot⟩

end

/-- In whatever order the constructs are visited, and whatever else is visited: the
synthesis fails exactly if one of them cannot be visited. Otherwise each function has its
log group, everything else is as it was, and the wrong removal policies are told of. -/
theorem synth_outcome (place : Path → Place)
    (newLogGroup : Path → LogGroupProps → Tree → Except String Tree)
    (hadds : AddsLogGroup newLogGroup) (tree : Tree) (visits : List (Aspect × Path))
    (hnodup : visits.Nodup) :
    ((∃ app, synth place newLogGroup visits ⟨tree, []⟩ = .ok app) ↔
      ∀ v ∈ visits, Visitable tree v) ∧
    ∀ app, synth place newLogGroup visits ⟨tree, []⟩ = .ok app →
      Synthesized place tree visits app := by
  rcases synth_cases place hadds tree visits hnodup with
    ⟨⟨app, hrun, hsynthesized⟩, hvisitable⟩ | ⟨⟨e, hrun⟩, v, hv, hnot⟩
  · refine ⟨iff_of_true ⟨app, hrun⟩ hvisitable, ?_⟩
    intro app' hrun'
    rw [hrun] at hrun'
    cases hrun'
    exact hsynthesized
  · rw [hrun]
    refine ⟨iff_of_false (fun hok => ?_) fun hall => hnot (hall v hv), nofun⟩
    obtain ⟨app, happ⟩ := hok
    cases happ

/-! A project that is kept as a list, and what a new log group adds to it. -/

/-- The constructs with a log group that has a resource. -/
def Tree.addLogGroup (tree : Tree) (scope : Path) (props : LogGroupProps)
    (hscope : (tree.kind scope).isSome) : Tree where
  kind path :=
    if path = scope ++ ["LogGroup"] then some (.logGroup props)
    else if path = scope ++ ["LogGroup"] ++ ["Resource"] then some .other
    else if scope ++ ["LogGroup"] <+: path then none
    else tree.kind path
  closed path id h := by
    split_ifs at h with hgroup hresource hbelow
    · -- the scope is neither the log group nor below it
      obtain rfl : path = scope := List.append_inj_left' hgroup rfl
      have hprefix : ¬ path ++ ["LogGroup"] <+: path := by
        intro hlong
        have hlength := hlong.length_le
        rw [List.length_append, List.length_singleton] at hlength
        omega
      rw [if_neg (by simp), if_neg (by simp), if_neg hprefix]
      exact hscope
    · rw [if_pos (List.append_inj_left' hresource rfl)]
      rfl
    · cases h
    · have habove : ¬ scope ++ ["LogGroup"] <+: path :=
        fun h => hbelow (h.trans (List.prefix_append path [id]))
      rw [if_neg, if_neg, if_neg habove]
      · exact tree.closed path id h
      · rintro rfl
        exact habove (List.prefix_append _ _)
      · rintro rfl
        exact habove List.prefix_rfl

def newLogGroup (scope : Path) (props : LogGroupProps) (tree : Tree) : Except String Tree :=
  if h : (tree.kind scope).isSome ∧ (tree.kind (scope ++ ["LogGroup"])).isNone then
    .ok (tree.addLogGroup scope props h.1)
  else .error "There is already a Construct with name 'LogGroup'"

theorem newLogGroup_adds : AddsLogGroup newLogGroup where
  taken scope props tree h := by
    refine ⟨_, dif_neg fun hfree => ?_⟩
    rw [Option.isNone_iff_eq_none.mp hfree.2] at h
    cases h
  added scope props tree hscope hnone := by
    refine ⟨_, dif_pos ⟨hscope, Option.isNone_iff_eq_none.mpr hnone⟩, if_pos rfl, ?_, ?_⟩
    · intro path hpath
      show (if _ then _ else _) = _
      rw [if_neg, if_neg, if_neg hpath]
      · rintro rfl
        exact hpath (List.prefix_append _ _)
      · rintro rfl
        exact hpath List.prefix_rfl
    · intro path kind hbelow hkind
      change (if _ then _ else _) = _ at hkind
      split_ifs at hkind <;> cases hkind <;> trivial

/-- The constructs of a list in which every construct has its scope. -/
def Tree.ofList (constructs : List (Path × Kind))
    (h : ∀ path ∈ constructs.map (·.1), path.dropLast ∈ constructs.map (·.1)) : Tree where
  kind path := constructs.lookup path
  closed path id hsome := by
    have hmem : ∀ path, (constructs.lookup path).isSome ↔ path ∈ constructs.map (·.1) := by
      intro path
      simp only [List.lookup_isSome_iff, List.mem_map, beq_iff_eq, @eq_comm _ path]
    have hscope := h _ ((hmem _).mp hsome)
    rw [List.dropLast_concat] at hscope
    exact (hmem path).mpr hscope

def stagingPlace : Place := ⟨true, false, false⟩

/-- A function and a bucket that is deleted with its stack. -/
def sampleProject : Tree := Tree.ofList
  [([], .other), (["Sample"], .other), (["Sample", "Resource"], .cfnFunction "Sample1234"),
    (["Media"], .bucket (.ok (some .delete))), (["Media", "Resource"], .other)] (by decide)

/-- The log group is visited as well once it is there. -/
def sampleVisits : List (Aspect × Path) :=
  [(.resourceRemovalPolicyTester, ["Media"]), (.lambdaLogGroupConfig, []),
    (.lambdaLogGroupConfig, ["Sample", "Resource"]),
    (.lambdaLogGroupConfig, ["Sample", "Resource", "LogGroup"]),
    (.resourceRemovalPolicyTester, ["Sample", "Resource", "LogGroup"])]

theorem synth_outcome_sampleProject :
    ∃ app, synth (fun _ => stagingPlace) newLogGroup sampleVisits ⟨sampleProject, []⟩ = .ok app ∧
      Synthesized (fun _ => stagingPlace) sampleProject sampleVisits app ∧
      app.errors.map (·.1) = [["Media"]] := by
  obtain ⟨hok, houtcome⟩ := synth_outcome (fun _ => stagingPlace) newLogGroup newLogGroup_adds
    sampleProject sampleVisits (by decide)
  have hvisitable : ∀ v ∈ sampleVisits, Visitable sampleProject v := by
    simp only [sampleVisits, List.forall_mem_cons]
    exact ⟨⟨_, rfl⟩, trivial, rfl, trivial, trivial, List.forall_mem_nil _⟩
  obtain ⟨app, hrun⟩ := hok.mpr hvisitable
  have hsynthesized := houtcome app hrun
  refine ⟨app, hrun, hsynthesized, ?_⟩
  rw [hsynthesized.errors]
  rfl

end Ovipro.Aspects
