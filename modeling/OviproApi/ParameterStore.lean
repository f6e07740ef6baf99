import OviproApi.EnvironmentResources
import OviproApi.KeyedStore

/-! The parameter stores of an account under the exports of its stacks. A name stands
for one resource of one level, so an import finds what was exported last for
the resource itself, whatever was exported for others in the meantime. -/

namespace Ovipro.SharedResources

deriving instance DecidableEq for Identifier, EnvironmentName

/-- What a value is exported for. -/
inductive Slot
  | account (region : String) (resource : Identifier)
  | environment (region : String) (source : EnvironmentName) (resource : String)
  deriving DecidableEq

/-- Region and name of the parameter. -/
def Slot.key (service : String) : Slot → String × String
  | account region resource => (region, exportedName service resource.text)
  | environment region source resource =>
    (region, environmentParameterName service source resource)

/-- An export by a stack, on the level of the account or of its environment. -/
inductive Export
  | account (resource : Identifier) (stringValue : String) (removalPolicy : Option RemovalPolicy)
      (description region : Option String)
  | environment (resource stringValue : String)

def Parameter.value : Parameter → String
  | stringParameter _ _ stringValue _ _ => stringValue
  | crossRegionParameter _ _ _ _ value => value

/-- A parameter is created in the region of its stack unless it names another one. -/
def Parameter.region (stackRegion : String) : Parameter → String
  | stringParameter .. => stackRegion
  | crossRegionParameter _ region .. => region

section
variable (change : PascalCase) (service : String)

def Export.parameter (stack : Stack) : Export → Parameter
  | account resource stringValue removalPolicy description region =>
    OviproAccountSharedResource.export change.pascalCase service resource.text stringValue
      removalPolicy description region
  | environment resource stringValue =>
    OviproEnvironmentSharedResource.export change service stack resource stringValue

/-- The key and the value that the parameter of an export writes. -/
def Export.entry (stack : Stack) (e : Export) : (String × String) × String :=
  let parameter := e.parameter change service stack
  ((parameter.region stack.region, parameter.name), parameter.value)

/-- The stores of all regions after the exports of the stacks, in their order. -/
def deployed (exports : List (Stack × Export)) : String × String → Option String :=
  KeyedStore.writeAll (fun _ => none) (exports.map fun e => e.2.entry change service e.1)

/-- What an export is for. -/
def Export.slot (stack : Stack) : Export → Slot
  | account resource _ _ _ region =>
    if Ecma.includes resource.text "CROSS_REGION" then
      .account (if region.getD "" = "" then "eu-west-1" else region.getD "") resource
    else .account stack.region resource
  | environment resource _ =>
    .environment stack.region (stack.environmentName change false) resource

def Export.stringValue : Export → String
  | account _ stringValue .. => stringValue
  | environment _ stringValue => stringValue

/-- The value of the last export for a slot. -/
def lastExported (exports : List (Stack × Export)) (slot : Slot) : Option String :=
  KeyedStore.latest (exports.map fun e => (e.2.slot change e.1, e.2.stringValue)) slot

def dummyValueFor (name : String) : String := s!"dummy-value-for-{name}"

/-- What the CDK reads in the store of a region: the stored value, or a dummy if
there is none when the value is looked up. -/
structure Reads (store : String × String → Option String) (region : String)
    (ssm : GetParameter → String → String) : Prop where
  stored : ∀ getParameter name value, store (region, name) = some value →
    ssm getParameter name = value
  missing : ∀ name, store (region, name) = none →
    ssm .valueFromLookup name = dummyValueFor name

end

theorem Slot.key_injective (service : String) : Function.Injective (Slot.key service) := by
  intro slot slot' h
  cases slot with
  | account region resource =>
    cases slot' with
    | account region' resource' =>
      obtain ⟨hregion, hname⟩ := Prod.mk.inj h
      obtain ⟨text, form⟩ := resource
      obtain ⟨text', form'⟩ := resource'
      obtain rfl : text = text' := exportedName_injective service hname
      rw [hregion]
    | environment region' source' resource' =>
      exact (environmentParameterName_ne _ _ _ _ (Prod.mk.inj h).2.symm).elim
  | environment region source resource =>
    cases slot' with
    | account region' resource' =>
      exact (environmentParameterName_ne _ _ _ _ (Prod.mk.inj h).2).elim
    | environment region' source' resource' =>
      obtain ⟨hregion, hname⟩ := Prod.mk.inj h
      obtain ⟨htext, hresource⟩ := environmentParameterName_inj hname
      obtain ⟨text, hslash⟩ := source
      obtain ⟨text', hslash'⟩ := source'
      obtain rfl : text = text' := htext
      rw [hregion, hresource]

section
variable {change : PascalCase} {service : String}

theorem Export.entry_eq (stack : Stack) (e : Export) :
    e.entry change service stack =
      Prod.map (Slot.key service) id (e.slot change stack, e.stringValue) := by
  cases e with
  | environment resource stringValue => rfl
  | account resource stringValue removalPolicy description region =>
    unfold entry slot Export.parameter
    simp only [export_name]
    unfold OviproAccountSharedResource.export
    cases Ecma.includes resource.text "CROSS_REGION" <;> rfl

/-- The stores of the regions hold, under the key of each slot, what was exported
last for it. -/
theorem deployed_key (exports : List (Stack × Export)) (slot : Slot) :
    deployed change service exports (slot.key service) = lastExported change exports slot := by
  have hentries : (exports.map fun e => e.2.entry change service e.1) =
      (exports.map fun e => (e.2.slot change e.1, e.2.stringValue)).map
        (Prod.map (Slot.key service) id) := by
    rw [List.map_map]
    apply List.map_congr_left
    intro e _
    exact e.2.entry_eq e.1
  unfold deployed lastExported
  rw [hentries]
  exact KeyedStore.writeAll_key (Slot.key_injective service) _ slot

theorem includes_dummy (name : String) :
    Ecma.includes (dummyValueFor name) "dummy-value-for-" = true := by
  rw [Ecma.includes_iff]
  show _ <:+: ("dummy-value-for-" ++ name).toList
  rw [String.toList_append]
  exact (List.prefix_append ..).isInfix

/-- An import from the account gives the value that it reads, unless that is a
dummy for the one resource that has another one. -/
theorem import_value (ssm : GetParameter → String → String) (resource : String) (lookup : Bool) :
    (OviproAccountSharedResource.import service ssm resource lookup).2 =
      let stringValue :=
        ssm (if lookup then .valueFromLookup else .valueForStringParameter)
          (exportedName service resource)
      if Ecma.includes stringValue "dummy-value-for-" = true ∧
          resource = SharedResourceType.staticMediaS3BucketArn.text then
        "arn:aws:s3:::dummybucketname"
      else stringValue := by
  have hshort : ∀ stringValue : String,
      (if Ecma.includes stringValue "dummy-value-for-" && Ecma.indexOf resource "_ARN" != 0 then
        if resource = SharedResourceType.staticMediaS3BucketArn.text then
          "arn:aws:s3:::dummybucketname"
        else stringValue
      else stringValue) =
      if Ecma.includes stringValue "dummy-value-for-" = true ∧
          resource = SharedResourceType.staticMediaS3BucketArn.text then
        "arn:aws:s3:::dummybucketname"
      else stringValue := by
    intro stringValue
    by_cases hresource : resource = SharedResourceType.staticMediaS3BucketArn.text
    · have hindex : (Ecma.indexOf resource "_ARN" != 0) = true := by
        rw [hresource]
        decide
      rw [hindex, Bool.and_true]
      simp only [hresource, if_true, and_true]
    · simp only [hresource, if_false, and_false, ite_self]
  refine (hshort _).trans ?_
  cases lookup <;> rfl

/-- The value that was exported last for the environment is imported. For a resource
with a dummy of its own it must not look like one. -/
theorem environmentImport_of_exported {exports : List (Stack × Export)} {stack : Stack}
    {ssm : GetParameter → String → String}
    (hssm : Reads (deployed change service exports) stack.region ssm) (resource : String)
    (lookup : Bool) {useStaging : Bool} {value : String}
    (hallowed : useStaging = true → stack.isFeature = true)
    (hlast : lastExported change exports
      (.environment stack.region (stack.environmentName change useStaging) resource) = some value)
    (hplain : resource ∈ dummies.map (·.1) → Ecma.includes value "dummy-value-for-" = false) :
    OviproEnvironmentSharedResource.import change service stack ssm resource useStaging lookup =
      .ok ((if lookup then .valueFromLookup else .valueForStringParameter,
        environmentParameterName service (stack.environmentName change useStaging) resource),
        value) := by
  have hread := fun getParameter =>
    hssm.stored getParameter _ value ((deployed_key exports _).trans hlast)
  refine (environmentImport_of_read resource lookup hallowed (hread _)).trans ?_
  by_cases hdummy : resource ∈ dummies.map (·.1)
  · rw [hplain hdummy, if_neg Bool.false_ne_true]
  · rw [dummyValue_of_none hdummy, ite_self]

end

def readFrom (store : String × String → Option String) (region : String) :
    GetParameter → String → String :=
  fun _ name => (store (region, name)).getD (dummyValueFor name)

theorem reads_readFrom (store : String × String → Option String) (region : String) :
    Reads store region (readFrom store region) where
  stored getParameter name value h := by
    unfold readFrom
    rw [h, Option.getD_some]
  missing name h := by
    unfold readFrom
    rw [h, Option.getD_none]

/-- `pascalCase` on the environments below. -/
def samplePascalCase : PascalCase where
  pascalCase text := if text = "feature/map" then "FeatureMap" else "Staging"
  no_slash text := by
    split <;> decide

def previewStack : Stack := ⟨"eu-west-1", "feature/map", true⟩

def stagingStack (region : String) : Stack := ⟨region, "staging", false⟩

def sampleExports : List (Stack × Export) :=
  [(stagingStack "eu-west-1", .environment "DATABASE_CLUSTER_IDENTIFIER" "cluster-1"),
    (stagingStack "eu-west-1",
      .account SharedResourceType.ecsClusterName.identifier "ecs-1" none none none),
    (stagingStack "eu-west-1", .environment "DATABASE_CLUSTER_IDENTIFIER" "cluster-2"),
    (previewStack, .environment "DATABASE_CLUSTER_IDENTIFIER" "cluster-3"),
    (stagingStack "eu-west-1",
      .account SharedResourceType.ecsClusterName.identifier "ecs-2" none none none),
    (stagingStack "us-east-1",
      .account SharedResourceType.ecsClusterName.identifier "ecs-3" none none none)]

/-- What is imported from the account is what was exported last for the resource
in the region of the stack; for a resource that was not exported there, it is a
dummy when it is looked up. The value of the one resource with a dummy of its own
must not look like a dummy. -/
theorem account_import_latest (change : PascalCase) (service : String)
    (exports : List (Stack × Export)) (region : String) (ssm : GetParameter → String → String)
    (hssm : Reads (deployed change service exports) region ssm) (resource : Identifier) :
    (∀ value lookup, lastExported change exports (.account region resource) = some value →
      (resource.text = "STATIC_MEDIA_S3_BUCKET_ARN" →
        Ecma.includes value "dummy-value-for-" = false) →
      (OviproAccountSharedResource.import service ssm resource.text lookup).2 = value) ∧
    (lastExported change exports (.account region resource) = none →
      (OviproAccountSharedResource.import service ssm resource.text true).2 =
        if resource.text = "STATIC_MEDIA_S3_BUCKET_ARN" then "arn:aws:s3:::dummybucketname"
        else dummyValueFor (exportedName service resource.text)) := by
  have hkey : deployed change service exports (region, exportedName service resource.text) =
      lastExported change exports (.account region resource) :=
    deployed_key exports (.account region resource)
  constructor
  · intro value lookup hlast hplain
    have hread : ∀ getParameter, ssm getParameter (exportedName service resource.text) = value :=
      fun getParameter => hssm.stored getParameter _ value (hkey.trans hlast)
    rw [import_value]
    simp only [hread]
    refine if_neg fun hdummy => ?_
    rw [hplain hdummy.2] at hdummy
    exact Bool.false_ne_true hdummy.1
  · intro hlast
    have hread := hssm.missing _ (hkey.trans hlast)
    rw [import_value]
    simp only [if_true, hread, includes_dummy, true_and]
    rfl

theorem account_import_latest_cluster :
    (OviproAccountSharedResource.import "ovipro"
      (readFrom (deployed samplePascalCase "ovipro" sampleExports) "eu-west-1")
      "ECS_CLUSTER_NAME" true).2 = "ecs-2" :=
  (account_import_latest samplePascalCase "ovipro" sampleExports "eu-west-1" _ (reads_readFrom _ _)
    SharedResourceType.ecsClusterName.identifier).1 "ecs-2" true (by decide) nofun

/-- What is imported from an environment is what was exported last for the
resource in the region by the stacks whose environment has the same name in the
parameters; for a resource that was not exported there, it is a dummy when it is looked
up. Staging's values are imported by the preview environments only. The values of the
resources with a dummy of their own must not look like dummies. -/
theorem environment_import_latest (change : PascalCase) (service : String)
    (exports : List (Stack × Export)) (stack : Stack) (ssm : GetParameter → String → String)
    (hssm : Reads (deployed change service exports) stack.region ssm) (resource : String)
    (useStaging : Bool) :
    let environment := stack.environmentName change useStaging
    let slot := Slot.environment stack.region environment resource
    let name := environmentParameterName service environment resource
    (useStaging = true → stack.isFeature = false → ∀ lookup,
      OviproEnvironmentSharedResource.import change service stack ssm resource useStaging lookup =
        .error "Using staging environment's value only allowed in preview environments") ∧
    ((useStaging = true → stack.isFeature = true) →
      (∀ value lookup, lastExported change exports slot = some value →
        (resource ∈ dummies.map (·.1) → Ecma.includes value "dummy-value-for-" = false) →
        OviproEnvironmentSharedResource.import change service stack ssm resource useStaging lookup =
          .ok ((if lookup then .valueFromLookup else .valueForStringParameter, name), value)) ∧
      (lastExported change exports slot = none →
        OviproEnvironmentSharedResource.import change service stack ssm resource useStaging true =
          .ok ((.valueFromLookup, name),
            (dummies.lookup resource).getD (dummyValueFor name)))) := by
  intro environment slot name
  refine ⟨?_, fun hallowed => ⟨?_, ?_⟩⟩
  · rintro rfl hfeature lookup
    exact environmentImport_of_denied ssm resource lookup hfeature
  · intro value lookup hlast hplain
    exact environmentImport_of_exported hssm resource lookup hallowed hlast hplain
  · intro hlast
    have hread : ssm .valueFromLookup name = dummyValueFor name :=
      hssm.missing _ ((deployed_key exports slot).trans hlast)
    refine (environmentImport_of_read resource true hallowed hread).trans ?_
    rw [includes_dummy, if_pos rfl, if_pos rfl, dummyValue_eq]

theorem environment_import_latest_staging :
    OviproEnvironmentSharedResource.import samplePascalCase "ovipro" previewStack
        (readFrom (deployed samplePascalCase "ovipro" sampleExports) "eu-west-1")
        "DATABASE_CLUSTER_IDENTIFIER" true false =
      .ok ((.valueForStringParameter, "/Staging/ovipro/shared-resources/DATABASE_CLUSTER_IDENTIFIER"),
        "cluster-2") :=
  ((environment_import_latest samplePascalCase "ovipro" sampleExports previewStack _
    (reads_readFrom _ _) "DATABASE_CLUSTER_IDENTIFIER" true).2 (fun _ => rfl)).1
    "cluster-2" false (by decide) fun h => absurd h (by decide)

end Ovipro.SharedResources
