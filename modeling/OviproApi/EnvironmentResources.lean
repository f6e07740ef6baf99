import OviproApi.Ecma.Value
import OviproApi.SharedResources

/-! The resources that the stacks of one environment share, and which of them the
preview environments take from the staging environment. -/

namespace Ovipro.SharedResources

/-- `pascalCase` of the package `change-case` keeps no separator. -/
structure PascalCase where
  pascalCase : String → String
  no_slash : ∀ text, '/' ∉ (pascalCase text).toList

/-- What a stack is configured with: its region, the name of its environment, and
whether that is a preview environment. -/
structure Stack where
  region : String
  environment : String
  isFeature : Bool
  deriving DecidableEq, Repr

/-- An environment as it stands in the names: without a slash. -/
structure EnvironmentName where
  text : String
  no_slash : '/' ∉ text.toList

section
variable (change : PascalCase) (service : String) (stack : Stack)

/-- The environment whose parameters a stack uses. -/
def Stack.environmentName (useStagingEnvironmentValue : Bool) : EnvironmentName where
  text := if useStagingEnvironmentValue then "Staging" else change.pascalCase stack.environment
  no_slash := by
    split
    · decide
    · exact change.no_slash stack.environment

def environmentParameterName (environment : EnvironmentName) (resourceType : String) : String :=
  let name := environment.text
  s!"/{name}/{service}/shared-resources/{resourceType}"

def OviproEnvironmentSharedResource.createParameterName (resourceType : String)
    (useStagingEnvironmentValue : Bool) : String :=
  environmentParameterName service (stack.environmentName change useStagingEnvironmentValue)
    resourceType

def OviproEnvironmentSharedResource.export (resource stringValue : String) : Parameter :=
  let constructName := s!"{change.pascalCase resource}StringParameter"
  .stringParameter constructName (createParameterName change service stack resource false)
    stringValue none .destroy

/-- What the import gives in place of the value of a parameter that does not
exist yet. -/
def OviproEnvironmentSharedResource.dummyValue (resource stringValue : String) : String :=
  if resource = SharedResourceType.databaseReadWriteSecretArn.text then
    "arn:aws:service:eu-central-1:123456789012:secret:entity-123456"
  else if resource = SharedResourceType.testSupportBucketName.text then "test-support-bucket-mock"
  else if resource = SharedResourceType.lambdaAuthorizerArn.text then
    "arn:aws:lambda:us-east-1:123456789012:function:dummyfunction"
  else stringValue

/-- The imported value, together with what was read for it. -/
def OviproEnvironmentSharedResource.import (ssm : GetParameter → String → String)
    (resource : String) (useStagingEnvironmentValue lookup : Bool) :
    Except String ((GetParameter × String) × String) :=
  if !stack.isFeature && useStagingEnvironmentValue then
    .error "Using staging environment's value only allowed in preview environments"
  else
    let getParameter := if !lookup then .valueForStringParameter else .valueFromLookup
    let parameterName :=
      createParameterName change service stack resource useStagingEnvironmentValue
    let stringValue := ssm getParameter parameterName
    let value :=
      if Ecma.includes stringValue "dummy-value-for-" && Ecma.indexOf resource "_ARN" != 0 then
        dummyValue resource stringValue
      else stringValue
    .ok ((getParameter, parameterName), value)

def OviproEnvironmentSharedResource.importKey (resource : String)
    (useStagingEnvironmentValue : Bool) : String :=
  createParameterName change service stack resource useStagingEnvironmentValue

end

section
variable {change : PascalCase} {service : String} {stack : Stack}

/-- Staging's values can be asked for in the preview environments only. -/
theorem environmentImport_of_denied (ssm : GetParameter → String → String) (resource : String)
    (lookup : Bool) (h : stack.isFeature = false) :
    OviproEnvironmentSharedResource.import change service stack ssm resource true lookup =
      .error "Using staging environment's value only allowed in preview environments" := by
  unfold OviproEnvironmentSharedResource.import
  rw [h]
  rfl

/-- The resources with a dummy of their own. -/
def dummies : List (String × String) :=
  [("DATABASE_READ_WRITE_SECRET_ARN",
      "arn:aws:service:eu-central-1:123456789012:secret:entity-123456"),
    ("TEST_SUPPORT_BUCKET_NAME", "test-support-bucket-mock"),
    ("LAMBDA_AUTHORIZER_ARN", "arn:aws:lambda:us-east-1:123456789012:function:dummyfunction")]

theorem lookup_getD_cons (key text dummy default : String) (rest : List (String × String)) :
    (((text, dummy) :: rest).lookup key).getD default =
      if key = text then dummy else (rest.lookup key).getD default := by
  rw [List.lookup_cons]
  by_cases h : key = text
  · rw [if_pos h, beq_iff_eq.mpr h]
    rfl
  · rw [if_neg h, beq_eq_false_iff_ne.mpr h]

theorem dummyValue_eq (resource stringValue : String) :
    OviproEnvironmentSharedResource.dummyValue resource stringValue =
      (dummies.lookup resource).getD stringValue := by
  unfold OviproEnvironmentSharedResource.dummyValue dummies
  simp only [lookup_getD_cons, List.lookup_nil, Option.getD_none]
  rfl

theorem dummyValue_of_none {resource : String} (h : resource ∉ dummies.map (·.1))
    (stringValue : String) :
    OviproEnvironmentSharedResource.dummyValue resource stringValue = stringValue := by
  have hnone : dummies.lookup resource = none := Ecma.lookup_eq_none_of_not_mem h
  rw [dummyValue_eq, hnone, Option.getD_none]

/-- None of the resources with a dummy of their own starts with `_ARN`. -/
theorem dummyValue_of_start {resource : String} (h : Ecma.indexOf resource "_ARN" = 0)
    (stringValue : String) :
    OviproEnvironmentSharedResource.dummyValue resource stringValue = stringValue := by
  have hne : ∀ text ∈ dummies.map (·.1), Ecma.indexOf text "_ARN" ≠ 0 := by decide
  exact dummyValue_of_none (fun hmem => hne resource hmem h) stringValue

/-- Otherwise one name is read, and its value is given unless it is a dummy. -/
theorem environmentImport_of_read {ssm : GetParameter → String → String} (resource : String)
    (lookup : Bool) {useStaging : Bool} {stringValue : String}
    (h : useStaging = true → stack.isFeature = true)
    (hread : ssm (if lookup then .valueFromLookup else .valueForStringParameter)
      (environmentParameterName service (stack.environmentName change useStaging) resource) =
        stringValue) :
    OviproEnvironmentSharedResource.import change service stack ssm resource useStaging lookup =
      .ok ((if lookup then .valueFromLookup else .valueForStringParameter,
          environmentParameterName service (stack.environmentName change useStaging) resource),
        if Ecma.includes stringValue "dummy-value-for-" then
          OviproEnvironmentSharedResource.dummyValue resource stringValue
        else stringValue) := by
  have hallowed : (!stack.isFeature && useStaging) = false := by
    cases useStaging with
    | false => exact Bool.and_false _
    | true => rw [h rfl]; rfl
  have hshort : ∀ stringValue : String,
      (if Ecma.includes stringValue "dummy-value-for-" && Ecma.indexOf resource "_ARN" != 0 then
        OviproEnvironmentSharedResource.dummyValue resource stringValue
      else stringValue) =
      if Ecma.includes stringValue "dummy-value-for-" then
        OviproEnvironmentSharedResource.dummyValue resource stringValue
      else stringValue := by
    intro stringValue
    by_cases hindex : Ecma.indexOf resource "_ARN" = 0
    · rw [dummyValue_of_start hindex, ite_self, ite_self]
    · rw [bne_iff_ne.mpr hindex, Bool.and_true]
  unfold OviproEnvironmentSharedResource.import
  rw [hallowed, if_neg Bool.false_ne_true, ← hread]
  simp only [hshort]
  cases lookup <;> rfl

end

theorem toList_environmentParameterName (service : String) (environment : EnvironmentName)
    (resource : String) :
    (environmentParameterName service environment resource).toList =
      '/' :: (environment.text.toList ++ '/' :: (service.toList ++
        '/' :: ("shared-resources".toList ++ '/' :: resource.toList))) := by
  show ("/" ++ environment.text ++ "/" ++ service ++ "/shared-resources/" ++ resource).toList = _
  have hmiddle : "/shared-resources/".toList = '/' :: ("shared-resources".toList ++ ['/']) := by
    decide
  rw [String.toList_append, String.toList_append, toList_slash, toList_service, hmiddle]
  simp only [List.cons_append, List.append_assoc, List.nil_append]

/-- The environment is what stands before the first slash. -/
theorem environmentParameterName_inj {service : String} {environment environment' : EnvironmentName}
    {resource resource' : String}
    (h : environmentParameterName service environment resource =
      environmentParameterName service environment' resource') :
    environment.text = environment'.text ∧ resource = resource' := by
  have hlist := congrArg String.toList h
  rw [toList_environmentParameterName, toList_environmentParameterName, List.cons_inj_right] at hlist
  have henvironment : environment.text.toList = environment'.text.toList := by
    have hsplit := congrArg (List.splitOn '/') hlist
    rw [List.splitOn_append_cons_self_of_not_mem environment.no_slash,
      List.splitOn_append_cons_self_of_not_mem environment'.no_slash] at hsplit
    exact (List.cons.inj hsplit).1
  rw [henvironment, List.append_cancel_left_eq, List.cons_inj_right, List.append_cancel_left_eq,
    List.cons_inj_right, List.append_cancel_left_eq, List.cons_inj_right] at hlist
  exact ⟨String.toList_inj.mp henvironment, String.toList_inj.mp hlist⟩

/-- A name of an environment has more pieces than one of the account. -/
theorem environmentParameterName_ne (service : String) (environment : EnvironmentName)
    (resource : String) (r : Identifier) :
    environmentParameterName service environment resource ≠ exportedName service r.text := by
  intro heq
  have hcount := congrArg (fun name => name.toList.count '/') heq
  obtain ⟨text, form⟩ := r
  have henvironment : environment.text.toList.count '/' = 0 :=
    List.count_eq_zero.mpr environment.no_slash
  cases form with
  | plain hslash hregion =>
    have htext : text.toList.count '/' = 0 := List.count_eq_zero.mpr hslash
    simp only [exportedName_plain hregion, toList_parameterName, toList_environmentParameterName,
      List.count_cons_self, List.count_append] at hcount
    omega
  | @crossRegion region name hregion hname =>
    have hregion' : region.toList.count '/' = 0 := List.count_eq_zero.mpr hregion
    have hname' : name.toList.count '/' = 0 := List.count_eq_zero.mpr hname
    simp only [exportedName_crossRegion hregion hname, toList_crossRegionParameterName,
      toList_environmentParameterName, List.count_cons_self, List.count_append] at hcount
    omega

end Ovipro.SharedResources
