import OviproApi.Ecma.Text

/-! The resources that the stacks of an account share through the SSM Parameter
Store: under which name the data of one are exported, and under which name they
are imported. -/

namespace Ovipro.SharedResources

inductive SharedResourceType
  | vpcId
  | ecsClusterName
  | databaseClusterIdentifier
  | databaseSecurityGroupId
  | ecrRepositoryName
  | albLoadBalancerArn
  | albLoadBalancerListenerArn
  | albLoadBalancerSecurityGroupId
  | albSecretHttpHeaderValue
  | cacheClusterEndpointAddress
  | cacheClusterEndpointPort
  | cacheClusterSecurityGroupId
  | databaseSecretArn
  | databaseMigratorSecretArn
  | databaseReadWriteSecretArn
  | apiTestCognitoUserPoolArn
  | almaSsoManagementApiKeySecret
  | oauth2EtuoviClientId
  | oauth2EtuoviClientSecret
  | oauth2EtuoviApiKey
  | etuoviApiBaseUrl
  | etuoviPublicApiBaseUrl
  | testDataBucketName
  | staticMediaS3BucketArn
  | tempUploadedMediaS3BucketArn
  | topLevelHostedZoneId
  | topLevelHostedZoneName
  | internalSubdomainWildcardAcmCertificateArn
  | lambdaAuthorizerArn
  | environmentLoggroupArn
  | testSupportSgId
  | testSupportBucketName
  | codestarGithubAlmamediaConnectionArn
  | auroraMigratorLambdaSgId
  | templateApiEndpointExecuteUrl
  | imageProxyBucketToOrigin
  | globalWaclArn
  | cloudfrontSubdomainWildcardAcmCertificateArn
  | cloudfrontTopLevelHostedZoneName
  | cloudfrontTopLevelHostedZoneId
  deriving DecidableEq, Repr

def SharedResourceType.text : SharedResourceType → String
  | .vpcId => "VPC_ID"
  | .ecsClusterName => "ECS_CLUSTER_NAME"
  | .databaseClusterIdentifier => "DATABASE_CLUSTER_IDENTIFIER"
  | .databaseSecurityGroupId => "DATABASE_SECURITY_GROUP_ID"
  | .ecrRepositoryName => "ECR_REPOSITORY_NAME"
  | .albLoadBalancerArn => "ALB_LOAD_BALANCER_ARN"
  | .albLoadBalancerListenerArn => "ALB_LOAD_BALANCER_LISTENER_ARN"
  | .albLoadBalancerSecurityGroupId => "ALB_LOAD_BALANCER_SECURITY_GROUP_ID"
  | .albSecretHttpHeaderValue => "ALB_SECRET_HTTP_HEADER_VALUE"
  | .cacheClusterEndpointAddress => "CACHE_CLUSTER_ENDPOINT_ADDRESS"
  | .cacheClusterEndpointPort => "CACHE_CLUSTER_ENDPOINT_PORT"
  | .cacheClusterSecurityGroupId => "CACHE_CLUSTER_SECURITY_GROUP_ID"
  | .databaseSecretArn => "DATABASE_SECRET_ARN"
  | .databaseMigratorSecretArn => "DATABASE_MIGRATOR_SECRET_ARN"
  | .databaseReadWriteSecretArn => "DATABASE_READ_WRITE_SECRET_ARN"
  | .apiTestCognitoUserPoolArn => "API_TEST_COGNITO_USER_POOL_ARN"
  | .almaSsoManagementApiKeySecret => "ALMA_SSO_MANAGEMENT_API_KEY_SECRET"
  | .oauth2EtuoviClientId => "OAUTH2_ETUOVI_CLIENT_ID"
  | .oauth2EtuoviClientSecret => "OAUTH2_ETUOVI_CLIENT_SECRET"
  | .oauth2EtuoviApiKey => "OAUTH2_ETUOVI_API_KEY"
  | .etuoviApiBaseUrl => "ETUOVI_API_BASE_URL"
  | .etuoviPublicApiBaseUrl => "ETUOVI_PUBLIC_API_BASE_URL"
  | .testDataBucketName => "TEST_DATA_BUCKET_NAME"
  | .staticMediaS3BucketArn => "STATIC_MEDIA_S3_BUCKET_ARN"
  | .tempUploadedMediaS3BucketArn => "TEMP_UPLOADED_MEDIA_S3_BUCKET_ARN"
  | .topLevelHostedZoneId => "TOP_LEVEL_HOSTED_ZONE_ID"
  | .topLevelHostedZoneName => "TOP_LEVEL_HOSTED_ZONE_NAME"
  | .internalSubdomainWildcardAcmCertificateArn => "INTERNAL_SUBDOMAIN_WILDCARD_ACM_CERTIFICATE_ARN"
  | .lambdaAuthorizerArn => "LAMBDA_AUTHORIZER_ARN"
  | .environmentLoggroupArn => "ENVIRONMENT_LOGGROUP_ARN"
  | .testSupportSgId => "TEST_SUPPORT_SG_ID"
  | .testSupportBucketName => "TEST_SUPPORT_BUCKET_NAME"
  | .codestarGithubAlmamediaConnectionArn => "CODESTAR_GITHUB_ALMAMEDIA_CONNECTION_ARN"
  | .auroraMigratorLambdaSgId => "AURORA_MIGRATOR_LAMBDA_SG_ID"
  | .templateApiEndpointExecuteUrl => "TEMPLATE_API_ENDPOINT_EXECUTE_URL"
  | .imageProxyBucketToOrigin => "IMAGE_PROXY_BUCKET_TO_ORIGIN"
  | .globalWaclArn => "CROSS_REGION/us-east-1/GLOBAL_WACL_ARN"
  | .cloudfrontSubdomainWildcardAcmCertificateArn =>
    "CROSS_REGION/us-east-1/CLOUDFRONT_SUBDOMAIN_WILDCARD_ACM_CERTIFICATE_ARN"
  | .cloudfrontTopLevelHostedZoneName =>
    "CROSS_REGION/eu-west-1/CLOUDFRONT_TOP_LEVEL_HOSTED_ZONE_NAME"
  | .cloudfrontTopLevelHostedZoneId =>
    "CROSS_REGION/eu-west-1/CLOUDFRONT_TOP_LEVEL_HOSTED_ZONE_ID"

/-- The forms of an identifier that are documented: a plain one, and
`CROSS_REGION/<region>/<name>`. -/
inductive Form : String → Prop
  | plain {text : String} (hslash : '/' ∉ text.toList)
      (hregion : Ecma.includes text "CROSS_REGION" = false) : Form text
  | crossRegion {region name : String} (hregion : '/' ∉ region.toList)
      (hname : '/' ∉ name.toList) : Form s!"CROSS_REGION/{region}/{name}"

/-- An identifier of a shared resource, declared so far or not. -/
structure Identifier where
  text : String
  form : Form text

def createParameterName (service resourceType : String) : String := s!"/{service}/{resourceType}"

/-- `CROSS_REGION/us-east-1/EXAMPLE` is split into an ignored piece, `us-east-1`
and `EXAMPLE`. -/
def createCrossRegionParameterName (service resourceType : String) : String :=
  let pieces := (resourceType.toList.splitOn '/').map String.ofList
  let region := pieces[1]?.getD "undefined"
  let name := pieces[2]?.getD "undefined"
  s!"/{service}/{region}/{name}"

inductive RemovalPolicy
  | destroy
  | other (policy : String)
  deriving DecidableEq, Repr

/-- The construct that an export creates. -/
inductive Parameter
  | stringParameter (id parameterName stringValue : String) (description : Option String)
      (removalPolicy : RemovalPolicy)
  | crossRegionParameter (id region name description value : String)
  deriving DecidableEq, Repr

/-- The name under which the construct writes its value. -/
def Parameter.name : Parameter → String
  | stringParameter _ parameterName _ _ _ => parameterName
  | crossRegionParameter _ _ name _ _ => name

/-- The two functions of the CDK that give the value of a parameter. -/
inductive GetParameter
  | valueForStringParameter
  | valueFromLookup
  deriving DecidableEq, Repr

/-- A reference to a parameter that exists already. -/
structure StringParameterReference where
  id : String
  stringParameterName : String
  deriving DecidableEq, Repr

section
variable (pascalCase : String → String) (service : String)

def OviproAccountSharedResource.export (resource stringValue : String)
    (removalPolicy : Option RemovalPolicy) (description region : Option String) : Parameter :=
  let constructName := s!"{pascalCase resource}StringParameter"
  if !Ecma.includes resource "CROSS_REGION" then
    .stringParameter constructName (createParameterName service resource) stringValue description
      (removalPolicy.getD .destroy)
  else
    .crossRegionParameter constructName
      (if region.getD "" = "" then "eu-west-1" else region.getD "")
      (createCrossRegionParameterName service resource) (description.getD "") stringValue

/-- The imported value, together with what was read for it. -/
def OviproAccountSharedResource.import (ssm : GetParameter → String → String) (resource : String)
    (lookup : Bool) : (GetParameter × String) × String :=
  let getParameter := if !lookup then .valueForStringParameter else .valueFromLookup
  let parameterName :=
    if !Ecma.includes resource "CROSS_REGION" then createParameterName service resource
    else createCrossRegionParameterName service resource
  let stringValue := ssm getParameter parameterName
  let value :=
    -- `indexOf` is used as a condition, so it excludes only what starts with `_ARN`
    if Ecma.includes stringValue "dummy-value-for-" && Ecma.indexOf resource "_ARN" != 0 then
      if resource = SharedResourceType.staticMediaS3BucketArn.text then
        "arn:aws:s3:::dummybucketname"
      else stringValue
    else stringValue
  ((getParameter, parameterName), value)

/-- No difference is made for the resources of other regions. -/
def OviproAccountSharedResource.importResource (resource : String) : StringParameterReference where
  id := s!"{pascalCase resource}StringParameter"
  stringParameterName := createParameterName service resource

/-- The resource is imported under the name under which it is exported, and no
other one is exported under it. -/
structure Agrees (r : Identifier) : Prop where
  import_eq : ∀ stringValue removalPolicy description region ssm lookup,
    (OviproAccountSharedResource.import service ssm r.text lookup).1.2 =
      (OviproAccountSharedResource.export pascalCase service r.text stringValue removalPolicy
        description region).name
  importResource_eq : ∀ stringValue removalPolicy description region,
    (OviproAccountSharedResource.importResource pascalCase service r.text).stringParameterName =
      (OviproAccountSharedResource.export pascalCase service r.text stringValue removalPolicy
        description region).name
  apart : ∀ r' : Identifier, r'.text ≠ r.text →
    ∀ stringValue removalPolicy description region stringValue' removalPolicy' description' region',
      (OviproAccountSharedResource.export pascalCase service r'.text stringValue' removalPolicy'
        description' region').name ≠
      (OviproAccountSharedResource.export pascalCase service r.text stringValue removalPolicy
        description region).name

end

theorem toList_slash (front back : String) :
    (front ++ "/" ++ back).toList = front.toList ++ '/' :: back.toList := by
  have hslash : "/".toList = ['/'] := rfl
  rw [String.toList_append, String.toList_append, hslash, List.append_assoc, List.singleton_append]

theorem toList_service (service : String) : ("/" ++ service).toList = '/' :: service.toList := by
  have hslash : "/".toList = ['/'] := rfl
  rw [String.toList_append, hslash, List.singleton_append]

theorem toList_parameterName (service resource : String) :
    s!"/{service}/{resource}".toList = '/' :: (service.toList ++ '/' :: resource.toList) := by
  show ("/" ++ service ++ "/" ++ resource).toList = _
  rw [toList_slash, toList_service, List.cons_append]

theorem toList_crossRegionParameterName (service region name : String) :
    s!"/{service}/{region}/{name}".toList =
      '/' :: (service.toList ++ '/' :: (region.toList ++ '/' :: name.toList)) := by
  show ("/" ++ service ++ "/" ++ region ++ "/" ++ name).toList = _
  rw [toList_slash, toList_slash, toList_service]
  simp only [List.cons_append, List.append_assoc]

theorem toList_crossRegion (region name : String) :
    s!"CROSS_REGION/{region}/{name}".toList =
      "CROSS_REGION".toList ++ '/' :: (region.toList ++ '/' :: name.toList) := by
  show ("CROSS_REGION/" ++ region ++ "/" ++ name).toList = _
  have hprefix : "CROSS_REGION/".toList = "CROSS_REGION".toList ++ ['/'] := by decide
  rw [toList_slash, String.toList_append, hprefix]
  simp only [List.append_assoc, List.cons_append, List.nil_append]

theorem includes_crossRegion (region name : String) :
    Ecma.includes s!"CROSS_REGION/{region}/{name}" "CROSS_REGION" = true := by
  rw [Ecma.includes_iff, toList_crossRegion]
  exact (List.prefix_append ..).isInfix

/-! The declared resources. A literal text is read as the list of its characters,
which is what the searches compute with. -/

theorem form_of_search {text : String} {cs : List Char} (h : text = String.ofList cs)
    (hslash : '/' ∉ cs)
    (hsearch : Ecma.stringIndexOf ['C', 'R', 'O', 'S', 'S', '_', 'R', 'E', 'G', 'I', 'O', 'N'] cs =
      none) : Form text := by
  subst h
  apply Form.plain
  · rw [String.toList_ofList]
    exact hslash
  · unfold Ecma.includes
    rw [String.toList_ofList, String.toList_ofList, hsearch]
    rfl

theorem form_of_split {text : String} {cs region name : List Char} (h : text = String.ofList cs)
    (hsplit : cs.splitOn '/' =
      [['C', 'R', 'O', 'S', 'S', '_', 'R', 'E', 'G', 'I', 'O', 'N'], region, name]) :
    Form text := by
  have hpieces : ∀ piece ∈ [region, name], '/' ∉ (String.ofList piece).toList := by
    intro piece hpiece
    rw [String.toList_ofList]
    apply Ecma.not_mem_of_mem_splitOn
    rw [hsplit]
    exact List.mem_cons_of_mem _ hpiece
  have hjoin : ['/'].intercalate (cs.splitOn '/') = cs := List.intercalate_splitOn '/'
  have htext : text = s!"CROSS_REGION/{String.ofList region}/{String.ofList name}" := by
    rw [hsplit, List.intercalate_cons_cons, List.intercalate_cons_cons,
      List.intercalate_singleton] at hjoin
    rw [h, ← String.toList_inj, toList_crossRegion, String.toList_ofList, String.toList_ofList,
      String.toList_ofList, String.toList_ofList, ← hjoin]
    simp only [List.append_assoc, List.singleton_append]
  rw [htext]
  exact Form.crossRegion (hpieces region (by simp)) (hpieces name (by simp))

/-- Every declared resource has an identifier of a documented form. -/
theorem SharedResourceType.form (resource : SharedResourceType) : Form resource.text := by
  cases resource with
  | globalWaclArn => exact form_of_split rfl rfl
  | cloudfrontSubdomainWildcardAcmCertificateArn => exact form_of_split rfl rfl
  | cloudfrontTopLevelHostedZoneName => exact form_of_split rfl rfl
  | cloudfrontTopLevelHostedZoneId => exact form_of_split rfl rfl
  | _ => exact form_of_search rfl (by decide) (by decide)

def SharedResourceType.identifier (resource : SharedResourceType) : Identifier :=
  ⟨resource.text, resource.form⟩

/-! The names. -/

/-- The name under which a resource is exported, whatever else is given. -/
def exportedName (service resource : String) : String :=
  if !Ecma.includes resource "CROSS_REGION" then createParameterName service resource
  else createCrossRegionParameterName service resource

section
variable {pascalCase : String → String} {service : String}

theorem export_name (resource stringValue : String) (removalPolicy : Option RemovalPolicy)
    (description region : Option String) :
    (OviproAccountSharedResource.export pascalCase service resource stringValue removalPolicy
      description region).name = exportedName service resource := by
  unfold OviproAccountSharedResource.export exportedName
  cases Ecma.includes resource "CROSS_REGION" <;> rfl

theorem import_name (ssm : GetParameter → String → String) (resource : String) (lookup : Bool) :
    (OviproAccountSharedResource.import service ssm resource lookup).1.2 =
      exportedName service resource := rfl

theorem exportedName_plain {text : String} (h : Ecma.includes text "CROSS_REGION" = false) :
    exportedName service text = s!"/{service}/{text}" := by
  unfold exportedName
  rw [h]
  rfl

theorem exportedName_crossRegion {region name : String} (hregion : '/' ∉ region.toList)
    (hname : '/' ∉ name.toList) :
    exportedName service s!"CROSS_REGION/{region}/{name}" = s!"/{service}/{region}/{name}" := by
  have hslash : '/' ∉ "CROSS_REGION".toList := by decide
  have hsplit : s!"CROSS_REGION/{region}/{name}".toList.splitOn '/' =
      ["CROSS_REGION".toList, region.toList, name.toList] := by
    rw [toList_crossRegion, List.splitOn_append_cons_self_of_not_mem hslash,
      List.splitOn_append_cons_self_of_not_mem hregion, List.splitOn_eq_singleton hname]
  unfold exportedName createCrossRegionParameterName
  rw [includes_crossRegion, hsplit]
  show s!"/{service}/{String.ofList region.toList}/{String.ofList name.toList}" = _
  rw [String.ofList_toList, String.ofList_toList]

end

/-- The identifier that was exported under a name. -/
def resourceOf (service parameterName : String) : String :=
  match (parameterName.toList.drop (service.toList.length + 2)).splitOn '/' with
  | [text] => .ofList text
  | pieces => .ofList (['/'].intercalate ("CROSS_REGION".toList :: pieces))

/-- The identifier can be read back from the name. -/
theorem resourceOf_exportedName (service : String) (r : Identifier) :
    resourceOf service (exportedName service r.text) = r.text := by
  have hdrop : ∀ path : List Char,
      ('/' :: (service.toList ++ '/' :: path)).drop (service.toList.length + 2) = path := by
    intro path
    rw [List.drop_succ_cons, List.drop_append, List.drop_eq_nil_of_le (by omega)]
    simp
  obtain ⟨text, form⟩ := r
  unfold resourceOf
  cases form with
  | plain hslash hregion =>
    rw [exportedName_plain hregion, toList_parameterName, hdrop, List.splitOn_eq_singleton hslash]
    exact String.ofList_toList
  | @crossRegion region name hregion hname =>
    have hsplit : (region.toList ++ '/' :: name.toList).splitOn '/' =
        [region.toList, name.toList] := by
      rw [List.splitOn_append_cons_self_of_not_mem hregion, List.splitOn_eq_singleton hname]
    rw [exportedName_crossRegion hregion hname, toList_crossRegionParameterName, hdrop, hsplit]
    show String.ofList (['/'].intercalate ["CROSS_REGION".toList, region.toList, name.toList]) = _
    rw [← String.toList_inj, String.toList_ofList, toList_crossRegion, List.intercalate_cons_cons,
      List.intercalate_cons_cons, List.intercalate_singleton]
    simp only [List.append_assoc, List.singleton_append]

theorem exportedName_injective (service : String) {r r' : Identifier}
    (h : exportedName service r.text = exportedName service r'.text) : r.text = r'.text := by
  have hread := congrArg (resourceOf service) h
  rw [resourceOf_exportedName, resourceOf_exportedName] at hread
  exact hread

/-- What `importResource` reads is longer than what `export` writes. -/
theorem createParameterName_ne (service : String) {r : Identifier}
    (h : Ecma.includes r.text "CROSS_REGION" = true) :
    createParameterName service r.text ≠ exportedName service r.text := by
  obtain ⟨text, form⟩ := r
  cases form with
  | plain hslash hregion =>
    rw [hregion] at h
    cases h
  | crossRegion hregion hname =>
    intro heq
    have hlength := congrArg (fun name => name.toList.length) heq
    unfold createParameterName at hlength
    rw [exportedName_crossRegion hregion hname] at hlength
    simp only [toList_parameterName, toList_crossRegionParameterName, toList_crossRegion,
      List.length_cons, List.length_append] at hlength
    have hprefix : "CROSS_REGION".toList.length = 12 := rfl
    omega

/-- The operations agree exactly on the plain identifiers. -/
theorem agrees_iff (pascalCase : String → String) (service : String) (r : Identifier) :
    Agrees pascalCase service r ↔ Ecma.includes r.text "CROSS_REGION" = false := by
  constructor
  · intro h
    have hread := h.importResource_eq "" none none none
    rw [export_name] at hread
    cases hincludes : Ecma.includes r.text "CROSS_REGION" with
    | false => rfl
    | true => exact absurd hread (createParameterName_ne service hincludes)
  · intro h
    refine ⟨?_, ?_, ?_⟩
    · intro stringValue removalPolicy description region ssm lookup
      rw [import_name, export_name]
    · intro stringValue removalPolicy description region
      rw [export_name, exportedName_plain h]
      rfl
    · intro r' hne stringValue removalPolicy description region _ _ _ _ hname
      rw [export_name, export_name] at hname
      exact hne (exportedName_injective service hname)

theorem globalWaclArn_disagrees :
    ¬ ∀ (pascalCase : String → String) (service : String) (r : Identifier),
      Agrees pascalCase service r := by
  intro h
  have hincludes : Ecma.includes SharedResourceType.globalWaclArn.identifier.text "CROSS_REGION" =
      true := by decide
  have hread := (h id "ovipro" SharedResourceType.globalWaclArn.identifier).importResource_eq
    "" none none none
  rw [export_name] at hread
  exact createParameterName_ne "ovipro" hincludes hread

end Ovipro.SharedResources
