import OviproApi.Logging
import OviproApi.ParameterStore

/-! The environment variables that the stacks give to the functions of the endpoints,
and what the functions make of them: the options of their connection and the constants
of their log. -/

namespace Ovipro.EndpointEnvironment
open SharedResources Logging

/-- Environment variables, or an object that they are given by. -/
abbrev Env := String → Option String

def ofFields (fields : List (String × String)) : Env := fun name => fields.lookup name

/-- `{ ...first, ...second }`. -/
def merged (first second : Env) : Env := fun name => (second name).or (first name)

structure DefaultApiEndpointResourcesProps where
  serviceName : String
  method : String
  version : Nat
  environmentParams : Env

/-- The variables that every function of the API has. -/
def ApiLambda.own (environmentName : String) (clusterArn secretArn : Option String) : Env :=
  ofFields [("DB_CLUSTER_ARN", clusterArn.getD ""), ("READ_WRITE_SECRET_ARN", secretArn.getD ""),
    ("ENVIRONMENT", environmentName)]

def ApiLambda.environment (environmentName : String) (clusterArn secretArn : Option String)
    (environment : Env) : Env :=
  merged (own environmentName clusterArn secretArn) environment

def DefaultApiEndpointResources.defaults (props : DefaultApiEndpointResourcesProps) : Env :=
  ofFields [("DB_NAME", "ovipro"), ("MODULE_NAME", "RealtyAPI"),
    ("API_VERSION", s!"v{props.version}"), ("METHOD", toUpperCase props.method),
    ("SERVICE_NAME", "UNDEFINED"), ("DB_LOGGING_ENABLED", "true"),
    ("SAMPLE_LOG_DEBUG_RATE", "100")]

/-- The service name stands last, so that no parameter replaces it. -/
def DefaultApiEndpointResources.environment (props : DefaultApiEndpointResourcesProps) : Env :=
  merged (merged (defaults props) props.environmentParams)
    (ofFields [("SERVICE_NAME", props.serviceName)])

section
variable (change : PascalCase) (service : String) (stack : Stack)
  (ssm : GetParameter → String → String)

/-- An import of a resource that is not declared, so that its type is `undefined`. -/
def OviproEnvironmentSharedResource.importUndeclared (useStagingEnvironmentValue : Bool) :
    Except String String :=
  if !stack.isFeature && useStagingEnvironmentValue then
    .error "Using staging environment's value only allowed in preview environments"
  else
    let stringValue := ssm .valueForStringParameter
      (OviproEnvironmentSharedResource.createParameterName change service stack "undefined"
        useStagingEnvironmentValue)
    if Ecma.includes stringValue "dummy-value-for-" then
      .error "Cannot read properties of undefined (reading 'toString')"
    else .ok stringValue

/-- The layer and the security group of every function. Neither of them is a declared
member of `SharedResourceType`. -/
def SharedLambdaResources : Except String (String × String) := do
  let realtyApiSharedResourceLayerArn ←
    OviproEnvironmentSharedResource.importUndeclared change service stack ssm false
  let apiEndpointLambdaSecurityGroup ←
    OviproEnvironmentSharedResource.importUndeclared change service stack ssm stack.isFeature
  return (realtyApiSharedResourceLayerArn, apiEndpointLambdaSecurityGroup)

variable (clusterArn : String → String) (fromSecretCompleteArn : String → Except String String)

/-- The ARN of a cluster with an identifier is given by `clusterArn`, and that of the
secret with a complete ARN by `fromSecretCompleteArn`. -/
def DefaultApiEndpointResources.handler (props : DefaultApiEndpointResourcesProps) :
    Except String Env := do
  let (_, clusterIdentifier) ← OviproEnvironmentSharedResource.import change service stack ssm
    SharedResourceType.databaseClusterIdentifier.text false true
  let (_, imported) ← OviproEnvironmentSharedResource.import change service stack ssm
    SharedResourceType.databaseReadWriteSecretArn.text false true
  let databaseSecretArn :=
    if Ecma.includes imported "dummy-value-for-" then
      "arn:aws:service:eu-central-1:123456789012:secret:entity-123456"
    else imported
  let secretArn ← fromSecretCompleteArn databaseSecretArn
  let _ ← SharedLambdaResources change service stack ssm
  return ApiLambda.environment (change.pascalCase stack.environment)
    (some (clusterArn clusterIdentifier)) (some secretArn) (environment props)

end

/-! The function. -/

section
variable (props : DefaultApiEndpointResourcesProps)
  (environmentName clusterArn secretArn region : String)

end

section
variable {change : PascalCase} {service : String} {stack : Stack}
  {ssm : GetParameter → String → String}

/-- What the function is given, in terms of the two imports. -/
theorem handler_eq (clusterArn : String → String)
    (fromSecretCompleteArn : String → Except String String)
    (props : DefaultApiEndpointResourcesProps) {clusterIdentifier secretArn : String}
    {getCluster getSecret : GetParameter × String}
    (hcluster : OviproEnvironmentSharedResource.import change service stack ssm
      SharedResourceType.databaseClusterIdentifier.text false true =
        .ok (getCluster, clusterIdentifier))
    (hsecret : OviproEnvironmentSharedResource.import change service stack ssm
      SharedResourceType.databaseReadWriteSecretArn.text false true = .ok (getSecret, secretArn))
    (hplain : Ecma.includes secretArn "dummy-value-for-" = false) :
    DefaultApiEndpointResources.handler change service stack ssm clusterArn fromSecretCompleteArn
      props = do
        let secretArn ← fromSecretCompleteArn secretArn
        let _ ← SharedLambdaResources change service stack ssm
        return ApiLambda.environment (change.pascalCase stack.environment)
          (some (clusterArn clusterIdentifier)) (some secretArn)
          (DefaultApiEndpointResources.environment props) := by
  unfold DefaultApiEndpointResources.handler
  rw [hcluster, hsecret]
  show (fromSecretCompleteArn (if _ then _ else secretArn) >>= _) = _
  rw [hplain, if_neg Bool.false_ne_true]

end

end Ovipro.EndpointEnvironment
