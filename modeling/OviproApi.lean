import OviproApi.HasPermission.Paths
import OviproApi.HasPermission.LevelGate
import OviproApi.Monotonicity
import OviproApi.Refinement
import OviproApi.MissingChildren
import OviproApi.OfficeDAO
import OviproApi.NoOracle
import OviproApi.Handler
import OviproApi.ErrorPipeline
import OviproApi.ErrorResponses
import OviproApi.GatewayResponses
import OviproApi.ResponseLogger
import OviproApi.ConnectionFactory
import OviproApi.InitChain
import OviproApi.JsonUtils
import OviproApi.SharedResources
import OviproApi.ParameterStore
import OviproApi.Lifecycle
import OviproApi.Migrations
import OviproApi.Aspects
import OviproApi.Logging
import OviproApi.EndpointEnvironment
import OviproApi.Revocation
import OviproApi.Inheritance
import OviproApi.Answers
import OviproApi.Transport
import OviproApi.ConnectionHistory
