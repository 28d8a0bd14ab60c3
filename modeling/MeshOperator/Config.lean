import MeshOperator.Fault

/-!
# Configuration

What the operator is set up with, read once from the environment, and the delays between tries of a
failing reconcile.

* `Config.ofEnvironment`: the configuration of an environment, or why it makes none.
* `Config.backoff`: the delay before the next try.
-/

namespace MeshOperator

/-- What the operator is set up with. Times are in seconds. -/
structure Config where
  /-- where the charts of all versions are -/
  resources : String
  helmBinary : String
  helmTimeout : Double
  workers : Int
  metricsPort : Int
  requestTimeout : Double
  backoffBase : Double
  backoffMax : Double
deriving DecidableEq, Repr

namespace Config

/-- what holds where the environment says nothing -/
def standard : Config where
  resources := "/var/lib/istio-operator/resources"
  helmBinary := "helm"
  helmTimeout := .ofInt 300
  workers := 4
  metricsPort := 8080
  requestTimeout := .ofInt 30
  backoffBase := .ofDecimal false 5 (-3)
  backoffMax := .ofInt 1000

/-- a configuration, unless it has no worker or its delays are out of order -/
def check (c : Config) : Except ConfigFault Config :=
  if c.workers < 1 then .error (.workers c.workers)
  else if c.backoffBase.le (.zero false) || c.backoffMax.lt c.backoffBase then
    .error (.backoff c.backoffBase c.backoffMax)
  else .ok c

/-- the name that a setting has in the environment -/
def variableName (setting : String) : String := "ISTIO_OPERATOR_" ++ setting

/-- the value of a setting in an environment -/
def lookup? (env : List (String × String)) (setting : String) : Option String :=
  env.lookup (variableName setting)

/-- a setting that is a number -/
def double (env : List (String × String)) (setting : String) (default : Double) :
    Except Fault Double :=
  match lookup? env setting with
  | none => .ok default
  | some s => orFault .number (readDouble s.toList)

/-- a setting that is an integer -/
def integer (env : List (String × String)) (setting : String) (default : Int) : Except Fault Int :=
  match lookup? env setting with
  | none => .ok default
  | some s => orFault .number (readInteger 10 s.toList)

/-- The configuration of an environment. The settings are read in a fixed order, and the first that
cannot be read is the fault; then they are checked together. -/
def ofEnvironment (env : List (String × String)) : Except Fault Config := do
  let d := standard
  let helmTimeout ← double env "HELM_TIMEOUT" d.helmTimeout
  let workers ← integer env "WORKERS" d.workers
  let metricsPort ← integer env "METRICS_PORT" d.metricsPort
  let requestTimeout ← double env "REQUEST_TIMEOUT" d.requestTimeout
  let backoffBase ← double env "BACKOFF_BASE_SECONDS" d.backoffBase
  let backoffMax ← double env "BACKOFF_MAX_SECONDS" d.backoffMax
  orFault .config <| check {
    resources := (lookup? env "RESOURCE_DIR").getD d.resources
    helmBinary := (lookup? env "HELM_BINARY").getD d.helmBinary
    helmTimeout, workers, metricsPort, requestTimeout, backoffBase, backoffMax }

/-- the retry from which on two to its power is past all numbers -/
def retryLimit : Int := 1024

/-- The delay before the next try: the base doubled with each retry, at most the maximum. -/
def backoff (c : Config) (retry : Int) : Double :=
  if retryLimit ≤ retry then c.backoffMax
  else
    let delay := c.backoffBase.mul (.timesPowerOfTwo retry (.ofInt 1))
    if c.backoffMax.lt delay then c.backoffMax else delay

end Config

end MeshOperator
