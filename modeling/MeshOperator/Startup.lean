import MeshOperator.Config
import MeshOperator.Log.Logger
import MeshOperator.Revision.Key

/-!
# Starting up

The operator starts by reading its configuration, serving its counts on a port and finding the
configuration of the cluster. A port that is taken is only logged; without a configuration of either
kind it does not start.
-/

namespace MeshOperator

/-- What is there when the operator starts. -/
structure Surroundings where
  environment : List (String × String)
  /-- whether the port for the counts is taken -/
  portTaken : Bool
  /-- whether the operator runs in the cluster -/
  inCluster : Bool
  /-- whether there is a configuration of the cluster on disk -/
  hasFile : Bool
  clock : Double

/-- A step of starting. -/
inductive StartStep where
  | serveCounts (port : Int)
  | loadFromCluster
  | loadFromFile
deriving DecidableEq, Repr

/-- What the handlers are run with. -/
structure Settings where
  workers : Int
  requestTimeout : Double
  finalizer : String
  postingLevel : Int
deriving DecidableEq, Repr

/-- How a start went: the steps taken, the records written, and the configuration with the settings,
or the fault. -/
structure Start where
  steps : List StartStep
  records : List Log.Record
  outcome : Except Fault (Config × Settings)

/-- the settings of a configuration -/
def Config.settings (c : Config) : Settings := ⟨c.workers, c.requestTimeout, finalizer, 0⟩

/-- the fault of a start without a configuration of the cluster -/
def noConfiguration : Fault :=
  .noCluster "Invalid kube-config file. No configuration found."

/-- the record of a port that is taken -/
def portTakenRecord (clock : Double) : Log.Record :=
  Log.operatorRecord clock .warning
    "Metrics server not started: [Errno 98] Address already in use"
    [("event", .text "startup"), ("reason", .text "MetricsUnavailable")]

/-- Starts the operator. -/
def start (s : Surroundings) : Start :=
  match Config.ofEnvironment s.environment with
  | .error f => ⟨[], [], .error f⟩
  | .ok c =>
    { steps := [.serveCounts c.metricsPort, .loadFromCluster]
        ++ (if s.inCluster then [] else [.loadFromFile])
      records := if s.portTaken then [portTakenRecord s.clock] else []
      outcome :=
        if s.inCluster || s.hasFile then .ok (c, c.settings) else .error noConfiguration }

end MeshOperator
