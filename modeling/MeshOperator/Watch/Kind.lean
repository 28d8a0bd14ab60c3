import MeshOperator.Revision.Ownership

/-!
# Watched kinds

The kinds of objects that are installed for revisions and whose changes are followed, and the
revision that a changed object belongs to.
-/

namespace MeshOperator

/-- A kind of objects: its group and version, its name in requests and its own name. -/
structure WatchedKind where
  group : String
  version : String
  plural : String
  kind : String
  /-- whether its objects are in namespaces -/
  namespaced : Bool := true
  /-- whether its updates are looked at before they are followed -/
  filtered : Bool := false
deriving DecidableEq, Repr

namespace WatchedKind

/-- the name in requests with the group -/
def resource (k : WatchedKind) : String :=
  if k.group = "" then k.plural else k.plural ++ "." ++ k.group

/-- the kinds in namespaces -/
def inNamespaces : List WatchedKind := [
  { group := "", version := "v1", plural := "configmaps", kind := "ConfigMap" },
  { group := "apps", version := "v1", plural := "deployments", kind := "Deployment" },
  { group := "apps", version := "v1", plural := "daemonsets", kind := "DaemonSet" },
  { group := "", version := "v1", plural := "endpoints", kind := "Endpoints" },
  { group := "", version := "v1", plural := "resourcequotas", kind := "ResourceQuota" },
  { group := "", version := "v1", plural := "secrets", kind := "Secret" },
  { group := "", version := "v1", plural := "services", kind := "Service" },
  { group := "", version := "v1", plural := "serviceaccounts", kind := "ServiceAccount" },
  { group := "rbac.authorization.k8s.io", version := "v1", plural := "roles", kind := "Role" },
  { group := "rbac.authorization.k8s.io", version := "v1", plural := "rolebindings",
    kind := "RoleBinding" },
  { group := "policy", version := "v1", plural := "poddisruptionbudgets",
    kind := "PodDisruptionBudget" },
  { group := "autoscaling", version := "v2", plural := "horizontalpodautoscalers",
    kind := "HorizontalPodAutoscaler" },
  { group := "networking.istio.io", version := "v1alpha3", plural := "envoyfilters",
    kind := "EnvoyFilter" }]

/-- the configurations of validating webhooks -/
def validatingWebhooks : WatchedKind where
  group := "admissionregistration.k8s.io"
  version := "v1"
  plural := "validatingwebhookconfigurations"
  kind := "ValidatingWebhookConfiguration"
  namespaced := false
  filtered := true

/-- the kinds without namespaces -/
def clusterWide : List WatchedKind := [
  { group := "rbac.authorization.k8s.io", version := "v1", plural := "clusterroles",
    kind := "ClusterRole", namespaced := false },
  { group := "rbac.authorization.k8s.io", version := "v1", plural := "clusterrolebindings",
    kind := "ClusterRoleBinding", namespaced := false },
  { group := "admissionregistration.k8s.io", version := "v1",
    plural := "mutatingwebhookconfigurations", kind := "MutatingWebhookConfiguration",
    namespaced := false },
  validatingWebhooks]

/-- all watched kinds -/
def all : List WatchedKind := inNamespaces ++ clusterWide

/-- the kind with a name in requests -/
def ofResource? (resource : String) : Option WatchedKind :=
  all.find? fun k => k.resource = resource

/-- The revision that a changed object of a kind belongs to. -/
def owner? (k : WatchedKind) (object : Data) : Except Fault (Option Key) :=
  if k.namespaced then ownerOfReferences? object else ownerOfAnnotations? object

end WatchedKind

end MeshOperator
