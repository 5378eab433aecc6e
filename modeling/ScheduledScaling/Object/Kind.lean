/-!
The kinds of objects the operator deals with. It scales two kinds of workload and cleans up nine
kinds of resource, two of which live outside namespaces.
-/
namespace ScheduledScaling

/-- The kinds of workload that can be scaled. -/
inductive WorkloadKind where
  | deployment
  | statefulSet
  deriving DecidableEq, Repr, Inhabited

namespace WorkloadKind

def name : WorkloadKind → String
  | deployment => "Deployment"
  | statefulSet => "StatefulSet"

def ofName? (name : String) : Option WorkloadKind :=
  [deployment, statefulSet].find? fun k => k.name = name

theorem ofName?_name (k : WorkloadKind) : ofName? k.name = some k := by
  cases k <;> decide

end WorkloadKind

/-- Where the objects of a kind live. -/
inductive Scope where
  | namespaced
  | cluster
  deriving DecidableEq, Repr

/-- The kinds of resource that can be cleaned up. -/
inductive ResourceKind where
  | deployment
  | statefulSet
  | service
  | configMap
  | secret
  | role
  | roleBinding
  | clusterRole
  | clusterRoleBinding
  deriving DecidableEq, Repr

namespace ResourceKind

def all : List ResourceKind :=
  [deployment, statefulSet, service, configMap, secret, role, roleBinding, clusterRole,
    clusterRoleBinding]

def name : ResourceKind → String
  | deployment => "Deployment"
  | statefulSet => "StatefulSet"
  | service => "Service"
  | configMap => "ConfigMap"
  | secret => "Secret"
  | role => "Role"
  | roleBinding => "RoleBinding"
  | clusterRole => "ClusterRole"
  | clusterRoleBinding => "ClusterRoleBinding"

def ofName? (name : String) : Option ResourceKind := all.find? fun k => k.name = name

def scope : ResourceKind → Scope
  | clusterRole | clusterRoleBinding => .cluster
  | _ => .namespaced

theorem mem_all (k : ResourceKind) : k ∈ all := by cases k <;> decide

theorem ofName?_name (k : ResourceKind) : ofName? k.name = some k := by
  cases k <;> decide

end ResourceKind

end ScheduledScaling
