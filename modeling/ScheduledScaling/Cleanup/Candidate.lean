import ScheduledScaling.Object.Metadata
/-!
What the cleanup has to know about a resource that was listed.
-/
namespace ScheduledScaling

structure Candidate where
  kind : String
  name : String
  /-- The namespace; none for resources outside namespaces. -/
  ns : Option String
  /-- The identity of the object, so that no other one of its name is deleted. -/
  uid : Option String
  annotations : Keyed String
  created : Option Instant
  deriving DecidableEq, Repr, Inhabited

/-- The candidate of a kind with some metadata. -/
def Candidate.ofMeta (kind : String) (m : ObjectMeta) : Candidate where
  kind := kind
  name := m.name.getD ""
  ns := m.ns
  uid := m.uid
  annotations := m.annotations.getD []
  created := m.created

end ScheduledScaling
