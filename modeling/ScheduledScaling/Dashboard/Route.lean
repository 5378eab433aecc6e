import ScheduledScaling.Dashboard.Page
import ScheduledScaling.Dashboard.View
/-!
The requests the dashboard answers. All of them read; slashes at the end of a path do not count.
-/
namespace ScheduledScaling

/-- What a path asks for. -/
inductive Route where
  | page
  | health
  | schedules
  | schedule (ns name : String)
  | unknown
  deriving DecidableEq, Repr

namespace Route

def schedulesPath : String := "/api/v1/schedules"

def dropSlashes (path : List Char) : List Char := (path.reverse.dropWhile (· = '/')).reverse

/-- The schedule that a path below the listing names. -/
def scheduleOf (path : List Char) : Option Route := do
  let rest ← Text.dropPrefix? (schedulesPath.toList ++ ['/']) path
  match Text.pieces (· = '/') rest with
  | [ns, name] =>
    if ns = [] ∨ name = [] then none else some (schedule (String.ofList ns) (String.ofList name))
  | _ => none

def ofPath (path : String) : Route :=
  let path := dropSlashes path.toList
  if path = [] then page
  else if path = "/healthz".toList then health
  else if path = schedulesPath.toList then schedules
  else (scheduleOf path).getD unknown

end Route

inductive Body where
  | text (s : String)
  | html (s : String)
  | json (v : Json)
  deriving Repr

def Body.contentType : Body → Option String
  | text _ => none
  | html _ => some "text/html; charset=utf-8"
  | json _ => some "application/json"

structure Response where
  status : Nat
  body : Body
  deriving Repr

namespace Dashboard

def respondList : Program Response := do
  match ← Operation.listSchedules.run with
  | .error _ => return ⟨500, .text "Failed to list schedules"⟩
  | .ok schedules =>
    return ⟨200, .json (.array ((← viewsOf schedules).map ScheduleView.toJson))⟩

def respondOne (ns name : String) : Program Response := do
  match ← (Operation.getSchedule ns name).run with
  | .error _ => return ⟨500, .text "Failed to get schedule"⟩
  | .ok none => return ⟨404, .text "Schedule not found"⟩
  | .ok (some s) => return ⟨200, .json (← viewOf s).toJson⟩

def respondTo : Route → Program Response
  | .page => return ⟨200, .html page⟩
  | .health => return ⟨200, .text "OK"⟩
  | .schedules => respondList
  | .schedule ns name => respondOne ns name
  | .unknown => return ⟨404, .text "Not Found"⟩

/-- Answers a request. -/
def respond (method path : String) : Program Response :=
  if method = "GET" then respondTo (.ofPath path)
  else return ⟨405, .text "Method Not Allowed"⟩

end Dashboard

end ScheduledScaling
