import PluginKernel.Assoc

/-!
# Health

What a server answers about its services. The empty name stands for the server as a whole. A service
that has never been given a status has none.
-/

namespace PluginKernel

/-- Whether a service is up. -/
inductive ServingStatus where
  /-- It is not known. -/
  | unknown
  /-- It is up. -/
  | serving
  /-- It is down. -/
  | notServing
deriving DecidableEq, Repr

/-- The status of each service that has one. -/
abbrev Health : Type := Assoc ServingStatus

namespace Health

/-- No service has a status. -/
def empty : Health := []

/-- The status of a service. -/
def status (h : Health) (service : String) : Option ServingStatus := Assoc.get? service h

/-- Give a service a status. -/
def set (h : Health) (service : String) (status : ServingStatus) : Health :=
  Assoc.insert service status h

/-- Mark a server and its services as up. -/
def serve (h : Health) (services : List String) : Health :=
  ("" :: services).foldl (fun h service => h.set service .serving) h

/-- Mark every service that has a status as down. -/
def shutdown (h : Health) : Health := Assoc.mapValues (fun _ => .notServing) h

end Health

end PluginKernel
