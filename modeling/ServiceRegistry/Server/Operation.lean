/-
  ServiceRegistry.Server.Operation

  The operations that requests ask for, where they are found, and what requests for a path
  must be allowed. The pages that describe the registry to people and tools, below
  `/swagger-ui` and `/api-docs`, are left out: here their paths lead nowhere.
-/
import ServiceRegistry.Access.Role
import ServiceRegistry.Text.Segments

namespace ServiceRegistry.Server

open Access (Permission)

/-- What the registry does for a request. -/
inductive Operation
  | register
  | deregister
  | list
  | target
  | lookup
  | shutdown
  | processShutdown
  deriving DecidableEq, Repr

namespace Operation

/-- All operations. -/
def all : List Operation := [register, deregister, list, target, lookup, shutdown, processShutdown]

/-- The last part of the path of an operation. -/
def name : Operation → String
  | register => "register"
  | deregister => "deregister"
  | list => "list"
  | target => "target"
  | lookup => "lookup"
  | shutdown => "shutdown"
  | processShutdown => "process-shutdown"

/-- The operation with a name. -/
def ofName? (text : String) : Option Operation := all.find? (·.name == text)

end Operation

/-! ## Paths -/

/-- The beginning of the paths of all operations. -/
def registryRoot : String := "/api/registry/"

/-- The path of an operation. -/
def Operation.path (op : Operation) : String := registryRoot ++ op.name

/-- What a path leads to. -/
inductive Resource
  | health
  | operation (op : Operation)
  deriving DecidableEq, Repr

namespace Resource

/-- What a path leads to, if it leads anywhere. -/
def ofPath? (path : String) : Option Resource :=
  if path = "/health" then some health
  else ((Text.dropBeginning? registryRoot path).bind Operation.ofName?).map operation

/-- The methods of a resource. -/
def methods : Resource → List String
  | health => ["GET", "HEAD"]
  | operation _ => ["POST"]

end Resource

/-- What a request for a path must be allowed; nothing outside the registry. Every other path
of the registry needs what reading needs, also one that leads nowhere. -/
def requiredPermission? (path : String) : Option Permission :=
  (Text.dropBeginning? registryRoot path).map fun
    | "register" | "deregister" | "process-shutdown" => .serviceRegister
    | "shutdown" => .serviceShutdown
    | _ => .serviceRead

end ServiceRegistry.Server
