/-
  ServiceRegistry.Access.Role

  Who may do what. Every role may read, services may also register themselves, and only
  administrators may shut down others.
-/

namespace ServiceRegistry.Access

/-- What a request needs to be allowed. -/
inductive Permission
  /-- Listing, finding and looking up. -/
  | serviceRead
  /-- Registering and removing. -/
  | serviceRegister
  /-- Shutting down other services. -/
  | serviceShutdown
  deriving DecidableEq, Repr

/-- The name of a permission in messages. -/
def Permission.name : Permission → String
  | serviceRead => "ServiceRead"
  | serviceRegister => "ServiceRegister"
  | serviceShutdown => "ServiceShutdown"

/-- All permissions in the order of their names. -/
def Permission.all : List Permission := [.serviceRead, .serviceRegister, .serviceShutdown]

/-- What the holder of a token is. -/
inductive Role
  | admin
  | service
  | viewer
  deriving DecidableEq, Repr

namespace Role

/-- All roles. -/
def all : List Role := [admin, service, viewer]

/-- The name of a role in messages. -/
def name : Role → String
  | admin => "Admin"
  | service => "Service"
  | viewer => "Viewer"

/-- The name of a role in small letters. -/
def shortName : Role → String
  | admin => "admin"
  | service => "service"
  | viewer => "viewer"

/-- The role with one of these names. -/
def read? (text : String) : Option Role :=
  all.find? fun r => r.name == text || r.shortName == text

/-- The text that refuses any other name. -/
def readError : String := "Invalid role. Use Admin, Service, or Viewer."

/-- The role has a permission. -/
def grants : Role → Permission → Bool
  | admin, _ => true
  | service, p => p != .serviceShutdown
  | viewer, p => p == .serviceRead

/-- The permissions of a role. -/
def permissions (r : Role) : List Permission := Permission.all.filter r.grants

end Role

end ServiceRegistry.Access
