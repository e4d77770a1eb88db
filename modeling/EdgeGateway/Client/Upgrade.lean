import EdgeGateway.Config.Settings

/-!
# The upgrade

A client asks for its socket with a request for a path. The gateway serves one path; what the client
puts behind the path, a query or a fragment, does not matter.
-/

namespace EdgeGateway

/-- What a client is told that asks for a socket. -/
inductive UpgradeAnswer where
  | accepted
  | notFound
  deriving Repr, DecidableEq

/-- The path that a request is for. -/
def requestPath (target : String) : String :=
  match target.toList.takeWhile fun c ↦ c ≠ '?' && c ≠ '#' with
  | [] => "/"
  | path => String.ofList path

/-- The answer to a request for a socket. -/
def Settings.upgrade (s : Settings) (target : String) : UpgradeAnswer :=
  if requestPath target = s.path then .accepted else .notFound

end EdgeGateway
