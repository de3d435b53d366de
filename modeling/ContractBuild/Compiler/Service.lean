import ContractBuild.Compiler.Basic
import ContractBuild.Request.Wire

/-! The compiler that is a service on a network. A reply tells by its status whether the source was
accepted or rejected; any other status, and no reply at all, means that the service is
unavailable. -/
namespace ContractBuild

/-- A reply of a service. -/
structure Reply where
  status : Nat
  /-- The standard name of the status. -/
  statusName : String
  body : String

/-- A network: what comes back when a text is posted to a URL, or why nothing does. -/
abbrev Network := (url body : String) → Except String Reply

namespace Network

/-- The network that reaches nothing. -/
def unreachable : Network := fun _ _ => .error "connection refused"

end Network

/-- A service that compiles. -/
structure CompilerService where
  url : String
  network : Network

namespace CompilerService

/-- The status of a reply about a rejected source. -/
def rejectionStatus : Nat := 422

/-- The verdict that a reply gives. -/
def verdict (service : CompilerService) (reply : Reply) : Except DispatchError CompilerOutput :=
  if 200 ≤ reply.status ∧ reply.status < 300 then .ok ⟨reply.body, false⟩
  else if reply.status = rejectionStatus then .ok ⟨reply.body, true⟩
  else .error (.unavailable service.url s!"unexpected status {reply.status} {reply.statusName}")

/-- Compiles a request. -/
def send (service : CompilerService) (request : Request) : Except DispatchError CompilerOutput :=
  match service.network service.url request.toWire with
  | .ok reply => service.verdict reply
  | .error reason => .error (.unavailable service.url reason)

/-- The service as a compiler of a pipeline. -/
def toCompiler {σ : Type} (service : CompilerService) : Compiler σ where
  send request := fun world =>
    match service.send request with
    | .ok output => .ok output world
    | .error error => .error error world
  description := s!"remote compiler at {service.url}"

end CompilerService

end ContractBuild
