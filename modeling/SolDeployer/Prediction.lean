import SolDeployer.Deployer

/-!
# Predicted addresses

Where the libraries of a contract go when they are deployed. The address
of a library depends on its linked bytecode alone, and the libraries come
in order of deployment, so the addresses that a library needs are known
before its own.
-/

namespace SolDeployer

def textValue : Json → Except Failure String
  | .str text => .ok text
  | _ => .error .unexpectedType

/-- The address that a contract gives to code it creates, the parts as a
document gives them. They are looked at in a fixed order: deployer, salt,
their sizes, code. -/
def create2 (deployer initcode salt : Json) : Except Failure String := do
  let deployer ← textValue deployer
  if (Hex.markedBytes? deployer.toList).isNone then .error (.create2 .notHex)
  let salt ← textValue salt
  match initcode with
  | .str initcode => (Address.create2 deployer initcode salt).mapError .create2
  | _ =>
    discard ((Address.create2 deployer "" salt).mapError .create2)
    .error .unexpectedType

/-- The addresses of the parameters of a bytecode, by name. -/
def addressesFor (byKey : Entries String String) :
    List Parameter → Except Failure (List (String × String))
  | [] => .ok []
  | parameter :: rest =>
    match byKey.get? parameter.library.key with
    | none => .error (.noAddress parameter.library.key)
    | some text => (addressesFor byKey rest).map ((parameter.name, text) :: ·)

/-- The address of a library, the addresses of earlier ones being known. -/
def predictOne (deployer : Json) (byKey : Entries String String) (library : Resolved) :
    Report String := do
  let code ← Deployer.segmentArtifact library.artifact
  Report.ofExcept do
    let addresses ← addressesFor byKey code.parameters
    let linked ← (link (Entries.ofList addresses) code.segments).mapError Failure.ofLinkError
    create2 deployer (.str (String.ofList linked)) (.str Address.zeroSalt)

/-- The addresses of the libraries from the next one on, in order. -/
def predictFrom (deployer : Json) (byKey : Entries String String) :
    List Resolved → Report (List (String × String))
  | [] => pure []
  | library :: rest => do
    let text ← predictOne deployer byKey library
    let others ← predictFrom deployer (byKey.insert library.key text) rest
    return (library.identifier, text) :: others

/-- Where the libraries go when a contract deploys them: addresses by
identifier. -/
def predict (deployer : Json) (libraries : List Resolved) : Report (Entries String String) := do
  return Entries.ofList (← predictFrom deployer [] libraries)

end SolDeployer
