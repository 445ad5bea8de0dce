import HedgedStore.Metrics.Description

/-! A registry knows the metrics that are handed to a collector. It takes each name once. -/
namespace HedgedStore

structure Registry where
  /-- What has been registered, the last one first. -/
  descriptions : List Description := []
deriving DecidableEq, Inhabited, Repr

structure AlreadyRegistered where
  name : String
deriving DecidableEq, Repr

namespace Registry

def knows (registry : Registry) (name : String) : Bool :=
  registry.descriptions.any (·.name == name)

def register (registry : Registry) (d : Description) : Except AlreadyRegistered Registry :=
  if registry.knows d.name then .error ⟨d.name⟩ else .ok ⟨d :: registry.descriptions⟩

/-- Registers one after another and stops where one is refused. What came before it stays. -/
def registerAll (registry : Registry) : List Description → Except AlreadyRegistered Unit × Registry
  | [] => (.ok (), registry)
  | d :: rest =>
    match registry.register d with
    | .error refusal => (.error refusal, registry)
    | .ok registry => registry.registerAll rest

end Registry

end HedgedStore
