import InstanceResize.Document.Schema

/-!
# Elastic addresses

An account owns addresses, each under an allocation. An address is open while it is not associated
with an instance.
-/

namespace InstanceResize

/-- An address that the account owns. -/
structure Address where
  publicIp : String
  allocationId : String
  /-- Set while the address is associated with an instance. -/
  associationId : Option String
  instanceId : Option String
deriving Repr, DecidableEq, Inhabited

namespace Address

/-- An address that is associated with no instance. -/
def free (publicIp allocationId : String) : Address := ⟨publicIp, allocationId, none, none⟩

/-- Whether an address is associated with no instance; an association without a name is none. -/
def isOpen (a : Address) : Bool := a.associationId.all (· == "")

/-- The open ones of several addresses. -/
def openOnes (addresses : List Address) : List Address := addresses.filter isOpen

def schema : Schema Address :=
  (Schema.record <| .field "public_ip" .text none <| .field "allocation_id" .text none <|
    .optional "association_id" .text <| .optional "instance_id" .text .none).iso
    (fun (ip, allocation, association, id, _) => ⟨ip, allocation, association, id⟩)
    (fun a => (a.publicIp, a.allocationId, a.associationId, a.instanceId, ()))

end Address

end InstanceResize
