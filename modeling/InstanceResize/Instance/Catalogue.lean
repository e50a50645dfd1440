import InstanceResize.Document.Schema

/-!
# Instance types

A catalogue lists the types that an instance may be changed to. It is ordered by family, then by
size, then by name.
-/

namespace InstanceResize

/-- An entry of the catalogue. -/
structure InstanceType where
  name : String
  vcpus : UInt32
  memoryMib : UInt32
  storage : String
  networkPerformance : String
deriving Repr, DecidableEq, Inhabited

namespace InstanceType

/-- The family of a type: its name up to the first point. -/
def family (t : InstanceType) : String := String.ofList (t.name.toList.takeWhile (· ≠ '.'))

/-- The order of the catalogue. -/
def order (a b : InstanceType) : Ordering :=
  (compare a.family b.family).then <| (compare a.vcpus b.vcpus).then <|
    (compare a.memoryMib b.memoryMib).then <| compare a.name b.name

/-- Whether an entry may stand before another one. -/
def mayPrecede (a b : InstanceType) : Bool := (order a b).isLE

/-- The catalogue of the given entries in its order; entries that are equal in it stay as they
stand. -/
def catalogue (types : List InstanceType) : List InstanceType := types.mergeSort mayPrecede

def schema : Schema InstanceType :=
  (Schema.record <| .field "name" .text none <| .field "vcpus" .uint32 none <|
    .field "memory_mib" .uint32 none <| .field "storage" .text none <|
    .field "network_performance" .text none .none).iso
    (fun (name, vcpus, memory, storage, network, _) => ⟨name, vcpus, memory, storage, network⟩)
    (fun t => (t.name, t.vcpus, t.memoryMib, t.storage, t.networkPerformance, ()))

end InstanceType

end InstanceResize
