/-!
# Instance identifiers

An identifier is a text, and identifiers are ordered by their bytes. The devices
of an instance carry the first letters and digits of its identifier.
-/

namespace VmNode

/-- The identifier of an instance. -/
abbrev InstanceId := String

namespace InstanceId

/-- The ASCII letters and digits of the identifier, in order. -/
def compact (id : InstanceId) : String :=
  String.ofList (id.toList.filter Char.isAlphanum)

/-- The part of the compact identifier that device names carry. -/
def deviceSuffix (id : InstanceId) : String :=
  String.ofList ((id.toList.filter Char.isAlphanum).take 12)

/-- The identifiers in increasing order; those that are equal stay in place. -/
def sort (ids : List InstanceId) : List InstanceId :=
  ids.mergeSort fun a b => (compare a b).isLE

end InstanceId

end VmNode
