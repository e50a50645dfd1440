/-!
# What a provider answers instead of a result
-/

namespace InstanceResize

/-- A call to a provider that did not succeed. -/
inductive ProviderError where
  /-- There was no answer. -/
  | unreachable (reason : String)
  /-- The answer was a refusal. -/
  | rejected (call reason : String)
  /-- There is no such instance. -/
  | notFound (instanceId : String)
deriving Repr, DecidableEq, Inhabited

namespace ProviderError

/-- The text of an error. -/
def message : ProviderError → String
  | unreachable reason => "Provider unreachable: " ++ reason
  | rejected call reason => "Provider rejected " ++ call ++ ": " ++ reason
  | notFound id => "Instance status not available: " ++ id

/-- Whether the provider answered, but refused. -/
def isRejection : ProviderError → Bool
  | rejected _ _ => true
  | _ => false

end ProviderError

end InstanceResize
