import InstanceResize.Provider.Call

/-!
# Providers of any kind

Of a service no more is known than that it answers. What it answers may depend on all that it was
asked before.
-/

namespace InstanceResize

/-- A provider that answers in its own way. -/
structure Service where
  name : String
  /-- The answer to a call after the given calls, of which the last one comes first. -/
  reply : List Call → (c : Call) → c.Reply
  /-- The calls so far, the last one first. -/
  log : List Call

/-- The answer to a call, and the service after it. -/
def Service.answer (s : Service) (c : Call) : c.Reply × Service :=
  (s.reply s.log c, { s with log := c :: s.log })

end InstanceResize
