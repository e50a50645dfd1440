import InstanceResize.Provider.Account
import InstanceResize.Provider.Script
import InstanceResize.Provider.Service

/-!
# Providers

A provider is a simulated account, a script, a replay, or a service of any other kind. All of them
answer the same calls.
-/

namespace InstanceResize

/-- A provider. -/
inductive Provider where
  | simulated (account : Account)
  | scripted (script : Script)
  | raw (replay : Replay)
  | service (service : Service)

namespace Provider

/-- The name of a provider. -/
def name : Provider → String
  | simulated _ => "simulated"
  | scripted _ => "scripted"
  | raw _ => "raw"
  | service s => s.name

/-- The answer to a call, unless it brings the caller down, and the provider after it. -/
def answer : Provider → (c : Call) → Option c.Reply × Provider
  | simulated a, c => let (reply, a) := a.answer c; (some reply, simulated a)
  | scripted s, c => let (reply, s) := s.answer c; (some reply, scripted s)
  | raw r, c => let (reply, r) := r.answer c; (reply, raw r)
  | service s, c => let (reply, s) := s.answer c; (some reply, service s)

/-- The account of a simulated provider. -/
def account? : Provider → Option Account
  | simulated a => some a
  | _ => none

/-- The script of a scripted provider. -/
def script? : Provider → Option Script
  | scripted s => some s
  | _ => none

end Provider

end InstanceResize
