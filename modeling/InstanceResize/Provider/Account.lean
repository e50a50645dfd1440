import InstanceResize.Provider.Call
import InstanceResize.Text.White

/-!
# A simulated account

An account that exists only in memory. A stop or a start puts an instance into a state on the way,
which settles after a number of status readings.

* `Account.Setup`: what an account is made from.
* `Account.answer`: the answer to a call, and the account after it.

Instances are listed in the order of their identifiers, each once.
-/

namespace InstanceResize

namespace Account

/-- An instance that an account is set up with. -/
structure Seed where
  id : String
  instanceType : String
  state : State
deriving Repr, DecidableEq, Inhabited

def Seed.schema : Schema Seed :=
  (Schema.record <| .field "id" .text none <| .field "instance_type" .text none <|
    .field "state" State.schema none .none).iso
    (fun (id, type, state, _) => ⟨id, type, state⟩)
    (fun s => (s.id, s.instanceType, s.state, ()))

/-- The types that an account offers unless it is set up with others. -/
def standardTypes : List InstanceType :=
  [⟨"t3.nano", 2, 512, "EBS only", "Up to 5 Gigabit"⟩,
    ⟨"t3.micro", 2, 1024, "EBS only", "Up to 5 Gigabit"⟩,
    ⟨"t3.small", 2, 2048, "EBS only", "Up to 5 Gigabit"⟩,
    ⟨"t3.medium", 2, 4096, "EBS only", "Up to 5 Gigabit"⟩,
    ⟨"m5.large", 2, 8192, "EBS only", "Up to 10 Gigabit"⟩,
    ⟨"m5.xlarge", 4, 16384, "EBS only", "Up to 10 Gigabit"⟩,
    ⟨"m5.2xlarge", 8, 32768, "EBS only", "Up to 10 Gigabit"⟩,
    ⟨"c5.large", 2, 4096, "EBS only", "Up to 10 Gigabit"⟩,
    ⟨"r5.large", 2, 16384, "EBS only", "Up to 10 Gigabit"⟩]

/-- What an account is made from. -/
structure Setup where
  /-- How many readings a state on the way lasts before it settles. -/
  settlePolls : UInt32
  instances : List Seed
  addresses : List Address
  /-- The types that may be asked for; without any, every name may. -/
  instanceTypes : List InstanceType
deriving Repr, DecidableEq

namespace Setup

/-- How many readings a state on the way lasts unless an account is set up otherwise. -/
def standardSettlePolls : UInt32 := 2

/-- An account with two instances and one address, for trying things out. -/
def standard : Setup where
  settlePolls := standardSettlePolls
  instances :=
    [⟨"i-0a1b2c3d4e5f60001", "t3.micro", .running⟩, ⟨"i-0a1b2c3d4e5f60002", "m5.large", .stopped⟩]
  addresses := [Address.free "203.0.113.10" "eipalloc-0000000000000001"]
  instanceTypes := standardTypes

def schema : Schema Setup :=
  (Schema.record <| .field "settle_polls" .uint32 (some standardSettlePolls) <|
    .field "instances" (.list Seed.schema) (some []) <|
    .field "addresses" (.list Address.schema) (some []) <|
    .field "instance_types" (.list InstanceType.schema) (some standardTypes) .none).iso
    (fun (polls, instances, addresses, types, _) => ⟨polls, instances, addresses, types⟩)
    (fun s => (s.settlePolls, s.instances, s.addresses, s.instanceTypes, ()))

end Setup

/-- An instance of a simulated account. -/
structure Machine where
  instanceType : String
  state : State
  /-- How many more readings a state on the way lasts. -/
  remaining : Nat
deriving Repr, DecidableEq, Inhabited

namespace Machine

/-- The state that a state on the way leads to. -/
def settled : State → State
  | .stopping => .stopped
  | .pending => .running
  | s => s

/-- The instance after a reading, which shows the state before it. -/
def observe (m : Machine) : Machine :=
  if 0 < m.remaining then { m with remaining := m.remaining - 1 }
  else { m with state := settled m.state }

/-- The instance after a call that leads from one state to another by way of `via`. A call that
was made already changes nothing. -/
def transition (m : Machine) (settle : Nat) (call : String) (source via : State) :
    Except ProviderError Machine :=
  if m.state = via ∨ m.state = settled via then .ok m
  else if m.state = source then .ok { m with state := via, remaining := settle }
  else .error (.rejected call ("instance is " ++ m.state.name))

/-- The instance with another type, which must be among the given ones if there are any. -/
def modify (m : Machine) (types : List InstanceType) (instanceType : String) :
    Except ProviderError Machine :=
  let reject reason := .error (.rejected "modify_instance_type" reason)
  if m.state ≠ .stopped then reject ("instance must be stopped, is " ++ m.state.name)
  else if Text.trim instanceType = "" then reject "instance type is empty"
  else if types ≠ [] ∧ ¬ types.any (·.name == instanceType) then
    reject ("unknown instance type " ++ instanceType)
  else .ok { m with instanceType }

end Machine

/-- The instances of an account with their identifiers, in the order of these. -/
abbrev Roster := List (String × Machine)

namespace Roster

/-- Puts an instance in its place; it replaces one with its identifier. -/
def insert (id : String) (m : Machine) : Roster → Roster
  | [] => [(id, m)]
  | entry :: rest =>
    if id < entry.1 then (id, m) :: entry :: rest
    else if id = entry.1 then (id, m) :: rest
    else entry :: insert id m rest

/-- The instance that has the given identifier. -/
def find? (roster : Roster) (id : String) : Option Machine := roster.lookup id

/-- Changes the instance that has the given identifier. -/
def update (roster : Roster) (id : String) (m : Machine) : Roster :=
  roster.map fun entry => if entry.1 = id then (id, m) else entry

end Roster

/-- Associates the first address of an allocation with an instance. -/
def associateFirst (id allocation : String) : List Address → Except ProviderError (List Address)
  | [] => .error (.rejected "associate_address" ("unknown allocation " ++ allocation))
  | a :: rest =>
    if a.allocationId = allocation then
      if a.isOpen then
        .ok ({ a with
          associationId := some ("eipassoc-" ++ allocation), instanceId := some id } :: rest)
      else
        .error (.rejected "associate_address"
          ("allocation " ++ allocation ++ " is already associated"))
    else (associateFirst id allocation rest).map (a :: ·)

end Account

/-- A simulated account. -/
structure Account where
  /-- How many readings a state on the way lasts before it settles. -/
  settle : Nat
  roster : Account.Roster
  addresses : List Address
  instanceTypes : List InstanceType
deriving Repr, DecidableEq

namespace Account

/-- The account that is set up with the given things. Of several instances with one identifier the
last one counts. -/
def ofSetup (s : Setup) : Account where
  settle := s.settlePolls.toNat
  roster := s.instances.foldl (fun roster seed =>
    Roster.insert seed.id ⟨seed.instanceType, seed.state, 0⟩ roster) []
  addresses := s.addresses
  instanceTypes := InstanceType.catalogue s.instanceTypes

/-- The type of an instance. -/
def instanceType? (a : Account) (id : String) : Option String :=
  (a.roster.find? id).map (·.instanceType)

/-- Changes an instance, if there is one with the identifier and the change is possible. -/
def change (a : Account) (id : String) (f : Machine → Except ProviderError Machine) :
    Except ProviderError Unit × Account :=
  match a.roster.find? id with
  | none => (.error (.notFound id), a)
  | some m =>
    match f m with
    | .ok m => (.ok (), { a with roster := a.roster.update id m })
    | .error e => (.error e, a)

/-- A status reading, which may settle the state for the next one. -/
def read (a : Account) (id : String) : Except ProviderError Status × Account :=
  match a.roster.find? id with
  | none => (.error (.notFound id), a)
  | some m => (.ok (Status.of id m.state), { a with roster := a.roster.update id m.observe })

/-- Associates an address with an instance. -/
def associate (a : Account) (id allocation : String) : Except ProviderError Unit × Account :=
  match a.roster.find? id with
  | none => (.error (.notFound id), a)
  | some _ =>
    match associateFirst id allocation a.addresses with
    | .ok addresses => (.ok (), { a with addresses })
    | .error e => (.error e, a)

/-- The listing of the instances. -/
def summaries (a : Account) : List Summary :=
  a.roster.map fun (id, m) => ⟨id, m.instanceType, m.state⟩

/-- The answer to a call, and the account after it. -/
def answer (a : Account) : (c : Call) → c.Reply × Account
  | .status id => a.read id
  | .stop id => a.change id (·.transition a.settle "stop" .running .stopping)
  | .start id => a.change id (·.transition a.settle "start" .stopped .pending)
  | .modify id type => a.change id (·.modify a.instanceTypes type)
  | .associate id allocation => a.associate id allocation
  | .addresses => (.ok a.addresses, a)
  | .instances => (.ok a.summaries, a)
  | .instanceTypes => (.ok a.instanceTypes, a)

end Account

end InstanceResize
