import InstanceResize.Proofs.Run.Configured
import InstanceResize.Proofs.Server.ConfigFile
import InstanceResize.Proofs.Toml.Unambiguous

/-!
# What a file leaves out is as usual

A configuration file may say any part of a configuration. Each part that it does not say is as
usual, whatever else it says. Two things depend on what stands around them. The declared state of
an instance is checked unless the file says that it is not, whether or not it says anything else
about workflows. And an account that a file says anything about has only what the file says, while
one that it says nothing about has something to try things out with.

* `IsText`, `IsNumber`, `IsTable`, `IsList`: documents of some kinds.
* `PartialConfig`: the parts of a configuration that a file says.
* `PartialConfig.In`: a table says these parts, and perhaps other things.
* `PartialConfig.config`: the configuration of these parts.
* `PartialConfig.HasZero`: a policy that the file says allows no attempt, or no time between two.
* `Overlays`, `overlays_of_in`: what becomes of a file.
-/

namespace InstanceResize

/-! ## Documents of some kinds -/

def IsText (doc : Document) (s : String) : Prop := doc = .text s

def IsFlag (doc : Document) (b : Bool) : Prop := doc = .flag b

/-- A number of a type whose values are natural numbers. -/
def IsNumber {α : Type} (toNat : α → Nat) (doc : Document) (n : α) : Prop :=
  doc = .whole (toNat n)

/-- A table with certain members. -/
def IsTable {α : Type} (In : List (String × Document) → α → Prop) (doc : Document) (a : α) : Prop :=
  ∃ ms, doc = .table ms ∧ In ms a

/-- A list of documents of one kind. -/
def IsList {α : Type} (Is : Document → α → Prop) (doc : Document) (as : List α) : Prop :=
  ∃ docs, doc = .list docs ∧ List.Forall₂ Is docs as

/-- A state by its name. -/
def IsState (doc : Document) (s : State) : Prop := doc = .text s.name

section

variable {doc : Document}

theorem IsNumber.says_uint16 {n : UInt16} (h : IsNumber UInt16.toNat doc n) :
    Schema.uint16.Says doc n :=
  h ▸ Schema.says_uint16 n

theorem IsNumber.says_uint32 {n : UInt32} (h : IsNumber UInt32.toNat doc n) :
    Schema.uint32.Says doc n :=
  h ▸ Schema.says_uint32 n

theorem IsNumber.says_uint64 {n : UInt64} (h : IsNumber UInt64.toNat doc n) :
    Schema.uint64.Says doc n :=
  h ▸ Schema.says_uint64 n

theorem IsState.said {s : State} (h : IsState doc s) : State.schema.Says doc s := ⟨h, s.parse?_name⟩

theorem IsList.said {α : Type} {Is : Document → α → Prop} {item : Schema α} {as : List α}
    (h : IsList Is doc as) (each : ∀ doc a, Is doc a → item.Says doc a) :
    (Schema.list item).Says doc as := by
  obtain ⟨docs, rfl, items⟩ := h
  exact ⟨docs, rfl, items.imp each⟩

end

/-! ## Records -/

section

variable {ms : List (String × Document)} {doc : Document}

/-- A table says a policy. -/
def PollPolicy.In (ms : List (String × Document)) (p : PollPolicy) : Prop :=
  Holds ms "max_attempts" (IsNumber UInt32.toNat) (some p.maxAttempts) ∧
    Holds ms "interval_ms" (IsNumber UInt64.toNat) (some p.intervalMs)

theorem PollPolicy.said {p : PollPolicy} (h : IsTable PollPolicy.In doc p) :
    PollPolicy.schema.Says doc p := by
  obtain ⟨ms, rfl, attempts, interval⟩ := h
  refine ⟨(p.maxAttempts, p.intervalMs, ()), ⟨by decide, ms, rfl, ?_⟩, rfl⟩
  exact Fields.says_required (attempts.imp fun _ _ => IsNumber.says_uint32) <|
    Fields.says_required (interval.imp fun _ _ => IsNumber.says_uint64) trivial

/-- A table says an instance of an account. -/
def Account.Seed.In (ms : List (String × Document)) (s : Seed) : Prop :=
  Holds ms "id" IsText (some s.id) ∧ Holds ms "instance_type" IsText (some s.instanceType) ∧
    Holds ms "state" IsState (some s.state)

theorem Account.Seed.said {s : Seed} (h : IsTable Seed.In doc s) : Seed.schema.Says doc s := by
  obtain ⟨ms, rfl, id, type, state⟩ := h
  refine ⟨(s.id, s.instanceType, s.state, ()), ⟨by decide, ms, rfl, ?_⟩, rfl⟩
  exact Fields.says_required id <| Fields.says_required type <|
    Fields.says_required (state.imp fun _ _ => IsState.said) trivial

/-- A table says an address, which need not be associated with anything. -/
def Address.In (ms : List (String × Document)) (a : Address) : Prop :=
  Holds ms "public_ip" IsText (some a.publicIp) ∧
    Holds ms "allocation_id" IsText (some a.allocationId) ∧
    Holds ms "association_id" IsText a.associationId ∧ Holds ms "instance_id" IsText a.instanceId

theorem Address.said {a : Address} (h : IsTable Address.In doc a) : Address.schema.Says doc a := by
  obtain ⟨ms, rfl, ip, allocation, association, id⟩ := h
  refine ⟨(a.publicIp, a.allocationId, a.associationId, a.instanceId, ()),
    ⟨by decide, ms, rfl, ?_⟩, rfl⟩
  exact Fields.says_required ip <| Fields.says_required allocation ⟨association, id, trivial⟩

/-- A table says an entry of the catalogue. -/
def InstanceType.In (ms : List (String × Document)) (t : InstanceType) : Prop :=
  Holds ms "name" IsText (some t.name) ∧ Holds ms "vcpus" (IsNumber UInt32.toNat) (some t.vcpus) ∧
    Holds ms "memory_mib" (IsNumber UInt32.toNat) (some t.memoryMib) ∧
    Holds ms "storage" IsText (some t.storage) ∧
    Holds ms "network_performance" IsText (some t.networkPerformance)

theorem InstanceType.said {t : InstanceType} (h : IsTable InstanceType.In doc t) :
    InstanceType.schema.Says doc t := by
  obtain ⟨ms, rfl, name, vcpus, memory, storage, network⟩ := h
  refine ⟨(t.name, t.vcpus, t.memoryMib, t.storage, t.networkPerformance, ()),
    ⟨by decide, ms, rfl, ?_⟩, rfl⟩
  exact Fields.says_required name <|
    Fields.says_required (vcpus.imp fun _ _ => IsNumber.says_uint32) <|
    Fields.says_required (memory.imp fun _ _ => IsNumber.says_uint32) <|
    Fields.says_required storage <| Fields.says_required network trivial

end

/-! ## Parts of a configuration -/

namespace ServerConfig

/-- What a file says about workflows. -/
structure PartialWorkflow where
  stopPoll : Option PollPolicy
  startPoll : Option PollPolicy
  verifyOrigin : Option Bool

/-- What a file says about the account. -/
structure PartialSetup where
  settlePolls : Option UInt32
  instances : Option (List Account.Seed)
  addresses : Option (List Address)
  instanceTypes : Option (List InstanceType)

/-- What a file says about a configuration. -/
structure PartialConfig where
  host : Option String
  port : Option UInt16
  workflow : Option PartialWorkflow
  simulated : Option PartialSetup

variable {ms : List (String × Document)} {doc : Document}

namespace PartialWorkflow

/-- A table says these parts, and perhaps other things. -/
def In (ms : List (String × Document)) (w : PartialWorkflow) : Prop :=
  Holds ms "stop_poll" (IsTable PollPolicy.In) w.stopPoll ∧
    Holds ms "start_poll" (IsTable PollPolicy.In) w.startPoll ∧
    Holds ms "verify_origin_state" IsFlag w.verifyOrigin

/-- How workflows are run if a file says these parts. -/
def config (w : PartialWorkflow) : EngineConfig where
  stopPoll := w.stopPoll.getD standard.workflow.stopPoll
  startPoll := w.startPoll.getD standard.workflow.startPoll
  verifyOrigin := w.verifyOrigin.getD true

theorem said {w : PartialWorkflow} (h : IsTable In doc w) : workflowSchema.Says doc w.config := by
  obtain ⟨ms, rfl, stop, start, verify⟩ := h
  refine ⟨(_, _, w.verifyOrigin, ()), ⟨by decide, ms, rfl, ?_⟩, rfl⟩
  exact Fields.says_field (stop.imp fun _ _ => PollPolicy.said) <|
    Fields.says_field (start.imp fun _ _ => PollPolicy.said) ⟨verify, trivial⟩

end PartialWorkflow

namespace PartialSetup

/-- A table says these parts, and perhaps other things. -/
def In (ms : List (String × Document)) (s : PartialSetup) : Prop :=
  Holds ms "settle_polls" (IsNumber UInt32.toNat) s.settlePolls ∧
    Holds ms "instances" (IsList (IsTable Account.Seed.In)) s.instances ∧
    Holds ms "addresses" (IsList (IsTable Address.In)) s.addresses ∧
    Holds ms "instance_types" (IsList (IsTable InstanceType.In)) s.instanceTypes

/-- What the account is made from if a file says these parts. -/
def setup (s : PartialSetup) : Account.Setup where
  settlePolls := s.settlePolls.getD 2
  instances := s.instances.getD []
  addresses := s.addresses.getD []
  instanceTypes := s.instanceTypes.getD Account.standardTypes

theorem said {s : PartialSetup} (h : IsTable In doc s) :
    Account.Setup.schema.Says doc s.setup := by
  obtain ⟨ms, rfl, polls, instances, addresses, types⟩ := h
  refine ⟨(_, _, _, _, ()), ⟨by decide, ms, rfl, ?_⟩, rfl⟩
  exact Fields.says_field (polls.imp fun _ _ => IsNumber.says_uint32) <|
    Fields.says_field (instances.imp fun _ _ h => h.said fun _ _ => Account.Seed.said) <|
    Fields.says_field (addresses.imp fun _ _ h => h.said fun _ _ => Address.said) <|
    Fields.says_field (types.imp fun _ _ h => h.said fun _ _ => InstanceType.said) trivial

end PartialSetup

namespace PartialConfig

/-- A table says these parts, and perhaps other things. -/
def In (ms : List (String × Document)) (p : PartialConfig) : Prop :=
  Holds ms "host" IsText p.host ∧ Holds ms "port" (IsNumber UInt16.toNat) p.port ∧
    Holds ms "workflow" (IsTable PartialWorkflow.In) p.workflow ∧
    Holds ms "simulated" (IsTable PartialSetup.In) p.simulated

/-- The configuration if a file says these parts. -/
def config (p : PartialConfig) : ServerConfig where
  host := p.host.getD standard.host
  port := p.port.getD standard.port
  workflow := (p.workflow.map PartialWorkflow.config).getD standard.workflow
  simulated := (p.simulated.map PartialSetup.setup).getD standard.simulated

theorem said {p : PartialConfig} (h : p.In ms) : schema.Says (.table ms) p.config := by
  obtain ⟨host, port, workflow, simulated⟩ := h
  refine ⟨(_, _, _, _, ()), ⟨by decide, ms, rfl, ?_⟩, rfl⟩
  exact Fields.says_field host <|
    Fields.says_field (port.imp fun _ _ => IsNumber.says_uint16) <|
    Fields.says_field (workflow.map fun _ _ => PartialWorkflow.said) <|
    Fields.says_field (simulated.map fun _ _ => PartialSetup.said) trivial

/-- One of the policies that a file says allows no attempt, or no time between two. -/
def HasZero (p : PartialConfig) : Prop :=
  ∃ w ∈ p.workflow, ∃ policy, (policy ∈ w.stopPoll ∨ policy ∈ w.startPoll) ∧
    (policy.maxAttempts = 0 ∨ policy.intervalMs = 0)

/-- A policy is valid if it is the usual one, or is said and has no zero. -/
theorem validate_getD_eq_ok_iff (policy? : Option PollPolicy) {usual : PollPolicy}
    (valid : usual.validate = .ok ()) : (policy?.getD usual).validate = .ok () ↔
      ∀ policy ∈ policy?, ¬ (policy.maxAttempts = 0 ∨ policy.intervalMs = 0) := by
  cases policy? with
  | none => exact iff_of_true valid nofun
  | some policy =>
    simp only [Option.getD_some, Option.mem_some_iff, forall_eq', not_or]
    exact PollPolicy.validate_eq_ok_iff

theorem validate_config_eq_ok_iff (p : PartialConfig) :
    p.config.validate = .ok () ↔ ¬ p.HasZero := by
  obtain ⟨host, port, workflow, simulated⟩ := p
  cases workflow with
  | none => exact iff_of_true rfl fun ⟨_, absent, _⟩ => nomatch absent
  | some w =>
    have valid : w.config.validate = .ok () ↔ _ := EngineConfig.validate_eq_ok_iff.trans <|
      and_congr (validate_getD_eq_ok_iff w.stopPoll rfl)
        (validate_getD_eq_ok_iff w.startPoll rfl)
    refine valid.trans ?_
    simp only [HasZero, Option.mem_some_iff, exists_eq_left', not_exists, not_and, or_imp,
      forall_and]

end PartialConfig

/-! ## Files -/

/-- What becomes of a file that says certain parts of a configuration. -/
structure Overlays (text : String) (p : PartialConfig) : Prop where
  /-- It is refused exactly if a policy that it says has a zero. -/
  invalid : (∃ r, parse text = .error (.invalid r)) ↔ p.HasZero
  /-- Otherwise it stands for the configuration of these parts, which is valid. -/
  parsed : ¬ p.HasZero → parse text = .ok p.config
  valid : ∀ c, parse text = .ok c → c.validate = .ok ()
  /-- The declared state is not checked exactly if the file says so. -/
  unverified : p.config.workflow.verifyOrigin = false ↔
    ∃ w ∈ p.workflow, w.verifyOrigin = some false
  /-- No workflow is refused because of the configuration. -/
  workable : ∀ c, parse text = .ok c → Engine.Workable c.workflow

/-- A file is read as the configuration of the parts that it says. -/
theorem parse_of_in {text : String} {p : PartialConfig}
    (read : Toml.parse? text = some (.table ms)) (h : p.In ms) : parse text = p.config.checked := by
  have value := schema.ofDocument?_of_says (Toml.exists_table_of_parse? read).2
    (PartialConfig.said h) dialect
  rw [parse, read, Option.bind_some, value]
  rfl

theorem validate_of_parse {text : String} {c : ServerConfig} (h : parse text = .ok c) :
    c.validate = .ok () := by
  unfold parse at h
  split at h
  · cases h
  · split at h
    · next valid => exact Except.ok.inj h ▸ valid
    · cases h

/-- What a file does not say is as usual. -/
theorem overlays_of_in {text : String} {p : PartialConfig}
    (read : Toml.parse? text = some (.table ms)) (h : p.In ms) : Overlays text p where
  invalid := by
    rw [parse_of_in read h, checked, ← not_iff_not, ← PartialConfig.validate_config_eq_ok_iff]
    cases p.config.validate <;> simp
  parsed noZero := by
    rw [parse_of_in read h, checked, p.validate_config_eq_ok_iff.mpr noZero]
  valid _ := validate_of_parse
  unverified := by
    obtain ⟨host, port, workflow, simulated⟩ := p
    cases workflow with
    | none => exact iff_of_false nofun fun ⟨_, absent, _⟩ => nomatch absent
    | some w =>
      obtain ⟨stop, start, verify⟩ := w
      show verify.getD true = false ↔ _
      cases verify <;> simp
  workable _ parsed := Engine.workable_of_validate (validate_of_parse parsed)

/-- A policy with something of which nothing is known. -/
def briefPolicy : List (String × Document) :=
  [("max_attempts", .whole 5), ("interval_ms", .whole 100), ("unit", .text "ms")]

def briefInstance : List (String × Document) :=
  [("id", .text "i-1"), ("instance_type", .text "t3.nano"), ("state", .text "stopped")]

/-- The table of a file that says a few parts of a configuration, and other things. -/
def briefTable : List (String × Document) :=
  [("host", .text "0.0.0.0"), ("color", .text "green"),
    ("workflow", .table [("note", .whole 1), ("stop_poll", .table briefPolicy)]),
    ("simulated", .table [("instance_types", .list []),
      ("instances", .list [.table briefInstance])])]

/-- The text of this file. -/
def briefText : String :=
  "host = \"0.0.0.0\"\ncolor = \"green\"\n" ++
    "\n[workflow]\nnote = 1\n" ++
    "\n[workflow.stop_poll]\nmax_attempts = 5\ninterval_ms = 100\nunit = \"ms\"\n" ++
    "\n[simulated]\ninstance_types = []\n" ++
    "\n[[simulated.instances]]\nid = \"i-1\"\ninstance_type = \"t3.nano\"\n" ++
    "state = \"stopped\"\n"

/-- The parts of a configuration that this file says. -/
def briefConfig : PartialConfig where
  host := some "0.0.0.0"
  port := none
  workflow := some { stopPoll := some ⟨5, 100⟩, startPoll := none, verifyOrigin := none }
  simulated := some
    { settlePolls := none
      instances := some [{ id := "i-1", instanceType := "t3.nano", state := .stopped }]
      addresses := none
      instanceTypes := some [] }

theorem parse?_briefText : Toml.parse? briefText = some (.table briefTable) := by
  have policy : Toml.IsTabular 1 (.table briefPolicy) :=
    ⟨by decide, by decide, ⟨by decide, by decide, by decide⟩, ⟨by decide, by decide, by decide⟩,
      ⟨by decide, trivial⟩, trivial⟩
  have instances : Toml.IsTabular 1 (.list [.table briefInstance]) :=
    .inr ⟨by decide, ⟨by decide, ⟨by decide, trivial⟩, ⟨by decide, trivial⟩, ⟨by decide, trivial⟩,
      trivial⟩, trivial⟩
  have tabular : Toml.AreTabular 0 briefTable :=
    ⟨⟨by decide, trivial⟩, ⟨by decide, trivial⟩,
      ⟨by decide, by decide, by decide, ⟨by decide, by decide, by decide⟩, ⟨by decide, policy⟩,
        trivial⟩,
      ⟨by decide, by decide, by decide, ⟨by decide, .inl rfl⟩, ⟨by decide, instances⟩, trivial⟩,
      trivial⟩
  obtain ⟨text, printed, read⟩ := Toml.exists_print?_table tabular (by decide)
  have same : Toml.print? (.table briefTable) = some briefText := by decide +kernel
  rw [Option.some.inj (same.symm.trans printed), read]
  rfl

theorem in_briefTable : briefConfig.In briefTable := by
  have policy : IsTable PollPolicy.In (.table briefPolicy) ⟨5, 100⟩ :=
    ⟨_, rfl, ⟨_, .head _, rfl⟩, ⟨_, .tail _ (.head _), rfl⟩⟩
  have seed : IsTable Account.Seed.In (.table briefInstance)
      { id := "i-1", instanceType := "t3.nano", state := .stopped } :=
    ⟨_, rfl, ⟨_, .head _, rfl⟩, ⟨_, .tail _ (.head _), rfl⟩,
      ⟨_, .tail _ (.tail _ (.head _)), rfl⟩⟩
  exact ⟨⟨_, .head _, rfl⟩, by simp [Holds, briefTable, briefConfig],
    ⟨_, .tail _ (.tail _ (.head _)), _, rfl, ⟨_, .tail _ (.head _), policy⟩, by simp [Holds],
      by simp [Holds]⟩,
    ⟨_, .tail _ (.tail _ (.tail _ (.head _))), _, rfl, by simp [Holds],
      ⟨_, .tail _ (.head _), _, rfl, .cons seed .nil⟩, by simp [Holds],
      ⟨_, .head _, _, rfl, .nil⟩⟩⟩

/-- A file that says only a few parts is read, and what it leaves out is as usual. -/
theorem overlays_of_brief : Overlays briefText briefConfig ∧
    parse briefText = .ok
      { host := "0.0.0.0"
        port := standard.port
        workflow := ⟨⟨5, 100⟩, standard.workflow.startPoll, true⟩
        simulated :=
          { settlePolls := 2
            instances := [{ id := "i-1", instanceType := "t3.nano", state := .stopped }]
            addresses := []
            instanceTypes := [] } } := by
  have brief := overlays_of_in parse?_briefText in_briefTable
  exact ⟨brief, brief.parsed (briefConfig.validate_config_eq_ok_iff.mp rfl)⟩

end ServerConfig

end InstanceResize
