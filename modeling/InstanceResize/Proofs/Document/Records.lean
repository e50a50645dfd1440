import InstanceResize.Proofs.Document.Fits
import InstanceResize.Progress.Event
import InstanceResize.Relay.Target
import InstanceResize.Server.Config
import InstanceResize.Workflow.Mutation

/-!
# The records of the program fit their schemas

Numbers of a fixed width are in the range of their schemas, states and causes have names of their
own, and no record has two fields of one name.
-/

namespace InstanceResize

/-! ## Numbers and names -/

namespace Schema

theorem fits_nat {high n : Nat} (h : n ≤ high) : (nat high).Fits n :=
  ⟨⟨Int.natCast_nonneg n, Int.ofNat_le.mpr h⟩, rfl⟩

theorem fits_uint16 (n : UInt16) : uint16.Fits n :=
  ⟨fits_nat (Nat.le_of_lt_succ n.toNat_lt), by simp⟩

theorem fits_uint32 (n : UInt32) : uint32.Fits n :=
  ⟨fits_nat (Nat.le_of_lt_succ n.toNat_lt), by simp⟩

theorem fits_uint64 (n : UInt64) : uint64.Fits n :=
  ⟨fits_nat (Nat.le_of_lt_succ n.toNat_lt), by simp⟩

theorem fits_int32 (n : Int32) : int32.Fits n :=
  ⟨⟨n.le_toInt, Int.le_of_lt_add_one n.toInt_lt⟩, by simp⟩

end Schema

theorem State.fits (s : State) : State.schema.Fits s := s.parse?_name

theorem FailureCause.fits (c : FailureCause) : FailureCause.schema.Fits c := by
  show Schema.named? all name c.name = some c
  cases c <;> decide

/-! ## Instances and their account -/

theorem Status.fits (s : Status) : Status.schema.Fits s :=
  ⟨⟨by decide, trivial, Schema.fits_int32 s.code, trivial, trivial⟩, rfl⟩

theorem Summary.fits (s : Summary) : Summary.schema.Fits s :=
  ⟨⟨by decide, trivial, trivial, s.state.fits, trivial⟩, rfl⟩

theorem InstanceType.fits (t : InstanceType) : InstanceType.schema.Fits t :=
  ⟨⟨by decide, trivial, Schema.fits_uint32 t.vcpus, Schema.fits_uint32 t.memoryMib, trivial,
    trivial, trivial⟩, rfl⟩

theorem Address.fits (a : Address) : Address.schema.Fits a :=
  ⟨⟨by decide, trivial, trivial, fun _ _ => trivial, fun _ _ => trivial, trivial⟩, rfl⟩

theorem Account.Seed.fits (s : Seed) : Seed.schema.Fits s :=
  ⟨⟨by decide, trivial, trivial, s.state.fits, trivial⟩, rfl⟩

theorem Account.Setup.fits (s : Setup) : Setup.schema.Fits s :=
  ⟨⟨by decide, Schema.fits_uint32 s.settlePolls, fun seed _ => seed.fits,
    fun address _ => address.fits, fun type _ => type.fits, trivial⟩, rfl⟩

/-! ## Workflows -/

theorem PollPolicy.fits (p : PollPolicy) : PollPolicy.schema.Fits p :=
  ⟨⟨by decide, Schema.fits_uint32 p.maxAttempts, Schema.fits_uint64 p.intervalMs, trivial⟩, rfl⟩

theorem EngineConfig.fits (c : EngineConfig) : EngineConfig.schema.Fits c :=
  ⟨⟨by decide, c.stopPoll.fits, c.startPoll.fits, trivial, trivial⟩, rfl⟩

theorem Mutation.fits (m : Mutation) : Mutation.schema.Fits m := by
  cases m with
  | resize type => exact ⟨rfl, by decide, by decide, trivial, trivial⟩
  | associate allocation =>
    exact ⟨by decide, rfl, by decide, by decide, trivial, trivial⟩

theorem Event.fits (e : Event) : Event.schema.Fits e := by
  cases e with
  | message text => exact ⟨rfl, by decide, by decide, trivial, trivial⟩
  | success => exact ⟨by decide, rfl, by decide, by decide, trivial⟩
  | failure text cause =>
    exact ⟨by decide, by decide, rfl, by decide, by decide, trivial, fun c _ => c.fits, trivial⟩

/-! ## The server -/

theorem Relay.Target.fits (t : Target) : Target.schema.Fits t :=
  ⟨⟨by decide, trivial, trivial⟩, rfl⟩

theorem ServerConfig.fits_workflow (c : EngineConfig) : workflowSchema.Fits c :=
  ⟨⟨by decide, c.stopPoll.fits, c.startPoll.fits, fun _ _ => trivial, trivial⟩, rfl⟩

theorem ServerConfig.fits (c : ServerConfig) : schema.Fits c :=
  ⟨⟨by decide, trivial, Schema.fits_uint16 c.port, fits_workflow c.workflow, c.simulated.fits,
    trivial⟩, rfl⟩

end InstanceResize
