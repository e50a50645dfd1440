import InstanceResize.Proofs.Document.Records
import InstanceResize.Proofs.Files.Existing
import InstanceResize.Proofs.Text.Encoding
import InstanceResize.Proofs.Toml.Tables

/-!
# A configuration is read as it was written

* `ServerConfig.print?_eq_none_iff`: only an interval that is too large keeps a configuration from
  being written.
* `ServerConfig.exists_print?`: the file of a configuration says that configuration.
* `ServerConfig.save_of_read`, `ServerConfig.load_of_save`: what happens in a file system.
* `ServerConfig.persists`: all of it.
-/

namespace InstanceResize

/-! ## Documents of records -/

namespace Toml

theorem isInline_uint16 (n : UInt16) : IsInline (Schema.uint16.document n) :=
  ⟨Int.natCast_nonneg _, Int.ofNat_lt.mpr (Nat.lt_trans n.toNat_lt (by decide))⟩

theorem isInline_uint32 (n : UInt32) : IsInline (Schema.uint32.document n) :=
  ⟨Int.natCast_nonneg _, Int.ofNat_lt.mpr (Nat.lt_trans n.toNat_lt (by decide))⟩

theorem isInline_uint64 {n : UInt64} (h : n.toNat < 0x8000000000000000) :
    IsInline (Schema.uint64.document n) :=
  ⟨Int.natCast_nonneg _, Int.ofNat_lt.mpr h⟩

end Toml

open Toml (AreTabular IsRow isRow_members isTabular_rows isTabular_of_isInline isInline_uint16
  isInline_uint32 isInline_uint64)

theorem Account.Seed.isRow (depth : Nat) (s : Seed) : IsRow depth (Seed.schema.document s) :=
  isRow_members (by decide)
    ⟨⟨by decide, trivial⟩, ⟨by decide, trivial⟩, ⟨by decide, trivial⟩, trivial⟩

theorem InstanceType.isRow (depth : Nat) (t : InstanceType) :
    IsRow depth (InstanceType.schema.document t) :=
  isRow_members (by decide) ⟨⟨by decide, trivial⟩,
    ⟨by decide, isTabular_of_isInline (isInline_uint32 t.vcpus) depth⟩,
    ⟨by decide, isTabular_of_isInline (isInline_uint32 t.memoryMib) depth⟩, ⟨by decide, trivial⟩,
    ⟨by decide, trivial⟩, trivial⟩

theorem Address.isRow (depth : Nat) (a : Address) : IsRow depth (Address.schema.document a) := by
  obtain ⟨ip, allocation, association, id⟩ := a
  refine isRow_members (by decide) ⟨⟨by decide, trivial⟩, ⟨by decide, trivial⟩, ?_⟩
  -- What an address is associated with is written only as far as it is there.
  cases association <;> cases id
  · trivial
  · exact ⟨⟨by decide, trivial⟩, trivial⟩
  · exact ⟨⟨by decide, trivial⟩, trivial⟩
  · exact ⟨⟨by decide, trivial⟩, ⟨by decide, trivial⟩, trivial⟩

theorem Account.Setup.isRow {depth : Nat} (short : depth < Toml.maxParts) (s : Setup) :
    IsRow depth (Setup.schema.document s) :=
  isRow_members (by decide)
    ⟨⟨by decide, isTabular_of_isInline (isInline_uint32 s.settlePolls) depth⟩,
    ⟨by decide, isTabular_rows (Seed.isRow _) short s.instances⟩,
    ⟨by decide, isTabular_rows (Address.isRow _) short s.addresses⟩,
    ⟨by decide, isTabular_rows (InstanceType.isRow _) short s.instanceTypes⟩, trivial⟩

theorem PollPolicy.isRow {p : PollPolicy} (h : p.intervalMs.toNat < 0x8000000000000000)
    (depth : Nat) : IsRow depth (PollPolicy.schema.document p) :=
  isRow_members (by decide)
    ⟨⟨by decide, isTabular_of_isInline (isInline_uint32 p.maxAttempts) depth⟩,
    ⟨by decide, isTabular_of_isInline (isInline_uint64 h) depth⟩, trivial⟩

namespace ServerConfig

/-- The members of a configuration's table. -/
def members (c : ServerConfig) : List (String × Document) :=
  [("host", .text c.host), ("port", Schema.uint16.document c.port),
    ("workflow", workflowSchema.document c.workflow),
    ("simulated", Account.Setup.schema.document c.simulated)]

theorem document_eq (c : ServerConfig) : schema.document c = .table c.members := rfl

theorem nodup_members (c : ServerConfig) : (c.members.map Prod.fst).Nodup := by
  show ["host", "port", "workflow", "simulated"].Nodup
  decide

/-- Whether both intervals fit into 64 bits with a sign. -/
def FitsIntervals (c : ServerConfig) : Prop :=
  c.workflow.stopPoll.intervalMs.toNat ≤ 0x7FFFFFFFFFFFFFFF ∧
    c.workflow.startPoll.intervalMs.toNat ≤ 0x7FFFFFFFFFFFFFFF

theorem areTabular_members {c : ServerConfig} (h : c.FitsIntervals) : AreTabular 0 c.members := by
  have stop := PollPolicy.isRow (Nat.lt_succ_of_le h.1) 2
  have start := PollPolicy.isRow (Nat.lt_succ_of_le h.2) 2
  have workflow : IsRow 1 (workflowSchema.document c.workflow) :=
    isRow_members (by decide) ⟨⟨by decide, stop.isTabular (by decide)⟩,
      ⟨by decide, start.isTabular (by decide)⟩, ⟨by decide, trivial⟩, trivial⟩
  exact ⟨⟨by decide, trivial⟩, ⟨by decide, isTabular_of_isInline (isInline_uint16 c.port) 0⟩,
    ⟨by decide, workflow.isTabular (by decide)⟩,
    ⟨by decide, (Account.Setup.isRow (by decide) c.simulated).isTabular (by decide)⟩, trivial⟩

theorem le_of_isWritable {n : UInt64} (h : Toml.isWritable (Schema.uint64.document n) = true) :
    n.toNat ≤ 0x7FFFFFFFFFFFFFFF := by
  change Toml.isWritable (.whole (n.toNat : Int)) = true at h
  rw [Toml.isWritable, decide_eq_true_eq] at h
  omega

theorem fitsIntervals_of_isWritable {c : ServerConfig}
    (h : Toml.membersAreWritable c.members = true) : c.FitsIntervals := by
  have policy {p : PollPolicy} (h : Toml.isWritable (PollPolicy.schema.document p) = true) :
      p.intervalMs.toNat ≤ 0x7FFFFFFFFFFFFFFF := by
    change Toml.membersAreWritable [("max_attempts", Schema.uint32.document p.maxAttempts),
      ("interval_ms", Schema.uint64.document p.intervalMs)] = true at h
    simp only [Toml.membersAreWritable, Bool.and_eq_true] at h
    exact le_of_isWritable h.2.1
  simp only [members, Toml.membersAreWritable, Bool.and_eq_true] at h
  obtain ⟨-, -, workflow, -⟩ := h
  change Toml.membersAreWritable [("stop_poll", PollPolicy.schema.document c.workflow.stopPoll),
    ("start_poll", PollPolicy.schema.document c.workflow.startPoll),
    ("verify_origin_state", .flag c.workflow.verifyOrigin)] = true at workflow
  simp only [Toml.membersAreWritable, Bool.and_eq_true] at workflow
  exact ⟨policy workflow.1, policy workflow.2.1⟩

/-! ## Files of configurations -/

/-- What a file says about a configuration: that it is valid, or why it is not. -/
def checked (c : ServerConfig) : Except ConfigError ServerConfig :=
  match c.validate with
  | .ok () => .ok c
  | .error r => .error (.invalid r)

theorem exists_print? {c : ServerConfig} (h : c.FitsIntervals) :
    ∃ text, c.print? = some text ∧ parse text = c.checked := by
  obtain ⟨text, printed, read⟩ := Toml.exists_print?_table (areTabular_members h) (nodup_members c)
  refine ⟨text, printed, ?_⟩
  rw [parse, read, ← document_eq, Option.bind_some,
    schema.ofDocument?_document Toml.rearranges_plainFirst c c.fits]
  rfl

theorem print?_eq_none_iff (c : ServerConfig) : c.print? = none ↔ ¬ c.FitsIntervals := by
  constructor
  · intro none fits
    obtain ⟨text, printed, -⟩ := exists_print? fits
    rw [none] at printed
    cases printed
  · intro large
    rw [print?, document_eq, Toml.print?, if_neg fun h => large (fitsIntervals_of_isWritable h)]

/-! ## Writing and reading -/

/-- Where a file is, a configuration that has no text changes nothing. -/
theorem save_of_read {c : ServerConfig} (h : c.print? = none) {path : String} {top : Entry}
    {bytes : List UInt8} (there : top.read path = .ok bytes) :
    (save Entry.system path c).run top = (.error .serialize, top) := by
  obtain ⟨place, located⟩ := Entry.exists_locate_of_read there
  have parents := (Entry.run_makeParents path top).trans (Entry.makeParents_of_locate located)
  rw [save, Entry.run_bind_of_eq parents]
  generalize c.print? = text? at h
  rw [h]
  rfl

/-- A text that was written is what the file says. -/
theorem load_of_read {path text : String} {top : Entry}
    (there : top.read path = .ok (Text.Utf8.encode text)) :
    (load Entry.system path).run top = (parse text, top) := by
  obtain ⟨place, located⟩ := Entry.exists_locate_of_read there
  have has : (Entry.system.has path).run top = (true, top) := by
    rw [Entry.run_has, Entry.has, located]
    rfl
  have read : (Entry.system.readText path).run top = (.ok text, top) := by
    have bytes := Entry.run_read path top
    rw [there] at bytes
    rw [FileSystem.readText, Entry.run_bind_of_eq bytes]
    dsimp only
    rw [Text.Utf8.decode?_encode]
    rfl
  rw [load, Entry.run_bind_of_eq has, if_pos rfl, Entry.run_bind_of_eq read]
  rfl

/-- Where a file can be written, what was saved is what is loaded. -/
theorem load_of_save {c : ServerConfig} (h : c.FitsIntervals) {path : String} {top : Entry}
    (writable : top.CanWrite path) : ∃ text after,
      (save Entry.system path c).run top = (.ok text, after) ∧
      (load Entry.system path).run after = (c.checked, after) := by
  obtain ⟨text, printed, read⟩ := exists_print? h
  obtain ⟨made, after, parents, written, there⟩ :=
    writable.exists_writing (Text.Utf8.encode text)
  have parents := (Entry.run_makeParents path top).trans parents
  have written := (Entry.run_write path (Text.Utf8.encode text) made).trans written
  refine ⟨text, after, ?_, ?_⟩
  · rw [save, Entry.run_bind_of_eq parents]
    generalize c.print? = text? at printed
    rw [printed]
    dsimp only
    rw [FileSystem.writeText, Entry.run_bind_of_eq written]
    rfl
  · rw [load_of_read there, read]

/-- What becomes of a configuration that is put into a file. -/
structure Persists (c : ServerConfig) : Prop where
  /-- It has a text unless an interval is too large for one. -/
  print?_eq_none_iff : c.print? = none ↔
    0x7FFFFFFFFFFFFFFF < c.workflow.stopPoll.intervalMs.toNat ∨
      0x7FFFFFFFFFFFFFFF < c.workflow.startPoll.intervalMs.toNat
  /-- Without a text, a file that was there stays as it was. -/
  kept : c.print? = none → ∀ path bytes (top : Entry), top.read path = .ok bytes →
    ∃ after : Entry, (save Entry.system path c).run top = (.error .serialize, after) ∧
      after.read path = .ok bytes
  /-- Wherever a file can be put, it is put there, and the configuration is read from it, or is
  refused as it would be anywhere. -/
  loaded : c.print? ≠ none → ∀ path (top : Entry), top.CanWrite path → ∃ text after,
    (save Entry.system path c).run top = (.ok text, after) ∧
      (load Entry.system path).run after =
        (match c.validate with
          | .ok () => .ok c
          | .error r => .error (.invalid r), after)

/-- A configuration is read as it was written. -/
theorem persists (c : ServerConfig) : c.Persists where
  print?_eq_none_iff := by
    rw [c.print?_eq_none_iff, FitsIntervals, not_and_or, Nat.not_le, Nat.not_le]
  kept none path bytes top there := ⟨top, save_of_read none there, there⟩
  loaded some path top writable :=
    load_of_save (not_not.mp fun large => some (c.print?_eq_none_iff.mpr large)) writable

/-- The usual configuration with another pause between two readings of an instance that stops. -/
def paced (intervalMs : UInt64) : ServerConfig :=
  { standard with workflow := { standardWorkflow with stopPoll := ⟨20, intervalMs⟩ } }

/-- A folder is made for the usual configuration. One with a pause that is too long leaves a file of
one byte as it is, and one without a pause is refused when it is read. -/
theorem persists_paced :
    (∃ text after, (save Entry.system "conf/server.toml" standard).run .fresh = (.ok text, after) ∧
      (load Entry.system "conf/server.toml").run after = (.ok standard, after)) ∧
    (∃ text after, (save Entry.system "server.toml" (paced 0)).run .fresh = (.ok text, after) ∧
      (load Entry.system "server.toml").run after =
        (.error (.invalid (.invalid "interval_ms must be greater than zero")), after)) ∧
    ∃ after : Entry,
      (save Entry.system "server.toml" (paced 0x8000000000000000)).run
        (Entry.fresh.set ["", "", "server.toml"] (.file [35])) = (.error .serialize, after) ∧
      after.read "server.toml" = .ok [35] := by
  have printed {c : ServerConfig}
      (small : ¬ (0x7FFFFFFFFFFFFFFF < c.workflow.stopPoll.intervalMs.toNat ∨
        0x7FFFFFFFFFFFFFFF < c.workflow.startPoll.intervalMs.toNat)) : c.print? ≠ none :=
    fun none => small ((persists c).print?_eq_none_iff.mp none)
  refine ⟨?_, ?_, ?_⟩
  · exact (persists standard).loaded (printed (by decide)) "conf/server.toml" .fresh
      ⟨_, _, rfl, rfl⟩
  · exact (persists (paced 0)).loaded (printed (by decide)) "server.toml" .fresh ⟨_, _, rfl, rfl⟩
  · exact (persists (paced 0x8000000000000000)).kept
      ((persists (paced 0x8000000000000000)).print?_eq_none_iff.mpr (.inl (by decide)))
      "server.toml" [35] _ rfl

end ServerConfig

end InstanceResize
