import InstanceResize.Proofs.Account.Lifecycle
import InstanceResize.Proofs.Text.Order
import Mathlib.Data.List.TakeWhile

/-!
# The order of a catalogue

Entries are compared by the bytes of their families, then by size, then by the bytes of their names.
This is not the order of the names: a family that begins like another one comes after it, whatever
characters follow. Entries that agree in all of it stay as they stand. So the catalogue of given
entries is known from the entries alone, however they are listed, if no two of them agree.

* `Precedes`, `order_eq_lt_iff`: which of two entries comes first.
* `Ties`, `order_eq_eq_iff`: entries of which none comes first.
* `mayPrecede_iff`: the comparison that the catalogue is sorted by.
* `family_le_of_mayPrecede`: families come one after the other.
* `filter_ties_catalogue`: entries of which none comes first stay as they stand.
* `Catalogued`, `catalogued`: what a catalogue is, and that an account lists its types like that.
-/

namespace InstanceResize

open Account Text.Utf8

namespace InstanceType

variable {a b t : InstanceType}

/-! ## Families -/

/-- A family is the part of a name before the first point. -/
theorem family_spec (t : InstanceType) : '.' ∉ t.family.toList ∧
    (t.name = t.family ∨ ∃ rest, t.name = t.family ++ "." ++ rest) := by
  have split : t.name.toList = t.family.toList ++ t.name.toList.dropWhile (· ≠ '.') := by
    rw [family, String.toList_ofList, List.takeWhile_append_dropWhile]
  constructor
  · intro member
    rw [family, String.toList_ofList] at member
    simpa using List.mem_takeWhile_imp member
  · have point := List.head?_dropWhile_not (· ≠ '.') t.name.toList
    cases rest : t.name.toList.dropWhile (· ≠ '.') with
    | nil =>
      rw [rest, List.append_nil] at split
      exact .inl (String.toList_inj.mp split)
    | cons c cs =>
      rw [rest, List.head?_cons] at point
      obtain rfl : c = '.' := by simpa using point
      refine .inr ⟨String.ofList cs, String.toList_inj.mp ?_⟩
      rw [split, rest]
      simp

/-! ## Which of two entries comes first -/

/-- An entry comes before another one: by the bytes of its family, or else by its size, or else by
the bytes of its name. -/
def Precedes (a b : InstanceType) : Prop :=
  encode a.family < encode b.family ∨ a.family = b.family ∧
    (a.vcpus < b.vcpus ∨ a.vcpus = b.vcpus ∧
      (a.memoryMib < b.memoryMib ∨ a.memoryMib = b.memoryMib ∧ encode a.name < encode b.name))

/-- Two entries agree in all that the order goes by. -/
def Ties (a b : InstanceType) : Prop :=
  a.name = b.name ∧ a.vcpus = b.vcpus ∧ a.memoryMib = b.memoryMib

instance : DecidableRel Ties := fun a b =>
  inferInstanceAs (Decidable (a.name = b.name ∧ a.vcpus = b.vcpus ∧ a.memoryMib = b.memoryMib))

instance : Std.TransCmp order :=
  inferInstanceAs (Std.TransCmp (compareLex (compareOn family) (compareLex (compareOn vcpus)
    (compareLex (compareOn memoryMib) (compareOn name)))))

theorem order_eq_lt_iff : order a b = .lt ↔ Precedes a b := by
  simp only [order, Precedes, Ordering.then_eq_lt, compare_lt_iff_lt (α := String),
    Std.compare_eq_lt (α := UInt32), Std.compare_eq_iff_eq, encode_lt_encode_iff]

theorem order_eq_eq_iff : order a b = .eq ↔ Ties a b := by
  simp only [order, Ties, Ordering.then_eq_eq, Std.compare_eq_iff_eq]
  constructor
  · rintro ⟨-, vcpus, memory, name⟩
    exact ⟨name, vcpus, memory⟩
  · rintro ⟨name, vcpus, memory⟩
    have families : a.family = b.family := by rw [family, name, family]
    exact ⟨families, vcpus, memory, name⟩

theorem order_swap (a b : InstanceType) : order a b = (order b a).swap :=
  Std.OrientedCmp.eq_swap

/-- An entry may come first unless the other one has to. -/
theorem mayPrecede_iff : mayPrecede a b = true ↔ ¬ Precedes b a := by
  rw [← order_eq_lt_iff, mayPrecede, order_swap a b]
  cases order b a <;> simp

theorem mayPrecede_trans (a b c : InstanceType) (h : mayPrecede a b = true)
    (h' : mayPrecede b c = true) : mayPrecede a c = true := by
  rw [mayPrecede] at h h' ⊢
  exact Std.TransCmp.isLE_trans h h'

theorem mayPrecede_total (a b : InstanceType) : (mayPrecede a b || mayPrecede b a) = true := by
  rw [mayPrecede, mayPrecede, order_swap b a]
  cases order a b <;> rfl

/-- Entries of which each may come first agree. -/
theorem ties_of_mayPrecede (h : mayPrecede a b = true) (h' : mayPrecede b a = true) : Ties a b := by
  rw [mayPrecede] at h
  rw [mayPrecede, order_swap b a] at h'
  refine order_eq_eq_iff.mp ?_
  cases same : order a b with
  | eq => rfl
  | lt => simp [same] at h'
  | gt => simp [same] at h

theorem mayPrecede_of_ties (h : Ties a b) : mayPrecede a b = true := by
  rw [mayPrecede, order_eq_eq_iff.mpr h]
  rfl

/-- Families come one after the other. -/
theorem family_le_of_mayPrecede (h : mayPrecede a b = true) : a.family ≤ b.family :=
  not_lt.mp fun less => mayPrecede_iff.mp h (.inl (encode_lt_encode_iff.mpr less))

/-! ## The catalogue -/

variable {types : List InstanceType}

theorem catalogue_perm (types : List InstanceType) : (catalogue types).Perm types :=
  List.mergeSort_perm types mayPrecede

theorem pairwise_catalogue (types : List InstanceType) :
    (catalogue types).Pairwise fun a b => mayPrecede a b = true :=
  List.pairwise_mergeSort mayPrecede_trans mayPrecede_total types

/-- Entries that agree stay as they stand. -/
theorem filter_ties_catalogue (types : List InstanceType) (t : InstanceType) :
    (catalogue types).filter (Ties t ·) = types.filter (Ties t ·) := by
  have alike : (types.filter (Ties t ·)).Pairwise fun a b => mayPrecede a b = true := by
    refine List.pairwise_of_forall_mem_list fun a ha b hb => mayPrecede_of_ties ?_
    have ta : Ties t a := of_decide_eq_true (List.mem_filter.mp ha).2
    have tb : Ties t b := of_decide_eq_true (List.mem_filter.mp hb).2
    exact ⟨ta.1.symm.trans tb.1, ta.2.1.symm.trans tb.2.1, ta.2.2.symm.trans tb.2.2⟩
  have kept : (types.filter (Ties t ·)).Sublist (catalogue types) :=
    List.sublist_mergeSort mayPrecede_trans mayPrecede_total alike List.filter_sublist
  have within := kept.filter (Ties t ·)
  rw [List.filter_filter] at within
  simp only [Bool.and_self] at within
  exact (within.eq_of_length ((catalogue_perm types).symm.filter _).length_eq).symm

/-- Between two entries of a family there are no others. -/
theorem family_eq_of_between {ahead between behind : List InstanceType}
    (split : catalogue types = ahead ++ a :: (between ++ b :: behind))
    (same : a.family = b.family) : ∀ c ∈ between, c.family = a.family := by
  intro c member
  have ordered := pairwise_catalogue types
  rw [split] at ordered
  have rest := (List.pairwise_append.mp ordered).2.1
  obtain ⟨first, rest⟩ := List.pairwise_cons.mp rest
  have above : a.family ≤ c.family :=
    family_le_of_mayPrecede (first c (List.mem_append_left _ member))
  have below : c.family ≤ b.family := family_le_of_mayPrecede
    ((List.pairwise_append.mp rest).2.2 c member b List.mem_cons_self)
  exact le_antisymm (same ▸ below) above

/-- A catalogue is known from its entries, however they are listed, if no two of them agree. -/
theorem catalogue_eq_of_perm {types' : List InstanceType} (perm : types'.Perm types)
    (apart : ∀ a ∈ types, ∀ b ∈ types, Ties a b → a = b) : catalogue types' = catalogue types := by
  have perms := ((catalogue_perm types').trans perm).trans (catalogue_perm types).symm
  refine List.Perm.eq_of_pairwise ?_ (pairwise_catalogue types') (pairwise_catalogue types) perms
  intro a b ha hb h h'
  have ha : a ∈ types := (catalogue_perm types).mem_iff.mp (perms.mem_iff.mp ha)
  have hb : b ∈ types := (catalogue_perm types).mem_iff.mp hb
  exact apart a ha b hb (ties_of_mayPrecede h h')

/-- A catalogue of given entries, and what comes of it. -/
structure Catalogued (types sorted : List InstanceType) : Prop where
  perm : sorted.Perm types
  /-- No entry comes after one that it comes before. -/
  ordered : sorted.Pairwise fun a b => ¬ Precedes b a
  /-- Entries that agree stay as they stand. -/
  stable : ∀ t, sorted.filter (Ties t ·) = types.filter (Ties t ·)
  /-- Families are what they are called. -/
  family : ∀ t ∈ sorted, '.' ∉ t.family.toList ∧
    (t.name = t.family ∨ ∃ rest, t.name = t.family ++ "." ++ rest)
  /-- Between two entries of a family there are no others. -/
  contiguous : ∀ ahead a between b behind, sorted = ahead ++ a :: (between ++ b :: behind) →
    a.family = b.family → ∀ c ∈ between, c.family = a.family
  idempotent : catalogue sorted = sorted
  /-- It does not matter how the entries are listed if no two of them agree. -/
  determined : (∀ a ∈ types, ∀ b ∈ types, Ties a b → a = b) →
    ∀ types', types'.Perm types → catalogue types' = sorted
  /-- An account that was set up with the entries lists its types like that, whatever calls it has
  taken. -/
  listed : ∀ (s : Setup) (cs : List Call), s.instanceTypes = types →
    (((ofSetup s).after cs).answer .instanceTypes).1 = .ok sorted

theorem instanceTypes_after (a : Account) (cs : List Call) :
    (a.after cs).instanceTypes = a.instanceTypes :=
  after_invariant (P := fun b => b.instanceTypes = a.instanceTypes)
    (fun b c _ same => (instanceTypes_answer b c).trans same) rfl

/-- What the catalogue of any entries is like. -/
theorem catalogued (types : List InstanceType) : Catalogued types (catalogue types) where
  perm := catalogue_perm types
  ordered := (pairwise_catalogue types).imp mayPrecede_iff.mp
  stable := filter_ties_catalogue types
  family t _ := family_spec t
  contiguous _ _ _ _ _ split same := family_eq_of_between split same
  idempotent := List.mergeSort_of_pairwise (pairwise_catalogue types)
  determined apart _ perm := catalogue_eq_of_perm perm apart
  listed s cs same := by
    show (.ok ((ofSetup s).after cs).instanceTypes : Except ProviderError (List InstanceType)) = _
    rw [instanceTypes_after, ← same]
    rfl

/-- The order of the families is not the order of the names. -/
example : order ⟨"m5.large", 2, 8192, "", ""⟩ ⟨"m5-x.large", 2, 8192, "", ""⟩ = .lt ∧
    "m5-x.large" < "m5.large" := by
  decide

end InstanceType

end InstanceResize
