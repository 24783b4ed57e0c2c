import Mathlib.Data.List.Nodup
import Mathlib.Data.Nat.Bitwise
import Reconcile.Conflict.Change

namespace Reconcile

namespace ChangeType

variable {change other : ChangeType} {i : Nat}

/-- The place of a kind's bit; the lowest bit is at place zero. -/
def place (change : ChangeType) : Nat :=
  change.position.toNat

theorem map_place_all : all.map place = List.range 10 :=
  rfl

theorem place_lt (change : ChangeType) : change.place < 10 := by
  have hplace := List.mem_map_of_mem (f := place) change.mem_all
  rwa [map_place_all, List.mem_range] at hplace

theorem exists_place_eq (hi : i < 10) : ∃ change : ChangeType, change.place = i := by
  rw [← List.mem_range, ← map_place_all, List.mem_map] at hi
  obtain ⟨change, -, rfl⟩ := hi
  exact ⟨change, rfl⟩

/-- No two kinds share a bit. -/
theorem place_inj : change.place = other.place ↔ change = other := by
  have hnodup : (all.map ChangeType.place).Nodup := map_place_all ▸ List.nodup_range
  refine ⟨fun hplace => ?_, congrArg ChangeType.place⟩
  exact List.inj_on_of_nodup_map hnodup change.mem_all other.mem_all hplace

theorem toNat_bit (change : ChangeType) : change.bit.toNat = 2 ^ change.place := by
  cases change <;> rfl

theorem bit_lt_iff : change.bit < other.bit ↔ change.place < other.place := by
  rw [UInt32.lt_iff_toNat_lt, toNat_bit, toNat_bit]
  exact Nat.pow_lt_pow_iff_right (by decide)

theorem pairwise_all : all.Pairwise fun a b => a.bit < b.bit := by
  have hplaces : (all.map ChangeType.place).Pairwise (· < ·) := map_place_all ▸ List.pairwise_lt_range
  exact (List.pairwise_map.mp hplaces).imp bit_lt_iff.mpr

end ChangeType

namespace ChangeSet

variable {set other : ChangeSet} {change : ChangeType} {changes others : List ChangeType}

/-- Whether the bit at a place is set. -/
def hasBit (set : ChangeSet) (i : Nat) : Bool :=
  set.raw.toNat.testBit i

theorem eq_of_hasBit (hbits : ∀ i, set.hasBit i = other.hasBit i) : set = other := by
  obtain ⟨raw⟩ := set
  obtain ⟨raw'⟩ := other
  have hraw : raw = raw' := UInt32.toNat_inj.mp (Nat.eq_of_testBit_eq hbits)
  rw [hraw]

theorem contains_eq (set : ChangeSet) (change : ChangeType) :
    set.contains change = set.hasBit change.place := by
  have hbit : (set.raw &&& change.bit).toNat = (set.hasBit change.place).toNat * 2 ^ change.place := by
    rw [UInt32.toNat_and, ChangeType.toNat_bit]
    exact Nat.and_two_pow set.raw.toNat change.place
  rw [contains, bne, ← Bool.not_not (set.hasBit change.place)]
  congr 1
  rw [Bool.eq_iff_iff, beq_iff_eq, ← UInt32.toNat_inj, hbit]
  cases set.hasBit change.place <;> simp

/-- A bit is set in the set of a list exactly if it is the bit of a kind in the list. -/
theorem hasBit_ofList (changes : List ChangeType) (i : Nat) :
    (ofList changes).hasBit i = changes.any (·.place == i) := by
  have hfold (raw : UInt32) : (changes.foldl (fun raw change => raw ||| change.bit) raw).toNat.testBit i =
      (raw.toNat.testBit i || changes.any (·.place == i)) := by
    induction changes generalizing raw with
    | nil => simp
    | cons change changes ih =>
      rw [List.foldl_cons, ih, UInt32.toNat_or, ChangeType.toNat_bit, Nat.testBit_or,
        Nat.testBit_two_pow, List.any_cons, Bool.or_assoc]
      rfl
  rw [hasBit, ofList, hfold]
  simp

theorem contains_ofList : (ofList changes).contains change = true ↔ change ∈ changes := by
  rw [contains_eq, hasBit_ofList, List.any_eq_true]
  simp [ChangeType.place_inj]

theorem containsAny_ofList :
    (ofList changes).containsAny others = true ↔ ∃ change ∈ changes, change ∈ others := by
  rw [containsAny, List.any_eq_true]
  simp only [contains_ofList]
  exact ⟨fun ⟨change, hother, hmem⟩ => ⟨change, hmem, hother⟩,
    fun ⟨change, hmem, hother⟩ => ⟨change, hother, hmem⟩⟩

theorem mem_toList_ofList : change ∈ (ofList changes).toList ↔ change ∈ changes := by
  rw [mem_toList, contains_ofList]

theorem pairwise_toList (set : ChangeSet) : set.toList.Pairwise fun a b => a.bit < b.bit :=
  ChangeType.pairwise_all.filter set.contains

/-- The set of the kinds in a set has the same bits as far as they stand for kinds. -/
theorem hasBit_ofList_toList (set : ChangeSet) (i : Nat) :
    (ofList set.toList).hasBit i = (set.hasBit i && decide (i < 10)) := by
  rw [hasBit_ofList, Bool.eq_iff_iff, List.any_eq_true, Bool.and_eq_true, decide_eq_true_iff]
  constructor
  · rintro ⟨change, hmem, hplace⟩
    obtain rfl : change.place = i := beq_iff_eq.mp hplace
    exact ⟨contains_eq set change ▸ mem_toList.mp hmem, change.place_lt⟩
  · rintro ⟨hbit, hknown⟩
    obtain ⟨change, rfl⟩ := ChangeType.exists_place_eq hknown
    exact ⟨change, mem_toList.mpr ((contains_eq set change).trans hbit), beq_self_eq_true _⟩

theorem ofList_toList (set : ChangeSet) : ofList set.toList = ⟨set.raw &&& 0x3FF⟩ := by
  refine eq_of_hasBit fun i => ?_
  have hlowest : (0x3FF : UInt32).toNat = 2 ^ 10 - 1 := rfl
  rw [hasBit_ofList_toList, hasBit, hasBit, UInt32.toNat_and, Nat.testBit_and, hlowest,
    Nat.testBit_two_pow_sub_one]

theorem ofList_toList_ofList (changes : List ChangeType) :
    ofList (ofList changes).toList = ofList changes := by
  refine eq_of_hasBit fun i => ?_
  rw [hasBit_ofList, hasBit_ofList, Bool.eq_iff_iff, List.any_eq_true, List.any_eq_true]
  simp only [mem_toList_ofList]

/-- A set made out of a list contains the members of the list. As a list again, it has each of them once, by
bit, and the set of this list is the same. Of any number, its kinds make up the ten lowest bits: the number
without its other bits, which contains the same kinds. -/
theorem holds_exactly_its_members (changes others : List ChangeType) (raw : UInt32) :
    (∀ change, (ofList changes).contains change = true ↔ change ∈ changes) ∧
    ((ofList changes).containsAny others = true ↔ ∃ change ∈ changes, change ∈ others) ∧
    ((ofList changes).toList.Nodup ∧ ((ofList changes).toList.Pairwise fun a b => a.bit < b.bit) ∧
      ∀ change, change ∈ (ofList changes).toList ↔ change ∈ changes) ∧
    ofList (ofList changes).toList = ofList changes ∧
    (ofList (ofList changes).toList).toList = (ofList changes).toList ∧
    (ofList (ChangeSet.mk raw).toList).raw = raw &&& 0x3FF ∧
    ∀ change, (ofList (ChangeSet.mk raw).toList).contains change = (ChangeSet.mk raw).contains change := by
  refine ⟨fun _ => contains_ofList, containsAny_ofList, ⟨?_, pairwise_toList _, fun _ => mem_toList_ofList⟩,
    ofList_toList_ofList changes, by rw [ofList_toList_ofList], by rw [ofList_toList], fun change => ?_⟩
  · exact (pairwise_toList _).imp fun hbit => (UInt32.ne_of_lt hbit <| congrArg ChangeType.bit ·)
  · rw [Bool.eq_iff_iff, contains_ofList, mem_toList]

/-- The highest bit stands for no kind, and a kind that is listed twice is there once. -/
example : (ofList [.lock, .edit, .lock]).toList = [.edit, .lock] ∧
    (ChangeSet.mk 0x80000204).toList = [.edit, .lock] := by
  decide

end ChangeSet

end Reconcile
