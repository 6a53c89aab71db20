import Mathlib.Data.List.Nodup
import Mathlib.Logic.Relation
import DataCache.Capture.DataBuffer

/-!
# The pair ledger over time

Every addition takes the next id, and trimming drops the oldest records.  What
is in the ledger is therefore the end of everything ever added, and no two of
these records have the same id.
-/

namespace DataCache.Capture.PairIndex

open DataCache.Foundation

inductive Adds (index : PairIndex) : PairIndex → Prop
  | matched (camera lidar difference : Int) :
      Adds index (index.addMatched camera lidar difference)
  | single (sensor : SensorType) (timestamp : Int) (reason : Text) :
      Adds index (index.addSingle sensor timestamp reason)

abbrev Grows : PairIndex → PairIndex → Prop := Relation.ReflTransGen Adds

/-- `history` is everything that has been added. -/
structure Remembers (index : PairIndex) (history : List PairRecord) : Prop where
  kept : index.records <:+ history
  unique : (history.map PairRecord.pairId).Nodup
  below : ∀ record ∈ history, record.pairId < index.nextId

theorem remembers_empty : empty.Remembers [] :=
  ⟨List.suffix_rfl, List.nodup_nil, fun _ h => absurd h List.not_mem_nil⟩

theorem trim_suffix (index : PairIndex) : index.trim.records <:+ index.records := by
  unfold trim
  generalize index.records.length - maxRecords = count
  exact List.drop_suffix _ _

theorem Remembers.add {index : PairIndex} {history : List PairRecord}
    (h : index.Remembers history) (record : PairRecord)
    (hid : record.pairId = index.nextId) :
    (trim { records := index.records ++ [record]
            nextId := index.nextId + 1 }).Remembers (history ++ [record]) := by
  constructor
  case kept =>
    obtain ⟨earlier, hearlier⟩ := h.kept
    have hadded : index.records ++ [record] <:+ history ++ [record] :=
      ⟨earlier, by rw [← List.append_assoc, hearlier]⟩
    exact (trim_suffix _).trans hadded
  case unique =>
    rw [List.map_append, List.map_singleton, List.nodup_append]
    refine ⟨h.unique, List.nodup_singleton _, fun id hold other hnew => ?_⟩
    obtain ⟨old, hmem, rfl⟩ := List.mem_map.mp hold
    have hbelow := h.below old hmem
    have hother := List.mem_singleton.mp hnew
    omega
  case below =>
    intro found hfound
    change found.pairId < index.nextId + 1
    rcases List.mem_append.mp hfound with hold | hnew
    · have hbelow := h.below found hold
      omega
    · rw [List.mem_singleton.mp hnew]
      omega

theorem Remembers.adds {index index' : PairIndex} {history : List PairRecord}
    (h : index.Remembers history) (hadds : index.Adds index') :
    ∃ record, index'.Remembers (history ++ [record]) := by
  cases hadds with
  | matched camera lidar difference => exact ⟨_, h.add _ rfl⟩
  | single sensor timestamp reason =>
      cases sensor with
      | camera => exact ⟨_, h.add _ rfl⟩
      | lidar => exact ⟨_, h.add _ rfl⟩

theorem Remembers.grows {index index' : PairIndex} {history : List PairRecord}
    (h : index.Remembers history) (hgrows : index.Grows index') :
    ∃ history', history <+: history' ∧ index'.Remembers history' := by
  induction hgrows with
  | refl => exact ⟨history, List.prefix_rfl, h⟩
  | tail _ hadds ih =>
      obtain ⟨history', hbefore, hremembers⟩ := ih
      obtain ⟨record, hadded⟩ := hremembers.adds hadds
      exact ⟨_, hbefore.trans (List.prefix_append _ _), hadded⟩

/-- One id is given to one record. -/
theorem Remembers.eq_of_pairId {index : PairIndex} {history : List PairRecord}
    (h : index.Remembers history) {first second : PairRecord}
    (hfirst : first ∈ history) (hsecond : second ∈ history)
    (hid : first.pairId = second.pairId) : first = second :=
  List.inj_on_of_nodup_map h.unique hfirst hsecond hid

end DataCache.Capture.PairIndex
