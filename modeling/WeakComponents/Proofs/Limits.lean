import WeakComponents.Limits
import WeakComponents.Proofs.Json.Naturals

/-!
# Limits that a configuration text sets

Limits are accepted just if they leave at least one worker, batches of at least one node, and a slot
for every node. Whatever text they came from, the configuration that sets every limit gives the same
limits again, on any machine.
-/

namespace WeakComponents.Limits

variable {limits : Limits} {workers : UInt64} {document : String}

theorem validate_eq_ok_iff :
    limits.validate = .ok () ↔
      limits.defaultConcurrency ≠ 0 ∧ limits.minBatchSize ≠ 0 ∧
        limits.maxVertices.toNat ≤ slotLimit := by
  unfold validate
  by_cases hworkers : limits.defaultConcurrency = 0
  · simp [hworkers]
  · by_cases hbatches : limits.minBatchSize = 0
    · simp [hworkers, hbatches]
    · simp [hworkers, hbatches]

theorem ofJsonText_eq_ok {fields : Fields} (hread : readFields document = .ok fields)
    (hvalid : (ofFields workers fields).validate = .ok ()) :
    ofJsonText workers document = .ok (ofFields workers fields) := by
  unfold ofJsonText
  rw [hread]
  dsimp only
  rw [hvalid]

/-- Limits that were read from a text have passed the check. -/
theorem validate_of_ofJsonText (h : ofJsonText workers document = .ok limits) :
    limits.validate = .ok () := by
  unfold ofJsonText at h
  split at h
  · cases h
  · rename_i fields _
    cases hvalid : (ofFields workers fields).validate with
    | error error =>
      rw [hvalid] at h
      cases h
    | ok _ =>
      rw [hvalid] at h
      obtain rfl := Except.ok.inj h
      exact hvalid

/-- The sizes of all limits, by name. -/
def toFields (limits : Limits) : Fields :=
  [("max_projection_memory", limits.maxProjectionMemory), ("max_vertices", limits.maxVertices),
    ("default_concurrency", limits.defaultConcurrency), ("min_batch_size", limits.minBatchSize)]

theorem readFields_toText (limits : Limits) :
    readFields limits.toJson.toText = .ok limits.toFields := by
  have hreads : Json.Reads (Json.Read.record fieldNames)
      (Json.render (.object (limits.toFields.map fun field ↦ (field.1, .ofUInt64 field.2))))
      limits.toFields := by
    apply Json.Read.reads_record
    · simp [toFields, fieldNames]
    · simp [toFields]
  exact Json.readDocument_ofList hreads

/-- The number of workers that the machine offers does not matter, as none is left out. -/
theorem ofFields_toFields (workers : UInt64) (limits : Limits) :
    ofFields workers limits.toFields = limits := rfl

/-- Accepted limits are read back from the configuration that sets them. -/
theorem ofJsonText_toJson (hvalid : limits.validate = .ok ()) (workers : UInt64) :
    ofJsonText workers limits.toJson.toText = .ok limits := by
  rw [← ofFields_toFields workers limits] at hvalid
  exact ofJsonText_eq_ok (readFields_toText limits) hvalid

end WeakComponents.Limits
