import CallTelemetry.Proofs.Bytes
import CallTelemetry.Storage.Salting

/-! Ranges of salted keys. The salts of a reader include those of a writer with as few buckets or
fewer, and a salted key lies in the range of its own salt only. -/
namespace CallTelemetry.Salting

theorem toNat_salt {n : Nat} (bound : n < 256) : (UInt8.ofNat n).toNat = n :=
  UInt8.toNat_ofNat_of_lt' bound

theorem mem_salts {s : Salting} {salt : UInt8} : salt ∈ s.salts ↔ salt.toNat < s.buckets := by
  have fits := s.fitsByte
  simp only [salts, List.mem_map, List.mem_range]
  constructor
  · rintro ⟨n, bound, rfl⟩
    rwa [toNat_salt (by omega)]
  · intro bound
    exact ⟨salt.toNat, bound, UInt8.ofNat_toNat⟩

theorem salts_nodup (s : Salting) : s.salts.Nodup := by
  have fits := s.fitsByte
  refine List.pairwise_map.2 ((List.nodup_range (n := s.buckets)).imp_of_mem ?_)
  intro n m member member' apart same
  rw [List.mem_range] at member member'
  have numbers := congrArg UInt8.toNat same
  rw [toNat_salt (by omega), toNat_salt (by omega)] at numbers
  exact apart numbers

theorem bucket_mem_salts {s s' : Salting} (more : s.buckets ≤ s'.buckets) (key : Bytes) :
    s.bucket key ∈ s'.salts := by
  have fits := s.fitsByte
  have below (h : Nat) : h % s.buckets < s.buckets := Nat.mod_lt h s.positive
  rw [mem_salts, bucket, toNat_salt (Nat.lt_of_lt_of_le (below _) fits)]
  exact Nat.lt_of_lt_of_le (below _) more

/-- A key is in the range of a salt if it has that salt and lies in the range without it. -/
theorem between_cons {salt byte : UInt8} {start stop key : Bytes} :
    compare (salt :: start) (byte :: key) ≠ .gt ∧ compare (byte :: key) (salt :: stop) = .lt ↔
      byte = salt ∧ compare start key ≠ .gt ∧ compare key stop = .lt := by
  rw [List.compare_cons_cons, List.compare_cons_cons]
  have swap : compare byte salt = (compare salt byte).swap := Std.OrientedOrd.eq_swap
  rw [swap]
  cases order : compare salt byte with
  | lt =>
    have apart : byte ≠ salt := by
      rintro rfl
      simp at order
    simp [apart]
  | eq =>
    obtain rfl : salt = byte := Std.LawfulEqOrd.eq_of_compare order
    simp
  | gt =>
    have apart : byte ≠ salt := by
      rintro rfl
      simp at order
    simp [apart]

end CallTelemetry.Salting
