import HedgedStore.Gzip.Deflate
import HedgedStore.Proofs.Gzip.Bits

/-! Data stored as it is makes a stream for that data. -/
namespace HedgedStore.Gzip

theorem storeFrom_blocks (steps : Nat) (data : Bytes) (blocks : List Bytes) :
    storeFrom steps data blocks = blocks.reverse.flatten ++ storeFrom steps data [] := by
  induction steps generalizing data blocks with
  | zero => simp [storeFrom]
  | succ steps ih =>
    simp only [storeFrom]
    split
    · simp
    · rw [ih, ih _ [_]]
      simp

/-- The bits of a stored block: its flag, its kind and five zeros up to the byte boundary, and its
content. -/
theorem streamOf_block (last : Bool) (chunk : Bytes) :
    streamOf (storedHeader last chunk.length ++ chunk) =
      last :: (bitsOf 2 0 ++ (bitsOf 5 0 ++ (bitsOf 16 chunk.length ++
        (bitsOf 16 (65535 - chunk.length) ++ streamOf chunk)))) := by
  simp only [← flatMap_byteBits, ← natBits_eq]
  have first : byteBits (if last then 1 else 0) = last :: (natBits 2 0 ++ natBits 5 0) := by
    cases last <;> decide
  simp only [storedHeader, List.flatMap_append, List.cons_append, List.flatMap_cons, first,
    flatMap_byteBits_littleEndian, List.append_assoc]

variable {blank : Option UInt8}

theorem block_stored {start : Nat} (aligned : 8 ∣ start) (before : Bytes) {chunk : Bytes}
    (fits : chunk.length ≤ storedLimit) :
    Block blank (start + 1) before (before ++ chunk)
      (bitsOf 2 0 ++ (bitsOf 5 0 ++ (bitsOf 16 chunk.length ++
        (bitsOf 16 (65535 - chunk.length) ++ streamOf chunk)))) := by
  refine .stored (.stored (by decide) ?_ fits)
  rw [length_bitsOf]
  omega

theorem blocks_storeFrom {start steps : Nat} (aligned : 8 ∣ start) (before : Bytes) {data : Bytes}
    (fits : data.length < steps * storedLimit) :
    Blocks blank start before (before ++ data) (streamOf (storeFrom steps data [])) := by
  induction steps generalizing start before data with
  | zero => omega
  | succ steps ih =>
    have chunk_fits : (data.take storedLimit).length ≤ storedLimit := List.length_take_le _ _
    by_cases last : data.drop storedLimit = []
    · have whole : data.take storedLimit = data := by
        have parts := List.take_append_drop storedLimit data
        rwa [last, List.append_nil] at parts
      have stored : storeFrom (steps + 1) data [] = storedHeader true data.length ++ data := by
        simp [storeFrom, last, whole]
      rw [stored, streamOf_block]
      exact .last (block_stored aligned before (whole ▸ chunk_fits))
    · have more : (data.drop storedLimit).isEmpty = false := List.isEmpty_eq_false_iff.mpr last
      have stored : storeFrom (steps + 1) data [] =
          storedHeader false (data.take storedLimit).length ++ data.take storedLimit ++
            storeFrom steps (data.drop storedLimit) [] := by
        rw [storeFrom, storeFrom_blocks steps]
        simp [more]
      have rest_fits : (data.drop storedLimit).length < steps * storedLimit := by
        rw [List.length_drop]
        rw [Nat.succ_mul] at fits
        have long : storedLimit < data.length := by
          by_contra short
          exact last (List.drop_eq_nil_of_le (Nat.le_of_not_lt short))
        omega
      have joined : before ++ data = before ++ data.take storedLimit ++ data.drop storedLimit := by
        rw [List.append_assoc, List.take_append_drop]
      rw [stored, streamOf_append, streamOf_block, List.cons_append, joined]
      refine .more (block_stored aligned before chunk_fits) (ih ?_ _ rest_fits)
      simp only [List.length_append, length_bitsOf, length_streamOf]
      omega

theorem deflated_store (data : Bytes) : Deflated blank (store data) data :=
  ⟨_, [], (List.append_nil _).symm, by decide,
    blocks_storeFrom (Nat.dvd_zero 8) [] (Nat.lt_mul_of_div_lt (Nat.lt_succ_self _) (by decide))⟩

end HedgedStore.Gzip
