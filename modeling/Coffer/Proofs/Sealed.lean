import Coffer.Cryptography.Sealed
import Coffer.Proofs.Encoding

namespace Coffer

/-! # Sealed bytes

The stream cipher undoes itself, so that what was sealed under a key is opened under it.
-/

namespace ChaCha20

variable {key nonce bytes : Bytes} {counter count : Nat} {state : State}

theorem size_quarterRound (places : Nat × Nat × Nat × Nat) :
    (quarterRound state places).size = state.size := by
  simp [quarterRound, mixStep]

theorem size_doubleRound : (doubleRound state).size = state.size := by
  simp [doubleRound, places, size_quarterRound]

theorem size_repeat : (Nat.repeat doubleRound count state).size = state.size := by
  induction count with
  | zero => rfl
  | succ count ih => rw [Nat.repeat, size_doubleRound, ih]

theorem size_start (keyLength : key.length = 32) (nonceLength : nonce.length = 12) :
    (start key nonce counter).size = 16 := by
  have keyWords : (wordsOf key).length = 8 := by
    rw [wordsOf, List.length_map]
    exact Bytes.length_runs (by decide) keyLength
  have nonceWords : (wordsOf nonce).length = 3 := by
    rw [wordsOf, List.length_map]
    exact Bytes.length_runs (by decide) nonceLength
  simp [start, keyWords, nonceWords]

theorem length_block (keyLength : key.length = 32) (nonceLength : nonce.length = 12) :
    (block key nonce counter).length = 64 := by
  have mixed : (Nat.repeat doubleRound 10 (start key nonce counter)).size = 16 := by
    rw [size_repeat, size_start keyLength nonceLength]
  have bytes {words : List UInt32} :
      (words.flatMap fun word => Bytes.littleEndian 4 word.toNat).length = 4 * words.length := by
    induction words with
    | nil => rfl
    | cons word others ih =>
        rw [List.flatMap_cons, List.length_append, Bytes.length_littleEndian, ih, List.length_cons]
        omega
  rw [block, bytes, List.length_zipWith, Array.length_toList, Array.length_toList, mixed,
    size_start keyLength nonceLength]
  rfl

theorem xor_xor {stream : Bytes} (enough : bytes.length ≤ stream.length) :
    List.zipWith (· ^^^ ·) (List.zipWith (· ^^^ ·) bytes stream) stream = bytes := by
  induction bytes generalizing stream with
  | nil => rfl
  | cons byte others ih =>
      cases stream with
      | nil => exact absurd enough (Nat.not_succ_le_zero _)
      | cons mask masks =>
          rw [List.zipWith_cons_cons, List.zipWith_cons_cons, ih (Nat.le_of_succ_le_succ enough),
            UInt8.xor_assoc, UInt8.xor_self, UInt8.xor_zero]

theorem apply_nil : apply key nonce counter [] = [] := rfl

theorem apply_eq_append (nonempty : bytes ≠ []) :
    apply key nonce counter bytes =
      List.zipWith (· ^^^ ·) (bytes.take 64) (block key nonce counter) ++
        apply key nonce (counter + 1) (bytes.drop 64) := by
  rw [apply, Bytes.runs_eq_cons (by decide) nonempty]
  rfl

/-- Encryption keeps the bytes in their runs. -/
theorem apply_cut (keyLength : key.length = 32) (nonceLength : nonce.length = 12)
    (nonempty : bytes ≠ []) :
    (apply key nonce counter bytes).take 64 =
      List.zipWith (· ^^^ ·) (bytes.take 64) (block key nonce counter) ∧
    (apply key nonce counter bytes).drop 64 = apply key nonce (counter + 1) (bytes.drop 64) := by
  have masked : (List.zipWith (· ^^^ ·) (bytes.take 64) (block key nonce counter)).length =
      min 64 bytes.length := by
    rw [List.length_zipWith, List.length_take, length_block keyLength nonceLength]
    omega
  rw [apply_eq_append nonempty]
  rcases Nat.lt_or_ge bytes.length 64 with short | long
  · have none : bytes.drop 64 = [] := List.drop_eq_nil_of_le (Nat.le_of_lt short)
    have within : (List.zipWith (· ^^^ ·) (bytes.take 64) (block key nonce counter)).length ≤ 64 := by
      omega
    rw [none, apply_nil, List.append_nil]
    exact ⟨List.take_of_length_le within, List.drop_eq_nil_of_le within⟩
  · have whole : (List.zipWith (· ^^^ ·) (bytes.take 64) (block key nonce counter)).length = 64 := by
      omega
    exact ⟨List.take_left' whole, List.drop_left' whole⟩

/-- Bytes that were encrypted are decrypted, run by run. -/
theorem apply_apply (keyLength : key.length = 32) (nonceLength : nonce.length = 12) :
    apply key nonce counter (apply key nonce counter bytes) = bytes := by
  induction length : bytes.length using Nat.strongRecOn generalizing bytes counter with
  | ind size ih =>
      by_cases empty : bytes = []
      · rw [empty]
        rfl
      · obtain ⟨run, others⟩ := @apply_cut key nonce bytes counter keyLength nonceLength empty
        have positive : 0 < bytes.length := List.length_pos_iff.mpr empty
        have shorter : (bytes.drop 64).length < size := by
          rw [List.length_drop]
          omega
        have maskable : (bytes.take 64).length ≤ (block key nonce counter).length := by
          rw [length_block keyLength nonceLength]
          exact List.length_take_le _ _
        have nonempty : apply key nonce counter bytes ≠ [] := by
          intro none
          have length := congrArg List.length run
          rw [none, List.length_zipWith, List.length_take, List.length_take, List.length_nil,
            length_block keyLength nonceLength] at length
          omega
        rw [apply_eq_append nonempty, run, others, xor_xor maskable, ih _ shorter rfl,
          List.take_append_drop]

end ChaCha20

namespace Sealed

variable {key nonce readable content : Bytes}

theorem length_tag {encrypted : Bytes} : (tag key nonce readable encrypted).length = tagLength :=
  Bytes.length_littleEndian

/-- What was sealed is opened again, since the tag is made of what is there to be opened. -/
theorem open?_close (keyLength : key.length = 32) (valid : nonce.length = nonceLength) :
    open? key readable (close key nonce readable content) = some content := by
  have tagLong {encrypted : Bytes} : (tag key nonce readable encrypted).length = tagLength :=
    length_tag
  have both {encrypted : Bytes} :
      (nonce ++ tag key nonce readable encrypted).length = nonceLength + tagLength := by
    rw [List.length_append, valid, tagLong]
  have enough {encrypted : Bytes} :
      ¬ (nonce ++ (tag key nonce readable encrypted ++ encrypted)).length <
        nonceLength + tagLength := by
    rw [← List.append_assoc, List.length_append, both]
    exact Nat.not_lt_of_le (Nat.le_add_right _ _)
  simp only [close, open?, enough, if_false, List.take_left' valid, List.drop_left' valid,
    List.take_left' tagLong]
  rw [← List.append_assoc, List.drop_left' both, if_pos rfl,
    ChaCha20.apply_apply keyLength valid]

end Sealed

end Coffer
