import Coffer.Compression.Gzip
import Coffer.Proofs.Encoding

namespace Coffer

/-! # Packed bytes

Stored blocks are inflated to the bytes they hold, so that what was packed is unpacked again.
-/

namespace Inflate

variable {bits tail : Bits} {bytes content rest : Bytes} {output : Array UInt8}
variable {number width more fuel : Nat}

/-- A number is read from its lowest bits. -/
theorem readNumber_testBit :
    readNumber width ((List.range width).map number.testBit ++ bits) =
      some (number % Nat.pow 2 width, bits) := by
  induction width generalizing number with
  | zero => simp [readNumber, Nat.mod_one]
  | succ width ih =>
      have high : (List.range (width + 1)).map number.testBit =
          number.testBit 0 :: (List.range width).map (number / 2).testBit := by
        rw [List.range_succ_eq_map, List.map_cons, List.map_map]
        congr 2
        funext place
        exact Nat.testBit_succ number place
      have power : Nat.pow 2 (width + 1) = 2 * Nat.pow 2 width := Nat.mul_comm (Nat.pow 2 width) 2
      have low : (number.testBit 0).toNat = number % 2 := by
        rw [Nat.testBit_zero]
        rcases Nat.mod_two_eq_zero_or_one number with even | odd <;> simp [*]
      rw [high, List.cons_append, readNumber, ih, Option.map_some, low, power, Nat.mod_mul]

theorem readNumber_byte {byte : UInt8} :
    readNumber 8 (bitsOfByte byte ++ bits) = some (byte.toNat, bits) := by
  have small : byte.toNat % Nat.pow 2 8 = byte.toNat := Nat.mod_eq_of_lt byte.toNat_lt
  rw [bitsOfByte, readNumber_testBit, small]

/-- The bits of a wider number are those of two, one after the other. -/
theorem readNumber_add :
    readNumber (width + more) bits = (readNumber width bits).bind fun low =>
      (readNumber more low.2).map fun high => (low.1 + Nat.pow 2 width * high.1, high.2) := by
  induction width generalizing bits with
  | zero =>
      rw [Nat.zero_add]
      cases found : readNumber more bits <;> simp [readNumber, found]
  | succ width ih =>
      have power : Nat.pow 2 (width + 1) = 2 * Nat.pow 2 width := Nat.mul_comm (Nat.pow 2 width) 2
      rw [Nat.add_right_comm]
      cases bits with
      | nil => rfl
      | cons bit others =>
          rw [readNumber, readNumber, ih]
          cases readNumber width others with
          | none => rfl
          | some low =>
              rw [Option.bind_some, Option.map_some, Option.bind_some, Option.map_map]
              congr 1
              funext high
              simp only [Function.comp_apply, power, Nat.mul_add, Nat.mul_assoc, Nat.add_assoc]

theorem bitsOf_append : bitsOf (bytes ++ rest) = bitsOf bytes ++ bitsOf rest :=
  List.flatMap_append

theorem length_bitsOf : (bitsOf bytes).length = 8 * bytes.length := by
  induction bytes with
  | nil => rfl
  | cons byte others ih =>
      rw [bitsOf, List.flatMap_cons, List.length_append, List.length_cons]
      change (bitsOfByte byte).length + (bitsOf others).length = _
      rw [ih, bitsOfByte, List.length_map, List.length_range]
      omega

theorem readNumber_bitsOf :
    readNumber (8 * bytes.length) (bitsOf bytes ++ bits) = some (Bytes.number bytes, bits) := by
  induction bytes with
  | nil => rfl
  | cons byte others ih =>
      have room : 8 * (byte :: others).length = 8 + 8 * others.length := by
        rw [List.length_cons]
        omega
      have form : bitsOf (byte :: others) ++ bits = bitsOfByte byte ++ (bitsOf others ++ bits) :=
        List.append_assoc _ _ _
      rw [room, form, readNumber_add, readNumber_byte, Option.bind_some, ih]
      rfl

theorem go_bitsOf (enough : bytes.length ≤ fuel) : bytesOf.go fuel (bitsOf bytes) = bytes := by
  induction fuel generalizing bytes with
  | zero =>
      have empty : bytes = [] := List.eq_nil_of_length_eq_zero (Nat.le_zero.mp enough)
      rw [empty]
      rfl
  | succ fuel ih =>
      cases bytes with
      | nil => rfl
      | cons byte others =>
          have found : readNumber 8 (bitsOf (byte :: others)) = some (byte.toNat, bitsOf others) :=
            readNumber_byte
          rw [bytesOf.go, found]
          simp only [UInt8.ofNat_toNat, ih (Nat.le_of_succ_le_succ enough)]

theorem bytesOf_bitsOf : bytesOf (bitsOf bytes) = bytes := by
  refine go_bitsOf ?_
  rw [length_bitsOf]
  omega

theorem aligned_append (short : tail.length < 8) :
    aligned (tail ++ bitsOf bytes) = bitsOf bytes := by
  have drops : (tail ++ bitsOf bytes).length % 8 = tail.length := by
    rw [List.length_append, length_bitsOf]
    omega
  rw [aligned, drops, List.drop_left]

theorem aligned_bitsOf : aligned (bitsOf bytes) = bitsOf bytes :=
  @aligned_append [] bytes (by decide)

theorem readStored_bitsOf (short : tail.length < 8) (fits : content.length ≤ 65535) :
    readStored ⟨output, tail ++ bitsOf (Bytes.littleEndian 2 content.length ++
      (Bytes.littleEndian 2 (65535 - content.length) ++ (content ++ rest)))⟩ =
        some ⟨output ++ content.toArray, bitsOf rest⟩ := by
  have readPair {number : Nat} (pair : number ≤ 65535) {bits : Bits} :
      readNumber 16 (bitsOf (Bytes.littleEndian 2 number) ++ bits) = some (number, bits) := by
    have read := @readNumber_bitsOf bits (Bytes.littleEndian 2 number)
    rwa [Bytes.length_littleEndian,
      Bytes.number_littleEndian_of_lt (Nat.lt_succ_of_le pair)] at read
  have whole : content.length + (65535 - content.length) = 65535 := by omega
  have length : (bitsOf content).length = 8 * content.length := length_bitsOf
  rw [readStored]
  simp only [aligned_append short]
  rw [bitsOf_append, readPair fits, bitsOf_append]
  simp only [Option.bind_eq_bind, Option.bind_some]
  rw [readPair (Nat.sub_le _ _)]
  simp only [Option.bind_some, whole, ne_eq, not_true_eq_false, if_false, bitsOf_append]
  have enough : ¬ (bitsOf content ++ bitsOf rest).length < (bitsOf content).length := by
    rw [List.length_append]
    omega
  simp only [← length, enough, if_false, List.take_left, List.drop_left, bytesOf_bitsOf]

end Inflate

namespace Gzip

open Inflate

variable {content rest : Bytes} {runs : List Bytes} {output : Array UInt8} {fuel : Nat}

/-- A stored block adds its content to what was read before. -/
theorem readBlocks_storedBlock (last : Bool) (fits : content.length ≤ 65535) :
    readBlocks (fuel + 1) ⟨output, bitsOf (storedBlock last content ++ rest)⟩ =
      if last then some ⟨output ++ content.toArray, bitsOf rest⟩
      else readBlocks fuel ⟨output ++ content.toArray, bitsOf rest⟩ := by
  have marked : readNumber 3 (bitsOf (storedBlock last content ++ rest)) =
      some (last.toNat, List.replicate 5 false ++
        bitsOf (Bytes.littleEndian 2 content.length ++
          (Bytes.littleEndian 2 (65535 - content.length) ++ (content ++ rest)))) := by
    rw [storedBlock, List.cons_append, List.append_assoc, List.append_assoc]
    cases last <;> rfl
  have kind : last.toNat / 2 = 0 := by cases last <;> rfl
  have short : (List.replicate 5 false).length < 8 := by decide
  rw [readBlocks]
  simp only [marked, kind, readContent, readStored_bitsOf short fits]
  cases last <;> rfl

theorem readBlocks_storedBlocks (fits : ∀ run ∈ runs, run.length ≤ 65535)
    (enough : runs.length < fuel) :
    readBlocks fuel ⟨output, bitsOf (storedBlocks runs ++ rest)⟩ =
      some ⟨output ++ runs.flatten.toArray, bitsOf rest⟩ := by
  induction runs generalizing fuel output with
  | nil =>
      obtain ⟨fuel, rfl⟩ : ∃ less, fuel = less + 1 := ⟨fuel - 1, by omega⟩
      rw [storedBlocks, readBlocks_storedBlock true (by decide)]
      rfl
  | cons run others ih =>
      obtain ⟨fuel, rfl⟩ : ∃ less, fuel = less + 1 := ⟨fuel - 1, by omega⟩
      obtain ⟨first, later⟩ := List.forall_mem_cons.mp fits
      cases others with
      | nil =>
          rw [storedBlocks, readBlocks_storedBlock true first]
          simp
      | cons second more =>
          have others := @ih (output ++ run.toArray) fuel later (Nat.lt_of_succ_lt_succ enough)
          rw [storedBlocks, List.append_assoc, readBlocks_storedBlock false first]
          · simp only [Bool.false_eq_true, if_false, others]
            simp
          · simp

theorem length_le_storedBlocks : runs.length ≤ (storedBlocks runs).length := by
  induction runs with
  | nil => exact Nat.zero_le _
  | cons run others ih =>
      cases others with
      | nil =>
          rw [storedBlocks, storedBlock]
          simp
      | cons second more =>
          rw [storedBlocks, List.length_append, storedBlock]
          · simp only [List.length_cons] at ih ⊢
            omega
          · simp

theorem inflate_storedBlocks (fits : ∀ run ∈ runs, run.length ≤ 65535) :
    inflate (storedBlocks runs ++ rest) = some (runs.flatten, rest) := by
  have room : runs.length < 8 * (storedBlocks runs ++ rest).length + 1 := by
    have shorter : runs.length ≤ (storedBlocks runs).length := length_le_storedBlocks
    rw [List.length_append]
    omega
  rw [inflate, readBlocks_storedBlocks fits room]
  simp [aligned_bitsOf, bytesOf_bitsOf]

theorem afterHeader?_plain :
    afterHeader? ([0x1f, 0x8b, 8, 0, 0, 0, 0, 0, 0, 255] ++ rest) = some rest := by
  simp [afterHeader?, afterPart?, afterHeaderCheck?, hasFlag]

/-- What was packed is unpacked again. -/
theorem unpack?_pack : unpack? (pack content) = some content := by
  have fits : ∀ run ∈ content.runs 65535, run.length ≤ 65535 := Bytes.length_le_of_mem_runs
  have content_eq : (content.runs 65535).flatten = content := Bytes.flatten_runs (by decide)
  have check : (Bytes.littleEndian 4 (Crc32.check content).toNat).length = 4 :=
    Bytes.length_littleEndian
  have checked : Bytes.number (Bytes.littleEndian 4 (Crc32.check content).toNat) =
      (Crc32.check content).toNat :=
    Bytes.number_littleEndian_of_lt (Crc32.check content).toNat_lt
  have counted : Bytes.number (Bytes.littleEndian 4 (content.length % Nat.pow 2 32)) =
      content.length % Nat.pow 2 32 :=
    Bytes.number_littleEndian_of_lt (Nat.mod_lt _ (by decide))
  have length : (Bytes.littleEndian 4 (Crc32.check content).toNat ++
      Bytes.littleEndian 4 (content.length % Nat.pow 2 32)).length = 8 := by
    rw [List.length_append, check, Bytes.length_littleEndian]
  have last : (Bytes.littleEndian 4 (content.length % Nat.pow 2 32)).take 4 =
      Bytes.littleEndian 4 (content.length % Nat.pow 2 32) :=
    List.take_of_length_le (Nat.le_of_eq Bytes.length_littleEndian)
  rw [unpack?, pack, afterHeader?_plain]
  simp only [Option.bind_eq_bind, Option.bind_some, inflate_storedBlocks fits, content_eq, length,
    List.take_left' check, List.drop_left' check, checked, last, counted]
  simp

end Gzip

end Coffer
