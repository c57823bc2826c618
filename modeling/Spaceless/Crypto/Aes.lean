import Mathlib.Tactic.Common

/-!
# AES by blocks

The block cipher itself is a parameter; the code around it works on whole
blocks.
-/

namespace Spaceless
namespace Crypto

def aesBlockSize : Nat := 16

/-- `aes_cipher_length` on `std::size_t`. -/
def aesCipherLength (plainLength : Nat) : Nat :=
  let overLength := plainLength % aesBlockSize
  let padLength := if overLength = 0 then 0 else aesBlockSize - overLength
  (plainLength + padLength) % 18446744073709551616

/-- Block decryption under a key. -/
structure AesBlockDecryptor where
  decrypt : List UInt8 → List UInt8
  length_decrypt : ∀ block, block.length = aesBlockSize →
    (decrypt block).length = aesBlockSize

/-- Block encryption under a key. -/
structure AesBlockEncryptor where
  encrypt : List UInt8 → List UInt8
  length_encrypt : ∀ block, block.length = aesBlockSize →
    (encrypt block).length = aesBlockSize

/-- The first blocks of a buffer are encrypted in place. -/
def encryptBlocks (encryptor : AesBlockEncryptor) :
    Nat → List UInt8 → List UInt8
  | 0, data => data
  | blocks + 1, data =>
      encryptor.encrypt (data.take aesBlockSize) ++
        encryptBlocks encryptor blocks (data.drop aesBlockSize)

/-- `ERR_CRYPTO_PLAIN_SPACE_NOT_ENOUGH`, or a block is read outside the
cipher text. -/
inductive DecryptFault
  | plainSpaceNotEnough
  | outside
  deriving DecidableEq

/-- The loop of `aes_decrypt` over the blocks of the plain text. -/
def decryptBlocks (decryptor : AesBlockDecryptor) :
    Nat → List UInt8 → Except DecryptFault (List UInt8)
  | 0, _ => .ok []
  | blocks + 1, cipher =>
      if cipher.length < aesBlockSize then .error .outside
      else
        (decryptBlocks decryptor blocks (cipher.drop aesBlockSize)).map
          fun plain => decryptor.decrypt (cipher.take aesBlockSize) ++ plain

/-- `aes_decrypt` into a plain text of the given length.  What follows the
last whole block is not written. -/
def aesDecrypt (decryptor : AesBlockDecryptor) (cipher : List UInt8)
    (plainLength : Nat) : Except DecryptFault (List UInt8) :=
  if plainLength < cipher.length then .error .plainSpaceNotEnough
  else
    (decryptBlocks decryptor (plainLength / aesBlockSize) cipher).map
      fun plain => plain ++ List.replicate (plainLength % aesBlockSize) 0

/-- The loop over a cipher text of enough blocks. -/
theorem decryptBlocks_eq_ok (decryptor : AesBlockDecryptor)
    {blocks : Nat} {cipher : List UInt8}
    (enough : blocks * aesBlockSize ≤ cipher.length) :
    ∃ plain, decryptBlocks decryptor blocks cipher = .ok plain ∧
      plain.length = blocks * aesBlockSize := by
  induction blocks generalizing cipher with
  | zero => exact ⟨[], rfl, (Nat.zero_mul _).symm⟩
  | succ blocks inductionHypothesis =>
      rw [Nat.succ_mul] at enough
      have first : aesBlockSize ≤ cipher.length := by
        omega
      have rest : blocks * aesBlockSize ≤
          (cipher.drop aesBlockSize).length := by
        rw [List.length_drop]
        omega
      obtain ⟨plain, decrypted, length⟩ := inductionHypothesis rest
      refine ⟨decryptor.decrypt (cipher.take aesBlockSize) ++ plain, ?_, ?_⟩
      · unfold decryptBlocks
        rw [if_neg (Nat.not_lt.mpr first), decrypted]
        rfl
      · rw [List.length_append, length, Nat.succ_mul, Nat.add_comm,
          decryptor.length_decrypt]
        rw [List.length_take, Nat.min_eq_left first]

/-- Whole blocks are decrypted into as many bytes. -/
theorem aesDecrypt_eq_ok (decryptor : AesBlockDecryptor)
    {cipher : List UInt8} {plainLength : Nat}
    (same : cipher.length = plainLength) :
    ∃ plain, aesDecrypt decryptor cipher plainLength = .ok plain ∧
      plain.length = plainLength := by
  have enough : plainLength / aesBlockSize * aesBlockSize ≤
      cipher.length := by
    rw [same]
    exact Nat.div_mul_le_self _ _
  obtain ⟨plain, decrypted, length⟩ := decryptBlocks_eq_ok decryptor enough
  refine ⟨plain ++ List.replicate (plainLength % aesBlockSize) 0, ?_, ?_⟩
  · unfold aesDecrypt
    rw [if_neg (by omega), decrypted]
    rfl
  · rw [List.length_append, List.length_replicate, length, Nat.mul_comm,
      Nat.div_add_mod]

theorem length_encryptBlocks (encryptor : AesBlockEncryptor)
    {blocks : Nat} {data : List UInt8}
    (enough : blocks * aesBlockSize ≤ data.length) :
    (encryptBlocks encryptor blocks data).length = data.length := by
  induction blocks generalizing data with
  | zero => rfl
  | succ blocks inductionHypothesis =>
      rw [Nat.succ_mul] at enough
      have first : (data.take aesBlockSize).length = aesBlockSize := by
        rw [List.length_take]
        omega
      unfold encryptBlocks
      rw [List.length_append, encryptor.length_encrypt _ first,
        inductionHypothesis (by rw [List.length_drop]; omega),
        List.length_drop]
      omega

/-- Blocks that were encrypted under the same key come back. -/
theorem decryptBlocks_encryptBlocks {encryptor : AesBlockEncryptor}
    {decryptor : AesBlockDecryptor}
    (inverts : ∀ block, block.length = aesBlockSize →
      decryptor.decrypt (encryptor.encrypt block) = block)
    {blocks : Nat} {data : List UInt8}
    (same : data.length = blocks * aesBlockSize) :
    decryptBlocks decryptor blocks (encryptBlocks encryptor blocks data) =
      .ok data := by
  induction blocks generalizing data with
  | zero =>
      rw [Nat.zero_mul, List.length_eq_zero_iff] at same
      rw [same]
      rfl
  | succ blocks inductionHypothesis =>
      rw [Nat.succ_mul] at same
      have first : (data.take aesBlockSize).length = aesBlockSize := by
        rw [List.length_take]
        omega
      have cipher := encryptor.length_encrypt _ first
      have rest : (data.drop aesBlockSize).length =
          blocks * aesBlockSize := by
        rw [List.length_drop]
        omega
      unfold encryptBlocks decryptBlocks
      rw [if_neg (by rw [List.length_append, cipher]; omega),
        List.drop_left' cipher, List.take_left' cipher,
        inductionHypothesis rest, inverts _ first]
      exact congrArg Except.ok (List.take_append_drop _ _)

/-- `aes_decrypt` of whole blocks that were encrypted under the same key. -/
theorem aesDecrypt_encryptBlocks {encryptor : AesBlockEncryptor}
    {decryptor : AesBlockDecryptor}
    (inverts : ∀ block, block.length = aesBlockSize →
      decryptor.decrypt (encryptor.encrypt block) = block)
    {blocks : Nat} {data : List UInt8}
    (same : data.length = blocks * aesBlockSize) :
    aesDecrypt decryptor (encryptBlocks encryptor blocks data)
      (blocks * aesBlockSize) = .ok data := by
  have length := length_encryptBlocks encryptor (Nat.le_of_eq same.symm)
  have count : blocks * aesBlockSize / aesBlockSize = blocks :=
    Nat.mul_div_cancel _ (by decide)
  unfold aesDecrypt
  rw [if_neg (by omega), count, decryptBlocks_encryptBlocks inverts same,
    Nat.mul_mod_left]
  exact congrArg Except.ok (List.append_nil _)

/-- Without overflow the cipher length is the next multiple of the block
size. -/
theorem aesCipherLength_of_le {plainLength : Nat}
    (below : plainLength ≤ 18446744073709551600) :
    aesCipherLength plainLength % 16 = 0 ∧
      plainLength ≤ aesCipherLength plainLength ∧
      aesCipherLength plainLength < plainLength + 16 := by
  unfold aesCipherLength aesBlockSize
  dsimp only
  split <;> omega

/-- The last block of the address space rounds up to zero. -/
theorem aesCipherLength_of_gt {plainLength : Nat}
    (above : 18446744073709551600 < plainLength)
    (below : plainLength < 18446744073709551616) :
    aesCipherLength plainLength = 0 := by
  unfold aesCipherLength aesBlockSize
  dsimp only
  split <;> omega

theorem aesCipherLength_of_dvd {plainLength : Nat}
    (blocks : plainLength % 16 = 0)
    (below : plainLength < 18446744073709551616) :
    aesCipherLength plainLength = plainLength := by
  unfold aesCipherLength aesBlockSize
  dsimp only
  rw [if_pos blocks, Nat.add_zero, Nat.mod_eq_of_lt below]

end Crypto
end Spaceless
