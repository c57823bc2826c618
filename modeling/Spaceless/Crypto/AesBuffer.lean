import Spaceless.Crypto.Aes
import Spaceless.Logic.Chunk

/-!
# AES between buffers

`aes_encrypt` and `aes_decrypt` from a sequence into a buffer of the caller.
Both take the bound of their loop from the length of the buffer, and their
checks bound that length only from below.
-/

namespace Spaceless
namespace Crypto

open Logic

/-- The bytes of an object.  No object is larger than `PTRDIFF_MAX`. -/
structure Sequence where
  data : List UInt8
  small : data.length < 9223372036854775808

/-- `ERR_CRYPTO_CIPHER_SPACE_NOT_ENOUGH`, or a block is read outside the
plain text, or a character outside a string. -/
inductive EncryptFault
  | cipherSpaceNotEnough
  | outside
  deriving DecidableEq

/-- The loop of both functions: each block of the source goes to the same
place of the target, as long as it ends within the bound. -/
def processBlocks {ε : Type} (outside : ε)
    (process : List UInt8 → List UInt8) (source : List UInt8) (bound i : Nat)
    (target : List UInt8) : Except ε (List UInt8) :=
  if i + aesBlockSize ≤ bound then
    if source.length < i + aesBlockSize then .error outside
    else
      processBlocks outside process source bound (i + aesBlockSize)
        (Content.writeAt 0 target i
          (process (Content.readAt source i aesBlockSize)))
  else .ok target
  termination_by bound - i
  decreasing_by
    unfold aesBlockSize at *
    omega

/-- The bytes behind the last whole block, filled with null bytes. -/
def lastBlock (plain : List UInt8) : List UInt8 :=
  let overLength := plain.length % aesBlockSize
  plain.drop (plain.length - overLength) ++
    List.replicate (aesBlockSize - overLength) 0

/-- `aes_encrypt` into the buffer `cipher`, which it returns as it is
afterwards. -/
def aesEncryptSequence (encryptor : AesBlockEncryptor)
    (plain cipher : List UInt8) : Except EncryptFault (List UInt8) := do
  let overLength := plain.length % aesBlockSize
  if cipher.length < aesCipherLength plain.length then
    .error .cipherSpaceNotEnough
  else
    let written ← processBlocks .outside encryptor.encrypt plain
      (cipher.length - overLength) 0 cipher
    if overLength = 0 then .ok written
    else
      .ok (Content.writeAt 0 written (cipher.length - aesBlockSize)
        (encryptor.encrypt (lastBlock plain)))

/-- `aes_decrypt` into the buffer `plain`, which it returns as it is
afterwards. -/
def aesDecryptSequence (decryptor : AesBlockDecryptor)
    (cipher plain : List UInt8) : Except DecryptFault (List UInt8) :=
  if plain.length < cipher.length then .error .plainSpaceNotEnough
  else
    processBlocks .outside decryptor.decrypt cipher plain.length 0 plain

/-- Each block by itself. -/
def blockwise (process : List UInt8 → List UInt8) (data : List UInt8) :
    List UInt8 :=
  Content.mapChunks process data aesBlockSize (data.length / aesBlockSize)

/-- The plain text with zero bytes up to the length of its cipher text. -/
def padded (plain : List UInt8) : List UInt8 :=
  plain ++ List.replicate (aesCipherLength plain.length - plain.length) 0

section Loop

variable {ε : Type} {outside : ε} {process : List UInt8 → List UInt8}
variable {source target : List UInt8} {bound i : Nat}

/-- One round of the loop. -/
theorem processBlocks_step (more : i + aesBlockSize ≤ bound)
    (inside : i + aesBlockSize ≤ source.length) :
    processBlocks outside process source bound i target =
      processBlocks outside process source bound (i + aesBlockSize)
        (Content.writeAt 0 target i
          (process (Content.readAt source i aesBlockSize))) := by
  rw [processBlocks, if_pos more, if_neg (Nat.not_lt.mpr inside)]

/-- The loop over the blocks that are left and inside the source. -/
theorem processBlocks_eq_ok
    (keeps : ∀ block, block.length = aesBlockSize →
      (process block).length = aesBlockSize)
    {blocks : Nat} (left : (bound - i) / aesBlockSize = blocks)
    (inside : i + blocks * aesBlockSize ≤ source.length)
    (room : i + blocks * aesBlockSize ≤ target.length) :
    processBlocks outside process source bound i target =
      .ok (target.take i ++
        (Content.mapChunks process (source.drop i) aesBlockSize blocks ++
          target.drop (i + blocks * aesBlockSize))) := by
  induction blocks generalizing i target with
  | zero =>
      have done : ¬ i + aesBlockSize ≤ bound := by
        unfold aesBlockSize at *
        omega
      rw [processBlocks, if_neg done, Content.mapChunks_zero,
        List.nil_append, Nat.zero_mul, Nat.add_zero, List.take_append_drop]
  | succ blocks inductionHypothesis =>
      have next : i + (blocks + 1) * aesBlockSize =
          i + aesBlockSize + blocks * aesBlockSize := by
        rw [Nat.succ_mul]
        omega
      rw [next] at inside room ⊢
      have more : i + aesBlockSize ≤ bound := by
        unfold aesBlockSize at *
        omega
      have rest : (bound - (i + aesBlockSize)) / aesBlockSize = blocks := by
        unfold aesBlockSize at *
        omega
      have size : (process (Content.readAt source i aesBlockSize)).length =
          aesBlockSize := by
        apply keeps
        rw [Content.length_readAt]
        omega
      have before : (target.take i ++
          process (Content.readAt source i aesBlockSize)).length =
            i + aesBlockSize := by
        rw [List.length_append, size, List.length_take]
        omega
      have behind : (target.take i ++
          process (Content.readAt source i aesBlockSize) ++
            target.drop (i + aesBlockSize)).drop
              (i + aesBlockSize + blocks * aesBlockSize) =
            target.drop (i + aesBlockSize + blocks * aesBlockSize) := by
        rw [← List.drop_drop, List.drop_left' before, List.drop_drop]
      rw [processBlocks_step more (by omega),
        Content.writeAt_of_le 0 _ (by omega), size, ← List.append_assoc,
        inductionHypothesis rest inside (by
          rw [List.length_append, before, List.length_drop]
          omega),
        List.take_left' before, behind, Content.mapChunks_succ,
        List.drop_drop]
      simp only [List.append_assoc]
      rfl

/-- The loop reaches a block that is not inside the source. -/
theorem processBlocks_eq_error {blocks : Nat}
    (left : (bound - i) / aesBlockSize = blocks)
    (before : i ≤ source.length)
    (beyond : source.length < i + blocks * aesBlockSize) :
    processBlocks outside process source bound i target =
      .error outside := by
  induction blocks generalizing i target with
  | zero => omega
  | succ blocks inductionHypothesis =>
      rw [Nat.succ_mul] at beyond
      have more : i + aesBlockSize ≤ bound := by
        unfold aesBlockSize at *
        omega
      have rest : (bound - (i + aesBlockSize)) / aesBlockSize = blocks := by
        unfold aesBlockSize at *
        omega
      by_cases inside : i + aesBlockSize ≤ source.length
      · rw [processBlocks_step more inside]
        exact inductionHypothesis rest inside (by omega)
      · rw [processBlocks, if_pos more, if_pos (Nat.not_le.mp inside)]

/-- The whole loop. -/
theorem processBlocks_zero
    (keeps : ∀ block, block.length = aesBlockSize →
      (process block).length = aesBlockSize)
    (room : bound ≤ target.length) :
    processBlocks outside process source bound 0 target =
      if bound / aesBlockSize * aesBlockSize ≤ source.length then
        .ok (Content.mapChunks process source aesBlockSize
            (bound / aesBlockSize) ++
          target.drop (bound / aesBlockSize * aesBlockSize))
      else .error outside := by
  have blocks : (bound - 0) / aesBlockSize = bound / aesBlockSize := rfl
  have within := Nat.div_mul_le_self bound aesBlockSize
  split
  case isTrue inside =>
    rw [processBlocks_eq_ok keeps blocks (by omega) (by omega),
      List.take_zero, List.nil_append, List.drop_zero, Nat.zero_add]
  case isFalse beyond =>
    exact processBlocks_eq_error blocks (Nat.zero_le _) (by omega)

end Loop

/-- The length of the cipher text of an object. -/
theorem Sequence.cipherLength (plain : Sequence) :
    aesCipherLength plain.data.length % aesBlockSize = 0 ∧
      plain.data.length ≤ aesCipherLength plain.data.length ∧
      aesCipherLength plain.data.length <
        plain.data.length + aesBlockSize := by
  have small := plain.small
  exact aesCipherLength_of_le (by omega)

/-- Padding reaches the length of the cipher text. -/
theorem Sequence.length_padded (plain : Sequence) :
    (padded plain.data).length = aesCipherLength plain.data.length := by
  have cipher := plain.cipherLength
  rw [padded, List.length_append, List.length_replicate]
  omega

theorem Sequence.padded_of_dvd (plain : Sequence)
    (blocks : plain.data.length % aesBlockSize = 0) :
    padded plain.data = plain.data := by
  have cipher := plain.cipherLength
  have same : aesCipherLength plain.data.length - plain.data.length = 0 := by
    unfold aesBlockSize at *
    omega
  rw [padded, same, List.replicate_zero, List.append_nil]

/-- The last block, which `aes_encrypt` pads itself. -/
theorem Sequence.chunk_padded (plain : Sequence)
    (part : plain.data.length % aesBlockSize ≠ 0) :
    Content.chunk (padded plain.data) aesBlockSize
        (plain.data.length / aesBlockSize) =
      lastBlock plain.data := by
  have cipher := plain.cipherLength
  have whole : plain.data.length / aesBlockSize * aesBlockSize =
      plain.data.length - plain.data.length % aesBlockSize := by
    unfold aesBlockSize
    omega
  have pad : aesCipherLength plain.data.length - plain.data.length =
      aesBlockSize - plain.data.length % aesBlockSize := by
    unfold aesBlockSize at *
    omega
  rw [Content.chunk, whole, padded, pad, Content.readAt,
    List.drop_append_of_le_length (Nat.sub_le _ _), List.take_of_length_le]
  · rfl
  · rw [List.length_append, List.length_drop, List.length_replicate]
    unfold aesBlockSize at *
    omega

/-- The blocks of a padded plain text that ends inside a block. -/
theorem Sequence.blockwise_padded (plain : Sequence)
    (process : List UInt8 → List UInt8)
    (part : plain.data.length % aesBlockSize ≠ 0) :
    blockwise process (padded plain.data) =
      Content.mapChunks process plain.data aesBlockSize
          (plain.data.length / aesBlockSize) ++
        process (lastBlock plain.data) := by
  have cipher := plain.cipherLength
  have count : aesCipherLength plain.data.length / aesBlockSize =
      plain.data.length / aesBlockSize + 1 := by
    unfold aesBlockSize at *
    omega
  rw [blockwise, plain.length_padded, count, Content.mapChunks_concat,
    plain.chunk_padded part, padded,
    Content.mapChunks_append (Nat.div_mul_le_self _ _)]

/-- The cipher text has the length that `aes_cipher_length` tells. -/
theorem Sequence.length_blockwise (plain : Sequence)
    (encryptor : AesBlockEncryptor) :
    (blockwise encryptor.encrypt (padded plain.data)).length =
      aesCipherLength plain.data.length := by
  have cipher := plain.cipherLength
  rw [blockwise, Content.length_mapChunks encryptor.length_encrypt
    (Nat.div_mul_le_self _ _), plain.length_padded]
  unfold aesBlockSize at *
  omega

/-- A call of `aes_encrypt` that passes its check. -/
structure EncryptCall where
  plain : Sequence
  /-- The length of the buffer, whatever it holds. -/
  cipherLength : Nat
  enough : aesCipherLength plain.data.length ≤ cipherLength

namespace EncryptCall

/-- Nothing outside the plain text is read, and the buffer begins with the
cipher text of the padded plain text. -/
def Encrypts (encryptor : AesBlockEncryptor) (call : EncryptCall) : Prop :=
  ∀ cipher : List UInt8, cipher.length = call.cipherLength →
    ∃ written,
      aesEncryptSequence encryptor call.plain.data cipher = .ok written ∧
      written.take (aesCipherLength call.plain.data.length) =
        blockwise encryptor.encrypt (padded call.plain.data)

/-- The buffer has no room for one more block; behind a plain text that ends
inside a block it has no room at all. -/
def Fits (call : EncryptCall) : Prop :=
  if call.plain.data.length % aesBlockSize = 0 then
    call.cipherLength < call.plain.data.length + aesBlockSize
  else call.cipherLength = aesCipherLength call.plain.data.length

instance (call : EncryptCall) : Decidable call.Fits := by
  unfold Fits
  infer_instance

variable {encryptor : AesBlockEncryptor} {call : EncryptCall}

/-- The loop runs over the blocks before the last partial one. -/
theorem aesEncryptSequence_eq {cipher : List UInt8}
    (length : cipher.length = call.cipherLength) :
    aesEncryptSequence encryptor call.plain.data cipher =
      (processBlocks .outside encryptor.encrypt call.plain.data
        (call.cipherLength - call.plain.data.length % aesBlockSize) 0
        cipher).bind fun written =>
          if call.plain.data.length % aesBlockSize = 0 then .ok written
          else
            .ok (Content.writeAt 0 written (call.cipherLength - aesBlockSize)
              (encryptor.encrypt (lastBlock call.plain.data))) := by
  have enough := call.enough
  unfold aesEncryptSequence
  rw [length, if_neg (Nat.not_lt.mpr enough)]
  rfl

/-- Whole blocks and no room for another one. -/
theorem aesEncryptSequence_of_dvd
    (blocks : call.plain.data.length % aesBlockSize = 0)
    (fits : call.cipherLength < call.plain.data.length + aesBlockSize)
    {cipher : List UInt8} (length : cipher.length = call.cipherLength) :
    aesEncryptSequence encryptor call.plain.data cipher =
      .ok (blockwise encryptor.encrypt (padded call.plain.data) ++
        cipher.drop (aesCipherLength call.plain.data.length)) := by
  have same : aesCipherLength call.plain.data.length =
      call.plain.data.length := by
    have bounds := call.plain.cipherLength
    unfold aesBlockSize at *
    omega
  have enough := call.enough
  rw [same] at enough
  have count : call.cipherLength / aesBlockSize =
      call.plain.data.length / aesBlockSize := by
    unfold aesBlockSize at *
    omega
  have whole : call.plain.data.length / aesBlockSize * aesBlockSize =
      call.plain.data.length := by
    unfold aesBlockSize at *
    omega
  rw [aesEncryptSequence_eq length, blocks, Nat.sub_zero,
    processBlocks_zero encryptor.length_encrypt (by omega), count, whole,
    if_pos (Nat.le_refl _), same, call.plain.padded_of_dvd blocks]
  rfl

/-- A last partial block and no room behind it. -/
theorem aesEncryptSequence_of_part
    (part : call.plain.data.length % aesBlockSize ≠ 0)
    (fits : call.cipherLength = aesCipherLength call.plain.data.length)
    {cipher : List UInt8} (length : cipher.length = call.cipherLength) :
    aesEncryptSequence encryptor call.plain.data cipher =
      .ok (blockwise encryptor.encrypt (padded call.plain.data) ++
        cipher.drop (aesCipherLength call.plain.data.length)) := by
  have bounds := call.plain.cipherLength
  have count : (call.cipherLength -
      call.plain.data.length % aesBlockSize) / aesBlockSize =
        call.plain.data.length / aesBlockSize := by
    unfold aesBlockSize at *
    omega
  have whole : call.plain.data.length / aesBlockSize * aesBlockSize ≤
      call.plain.data.length := Nat.div_mul_le_self _ _
  have last : call.cipherLength - aesBlockSize =
      call.plain.data.length / aesBlockSize * aesBlockSize := by
    unfold aesBlockSize at *
    omega
  have size := Content.length_mapChunks encryptor.length_encrypt whole
  have block : (encryptor.encrypt (lastBlock call.plain.data)).length =
      aesBlockSize := by
    apply encryptor.length_encrypt
    unfold lastBlock
    rw [List.length_append, List.length_drop, List.length_replicate]
    unfold aesBlockSize at *
    omega
  have behind : call.plain.data.length / aesBlockSize * aesBlockSize +
      aesBlockSize = aesCipherLength call.plain.data.length := by
    unfold aesBlockSize at *
    omega
  rw [aesEncryptSequence_eq length,
    processBlocks_zero encryptor.length_encrypt (by omega), count,
    if_pos whole, Except.bind, if_neg part, last, ← size,
    Content.writeAt_append, size, block, List.drop_drop, behind,
    call.plain.blockwise_padded _ part]

/-- A buffer of the right length takes the cipher text. -/
theorem aesEncryptSequence_of_fits (fits : call.Fits)
    {cipher : List UInt8} (length : cipher.length = call.cipherLength) :
    aesEncryptSequence encryptor call.plain.data cipher =
      .ok (blockwise encryptor.encrypt (padded call.plain.data) ++
        cipher.drop (aesCipherLength call.plain.data.length)) := by
  unfold Fits at fits
  split at fits
  case isTrue blocks => exact aesEncryptSequence_of_dvd blocks fits length
  case isFalse part => exact aesEncryptSequence_of_part part fits length

/-- The loop goes on behind the plain text. -/
theorem not_encrypts_of_lt
    (beyond : call.plain.data.length <
      (call.cipherLength - call.plain.data.length % aesBlockSize) /
        aesBlockSize * aesBlockSize) :
    ¬ call.Encrypts encryptor := by
  intro encrypts
  obtain ⟨written, result, -⟩ := encrypts
    (List.replicate call.cipherLength 0) List.length_replicate
  rw [aesEncryptSequence_eq List.length_replicate,
    processBlocks_zero encryptor.length_encrypt
      (by rw [List.length_replicate]; exact Nat.sub_le _ _),
    if_neg (Nat.not_le.mpr beyond)] at result
  cases result

/-- In a longer buffer the last block is written behind its place, where the
buffer stays as it was. -/
theorem getElem?_of_shift
    (part : call.plain.data.length % aesBlockSize ≠ 0)
    (longer : aesCipherLength call.plain.data.length < call.cipherLength)
    (within : (call.cipherLength -
      call.plain.data.length % aesBlockSize) / aesBlockSize *
        aesBlockSize ≤ call.plain.data.length)
    {cipher written : List UInt8}
    (length : cipher.length = call.cipherLength)
    (result : aesEncryptSequence encryptor call.plain.data cipher =
      .ok written) :
    written[call.plain.data.length / aesBlockSize * aesBlockSize]? =
      cipher[call.plain.data.length / aesBlockSize * aesBlockSize]? := by
  have bounds := call.plain.cipherLength
  have count : (call.cipherLength -
      call.plain.data.length % aesBlockSize) / aesBlockSize =
        call.plain.data.length / aesBlockSize := by
    unfold aesBlockSize at *
    omega
  rw [count] at within
  have before : call.plain.data.length / aesBlockSize * aesBlockSize <
      call.cipherLength - aesBlockSize := by
    unfold aesBlockSize at *
    omega
  have size := Content.length_mapChunks encryptor.length_encrypt within
  rw [aesEncryptSequence_eq length,
    processBlocks_zero encryptor.length_encrypt (by omega), count,
    if_pos within, Except.bind, if_neg part] at result
  cases result
  rw [Content.writeAt_before before (by
      rw [List.length_append, size, List.length_drop]
      omega),
    List.getElem?_append_right (Nat.le_of_eq size), size, Nat.sub_self,
    List.getElem?_drop, Nat.add_zero]

/-- No buffer that is longer holds a last partial block at its place. -/
theorem not_encrypts_of_shift
    (part : call.plain.data.length % aesBlockSize ≠ 0)
    (longer : aesCipherLength call.plain.data.length < call.cipherLength)
    (within : (call.cipherLength -
      call.plain.data.length % aesBlockSize) / aesBlockSize *
        aesBlockSize ≤ call.plain.data.length) :
    ¬ call.Encrypts encryptor := by
  intro encrypts
  have bounds := call.plain.cipherLength
  have before : call.plain.data.length / aesBlockSize * aesBlockSize <
      aesCipherLength call.plain.data.length := by
    unfold aesBlockSize at *
    omega
  have size := call.plain.length_blockwise encryptor
  generalize place :
    call.plain.data.length / aesBlockSize * aesBlockSize = index at before
  have inside : index < (blockwise encryptor.encrypt
      (padded call.plain.data)).length := by
    rw [size]
    exact before
  -- The buffer holds another byte than the one that belongs there.
  have expected := List.getElem?_eq_getElem inside
  generalize (blockwise encryptor.encrypt
    (padded call.plain.data))[index] = byte at expected
  obtain ⟨written, result, begins⟩ := encrypts
    (List.replicate call.cipherLength (byte + 1)) List.length_replicate
  have kept := getElem?_of_shift part longer within List.length_replicate
    result
  rw [place, List.getElem?_replicate, if_pos (by omega)] at kept
  rw [← begins, List.getElem?_take_of_lt before, kept] at expected
  have same : byte + 1 = byte := Option.some.inj expected
  simp at same

/-- Exactly the calls with a buffer of the right length are correct. -/
theorem encrypts_iff : call.Encrypts encryptor ↔ call.Fits := by
  have enough := call.enough
  have bounds := call.plain.cipherLength
  constructor
  · intro encrypts
    unfold Fits
    split
    case isTrue blocks =>
      by_contra longer
      apply not_encrypts_of_lt _ encrypts
      rw [blocks]
      unfold aesBlockSize at *
      omega
    case isFalse part =>
      by_contra other
      by_cases within : (call.cipherLength -
          call.plain.data.length % aesBlockSize) / aesBlockSize *
            aesBlockSize ≤ call.plain.data.length
      · exact not_encrypts_of_shift part (by omega) within encrypts
      · exact not_encrypts_of_lt (Nat.not_le.mp within) encrypts
  · intro fits cipher length
    apply Exists.intro
    constructor
    · exact aesEncryptSequence_of_fits fits length
    · apply List.take_left'
      exact call.plain.length_blockwise encryptor

end EncryptCall

/-- A call of `aes_decrypt` of whole blocks that passes its check. -/
structure DecryptCall where
  cipher : Sequence
  blocks : cipher.data.length % aesBlockSize = 0
  /-- The length of the buffer, whatever it holds. -/
  plainLength : Nat
  enough : cipher.data.length ≤ plainLength

namespace DecryptCall

/-- Nothing outside the cipher text is read, and the buffer begins with the
plain text. -/
def Decrypts (decryptor : AesBlockDecryptor) (call : DecryptCall) : Prop :=
  ∀ plain : List UInt8, plain.length = call.plainLength →
    ∃ written,
      aesDecryptSequence decryptor call.cipher.data plain = .ok written ∧
      written.take call.cipher.data.length =
        blockwise decryptor.decrypt call.cipher.data

/-- The buffer has no room for one more block. -/
def Fits (call : DecryptCall) : Prop :=
  call.plainLength < call.cipher.data.length + aesBlockSize

instance (call : DecryptCall) : Decidable call.Fits :=
  inferInstanceAs (Decidable (_ < _))

variable {decryptor : AesBlockDecryptor} {call : DecryptCall}

theorem whole (call : DecryptCall) :
    call.cipher.data.length / aesBlockSize * aesBlockSize =
      call.cipher.data.length := by
  have blocks := call.blocks
  unfold aesBlockSize at *
  omega

/-- The loop runs over the blocks of the buffer. -/
theorem aesDecryptSequence_eq {plain : List UInt8}
    (length : plain.length = call.plainLength) :
    aesDecryptSequence decryptor call.cipher.data plain =
      if call.plainLength / aesBlockSize * aesBlockSize ≤
          call.cipher.data.length then
        .ok (Content.mapChunks decryptor.decrypt call.cipher.data
            aesBlockSize (call.plainLength / aesBlockSize) ++
          plain.drop (call.plainLength / aesBlockSize * aesBlockSize))
      else .error .outside := by
  have enough := call.enough
  unfold aesDecryptSequence
  rw [length, if_neg (Nat.not_lt.mpr enough),
    processBlocks_zero decryptor.length_decrypt (Nat.le_of_eq length.symm)]

/-- A buffer without room for another block takes the plain text. -/
theorem aesDecryptSequence_of_fits (fits : call.Fits) {plain : List UInt8}
    (length : plain.length = call.plainLength) :
    aesDecryptSequence decryptor call.cipher.data plain =
      .ok (blockwise decryptor.decrypt call.cipher.data ++
        plain.drop call.cipher.data.length) := by
  have blocks := call.blocks
  have enough := call.enough
  have count : call.plainLength / aesBlockSize =
      call.cipher.data.length / aesBlockSize := by
    unfold Fits at fits
    unfold aesBlockSize at *
    omega
  rw [aesDecryptSequence_eq length, count, call.whole,
    if_pos (Nat.le_refl _)]
  rfl

/-- Exactly the calls with a buffer of the right length are correct. -/
theorem decrypts_iff : call.Decrypts decryptor ↔ call.Fits := by
  have enough := call.enough
  constructor
  · intro decrypts
    obtain ⟨written, result, -⟩ := decrypts
      (List.replicate call.plainLength 0) List.length_replicate
    rw [aesDecryptSequence_eq List.length_replicate] at result
    split at result
    case isTrue inside =>
      unfold Fits
      unfold aesBlockSize at *
      omega
    case isFalse beyond => cases result
  · intro fits plain length
    apply Exists.intro
    constructor
    · exact aesDecryptSequence_of_fits fits length
    · apply List.take_left'
      rw [blockwise, Content.length_mapChunks decryptor.length_decrypt
        (Nat.le_of_eq call.whole), call.whole]

end DecryptCall

/-- Both functions between buffers, exactly. -/
theorem calls_iff (encryptor : AesBlockEncryptor)
    (decryptor : AesBlockDecryptor) (encrypt : EncryptCall)
    (decrypt : DecryptCall) :
    (encrypt.Encrypts encryptor ↔ encrypt.Fits) ∧
      (decrypt.Decrypts decryptor ↔ decrypt.Fits) :=
  ⟨EncryptCall.encrypts_iff, DecryptCall.decrypts_iff⟩

/-- One byte and a buffer of two blocks: the loop reads a block behind the
plain text. -/
theorem not_calls_always :
    ¬ ∃ encryptor : AesBlockEncryptor,
      EncryptCall.Encrypts encryptor
        ⟨⟨[1], by decide⟩, 32, by decide⟩ := by
  rintro ⟨encryptor, encrypts⟩
  obtain ⟨written, result, -⟩ := encrypts (List.replicate 32 0) rfl
  unfold aesEncryptSequence processBlocks at result
  cases result

/-- The same with a cipher text of one block. -/
theorem not_decrypts_twoBlocks :
    ¬ ∃ decryptor : AesBlockDecryptor,
      DecryptCall.Decrypts decryptor
        ⟨⟨List.replicate 16 0, by decide⟩, rfl, 32, by decide⟩ := by
  rintro ⟨decryptor, decrypts⟩
  have fits := DecryptCall.decrypts_iff.mp decrypts
  revert fits
  decide

end Crypto
end Spaceless
