import Spaceless.Crypto.AesString

/-!
# AES of streams

The stream versions of `aes_encrypt` and `aes_decrypt` read one block after
another into the same memory until the stream fails.  Decryption is one block
behind: a block is written when the next one was read, because only the last
one is shrunk.
-/

namespace Spaceless
namespace Crypto

open Logic

/-- An `istream`: the characters not read yet, whether it is neither at its
end nor failed, and the count of the last read. -/
structure InputStream where
  data : List UInt8
  good : Bool
  gcount : Nat

/-- A stream before its first read. -/
def InputStream.start (data : List UInt8) : InputStream := ⟨data, true, 0⟩

/-- `istream::read` of a block over the memory that holds `block`. -/
def InputStream.read (stream : InputStream) (block : List UInt8) :
    InputStream × List UInt8 :=
  if stream.good then
    let got := stream.data.take aesBlockSize
    (⟨stream.data.drop aesBlockSize, got.length = aesBlockSize, got.length⟩,
      got ++ block.drop got.length)
  else ({ stream with gcount := 0 }, block)

theorem InputStream.length_read {stream : InputStream}
    {block : List UInt8} (good : (stream.read block).1.good) :
    (stream.read block).1.data.length < stream.data.length := by
  unfold InputStream.read at good ⊢
  split at good
  case isTrue before =>
    have full : (stream.data.take aesBlockSize).length = aesBlockSize :=
      of_decide_eq_true good
    rw [List.length_take] at full
    rw [if_pos before, List.length_drop]
    unfold aesBlockSize at *
    omega
  case isFalse before => exact absurd good before

/-- The loop of `aes_encrypt`; `out` is what was written so far. -/
def encryptLoop (encryptor : AesBlockEncryptor) (stream : InputStream)
    (plain out : List UInt8) : List UInt8 :=
  let next := (stream.read plain).1
  let block := (stream.read plain).2
  let filled :=
    if next.gcount < aesBlockSize then
      block.take next.gcount ++
        List.replicate (aesBlockSize - next.gcount) 0
    else block
  let plain' := if 0 < next.gcount then filled else block
  let out' := if 0 < next.gcount then out ++ encryptor.encrypt filled else out
  if (stream.read plain).1.good then encryptLoop encryptor next plain' out'
  else out'
  termination_by stream.data.length
  decreasing_by exact InputStream.length_read ‹_›

/-- `aes_encrypt` of a stream.  The block is not initialized. -/
def aesEncryptStream (encryptor : AesBlockEncryptor) (stream : InputStream)
    (garbage : List UInt8) : List UInt8 :=
  encryptLoop encryptor stream garbage []

/-- The loop from the end of the block: `real_len` when it stops. -/
def realLength (plain : List UInt8) : Nat → Nat
  | 0 => 0
  | length + 1 =>
      if plain[length]? ≠ some 0 then length + 1 else realLength plain length

/-- What is written of the last block. -/
def shrunk (shrink : Bool) (plain : List UInt8) : List UInt8 :=
  plain.take (if shrink then realLength plain aesBlockSize else aesBlockSize)

/-- `ERR_CRYPTO_INCOMPLETE_DATA` -/
inductive StreamFault
  | incompleteData
  deriving DecidableEq

/-- The loop of `aes_decrypt`; `out` is what was written so far. -/
def decryptLoop (decryptor : AesBlockDecryptor) (shrink : Bool)
    (stream : InputStream) (cipher plain : List UInt8)
    (previousGcount : Nat) (out : List UInt8) :
    Except StreamFault (List UInt8) :=
  let next := (stream.read cipher).1
  let cipher' := (stream.read cipher).2
  let out' :=
    if 0 < previousGcount then
      if next.good then out ++ plain else out ++ shrunk shrink plain
    else out
  if 0 < next.gcount ∧ next.gcount < aesBlockSize then
    .error .incompleteData
  else
    let plain' := if 0 < next.gcount then decryptor.decrypt cipher' else plain
    if (stream.read cipher).1.good then
      decryptLoop decryptor shrink next cipher' plain' next.gcount out'
    else .ok out'
  termination_by stream.data.length
  decreasing_by exact InputStream.length_read ‹_›

/-- `aes_decrypt` of a stream.  Neither block is initialized. -/
def aesDecryptStream (decryptor : AesBlockDecryptor) (shrink : Bool)
    (stream : InputStream) (cipherGarbage plainGarbage : List UInt8) :
    Except StreamFault (List UInt8) :=
  decryptLoop decryptor shrink stream cipherGarbage plainGarbage 0 []

section Read

variable {data block : List UInt8} {gcount : Nat}

/-- A whole block is read. -/
theorem InputStream.read_of_le (enough : aesBlockSize ≤ data.length)
    (size : block.length = aesBlockSize) :
    InputStream.read ⟨data, true, gcount⟩ block =
      (⟨data.drop aesBlockSize, true, aesBlockSize⟩,
        data.take aesBlockSize) := by
  have length : (data.take aesBlockSize).length = aesBlockSize := by
    rw [List.length_take, Nat.min_eq_left enough]
  unfold InputStream.read
  rw [if_pos rfl]
  dsimp only
  rw [length, ← size, List.drop_length, List.append_nil]
  simp

/-- The data ends inside the block. -/
theorem InputStream.read_of_lt (less : data.length < aesBlockSize) :
    InputStream.read ⟨data, true, gcount⟩ block =
      (⟨[], false, data.length⟩, data ++ block.drop data.length) := by
  unfold InputStream.read
  rw [if_pos rfl]
  dsimp only
  rw [List.take_of_length_le (Nat.le_of_lt less),
    List.drop_of_length_le (Nat.le_of_lt less),
    decide_eq_false (Nat.ne_of_lt less)]

end Read

section Blocks

variable {process : List UInt8 → List UInt8}

/-- The first block by itself. -/
theorem blockwise_append {first : List UInt8}
    (size : first.length = aesBlockSize) (rest : List UInt8) :
    blockwise process (first ++ rest) =
      process first ++ blockwise process rest := by
  have count : (first ++ rest).length / aesBlockSize =
      rest.length / aesBlockSize + 1 := by
    rw [List.length_append]
    unfold aesBlockSize at *
    omega
  rw [blockwise, count, Content.mapChunks_succ, List.take_left' size,
    List.drop_left' size, blockwise]

/-- Padding only touches the end. -/
theorem Sequence.padded_of_le (plain : Sequence)
    (enough : aesBlockSize ≤ plain.data.length) :
    padded plain.data =
      plain.data.take aesBlockSize ++
        padded (plain.data.drop aesBlockSize) := by
  have small := plain.small
  have whole := plain.cipherLength
  have rest := @aesCipherLength_of_le (plain.data.length - aesBlockSize)
    (by omega)
  have pad : aesCipherLength plain.data.length - plain.data.length =
      aesCipherLength (plain.data.length - aesBlockSize) -
        (plain.data.length - aesBlockSize) := by
    unfold aesBlockSize at *
    omega
  rw [padded, padded, List.length_drop, ← pad, ← List.append_assoc,
    List.take_append_drop]

/-- Less than a block is padded to one. -/
theorem padded_of_lt {plain : List UInt8} (nonempty : 0 < plain.length)
    (less : plain.length < aesBlockSize) :
    padded plain =
      plain ++ List.replicate (aesBlockSize - plain.length) 0 := by
  have bounds := @aesCipherLength_of_le plain.length
    (by unfold aesBlockSize at less; omega)
  have cipher : aesCipherLength plain.length = aesBlockSize := by
    unfold aesBlockSize at *
    omega
  rw [padded, cipher]

end Blocks

/-- The loop of `aes_encrypt` writes the padded blocks of what is left. -/
theorem encryptLoop_eq (encryptor : AesBlockEncryptor) (plain : Sequence)
    {block : List UInt8} (size : block.length = aesBlockSize) (gcount : Nat)
    (out : List UInt8) :
    encryptLoop encryptor ⟨plain.data, true, gcount⟩ block out =
      out ++ blockwise encryptor.encrypt (padded plain.data) := by
  induction length : plain.data.length using Nat.strong_induction_on
    generalizing plain block gcount out with
  | _ length inductionHypothesis =>
      subst length
      by_cases enough : aesBlockSize ≤ plain.data.length
      · let rest : Sequence := ⟨plain.data.drop aesBlockSize, by
          have small := plain.small
          rw [List.length_drop]
          omega⟩
        have first : (plain.data.take aesBlockSize).length =
            aesBlockSize := by
          rw [List.length_take, Nat.min_eq_left enough]
        have shorter : rest.data.length < plain.data.length := by
          rw [List.length_drop]
          unfold aesBlockSize at *
          omega
        have later := inductionHypothesis _ shorter rest first aesBlockSize
          (out ++ encryptor.encrypt (plain.data.take aesBlockSize)) rfl
        rw [encryptLoop, InputStream.read_of_le enough size]
        dsimp only
        rw [if_neg (Nat.lt_irrefl _), if_pos rfl, if_pos (by decide),
          if_pos (by decide), later, plain.padded_of_le enough,
          blockwise_append first, List.append_assoc]
      · have less := Nat.not_le.mp enough
        rw [encryptLoop, InputStream.read_of_lt less]
        dsimp only
        rw [if_neg Bool.false_ne_true, if_pos less, List.take_left]
        by_cases nonempty : 0 < plain.data.length
        · have block : (plain.data ++ List.replicate
              (aesBlockSize - plain.data.length) 0).length =
                aesBlockSize := by
            rw [List.length_append, List.length_replicate]
            omega
          have alone := @blockwise_append encryptor.encrypt _ block []
          rw [List.append_nil] at alone
          rw [if_pos nonempty, padded_of_lt nonempty less, alone]
          exact congrArg _ (List.append_nil _).symm
        · have empty : plain.data = [] :=
            List.eq_nil_of_length_eq_zero (Nat.eq_zero_of_not_pos nonempty)
          rw [if_neg nonempty, empty]
          exact (List.append_nil _).symm

/-- The loop from the end of the block passes the null bytes. -/
theorem realLength_eq {kept : List UInt8} (trimmed : Trimmed kept)
    {count passed : Nat} (within : passed ≤ count) :
    realLength (kept ++ List.replicate count 0) (kept.length + passed) =
      kept.length := by
  induction passed with
  | zero =>
      cases kept using List.reverseRecOn with
      | nil => rfl
      | append_singleton front byte =>
          have last : byte ≠ 0 :=
            trimmed byte List.getLast?_concat
          have found : (front ++ [byte] ++ List.replicate count 0)[
              front.length]? = some byte := by
            rw [List.append_assoc, List.getElem?_append_right
              (Nat.le_refl _), Nat.sub_self]
            rfl
          rw [List.length_append, List.length_singleton, Nat.add_zero,
            realLength, found, if_pos]
          intro null
          exact last (Option.some.inj null)
  | succ passed inductionHypothesis =>
      have null : (kept ++ List.replicate count (0 : UInt8))[
          kept.length + passed]? = some 0 := by
        rw [List.getElem?_append_right (Nat.le_add_right _ _),
          Nat.add_sub_cancel_left, List.getElem?_replicate,
          if_pos (Nat.lt_of_succ_le within)]
      rw [← Nat.add_assoc, realLength, null, if_neg (not_not_intro rfl)]
      exact inductionHypothesis (Nat.le_of_succ_le within)

/-- A shrunk block is the block without its null bytes at the end. -/
theorem shrunk_true {kept : List UInt8} {count : Nat}
    (trimmed : Trimmed kept)
    (size : (kept ++ List.replicate count 0).length = aesBlockSize) :
    shrunk true (kept ++ List.replicate count 0) = kept := by
  rw [List.length_append, List.length_replicate] at size
  have real := realLength_eq trimmed (Nat.le_refl count)
  rw [size] at real
  rw [shrunk, if_pos rfl, real, List.take_left]

theorem shrunk_false {last : List UInt8}
    (size : last.length = aesBlockSize) : shrunk false last = last := by
  rw [shrunk, if_neg Bool.false_ne_true, ← size, List.take_length]

/-- The string version shrinks the last block as the stream version does. -/
theorem aesDecryptString_of_last (decryptor : AesBlockDecryptor)
    (shrink : Bool) {cipher front last : List UInt8}
    (positive : 0 < cipher.length)
    (blocks : cipher.length % aesBlockSize = 0)
    (plain : blockwise decryptor.decrypt cipher = front ++ last)
    (size : last.length = aesBlockSize) :
    aesDecryptString decryptor cipher shrink =
      .ok (front ++ shrunk shrink last) := by
  cases shrink with
  | false =>
      unfold aesDecryptString
      rw [sequenceOf_replicate _ positive]
      dsimp only [bind, Except.bind]
      rw [aesDecryptSequence_replicate decryptor blocks, plain,
        shrunk_false size]
      rfl
  | true =>
      obtain ⟨kept, count, rfl, trimmed⟩ := exists_trimmed last
      have total := size
      rw [List.length_append, List.length_replicate] at total
      rw [shrunk_true trimmed size]
      refine @aesDecryptString_eq decryptor cipher positive blocks
        (front ++ kept) count ?_ ?_ ?_
      · omega
      · by_cases empty : kept = []
        · left
          rw [empty, List.length_nil, Nat.zero_add] at total
          exact total
        · right
          constructor
          · exact List.append_ne_nil_of_right_ne_nil front empty
          · intro byte found
            rw [List.getLast?_append_of_ne_nil front empty] at found
            exact trimmed byte found
      · rw [plain, List.append_assoc]

/-- The loop of `aes_decrypt` behind a block that was decrypted already. -/
theorem decryptLoop_eq (decryptor : AesBlockDecryptor) (shrink : Bool)
    {data cipher plain : List UInt8}
    (blocks : data.length % aesBlockSize = 0)
    (cipherSize : cipher.length = aesBlockSize)
    (plainSize : plain.length = aesBlockSize) (gcount : Nat)
    (out : List UInt8) :
    ∃ front last, last.length = aesBlockSize ∧
      plain ++ blockwise decryptor.decrypt data = front ++ last ∧
      decryptLoop decryptor shrink ⟨data, true, gcount⟩ cipher plain
        aesBlockSize out = .ok (out ++ (front ++ shrunk shrink last)) := by
  induction length : data.length using Nat.strong_induction_on
    generalizing data cipher plain gcount out with
  | _ length inductionHypothesis =>
      subst length
      by_cases enough : aesBlockSize ≤ data.length
      · have first : (data.take aesBlockSize).length = aesBlockSize := by
          rw [List.length_take, Nat.min_eq_left enough]
        have shorter : (data.drop aesBlockSize).length < data.length := by
          rw [List.length_drop]
          unfold aesBlockSize at *
          omega
        have rest : (data.drop aesBlockSize).length % aesBlockSize = 0 := by
          rw [List.length_drop]
          unfold aesBlockSize at *
          omega
        obtain ⟨front, last, size, split, later⟩ := inductionHypothesis _
          shorter rest first (decryptor.length_decrypt _ first)
          aesBlockSize (out ++ plain) rfl
        have whole : blockwise decryptor.decrypt data =
            decryptor.decrypt (data.take aesBlockSize) ++
              blockwise decryptor.decrypt (data.drop aesBlockSize) := by
          conv_lhs => rw [← List.take_append_drop aesBlockSize data]
          exact blockwise_append first _
        refine ⟨plain ++ front, last, size, ?_, ?_⟩
        · rw [whole, split, List.append_assoc]
        · rw [decryptLoop, InputStream.read_of_le enough cipherSize]
          dsimp only
          rw [if_neg (fun part => Nat.lt_irrefl _ part.2),
            if_pos rfl, if_pos (by decide), if_pos (by decide), if_pos rfl,
            later]
          simp only [List.append_assoc]
      · have empty : data = [] := by
          apply List.eq_nil_of_length_eq_zero
          unfold aesBlockSize at *
          omega
        subst empty
        refine ⟨[], plain, plainSize, List.append_nil plain, ?_⟩
        rw [decryptLoop, InputStream.read_of_lt (by decide)]
        rfl

/-- The first block is only decrypted; nothing is written for it yet. -/
theorem aesDecryptStream_step (decryptor : AesBlockDecryptor)
    (shrink : Bool) {cipher first second : List UInt8}
    (enough : aesBlockSize ≤ cipher.length)
    (size : first.length = aesBlockSize) :
    aesDecryptStream decryptor shrink (.start cipher) first second =
      decryptLoop decryptor shrink
        ⟨cipher.drop aesBlockSize, true, aesBlockSize⟩
        (cipher.take aesBlockSize)
        (decryptor.decrypt (cipher.take aesBlockSize)) aesBlockSize [] := by
  rw [aesDecryptStream, InputStream.start, decryptLoop,
    InputStream.read_of_le enough size]
  dsimp only
  rw [if_neg (fun part => Nat.lt_irrefl _ part.2), if_pos rfl,
    if_pos (by decide), if_neg (Nat.lt_irrefl 0)]

/-- The stream of a cipher text of whole blocks, at least one. -/
theorem aesDecryptStream_eq (decryptor : AesBlockDecryptor)
    (shrink : Bool) {cipher first second : List UInt8}
    (positive : 0 < cipher.length)
    (blocks : cipher.length % aesBlockSize = 0)
    (size : first.length = aesBlockSize) :
    ∃ front last, last.length = aesBlockSize ∧
      blockwise decryptor.decrypt cipher = front ++ last ∧
      aesDecryptStream decryptor shrink (.start cipher) first second =
        .ok (front ++ shrunk shrink last) := by
  have enough : aesBlockSize ≤ cipher.length := by
    unfold aesBlockSize at *
    omega
  have block : (cipher.take aesBlockSize).length = aesBlockSize := by
    rw [List.length_take, Nat.min_eq_left enough]
  have rest : (cipher.drop aesBlockSize).length % aesBlockSize = 0 := by
    rw [List.length_drop]
    unfold aesBlockSize at *
    omega
  obtain ⟨front, last, lastSize, split, written⟩ := decryptLoop_eq decryptor
    shrink rest block (decryptor.length_decrypt _ block) aesBlockSize []
  refine ⟨front, last, lastSize, ?_, ?_⟩
  · rw [← split, ← blockwise_append block, List.take_append_drop]
  · rw [aesDecryptStream_step decryptor shrink enough size, written,
      List.nil_append]

/-- The stream version of `aes_encrypt` writes what the string version
returns.  The memory of the block may hold anything before the first read. -/
def EncryptsAlike (encryptor : AesBlockEncryptor)
    (plain block : List UInt8) : Prop :=
  ∃ out, aesEncryptString encryptor plain = .ok out ∧
    aesEncryptStream encryptor (.start plain) block = out

/-- The same of `aes_decrypt`. -/
def DecryptsAlike (decryptor : AesBlockDecryptor) (shrink : Bool)
    (cipher first second : List UInt8) : Prop :=
  ∃ out, aesDecryptString decryptor cipher shrink = .ok out ∧
    aesDecryptStream decryptor shrink (.start cipher) first second = .ok out

/-- Exactly the empty text is not encrypted alike. -/
theorem encryptsAlike_iff (encryptor : AesBlockEncryptor) (plain : Sequence)
    {block : List UInt8} (size : block.length = aesBlockSize) :
    EncryptsAlike encryptor plain.data block ↔ plain.data ≠ [] := by
  constructor
  · rintro ⟨out, returned, -⟩ empty
    rw [empty, aesEncryptString_nil] at returned
    cases returned
  · intro nonempty
    refine ⟨_, aesEncryptString_eq encryptor nonempty, ?_⟩
    exact encryptLoop_eq encryptor plain size 0 []

theorem decryptsAlike (decryptor : AesBlockDecryptor) (shrink : Bool)
    {cipher first second : List UInt8} (positive : 0 < cipher.length)
    (blocks : cipher.length % aesBlockSize = 0)
    (size : first.length = aesBlockSize) :
    DecryptsAlike decryptor shrink cipher first second := by
  obtain ⟨front, last, lastSize, split, written⟩ :=
    aesDecryptStream_eq decryptor shrink positive blocks size
  exact ⟨_, aesDecryptString_of_last decryptor shrink positive blocks split
    lastSize, written⟩

/-- The stream versions write what the string versions return, exactly for a
plain text that is not empty. -/
theorem aesStreams_eq_strings_iff (encryptor : AesBlockEncryptor)
    (decryptor : AesBlockDecryptor) (plain : Sequence)
    {cipher : List UInt8} (positive : 0 < cipher.length)
    (blocks : cipher.length % aesBlockSize = 0) (shrink : Bool)
    {first second : List UInt8} (size : first.length = aesBlockSize) :
    EncryptsAlike encryptor plain.data first ∧
        DecryptsAlike decryptor shrink cipher first second ↔
      plain.data ≠ [] := by
  rw [encryptsAlike_iff encryptor plain size]
  exact and_iff_left (decryptsAlike decryptor shrink positive blocks size)

theorem aesStreams_eq_strings_example :
    EncryptsAlike exchangeEncryptor plainExample (List.replicate 16 7) ∧
      DecryptsAlike exchangeDecryptor true (cipherExample ++ cipherExample)
        (List.replicate 16 7) (List.replicate 16 9) :=
  (aesStreams_eq_strings_iff exchangeEncryptor exchangeDecryptor
    ⟨plainExample, by decide⟩ (by decide) (by decide) true
    List.length_replicate).mpr (List.cons_ne_nil _ _)

/-- Under no key is the empty text encrypted alike: the stream version writes
nothing. -/
theorem not_aesStreams_eq_strings_always :
    ¬ ∃ encryptor block, EncryptsAlike encryptor [] block := by
  rintro ⟨encryptor, block, out, returned, -⟩
  rw [aesEncryptString_nil] at returned
  cases returned

end Crypto
end Spaceless
