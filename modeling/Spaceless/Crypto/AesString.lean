import Mathlib.Data.List.DropRight
import Spaceless.Crypto.AesBuffer

/-!
# AES of strings

`aes_encrypt` pads the last block of a string with null characters.
`aes_decrypt` takes null characters off the end again when it is asked to
shrink, at most as many as a block has.  Both hand the string of their result
over by its first character, which an empty string does not have.
-/

namespace Spaceless
namespace Crypto

open Logic

/-- `lights::String` of a string, which takes the address of `front()`. -/
def sequenceOf {ε : Type} (outside : ε) (str : List UInt8) :
    Except ε (List UInt8) :=
  if str = [] then .error outside else .ok str

/-- `aes_encrypt` of a string. -/
def aesEncryptString (encryptor : AesBlockEncryptor) (plain : List UInt8) :
    Except EncryptFault (List UInt8) := do
  let cipher ← sequenceOf .outside
    (List.replicate (aesCipherLength plain.length) 0)
  aesEncryptSequence encryptor plain cipher

/-- A fault of the blocks, or a character outside the string is taken. -/
inductive ShrinkFault
  | decrypt (fault : DecryptFault)
  | outside
  deriving DecidableEq

/-- The scan from the end of the string: `unuse_len` when it stops. -/
def scanUnuse (plain : List UInt8) (unuseLength : Nat) :
    Except ShrinkFault Nat :=
  if unuseLength ≤ aesBlockSize then
    -- `plain.length() - unuse_len` is unsigned.
    if plain.length < unuseLength then .error .outside
    else if plain[plain.length - unuseLength]? ≠ some 0 then .ok unuseLength
    else scanUnuse plain (unuseLength + 1)
  else .ok unuseLength
  termination_by aesBlockSize + 1 - unuseLength

/-- `aes_decrypt` of a string. -/
def aesDecryptString (decryptor : AesBlockDecryptor) (cipher : List UInt8)
    (shrink : Bool) : Except ShrinkFault (List UInt8) := do
  let plain ← sequenceOf .outside (List.replicate cipher.length 0)
  let plain ← (aesDecryptSequence decryptor cipher plain).mapError .decrypt
  if shrink then
    let unuseLength ← scanUnuse plain 1
    -- One more than the length may be unused: the sum comes out as zero.
    .ok (plain.take (plain.length + 1 - unuseLength))
  else .ok plain

theorem sequenceOf_replicate {ε : Type} (outside : ε) {count : Nat}
    (positive : 0 < count) :
    sequenceOf outside (List.replicate count 0) =
      .ok (List.replicate count 0) :=
  if_neg (by rw [List.replicate_eq_nil_iff]; omega)

/-- A string is encrypted into a buffer of the right length. -/
theorem aesEncryptString_eq (encryptor : AesBlockEncryptor)
    {plain : Sequence} (nonempty : plain.data ≠ []) :
    aesEncryptString encryptor plain.data =
      .ok (blockwise encryptor.encrypt (padded plain.data)) := by
  have bounds := plain.cipherLength
  have fits : EncryptCall.Fits
      ⟨plain, aesCipherLength plain.data.length, Nat.le_refl _⟩ := by
    unfold EncryptCall.Fits
    dsimp only
    split
    · unfold aesBlockSize at *
      omega
    · rfl
  have positive := List.length_pos_of_ne_nil nonempty
  unfold aesEncryptString
  rw [sequenceOf_replicate _ (by omega)]
  change aesEncryptSequence encryptor plain.data _ = _
  rw [EncryptCall.aesEncryptSequence_of_fits fits List.length_replicate,
    List.drop_of_length_le (by rw [List.length_replicate]),
    List.append_nil]

/-- The string of an empty cipher text has no first character. -/
theorem aesEncryptString_nil (encryptor : AesBlockEncryptor) :
    aesEncryptString encryptor [] = .error .outside := rfl

/-- Whole blocks are decrypted into a string of the same length. -/
theorem aesDecryptSequence_replicate (decryptor : AesBlockDecryptor)
    {cipher : List UInt8} (blocks : cipher.length % aesBlockSize = 0) :
    aesDecryptSequence decryptor cipher (List.replicate cipher.length 0) =
      .ok (blockwise decryptor.decrypt cipher) := by
  have whole : cipher.length / aesBlockSize * aesBlockSize =
      cipher.length := by
    unfold aesBlockSize at *
    omega
  unfold aesDecryptSequence
  rw [List.length_replicate, if_neg (Nat.lt_irrefl _),
    processBlocks_zero decryptor.length_decrypt
      (by rw [List.length_replicate]),
    whole, if_pos (Nat.le_refl _),
    List.drop_of_length_le (by rw [List.length_replicate]),
    List.append_nil]
  rfl

/-- The text does not end in a null byte. -/
def Trimmed (text : List UInt8) : Prop :=
  ∀ byte, text.getLast? = some byte → byte ≠ 0

/-- Every text is a trimmed one and null bytes. -/
theorem exists_trimmed (text : List UInt8) :
    ∃ kept count, text = kept ++ List.replicate count 0 ∧ Trimmed kept := by
  let isNull : UInt8 → Bool := fun byte => byte == 0
  have zeros : text.rtakeWhile isNull =
      List.replicate (text.rtakeWhile isNull).length 0 := by
    apply List.eq_replicate_iff.mpr
    constructor
    · rfl
    · intro byte present
      have null : isNull byte = true := List.mem_rtakeWhile_imp present
      exact eq_of_beq null
  refine ⟨text.rdropWhile isNull, (text.rtakeWhile isNull).length, ?_, ?_⟩
  · rw [← zeros, List.rdropWhile_append_rtakeWhile]
  · intro byte last null
    have nonempty : text.rdropWhile isNull ≠ [] := by
      intro empty
      rw [empty] at last
      cases last
    have stops := List.rdropWhile_last_not isNull text nonempty
    rw [List.getLast?_eq_getLast_of_ne_nil nonempty] at last
    cases last
    exact stops (beq_iff_eq.mpr null)

/-- The scan passes the null bytes, at most a block of them, and stops. -/
theorem scanUnuse_eq {kept : List UInt8} {count passed : Nat}
    (short : count ≤ aesBlockSize)
    (stops : count = aesBlockSize ∨ kept ≠ [] ∧ Trimmed kept)
    (within : passed ≤ count) :
    scanUnuse (kept ++ List.replicate count 0) (passed + 1) =
      .ok (count + 1) := by
  obtain ⟨left, rfl⟩ := Nat.exists_eq_add_of_le within
  clear within
  induction left generalizing passed with
  | zero =>
      rw [Nat.add_zero] at *
      rw [scanUnuse]
      split
      case isTrue more =>
        obtain ⟨nonempty, trimmed⟩ : kept ≠ [] ∧ Trimmed kept := by
          apply stops.resolve_left
          omega
        have positive := List.length_pos_of_ne_nil nonempty
        have place : kept.length + passed - (passed + 1) =
            kept.length - 1 := by
          omega
        rw [List.length_append, List.length_replicate, if_neg (by omega),
          place, List.getElem?_append_left (by omega),
          ← List.getLast?_eq_getElem?, if_pos]
        intro last
        exact trimmed 0 last rfl
      case isFalse => rfl
  | succ left inductionHypothesis =>
      have place : kept.length + (passed + (left + 1)) - (passed + 1) =
          kept.length + left := by
        omega
      have null : (kept ++ List.replicate (passed + (left + 1)) 0)[
          kept.length + left]? = some 0 := by
        rw [List.getElem?_append_right (Nat.le_add_right _ _),
          Nat.add_sub_cancel_left, List.getElem?_replicate, if_pos (by omega)]
      rw [scanUnuse, if_pos (by omega), List.length_append,
        List.length_replicate, if_neg (by omega), place, null,
        if_neg (not_not_intro rfl)]
      have shape : passed + (left + 1) = passed + 1 + left := by
        omega
      rw [shape] at short stops ⊢
      exact inductionHypothesis short stops

/-- What `aes_decrypt` returns for a string of whole blocks. -/
theorem aesDecryptString_eq (decryptor : AesBlockDecryptor)
    {cipher : List UInt8} (positive : 0 < cipher.length)
    (blocks : cipher.length % aesBlockSize = 0)
    {kept : List UInt8} {count : Nat} (short : count ≤ aesBlockSize)
    (stops : count = aesBlockSize ∨ kept ≠ [] ∧ Trimmed kept)
    (plain : blockwise decryptor.decrypt cipher =
      kept ++ List.replicate count 0) :
    aesDecryptString decryptor cipher true = .ok kept := by
  have scanned := scanUnuse_eq short stops (Nat.zero_le count)
  rw [Nat.zero_add] at scanned
  have rest : (kept ++ List.replicate count (0 : UInt8)).length + 1 -
      (count + 1) = kept.length := by
    rw [List.length_append, List.length_replicate]
    omega
  unfold aesDecryptString
  rw [sequenceOf_replicate _ positive]
  dsimp only [bind, Except.bind]
  rw [aesDecryptSequence_replicate decryptor blocks, plain]
  change ((scanUnuse (kept ++ List.replicate count 0) 1).bind fun length =>
    .ok ((kept ++ List.replicate count 0).take
      ((kept ++ List.replicate count 0).length + 1 - length))) = _
  rw [scanned, Except.bind, rest, List.take_left]

/-- What is encrypted comes back when it is decrypted and shrunk, without an
index outside the string. -/
def RoundTrips (encryptor : AesBlockEncryptor)
    (decryptor : AesBlockDecryptor) (plain : List UInt8) : Prop :=
  ∃ cipher, aesEncryptString encryptor plain = .ok cipher ∧
    aesDecryptString decryptor cipher true = .ok plain

/-- Block decryption inverts block encryption under one key. -/
def Inverts (decryptor : AesBlockDecryptor)
    (encryptor : AesBlockEncryptor) : Prop :=
  ∀ block, block.length = aesBlockSize →
    decryptor.decrypt (encryptor.encrypt block) = block

section RoundTrip

variable {encryptor : AesBlockEncryptor} {decryptor : AesBlockDecryptor}

/-- The blocks of a padded plain text come back. -/
theorem blockwise_blockwise (inverts : Inverts decryptor encryptor)
    (plain : Sequence) :
    blockwise decryptor.decrypt
      (blockwise encryptor.encrypt (padded plain.data)) =
        padded plain.data := by
  have cipher := plain.cipherLength
  have length := plain.length_blockwise encryptor
  have whole : (padded plain.data).length =
      (padded plain.data).length / aesBlockSize * aesBlockSize := by
    rw [plain.length_padded]
    unfold aesBlockSize at *
    omega
  conv_lhs => rw [blockwise, length, ← plain.length_padded]
  exact Content.mapChunks_mapChunks encryptor.length_encrypt inverts whole

/-- A nonempty text without null characters comes back. -/
theorem roundTrips_of_ne_nil (inverts : Inverts decryptor encryptor)
    {plain : Sequence} (nullFree : ∀ byte ∈ plain.data, byte ≠ 0)
    (nonempty : plain.data ≠ []) :
    RoundTrips encryptor decryptor plain.data := by
  have bounds := plain.cipherLength
  have positive := List.length_pos_of_ne_nil nonempty
  refine ⟨_, aesEncryptString_eq encryptor nonempty, ?_⟩
  apply aesDecryptString_eq decryptor _ _ _ _
    (blockwise_blockwise inverts plain)
  · rw [plain.length_blockwise]
    omega
  · rw [plain.length_blockwise]
    exact bounds.1
  · omega
  · right
    constructor
    · exact nonempty
    · intro byte last
      exact nullFree byte (List.mem_of_getLast? last)

/-- The empty text is not even encrypted. -/
theorem not_roundTrips_nil : ¬ RoundTrips encryptor decryptor [] := by
  rintro ⟨cipher, encrypted, -⟩
  rw [aesEncryptString_nil] at encrypted
  cases encrypted

/-- Exactly the empty text does not come back. -/
theorem roundTrips_iff (inverts : Inverts decryptor encryptor)
    (plain : Sequence) (nullFree : ∀ byte ∈ plain.data, byte ≠ 0) :
    RoundTrips encryptor decryptor plain.data ↔ plain.data ≠ [] := by
  constructor
  · intro back empty
    rw [empty] at back
    exact not_roundTrips_nil back
  · exact roundTrips_of_ne_nil inverts nullFree

end RoundTrip

/-- A plain block and its cipher block under one key of AES-256. -/
def plainExample : List UInt8 :=
  [0x6b, 0xc1, 0xbe, 0xe2, 0x2e, 0x40, 0x9f, 0x96,
    0xe9, 0x3d, 0x7e, 0x11, 0x73, 0x93, 0x17, 0x2a]

@[inherit_doc plainExample]
def cipherExample : List UInt8 :=
  [0xf3, 0xee, 0xd1, 0xbd, 0xb5, 0xd2, 0xa0, 0x3c,
    0x06, 0x4b, 0x5a, 0x7e, 0x3d, 0xb1, 0x81, 0xf8]

/-- The two blocks are exchanged, every other one stays. -/
def exchange (block : List UInt8) : List UInt8 :=
  if block = plainExample then cipherExample
  else if block = cipherExample then plainExample
  else block

theorem length_exchange (block : List UInt8)
    (size : block.length = aesBlockSize) :
    (exchange block).length = aesBlockSize := by
  unfold exchange
  split
  · rfl
  · split
    · rfl
    · exact size

def exchangeEncryptor : AesBlockEncryptor where
  encrypt := exchange
  length_encrypt := length_exchange

def exchangeDecryptor : AesBlockDecryptor where
  decrypt := exchange
  length_decrypt := length_exchange

theorem inverts_exchange : Inverts exchangeDecryptor exchangeEncryptor := by
  intro block size
  change exchange (exchange block) = block
  by_cases plain : block = plainExample
  · rw [plain]
    decide
  · by_cases cipher : block = cipherExample
    · rw [cipher]
      decide
    · unfold exchange
      rw [if_neg plain, if_neg cipher, if_neg plain, if_neg cipher]

theorem roundTrips_plainExample :
    RoundTrips exchangeEncryptor exchangeDecryptor plainExample ∧
      plainExample ≠ [] := by
  have nonempty : plainExample ≠ [] := List.cons_ne_nil _ _
  have nullFree : ∀ byte ∈ plainExample, byte ≠ 0 := by
    intro byte present
    have all : plainExample.all (· != 0) = true := rfl
    exact bne_iff_ne.mp (List.all_eq_true.mp all byte present)
  exact ⟨(roundTrips_iff inverts_exchange ⟨plainExample, by decide⟩
    nullFree).mpr nonempty, nonempty⟩

/-- Under no key does the empty text come back. -/
theorem not_roundTrips_always :
    ¬ ∃ encryptor decryptor, RoundTrips encryptor decryptor [] := by
  rintro ⟨encryptor, decryptor, back⟩
  exact not_roundTrips_nil back

end Crypto
end Spaceless
