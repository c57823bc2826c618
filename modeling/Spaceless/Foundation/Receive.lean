import Spaceless.Foundation.Connection

/-!
# What a connection accepts from its peer

The length in a header is the peer's choice.  With a length that is not
negative, and that survives the rounding to whole blocks, every write stays
in the buffer and every package of the in queue is well formed; with another
one the buffer loop does not end, the header is copied out of bounds, or a
secure connection pushes a package of negative length.
-/

namespace Spaceless
namespace Foundation

open Crypto Logic

theorem intOfBytes_range (bytes : List UInt8) :
    -2147483648 ≤ intOfBytes bytes ∧ intOfBytes bytes < 2147483648 :=
  intOfSize_range _

/-! ## The length that is read -/

theorem getContentLength_of_nonneg {rawLength : Int}
    (nonneg : 0 ≤ rawLength) (below : rawLength ≤ 2147483632) :
    rawLength ≤ getContentLength rawLength ∧
      getContentLength rawLength % 16 = 0 ∧
      getContentLength rawLength < 2147483648 := by
  have size := sizeOfInt_of_nonneg nonneg (by omega)
  have fits : rawLength.toNat ≤ 18446744073709551600 := by omega
  obtain ⟨blocks, above, least⟩ := aesCipherLength_of_le fits
  unfold getContentLength
  rw [size, intOfSize_of_lt (by omega)]
  omega

/-- Rounding may leave the range of `int`. -/
theorem getContentLength_of_gt {rawLength : Int}
    (above : 2147483632 < rawLength) (below : rawLength < 2147483648) :
    getContentLength rawLength = -2147483648 := by
  have nonneg : 0 ≤ rawLength := by omega
  have size := sizeOfInt_of_nonneg nonneg (by omega)
  have fits : rawLength.toNat ≤ 18446744073709551600 := by omega
  obtain ⟨blocks, more, least⟩ := aesCipherLength_of_le fits
  unfold getContentLength
  rw [size]
  unfold intOfSize
  omega

/-- Less than a block below zero is rounded up to zero. -/
theorem getContentLength_of_neg {rawLength : Int}
    (above : -16 < rawLength) (negative : rawLength < 0) :
    getContentLength rawLength = 0 := by
  have size := sizeOfInt_of_neg negative (by omega)
  unfold getContentLength
  rw [size, aesCipherLength_of_gt (by omega) (by omega)]
  rfl

theorem getContentLength_of_le {rawLength : Int}
    (below : rawLength ≤ -16) (above : -2147483648 ≤ rawLength) :
    -2147483648 ≤ getContentLength rawLength ∧
      getContentLength rawLength < 0 := by
  have negative : rawLength < 0 := by omega
  have size := sizeOfInt_of_neg negative (by omega)
  have fits : 18446744073709551616 - (-rawLength).toNat ≤
      18446744073709551600 := by omega
  obtain ⟨blocks, more, least⟩ := aesCipherLength_of_le fits
  unfold getContentLength
  rw [size]
  unfold intOfSize
  omega

theorem header_range (connection : Connection) :
    -2147483648 ≤ connection.header.contentLength ∧
      connection.header.contentLength < 2147483648 :=
  intOfBytes_range _

/-! ## What a header may announce -/

/-- A package that the logic layer can take at its word. -/
structure InPackage.WellFormed (package : InPackage) : Prop where
  nonneg : 0 ≤ package.header.contentLength
  small : package.header.contentLength ≤ maxContentLen
  space : package.header.contentLength ≤ package.contentBuffer.length

/-- `receiveBytes` writes inside the buffer. -/
structure Request.InBounds (request : Request) : Prop where
  nonneg : 0 ≤ request.length
  inside : request.offset + request.length ≤ request.bufferLength

/-- No well-formed package has the length of this header. -/
def PackageHeader.Bad (header : PackageHeader) : Prop :=
  header.contentLength < 0 ∨ maxContentLen < header.contentLength

/-- A header that the connection handles: its length is not negative, and on
a secure connection the rounded length is an `int`.  A security setting
closes the connection when its length is rounded up to zero. -/
def PackageHeader.Benign (secureConn : Option AesBlockDecryptor)
    (header : PackageHeader) : Prop :=
  match secureConn with
  | none => 0 ≤ header.contentLength
  | some _ =>
      0 ≤ header.contentLength ∧ header.contentLength ≤ 2147483632 ∨
        -16 < header.contentLength ∧ header.contentLength < 0 ∧
          header.command = ntfSecuritySetting

instance (secureConn : Option AesBlockDecryptor) (header : PackageHeader) :
    Decidable (header.Benign secureConn) := by
  unfold PackageHeader.Benign
  cases secureConn <;> infer_instance

namespace Connection

/-- The connection is about to read the content of the header. -/
def AtContent (connection : Connection) : Prop :=
  connection.status = .opened ∧ connection.receiveState = .receiveContent

/-- What the rounding makes of a benign header. -/
theorem readContentLen_of_benign {secureConn : Option AesBlockDecryptor}
    {connection : Connection}
    (benign : connection.header.Benign secureConn) :
    0 ≤ connection.header.contentLength ∧
        connection.header.contentLength ≤
          readContentLen secureConn connection.header.contentLength ∧
        readContentLen secureConn connection.header.contentLength <
          2147483648 ∨
      readContentLen secureConn connection.header.contentLength = 0 ∧
        connection.header.contentLength < 0 ∧
        connection.header.command = ntfSecuritySetting := by
  have range := header_range connection
  cases secureConn with
  | none => exact Or.inl ⟨benign, Int.le_refl _, range.2⟩
  | some decryptor =>
      rcases benign with ⟨nonneg, below⟩ | ⟨above, negative, command⟩
      · obtain ⟨more, -, less⟩ := getContentLength_of_nonneg nonneg below
        exact Or.inl ⟨nonneg, more, less⟩
      · exact Or.inr
          ⟨getContentLength_of_neg above negative, negative, command⟩

/-- What the rounding makes of any other header. -/
theorem readContentLen_of_not_benign
    {secureConn : Option AesBlockDecryptor} {connection : Connection}
    (harmful : ¬connection.header.Benign secureConn) :
    -2147483648 ≤
          readContentLen secureConn connection.header.contentLength ∧
        readContentLen secureConn connection.header.contentLength < 0 ∨
      readContentLen secureConn connection.header.contentLength = 0 ∧
        connection.header.command ≠ ntfSecuritySetting := by
  have range := header_range connection
  cases secureConn with
  | none => exact Or.inl ⟨range.1, Int.not_le.mp harmful⟩
  | some decryptor =>
      simp only [PackageHeader.Benign, not_or, not_and] at harmful
      obtain ⟨large, small⟩ := harmful
      by_cases nonneg : 0 ≤ connection.header.contentLength
      · have rounded := getContentLength_of_gt
          (Int.not_le.mp (large nonneg)) range.2
        exact Or.inl (by simp [readContentLen, rounded])
      · have negative := Int.not_le.mp nonneg
        by_cases below : connection.header.contentLength ≤ -16
        · exact Or.inl (getContentLength_of_le below range.1)
        · have above := Int.not_le.mp below
          exact Or.inr ⟨getContentLength_of_neg above negative,
            small above negative⟩

theorem bad_of_not_benign {secureConn : Option AesBlockDecryptor}
    {header : PackageHeader} (harmful : ¬header.Benign secureConn) :
    header.Bad := by
  unfold PackageHeader.Bad maxContentLen
  cases secureConn with
  | none => exact Or.inl (Int.not_le.mp harmful)
  | some decryptor =>
      simp only [PackageHeader.Benign, not_or, not_and] at harmful
      have large := harmful.1
      omega

/-- The packages pushed so far are well formed, and `receiveBytes` was asked
for nothing outside the buffer. -/
structure Clean (connection : Connection) : Prop where
  packages : ∀ package ∈ connection.inQueue, package.WellFormed
  requests : ∀ request ∈ connection.requests, request.InBounds

/-- Moreover a header that no well-formed package has closes the connection
in the next iteration. -/
structure Safe (secureConn : Option AesBlockDecryptor)
    (connection : Connection) : Prop extends connection.Clean where
  closes : connection.AtContent → connection.header.Bad →
    ∃ next, connection.step secureConn .passed = some next ∧
      next.status = .closed

/-- The header of the content that comes next is one that the connection
handles. -/
def HeaderBenign (secureConn : Option AesBlockDecryptor)
    (connection : Connection) : Prop :=
  connection.AtContent → connection.header.Benign secureConn

/-- How far the connection has come in a header or a content. -/
def Framed (secureConn : Option AesBlockDecryptor)
    (connection : Connection) : Prop :=
  match connection.receiveState with
  | .receiveHeader => connection.receiveLen < headerLen
  | .receiveContent =>
      connection.receiveLen = 0 ∨
        connection.receiveLen <
            readContentLen secureConn connection.header.contentLength ∧
          readContentLen secureConn connection.header.contentLength ≤
            maxContentLen

/-- The invariant of a connection that meets benign headers only. -/
structure Sound (secureConn : Option AesBlockDecryptor)
    (connection : Connection) : Prop extends connection.Clean where
  framed : connection.status = .opened → connection.Framed secureConn

section Rules

variable {secureConn : Option AesBlockDecryptor} {connection : Connection}

theorem Clean.sound (clean : connection.Clean)
    (framed : connection.Framed secureConn) :
    connection.Sound secureConn :=
  ⟨clean, fun _ => framed⟩

theorem Clean.close (clean : connection.Clean) :
    connection.close.Sound secureConn :=
  ⟨⟨clean.packages, clean.requests⟩, nofun⟩

theorem Clean.fail (clean : connection.Clean) (fault : ReceiveFault) :
    (connection.fail fault).Sound secureConn :=
  ⟨⟨clean.packages, clean.requests⟩, nofun⟩

theorem Clean.push (clean : connection.Clean)
    {package : InPackage} (wellFormed : package.WellFormed) :
    (connection.push package).Clean := by
  refine ⟨?_, clean.requests⟩
  intro other member
  rcases List.mem_append.mp member with before | last
  · exact clean.packages other before
  · obtain rfl := List.mem_singleton.mp last
    exact wellFormed

theorem Clean.ask (clean : connection.Clean)
    {offset : Nat} {length : Int} (nonneg : 0 ≤ length)
    (inside : offset + length ≤ connection.receiveBuffer.length) :
    (connection.ask offset length).Clean := by
  refine ⟨clean.packages, ?_⟩
  intro request member
  rcases List.mem_append.mp member with before | last
  · exact clean.requests request before
  · obtain rfl := List.mem_singleton.mp last
    exact ⟨nonneg, inside⟩

/-- A call of `receiveBytes` for a space in the buffer. -/
theorem Sound.receiveBytes (sound : connection.Sound secureConn)
    {offset : Nat} {length : Int} (nonneg : 0 ≤ length)
    (inside : offset + length ≤ connection.receiveBuffer.length)
    {proceed : Connection → Connection}
    (proceeds : ∀ bytes fits, (bytes.length : Int) ≤ length →
      ((connection.ask offset length).accept offset bytes fits).Clean →
      (proceed ((connection.ask offset length).accept offset bytes
        fits)).Sound secureConn)
    {result : SocketResult} {next : Connection}
    (received : connection.receiveBytes offset length proceed result =
      some next) : next.Sound secureConn := by
  have asked := sound.toClean.ask nonneg inside
  cases result with
  | unavailable =>
      cases received
      exact ⟨asked, sound.framed⟩
  | closedByPeer =>
      cases received
      exact asked.close
  | received bytes =>
      simp only [Connection.receiveBytes] at received
      split at received
      · cases received
      · rename_i possible
        split at received
        · rename_i fits
          cases received
          exact proceeds bytes fits (by omega)
            ⟨asked.packages, asked.requests⟩
        · cases received
          exact asked.fail _

/-- A header ends with the switch to its content. -/
theorem Clean.afterHeader (clean : connection.Clean)
    (atHeader : connection.receiveState = .receiveHeader)
    (within : connection.receiveLen ≤ headerLen) :
    connection.afterHeader.Sound secureConn := by
  unfold Connection.afterHeader processCheckPackageVersion
  have finished : (if connection.receiveLen = headerLen then
      { connection with receiveLen := 0, receiveState := .receiveContent }
      else connection : Connection).Sound secureConn := by
    split
    · exact Clean.sound ⟨clean.packages, clean.requests⟩ (Or.inl rfl)
    · refine clean.sound ?_
      unfold Framed
      rw [atHeader]
      dsimp only
      omega
  split
  · rename_i version
    split at version
    · cases version
    · split at version
      · split at version
        · cases version
          exact ⟨⟨clean.packages, clean.requests⟩, nofun⟩
        · cases version
          exact clean.close
      · cases version
  · rename_i version
    split at version
    · cases version
      exact finished
    · split at version
      · split at version
        · cases version
        · cases version
      · cases version
        exact finished

theorem plainPackage_wellFormed
    (nonneg : 0 ≤ connection.header.contentLength)
    (small : connection.header.contentLength ≤ maxContentLen) :
    connection.plainPackage.WellFormed := by
  refine ⟨nonneg, small, ?_⟩
  have length : connection.plainPackage.contentBuffer.length =
      contentBufferLength connection.header.contentLength := by
    unfold plainPackage
    rw [List.length_take, List.length_append, List.length_replicate]
    exact Nat.min_eq_left (Nat.le_add_left _ _)
  have range := header_range connection
  have fits : connection.header.contentLength.toNat ≤
      18446744073709551600 := by omega
  obtain ⟨-, enough, -⟩ := aesCipherLength_of_le fits
  change connection.header.contentLength ≤ _
  rw [length, contentBufferLength, sizeOfInt_of_nonneg nonneg (by omega)]
  omega

/-- The cipher text lies in the buffer and is decrypted into a buffer of the
same length. -/
theorem decryptPackage_wellFormed (decryptor : AesBlockDecryptor)
    (nonneg : 0 ≤ connection.header.contentLength)
    (below : connection.header.contentLength ≤ 2147483632)
    (small : getContentLength connection.header.contentLength ≤
      maxContentLen)
    (space : getContentLength connection.header.contentLength + headerLen ≤
      connection.receiveBuffer.length) :
    ∃ package, connection.decryptPackage decryptor = .ok package ∧
      package.WellFormed := by
  have range := header_range connection
  obtain ⟨more, blocks, less⟩ := getContentLength_of_nonneg nonneg below
  unfold decryptPackage
  rw [intOfSize_sizeOfInt range.1 range.2]
  generalize readLen : getContentLength connection.header.contentLength =
    length at more blocks less small space
  have size : sizeOfInt length = length.toNat :=
    sizeOfInt_of_nonneg (by omega) (by omega)
  have whole : contentBufferLength length = length.toNat := by
    unfold contentBufferLength
    rw [size, aesCipherLength_of_dvd (by omega) (by omega)]
  unfold PackageBuffer.length headerLen at space
  have cipher : ((connection.receiveBuffer.data.drop headerLen).take
      (sizeOfInt length)).length = contentBufferLength length := by
    rw [List.length_take, List.length_drop, size, whole]
    unfold headerLen
    omega
  obtain ⟨plain, decrypted, same⟩ := aesDecrypt_eq_ok decryptor cipher
  refine ⟨⟨connection.header, plain⟩, ?_, nonneg, ?_, ?_⟩
  · dsimp only
    rw [decrypted]
    rfl
  · exact Int.le_trans more small
  · change connection.header.contentLength ≤ plain.length
    rw [same, whole]
    omega

/-- A complete package with a benign header. -/
theorem Clean.onReceiveCompletePackage (clean : connection.Clean)
    (framed : connection.Framed secureConn)
    (benign : connection.header.Benign secureConn)
    (small : readContentLen secureConn connection.header.contentLength ≤
      maxContentLen)
    (space : readContentLen secureConn connection.header.contentLength +
      headerLen ≤ connection.receiveBuffer.length) :
    (connection.onReceiveCompletePackage secureConn).Sound secureConn := by
  unfold Connection.onReceiveCompletePackage
  split
  · exact clean.close
  · rename_i command
    cases secureConn with
    | none =>
        exact (clean.push (plainPackage_wellFormed benign small)).sound framed
    | some decryptor =>
        rcases benign with ⟨nonneg, below⟩ | ⟨-, -, setting⟩
        · obtain ⟨package, decrypted, wellFormed⟩ :=
            decryptPackage_wellFormed decryptor nonneg below small space
          dsimp only
          rw [decrypted]
          exact (clean.push wellFormed).sound framed
        · exact absurd setting command

/-- Content bytes behind the ones that arrived before. -/
theorem Clean.afterContent (clean : connection.Clean)
    (atContent : connection.receiveState = .receiveContent)
    (benign : connection.header.Benign secureConn) {readLen : Int}
    (read : readContentLen secureConn connection.header.contentLength =
      readLen)
    (small : readLen ≤ maxContentLen)
    (space : readLen + headerLen ≤ connection.receiveBuffer.length)
    (within : connection.receiveLen ≤ readLen) :
    (connection.afterContent secureConn readLen).Sound secureConn := by
  subst read
  unfold Connection.afterContent
  split
  · have reset : Clean
        { connection with receiveLen := 0, receiveState := .receiveHeader } :=
      ⟨clean.packages, clean.requests⟩
    exact reset.onReceiveCompletePackage (Nat.succ_pos _) benign small space
  · refine clean.sound ?_
    unfold Framed
    rw [atContent]
    dsimp only
    omega

/-! ## One iteration at a content -/

/-- The content fits: it is read behind the header, into the space that is
still missing. -/
theorem receiveContent_fits
    (positive : 0 <
      readContentLen secureConn connection.header.contentLength)
    (small : readContentLen secureConn connection.header.contentLength ≤
      maxContentLen) :
    ∃ buffer : PackageBuffer,
      buffer.data.take headerLen =
        connection.receiveBuffer.data.take headerLen ∧
      (readContentLen secureConn connection.header.contentLength +
        headerLen ≤ connection.receiveBuffer.length →
        buffer = connection.receiveBuffer) ∧
      readContentLen secureConn connection.header.contentLength +
        headerLen ≤ buffer.length ∧
      connection.receiveContent secureConn =
        .calls { connection with receiveBuffer := buffer }
          (headerLen + connection.receiveLen)
          (readContentLen secureConn connection.header.contentLength -
            connection.receiveLen)
          (Connection.afterContent secureConn
            (readContentLen secureConn
              connection.header.contentLength)) := by
  unfold receiveContent
  generalize readContentLen secureConn connection.header.contentLength =
    readLen at positive small ⊢
  unfold maxContentLen at small
  have size : sizeOfInt readLen = readLen.toNat :=
    sizeOfInt_of_nonneg (by omega) (by omega)
  have fits : sizeOfInt readLen ≤ maxContentLen := by
    unfold maxContentLen
    omega
  obtain ⟨buffer, expected, space, same, kept⟩ :=
    connection.receiveBuffer.expectContentLength_fits fits
  rw [size] at space kept
  refine ⟨buffer, same, fun already => kept (by omega), by omega, ?_⟩
  dsimp only
  rw [if_neg (by omega), expected]
  dsimp only
  rw [if_neg]
  rw [buffer.sizeSub_length, size]
  omega

/-- An iteration that ends without a call of `receiveBytes`. -/
theorem step_passed {secureConn : Option AesBlockDecryptor}
    {connection next : Connection} (opened : connection.status = .opened)
    (ends : connection.iteration secureConn = .ends next) :
    connection.step secureConn .passed = some next := by
  simp only [step, opened, ends, if_true]

/-- The content is too large for any buffer, and the connection closes. -/
theorem receiveContent_tooLarge
    (large : maxContentLen <
      readContentLen secureConn connection.header.contentLength)
    (below : readContentLen secureConn connection.header.contentLength <
      2147483648) :
    connection.receiveContent secureConn = .ends connection.close := by
  unfold receiveContent
  generalize readContentLen secureConn connection.header.contentLength =
    readLen at large below ⊢
  have size : sizeOfInt readLen = readLen.toNat := by
    unfold maxContentLen at large
    exact sizeOfInt_of_nonneg (by omega) (by omega)
  have exceeds : maxContentLen < sizeOfInt readLen := by
    omega
  have expected := connection.receiveBuffer.expectContentLength_tooLarge
    exceeds (by unfold headerLen; omega)
  have bounds := connection.receiveBuffer.length_bounds
  unfold maxContentLen at large
  unfold maxBufferLen at bounds
  dsimp only
  rw [if_neg (by omega), expected]
  dsimp only
  rw [if_pos]
  rw [connection.receiveBuffer.sizeSub_length, size]
  unfold headerLen
  omega

/-- A negative length is a fault of the buffer. -/
theorem receiveContent_neg
    (negative :
      readContentLen secureConn connection.header.contentLength < 0)
    (above : -2147483648 ≤
      readContentLen secureConn connection.header.contentLength) :
    ∃ fault, connection.receiveContent secureConn =
      .ends (connection.fail (.buffer fault)) := by
  unfold receiveContent
  generalize readContentLen secureConn connection.header.contentLength =
    readLen at negative above ⊢
  have size := sizeOfInt_of_neg negative (by omega)
  by_cases small : -18 < readLen
  · refine ⟨.endless, ?_⟩
    have above : 18446744073709551616 < sizeOfInt readLen + headerLen := by
      unfold headerLen
      omega
    have expected :=
      connection.receiveBuffer.expectContentLength_endless above
    dsimp only
    rw [if_neg (by omega), expected]
  · refine ⟨.overrun, ?_⟩
    have below : sizeOfInt readLen + headerLen ≤ 18446744073709551616 := by
      unfold headerLen
      omega
    have expected :=
      connection.receiveBuffer.expectContentLength_overrun
        (by unfold headerLen; omega) below
    dsimp only
    rw [if_neg (by omega), expected]

/-- No content: nothing is read. -/
theorem receiveContent_zero
    (zero : readContentLen secureConn connection.header.contentLength = 0) :
    connection.receiveContent secureConn =
      .ends (connection.afterContent secureConn
        (readContentLen secureConn connection.header.contentLength)) := by
  unfold receiveContent
  exact if_pos zero

/-! ## Runs -/

/-- An iteration at a header keeps the invariant. -/
theorem Sound.step_receiveHeader (sound : connection.Sound secureConn)
    (opened : connection.status = .opened)
    (state : connection.receiveState = .receiveHeader)
    {event : Event} {next : Connection}
    (stepped : connection.step secureConn event = some next) :
    next.Sound secureConn := by
  have framed := sound.framed opened
  simp only [Framed, state, headerLen] at framed
  simp only [Connection.step, opened, iteration, state, receiveHeader,
    headerLen] at stepped
  cases event with
  | passed => cases stepped
  | called result =>
      have bounds := connection.receiveBuffer.length_bounds
      refine sound.receiveBytes (by omega) (by omega) ?_ stepped
      intro bytes fits within clean
      refine clean.afterHeader state ?_
      change connection.receiveLen + bytes.length ≤ headerLen
      unfold headerLen
      omega

/-- An iteration at the content of a benign header keeps the invariant. -/
theorem Sound.step_receiveContent (sound : connection.Sound secureConn)
    (opened : connection.status = .opened)
    (state : connection.receiveState = .receiveContent)
    (benign : connection.header.Benign secureConn)
    {event : Event} {next : Connection}
    (stepped : connection.step secureConn event = some next) :
    next.Sound secureConn := by
  have framed := sound.framed opened
  simp only [Framed, state] at framed
  simp only [Connection.step, opened, iteration, state] at stepped
  have range : 0 ≤ readContentLen secureConn connection.header.contentLength ∧
      readContentLen secureConn connection.header.contentLength <
        2147483648 := by
    rcases readContentLen_of_benign benign with
      ⟨nonneg, more, below⟩ | ⟨zero, -⟩
    · omega
    · omega
  by_cases large : maxContentLen <
      readContentLen secureConn connection.header.contentLength
  · rw [receiveContent_tooLarge large range.2] at stepped
    cases event with
    | passed =>
        cases stepped
        exact sound.toClean.close
    | called result => cases stepped
  · have small := Int.not_lt.mp large
    by_cases positive : 0 <
        readContentLen secureConn connection.header.contentLength
    · obtain ⟨buffer, starts, -, space, reads⟩ :=
        receiveContent_fits positive small
      have same : buffer.header = connection.header :=
        PackageBuffer.header_congr starts
      rw [reads] at stepped
      cases event with
      | passed => cases stepped
      | called result =>
          have later : Sound secureConn
              { connection with receiveBuffer := buffer } := by
            refine ⟨⟨sound.packages, sound.requests⟩, fun _ => ?_⟩
            simp only [Framed, state, Connection.header, same]
            exact framed
          refine later.receiveBytes ?_ ?_ ?_ stepped
          · omega
          · dsimp only
            omega
          · intro bytes fits within clean
            have header := (buffer.header_write fits
              (Nat.le_add_right _ _)).trans same
            refine clean.afterContent state ?_ ?_ small ?_ ?_
            · change PackageHeader.Benign secureConn
                (buffer.write _ bytes fits).header
              rwa [header]
            · change readContentLen secureConn
                (buffer.write _ bytes fits).header.contentLength = _
              rw [header]
            · have length := buffer.length_write fits
              exact Int.le_trans space
                (Int.ofNat_le.mpr (Nat.le_of_eq length.symm))
            · change ((connection.receiveLen + bytes.length : Nat) : Int) ≤ _
              omega
    · have zero : readContentLen secureConn
          connection.header.contentLength = 0 := by
        omega
      rw [receiveContent_zero zero] at stepped
      cases event with
      | passed =>
          cases stepped
          have bounds := connection.receiveBuffer.length_bounds
          refine sound.toClean.afterContent state benign rfl small ?_ ?_
          · unfold headerLen
            omega
          · omega
      | called result => cases stepped

/-- An iteration with a benign header keeps the invariant. -/
theorem Sound.step (sound : connection.Sound secureConn)
    (benign : connection.HeaderBenign secureConn)
    {event : Event} {next : Connection}
    (stepped : connection.step secureConn event = some next) :
    next.Sound secureConn := by
  by_cases opened : connection.status = .opened
  · cases state : connection.receiveState with
    | receiveHeader => exact sound.step_receiveHeader opened state stepped
    | receiveContent =>
        exact sound.step_receiveContent opened state
          (benign ⟨opened, state⟩) stepped
  · unfold Connection.step at stepped
    rw [if_neg opened] at stepped
    cases stepped

/-! ## Safety -/

/-- With the invariant, a benign header is all that safety needs. -/
theorem Sound.safe (sound : connection.Sound secureConn)
    (benign : connection.HeaderBenign secureConn) :
    connection.Safe secureConn := by
  refine ⟨sound.toClean, ?_⟩
  rintro ⟨opened, state⟩ bad
  have framed := sound.framed opened
  simp only [Framed, state] at framed
  unfold Connection.step
  simp only [opened, iteration, state]
  unfold PackageHeader.Bad at bad
  rcases readContentLen_of_benign (benign ⟨opened, state⟩) with
    ⟨nonneg, more, below⟩ | ⟨zero, -, setting⟩
  · rw [receiveContent_tooLarge (by omega) below]
    exact ⟨_, rfl, rfl⟩
  · rw [receiveContent_zero zero, zero]
    refine ⟨_, rfl, ?_⟩
    unfold Connection.afterContent
    rw [if_pos (by omega)]
    unfold Connection.onReceiveCompletePackage
    rw [if_pos]
    · rfl
    · exact setting

/-- Only a security setting closes the connection at the end of a content. -/
theorem afterContent_status (opened : connection.status = .opened)
    (command : connection.header.command ≠ ntfSecuritySetting)
    (readLen : Int) :
    (connection.afterContent secureConn readLen).status ≠ .closed := by
  have still : connection.status ≠ .closed := by
    rw [opened]
    exact nofun
  unfold Connection.afterContent
  split
  · unfold Connection.onReceiveCompletePackage
    rw [if_neg]
    · cases secureConn with
      | none => exact still
      | some decryptor =>
          dsimp only
          split
          · exact still
          · exact nofun
    · exact command
  · exact still

/-- Any other header does not close the connection. -/
theorem benign_of_safe (safe : connection.Safe secureConn) :
    connection.HeaderBenign secureConn := by
  intro atContent
  by_contra harmful
  obtain ⟨next, stepped, closed⟩ :=
    safe.closes atContent (bad_of_not_benign harmful)
  obtain ⟨opened, state⟩ := atContent
  simp only [Connection.step, opened, iteration, state] at stepped
  rcases readContentLen_of_not_benign harmful with
    ⟨above, negative⟩ | ⟨zero, command⟩
  · obtain ⟨fault, faulty⟩ := receiveContent_neg negative above
    rw [faulty] at stepped
    cases stepped
    cases closed
  · rw [receiveContent_zero zero] at stepped
    cases stepped
    exact afterContent_status opened command _ closed

/-- A run is safe exactly if the connection handles every header of it. -/
theorem safe_throughout_iff (receiveBuffer : PackageBuffer)
    (events : List Event) :
    (machine secureConn receiveBuffer).Throughout (Safe secureConn) events ↔
      (machine secureConn receiveBuffer).Throughout
        (HeaderBenign secureConn) events := by
  constructor
  · intro safe first second split connection reaches
    exact benign_of_safe (safe first second split connection reaches)
  · intro benign
    have sound : (machine secureConn receiveBuffer).Throughout
        (Sound secureConn) events := by
      have meets : (machine secureConn receiveBuffer).StepsMeet
          (fun connection _ => connection.HeaderBenign secureConn) events :=
        fun first event second split connection reaches =>
          benign first (event :: second) split connection reaches
      refine meets.throughout ?_ ?_
      · exact ⟨⟨nofun, nofun⟩, fun _ => Nat.succ_pos _⟩
      · intro connection event next sound benign stepped
        exact sound.step benign stepped
    intro first second split connection reaches
    exact (sound first second split connection reaches).safe
      (benign first second split connection reaches)

end Rules

/-! ## A header of length minus one -/

/-- Version 2, command 1030 and content length minus one. -/
def negativeHeader : List UInt8 :=
  [2, 0, 6, 4, 0, 0, 255, 255, 255, 255, 0, 0, 0, 0, 0, 0, 0, 0]

/-- On a plain connection the buffer loop does not end. -/
theorem not_safe_always :
    ¬∀ secureConn receiveBuffer events,
      (machine secureConn receiveBuffer).Throughout (Safe secureConn)
        events := by
  intro always
  have announced : ((machine none PackageBuffer.init).run
      (init PackageBuffer.init)
      [.called (.received negativeHeader)]).map (fun connection =>
        (connection.status, connection.receiveState,
          connection.header.contentLength)) =
      some (.opened, .receiveContent, -1) := by
    decide +kernel
  obtain ⟨connection, reaches, shape⟩ := Option.map_eq_some_iff.mp announced
  obtain ⟨opened, rest⟩ := Prod.mk.inj shape
  obtain ⟨state, length⟩ := Prod.mk.inj rest
  have safe := always none PackageBuffer.init
    [.called (.received negativeHeader)] _ [] (List.append_nil _).symm
    connection reaches
  have nonneg : 0 ≤ connection.header.contentLength :=
    benign_of_safe safe ⟨opened, state⟩
  rw [length] at nonneg
  exact absurd nonneg (by decide)

/-- The blocks as they are. -/
def copyDecryptor : AesBlockDecryptor where
  decrypt block := block
  length_decrypt _ same := same

/-- On a secure connection the length is rounded up to zero, and the package
is pushed with its length of minus one. -/
example :
    ((machine (some copyDecryptor) PackageBuffer.init).run
      (init PackageBuffer.init)
      [.called (.received negativeHeader), .passed]).map (fun connection =>
        connection.inQueue.map fun package =>
          (package.header.contentLength, package.contentBuffer)) =
      some [(-1, [])] := by
  decide +kernel

end Connection

end Foundation
end Spaceless
