import Mathlib.Data.List.Infix
import Spaceless.Foundation.Stream
import Spaceless.Logic.Framing

/-!
# The loop of `receive_for_state`

The loop by itself: an iteration reads a part of a package and tells what the
connection has to do.  Whether whole blocks are read is asked for in every
iteration, since a connection that opens becomes secure between two packages.
-/

namespace Spaceless
namespace Foundation

open Crypto Logic

/-- What `NetworkConnectionImpl` keeps of the package that it receives. -/
structure Receiver where
  receiveBuffer : PackageBuffer
  receiveLen : Nat
  receiveState : ReceiveState
  deriving DecidableEq

namespace Receiver

/-- What comes of an iteration. -/
inductive Outcome
  | goesOn
  | complete
  | invalidVersion (command : Int)
  | noSpace
  | closedByPeer
  | faulty (fault : ReceiveFault)
  deriving DecidableEq

def init : Receiver where
  receiveBuffer := .init
  receiveLen := 0
  receiveState := .receiveHeader

def header (receiver : Receiver) : PackageHeader :=
  receiver.receiveBuffer.header

/-- The number of content bytes to read, by whether there is a secure
connection. -/
def readContentLen (isSecure : Bool) (rawLen : Int) : Int :=
  if isSecure = true then getContentLength rawLen else rawLen

/-- Bytes arrive in the buffer. -/
def accept (receiver : Receiver) (offset : Nat) (bytes : List UInt8)
    (fits : offset + bytes.length ≤ receiver.receiveBuffer.length) :
    Receiver :=
  { receiver with
    receiveBuffer := receiver.receiveBuffer.write offset bytes fits
    receiveLen := receiver.receiveLen + bytes.length }

/-- A call of `receiveBytes` and what follows it. -/
def receiveBytes (receiver : Receiver) (offset : Nat) (length : Int)
    (proceed : Receiver → Outcome × Receiver) :
    SocketResult → Option (Outcome × Receiver)
  | .unavailable => some (.goesOn, receiver)
  | .closedByPeer => some (.closedByPeer, receiver)
  | .received bytes =>
      if bytes = [] ∨ length < bytes.length then none
      else if fits :
          offset + bytes.length ≤ receiver.receiveBuffer.length then
        some (proceed (receiver.accept offset bytes fits))
      else some (.faulty .outside, receiver)

/-- `receive_for_state` after header bytes. -/
def afterHeader (receiver : Receiver) : Outcome × Receiver :=
  if headerBaseLen ≤ receiver.receiveLen ∧
      receiver.header.version ≠ packageVersion then
    (.invalidVersion receiver.header.command, receiver)
  else if receiver.receiveLen = headerLen then
    (.goesOn,
      { receiver with receiveLen := 0, receiveState := .receiveContent })
  else (.goesOn, receiver)

/-- `receive_for_state` after content bytes. -/
def afterContent (readLen : Int) (receiver : Receiver) :
    Outcome × Receiver :=
  if (receiver.receiveLen : Int) = readLen then
    (.complete,
      { receiver with receiveLen := 0, receiveState := .receiveHeader })
  else (.goesOn, receiver)

/-- An iteration ends without a call of `receiveBytes`, or it calls and goes
on with the result. -/
inductive Iteration
  | ends (result : Outcome × Receiver)
  | calls (receiver : Receiver) (offset : Nat) (length : Int)
      (proceed : Receiver → Outcome × Receiver)

def receiveHeader (receiver : Receiver) : Iteration :=
  .calls receiver receiver.receiveLen
    ((headerLen : Int) - receiver.receiveLen) afterHeader

def receiveContent (isSecure : Bool) (receiver : Receiver) : Iteration :=
  let readLen := readContentLen isSecure receiver.header.contentLength
  if readLen = 0 then .ends (receiver.afterContent readLen)
  else
    match PackageBuffer.expectContentLength (sizeOfInt readLen)
        receiver.receiveBuffer with
    | (.error fault, _) => .ends (.faulty (.buffer fault), receiver)
    | (.ok _, buffer) =>
        if sizeSub buffer.length headerLen < sizeOfInt readLen then
          .ends (.noSpace, { receiver with receiveBuffer := buffer })
        else
          .calls { receiver with receiveBuffer := buffer }
            (headerLen + receiver.receiveLen)
            (readLen - receiver.receiveLen) (afterContent readLen)

def iteration (isSecure : Bool) (receiver : Receiver) : Iteration :=
  match receiver.receiveState with
  | .receiveHeader => receiver.receiveHeader
  | .receiveContent => receiver.receiveContent isSecure

/-- One iteration of `receive_for_state`. -/
def step (isSecure : Bool) (receiver : Receiver)
    (event : Connection.Event) : Option (Outcome × Receiver) :=
  match receiver.iteration isSecure, event with
  | .ends result, .passed => some result
  | .calls later offset length proceed, .called result =>
      later.receiveBytes offset length proceed result
  | _, _ => none

end Receiver

/-! ## The loop of an open connection -/

namespace Connection

variable {secureConn : Option AesBlockDecryptor} {connection : Connection}

/-- The part of a connection that receives. -/
def receiver (connection : Connection) : Receiver :=
  ⟨connection.receiveBuffer, connection.receiveLen, connection.receiveState⟩

theorem readContentLen_eq (secureConn : Option AesBlockDecryptor)
    (rawLen : Int) :
    Receiver.readContentLen secureConn.isSome rawLen =
      readContentLen secureConn rawLen := by
  cases secureConn <;> rfl

theorem receiver_onReceiveCompletePackage (connection : Connection) :
    (connection.onReceiveCompletePackage secureConn).receiver =
      connection.receiver := by
  unfold onReceiveCompletePackage
  split
  · rfl
  · cases secureConn with
    | none => rfl
    | some decryptor =>
        dsimp only
        split <;> rfl

theorem receiver_afterHeader (connection : Connection) :
    connection.receiver.afterHeader.2 = connection.afterHeader.receiver := by
  unfold Receiver.afterHeader afterHeader processCheckPackageVersion
  change (if headerBaseLen ≤ connection.receiveLen ∧
      connection.header.version ≠ packageVersion then
        (.invalidVersion connection.header.command, connection.receiver)
      else if connection.receiveLen = headerLen then
        (.goesOn, { connection.receiver with
          receiveLen := 0, receiveState := .receiveContent })
      else (.goesOn, connection.receiver) :
        Receiver.Outcome × Receiver).2 = _
  have finished : (if connection.receiveLen = headerLen then
      (.goesOn, { connection.receiver with
        receiveLen := 0, receiveState := .receiveContent })
      else (.goesOn, connection.receiver) :
        Receiver.Outcome × Receiver).2 =
      (if connection.receiveLen = headerLen then
        { connection with receiveLen := 0, receiveState := .receiveContent }
      else connection : Connection).receiver := by
    split <;> rfl
  by_cases few : connection.receiveLen < headerBaseLen
  · rw [if_neg (by omega), if_pos few]
    exact finished
  · rw [if_neg few]
    by_cases same : connection.header.version = packageVersion
    · rw [if_neg (fun both => both.2 same), if_neg (not_not.mpr same)]
      exact finished
    · rw [if_pos ⟨Nat.not_lt.mp few, same⟩, if_pos same]
      by_cases told : connection.header.command = ntfInvalidVersion
      · rw [if_neg (not_not.mpr told)]
        rfl
      · rw [if_pos told]
        rfl

theorem receiver_afterContent (connection : Connection) (readLen : Int) :
    (connection.receiver.afterContent readLen).2 =
      (connection.afterContent secureConn readLen).receiver := by
  unfold Receiver.afterContent afterContent
  by_cases whole : (connection.receiveLen : Int) = readLen
  · rw [if_pos whole, receiver_onReceiveCompletePackage]
    exact congrArg Prod.snd (if_pos whole)
  · rw [if_neg whole]
    exact congrArg Prod.snd (if_neg whole)

theorem receiver_receiveBytes {offset : Nat} {length : Int}
    {proceed : Connection → Connection}
    {tell : Receiver → Receiver.Outcome × Receiver}
    (same : ∀ connection,
      (tell connection.receiver).2 = (proceed connection).receiver)
    (connection : Connection) (result : SocketResult) :
    (connection.receiver.receiveBytes offset length tell result).map
        Prod.snd =
      (connection.receiveBytes offset length proceed result).map receiver := by
  cases result with
  | unavailable | closedByPeer => rfl
  | received bytes =>
      simp only [Receiver.receiveBytes, receiveBytes]
      by_cases impossible : bytes = [] ∨ length < bytes.length
      · rw [if_pos impossible, if_pos impossible]
        rfl
      · rw [if_neg impossible, if_neg impossible]
        by_cases fits :
            offset + bytes.length ≤ connection.receiveBuffer.length
        · have fitsAlone : offset + bytes.length ≤
              connection.receiver.receiveBuffer.length := fits
          rw [dif_pos fitsAlone, dif_pos fits]
          exact congrArg some (same
            ((connection.ask offset length).accept offset bytes fits))
        · have tooLong : ¬offset + bytes.length ≤
              connection.receiver.receiveBuffer.length := fits
          rw [dif_neg tooLong, dif_neg fits]
          rfl

/-- Two iterations that read alike. -/
inductive Matches : Receiver.Iteration → Iteration → Prop
  | ends {result : Receiver.Outcome × Receiver} {next : Connection}
      (same : result.2 = next.receiver) : Matches (.ends result) (.ends next)
  | calls {connection : Connection} {offset : Nat} {length : Int}
      {tell : Receiver → Receiver.Outcome × Receiver}
      {proceed : Connection → Connection}
      (same : ∀ connection,
        (tell connection.receiver).2 = (proceed connection).receiver) :
      Matches (.calls connection.receiver offset length tell)
        (.calls connection offset length proceed)

theorem matches_receiveContent (connection : Connection) :
    Matches (connection.receiver.receiveContent secureConn.isSome)
      (connection.receiveContent secureConn) := by
  unfold Receiver.receiveContent receiveContent
  rw [readContentLen_eq,
    show connection.receiver.header = connection.header from rfl,
    show connection.receiver.receiveBuffer = connection.receiveBuffer from rfl]
  generalize readContentLen secureConn connection.header.contentLength =
    readLen
  dsimp only
  by_cases zero : readLen = 0
  · rw [if_pos zero, if_pos zero]
    exact .ends (receiver_afterContent connection readLen)
  · rw [if_neg zero, if_neg zero]
    generalize PackageBuffer.expectContentLength (sizeOfInt readLen)
      connection.receiveBuffer = expected
    rcases expected with ⟨fault | enough, buffer⟩
    · exact .ends rfl
    · change Matches
        (if sizeSub buffer.length headerLen < sizeOfInt readLen then _
          else _)
        (if sizeSub buffer.length headerLen < sizeOfInt readLen then _
          else _)
      split
      · exact .ends rfl
      · exact @Matches.calls { connection with receiveBuffer := buffer } _ _ _
          _ fun later => receiver_afterContent later readLen

theorem matches_iteration (connection : Connection) :
    Matches (connection.receiver.iteration secureConn.isSome)
      (connection.iteration secureConn) := by
  unfold Receiver.iteration iteration
  rw [show connection.receiver.receiveState = connection.receiveState from
    rfl]
  cases connection.receiveState with
  | receiveHeader => exact .calls receiver_afterHeader
  | receiveContent => exact matches_receiveContent connection

/-- The loop by itself is the loop of an open connection. -/
theorem step_receiver (opened : connection.status = .opened)
    (event : Event) :
    (connection.receiver.step secureConn.isSome event).map Prod.snd =
      (connection.step secureConn event).map receiver := by
  unfold Receiver.step step
  rw [if_pos opened]
  have reads : Matches (connection.receiver.iteration secureConn.isSome)
      (connection.iteration secureConn) := matches_iteration connection
  generalize connection.receiver.iteration secureConn.isSome = alone,
    connection.iteration secureConn = inside at reads
  cases reads with
  | ends same =>
      cases event with
      | passed => exact congrArg some same
      | called result => rfl
  | calls same =>
      cases event with
      | passed => rfl
      | called result => exact receiver_receiveBytes same _ result

end Connection

/-! ## A part of a package -/

/-- The version is told by the first two bytes. -/
theorem PackageHeader.version_of_take {header : PackageHeader}
    (inRange : header.InRange) {buffer : PackageBuffer} {count : Nat}
    (start : 2 ≤ count)
    (part : buffer.data.take count = header.toBytes.take count) :
    buffer.header.version = header.version := by
  have two := congrArg (List.take 2) part
  rw [List.take_take, List.take_take, Nat.min_eq_left start] at two
  conv_rhs => rw [← ofBytes_toBytes inRange [], List.append_nil]
  change shortOfBytes (buffer.data.take 2) =
    shortOfBytes (header.toBytes.take 2)
  rw [two]

namespace Receiver

/-- The bytes of the current package that lie in the buffer. -/
def pending (receiver : Receiver) : List UInt8 :=
  match receiver.receiveState with
  | .receiveHeader => receiver.receiveBuffer.data.take receiver.receiveLen
  | .receiveContent =>
      receiver.receiveBuffer.data.take (headerLen + receiver.receiveLen)

/-- Between two packages. -/
structure Idle (receiver : Receiver) : Prop where
  state : receiver.receiveState = .receiveHeader
  receiveLen : receiver.receiveLen = 0

/-- The number of content bytes that is asked for behind a header. -/
structure Asks (isSecure : Bool) (header : PackageHeader)
    (length : Nat) : Prop where
  inRange : header.InRange
  version : header.version = packageVersion
  asked : readContentLen isSecure header.contentLength = length
  small : length ≤ maxContentLen

/-- How far the receiver has come in a package with the header, of which it
asks for a content of the length. -/
def Amid (header : PackageHeader) (length : Nat)
    (receiver : Receiver) : Prop :=
  match receiver.receiveState with
  | .receiveHeader => receiver.receiveLen < headerLen
  | .receiveContent =>
      receiver.receiveBuffer.data.take headerLen = header.toBytes ∧
        (receiver.receiveLen = 0 ∨
          receiver.receiveLen < length ∧
            length + headerLen ≤ receiver.receiveBuffer.length)

/-- The loop ends with a call of `receiveBytes` that finds no bytes. -/
def Waits (isSecure : Bool) (receiver : Receiver) : Prop :=
  ∃ result, receiver.step isSecure (.called .unavailable) = some result

/-- The loop goes on by itself, or takes any positive number of bytes up to
the length that it asks for. -/
def Proceeds (isSecure : Bool) (receiver : Receiver) : Prop :=
  (∃ result, receiver.step isSecure .passed = some result) ∨
    ∃ length, 0 < length ∧ ∀ bytes, bytes ≠ [] → bytes.length ≤ length →
      ∃ result, receiver.step isSecure (.called (.received bytes)) =
        some result

variable {isSecure : Bool} {header : PackageHeader} {length : Nat}
  {receiver next : Receiver} {outcome : Outcome} {event : Connection.Event}

theorem idle_init : init.Idle := ⟨rfl, rfl⟩

theorem Idle.amid (idle : receiver.Idle) (header : PackageHeader)
    (length : Nat) : receiver.Amid header length := by
  unfold Amid
  rw [idle.state, idle.receiveLen]
  exact Nat.succ_pos _

theorem Idle.pending_eq (idle : receiver.Idle) : receiver.pending = [] := by
  unfold pending
  rw [idle.state, idle.receiveLen]
  exact List.take_zero

theorem step_of_header (state : receiver.receiveState = .receiveHeader)
    (event : Connection.Event) :
    receiver.step isSecure event =
      match event with
      | .passed => none
      | .called result =>
          receiver.receiveBytes receiver.receiveLen
            ((headerLen : Int) - receiver.receiveLen) afterHeader result := by
  unfold step iteration
  rw [state]
  cases event <;> rfl

theorem iteration_of_content
    (state : receiver.receiveState = .receiveContent) :
    receiver.iteration isSecure = receiver.receiveContent isSecure := by
  unfold iteration
  rw [state]

/-- The content gets its space, and is read behind the header. -/
theorem receiveContent_reads
    (asked : readContentLen isSecure receiver.header.contentLength = length)
    (positive : 0 < length) (small : length ≤ maxContentLen) :
    ∃ buffer : PackageBuffer,
      buffer.data.take headerLen =
        receiver.receiveBuffer.data.take headerLen ∧
      (length + headerLen ≤ receiver.receiveBuffer.length →
        buffer = receiver.receiveBuffer) ∧
      length + headerLen ≤ buffer.length ∧
      receiver.receiveContent isSecure =
        .calls { receiver with receiveBuffer := buffer }
          (headerLen + receiver.receiveLen)
          ((length : Int) - receiver.receiveLen) (afterContent length) := by
  have bound : length < 18446744073709551616 := by
    unfold maxContentLen at small
    omega
  have size : sizeOfInt (length : Int) = length := by
    rw [sizeOfInt_of_nonneg (Int.natCast_nonneg _) (by omega)]
    exact Int.toNat_natCast _
  obtain ⟨buffer, expected, space, same, kept⟩ :=
    receiver.receiveBuffer.expectContentLength_fits small
  refine ⟨buffer, same, kept, space, ?_⟩
  unfold receiveContent
  rw [asked]
  dsimp only
  rw [if_neg (by omega), size, expected]
  dsimp only
  rw [if_neg]
  rw [buffer.sizeSub_length]
  omega

theorem receiveContent_empty
    (asked : readContentLen isSecure receiver.header.contentLength = 0) :
    receiver.receiveContent isSecure =
      .ends (receiver.afterContent 0) := by
  unfold receiveContent
  rw [asked]
  exact if_pos rfl

/-- Bytes of a header have arrived. -/
theorem afterHeader_of_take (inRange : header.InRange)
    (version : header.version = packageVersion)
    (part : receiver.receiveBuffer.data.take receiver.receiveLen =
      header.toBytes.take receiver.receiveLen) :
    receiver.afterHeader =
      (.goesOn,
        if receiver.receiveLen = headerLen then
          { receiver with receiveLen := 0, receiveState := .receiveContent }
        else receiver) := by
  unfold afterHeader
  rw [if_neg]
  · split <;> rfl
  · rintro ⟨enough, other⟩
    apply other
    rw [← version]
    apply PackageHeader.version_of_take inRange ?_ part
    unfold headerBaseLen at enough
    omega

/-! ## One iteration -/

/-- What an iteration comes to in the midst of a package: more of it lies in
the buffer, or all that is asked for. -/
def Continues (header : PackageHeader) (length : Nat) (bytes : List UInt8) :
    Outcome × Receiver → Prop
  | (.goesOn, next) => next.Amid header length ∧ next.pending = bytes
  | (.complete, next) =>
      next.Idle ∧ bytes.length = headerLen + length ∧
        next.receiveBuffer.data.take (headerLen + length) = bytes
  | _ => False

/-- Bytes of the header lie in the buffer. -/
theorem continues_afterHeader (asks : Asks isSecure header length)
    (state : receiver.receiveState = .receiveHeader)
    (within : receiver.receiveLen ≤ headerLen)
    (part : receiver.receiveBuffer.data.take receiver.receiveLen =
      header.toBytes.take receiver.receiveLen) :
    Continues header length
      (receiver.receiveBuffer.data.take receiver.receiveLen)
      receiver.afterHeader := by
  rw [afterHeader_of_take asks.inRange asks.version part]
  by_cases whole : receiver.receiveLen = headerLen
  · rw [if_pos whole]
    rw [whole] at part ⊢
    refine ⟨⟨?_, Or.inl rfl⟩, rfl⟩
    rw [part]
    exact List.take_of_length_le (Nat.le_refl _)
  · rw [if_neg whole]
    refine ⟨?_, ?_⟩
    · unfold Amid
      rw [state]
      exact Nat.lt_of_le_of_ne within whole
    · rw [pending, state]

/-- Bytes of a header continue those in the buffer. -/
theorem Amid.stepHeader (asks : Asks isSecure header length)
    (amid : receiver.Amid header length)
    (state : receiver.receiveState = .receiveHeader)
    (connected : event ≠ .called .closedByPeer)
    (starts : (receiver.pending ++ event.bytes).take headerLen <+:
      header.toBytes)
    {result : Outcome × Receiver}
    (stepped : receiver.step isSecure event = some result) :
    Continues header length (receiver.pending ++ event.bytes) result := by
  rw [step_of_header state] at stepped
  cases event with
  | passed => cases stepped
  | called socketResult =>
      cases socketResult with
      | closedByPeer => exact absurd rfl connected
      | unavailable =>
          cases stepped
          exact ⟨amid, (List.append_nil _).symm⟩
      | received bytes =>
          simp only [receiveBytes] at stepped
          split at stepped
          · cases stepped
          rename_i possible
          have within := (not_or.mp possible).2
          have bounds := receiver.receiveBuffer.length_bounds
          have short : receiver.receiveLen + bytes.length ≤ headerLen := by
            omega
          have fits : receiver.receiveLen + bytes.length ≤
              receiver.receiveBuffer.length := by
            unfold headerLen at short
            omega
          have inside : receiver.receiveLen ≤
              receiver.receiveBuffer.data.length :=
            Nat.le_trans (Nat.le_add_right _ _) fits
          rw [dif_pos fits] at stepped
          cases stepped
          have held : (receiver.accept receiver.receiveLen bytes
              fits).receiveBuffer.data.take
                (receiver.receiveLen + bytes.length) =
              receiver.pending ++ bytes := by
            rw [pending, state]
            exact Content.take_writeAt_end inside
          have count : (receiver.pending ++ bytes).length =
              receiver.receiveLen + bytes.length := by
            rw [pending, state, List.length_append, List.length_take,
              Nat.min_eq_left inside]
          have part : receiver.pending ++ bytes =
              header.toBytes.take (receiver.receiveLen + bytes.length) := by
            change (receiver.pending ++ bytes).take headerLen <+: _ at starts
            rw [List.take_of_length_le (count ▸ short)] at starts
            rw [List.prefix_iff_eq_take.mp starts, count]
          have continues := continues_afterHeader asks
            (show (receiver.accept receiver.receiveLen bytes
              fits).receiveState = .receiveHeader from state) short
            (held.trans part)
          rwa [show (receiver.accept receiver.receiveLen bytes
            fits).receiveLen = receiver.receiveLen + bytes.length from rfl,
            held] at continues

/-- Bytes of the content lie in the buffer. -/
theorem continues_afterContent
    (state : receiver.receiveState = .receiveContent)
    (starts : receiver.receiveBuffer.data.take headerLen = header.toBytes)
    (within : receiver.receiveLen ≤ length)
    (space : length + headerLen ≤ receiver.receiveBuffer.length) :
    Continues header length
      (receiver.receiveBuffer.data.take (headerLen + receiver.receiveLen))
      (receiver.afterContent length) := by
  unfold afterContent
  by_cases whole : receiver.receiveLen = length
  · rw [if_pos (congrArg Nat.cast whole), whole]
    refine ⟨⟨rfl, rfl⟩, ?_, rfl⟩
    unfold PackageBuffer.length at space
    rw [List.length_take]
    omega
  · rw [if_neg (by omega)]
    refine ⟨?_, ?_⟩
    · unfold Amid
      rw [state]
      exact ⟨starts, Or.inr ⟨Nat.lt_of_le_of_ne within whole, space⟩⟩
    · rw [pending, state]

/-- Bytes of a content continue those in the buffer. -/
theorem Amid.stepContent (asks : Asks isSecure header length)
    (amid : receiver.Amid header length)
    (state : receiver.receiveState = .receiveContent)
    (connected : event ≠ .called .closedByPeer)
    {result : Outcome × Receiver}
    (stepped : receiver.step isSecure event = some result) :
    Continues header length (receiver.pending ++ event.bytes) result := by
  unfold Amid at amid
  rw [state] at amid
  obtain ⟨starts, place⟩ := amid
  have asked : readContentLen isSecure receiver.header.contentLength =
      length := by
    rw [Receiver.header, PackageHeader.of_take asks.inRange starts]
    exact asks.asked
  unfold step at stepped
  rw [iteration_of_content state] at stepped
  by_cases empty : length = 0
  · subst empty
    rw [receiveContent_empty asked] at stepped
    cases event with
    | called socketResult => cases stepped
    | passed =>
        cases stepped
        have unread : receiver.receiveLen = 0 := by omega
        have bounds := receiver.receiveBuffer.length_bounds
        have continues := @continues_afterContent header 0 _ state starts
          (Nat.le_of_eq unread) (by unfold headerLen; omega)
        rw [show receiver.pending ++ Connection.Event.bytes .passed =
          receiver.pending from List.append_nil _, pending, state]
        exact continues
  · obtain ⟨buffer, same, kept, space, reads⟩ :=
      receiveContent_reads asked (Nat.pos_of_ne_zero empty) asks.small
    rw [reads] at stepped
    have held : buffer.data.take (headerLen + receiver.receiveLen) =
        receiver.pending := by
      rw [pending, state]
      rcases place with none | ⟨-, enough⟩
      · rw [none]
        exact same
      · rw [kept enough]
    cases event with
    | passed => cases stepped
    | called socketResult =>
        cases socketResult with
        | closedByPeer => exact absurd rfl connected
        | unavailable =>
            cases stepped
            refine ⟨?_, ?_⟩
            · unfold Amid
              rw [state]
              exact ⟨same.trans starts,
                place.imp_right fun early => ⟨early.1, space⟩⟩
            · rw [show receiver.pending ++
                Connection.Event.bytes (.called .unavailable) =
                  receiver.pending from List.append_nil _, ← held]
              simp only [pending, state]
        | received bytes =>
            simp only [receiveBytes] at stepped
            split at stepped
            · cases stepped
            rename_i possible
            have within := (not_or.mp possible).2
            have fits : headerLen + receiver.receiveLen + bytes.length ≤
                buffer.length := by
              omega
            have inside : headerLen + receiver.receiveLen ≤
                buffer.data.length :=
              Nat.le_trans (Nat.le_add_right _ _) fits
            rw [dif_pos fits] at stepped
            cases stepped
            let accepted := ({ receiver with
              receiveBuffer := buffer } : Receiver).accept
                (headerLen + receiver.receiveLen) bytes fits
            have continues : Continues header length
                (accepted.receiveBuffer.data.take
                  (headerLen + accepted.receiveLen))
                (accepted.afterContent length) := by
              refine @continues_afterContent header length accepted state
                ?_ ?_ ?_
              · exact (Content.take_writeAt (Nat.le_add_right _ _)
                  inside).trans (same.trans starts)
              · change receiver.receiveLen + bytes.length ≤ _
                omega
              · change _ ≤ (buffer.write _ bytes fits).length
                rwa [PackageBuffer.length_write]
            have whole : accepted.receiveBuffer.data.take
                (headerLen + accepted.receiveLen) =
                  receiver.pending ++ bytes := by
              rw [← held]
              change (buffer.write _ bytes fits).data.take
                (headerLen + (receiver.receiveLen + bytes.length)) = _
              rw [← Nat.add_assoc]
              exact Content.take_writeAt_end inside
            rw [whole] at continues
            exact continues

/-- An iteration in the midst of a package. -/
theorem Amid.step (asks : Asks isSecure header length)
    (amid : receiver.Amid header length)
    (connected : event ≠ .called .closedByPeer)
    (starts : (receiver.pending ++ event.bytes).take headerLen <+:
      header.toBytes)
    {result : Outcome × Receiver}
    (stepped : receiver.step isSecure event = some result) :
    Continues header length (receiver.pending ++ event.bytes) result := by
  cases state : receiver.receiveState with
  | receiveHeader =>
      exact amid.stepHeader asks state connected starts stepped
  | receiveContent => exact amid.stepContent asks state connected stepped

/-- Between two packages, without bytes. -/
theorem Idle.step_silent (idle : receiver.Idle)
    (connected : event ≠ .called .closedByPeer) (silent : event.bytes = [])
    {result : Outcome × Receiver}
    (stepped : receiver.step isSecure event = some result) :
    result = (.goesOn, receiver) := by
  rw [step_of_header idle.state] at stepped
  cases event with
  | passed => cases stepped
  | called socketResult =>
      cases socketResult with
      | closedByPeer => exact absurd rfl connected
      | unavailable => exact (Option.some.inj stepped).symm
      | received bytes =>
          have nothing : bytes = [] := silent
          simp only [receiveBytes, nothing, true_or, if_true] at stepped
          cases stepped

/-- A package of which nothing lies in the buffer has not started. -/
theorem idle_of_pending (nothing : receiver.pending = []) :
    receiver.Idle := by
  have bounds := receiver.receiveBuffer.length_bounds
  unfold PackageBuffer.length at bounds
  have count := congrArg List.length nothing
  unfold pending at count
  cases state : receiver.receiveState with
  | receiveHeader =>
      refine ⟨state, ?_⟩
      simp only [state, List.length_take, List.length_nil] at count
      omega
  | receiveContent =>
      simp only [state, List.length_take, List.length_nil, headerLen] at count
      omega

theorem step_content (state : receiver.receiveState = .receiveContent)
    (starts : receiver.receiveBuffer.data.take headerLen = header.toBytes)
    (asks : Asks isSecure header length) (positive : 0 < length) :
    ∃ buffer : PackageBuffer, ∀ result,
      receiver.step isSecure (.called result) =
        ({ receiver with receiveBuffer := buffer } : Receiver).receiveBytes
          (headerLen + receiver.receiveLen)
          ((length : Int) - receiver.receiveLen) (afterContent length)
          result := by
  have asked : readContentLen isSecure receiver.header.contentLength =
      length := by
    rw [Receiver.header, PackageHeader.of_take asks.inRange starts]
    exact asks.asked
  obtain ⟨buffer, -, -, -, reads⟩ :=
    receiveContent_reads asked positive asks.small
  refine ⟨buffer, fun result => ?_⟩
  unfold step
  rw [iteration_of_content state, reads]

theorem exists_receiveBytes {offset : Nat} {asked : Int}
    {proceed : Receiver → Outcome × Receiver} {bytes : List UInt8}
    (some : bytes ≠ []) (within : (bytes.length : Int) ≤ asked) :
    ∃ result, receiver.receiveBytes offset asked proceed
      (.received bytes) = .some result := by
  unfold receiveBytes
  dsimp only
  rw [if_neg (by
    rintro (none | long)
    · exact some none
    · omega)]
  split <;> exact ⟨_, rfl⟩

/-- In the midst of a package the loop can go on. -/
theorem Amid.proceeds (asks : Asks isSecure header length)
    (amid : receiver.Amid header length) : receiver.Proceeds isSecure := by
  unfold Amid at amid
  cases state : receiver.receiveState with
  | receiveHeader =>
      rw [state] at amid
      dsimp only at amid
      refine Or.inr ⟨headerLen - receiver.receiveLen, by omega, ?_⟩
      intro bytes nonempty within
      rw [step_of_header state]
      exact exists_receiveBytes nonempty (by omega)
  | receiveContent =>
      rw [state] at amid
      obtain ⟨starts, place⟩ := amid
      by_cases empty : length = 0
      · subst empty
        left
        unfold Receiver.step
        rw [iteration_of_content state, receiveContent_empty]
        · exact ⟨_, rfl⟩
        · rw [Receiver.header, PackageHeader.of_take asks.inRange starts]
          exact asks.asked
      · obtain ⟨buffer, reads⟩ :=
          step_content state starts asks (Nat.pos_of_ne_zero empty)
        refine Or.inr ⟨length - receiver.receiveLen, by omega, ?_⟩
        intro bytes nonempty within
        rw [reads]
        exact exists_receiveBytes nonempty (by omega)

theorem Idle.proceeds (idle : receiver.Idle) :
    receiver.Proceeds isSecure := by
  refine Or.inr ⟨headerLen, Nat.succ_pos _, ?_⟩
  intro bytes nonempty within
  rw [step_of_header idle.state, idle.receiveLen]
  exact exists_receiveBytes nonempty (by omega)

/-- A loop that waits has not read all of its package. -/
theorem Amid.short (asks : Asks isSecure header length)
    (amid : receiver.Amid header length)
    (waits : receiver.Waits isSecure) :
    receiver.pending.length < headerLen + length := by
  unfold Amid at amid
  cases state : receiver.receiveState with
  | receiveHeader =>
      rw [state] at amid
      dsimp only at amid
      rw [pending, state, List.length_take]
      omega
  | receiveContent =>
      rw [state] at amid
      obtain ⟨starts, place⟩ := amid
      rw [pending, state, List.length_take]
      rcases Nat.eq_zero_or_pos length with empty | positive
      · subst empty
        obtain ⟨result, stepped⟩ := waits
        unfold Receiver.step at stepped
        rw [iteration_of_content state, receiveContent_empty] at stepped
        · cases stepped
        · rw [Receiver.header, PackageHeader.of_take asks.inRange starts]
          exact asks.asked
      · omega

/-! ## A stream of packages -/

/-- What was taken from a stream of packages: some packages are done, and the
loop stands in the midst of the next one or between two of them. -/
structure Reads (frames done : List (List UInt8)) (taken : List UInt8)
    (isSecure : Bool) (receiver : Receiver) : Prop where
  cut : Cut frames done receiver.pending taken
  stands : receiver.Idle ∨ ∃ header body later,
    frames = done ++ (PackageHeader.toBytes header ++ body) :: later ∧
      Asks isSecure header body.length ∧
      receiver.Amid header body.length

/-- The next package is one for which the loop asks as it is. -/
def Expects (isSecure : Bool) (frames done : List (List UInt8)) : Prop :=
  ∀ frame later, frames = done ++ frame :: later →
    ∃ header body, frame = PackageHeader.toBytes header ++ body ∧
      Asks isSecure header body.length

variable {frames done : List (List UInt8)} {taken : List UInt8}

/-- The next package lies in the buffer. -/
structure Completes (frames done : List (List UInt8)) (taken : List UInt8)
    (isSecure : Bool) (receiver : Receiver) (frame : List UInt8) : Prop where
  next : ∃ later, frames = done ++ frame :: later
  framed : ∃ header body, frame = PackageHeader.toBytes header ++ body ∧
    Asks isSecure header body.length
  idle : receiver.Idle
  held : receiver.receiveBuffer.data.take frame.length = frame
  cut : Cut frames (done ++ [frame]) [] taken

theorem Reads.start (frames : List (List UInt8)) (isSecure : Bool) :
    Reads frames [] [] isSecure init :=
  ⟨by rw [idle_init.pending_eq]; exact .start frames, Or.inl idle_init⟩

theorem Reads.grow (reads : Reads frames done taken isSecure receiver)
    (later : List (List UInt8)) :
    Reads (frames ++ later) done taken isSecure receiver := by
  refine ⟨reads.cut.grow later, reads.stands.imp_right ?_⟩
  rintro ⟨header, body, rest, rfl, stands⟩
  exact ⟨header, body, rest ++ later, by simp, stands⟩

theorem Completes.reads {frame : List UInt8}
    (completes : Completes frames done taken isSecure receiver frame)
    (other : Bool) : Reads frames (done ++ [frame]) taken other receiver :=
  ⟨by rw [completes.idle.pending_eq]; exact completes.cut,
    Or.inl completes.idle⟩

/-- The loop has read the package to its end. -/
theorem Completes.length_eq {frame : List UInt8}
    (completes : Completes frames done taken isSecure receiver frame) :
    headerLen + (readContentLen isSecure
      receiver.header.contentLength).toNat = frame.length := by
  obtain ⟨header, body, rfl, asks⟩ := completes.framed
  have starts : receiver.receiveBuffer.data.take headerLen =
      header.toBytes := by
    have first := congrArg (List.take headerLen) completes.held
    rwa [List.take_take, List.length_append, header.length_toBytes,
      Nat.min_eq_left (Nat.le_add_right _ _),
      List.take_left' header.length_toBytes] at first
  rw [Receiver.header, PackageHeader.of_take asks.inRange starts,
    asks.asked, List.length_append, header.length_toBytes]
  rfl

/-- Whether it stands in a package or before it, the loop is in the midst of
what it expects. -/
theorem Reads.amid (reads : Reads frames done taken isSecure receiver)
    (expects : Expects isSecure frames done) {frame : List UInt8}
    {later : List (List UInt8)} (split : frames = done ++ frame :: later) :
    ∃ header body, frame = PackageHeader.toBytes header ++ body ∧
      Asks isSecure header body.length ∧
      receiver.Amid header body.length := by
  rcases reads.stands with idle | ⟨header, body, rest, same, asks, amid⟩
  · obtain ⟨header, body, rfl, asks⟩ := expects frame later split
    exact ⟨header, body, rfl, asks, idle.amid header body.length⟩
  · rw [split] at same
    obtain ⟨rfl, -⟩ := List.cons.inj (List.append_cancel_left same)
    exact ⟨header, body, rfl, asks, amid⟩

/-- An iteration on the stream goes on in its package or completes it. -/
theorem Reads.step (reads : Reads frames done taken isSecure receiver)
    (expects : Expects isSecure frames done)
    (connected : event ≠ .called .closedByPeer)
    (arrives : taken ++ event.bytes <+: frames.flatten)
    {result : Outcome × Receiver}
    (stepped : receiver.step isSecure event = some result) :
    result.1 = .goesOn ∧
        Reads frames done (taken ++ event.bytes) isSecure result.2 ∨
      result.1 = .complete ∧ ∃ frame,
        Completes frames done (taken ++ event.bytes) isSecure result.2
          frame := by
  by_cases silent : receiver.pending ++ event.bytes = []
  · obtain ⟨nothing, silent⟩ := List.append_eq_nil_iff.mp silent
    have idle : receiver.Idle := idle_of_pending nothing
    cases idle.step_silent connected silent stepped
    rw [silent, List.append_nil]
    exact Or.inl ⟨rfl, reads.cut, Or.inl idle⟩
  · obtain ⟨frame, later, split, within⟩ :=
      reads.cut.exists_frame arrives silent
    obtain ⟨header, body, rfl, asks, amid⟩ := reads.amid expects split
    have starts : (receiver.pending ++ event.bytes).take headerLen <+:
        header.toBytes := by
      have first := List.IsPrefix.take within headerLen
      rwa [List.append_assoc,
        List.take_left' header.length_toBytes] at first
    have continues : Continues header body.length
        (receiver.pending ++ event.bytes) result :=
      amid.step asks connected starts stepped
    have cut := reads.cut.extend event.bytes
    obtain ⟨outcome, next⟩ := result
    cases outcome with
    | goesOn =>
        obtain ⟨amid, held⟩ := continues
        left
        refine ⟨rfl, ?_, Or.inr ⟨header, body, later, split, asks, amid⟩⟩
        rw [held]
        exact cut
    | complete =>
        obtain ⟨idle, count, held⟩ := continues
        have whole : receiver.pending ++ event.bytes =
            header.toBytes ++ body := by
          rw [List.prefix_iff_eq_take.mp within]
          apply List.take_left'
          rw [List.length_append, header.length_toBytes, count]
        refine Or.inr ⟨rfl, _, ⟨later, split⟩, ⟨header, body, rfl, asks⟩,
          idle, ?_, cut.finish split whole⟩
        rw [List.length_append, header.length_toBytes, held, whole]
    | invalidVersion | noSpace | closedByPeer | faulty => cases continues

theorem Reads.proceeds (reads : Reads frames done taken isSecure receiver) :
    receiver.Proceeds isSecure := by
  rcases reads.stands with idle | ⟨header, body, later, split, asks, amid⟩
  · exact idle.proceeds
  · exact amid.proceeds asks

/-- At the end of the stream a loop that waits has read all packages. -/
theorem Reads.complete (reads : Reads frames done taken isSecure receiver)
    (expects : Expects isSecure frames done) (whole : taken = frames.flatten)
    (waits : receiver.Waits isSecure) : frames = done := by
  obtain ⟨later, rfl⟩ := reads.cut.within
  cases later with
  | nil => exact List.append_nil done
  | cons frame later =>
      obtain ⟨header, body, rfl, asks, amid⟩ := reads.amid expects rfl
      have short : receiver.pending.length < headerLen + body.length :=
        amid.short asks waits
      rw [reads.cut.pending_eq whole, List.flatten_cons, List.length_append,
        List.length_append, header.length_toBytes] at short
      omega

end Receiver

end Foundation
end Spaceless
