import Spaceless.Foundation.Establishment

/-!
# Handshakes that get out of step

An end with a secure connection asks for whole blocks, also behind the header
of a handshake package that is sent as it is.  A public key or a cipher text
of another length is never complete, and one that does not fit closes the
end: so a handshake completes exactly if both lengths are aligned.
-/

namespace Spaceless
namespace Foundation

open Crypto Logic

namespace Receiver

variable {isSecure : Bool} {header : PackageHeader} {body : List UInt8}
  {receiver : Receiver}

/-- A header lies in the buffer, and its content is next. -/
structure Headed (header : PackageHeader) (receiver : Receiver) : Prop where
  state : receiver.receiveState = .receiveContent
  receiveLen : receiver.receiveLen = 0
  starts : receiver.receiveBuffer.data.take headerLen = header.toBytes

/-- A header arrives as a whole. -/
theorem Idle.step_header (idle : receiver.Idle) (inRange : header.InRange)
    (version : header.version = packageVersion) (isSecure : Bool) :
    ∃ next, receiver.step isSecure (.called (.received header.toBytes)) =
        some (.goesOn, next) ∧ next.Headed header := by
  have bounds := receiver.receiveBuffer.length_bounds
  have fits : receiver.receiveLen + header.toBytes.length ≤
      receiver.receiveBuffer.length := by
    rw [idle.receiveLen, header.length_toBytes]
    unfold headerLen
    omega
  let accepted := receiver.accept receiver.receiveLen header.toBytes fits
  have whole : accepted.receiveLen = headerLen := by
    change receiver.receiveLen + header.toBytes.length = headerLen
    rw [idle.receiveLen, header.length_toBytes, Nat.zero_add]
  have starts : accepted.receiveBuffer.data.take headerLen =
      header.toBytes := by
    have written : accepted.receiveBuffer.data.take
        (receiver.receiveLen + header.toBytes.length) =
          receiver.receiveBuffer.data.take receiver.receiveLen ++
            header.toBytes :=
      Content.take_writeAt_end (by rw [idle.receiveLen]; exact Nat.zero_le _)
    rwa [idle.receiveLen, header.length_toBytes, Nat.zero_add,
      List.take_zero, List.nil_append] at written
  have part : accepted.receiveBuffer.data.take accepted.receiveLen =
      header.toBytes.take accepted.receiveLen := by
    rw [whole, starts]
    exact (List.take_of_length_le (Nat.le_refl _)).symm
  let next : Receiver :=
    { accepted with receiveLen := 0, receiveState := .receiveContent }
  refine ⟨next, ?_, ⟨rfl, rfl, starts⟩⟩
  rw [step_of_header idle.state]
  dsimp only [receiveBytes]
  have nonempty : header.toBytes ≠ [] := by
    intro none
    have length := header.length_toBytes
    rw [none] at length
    cases length
  rw [if_neg (by
    rintro (none | long)
    · exact nonempty none
    · rw [idle.receiveLen, header.length_toBytes] at long
      omega), dif_pos fits]
  have after := afterHeader_of_take inRange version part
  rw [if_pos whole] at after
  exact congrArg some after

theorem Idle.waits (idle : receiver.Idle) (isSecure : Bool) :
    receiver.Waits isSecure := by
  unfold Waits
  rw [step_of_header idle.state]
  exact ⟨_, rfl⟩

/-- The event in which a body arrives as a whole. -/
def bodyEvent (body : List UInt8) : Connection.Event :=
  if body = [] then .passed else .called (.received body)

theorem bytes_bodyEvent (body : List UInt8) :
    (bodyEvent body).bytes = body := by
  unfold bodyEvent
  split
  · next empty => exact empty.symm
  · rfl

/-- A body that is asked for arrives as a whole. -/
theorem Headed.step_body (headed : receiver.Headed header)
    (asks : Asks isSecure header body.length) :
    ∃ next, receiver.step isSecure (bodyEvent body) =
        some (.complete, next) ∧ next.Idle := by
  have asked := asks.asked
  rw [← PackageHeader.of_take asks.inRange headed.starts] at asked
  unfold bodyEvent step
  rw [iteration_of_content headed.state]
  by_cases empty : body = []
  · rw [if_pos empty]
    rw [empty] at asked
    rw [receiveContent_empty asked]
    refine ⟨_, congrArg some (if_pos ?_), rfl, rfl⟩
    rw [headed.receiveLen]
    rfl
  · rw [if_neg empty]
    obtain ⟨buffer, -, -, space, reads⟩ := receiveContent_reads asked
      (List.length_pos_of_ne_nil empty) asks.small
    have fits : headerLen + receiver.receiveLen + body.length ≤
        buffer.length := by
      rw [headed.receiveLen]
      omega
    rw [reads]
    dsimp only [receiveBytes]
    rw [if_neg (by
      rintro (none | long)
      · exact empty none
      · rw [headed.receiveLen] at long
        omega), dif_pos fits]
    refine ⟨_, congrArg some (if_pos ?_), rfl, rfl⟩
    change ((receiver.receiveLen + body.length : Nat) : Int) = body.length
    rw [headed.receiveLen, Nat.zero_add]

/-- A body that is followed by nothing is not complete: the loop asks for
more. -/
theorem Headed.step_part (headed : receiver.Headed header)
    (inRange : header.InRange) {length : Nat}
    (asked : readContentLen isSecure header.contentLength = length)
    (small : length ≤ maxContentLen) (nonempty : body ≠ [])
    (short : body.length < length) :
    ∃ next, receiver.step isSecure (.called (.received body)) =
        some (.goesOn, next) ∧ next.Waits isSecure := by
  have positive : 0 < length := Nat.lt_of_le_of_lt (Nat.zero_le _) short
  rw [← PackageHeader.of_take inRange headed.starts] at asked
  obtain ⟨buffer, same, -, space, reads⟩ :=
    receiveContent_reads asked positive small
  have fits : headerLen + receiver.receiveLen + body.length ≤
      buffer.length := by
    rw [headed.receiveLen]
    omega
  let next : Receiver := ({ receiver with
    receiveBuffer := buffer } : Receiver).accept
      (headerLen + receiver.receiveLen) body fits
  refine ⟨next, ?_, ?_⟩
  · unfold step
    rw [iteration_of_content headed.state, reads]
    dsimp only [receiveBytes]
    rw [if_neg (by
      rintro (none | long)
      · exact nonempty none
      · rw [headed.receiveLen] at long
        omega), dif_pos fits]
    refine congrArg some (if_neg ?_)
    change ((receiver.receiveLen + body.length : Nat) : Int) ≠ length
    rw [headed.receiveLen]
    omega
  · have starts : next.receiveBuffer.data.take headerLen =
        header.toBytes := by
      have kept : next.receiveBuffer.data.take headerLen =
          buffer.data.take headerLen :=
        Content.take_writeAt (Nat.le_add_right _ _)
          (Nat.le_trans (Nat.le_add_right _ _) fits)
      rw [kept, same, headed.starts]
    have askedNext : readContentLen isSecure next.header.contentLength =
        length := by
      rw [Receiver.header, PackageHeader.of_take inRange starts,
        ← PackageHeader.of_take inRange headed.starts]
      exact asked
    obtain ⟨buffer, -, -, -, reads⟩ :=
      receiveContent_reads askedNext positive small
    unfold Waits step
    rw [iteration_of_content (show next.receiveState = .receiveContent from
      headed.state), reads]
    exact ⟨_, rfl⟩

/-- A content that fits in no buffer. -/
theorem receiveContent_large (receiver : Receiver)
    (large : maxContentLen < sizeOfInt
      (readContentLen isSecure receiver.header.contentLength)) :
    (∃ fault, receiver.receiveContent isSecure =
        .ends (.faulty (.buffer fault), receiver)) ∨
      ∃ buffer, receiver.receiveContent isSecure =
        .ends (.noSpace, { receiver with receiveBuffer := buffer }) := by
  unfold receiveContent
  revert large
  generalize readContentLen isSecure receiver.header.contentLength = readLen
  intro large
  have some : readLen ≠ 0 := by
    rintro rfl
    exact Nat.not_lt_zero _ large
  dsimp only
  rw [if_neg some]
  revert large
  generalize sizeOfInt readLen = size
  intro large
  cases expected : PackageBuffer.expectContentLength size
    receiver.receiveBuffer with
  | mk enough buffer =>
      cases enough with
      | error fault => exact Or.inl ⟨fault, rfl⟩
      | ok enough =>
          have bounds := buffer.length_bounds
          unfold maxContentLen at large
          unfold maxBufferLen at bounds
          refine Or.inr ⟨buffer, if_pos ?_⟩
          rw [buffer.sizeSub_length]
          unfold headerLen
          omega

/-- A content that fits in no buffer ends the loop. -/
theorem Headed.step_large (headed : receiver.Headed header)
    (inRange : header.InRange)
    (large : maxContentLen <
      sizeOfInt (readContentLen isSecure header.contentLength)) :
    ∃ outcome next, receiver.step isSecure .passed = some (outcome, next) ∧
      (outcome = .noSpace ∨ ∃ fault, outcome = .faulty fault) := by
  have asked : readContentLen isSecure receiver.header.contentLength =
      readContentLen isSecure header.contentLength := by
    rw [Receiver.header, PackageHeader.of_take inRange headed.starts]
  unfold step
  rw [iteration_of_content headed.state]
  rcases receiver.receiveContent_large (asked ▸ large) with
    ⟨fault, ends⟩ | ⟨buffer, ends⟩
  · rw [ends]
    exact ⟨_, _, rfl, Or.inr ⟨_, rfl⟩⟩
  · rw [ends]
    exact ⟨_, _, rfl, Or.inl rfl⟩

end Receiver

namespace Details

open ConnectionState

namespace Session

variable {PublicKey PrivateKey : Type}
  {session : Session PublicKey PrivateKey}

/-! ## Packages that arrive as a whole -/

theorem length_zeroKey : (List.replicate 32 (0 : UInt8)).length = 32 :=
  List.length_replicate

/-- What the generator of random numbers gives here does not matter. -/
def someRandom : Random := ⟨List.replicate 32 0, [], length_zeroKey⟩

/-- Bytes arrive at an end, and its socket takes all that is sent. -/
def arrive (side : Side) (event : Connection.Event) : LinkEvent :=
  .receive side event someRandom fun _ => .whole

theorem undisturbed_arrive (side : Side) {event : Connection.Event}
    (connected : event ≠ .called .closedByPeer) :
    (arrive side event).Undisturbed :=
  ⟨connected, fun _ => SendResult.noConfusion⟩

section Arrive

variable {link next : Link PrivateKey} {side : Side}

/-- An undisturbed run leads to the link. -/
def Reachable (session : Session PublicKey PrivateKey)
    (link : Link PrivateKey) : Prop :=
  ∃ events, session.machine.Reaches events link ∧
    ∀ event ∈ events, event.Undisturbed

theorem Reachable.step (reachable : session.Reachable link)
    {event : LinkEvent} (undisturbed : event.Undisturbed)
    (stepped : session.step link event = some next) :
    session.Reachable next := by
  obtain ⟨events, reaches, calm⟩ := reachable
  refine ⟨events ++ [event], Machine.reaches_snoc_iff.mpr
    ⟨link, reaches, stepped⟩, ?_⟩
  intro other member
  rcases List.mem_append.mp member with earlier | last
  · exact calm other earlier
  · rw [List.mem_singleton.mp last]
    exact undisturbed

/-- An end after an iteration of its loop. -/
def iterated (session : Session PublicKey PrivateKey)
    (endpoint : Endpoint PrivateKey) (event : Connection.Event)
    (outcome : Receiver.Outcome) (receiver : Receiver) :
    Endpoint PrivateKey :=
  ({ endpoint with
    receiver := receiver
    taken := endpoint.taken ++ event.bytes } :
      Endpoint PrivateKey).conclude session.crypto someRandom
        (fun _ => .whole) outcome

variable (session) in
theorem step_arrive (isOpen : (link side).IsOpen)
    {event : Connection.Event} {outcome : Receiver.Outcome}
    {receiver : Receiver}
    (arrives : (link side).taken ++ event.bytes <+: (link side.other).wire)
    (iterates : (link side).receiver.step (link side).isSecure event =
      some (outcome, receiver)) :
    session.step link (arrive side event) = some (Function.update link side
      (session.iterated (link side) event outcome receiver)) := by
  unfold Session.step arrive
  rw [if_pos (show (link (LinkEvent.receive side event someRandom
    fun _ => .whole).side).IsOpen from isOpen)]
  unfold react
  dsimp only
  rw [if_pos arrives]
  unfold Endpoint.receive
  rw [iterates]
  rfl

/-- An end that stands between two packages took exactly those before. -/
theorem Sound.taken_eq (sound : session.Sound link)
    (idle : (link side).receiver.Idle) :
    (link side).taken = (link side).read.flatten := by
  rw [(sound.reads side).cut.taken, idle.pending_eq, List.append_nil]

theorem Sound.arrives (sound : session.Sound link)
    (idle : (link side).receiver.Idle) {frame part : List UInt8}
    {later : List (List UInt8)}
    (split : (link side.other).frames = (link side).read ++ frame :: later)
    (within : part <+: frame) :
    (link side).taken ++ part <+: (link side.other).wire := by
  rw [sound.taken_eq idle, Endpoint.wire, split, List.flatten_append,
    List.prefix_append_right_inj, List.flatten_cons]
  exact within.trans (List.prefix_append _ _)

/-- An end that has read all packages has nothing left to do. -/
theorem Sound.settled (sound : session.Sound link)
    (idle : (link side).receiver.Idle)
    (count : (link side).read.length = (link side.other).frames.length) :
    (link side).taken = (link side.other).wire ∧
      (link side).receiver.Waits (link side).isSecure := by
  refine ⟨?_, idle.waits _⟩
  rw [sound.taken_eq idle, (sound.reads side).cut.within.eq_of_length count]
  rfl

/-- A header arrives as a whole. -/
theorem Sound.readHeader (sound : session.Sound link)
    (reachable : session.Reachable link)
    (idle : (link side).receiver.Idle) {header : PackageHeader}
    (inRange : header.InRange) (version : header.version = packageVersion)
    {body : List UInt8} {later : List (List UInt8)}
    (split : (link side.other).frames =
      (link side).read ++ (header.toBytes ++ body) :: later) :
    ∃ next event receiver, session.step link event = some next ∧
      event.Undisturbed ∧ event.side = side ∧
      session.Reachable next ∧ receiver.Headed header ∧
      next side.other = link side.other ∧
      next side = { link side with
        receiver := receiver
        taken := (link side).taken ++ header.toBytes } := by
  obtain ⟨receiver, first, headed⟩ :=
    idle.step_header inRange version (link side).isSecure
  let event : Connection.Event := .called (.received header.toBytes)
  have stepped := step_arrive session (sound.isOpen side)
    (sound.arrives idle split (List.prefix_append _ _)) first
  have calm : (arrive side event).Undisturbed :=
    undisturbed_arrive side (by simp [event])
  exact ⟨_, arrive side event, receiver, stepped, calm, rfl,
    reachable.step calm stepped, headed,
    Function.update_of_ne (other_ne side) _ _, Function.update_self _ _ _⟩

/-- An end between two packages can read the next one. -/
theorem Sound.readNext (lawful : session.Lawful)
    (sound : session.Sound link) (reachable : session.Reachable link)
    (idle : (link side).receiver.Idle)
    (expects : Expects link side) {frame : List UInt8}
    {later : List (List UInt8)}
    (split : (link side.other).frames =
      (link side).read ++ frame :: later) :
    ∃ next, session.Reachable next ∧ session.Sound next ∧
      next side.other = link side.other ∧ (next side).receiver.Idle ∧
      (next side).read.length = (link side).read.length + 1 ∧
      (next side).opening.given = (link side).opening.given := by
  obtain ⟨header, body, rfl, asks⟩ := expects frame later split
  obtain ⟨middle, event, receiver, stepped, calm, isSide, reachableMiddle,
    headed, atOther, atSide⟩ :=
    sound.readHeader reachable idle asks.inRange asks.version split
  obtain ⟨last, second, idleLast⟩ := headed.step_body asks
  have soundMiddle : session.Sound middle :=
    sound.step lawful calm (isSide ▸ expects) stepped
  have expectsMiddle : Expects middle side := by
    rw [Expects, atSide, atOther]
    exact expects
  have arrives : (middle side).taken ++ (Receiver.bodyEvent body).bytes <+:
      (middle side.other).wire := by
    rw [atSide, atOther, Receiver.bytes_bodyEvent]
    have whole := sound.arrives idle split List.prefix_rfl
    rwa [← List.append_assoc] at whole
  have iterates : (middle side).receiver.step (middle side).isSecure
      (Receiver.bodyEvent body) = some (.complete, last) := by
    rw [atSide]
    exact second
  have steppedBody := step_arrive session
    (soundMiddle.isOpen side) arrives iterates
  have calmBody : (arrive side (Receiver.bodyEvent body)).Undisturbed := by
    apply undisturbed_arrive
    unfold Receiver.bodyEvent
    split <;> simp
  refine ⟨_, reachableMiddle.step calmBody steppedBody,
    soundMiddle.step lawful calmBody expectsMiddle steppedBody, ?_, ?_, ?_,
    ?_⟩
  · rw [Function.update_of_ne (other_ne side)]
    exact atOther
  · rw [Function.update_self]
    exact idleLast
  · rw [Function.update_self, atSide]
    exact List.length_append
  · rw [Function.update_self, atSide]
    rfl

end Arrive

/-! ## A run that comes to rest -/

/-- An end that is open can be given a package. -/
theorem Reachable.sendPackage (lawful : session.Lawful)
    (key : Aligned session.keyPair.publicKey.length)
    (cipher : Aligned session.cipherLength) {link : Link PrivateKey}
    (reachable : session.Reachable link) (side : Side)
    (package : ProtocolPackage)
    (small : package.header.contentLength ≤ 65504) :
    session.Reachable (Function.update link side
      ((link side).advance session.crypto
        (.sendPackage package.toPackageEntry fun _ => .whole))) := by
  obtain ⟨events, reaches, calm⟩ := reachable
  have isOpen :=
    (Sound.of_reaches lawful key cipher reaches calm).isOpen side
  let event : LinkEvent := .sendPackage side package fun _ => .whole
  have undisturbed : event.Undisturbed :=
    ⟨small, fun _ => SendResult.noConfusion⟩
  have stepped : session.step link event = some (Function.update link side
        ((link side).advance session.crypto
          (.sendPackage package.toPackageEntry fun _ => .whole))) :=
    (if_pos isOpen : (if (link side).IsOpen then _ else _) = _)
  exact Reachable.step ⟨events, reaches, calm⟩ undisturbed stepped

/-- An end sends its packages of the handshake and what it is given. -/
theorem Phase.length_frames_le {active passive : Endpoint PrivateKey}
    (phase : session.Phase active passive) :
    active.frames.length ≤ active.opening.given.length + 1 ∧
      passive.frames.length ≤ passive.opening.given.length + 2 := by
  simp only [Endpoint.frames, List.length_map]
  have request : session.request.length = 2 := rfl
  have one (cipher : List UInt8) : (answer cipher).length = 1 := rfl
  have given (endpoint : Endpoint PrivateKey) :
      endpoint.opening.packages.length = endpoint.opening.given.length :=
    List.length_map _
  cases phase with
  | opening opens _ awaits =>
      rw [awaits.starting.sent, request, Opening.sent, opens.raw]
      exact ⟨Nat.zero_le _, Nat.le_add_left _ _⟩
  | starting starts _ awaits =>
      rw [awaits.starting.sent, request, starts.sent]
      exact ⟨Nat.zero_le _, Nat.le_add_left _ _⟩
  | answered _ talks awaits =>
      rw [awaits.starting.sent, request, talks.started.sent,
        List.length_append, List.length_map, one, given]
      omega
  | established _ talks answers =>
      rw [talks.started.sent, answers.started.sent, List.length_append,
        List.length_append, List.length_map, List.length_map, one, request,
        given, given]
      omega

/-- Two ends between packages, one of which has a package to read, can read
it, and are between packages again. -/
theorem Sound.readOn (lawful : session.Lawful)
    (key : Aligned session.keyPair.publicKey.length)
    (cipher : Aligned session.cipherLength) {link : Link PrivateKey}
    (sound : session.Sound link) (reachable : session.Reachable link)
    (idle : ∀ side, (link side).receiver.Idle)
    (rest : ¬∀ side,
      (link side).read.length = (link side.other).frames.length) :
    ∃ next, session.Reachable next ∧
      (∀ side, (next side).receiver.Idle) ∧
      (∀ side, (next side).opening.given = (link side).opening.given) ∧
      (next .active).read.length + (next .passive).read.length =
        (link .active).read.length + (link .passive).read.length + 1 := by
  obtain ⟨side, unread⟩ := not_forall.mp rest
  obtain ⟨later, whole⟩ := (sound.reads side).cut.within
  cases later with
  | nil =>
      rw [List.append_nil] at whole
      exact absurd (congrArg List.length whole) unread
  | cons frame later =>
      obtain ⟨next, reachableNext, -, same, idleNext, count, given⟩ :=
        sound.readNext lawful reachable (idle side)
          (sound.expects lawful key cipher side) whole.symm
      refine ⟨next, reachableNext, fun this => ?_, fun this => ?_, ?_⟩
      · rcases eq_or_eq_other side this with rfl | rfl
        · exact idleNext
        · rw [same]
          exact idle _
      · rcases eq_or_eq_other side this with rfl | rfl
        · exact given
        · rw [same]
      · cases side <;> simp only [Side.other] at same <;>
          rw [same, count] <;> omega

/-- Two ends between packages can read on until nothing is left to do, without
being given anything more.  Each read package is one less of those that the
ends send in all. -/
theorem Reachable.exists_quiet (lawful : session.Lawful)
    (key : Aligned session.keyPair.publicKey.length)
    (cipher : Aligned session.cipherLength) {link : Link PrivateKey}
    (reachable : session.Reachable link)
    (idle : ∀ side, (link side).receiver.Idle) :
    ∃ next, session.Reachable next ∧ Quiet next ∧
      ∀ side, (next side).opening.given = (link side).opening.given := by
  obtain ⟨left, bound⟩ : ∃ left,
      (link .active).opening.given.length +
          (link .passive).opening.given.length + 3 ≤
        (link .active).read.length + (link .passive).read.length + left :=
    ⟨_, Nat.le_add_left _ _⟩
  induction left generalizing link with
  | zero =>
      obtain ⟨events, reaches, calm⟩ := reachable
      have sound := Sound.of_reaches lawful key cipher reaches calm
      obtain ⟨ofActive, ofPassive⟩ := sound.phase.length_frames_le
      have readActive := (sound.reads .active).cut.within.length_le
      have readPassive := (sound.reads .passive).cut.within.length_le
      simp only [Side.other] at readActive readPassive
      refine ⟨link, ⟨events, reaches, calm⟩, fun side => ?_, fun _ => rfl⟩
      apply sound.settled (idle side)
      cases side <;> simp only [Side.other] <;> omega
  | succ left inductionHypothesis =>
      have sound : session.Sound link := by
        obtain ⟨events, reaches, calm⟩ := reachable
        exact Sound.of_reaches lawful key cipher reaches calm
      by_cases rest : ∀ side,
          (link side).read.length = (link side.other).frames.length
      · exact ⟨link, reachable,
          fun side => sound.settled (idle side) (rest side), fun _ => rfl⟩
      obtain ⟨next, reachableNext, idleNext, given, count⟩ :=
        sound.readOn lawful key cipher reachable idle rest
      obtain ⟨last, reachableLast, quiet, keeps⟩ :=
        inductionHypothesis reachableNext idleNext (by
          rw [given, given, count]
          omega)
      exact ⟨last, reachableLast, quiet,
        fun side => (keeps side).trans (given side)⟩

/-! ## A length that is not aligned -/

/-- An end with a secure connection asks for too much, or for more than
fits. -/
theorem getContentLength_misaligned {length : Nat}
    (small : length < 2147483648) (misaligned : ¬Aligned length) :
    maxContentLen < sizeOfInt (getContentLength length) ∨
      ∃ asked : Nat, getContentLength length = asked ∧ length < asked ∧
        asked ≤ maxContentLen ∧ 0 < length := by
  unfold Aligned aesBlockSize at misaligned
  unfold maxContentLen
  by_cases short : length ≤ 65504
  · right
    have count : sizeOfInt (length : Int) = length := by
      rw [sizeOfInt_of_nonneg (Int.natCast_nonneg _) (by omega)]
      exact Int.toNat_natCast _
    obtain ⟨blocks, above, least⟩ :=
      @aesCipherLength_of_le length (by omega)
    refine ⟨aesCipherLength length, ?_, ?_, ?_, ?_⟩
    · unfold getContentLength
      rw [count, intOfSize_of_lt (by omega)]
    · omega
    · omega
    · omega
  · left
    by_cases inInt : (length : Int) ≤ 2147483632
    · obtain ⟨above, blocks, below⟩ :=
        getContentLength_of_nonneg (Int.natCast_nonneg length) inInt
      rw [sizeOfInt_of_nonneg (by omega) (by omega)]
      omega
    · rw [getContentLength_of_gt (by omega) (by omega)]
      decide

section Misframed

variable {link next : Link PrivateKey} {side : Side}

/-- An iteration that finds no space, or a buffer that is at fault, ends the
connection. -/
theorem iterated_not_open (endpoint : Endpoint PrivateKey)
    (event : Connection.Event) {outcome : Receiver.Outcome}
    (ends : outcome = .noSpace ∨ ∃ fault, outcome = .faulty fault)
    (receiver : Receiver) :
    ¬(session.iterated endpoint event outcome receiver).IsOpen := by
  rintro ⟨isOpen, faultless⟩
  rcases ends with rfl | ⟨fault, rfl⟩
  · exact Opening.close_not_open _ isOpen
  · cases faultless

/-- A package of the framework with such a length keeps the handshake from
its end. -/
theorem Sound.misframed (completes : session.Completes)
    (sound : session.Sound link) (reachable : session.Reachable link)
    (idle : (link side).receiver.Idle)
    (secure : (link side).isSecure = true)
    {command : Int} {bytes : List UInt8}
    (low : -2147483648 ≤ command) (high : command < 2147483648)
    (small : bytes.length < 2147483648)
    (split : (link side.other).frames =
      (link side).read ++ [(controlPackage command bytes).validBytes])
    (settled : (link side.other).taken = (link side).wire ∧
      (link side.other).receiver.Waits (link side.other).isSecure) :
    Aligned bytes.length := by
  by_contra misaligned
  rw [validBytes_controlPackage small] at split
  have inRange := controlHeader_inRange low high small
  obtain ⟨middle, event, receiver, -, -, -, reachableMiddle, headed, atOther,
    atSide⟩ := sound.readHeader reachable idle inRange rfl split
  obtain ⟨events, reaches, calm⟩ := reachableMiddle
  have isOpen : (middle side).IsOpen :=
    ((completes events middle reaches calm).1 side).isOpen
  have asks : Receiver.readContentLen (middle side).isSecure
      (controlHeader command bytes.length).contentLength =
        getContentLength bytes.length := by
    rw [atSide]
    change Receiver.readContentLen (link side).isSecure _ = _
    rw [secure]
    rfl
  have atReceiver : (middle side).receiver = receiver := by
    rw [atSide]
  rw [← atReceiver] at headed
  have whole := sound.arrives idle split List.prefix_rfl
  rw [← List.append_assoc] at whole
  rcases getContentLength_misaligned small misaligned with
    large | ⟨asked, same, short, fits, positive⟩
  · rw [← asks] at large
    obtain ⟨outcome, last, iterates, ends⟩ := headed.step_large inRange large
    have arrives : (middle side).taken ++ Connection.Event.bytes .passed <+:
        (middle side.other).wire := by
      rw [atSide, atOther]
      exact (List.append_nil _).symm ▸
        (List.prefix_append _ _).trans whole
    have stepped := step_arrive session isOpen arrives iterates
    obtain ⟨events, reaches, calm⟩ :=
      Reachable.step ⟨events, reaches, calm⟩
        (undisturbed_arrive side (by simp)) stepped
    have still := ((completes events _ reaches calm).1 side).isOpen
    rw [Function.update_self] at still
    exact iterated_not_open _ _ ends last still
  · obtain ⟨last, iterates, waits⟩ := headed.step_part inRange
      (asks.trans same) fits (List.length_pos_iff.mp positive) short
    have arrives : (middle side).taken ++
        Connection.Event.bytes (.called (.received bytes)) <+:
          (middle side.other).wire := by
      rw [atSide, atOther]
      exact whole
    have stepped := step_arrive session isOpen arrives iterates
    obtain ⟨events, reaches, calm⟩ :=
      Reachable.step ⟨events, reaches, calm⟩
        (undisturbed_arrive side (by simp)) stepped
    let next := Function.update middle side
      (session.iterated (middle side) (.called (.received bytes)) .goesOn last)
    have nextSide : next side = { link side with
        receiver := last
        taken := (link side).taken ++
          (controlHeader command bytes.length).toBytes ++ bytes } := by
      refine (Function.update_self side _ middle).trans ?_
      rw [atSide]
      rfl
    have nextOther : next side.other = link side.other :=
      (Function.update_of_ne (other_ne side) _ middle).trans atOther
    have quiet : Quiet next := by
      intro this
      rcases eq_or_eq_other side this with rfl | rfl
      · rw [nextSide, nextOther]
        refine ⟨?_, ?_⟩
        · rw [Endpoint.wire, split, sound.taken_eq idle,
            List.flatten_append, List.append_assoc]
          simp
        · rw [atSide] at waits
          exact waits
      · rw [other_other, nextOther, nextSide]
        exact settled
    have read := ((completes events next reaches calm).2 quiet).2 side
    rw [nextSide, nextOther] at read
    have count := congrArg List.length (read.trans split)
    rw [List.length_append, List.length_singleton] at count
    exact Nat.succ_ne_self _ count.symm

end Misframed

/-! ## Which handshakes complete -/

section Active

variable {active passive : Endpoint PrivateKey}

/-- The active end after its first package. -/
theorem Phase.of_read_one (phase : session.Phase active passive)
    (read : active.read.length = 1) :
    active.opening.Starting .activeOpen none [] ∧ session.Awaits passive := by
  cases phase with
  | opening _ none => omega
  | starting starts _ awaits => exact ⟨starts, awaits⟩
  | answered _ talks | established _ talks =>
      have two := talks.read
      simp only [request, List.length_cons, List.length_nil] at two
      omega

/-- The active end after its second package, and before the first one of the
passive end. -/
theorem Phase.of_read_two (phase : session.Phase active passive)
    (read : active.read.length = 2) (unread : passive.read.length = 0) :
    ∃ aesKey cipher, session.Exchanges aesKey cipher ∧
      session.Talks aesKey (answer cipher) session.request [] passive
        active ∧ session.Awaits passive := by
  cases phase with
  | opening _ none => omega
  | starting _ one => omega
  | answered exchanges talks awaits => exact ⟨_, _, exchanges, talks, awaits⟩
  | established _ _ answers =>
      have some := answers.read
      simp only [answer, List.length_cons, List.length_nil] at some
      omega

end Active

theorem split_last {frames done first : List (List UInt8)}
    {last : List UInt8} (within : done <+: frames)
    (split : frames = first ++ [last]) (count : done.length = first.length) :
    frames = done ++ [last] := by
  have same : done = first := by
    rw [split] at within
    exact (List.prefix_of_prefix_length_le within
      (List.prefix_append first [last]) (Nat.le_of_eq count)).eq_of_length
        count
  rw [split, same]

/-- A handshake completes exactly if the public key and the cipher text
consist of blocks and fit in a buffer. -/
theorem completes_iff (lawful : session.Lawful) :
    session.Completes ↔
      Aligned session.keyPair.publicKey.length ∧
        Aligned session.cipherLength := by
  constructor
  · intro completes
    have sound : session.Sound session.machine.start := .start lawful
    have reachable : session.Reachable session.machine.start :=
      ⟨[], Machine.reaches_nil, by simp⟩
    have idle (side : Side) :
        (session.machine.start side).receiver.Idle := Receiver.idle_init
    -- the active end reads the setting
    have requests : (session.machine.start .passive).frames =
        session.request.map PackageEntry.validBytes :=
      congrArg _ (starting_passive lawful).sent
    obtain ⟨asked, reachableAsked, soundAsked, samePassive, idleAsked,
      readAsked, givenAsked⟩ := sound.readNext lawful reachable
        (idle .active) (sound.phase.expectsActive lawful
          (sound.fits .passive) (by
            intro one
            cases one)) requests
    have passiveAsked : asked .passive = session.machine.start .passive :=
      samePassive
    obtain ⟨starts, awaits⟩ := soundAsked.phase.of_read_one readAsked
    -- then the public key
    have splitKey : (asked .passive).frames = (asked .active).read ++
        [(controlPackage reqStartCrypto
          session.keyPair.publicKey).validBytes] := by
      have both : (asked .passive).frames =
          [(controlPackage ntfSecuritySetting
              [SecuritySetting.openSecurity.toByte]).validBytes] ++
            [(controlPackage reqStartCrypto
              session.keyPair.publicKey).validBytes] :=
        (congrArg Endpoint.frames passiveAsked).trans requests
      exact split_last (soundAsked.reads .active).cut.within both readAsked
    have settledPassive := @Sound.settled _ _ _ asked .passive soundAsked
      (passiveAsked ▸ idle .passive) (by
        change (asked .passive).read.length = (asked .active).frames.length
        rw [awaits.read, Endpoint.frames, starts.sent]
        rfl)
    have key : Aligned session.keyPair.publicKey.length :=
      Sound.misframed completes soundAsked reachableAsked idleAsked
        (isSecure_of_present starts.present) (by decide) (by decide)
        lawful.publicKey splitKey settledPassive
    obtain ⟨answered, reachableAnswered, soundAnswered, stillPassive,
      idleAnswered, readAnswered, givenAnswered⟩ :=
        soundAsked.readNext lawful reachableAsked idleAsked
          (soundAsked.phase.expectsActive lawful (soundAsked.fits .passive)
            fun _ => key) splitKey
    have passiveAnswered : answered .passive =
        session.machine.start .passive := stillPassive.trans samePassive
    have unread : (answered .passive).read.length = 0 := by
      rw [passiveAnswered]
      rfl
    obtain ⟨aesKey, cipher, exchanges, talks, waits⟩ :=
      soundAnswered.phase.of_read_two
        (readAnswered.trans (congrArg Nat.succ readAsked)) unread
    -- and the passive end reads the answer
    have nothing : (answered .active).opening.packages = [] :=
      congrArg (List.map Prod.snd) (givenAnswered.trans givenAsked)
    have splitAnswer : (answered .active).frames =
        (answered .passive).read ++
          [(controlPackage rspStartCrypto cipher).validBytes] := by
      rw [Endpoint.frames, talks.started.sent, nothing,
        List.eq_nil_of_length_eq_zero unread]
      rfl
    have settledActive := @Sound.settled _ _ _ answered .active soundAnswered
      idleAnswered (by
        change (answered .active).read.length =
          (answered .passive).frames.length
        rw [talks.read, Endpoint.frames, waits.starting.sent]
        rfl)
    have small : cipher.length < 2147483648 := by
      rw [exchanges.length]
      exact lawful.cipher
    refine ⟨key, ?_⟩
    rw [← exchanges.length]
    exact @Sound.misframed _ _ _ answered .passive completes soundAnswered
      reachableAnswered (passiveAnswered ▸ idle .passive) waits.isSecure _ _
      (by decide) (by decide) small splitAnswer settledActive
  · rintro ⟨key, cipher⟩
    exact completes_of_aligned lawful key cipher

/-! ## Two key sizes -/

/-- A library whose cipher texts start with the plain text. -/
def plainCrypto (cipherLength : Nat) : CryptoLibrary Unit Unit where
  loadFromString _ := some ()
  rsaEncrypt plain _ _ :=
    some (plain ++ List.replicate (cipherLength - plain.length) 0)
  rsaDecrypt cipher _ := some (cipher.take 32)
  encryptor _ := ProtocolPackage.copyEncryptor
  decryptor _ := Connection.copyDecryptor

/-- A session by the lengths of its public key and its cipher texts. -/
def plainSession (keyLength cipherLength : Nat) : Session Unit Unit where
  crypto := plainCrypto cipherLength
  keyPair := ⟨List.replicate keyLength 48, ()⟩
  cipherLength := cipherLength
  socket _ := .whole

theorem lawful_plainSession {keyLength cipherLength : Nat}
    (keyFits : keyLength < 2147483648) (enough : 32 ≤ cipherLength)
    (cipherFits : cipherLength < 2147483648) :
    (plainSession keyLength cipherLength).Lawful where
  exchanges := by
    refine ⟨(), rfl, fun random => ⟨_, rfl, ?_, ?_⟩⟩
    · rw [List.length_append, List.length_replicate, random.length_aesKey]
      change 32 + (cipherLength - 32) = cipherLength
      omega
    · exact congrArg some (List.take_left' random.length_aesKey)
  inverts _ := ProtocolPackage.copyDecryptor_inverts
  publicKey := by
    change (List.replicate keyLength (48 : UInt8)).length < 2147483648
    rwa [List.length_replicate]
  cipher := cipherFits
  calm _ := SendResult.noConfusion

theorem aligned_plainSession {keyLength cipherLength : Nat} :
    Aligned (plainSession keyLength cipherLength).keyPair.publicKey.length ↔
      Aligned keyLength := by
  change Aligned (List.replicate keyLength (48 : UInt8)).length ↔ _
  rw [List.length_replicate]

instance (length : Nat) : Decidable (Aligned length) :=
  inferInstanceAs (Decidable (_ ∧ _))

/-- Keys of 1024 bits are notified in 320 characters, those of 2048 bits in
584, which are no blocks. -/
theorem completes_iff_plainSession :
    (plainSession 320 128).Completes ∧ ¬(plainSession 584 256).Completes := by
  refine ⟨(completes_iff (lawful_plainSession (by decide) (by decide)
    (by decide))).mpr ⟨aligned_plainSession.mpr (by decide), by decide⟩, ?_⟩
  intro completes
  have both := (completes_iff (lawful_plainSession (by decide) (by decide)
    (by decide))).mp completes
  exact absurd (aligned_plainSession.mp both.1) (by decide)

/-- Both ends are given a package before the setting has arrived, and read on
until nothing is left to do. -/
theorem relays_throughout_bothWays :
    ∃ events link, (plainSession 320 128).machine.Reaches events link ∧
      (∀ event ∈ events, event.Undisturbed) ∧ Quiet link ∧
      ∀ side, pushed (link side) =
        [some (ProtocolPackage.zeros 3 (by decide)).toPackageEntry] := by
  have lawful : (plainSession 320 128).Lawful :=
    lawful_plainSession (by decide) (by decide) (by decide)
  have key : Aligned (plainSession 320 128).keyPair.publicKey.length :=
    aligned_plainSession.mpr (by decide)
  have start : (plainSession 320 128).Reachable
      (plainSession 320 128).machine.start :=
    ⟨[], Machine.reaches_nil, by simp⟩
  have given := (start.sendPackage lawful key (by decide) .active
    (ProtocolPackage.zeros 3 (by decide)) (by decide)).sendPackage lawful key
      (by decide) .passive (ProtocolPackage.zeros 3 (by decide)) (by decide)
  obtain ⟨link, ⟨events, reaches, undisturbed⟩, quiet, same⟩ :=
    given.exists_quiet lawful key (by decide) (by
      intro side
      cases side <;> exact Receiver.idle_init)
  have relays := relays_throughout lawful key (by decide) reaches undisturbed
  refine ⟨events, link, reaches, undisturbed, quiet, fun side => ?_⟩
  rw [relays.all quiet, Opening.packages, same]
  cases side <;> rfl

end Session

end Details

end Foundation
end Spaceless
