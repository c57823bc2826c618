import Spaceless.Foundation.Handshake

/-!
# Runs of a handshake

As long as nothing disturbs the two ends, and each asks for as many bytes as
the other one sends, every event keeps them in step: they go through the
phases of the handshake together, and what one end is given the other end
pushes to its in queue.
-/

namespace Spaceless
namespace Foundation
namespace Details

open Crypto Logic ConnectionState

namespace Session

variable {PublicKey PrivateKey : Type}
  {session : Session PublicKey PrivateKey}

/-- What holds as long as nothing disturbs the link and every package is asked
for as it is sent. -/
structure Sound (session : Session PublicKey PrivateKey)
    (link : Link PrivateKey) : Prop where
  phase : session.Phase (link .active) (link .passive)
  fits : ∀ side, ∀ entry ∈ (link side).opening.packages, Fits entry
  faultless : ∀ side, (link side).fault = none
  reads : ∀ side, Receiver.Reads (link side.other).frames (link side).read
    (link side).taken (link side).isSecure (link side).receiver

/-- The end asks for the next package as it is sent. -/
def Expects (link : Link PrivateKey) (side : Side) : Prop :=
  Receiver.Expects (link side).isSecure (link side.other).frames
    (link side).read

section Sound

variable {link next : Link PrivateKey} {side : Side}

theorem eq_or_eq_other (side this : Side) :
    this = side ∨ this = side.other := by
  cases side <;> cases this <;> decide

theorem other_ne (side : Side) : side.other ≠ side := by
  cases side <;> decide

theorem other_other (side : Side) : side.other.other = side := by
  cases side <;> rfl

theorem Sound.isOpen (sound : session.Sound link) (side : Side) :
    (link side).IsOpen := by
  refine ⟨?_, sound.faultless side⟩
  cases side with
  | active => exact sound.phase.isOpen.1
  | passive => exact sound.phase.isOpen.2

/-- One end has changed. -/
theorem Sound.update (sound : session.Sound link)
    {endpoint : Endpoint PrivateKey}
    (phase : session.Phase (Function.update link side endpoint .active)
      (Function.update link side endpoint .passive))
    (grows : (link side).opening.Grows endpoint.opening)
    (fits : ∀ entry ∈ endpoint.opening.packages, Fits entry)
    (faultless : endpoint.fault = none)
    (reads : Receiver.Reads (link side.other).frames endpoint.read
      endpoint.taken endpoint.isSecure endpoint.receiver) :
    session.Sound (Function.update link side endpoint) := by
  refine ⟨phase, ?_, ?_, ?_⟩ <;> intro this <;>
    rcases eq_or_ne this side with rfl | other
  · rwa [Function.update_self]
  · rw [Function.update_of_ne other]
    exact sound.fits this
  · rwa [Function.update_self]
  · rw [Function.update_of_ne other]
    exact sound.faultless this
  · rwa [Function.update_self, Function.update_of_ne (other_ne this)]
  · have isSide : this.other = side :=
      ((eq_or_eq_other this side).resolve_left (Ne.symm other)).symm
    have before := sound.reads this
    obtain ⟨later, whole⟩ := grows.sent.map PackageEntry.validBytes
    have more : endpoint.frames = (link side).frames ++ later := whole.symm
    rw [Function.update_of_ne other, isSide, Function.update_self, more]
    rw [isSide] at before
    exact before.grow later

/-- The loops do not matter to the phase. -/
theorem Phase.congr {active passive active' passive' : Endpoint PrivateKey}
    (phase : session.Phase active passive)
    (activeOpening : active'.opening = active.opening)
    (activeRead : active'.read = active.read)
    (passiveOpening : passive'.opening = passive.opening)
    (passiveRead : passive'.read = passive.read) :
    session.Phase active' passive' := by
  obtain ⟨_, _, _, _, _⟩ := active'
  obtain ⟨_, _, _, _, _⟩ := passive'
  cases activeOpening
  cases activeRead
  cases passiveOpening
  cases passiveRead
  cases phase with
  | opening opens read awaits =>
      exact .opening opens read ⟨awaits.starting, awaits.read⟩
  | starting starts read awaits =>
      exact .starting starts read ⟨awaits.starting, awaits.read⟩
  | answered exchanges talks awaits =>
      exact .answered exchanges ⟨talks.started, talks.read, talks.received⟩
        ⟨awaits.starting, awaits.read⟩
  | established exchanges talks answers =>
      exact .established exchanges
        ⟨talks.started, talks.read, talks.received⟩
        ⟨answers.started, answers.read, answers.received⟩

/-- An end sends a package of its own, or is writable. -/
theorem Sound.own (sound : session.Sound link) {event : OpeningEvent}
    (own : event.Own)
    (fits : ∀ entry ∈ ((link side).opening.advance session.crypto
      event).packages, Fits entry) :
    session.Sound (Function.update link side
      ((link side).advance session.crypto event)) := by
  have reads := sound.reads side
  cases side with
  | active =>
      obtain ⟨phase, keeps⟩ := sound.phase.ownActive own
      refine sound.update phase keeps.grows fits
        (sound.faultless .active) ?_
      rw [keeps.isSecure]
      exact reads
  | passive =>
      obtain ⟨phase, keeps⟩ := sound.phase.ownPassive own
      refine sound.update phase keeps.grows fits
        (sound.faultless .passive) ?_
      rw [keeps.isSecure]
      exact reads

/-- The loop of an end goes on in a package. -/
theorem Sound.goesOn (sound : session.Sound link) {receiver : Receiver}
    {taken : List UInt8}
    (reads : Receiver.Reads (link side.other).frames (link side).read taken
      (link side).isSecure receiver) :
    session.Sound (Function.update link side
      { link side with receiver := receiver, taken := taken }) := by
  refine sound.update ?_ ⟨List.prefix_rfl, List.prefix_rfl⟩ (sound.fits side)
    (sound.faultless side) reads
  cases side <;> exact sound.phase.congr rfl rfl rfl rfl

/-- The loop of an end completes a package. -/
theorem Sound.complete (lawful : session.Lawful)
    (sound : session.Sound link) {random : Random} {socket : Int → SendResult}
    (calm : ∀ packageId, socket packageId ≠ .thrown)
    {receiver : Receiver} {taken frame : List UInt8}
    (completes : Receiver.Completes (link side.other).frames
      (link side).read taken (link side).isSecure receiver frame) :
    session.Sound (Function.update link side
      (({ link side with receiver := receiver, taken := taken } :
        Endpoint PrivateKey).conclude session.crypto random socket
          .complete)) := by
  let reading : Endpoint PrivateKey :=
    { link side with receiver := receiver, taken := taken }
  have frameRead : reading.package = frame := by
    have length : headerLen + (Receiver.readContentLen reading.isSecure
      reading.receiver.header.contentLength).toNat = frame.length :=
        completes.length_eq
    change receiver.receiveBuffer.data.take (headerLen +
      (Receiver.readContentLen reading.isSecure
        reading.receiver.header.contentLength).toNat) = frame
    rw [length]
    exact completes.held
  have reads : Receiver.Reads (link side.other).frames
      (reading.conclude session.crypto random socket .complete).read taken
      (reading.conclude session.crypto random socket .complete).isSecure
      receiver := by
    change Receiver.Reads _ (reading.read ++ [reading.package]) _ _ _
    rw [frameRead]
    exact completes.reads _
  cases side with
  | active =>
      obtain ⟨phase, grows⟩ := @Phase.completeActive _ _ _ reading
        (link .passive) frame random socket lawful
        (sound.phase.congr rfl rfl rfl rfl) (sound.fits .passive) calm
        completes
      exact sound.update phase grows (sound.fits .active)
        (sound.faultless .active) reads
  | passive =>
      obtain ⟨phase, grows⟩ := @Phase.completePassive _ _ _ (link .active)
        reading frame random socket lawful
        (sound.phase.congr rfl rfl rfl rfl) (sound.fits .active) calm
        completes
      exact sound.update phase grows (sound.fits .passive)
        (sound.faultless .passive) reads

/-- What one event preserves. -/
theorem Sound.step (lawful : session.Lawful) (sound : session.Sound link)
    {event : LinkEvent} (undisturbed : event.Undisturbed)
    (expects : Expects link event.side)
    (stepped : session.step link event = some next) :
    session.Sound next := by
  unfold Session.step at stepped
  rw [if_pos (sound.isOpen event.side), Option.map_eq_some_iff] at stepped
  obtain ⟨endpoint, reacts, rfl⟩ := stepped
  cases event with
  | sendPackage side package socket =>
      cases reacts
      refine @Sound.own _ _ _ link side sound
        (.sendPackage package.toPackageEntry socket) trivial ?_
      intro entry member
      have either : entry ∈ (link side).opening.packages ++
          [package.toPackageEntry] := by
        rw [Opening.packages, Opening.advance, Opening.givenAfter,
          List.map_append] at member
        exact member
      rcases List.mem_append.mp either with old | new
      · exact sound.fits side entry old
      · exact ⟨package, List.mem_singleton.mp new, undisturbed.1⟩
  | onWritable side result =>
      cases reacts
      exact @Sound.own _ _ _ link side sound (.onWritable result) trivial
        (sound.fits side)
  | receive side event random socket =>
      obtain ⟨connected, calm⟩ := undisturbed
      unfold react at reacts
      dsimp only at reacts
      split at reacts
      · rename_i arrives
        unfold Endpoint.receive at reacts
        rw [Option.map_eq_some_iff] at reacts
        obtain ⟨⟨outcome, receiver⟩, iterates, rfl⟩ := reacts
        rcases (sound.reads side).step expects connected arrives iterates with
          ⟨goesOn, reads⟩ | ⟨complete, frame, completes⟩
        · cases goesOn
          exact sound.goesOn reads
        · cases complete
          exact sound.complete lawful calm completes
      · cases reacts

/-- A connection when the body of its constructor starts. -/
def unopened (openType : ConnectionOpenType) : Opening PrivateKey :=
  ⟨ofManagers openType .init [], [], []⟩

theorem live_unopened (openType : ConnectionOpenType) :
    (unopened openType : Opening PrivateKey).Live [] where
  isOpen := ⟨rfl, rfl⟩
  books := Opening.books_init openType
  inbox := by
    refine ⟨rfl, ?_, ?_, ?_⟩ <;> intro packageId inside <;> cases inside

theorem holding_unopened (openType : ConnectionOpenType) :
    (unopened openType : Opening PrivateKey).Holding := by
  refine ⟨rfl, ?_⟩
  intro call member
  cases member

/-- The constructor of the passive end notifies the setting and the public
key. -/
theorem starting_passive (lawful : session.Lawful) :
    (Opening.machine session.crypto
      (session.creation .passive)).start.Starting .passiveOpen
        (some session.keyPair.privateKey) session.request := by
  cases notifies : sendControlPackage session.socket ntfSecuritySetting
    [SecuritySetting.openSecurity.toByte]
    (unopened .passiveOpen : Opening PrivateKey).state with
  | mk result notified =>
  obtain ⟨normal, live, holding, sent, -, passive⟩ :=
    (live_unopened .passiveOpen).sendControlPackage
      (holding_unopened .passiveOpen) lawful.calm ntfSecuritySetting
      [SecuritySetting.openSecurity.toByte] notifies
  have none : result = .ok () := normal
  subst none
  cases requests : sendControlPackage session.socket reqStartCrypto
    session.keyPair.publicKey notified with
  | mk result requested =>
  obtain ⟨normal, live, holding, sentBoth, -, still⟩ := live.sendControlPackage
    holding lawful.calm reqStartCrypto session.keyPair.publicKey requests
  have none : result = .ok () := normal
  subst none
  let secureConn : SecureConnection PrivateKey :=
    Opening.startingConn (some session.keyPair.privateKey) []
  let opened : ConnectionState PrivateKey :=
    { requested with connection := { requested.connection with
      secureConn := some secureConn
      isOpening := false } }
  have start : (Opening.machine session.crypto
      (session.creation .passive)).start = ⟨opened, [], []⟩ := by
    have first : sendControlPackage session.socket ntfSecuritySetting
        [SecuritySetting.openSecurity.toByte]
        (ofManagers .passiveOpen .init [] : ConnectionState PrivateKey) =
          (.ok (), notified) := notifies
    change (⟨(openPassive session.socket .openSecurity
      session.keyPair).after (ofManagers .passiveOpen .init []), [], []⟩ :
        Opening PrivateKey) = _
    unfold Action.after openPassive
    rw [Action.bind_apply, first]
    dsimp only
    rw [if_pos rfl, Action.bind_apply]
    unfold createSecureConn
    rw [Action.bind_apply, requests]
    rfl
  have passed : Passed [] requested opened :=
    ⟨(List.append_nil _).symm, fun _ => Or.inl, fun _ _ => rfl, rfl, rfl, rfl,
      rfl⟩
  rw [start]
  refine ⟨live.passedGiven rfl passed rfl (by simp),
    holding.passed rfl passed (by simp), ?_, still.trans passive, rfl, rfl⟩
  exact sentBoth.trans (congrArg (· ++ _) sent)

theorem Sound.start (lawful : session.Lawful) :
    session.Sound session.machine.start := by
  refine ⟨.opening ⟨live_unopened .activeOpen, holding_unopened .activeOpen,
    rfl, rfl, rfl, rfl, rfl⟩ rfl ⟨starting_passive lawful, rfl⟩, ?_, ?_, ?_⟩
  · intro side entry member
    cases side <;> cases member
  · exact fun _ => rfl
  · exact fun side => Receiver.Reads.start _ _

/-- Where all lengths are aligned, both ends ask for what is sent. -/
theorem Sound.expects (lawful : session.Lawful)
    (sound : session.Sound link)
    (key : Aligned session.keyPair.publicKey.length)
    (cipher : Aligned session.cipherLength) (side : Side) :
    Expects link side := by
  cases side with
  | active =>
      exact sound.phase.expectsActive lawful (sound.fits .passive)
        fun _ => key
  | passive =>
      exact sound.phase.expectsPassive lawful (sound.fits .active)
        fun _ => cipher

/-- An end in step with the other one. -/
theorem Sound.framed (sound : session.Sound link) (side : Side) :
    Framed (link side.other) (link side) :=
  ⟨sound.isOpen side, (sound.reads side).cut.within,
    (sound.reads side).proceeds⟩

/-- When nothing is left to do all packages have been read. -/
theorem Sound.read_eq (sound : session.Sound link)
    (expects : ∀ side, Expects link side) (quiet : Quiet link)
    (side : Side) : (link side).read = (link side.other).frames :=
  ((sound.reads side).complete (expects side) (quiet side).1
    (quiet side).2).symm

/-- When all packages have been read the handshake is over. -/
theorem Phase.ended {active passive : Endpoint PrivateKey}
    (phase : session.Phase active passive)
    (readActive : active.read = passive.frames)
    (readPassive : passive.read = active.frames) :
    ∃ aesKey cipher,
      session.Talks aesKey (answer cipher) session.request
          passive.opening.packages passive active ∧
        session.Talks aesKey session.request (answer cipher)
          active.opening.packages active passive := by
  have countActive := congrArg List.length readActive
  have countPassive := congrArg List.length readPassive
  cases phase with
  | opening opens read awaits =>
      rw [read, Endpoint.frames, awaits.starting.sent] at countActive
      cases countActive
  | starting starts read awaits =>
      rw [read, Endpoint.frames, awaits.starting.sent] at countActive
      cases countActive
  | answered exchanges talks awaits =>
      rw [awaits.read, Endpoint.frames, talks.started.sent, List.length_map,
        List.length_append] at countPassive
      simp only [answer, List.length_singleton] at countPassive
      omega
  | @established aesKey cipher toActive toPassive exchanges talks answers =>
      rw [talks.read, Endpoint.frames, answers.started.sent, List.length_map,
        List.length_append, List.length_map] at countActive
      rw [answers.read, Endpoint.frames, talks.started.sent, List.length_map,
        List.length_append, List.length_map] at countPassive
      have allActive : toActive = passive.opening.packages :=
        talks.received.eq_of_length (by omega)
      have allPassive : toPassive = active.opening.packages :=
        answers.received.eq_of_length (by omega)
      subst allActive allPassive
      exact ⟨aesKey, cipher, talks, answers⟩

/-- The packages that an end pushed, as they lie in the table. -/
def pushed (endpoint : Endpoint PrivateKey) : List (Option PackageEntry) :=
  endpoint.opening.state.inQueue.map endpoint.opening.state.findPackage

/-- What was pushed was given to the other end. -/
theorem Phase.pushed {active passive : Endpoint PrivateKey}
    (phase : session.Phase active passive) :
    Session.pushed active <+: passive.opening.packages.map some ∧
      Session.pushed passive <+: active.opening.packages.map some := by
  have nothing {endpoint : Endpoint PrivateKey}
      (live : endpoint.opening.Live []) : Session.pushed endpoint = [] :=
    live.inbox.found
  cases phase with
  | opening opens _ awaits =>
      rw [nothing opens.live, nothing awaits.starting.live]
      exact ⟨List.nil_prefix, List.nil_prefix⟩
  | starting starts _ awaits =>
      rw [nothing starts.live, nothing awaits.starting.live]
      exact ⟨List.nil_prefix, List.nil_prefix⟩
  | answered _ talks awaits =>
      rw [nothing talks.started.live, nothing awaits.starting.live]
      exact ⟨List.nil_prefix, List.nil_prefix⟩
  | established _ talks answers =>
      rw [Session.pushed, Session.pushed, talks.started.live.inbox.found,
        answers.started.live.inbox.found]
      exact ⟨talks.received.map some, answers.received.map some⟩

end Sound

/-! ## Aligned lengths -/

section Aligned

/-- What one end is given the other end pushes, in order and as it was: all of
it when nothing is left to do. -/
structure Relays (link : Link PrivateKey) : Prop where
  inOrder : ∀ side, pushed (link side) <+:
    (link side.other).opening.packages.map some
  all : Quiet link → ∀ side, pushed (link side) =
    (link side.other).opening.packages.map some

theorem Sound.of_reaches (lawful : session.Lawful)
    (key : Aligned session.keyPair.publicKey.length)
    (cipher : Aligned session.cipherLength)
    {events : List LinkEvent} {link : Link PrivateKey}
    (reaches : session.machine.Reaches events link)
    (undisturbed : ∀ event ∈ events, event.Undisturbed) :
    session.Sound link := by
  revert undisturbed
  refine Machine.Reaches.induction
    (motive := fun events link => (∀ event ∈ events, event.Undisturbed) →
      session.Sound link) (fun _ => .start lawful) ?_ reaches
  intro events link event next _ inductionHypothesis stepped undisturbed
  have sound := inductionHypothesis fun earlier member =>
    undisturbed earlier (List.mem_append_left _ member)
  exact sound.step lawful (undisturbed event (by simp))
    (sound.expects lawful key cipher event.side) stepped

/-- Where both lengths are aligned the handshake completes. -/
theorem completes_of_aligned (lawful : session.Lawful)
    (key : Aligned session.keyPair.publicKey.length)
    (cipher : Aligned session.cipherLength) : session.Completes := by
  intro events link reaches undisturbed
  have sound := Sound.of_reaches lawful key cipher reaches undisturbed
  refine ⟨sound.framed, fun quiet => ?_⟩
  have expects := sound.expects lawful key cipher
  have read := sound.read_eq expects quiet
  obtain ⟨aesKey, cipher, talks, answers⟩ :=
    sound.phase.ended (read .active) (read .passive)
  refine ⟨⟨aesKey, fun side => ?_⟩, read⟩
  cases side with
  | active => exact talks.started.ready
  | passive => exact answers.started.ready

/-- Over a whole run the in queues hold what the ends were given. -/
theorem relays_throughout (lawful : session.Lawful)
    (key : Aligned session.keyPair.publicKey.length)
    (cipher : Aligned session.cipherLength)
    {events : List LinkEvent} {link : Link PrivateKey}
    (reaches : session.machine.Reaches events link)
    (undisturbed : ∀ event ∈ events, event.Undisturbed) :
    Relays link := by
  have sound := Sound.of_reaches lawful key cipher reaches undisturbed
  obtain ⟨toActive, toPassive⟩ := sound.phase.pushed
  refine ⟨fun side => ?_, fun quiet side => ?_⟩
  · cases side with
    | active => exact toActive
    | passive => exact toPassive
  · have expects := sound.expects lawful key cipher
    have read := sound.read_eq expects quiet
    obtain ⟨aesKey, cipher, talks, answers⟩ :=
      sound.phase.ended (read .active) (read .passive)
    cases side with
    | active => exact talks.started.live.inbox.found
    | passive => exact answers.started.live.inbox.found

end Aligned

end Session

end Details
end Foundation
end Spaceless
