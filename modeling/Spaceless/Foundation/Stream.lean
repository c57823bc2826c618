import Spaceless.Foundation.Wire

/-!
# Receiving a stream of packages

The peer's bytes arrive in pieces of any length.  What the connection has
pushed, and what lies in its buffer, depends on the bytes so far only: the
packages that are complete, and a part of the next one.
-/

namespace Spaceless
namespace Foundation

open Crypto Logic

namespace Connection

variable {secureConn : Option AesBlockDecryptor}

/-- The bytes that arrive in an iteration. -/
def Event.bytes : Event → List UInt8
  | .called (.received bytes) => bytes
  | _ => []

/-- The bytes that arrive in a run. -/
def received (events : List Event) : List UInt8 := events.flatMap Event.bytes

@[simp] theorem received_nil : received [] = [] := rfl

@[simp] theorem received_cons (event : Event) (events : List Event) :
    received (event :: events) = event.bytes ++ received events := rfl

/-- The bytes of the current package that lie in the buffer. -/
def pending (connection : Connection) : List UInt8 :=
  match connection.receiveState with
  | .receiveHeader =>
      connection.receiveBuffer.data.take connection.receiveLen
  | .receiveContent =>
      connection.receiveBuffer.data.take (headerLen + connection.receiveLen)

/-- How far the connection has come in the first of the packages that are not
complete. -/
def Amid (connection : Connection)
    (rest : List (WirePackage secureConn)) : Prop :=
  match connection.receiveState with
  | .receiveHeader => connection.receiveLen < headerLen
  | .receiveContent => ∃ package later, rest = package :: later ∧
      connection.receiveBuffer.data.take headerLen =
        package.header.toBytes ∧
      (connection.receiveLen = 0 ∨
        connection.receiveLen < package.body.length ∧
          package.body.length + headerLen ≤ connection.receiveBuffer.length)

/-- The connection is open, has pushed the packages that are complete, and
holds the bytes after them. -/
structure Reads (old : List InPackage)
    (done rest : List (WirePackage secureConn)) (taken : List UInt8)
    (connection : Connection) : Prop where
  opened : connection.status = .opened
  taken : taken = WirePackage.stream done ++ connection.pending
  pushed : ∃ pushed, connection.inQueue = old ++ pushed ∧
    List.Forall₂ WirePackage.Delivered done pushed
  amid : connection.Amid rest

theorem Reads.ask {old : List InPackage}
    {done rest : List (WirePackage secureConn)} {taken : List UInt8}
    {connection : Connection} (reads : Reads old done rest taken connection)
    (offset : Nat) (length : Int) :
    Reads old done rest taken (connection.ask offset length) :=
  ⟨reads.opened, reads.taken, reads.pushed, reads.amid⟩

/-- The next bytes of the stream continue the package that is pending. -/
theorem Reads.prefix_rest {old : List InPackage}
    {done rest : List (WirePackage secureConn)} {taken bytes : List UInt8}
    {connection : Connection} (reads : Reads old done rest taken connection)
    (expected : taken ++ bytes <+: WirePackage.stream (done ++ rest)) :
    connection.pending ++ bytes <+: WirePackage.stream rest := by
  rw [reads.taken, WirePackage.stream_append, List.append_assoc] at expected
  exact (List.prefix_append_right_inj _).mp expected

/-- A part of the stream that is not empty lies in a first package, if it is
not longer than that. -/
theorem exists_of_prefix {rest : List (WirePackage secureConn)}
    {bytes : List UInt8} (nonempty : bytes ≠ [])
    (expected : bytes <+: WirePackage.stream rest) :
    ∃ package later, rest = package :: later ∧
      (bytes.length ≤ package.bytes.length →
        bytes = package.bytes.take bytes.length) := by
  cases rest with
  | nil => exact absurd (List.prefix_nil.mp expected) nonempty
  | cons package later =>
      refine ⟨package, later, rfl, fun short => ?_⟩
      have same := List.prefix_iff_eq_take.mp expected
      rw [WirePackage.stream_cons,
        List.take_append_of_le_length short] at same
      exact same

/-! ## An iteration at a header -/

/-- The version is checked on the bytes of the header so far. -/
theorem processCheckPackageVersion_of_take {header : PackageHeader}
    (inRange : header.InRange) (version : header.version = packageVersion)
    {connection : Connection}
    (part : connection.receiveBuffer.data.take connection.receiveLen =
      header.toBytes.take connection.receiveLen) :
    connection.processCheckPackageVersion = (true, connection) := by
  unfold processCheckPackageVersion
  by_cases few : connection.receiveLen < headerBaseLen
  · rw [if_pos few]
  · have two := congrArg (List.take 2) part
    have start : 2 ≤ connection.receiveLen := by
      unfold headerBaseLen at few
      omega
    rw [List.take_take, List.take_take, Nat.min_eq_left start] at two
    have current : connection.header.version = packageVersion := by
      rw [← version, ← PackageHeader.ofBytes_toBytes inRange [],
        List.append_nil]
      change shortOfBytes (connection.receiveBuffer.data.take 2) =
        shortOfBytes (header.toBytes.take 2)
      rw [two]
    rw [if_neg few, if_neg (fun other => other current)]

/-- Header bytes of the next package. -/
theorem Reads.afterHeader {old : List InPackage}
    {done rest : List (WirePackage secureConn)} {taken bytes : List UInt8}
    {connection : Connection} (reads : Reads old done rest taken connection)
    (state : connection.receiveState = .receiveHeader)
    (expected : taken ++ bytes <+: WirePackage.stream (done ++ rest))
    (nonempty : bytes ≠ [])
    (within : connection.receiveLen + bytes.length ≤ headerLen)
    (fits : connection.receiveLen + bytes.length ≤
      connection.receiveBuffer.length) :
    Reads old done rest (taken ++ bytes)
      (connection.accept connection.receiveLen bytes fits).afterHeader := by
  let accepted := connection.accept connection.receiveLen bytes fits
  have held : accepted.receiveBuffer.data.take accepted.receiveLen =
      connection.pending ++ bytes := by
    rw [pending, state]
    apply Content.take_writeAt_end
    unfold PackageBuffer.length at fits
    omega
  have length : (connection.pending ++ bytes).length =
      accepted.receiveLen := by
    have whole := PackageBuffer.length_write connection.receiveBuffer fits
    unfold PackageBuffer.length at whole fits
    rw [← held, List.length_take]
    change min _ (connection.receiveBuffer.write _ bytes fits).data.length = _
    rw [whole]
    exact Nat.min_eq_left fits
  obtain ⟨package, later, first, same⟩ :=
    exists_of_prefix (by simp [nonempty]) (reads.prefix_rest expected)
  have part : connection.pending ++ bytes =
      package.header.toBytes.take accepted.receiveLen := by
    have whole : (connection.pending ++ bytes).length ≤
        package.bytes.length := by
      rw [length, package.length_bytes]
      exact Nat.le_trans within (Nat.le_add_right _ _)
    rw [same whole, length, WirePackage.bytes, List.take_append_of_le_length]
    exact within
  have arrived : taken ++ bytes = WirePackage.stream done ++
      (connection.pending ++ bytes) := by
    rw [reads.taken, List.append_assoc]
  have stateAfter : accepted.receiveState = .receiveHeader := state
  have checked : accepted.processCheckPackageVersion = (true, accepted) :=
    processCheckPackageVersion_of_take package.inRange package.version
      (held.trans part)
  change Reads old done rest (taken ++ bytes) accepted.afterHeader
  unfold Connection.afterHeader
  rw [checked]
  dsimp only
  split
  · rename_i complete
    refine ⟨reads.opened, ?_, reads.pushed, ?_⟩
    · rw [arrived, ← held, complete]
      rfl
    · refine ⟨package, later, first, ?_, Or.inl rfl⟩
      rw [complete] at held part
      rw [held, part]
      exact List.take_of_length_le (Nat.le_refl _)
  · rename_i incomplete
    refine ⟨reads.opened, ?_, reads.pushed, ?_⟩
    · rw [arrived, ← held, pending, stateAfter]
    · unfold Amid
      rw [stateAfter]
      exact Nat.lt_of_le_of_ne within incomplete

/-! ## An iteration at a content -/

/-- What follows when all bytes that were asked for so far have arrived. -/
theorem Reads.of_content {old : List InPackage}
    {done later : List (WirePackage secureConn)}
    {package : WirePackage secureConn} {taken : List UInt8}
    {connection : Connection} (opened : connection.status = .opened)
    (pushed : ∃ pushed, connection.inQueue = old ++ pushed ∧
      List.Forall₂ WirePackage.Delivered done pushed)
    (state : connection.receiveState = .receiveContent)
    (starts : connection.receiveBuffer.data.take headerLen =
      package.header.toBytes)
    (within : connection.receiveLen ≤ package.body.length)
    (space : package.body.length + headerLen ≤
      connection.receiveBuffer.length)
    (same : taken = WirePackage.stream done ++ connection.pending)
    (expected : taken <+: WirePackage.stream (done ++ package :: later)) :
    ∃ complete rest, complete ++ rest = done ++ package :: later ∧
      Reads old complete rest taken
        (connection.afterContent secureConn package.body.length) := by
  unfold Connection.afterContent
  by_cases finished : connection.receiveLen = package.body.length
  · rw [if_pos (congrArg Nat.cast finished)]
    have whole : connection.receiveBuffer.data.take
        (headerLen + package.body.length) = package.bytes := by
      have held : connection.pending = connection.receiveBuffer.data.take
          (headerLen + package.body.length) := by
        rw [pending, state, ← finished]
      have length : connection.pending.length = package.bytes.length := by
        unfold PackageBuffer.length at space
        rw [held, package.length_bytes, List.length_take]
        omega
      rw [same, WirePackage.stream_append, WirePackage.stream_cons] at expected
      have next := List.prefix_iff_eq_take.mp
        ((List.prefix_append_right_inj _).mp expected)
      rw [← held, next, length, List.take_left' rfl]
    obtain ⟨last, delivered, pushes⟩ : ∃ last, package.Delivered last ∧
        onReceiveCompletePackage secureConn
          { connection with receiveLen := 0, receiveState := .receiveHeader } =
            push { connection with
              receiveLen := 0, receiveState := .receiveHeader } last :=
      onReceiveCompletePackage_delivers package whole
    rw [pushes]
    obtain ⟨earlier, queue, all⟩ := pushed
    refine ⟨done ++ [package], later, by simp, opened, ?_, ?_, ?_⟩
    · rw [same, pending, state, finished, whole]
      simp [pending, push]
    · refine ⟨earlier ++ [last], ?_, ?_⟩
      · rw [← List.append_assoc, ← queue]
        rfl
      · exact List.rel_append all (.cons delivered .nil)
    · exact Nat.succ_pos _
  · rw [if_neg (by omega)]
    refine ⟨done, package :: later, rfl, opened, same, pushed, ?_⟩
    unfold Amid
    rw [state]
    exact ⟨package, later, rfl, starts, Or.inr ⟨by omega, space⟩⟩

/-! ## Runs -/

theorem Reads.step_receiveHeader {old : List InPackage}
    {done rest : List (WirePackage secureConn)} {taken : List UInt8}
    {connection next : Connection} {event : Event}
    (reads : Reads old done rest taken connection)
    (state : connection.receiveState = .receiveHeader)
    (stepped : connection.step secureConn event = some next)
    (connected : event ≠ .called .closedByPeer)
    (expected : taken ++ event.bytes <+:
      WirePackage.stream (done ++ rest)) :
    Reads old done rest (taken ++ event.bytes) next := by
  simp only [Connection.step, reads.opened, iteration, state,
    receiveHeader] at stepped
  cases event with
  | passed => cases stepped
  | called result =>
      cases result with
      | unavailable =>
          cases stepped
          rw [show taken ++ Event.bytes (.called .unavailable) = taken from
            List.append_nil _]
          exact reads.ask _ _
      | closedByPeer => exact absurd rfl connected
      | received bytes =>
          simp only [↓reduceIte, receiveBytes] at stepped
          split at stepped
          · cases stepped
          · rename_i possible
            obtain ⟨nonempty, within⟩ := not_or.mp possible
            have bounds := connection.receiveBuffer.length_bounds
            have short : connection.receiveLen + bytes.length ≤ headerLen := by
              omega
            have fits : connection.receiveLen + bytes.length ≤
                connection.receiveBuffer.length := by
              unfold headerLen at short
              omega
            rw [dif_pos fits] at stepped
            cases stepped
            exact (reads.ask connection.receiveLen _).afterHeader state
              expected nonempty short fits

/-- A package without a content is complete with its header. -/
theorem Reads.step_empty {old : List InPackage}
    {done later : List (WirePackage secureConn)}
    {package : WirePackage secureConn} {taken : List UInt8}
    {connection next : Connection} {event : Event}
    (reads : Reads old done (package :: later) taken connection)
    (state : connection.receiveState = .receiveContent)
    (starts : connection.receiveBuffer.data.take headerLen =
      package.header.toBytes)
    (empty : package.body.length = 0)
    (stepped : connection.step secureConn event = some next)
    (expected : taken ++ event.bytes <+:
      WirePackage.stream (done ++ package :: later)) :
    ∃ complete rest, complete ++ rest = done ++ package :: later ∧
      Reads old complete rest (taken ++ event.bytes) next := by
  have header : connection.header = package.header :=
    package.header_of_take starts
  have length := package.length
  rw [← header] at length
  simp only [Connection.step, reads.opened, iteration, state,
    ↓reduceIte] at stepped
  rw [receiveContent_zero (by omega), length] at stepped
  cases event with
  | called result => cases stepped
  | passed =>
      cases stepped
      have bounds := connection.receiveBuffer.length_bounds
      have unread : connection.receiveLen = 0 := by
        have amid := reads.amid
        unfold Amid at amid
        rw [state] at amid
        obtain ⟨first, others, same, -, none | early⟩ := amid
        · exact none
        · cases same
          omega
      rw [show taken ++ Event.bytes .passed = taken from
        List.append_nil _] at expected ⊢
      refine Reads.of_content reads.opened reads.pushed state starts
        (by omega) ?_ reads.taken expected
      unfold headerLen
      omega

theorem Reads.step_receiveContent {old : List InPackage}
    {done rest : List (WirePackage secureConn)} {taken : List UInt8}
    {connection next : Connection} {event : Event}
    (reads : Reads old done rest taken connection)
    (state : connection.receiveState = .receiveContent)
    (stepped : connection.step secureConn event = some next)
    (connected : event ≠ .called .closedByPeer)
    (expected : taken ++ event.bytes <+:
      WirePackage.stream (done ++ rest)) :
    ∃ complete later, complete ++ later = done ++ rest ∧
      Reads old complete later (taken ++ event.bytes) next := by
  have amid := reads.amid
  unfold Amid at amid
  rw [state] at amid
  obtain ⟨package, later, rfl, starts, place⟩ := amid
  have header : connection.header = package.header :=
    package.header_of_take starts
  have length := package.length
  rw [← header] at length
  have small := package.small
  by_cases empty : package.body.length = 0
  · exact reads.step_empty state starts empty stepped expected
  · simp only [Connection.step, reads.opened, iteration, state,
      ↓reduceIte] at stepped
    have positive : 0 <
        readContentLen secureConn connection.header.contentLength := by
      omega
    obtain ⟨buffer, startsLater, kept, space, reading⟩ :=
      receiveContent_fits positive (by omega)
    rw [length] at kept space reading
    rw [reading] at stepped
    have same : buffer.data.take (headerLen + connection.receiveLen) =
        connection.pending := by
      rw [pending, state]
      rcases place with none | ⟨-, enough⟩
      · rw [none]
        exact startsLater
      · rw [kept (by omega)]
    cases event with
    | passed => cases stepped
    | called result =>
        cases result with
        | closedByPeer => exact absurd rfl connected
        | unavailable =>
            cases stepped
            rw [show taken ++ Event.bytes (.called .unavailable) = taken from
              List.append_nil _]
            refine ⟨done, package :: later, rfl, reads.opened, ?_,
              reads.pushed, ?_⟩
            · rw [reads.taken, ← same]
              simp only [pending, Connection.ask, state]
            · simp only [Amid, Connection.ask, state]
              exact ⟨package, later, rfl, startsLater.trans starts,
                place.imp_right fun early => ⟨early.1, by omega⟩⟩
        | received bytes =>
            simp only [receiveBytes] at stepped
            split at stepped
            · cases stepped
            · rename_i possible
              have within := (not_or.mp possible).2
              have fits : headerLen + connection.receiveLen + bytes.length ≤
                  buffer.length := by
                omega
              rw [dif_pos fits] at stepped
              cases stepped
              have inside : headerLen + connection.receiveLen ≤
                  buffer.data.length := by
                unfold PackageBuffer.length at fits
                omega
              refine Reads.of_content reads.opened reads.pushed state ?_ ?_
                ?_ ?_ expected
              · exact (Content.take_writeAt (Nat.le_add_right _ _)
                  inside).trans (startsLater.trans starts)
              · change connection.receiveLen + bytes.length ≤ _
                omega
              · change _ ≤ (buffer.write _ bytes fits).length
                rw [PackageBuffer.length_write]
                omega
              · rw [reads.taken, ← same, List.append_assoc]
                simp only [pending, accept, Connection.ask, state,
                  PackageBuffer.write, ← Nat.add_assoc]
                rw [Content.take_writeAt_end inside]
                rfl

/-- An iteration takes the bytes that arrive in it. -/
theorem Reads.step {old : List InPackage}
    {done rest : List (WirePackage secureConn)} {taken : List UInt8}
    {connection next : Connection} {event : Event}
    (reads : Reads old done rest taken connection)
    (stepped : connection.step secureConn event = some next)
    (connected : event ≠ .called .closedByPeer)
    (expected : taken ++ event.bytes <+:
      WirePackage.stream (done ++ rest)) :
    ∃ complete later, complete ++ later = done ++ rest ∧
      Reads old complete later (taken ++ event.bytes) next := by
  cases state : connection.receiveState with
  | receiveHeader =>
      exact ⟨done, rest, rfl,
        reads.step_receiveHeader state stepped connected expected⟩
  | receiveContent =>
      exact reads.step_receiveContent state stepped connected expected

/-- However the bytes are cut, what matters are the bytes so far. -/
theorem Reads.run {receiveBuffer : PackageBuffer} {old : List InPackage}
    {packages : List (WirePackage secureConn)} {events : List Event}
    (connected : .called .closedByPeer ∉ events)
    {done rest : List (WirePackage secureConn)} {taken : List UInt8}
    {connection last : Connection}
    (reads : Reads old done rest taken connection)
    (all : done ++ rest = packages)
    (runs : (machine secureConn receiveBuffer).run connection events =
      some last)
    (expected : taken ++ received events <+: WirePackage.stream packages) :
    ∃ complete later, complete ++ later = packages ∧
      Reads old complete later (taken ++ received events) last := by
  induction events generalizing done rest taken connection with
  | nil =>
      cases runs
      exact ⟨done, rest, all, by rwa [received_nil, List.append_nil]⟩
  | cons event events inductionHypothesis =>
      obtain ⟨next, stepped, runs⟩ := Option.bind_eq_some_iff.mp runs
      rw [received_cons, ← List.append_assoc] at expected ⊢
      obtain ⟨complete, later, same, readsNext⟩ := reads.step stepped
        (fun closed => connected (closed ▸ List.mem_cons_self))
        (all ▸ (List.prefix_append _ _).trans expected)
      exact inductionHypothesis
        (fun present => connected (List.mem_cons_of_mem _ present))
        readsNext (same.trans all) runs expected

theorem reads_init (receiveBuffer : PackageBuffer)
    (packages : List (WirePackage secureConn)) :
    Reads [] [] packages [] (init receiveBuffer) where
  opened := rfl
  taken := by simp [pending, init]
  pushed := ⟨[], rfl, .nil⟩
  amid := Nat.succ_pos _

/-! ## What a run makes of a stream -/

/-- The next call of `receiveBytes` may find no bytes, and the loop of
`receive_for_state` ends there. -/
def Returns (secureConn : Option AesBlockDecryptor)
    (connection : Connection) : Prop :=
  ∃ next, connection.step secureConn (.called .unavailable) = some next

/-- The loop goes on by itself, or takes any positive number of bytes up to
the length that it asks for. -/
def Proceeds (secureConn : Option AesBlockDecryptor)
    (connection : Connection) : Prop :=
  (∃ next, connection.step secureConn .passed = some next) ∨
    ∃ length, 0 < length ∧ ∀ bytes, bytes ≠ [] → bytes.length ≤ length →
      ∃ next, connection.step secureConn (.called (.received bytes)) =
        some next

instance (secureConn : Option AesBlockDecryptor) (connection : Connection) :
    Decidable (connection.Returns secureConn) :=
  decidable_of_iff
    ((connection.step secureConn (.called .unavailable)).isSome = true)
    Option.isSome_iff_exists

/-- At the end of the stream no package is left. -/
theorem Reads.complete {old : List InPackage}
    {done rest : List (WirePackage secureConn)} {connection : Connection}
    (reads : Reads old done rest (WirePackage.stream (done ++ rest))
      connection)
    (returns : connection.Returns secureConn) : rest = [] := by
  have taken := reads.taken
  rw [WirePackage.stream_append] at taken
  have left := congrArg List.length (List.append_cancel_left taken)
  have amid := reads.amid
  unfold Amid at amid
  unfold pending at left
  cases state : connection.receiveState with
  | receiveHeader =>
      rw [state] at amid left
      cases rest with
      | nil => rfl
      | cons package later =>
          simp only [WirePackage.stream_cons, List.length_append,
            WirePackage.length_bytes, List.length_take] at left
          omega
  | receiveContent =>
      rw [state] at amid left
      obtain ⟨package, later, rfl, starts, place⟩ := amid
      simp only [WirePackage.stream_cons, List.length_append,
        WirePackage.length_bytes, List.length_take] at left
      obtain ⟨next, stepped⟩ := returns
      have length := package.length
      rw [← package.header_of_take starts] at length
      simp only [Connection.step, reads.opened, iteration, state,
        ↓reduceIte] at stepped
      rw [receiveContent_zero] at stepped
      · cases stepped
      · change readContentLen secureConn connection.header.contentLength = _
          at length
        omega

/-- The loop is never stuck. -/
theorem Reads.proceeds {old : List InPackage}
    {done rest : List (WirePackage secureConn)} {taken : List UInt8}
    {connection : Connection} (reads : Reads old done rest taken connection) :
    connection.Proceeds secureConn := by
  have amid := reads.amid
  unfold Amid at amid
  unfold Proceeds
  simp only [Connection.step, reads.opened, iteration, ↓reduceIte]
  cases state : connection.receiveState with
  | receiveHeader =>
      rw [state] at amid
      dsimp only at amid
      refine Or.inr ⟨headerLen - connection.receiveLen, by omega, ?_⟩
      intro bytes nonempty within
      have bounds := connection.receiveBuffer.length_bounds
      unfold headerLen at amid within
      simp only [receiveHeader, receiveBytes, headerLen]
      rw [if_neg (by simp only [nonempty, false_or]; omega),
        dif_pos (by omega)]
      exact ⟨_, rfl⟩
  | receiveContent =>
      rw [state] at amid
      obtain ⟨package, later, rfl, starts, place⟩ := amid
      have length := package.length
      have small := package.small
      rw [← package.header_of_take starts] at length
      change readContentLen secureConn connection.header.contentLength = _
        at length
      by_cases empty : package.body.length = 0
      · dsimp only
        rw [receiveContent_zero (by omega)]
        exact Or.inl ⟨_, rfl⟩
      · have positive : 0 <
            readContentLen secureConn connection.header.contentLength := by
          omega
        obtain ⟨buffer, startsLater, kept, space, reading⟩ :=
          receiveContent_fits positive (by omega)
        refine Or.inr
          ⟨package.body.length - connection.receiveLen, by omega, ?_⟩
        intro bytes nonempty within
        dsimp only
        rw [reading]
        simp only [receiveBytes]
        rw [if_neg (by simp only [nonempty, false_or]; omega),
          dif_pos (by omega)]
        exact ⟨_, rfl⟩

/-- However the stream of some packages is cut: the connection stays open,
pushes the packages in order, and has pushed them all once their last byte
has arrived and the loop waits for more. -/
theorem inQueue_of_stream (receiveBuffer : PackageBuffer)
    (packages : List (WirePackage none)) {events : List Event}
    {connection : Connection}
    (reaches : (machine none receiveBuffer).Reaches events connection)
    (connected : .called .closedByPeer ∉ events)
    (arrives : received events <+: WirePackage.stream packages) :
    connection.status = .opened ∧ connection.Proceeds none ∧
      connection.inQueue.map (fun package =>
          (package.header, package.content)) <+:
        packages.map (fun package => (package.header, package.body)) ∧
      (received events = WirePackage.stream packages →
        connection.Returns none →
        connection.inQueue.map (fun package =>
            (package.header, package.content)) =
          packages.map (fun package => (package.header, package.body))) := by
  obtain ⟨done, rest, rfl, reads⟩ :=
    (reads_init receiveBuffer packages).run connected rfl reaches arrives
  obtain ⟨pushed, queue, all⟩ := reads.pushed
  have same : connection.inQueue.map (fun package =>
        (package.header, package.content)) =
      done.map (fun package => (package.header, package.body)) := by
    rw [queue, List.nil_append]
    clear queue reads arrives
    induction all with
    | nil => rfl
    | cons delivered _ inductionHypothesis =>
        rw [List.map_cons, List.map_cons, inductionHypothesis, delivered.1,
          delivered.2]
  refine ⟨reads.opened, reads.proceeds, ?_, ?_⟩
  · rw [same, List.map_append]
    exact List.prefix_append _ _
  · intro whole returns
    rw [whole, List.nil_append] at reads
    rw [same, reads.complete returns, List.append_nil]

/-- A package without a content, and one with three bytes. -/
def twoPackages : List (WirePackage none) :=
  [{ header := ⟨2, 1001, 0, 1, 0⟩, body := []
     inRange := by constructor <;> decide
     version := rfl, command := by decide, length := rfl, small := by decide },
    { header := ⟨2, 1030, 3, 2, 9⟩, body := [7, 8, 9]
      inRange := by constructor <;> decide
      version := rfl, command := by decide, length := rfl, small := by decide }]

/-- The first header and the second content arrive in two parts each. -/
def cutEvents : List Event :=
  [.called (.received [2, 0, 233]), .called .unavailable,
    .called (.received [3, 0, 0, 0, 0, 0, 0, 1, 0, 0, 0, 0, 0, 0, 0]),
    .passed,
    .called (.received
      [2, 0, 6, 4, 0, 0, 3, 0, 0, 0, 2, 0, 0, 0, 9, 0, 0, 0]),
    .called (.received [7]), .called .unavailable,
    .called (.received [8, 9])]

/-- Both are pushed. -/
theorem inQueue_of_stream_cutEvents :
    ∃ connection,
      (machine none PackageBuffer.init).Reaches cutEvents connection ∧
      connection.inQueue.map (fun package =>
          (package.header, package.content)) =
        [(⟨2, 1001, 0, 1, 0⟩, []), (⟨2, 1030, 3, 2, 9⟩, [7, 8, 9])] := by
  have returns : ((machine none PackageBuffer.init).run
      (init PackageBuffer.init)
      (cutEvents ++ [.called .unavailable])).isSome = true := by
    decide +kernel
  obtain ⟨last, run⟩ := Option.isSome_iff_exists.mp returns
  obtain ⟨connection, reaches, stepped⟩ := Machine.reaches_snoc_iff.mp run
  exact ⟨connection, reaches,
    (inQueue_of_stream PackageBuffer.init twoPackages reaches
      (by decide) (by decide)).2.2.2 (by decide) ⟨last, stepped⟩⟩

end Connection

end Foundation
end Spaceless
