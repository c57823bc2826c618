import Spaceless.Foundation.Wire
import Spaceless.Logic.Machine
import Spaceless.Logic.Table

/-!
# The sending side of a connection

A package goes to the socket at once when no other waits; what the socket
does not accept waits in a list that the writable handler works off.  A
connection that is closed while packages wait is destroyed by that handler.
-/

namespace Spaceless
namespace Foundation

open Logic

/-- `Package::Entry`, with the header apart from the content buffer. -/
structure PackageEntry where
  header : PackageHeader
  contentBuffer : List UInt8
  lengthCalculator : Option (Nat → Nat)

namespace PackageEntry

def data (package : PackageEntry) : List UInt8 :=
  package.header.toBytes ++ package.contentBuffer

/-- `Package::valid_length` on `std::size_t`. -/
def validLength (package : PackageEntry) : Nat :=
  match package.lengthCalculator with
  | some lengthCalculator =>
      (headerLen + lengthCalculator (sizeOfInt package.header.contentLength)) %
        18446744073709551616
  | none =>
      (headerLen + sizeOfInt package.header.contentLength) %
        18446744073709551616

/-- The bytes of the package that are sent. -/
def validBytes (package : PackageEntry) : List UInt8 :=
  package.data.take package.validLength

end PackageEntry

/-- A package whose valid bytes lie in its buffer.  `register_package` takes
the length of the content as an `int`, which bounds the buffer. -/
structure RegisteredPackage extends PackageEntry where
  inside : toPackageEntry.validLength ≤ toPackageEntry.data.length
  small : toPackageEntry.data.length < 4294967296

/-- What `NetworkConnectionImpl` keeps of the packages to send, with
`PackageManager`, and all bytes that the socket has accepted. -/
structure SendingConnection where
  packageList : Table Int PackageEntry
  nextId : Int
  sendList : List Int
  sendLen : Nat
  isClosing : Bool
  destroyed : Bool
  socket : List UInt8

namespace SendingConnection

/-- A connection that has nothing to send, and no packages. -/
def init : SendingConnection where
  packageList := ∅
  nextId := 1
  sendList := []
  sendLen := 0
  isClosing := false
  destroyed := false
  socket := []

/-- A call of `sendBytes` on the part of a package that is left; the socket
accepts at most what it is given. -/
def sendBytes (connection : SendingConnection) (package : PackageEntry)
    (sent accepted : Nat) : Option SendingConnection :=
  let len := intOfSize package.validLength
  if len - sent < accepted then none
  else some
    { connection with
      socket := connection.socket ++ (package.data.drop sent).take accepted
      sendLen := sent + accepted }

def removePackage (connection : SendingConnection) (packageId : Int) :
    SendingConnection :=
  { connection with packageList := connection.packageList.erase packageId }

/-- `register_package`, and then `send_raw_package` of the package. -/
def sendRawPackage (connection : SendingConnection)
    (package : PackageEntry) (accepted : Nat) : Option SendingConnection :=
  let packageId := connection.nextId
  let registered := { connection with
    packageList := connection.packageList.insert packageId package
    nextId := packageId + 1 }
  if connection.sendList ≠ [] then some
    { registered with sendList := connection.sendList ++ [packageId] }
  else
    (registered.sendBytes package 0 accepted).map fun tried =>
      if tried.sendLen = intOfSize package.validLength then
        { tried with sendLen := 0 }.removePackage packageId
      else { tried with sendList := connection.sendList ++ [packageId] }

/-- The first loop of `on_writable`: the ids of packages that are gone are
dropped. -/
def findPackage (packageList : Table Int PackageEntry) :
    List Int → Option (Int × PackageEntry × List Int)
  | [] => none
  | packageId :: rest =>
      match packageList[packageId]? with
      | some package => some (packageId, package, rest)
      | none => findPackage packageList rest

/-- The end of `on_writable`. -/
def afterWritable (connection : SendingConnection) : SendingConnection :=
  if connection.sendList = [] ∧ connection.isClosing = true then
    { connection with destroyed := true }
  else connection

def onWritable (connection : SendingConnection) (accepted : Nat) :
    Option SendingConnection :=
  match findPackage connection.packageList connection.sendList with
  | none => some { connection with sendList := [] }
  | some (packageId, package, rest) =>
      (connection.sendBytes package connection.sendLen accepted).map
        fun tried =>
          afterWritable
            (if tried.sendLen = intOfSize package.validLength then
              { tried with sendLen := 0, sendList := rest }.removePackage
                packageId
            else { tried with sendList := packageId :: rest })

def close (connection : SendingConnection) : SendingConnection :=
  if connection.sendList = [] then { connection with destroyed := true }
  else { connection with isClosing := true }

/-- What happens to a connection, with the number of bytes that the socket
accepts. -/
inductive Event
  | sendRawPackage (package : RegisteredPackage) (accepted : Nat)
  | onWritable (accepted : Nat)
  | close

def step (connection : SendingConnection) (event : Event) :
    Option SendingConnection :=
  if connection.destroyed = true then none
  else
    match event with
    | .sendRawPackage package accepted =>
        connection.sendRawPackage package.toPackageEntry accepted
    | .onWritable accepted => connection.onWritable accepted
    | .close => some connection.close

def machine : Machine SendingConnection Event where
  start := init
  step := step

/-! ## What is left to send -/

/-- The valid bytes of the packages that wait. -/
def waiting (packageList : Table Int PackageEntry) (sendList : List Int) :
    List UInt8 :=
  sendList.flatMap fun packageId =>
    match packageList[packageId]? with
    | some package => package.validBytes
    | none => []

/-- The valid bytes of all packages that were passed to
`send_raw_package`. -/
def passed (events : List Event) : List UInt8 :=
  events.flatMap fun event =>
    match event with
    | .sendRawPackage package _ => package.validBytes
    | _ => []

/-- The socket has accepted the bytes up to the part of the first package
that waits which was sent already. -/
structure Queue (connection : SendingConnection) (bytes : List UInt8) :
    Prop where
  packages : ∀ packageId ∈ connection.sendList,
    ∃ package : RegisteredPackage,
      connection.packageList[packageId]? = some package.toPackageEntry
  nodup : connection.sendList.Nodup
  fresh : ∀ (packageId : Int) package,
    connection.packageList[packageId]? = some package →
    packageId < connection.nextId
  front : ∀ packageId rest package,
    connection.sendList = packageId :: rest →
    connection.packageList[packageId]? = some package →
    connection.sendLen ≤ package.validLength
  total : connection.socket ++
      (waiting connection.packageList connection.sendList).drop
        connection.sendLen = bytes
  destroyed : connection.destroyed = true → connection.sendList = []

theorem waiting_cons {packageList : Table Int PackageEntry}
    {packageId : Int} {package : PackageEntry}
    (found : packageList[packageId]? = some package) (rest : List Int) :
    waiting packageList (packageId :: rest) =
      package.validBytes ++ waiting packageList rest := by
  simp [waiting, found]

/-- Only the packages that wait matter. -/
theorem waiting_congr {first second : Table Int PackageEntry}
    {sendList : List Int}
    (same : ∀ packageId ∈ sendList,
      first[packageId]? = second[packageId]?) :
    waiting first sendList = waiting second sendList := by
  unfold waiting
  apply List.flatMap_congr
  intro packageId present
  rw [same packageId present]

theorem length_validBytes (package : RegisteredPackage) :
    package.validBytes.length = package.validLength := by
  unfold PackageEntry.validBytes
  rw [List.length_take, Nat.min_eq_left package.inside]

/-- What a call of `sendBytes` does: the socket takes some of the valid bytes
that are left. -/
theorem sendBytes_eq {connection tried : SendingConnection}
    {package : RegisteredPackage} {sent accepted : Nat}
    (sends : connection.sendBytes package.toPackageEntry sent accepted =
      some tried) :
    intOfSize package.validLength = package.validLength ∧
      sent + accepted ≤ package.validLength ∧
      tried = { connection with
        socket := connection.socket ++
          (package.validBytes.drop sent).take accepted
        sendLen := sent + accepted } := by
  unfold sendBytes at sends
  dsimp only at sends
  split at sends
  · cases sends
  · rename_i enough
    -- a length that does not fit in an `int` is negative
    have len : intOfSize package.validLength = package.validLength := by
      have inside := package.inside
      have small := package.small
      unfold intOfSize at enough ⊢
      omega
    have within : sent + accepted ≤ package.validLength := by
      omega
    cases sends
    refine ⟨len, within, ?_⟩
    unfold PackageEntry.validBytes
    rw [List.drop_take, List.take_take, Nat.min_eq_left (by omega)]

section Steps

variable {connection next : SendingConnection} {bytes : List UInt8}

/-- A package that waits is not the one that is registered next. -/
theorem Queue.lookup_insert (queue : connection.Queue bytes)
    (package : PackageEntry) {packageId : Int}
    (present : packageId ∈ connection.sendList) :
    (connection.packageList.insert connection.nextId package)[packageId]? =
      connection.packageList[packageId]? := by
  obtain ⟨other, found⟩ := queue.packages packageId present
  have below := queue.fresh packageId _ found
  exact Table.lookup_insert_of_ne _ _ (by omega)

theorem Queue.fresh_insert (queue : connection.Queue bytes)
    (package : PackageEntry) (packageId : Int) (found : PackageEntry)
    (there : (connection.packageList.insert connection.nextId
      package)[packageId]? = some found) :
    packageId < connection.nextId + 1 := by
  by_cases same : connection.nextId = packageId
  · omega
  · rw [Table.lookup_insert_of_ne _ _ same] at there
    have below := queue.fresh packageId found there
    omega

/-- The part that was sent already lies in the first package. -/
theorem Queue.sent_le (queue : connection.Queue bytes)
    (nonempty : connection.sendList ≠ []) :
    connection.sendLen ≤
      (waiting connection.packageList connection.sendList).length := by
  obtain ⟨packageId, rest, list⟩ := List.exists_cons_of_ne_nil nonempty
  obtain ⟨package, found⟩ := queue.packages packageId (by simp [list])
  have below := queue.front packageId rest _ list found
  rw [list, waiting_cons found, List.length_append, length_validBytes]
  omega

/-- `send_raw_package` behind packages that wait. -/
theorem Queue.push (queue : connection.Queue bytes)
    (package : RegisteredPackage) (alive : connection.destroyed = false)
    (nonempty : connection.sendList ≠ []) :
    Queue { connection with
        packageList := connection.packageList.insert connection.nextId
          package.toPackageEntry
        nextId := connection.nextId + 1
        sendList := connection.sendList ++ [connection.nextId] }
      (bytes ++ package.validBytes) where
  packages := by
    intro packageId present
    rcases List.mem_append.mp present with old | new
    · dsimp only
      rw [queue.lookup_insert _ old]
      exact queue.packages packageId old
    · obtain rfl := List.mem_singleton.mp new
      exact ⟨package, Table.lookup_insert_self _ _ _⟩
  nodup := by
    rw [List.nodup_append]
    refine ⟨queue.nodup, List.pairwise_singleton _ _, ?_⟩
    rintro packageId present other isNew rfl
    obtain ⟨earlier, found⟩ := queue.packages packageId present
    have below := queue.fresh packageId _ found
    rw [List.mem_singleton.mp isNew] at below
    exact Int.lt_irrefl _ below
  fresh := queue.fresh_insert package.toPackageEntry
  front := by
    intro packageId rest found list there
    obtain ⟨first, others, same⟩ := List.exists_cons_of_ne_nil nonempty
    dsimp only at list there
    rw [same, List.cons_append] at list
    obtain ⟨rfl, -⟩ := List.cons.inj list
    rw [queue.lookup_insert _ (by simp [same])] at there
    exact queue.front first others found same there
  total := by
    dsimp only
    rw [waiting, List.flatMap_append, ← waiting, ← waiting,
      waiting_congr fun packageId present => queue.lookup_insert _ present,
      waiting_cons (Table.lookup_insert_self _ _ _),
      List.drop_append_of_le_length (queue.sent_le nonempty),
      ← List.append_assoc, queue.total]
    simp [waiting]
  destroyed := by
    intro gone
    rw [show connection.destroyed = true from gone] at alive
    cases alive

/-- `send_raw_package` when no package waits. -/
theorem Queue.trySend (queue : connection.Queue bytes)
    (package : RegisteredPackage) (alive : connection.destroyed = false)
    (empty : connection.sendList = []) {accepted : Nat}
    (within : accepted ≤ package.validLength) :
    Queue
      (if accepted = package.validLength then
        { connection with
          packageList := (connection.packageList.insert connection.nextId
            package.toPackageEntry).erase connection.nextId
          nextId := connection.nextId + 1
          sendLen := 0
          socket := connection.socket ++ package.validBytes.take accepted }
      else
        { connection with
          packageList := connection.packageList.insert connection.nextId
            package.toPackageEntry
          nextId := connection.nextId + 1
          sendLen := accepted
          sendList := [connection.nextId]
          socket := connection.socket ++ package.validBytes.take accepted })
      (bytes ++ package.validBytes) := by
  have total := queue.total
  rw [empty] at total
  have before : connection.socket = bytes := by
    simpa [waiting] using total
  split
  · rename_i complete
    have whole : package.validBytes.take accepted = package.validBytes :=
      List.take_of_length_le (by rw [length_validBytes]; omega)
    refine ⟨?_, queue.nodup, ?_, ?_, ?_, fun _ => empty⟩
    · intro packageId present
      dsimp only at present
      rw [empty] at present
      cases present
    · intro packageId found there
      exact queue.fresh_insert _ packageId found
        (Table.lookup_of_lookup_erase there)
    · intro packageId rest found list
      dsimp only at list
      rw [empty] at list
      cases list
    · dsimp only
      rw [whole, before, empty]
      simp [waiting]
  · rename_i incomplete
    refine ⟨?_, List.pairwise_singleton _ _, queue.fresh_insert _, ?_, ?_, ?_⟩
    · intro packageId present
      obtain rfl := List.mem_singleton.mp present
      exact ⟨package, Table.lookup_insert_self _ _ _⟩
    · intro packageId rest found list there
      obtain ⟨rfl, -⟩ := List.cons.inj list
      dsimp only at there ⊢
      rw [Table.lookup_insert_self] at there
      cases there
      omega
    · dsimp only
      rw [waiting_cons (Table.lookup_insert_self _ _ _), before]
      simp [waiting]
    · intro gone
      rw [show connection.destroyed = true from gone] at alive
      cases alive

/-- `send_raw_package` appends the package to what is to be sent. -/
theorem Queue.sendRawPackage (queue : connection.Queue bytes)
    (package : RegisteredPackage) (alive : connection.destroyed = false)
    {accepted : Nat}
    (sends : connection.sendRawPackage package.toPackageEntry accepted =
      some next) :
    next.Queue (bytes ++ package.validBytes) := by
  unfold SendingConnection.sendRawPackage at sends
  by_cases empty : connection.sendList = []
  · rw [if_neg (by simpa using empty), Option.map_eq_some_iff] at sends
    obtain ⟨tried, sent, rfl⟩ := sends
    obtain ⟨len, within, rfl⟩ := sendBytes_eq sent
    rw [Nat.zero_add] at within
    have queued := queue.trySend package alive empty within
    rw [len]
    by_cases complete : accepted = package.validLength
    · rw [if_pos (by simp [complete])]
      rw [if_pos complete] at queued
      exact queued
    · rw [if_neg (by dsimp only; omega), empty]
      rw [if_neg complete] at queued
      simpa using queued
  · rw [if_pos empty] at sends
    cases sends
    exact queue.push package alive empty

/-- The rest of the first package that waits is sent. -/
theorem Queue.sendFront (queue : connection.Queue bytes)
    (alive : connection.destroyed = false) {packageId : Int}
    {rest : List Int} (list : connection.sendList = packageId :: rest)
    {package : RegisteredPackage}
    (found : connection.packageList[packageId]? =
      some package.toPackageEntry) :
    Queue
      { connection with
        packageList := connection.packageList.erase packageId
        sendList := rest
        sendLen := 0
        socket := connection.socket ++
          package.validBytes.drop connection.sendLen }
      bytes := by
  have below := queue.front packageId rest _ list found
  have nodup := queue.nodup
  rw [list, List.nodup_cons] at nodup
  have kept : ∀ other ∈ rest,
      (connection.packageList.erase packageId)[other]? =
        connection.packageList[other]? := by
    intro other present
    apply Table.lookup_erase_of_ne
    rintro rfl
    exact nodup.1 present
  refine ⟨?_, nodup.2, ?_, ?_, ?_, ?_⟩
  · intro other present
    dsimp only
    rw [kept other present]
    exact queue.packages other (by simp [list, present])
  · intro other entry there
    exact queue.fresh other entry (Table.lookup_of_lookup_erase there)
  · intro other later entry same there
    dsimp only at same there ⊢
    have present : other ∈ rest := by simp [same]
    rw [kept other present] at there
    obtain ⟨waits, entered⟩ := queue.packages other (by simp [list, present])
    rw [entered] at there
    cases there
    exact Nat.zero_le _
  · have total := queue.total
    rw [list, waiting_cons found, List.drop_append_of_le_length
      (by rw [length_validBytes]; omega), ← List.append_assoc] at total
    dsimp only
    rw [waiting_congr kept, List.drop_zero]
    exact total
  · intro gone
    rw [show connection.destroyed = true from gone] at alive
    cases alive

/-- A part of what is left of the first package is sent. -/
theorem Queue.sendPart (queue : connection.Queue bytes)
    {packageId : Int} {rest : List Int}
    (list : connection.sendList = packageId :: rest)
    {package : RegisteredPackage}
    (found : connection.packageList[packageId]? =
      some package.toPackageEntry)
    {accepted : Nat}
    (within : connection.sendLen + accepted ≤ package.validLength) :
    Queue
      { connection with
        sendLen := connection.sendLen + accepted
        socket := connection.socket ++
          (package.validBytes.drop connection.sendLen).take accepted }
      bytes := by
  refine ⟨queue.packages, queue.nodup, queue.fresh, ?_, ?_,
    queue.destroyed⟩
  · intro other later entry same there
    dsimp only at same there ⊢
    rw [list] at same
    obtain ⟨rfl, -⟩ := List.cons.inj same
    rw [found] at there
    cases there
    exact within
  · have total := queue.total
    rw [list, waiting_cons found, List.drop_append_of_le_length
      (by rw [length_validBytes]; omega)] at total
    dsimp only
    rw [list, waiting_cons found, List.drop_append_of_le_length
      (by rw [length_validBytes]; omega), List.append_assoc,
      ← List.drop_drop, ← List.append_assoc (List.take _ _),
      List.take_append_drop]
    exact total

theorem Queue.afterWritable (queue : connection.Queue bytes) :
    connection.afterWritable.Queue bytes := by
  unfold SendingConnection.afterWritable
  split
  · rename_i closed
    exact ⟨queue.packages, queue.nodup, queue.fresh, queue.front, queue.total,
      fun _ => closed.1⟩
  · exact queue

/-- The writable handler sends nothing but what waits. -/
theorem Queue.onWritable (queue : connection.Queue bytes)
    (alive : connection.destroyed = false) {accepted : Nat}
    (sends : connection.onWritable accepted = some next) :
    next.Queue bytes := by
  unfold SendingConnection.onWritable at sends
  rcases list : connection.sendList with _ | ⟨packageId, rest⟩
  · rw [list] at sends
    simp only [findPackage, Option.some.injEq] at sends
    subst sends
    rw [← list]
    exact queue
  · obtain ⟨package, found⟩ := queue.packages packageId (by simp [list])
    rw [list] at sends
    simp only [findPackage, found, Option.map_eq_some_iff] at sends
    obtain ⟨tried, sent, rfl⟩ := sends
    obtain ⟨len, within, rfl⟩ := sendBytes_eq sent
    apply Queue.afterWritable
    rw [len]
    dsimp only
    split
    · rename_i complete
      have whole : (package.validBytes.drop connection.sendLen).take
          accepted = package.validBytes.drop connection.sendLen := by
        apply List.take_of_length_le
        rw [List.length_drop, length_validBytes]
        omega
      rw [whole]
      exact queue.sendFront alive list found
    · rw [← list]
      exact queue.sendPart list found within

theorem Queue.close (queue : connection.Queue bytes) :
    connection.close.Queue bytes := by
  unfold SendingConnection.close
  split
  · rename_i empty
    exact ⟨queue.packages, queue.nodup, queue.fresh, queue.front, queue.total,
      fun _ => empty⟩
  · exact ⟨queue.packages, queue.nodup, queue.fresh, queue.front,
      queue.total, queue.destroyed⟩

/-- Every step keeps the queue, and adds the package that it is given. -/
theorem Queue.step (queue : connection.Queue bytes) {event : Event}
    (stepped : connection.step event = some next) :
    next.Queue (bytes ++ passed [event]) := by
  unfold SendingConnection.step at stepped
  split at stepped
  · cases stepped
  · rename_i alive
    rw [Bool.not_eq_true] at alive
    cases event with
    | sendRawPackage package accepted =>
        simpa [passed] using queue.sendRawPackage package alive stepped
    | onWritable accepted =>
        simpa [passed] using queue.onWritable alive stepped
    | close =>
        obtain rfl := Option.some.inj stepped
        simpa [passed] using queue.close

end Steps

/-! ## A run -/

theorem queue_init : init.Queue [] where
  packages := by
    intro packageId present
    simp [init] at present
  nodup := List.nodup_nil
  fresh := by
    intro packageId package found
    simp [init] at found
  front := by
    intro packageId rest package list
    simp [init] at list
  total := by
    simp [init, waiting]
  destroyed := by
    intro gone
    simp [init] at gone

theorem queue_of_reaches {events : List Event}
    {connection : SendingConnection}
    (reaches : machine.Reaches events connection) :
    connection.Queue (passed events) := by
  refine Machine.Reaches.induction
    (motive := fun events connection => connection.Queue (passed events))
    queue_init ?_ reaches
  intro events connection event next _ queue stepped
  have appended : passed (events ++ [event]) =
      passed events ++ passed [event] := by
    simp [passed]
  rw [appended]
  exact queue.step stepped

/-- However the socket takes the bytes, it has received the packages in the
order of the calls up to some byte, and all of them when no package waits; a
connection that is destroyed has sent everything. -/
theorem socket_of_reaches {events : List Event}
    {connection : SendingConnection}
    (reaches : machine.Reaches events connection) :
    connection.socket <+: passed events ∧
      (connection.sendList = [] → connection.socket = passed events) ∧
      (connection.destroyed = true →
        connection.socket = passed events) := by
  have queue := queue_of_reaches reaches
  have complete (empty : connection.sendList = []) :
      connection.socket = passed events := by
    have total := queue.total
    rw [empty] at total
    simpa [waiting] using total
  exact ⟨⟨_, queue.total⟩, complete,
    fun gone => complete (queue.destroyed gone)⟩

/-- A package with three bytes of content. -/
def threeBytes : RegisteredPackage where
  header := ⟨2, 1030, 3, 2, 9⟩
  contentBuffer := [7, 8, 9]
  lengthCalculator := none
  inside := by decide
  small := by decide

/-- The socket takes half of the header; the connection is closed while two
packages wait. -/
def closingEvents : List Event :=
  [.sendRawPackage threeBytes 9, .sendRawPackage threeBytes 0, .close,
    .onWritable 11, .onWritable 1, .onWritable 0, .onWritable 21]

/-- It is destroyed after the second. -/
theorem socket_of_reaches_closing :
    ∃ connection, machine.Reaches closingEvents connection ∧
      connection.destroyed = true ∧
      connection.socket =
        threeBytes.validBytes ++ threeBytes.validBytes := by
  obtain ⟨connection, reaches, destroyed⟩ :
      ∃ connection, machine.Reaches closingEvents connection ∧
        connection.destroyed = true := ⟨_, rfl, rfl⟩
  exact ⟨connection, reaches, destroyed,
    (socket_of_reaches reaches).2.2 destroyed⟩

end SendingConnection

end Foundation
end Spaceless
