import Spaceless.Foundation.Timeout

/-!
# Bindings of transactions that have ended

A binding is removed only when a package answers to it.  So it outlives its
transaction when that ends without an answer to the bound package: at a
timeout, in the step that sends the package, or after the answer to another
one.
-/

namespace Spaceless
namespace Foundation

open Logic

/-- `send_protocol` binds the package of the send to a transaction. -/
def Send.Binds {Message : Type} (protocol : Protocol Message)
    (send : Send Message) : Prop :=
  send.bindTransId ≠ 0 ∧ protocol.messageSize send.message ≤ maxContentLen

namespace Worker

variable {App Self Message Call : Type}

section

variable (worker : Worker App Self Message)

/-- Every binding leads to a registered transaction. -/
def BindsRegistered : Prop :=
  ∀ packageId transId : Int, worker.bindList[packageId]? = some transId →
    ∃ trans, worker.transList[transId]? = some trans

/-- Only packages whose ids were handed out are bound. -/
def BindingIds : Prop :=
  ∀ packageId transId : Int, worker.bindList[packageId]? = some transId →
    packageId < worker.packages.nextId

variable (program : Program App Self Message Call)
  (event : Event Message Call)

/-- The transaction is registered before the step, and does not end in it; or
the step starts it, and it waits. -/
def StaysRegistered (transId : Int) : Prop :=
  if (worker.turn program event).transId = some transId then
    (worker.turn program event).keeps = true
  else ∃ trans, worker.transList[transId]? = some trans

/-- The step binds packages to transactions only that stay registered, and a
transaction that ends in the step has no bound package but the one that is
answered. -/
structure BindingsEnd : Prop where
  sends : ∀ send ∈ (worker.turn program event).sends,
    send.Binds program.protocol →
    worker.StaysRegistered program event send.bindTransId
  ends : ∀ transId, (worker.turn program event).transId = some transId →
    (worker.turn program event).keeps = false →
    ∀ packageId : Int, worker.bindList[packageId]? = some transId →
      worker.answeredId event = some packageId

end

/-- Without transactions there are no bindings. -/
theorem BindsRegistered.bindList_eq_empty
    {worker : Worker App Self Message} (binds : worker.BindsRegistered)
    (empty : worker.transList = ∅) : worker.bindList = ∅ := by
  apply Std.ExtTreeMap.ext_getElem?
  intro packageId
  cases found : worker.bindList[packageId]? with
  | none => simp
  | some transId =>
      obtain ⟨trans, registered⟩ := binds packageId transId found
      simp [empty] at registered

/-! ## The bindings of sends -/

/-- The sends bind packages under fresh ids, and leave the bindings that there
are. -/
structure BindsOnly (protocol : Protocol Message)
    (sends : List (Send Message)) (before after : Worker App Self Message) :
    Prop where
  ids : after.BindingIds
  grows : before.packages.nextId ≤ after.packages.nextId
  kept : ∀ packageId : Int, packageId < before.packages.nextId →
    after.bindList[packageId]? = before.bindList[packageId]?
  new : ∀ packageId transId : Int,
    after.bindList[packageId]? = some transId →
    before.bindList[packageId]? = some transId ∨
      ∃ send ∈ sends, send.Binds protocol ∧ transId = send.bindTransId
  bound : ∀ send ∈ sends, send.Binds protocol → ∃ packageId : Int,
    before.packages.nextId ≤ packageId ∧
    after.bindList[packageId]? = some send.bindTransId

section Sends

variable {protocol : Protocol Message}
  {worker middle after : Worker App Self Message}

theorem BindsOnly.refl (ids : worker.BindingIds) :
    BindsOnly protocol [] worker worker where
  ids := ids
  grows := Int.le_refl _
  kept _ _ := rfl
  new _ _ := Or.inl
  bound := by
    intro send present
    cases present

theorem sendProtocol_bindsOnly (ids : worker.BindingIds)
    (send : Send Message) :
    BindsOnly protocol [send] worker (sendProtocol protocol worker send) := by
  have fresh : worker.bindList[worker.packages.nextId]? = none := by
    cases found : worker.bindList[worker.packages.nextId]? with
    | none => rfl
    | some transId => exact absurd (ids _ _ found) (Int.lt_irrefl _)
  unfold sendProtocol
  split
  · rename_i large
    refine ⟨ids, Int.le_refl _, fun _ _ => rfl, fun _ _ => Or.inl, ?_⟩
    intro other present binds
    obtain rfl := List.mem_singleton.mp present
    exact absurd binds.2 (Nat.not_le.mpr large)
  · rename_i fits
    dsimp only
    by_cases valid : send.bindTransId = 0
    · rw [if_neg (by simpa using valid)]
      refine ⟨?_, by dsimp only; omega, fun _ _ => rfl, fun _ _ => Or.inl,
        ?_⟩
      · intro packageId transId found
        have known := ids packageId transId found
        dsimp only
        omega
      · intro other present binds
        obtain rfl := List.mem_singleton.mp present
        exact absurd valid binds.1
    · rw [if_pos valid, Table.insertIfNew_of_fresh _ fresh]
      have binds : send.Binds protocol := ⟨valid, Nat.not_lt.mp fits⟩
      refine ⟨?_, by dsimp only; omega, ?_, ?_, ?_⟩
      · intro packageId transId found
        dsimp only at found ⊢
        by_cases same : worker.packages.nextId = packageId
        · omega
        · rw [Table.lookup_insert_of_ne _ _ same] at found
          have known := ids packageId transId found
          omega
      · intro packageId old
        exact Table.lookup_insert_of_ne _ _ (by omega)
      · intro packageId transId found
        dsimp only at found
        by_cases same : worker.packages.nextId = packageId
        · rw [same, Table.lookup_insert_self] at found
          cases found
          exact Or.inr ⟨send, List.mem_cons_self, binds, rfl⟩
        · rw [Table.lookup_insert_of_ne _ _ same] at found
          exact Or.inl found
      · intro other present _
        obtain rfl := List.mem_singleton.mp present
        exact ⟨_, Int.le_refl _, Table.lookup_insert_self _ _ _⟩

theorem BindsOnly.append {first second : List (Send Message)}
    (binds : BindsOnly protocol first worker middle)
    (more : BindsOnly protocol second middle after) :
    BindsOnly protocol (first ++ second) worker after where
  ids := more.ids
  grows := Int.le_trans binds.grows more.grows
  kept := by
    intro packageId old
    have grows := binds.grows
    rw [more.kept packageId (by omega), binds.kept packageId old]
  new := by
    intro packageId transId found
    rcases more.new packageId transId found with old | ⟨send, present, asked⟩
    · rcases binds.new packageId transId old with older |
        ⟨send, present, asked⟩
      · exact Or.inl older
      · exact Or.inr ⟨send, List.mem_append_left _ present, asked⟩
    · exact Or.inr ⟨send, List.mem_append_right _ present, asked⟩
  bound := by
    intro send present asked
    rcases List.mem_append.mp present with early | late
    · obtain ⟨packageId, above, found⟩ := binds.bound send early asked
      refine ⟨packageId, above, ?_⟩
      rw [more.kept packageId (binds.ids _ _ found), found]
    · obtain ⟨packageId, above, found⟩ := more.bound send late asked
      exact ⟨packageId, Int.le_trans binds.grows above, found⟩

theorem sendAll_bindsOnly (ids : worker.BindingIds)
    (sends : List (Send Message)) :
    BindsOnly protocol sends worker (sendAll protocol worker sends) := by
  induction sends generalizing worker with
  | nil => exact .refl ids
  | cons send sends inductionHypothesis =>
      have first : BindsOnly protocol [send] worker _ :=
        sendProtocol_bindsOnly ids send
      exact first.append (inductionHypothesis first.ids)

end Sends

section Step

variable {program : Program App Self Message Call}
  {worker later : Worker App Self Message} {event : Event Message Call}

/-- The sends of a step start from the bindings before it. -/
theorem sent_bindsOnly (ids : worker.BindingIds) :
    BindsOnly program.protocol (worker.turn program event).sends
      (worker.sending event) (sent program worker event) := by
  apply sendAll_bindsOnly
  cases event with
  | receive now connId serviceId package =>
      intro packageId transId found
      have known := ids packageId transId found
      change packageId < worker.packages.nextId + 1
      omega
  | internal call => exact ids
  | expire now timerId => exact ids

theorem sending_bindList : (worker.sending event).bindList =
    worker.bindList := by
  cases event <;> rfl

theorem nextId_le_sending :
    worker.packages.nextId ≤ (worker.sending event).packages.nextId := by
  cases event with
  | receive now connId serviceId package =>
      change worker.packages.nextId ≤ worker.packages.nextId + 1
      omega
  | internal call => exact Int.le_refl _
  | expire now timerId => exact Int.le_refl _

/-- The package that is answered was bound. -/
theorem answeredId_bound {packageId : Int}
    (answers : worker.answeredId event = some packageId) :
    ∃ transId, worker.bindList[packageId]? = some transId := by
  cases event with
  | receive now connId serviceId package =>
      obtain ⟨waiting, found, rfl⟩ := Option.map_eq_some_iff.mp answers
      unfold waitingTransaction findBoundTransaction at found
      split at found
      · split at found
        · cases found
        · rename_i transId bound
          exact ⟨transId, bound⟩
      · cases found
  | internal call => cases answers
  | expire now timerId => cases answers

/-- The bindings after a step: those after its sends, without the one that is
answered. -/
theorem Turned.lookup_bindList (turned : Turned program worker event later)
    (packageId transId : Int) :
    later.bindList[packageId]? = some transId ↔
      (sent program worker event).bindList[packageId]? = some transId ∧
        worker.answeredId event ≠ some packageId := by
  have bindList := turned.bindList
  cases answers : worker.answeredId event with
  | none =>
      rw [answers] at bindList
      rw [show later.bindList = _ from bindList]
      simp
  | some answered =>
      rw [answers] at bindList
      rw [show later.bindList = _ from bindList]
      by_cases same : answered = packageId
      · rw [same, Table.lookup_erase_self]
        simp
      · rw [Table.lookup_erase_of_ne _ same]
        simp [same]

theorem BindingIds.step (ids : worker.BindingIds)
    (turned : Turned program worker event later) : later.BindingIds := by
  intro packageId transId found
  rw [turned.nextId]
  exact (sent_bindsOnly ids).ids packageId transId
    ((turned.lookup_bindList packageId transId).mp found).1

/-- What stays registered is registered after the step, and the other way
round. -/
theorem Turned.staysRegistered_iff
    (turned : Turned program worker event later) (transId : Int) :
    (∃ trans, later.transList[transId]? = some trans) ↔
      worker.StaysRegistered program event transId := by
  unfold StaysRegistered
  split
  · rename_i own
    obtain ⟨trans, found, rfl⟩ := Option.map_eq_some_iff.mp own
    have left := turned.own trans found
    split at left
    · rename_i keeps
      obtain ⟨self, registered⟩ := left
      exact ⟨fun _ => keeps, fun _ => ⟨_, registered⟩⟩
    · rename_i ends
      rw [left]
      simp [ends]
  · rename_i other
    rw [turned.others transId other]

/-- A step keeps the bindings to registered transactions exactly if it ends
the bindings of the transaction that ends, and makes none to it. -/
theorem BindsRegistered.step_iff (binds : worker.BindsRegistered)
    (ids : worker.BindingIds)
    (turned : Turned program worker event later) :
    later.BindsRegistered ↔ worker.BindingsEnd program event := by
  have sends : BindsOnly program.protocol (worker.turn program event).sends
      (worker.sending event) (sent program worker event) :=
    sent_bindsOnly ids
  have counted : worker.packages.nextId ≤
      (worker.sending event).packages.nextId := nextId_le_sending
  constructor
  · intro bindsLater
    constructor
    · intro send present asked
      obtain ⟨packageId, above, bound⟩ := sends.bound send present asked
      rw [← turned.staysRegistered_iff]
      apply bindsLater packageId
      rw [turned.lookup_bindList]
      refine ⟨bound, fun answers => ?_⟩
      obtain ⟨transId, old⟩ := answeredId_bound answers
      have known := ids _ _ old
      omega
    · intro transId own ends packageId bound
      by_contra unanswered
      have registered := bindsLater packageId transId
        ((turned.lookup_bindList packageId transId).mpr ⟨by
          rw [sends.kept, sending_bindList, bound]
          have known := ids _ _ bound
          omega, unanswered⟩)
      rw [turned.staysRegistered_iff, StaysRegistered, if_pos own, ends]
        at registered
      cases registered
  · intro ends packageId transId found
    obtain ⟨bound, unanswered⟩ :=
      (turned.lookup_bindList packageId transId).mp found
    rw [turned.staysRegistered_iff]
    rcases sends.new packageId transId bound with old |
      ⟨send, present, asked, rfl⟩
    · rw [sending_bindList] at old
      unfold StaysRegistered
      split
      · rename_i own
        by_contra gone
        rw [Bool.not_eq_true] at gone
        exact unanswered (ends.ends transId own gone packageId old)
      · exact binds packageId transId old
    · exact ends.sends send present asked

end Step

/-! ## Runs -/

/-- In a run, every binding leads to a registered transaction exactly as long
as no step binds a package to a transaction that ends in it or is not
registered, and none ends a transaction that has another bound package than
the one that is answered. -/
theorem bindsRegistered_throughout_iff
    (program : Program App Self Message Call) (app : App)
    {events : List (Event Message Call)} {worker : Worker App Self Message}
    (reaches : (machine program app).Reaches events worker) :
    (machine program app).Throughout BindsRegistered events ↔
      (machine program app).StepsMeet
        (fun worker => worker.BindingsEnd program) events := by
  refine Machine.Reaches.throughout_iff_stepsMeet BindingIds ?_ ?_ ?_ ?_
    reaches
  · intro packageId transId found
    simp [machine, init] at found
  · intro worker event later ids stepped
    exact ids.step (step_turned stepped)
  · intro packageId transId found
    simp [machine, init] at found
  · intro worker event later ids binds stepped
    exact binds.step_iff ids (step_turned stepped)

/-- A program whose only transaction sends a package, and waits for the
answer. -/
def askingProgram : Program Unit Unit Unit Unit :=
  { waitingProgram (pure ()) with
    onInit := fun trans _ _ => do
      Frame.serviceSendProtocol 3 () trans.id
      Frame.serviceWaitNextPhase 3 1030 }

def askingRequest : Event Unit Unit := .receive 0 5 0 ⟨1027, 9, 0, some ()⟩

/-- The transaction stays registered while it waits. -/
theorem bindsRegistered_throughout_askingProgram :
    (machine askingProgram ()).Throughout BindsRegistered
      [askingRequest] := by
  obtain ⟨worker, reaches⟩ : ∃ worker,
      (machine askingProgram ()).Reaches [askingRequest] worker := ⟨_, rfl⟩
  apply (bindsRegistered_throughout_iff askingProgram () reaches).mpr
  intro first event second split state start
  rcases first with _ | ⟨_, first⟩
  · obtain ⟨rfl, -⟩ := List.cons.inj split
    obtain rfl := Machine.reaches_nil.unique start
    constructor
    · intro send present binds
      obtain rfl := List.mem_singleton.mp present
      unfold StaysRegistered
      split
      · rfl
      · rename_i other
        exact absurd rfl other
    · intro transId own ends
      cases ends
  · simp at split

/-- After a timeout the package is still bound to it. -/
theorem not_bindsRegistered_askingProgram :
    ∃ worker,
      (machine askingProgram ()).Reaches
        [askingRequest, .expire 1000000000 1] worker ∧
      ¬worker.BindsRegistered := by
  refine ⟨_, rfl, fun binds => ?_⟩
  obtain ⟨trans, registered⟩ := binds 2 1 rfl
  cases registered

end Worker

end Foundation
end Spaceless
