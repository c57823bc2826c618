import Spaceless.Foundation.Emission
import Spaceless.StorageNode.Transaction

/-!
# What the storage node answers

Everything that the node pushes on a package answers to that package, and
`RspPutFile` without an error says that `on_put_file` accepted the fragment.
-/

namespace Spaceless
namespace StorageNode

open Logic Foundation Protocol Frame

abbrev NodeWorker := Worker Storage Unit Message

/-- The package is for `on_put_file`, which takes its fragment. -/
def accepts (permits : FileMode → Text → Bool) (storage : Storage)
    (package : Package Message) : Bool :=
  package.command == 1031 &&
    match package.parseToProtocol asReqPutFile with
    | .error _ => false
    | .ok request =>
        match (putFragment permits request storage).1 with
        | .ok () => true
        | .error _ => false

theorem accepts_of_putFragment
    {permits : FileMode → Text → Bool} {storage later : Storage}
    {package : Package Message} {request : ReqPutFile}
    (command : package.command = 1031)
    (parsed : package.parseToProtocol asReqPutFile = .ok request)
    (put : putFragment permits request storage = (.ok (), later)) :
    accepts permits storage package = true := by
  simp [accepts, command, parsed, put]

/-- The send answers to the package, and reports a fragment only when it was
accepted. -/
structure Answers (permits : FileMode → Text → Bool) (storage : Storage)
    (package : Package Message) (send : Send Message) : Prop where
  trigger : send.triggerPackageId = package.selfPackageId
  accepted : ∀ response, send.message = .rspPutFile response →
    accepts permits storage package = true

variable {permits : FileMode → Text → Bool} {storage : Storage}
  {package : Package Message}

theorem onPutFile_answers (command : package.command = 1031)
    (connId : Int) :
    SendsOnly (Answers permits storage package)
      ((onPutFile permits connId package).after
        (Worker.startFrame storage ())) := by
  suffices ensures : Action.Ensures (onPutFile permits connId package)
      (Worker.startFrame storage ())
      (fun _ => SendsOnly (Answers permits storage package))
      (fun _ => SendsOnly (Answers permits storage package)) from
    Action.ensures_after.mp ensures
  have none_ (app : Storage) : SendsOnly (Answers permits storage package)
      { app := app, self := (), sends := [], waits := [] } := by
    simp [SendsOnly]
  simp only [onPutFile, parse, Action.ensures_bind, Action.ensures_check,
    ensures_onApp, ensures_sendBackProtocol, Worker.startFrame]
  refine ⟨fun request parsed => ?_, fun _ _ => none_ _⟩
  refine (Action.ensures_self _ _).mono ?_ fun _ _ _ => none_ _
  intro _ later put send present
  rw [List.mem_singleton.mp present]
  exact ⟨rfl, fun _ _ => accepts_of_putFragment command parsed put⟩

/-- A registered handler answers to its package. -/
theorem onePhase_answers {now connId : Int}
    {handler : Int → Int → Package Message →
      Handler Storage Unit Message Unit}
    (registered : findTransaction permits package.command =
      some (.onePhase handler)) :
    SendsOnly (Answers permits storage package)
      ((handler now connId package).after
        (Worker.startFrame storage ())) := by
  have answers {handler : Handler Storage Unit Message Unit}
      (emits : Emits (Answers permits storage package) handler) :
      SendsOnly (Answers permits storage package)
        (handler.after (Worker.startFrame storage ())) :=
    emits _ (by simp [SendsOnly, Worker.startFrame])
  unfold findTransaction at registered
  split at registered <;> rename_i command <;> cases registered
  · exact answers (.bind (.check _) fun _ => .bind (.onApp _) fun _ =>
      .sendBackProtocol ⟨rfl, fun _ same => by cases same⟩)
  · exact onPutFile_answers command connId
  · exact answers (.bind (.check _) fun _ => .bind (.onApp _) fun _ =>
      .sendBackProtocol ⟨rfl, fun _ same => by cases same⟩)
  · exact answers (.bind (.check _) fun _ => .bind (.onApp _) fun _ =>
      .sendBackProtocol ⟨rfl, fun _ same => by cases same⟩)

theorem onePhase_of_findTransaction {command : Int}
    {transaction : Transaction Storage Unit Message}
    (registered : findTransaction permits command = some transaction) :
    ∃ handler, transaction = .onePhase handler := by
  unfold findTransaction at registered
  split at registered <;> cases registered <;> exact ⟨_, rfl⟩

/-- What a received package makes the node push. -/
theorem receive_answers {messageSize : Message → Nat}
    {now connId serviceId : Int} {node later : NodeWorker}
    (received : Worker.receive (program permits messageSize) now connId
      serviceId package node = some later) :
    Worker.Pushes (Answers permits node.app package) node later := by
  refine Worker.receive_pushes ?_ ?_ ?_ ?_ ?_ received
  · intro _ handler registered
    exact onePhase_answers registered
  · intro _ factory registered
    obtain ⟨handler, same⟩ := onePhase_of_findTransaction registered
    cases same
  · intro waiting _ _ send present
    cases present
  · intro failed errorInfo app send present
    cases present
  · intro errorInfo
    exact ⟨rfl, fun _ same => by cases same⟩

end StorageNode
end Spaceless
