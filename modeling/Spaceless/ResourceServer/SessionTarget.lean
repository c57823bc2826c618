import Spaceless.ResourceServer.Naming
import Spaceless.ResourceServer.SessionLookup
import Spaceless.ResourceServer.SessionPath
import Spaceless.ResourceServer.Subtree

/-!
# The file that a put session is for

The request that registers a put session enters a file at its path.  A later
request that finds the session again does not look at the table, and the
session stays when the file is removed.  Where both are ruled out, and the
path is spelled so that its two views agree, a successful answer is about a
file that is there.
-/

namespace Spaceless
namespace ResourceServer

open Logic Foundation Protocol Frame SharingFileManager
  FileSessionManager

/-! ## Paths to general files -/

namespace SharingFileManager

variable {files later : SharingFileManager} {roots : Int → Prop}
  {rootDirId : Int} {path : List Text}

/-- The path leads from the directory to a general file. -/
def FileAt (files : SharingFileManager) (rootDirId : Int)
    (path : List Text) : Prop :=
  ∃ fileId storageFileId, Walk files rootDirId path fileId ∧
    files.observe SharingFile.storage fileId = some storageFileId

namespace FileAt

theorem addEntry (there : FileAt files rootDirId path)
    (shape : Shape roots files) (file : SharingFile) :
    FileAt (files.addEntry file) rootDirId path := by
  obtain ⟨fileId, storageFileId, walk, leads⟩ := there
  exact ⟨fileId, storageFileId, (shape.extends_addEntry file).walk walk,
    shape.observe_addEntry_of_some file leads⟩

theorem addUpload (there : FileAt files rootDirId path)
    (shape : Shape roots files) (fileName : Text) (nodeId : Int) :
    FileAt (files.addUpload fileName nodeId) rootDirId path := by
  obtain ⟨fileId, storageFileId, walk, leads⟩ := there
  exact ⟨fileId, storageFileId,
    (shape.extends_addUpload fileName nodeId).walk walk,
    shape.observe_addUpload_of_some fileName nodeId leads⟩

theorem pushFile (there : FileAt files rootDirId path)
    {directoryId : Int} {fileList : List Int}
    (listed : files.observe SharingFile.list directoryId = some fileList)
    (fileId : Int) :
    FileAt (files.pushFile directoryId fileId) rootDirId path := by
  obtain ⟨target, storageFileId, walk, leads⟩ := there
  refine ⟨target, storageFileId, (extends_pushFile listed fileId).walk walk,
    ?_⟩
  rw [observe_pushFile_of_blind fileId listed fun _ _ => rfl]
  exact leads

theorem makesDirectories (there : FileAt files rootDirId path)
    (shape : Shape roots files)
    (makes : Relation.ReflTransGen MakesDirectory files later) :
    FileAt later rootDirId path := by
  induction makes with
  | refl => exact there
  | tail before step inductionHypothesis =>
      obtain ⟨dirName, listed, absent⟩ := step
      have made := shape.makesDirectories before
      exact (inductionHypothesis.addEntry made _).pushFile
        (made.observe_addEntry_of_some _ listed) _

theorem registered (there : FileAt files rootDirId path)
    (shape : Shape roots files) {group : SharingGroup} {uploaded : FilePath}
    (registered : Registered files group uploaded later) :
    FileAt later rootDirId path := by
  cases registered with
  | listed uploads directory =>
      exact (there.addUpload shape _ _).pushFile
        (shape.observe_addUpload_of_some _ _ directory) _
  | loose uploads unlisted => exact there.addUpload shape _ _

/-- A removal keeps the file unless it takes an entry on the way to it. -/
theorem removed (there : FileAt files rootDirId path)
    (shape : Shape roots files) {parentId target : Int}
    {fileList : List Int}
    (listed : files.observe SharingFile.list parentId = some fileList)
    (present : target ∈ fileList)
    (off : ∀ names, names <+: path → ¬Walk files rootDirId names target) :
    FileAt ((files.eraseEntry target).removeFrom parentId target)
      rootDirId path := by
  obtain ⟨fileId, storageFileId, walk, leads⟩ := there
  refine ⟨fileId, storageFileId,
    shape.walk_removed listed present walk off, ?_⟩
  have different := shape.arranged.ne (child_of_list listed present)
  rw [observe_removeFrom_of_blind target
    (shape.list_eraseEntry listed different) fun _ _ => rfl]
  apply shape.storage_eraseEntry leads
  rintro rfl
  exact off path (List.prefix_refl path) walk

end FileAt

/-- An entry at the end of a list is found when its name is new there. -/
theorem findFileIn_append_self {fileList : List Int} {filename : Text}
    {fileId : Int}
    (absent : ∀ child ∈ fileList, files.name child ≠ some filename)
    (named : files.name fileId = some filename) :
    files.findFileIn (fileList ++ [fileId]) filename = fileId := by
  have missed : (fileList.find? fun child =>
      decide (files.name child = some filename)) = none := by
    apply List.find?_eq_none.mpr
    intro child present
    simpa using absent child present
  rw [findFileIn_eq, List.find?_append, missed]
  simp [named]

end SharingFileManager

/-- A new file is at its path when the two views of the path agree. -/
theorem Entered.fileAt {files later : SharingFileManager}
    {roots : Int → Prop} {group : SharingGroup} {uploaded : FilePath}
    (entered : Entered files group uploaded later)
    (shape : Shape roots files)
    (agree : ∀ dirId fileList,
      group.getFileId files (FilePath.ofText uploaded.directoryPath) =
        .ok dirId →
      files.observe SharingFile.list dirId = some fileList →
      uploaded.ViewsAgree) :
    FileAt later group.rootDirId uploaded.split := by
  obtain @⟨dirId, fileList, uploads, directory⟩ := entered
  have viewsAgree := agree dirId fileList
    (getFileIdFrom_of_walk uploads.walk) directory
  have absent := uploads.absent_of_viewsAgree directory viewsAgree
  have grows := shape.extends_addUpload uploaded.filename group.nodeId
  have still := shape.observe_addUpload_of_some uploaded.filename
    group.nodeId directory
  have names := name_pushFile still (files.nextId + 1)
  have search : ((files.addUpload uploaded.filename group.nodeId).pushFile
      dirId (files.nextId + 1)).findFileIn (fileList ++ [files.nextId + 1])
        uploaded.filename = files.nextId + 1 := by
    apply findFileIn_append_self
    · intro child present
      rw [names, grows.names dirId child (child_of_list directory present)]
      exact shape.name_of_not_found directory absent child present
    · rw [names, name_addUpload_self]
  have positive := shape.owned.positive
  have last : Walk ((files.addUpload uploaded.filename
      group.nodeId).pushFile dirId (files.nextId + 1)) dirId
        [uploaded.filename] (files.nextId + 1) := by
    refine .cons (list_pushFile (files.nextId + 1) still) ?_ ?_ <;>
      rw [search]
    · unfold invalidId
      omega
    · exact .nil _
  refine ⟨files.nextId + 1, files.nextId, ?_, ?_⟩
  · rw [viewsAgree]
    exact ((shape.extends_upload _ _ directory).walk uploads.walk).append
      last
  · rw [observe_pushFile_of_blind _ still fun _ _ => rfl, observe_addUpload,
      if_pos rfl]
    rfl

/-- The path leads to a general file of the group. -/
def LeadsToFile (server : Server) (groupId : Int) (filePath : Text) :
    Prop :=
  ∃ group fileId file, server.groups.findGroup groupId = some group ∧
    group.getFileId server.files (FilePath.ofText filePath) = .ok fileId ∧
    server.files.findFile fileId = some file ∧
    file.fileType = .generalFile

theorem leadsToFile_iff {server : Server} {roots : Int → Prop}
    (shape : Shape roots server.files) {groupId : Int} {filePath : Text} :
    LeadsToFile server groupId filePath ↔
      ∃ group, server.groups.findGroup groupId = some group ∧
        FileAt server.files group.rootDirId
          (FilePath.ofText filePath).split := by
  constructor
  · rintro ⟨group, fileId, ⟨fileName, body⟩, listed, resolved, found, type⟩
    have positive := (shape.owned.bounds fileId _ found).1
    have walk := walk_of_getFileIdFrom resolved (by
      unfold invalidId
      omega)
    cases body with
    | directory fileList => cases type
    | storageFile nodeId useCounting => cases type
    | generalFile storageFileId =>
        exact ⟨group, listed, fileId, storageFileId, walk,
          observe_of_findFile found⟩
  · rintro ⟨group, listed, fileId, storageFileId, walk, leads⟩
    obtain ⟨⟨fileName, body⟩, found, shows⟩ := findFile_of_observe leads
    refine ⟨group, fileId, _, listed, getFileIdFrom_of_walk walk, found, ?_⟩
    cases body with
    | directory fileList => cases shows
    | generalFile other => rfl
    | storageFile nodeId useCounting => cases shows

/-! ## Groups over a step -/

section Groups

variable {before after : Server} {source : Source}

/-- A group keeps its place in every change. -/
theorem place_of_change (sound : Sound before)
    (shape : Shape before.groups.IsRoot before.files)
    (change : Change before source after) {groupId : Int}
    {group : SharingGroup}
    (found : before.groups.findGroup groupId = some group) :
    ∃ changed, after.groups.findGroup groupId = some changed ∧
      group.SamePlace changed := by
  have kept : ∃ changed, before.groups.findGroup groupId = some changed ∧
      group.SamePlace changed := ⟨group, found, .refl group⟩
  cases change with
  | same => exact kept
  | users changed => exact kept
  | nodes changed => exact kept
  | serialize => exact kept
  | registerGroup userId groupName defined =>
      obtain ⟨owner, forest⟩ := sound.running
      have older := (forest.keyed groupId group found).2
      have registered := registerGroup_cases
        (forest.relabel before.groups.nextId)
        (fun _ above => relabel_of_le above) userId groupName
      generalize (Server.registerGroup userId groupName).after before =
        later at registered ⊢
      cases registered with
      | refused => exact kept
      | rootOnly inside => exact kept
      | added inside key root below =>
          refine ⟨group, ?_, .refl group⟩
          change (before.groups.setGroup before.groups.nextId _).findGroup
            groupId = some group
          rw [SharingGroupManager.findGroup_setGroup, if_neg (by omega)]
          exact found
  | @roles connId package other user old changed acts target place
      permitted =>
      change ∃ later, (before.groups.setGroup other changed).findGroup
        groupId = some later ∧ group.SamePlace later
      rw [SharingGroupManager.findGroup_setGroup]
      split
      · rename_i same
        subst same
        have already := acts.found
        rw [found] at already
        cases already
        exact ⟨changed, rfl, place⟩
      · exact kept
  | createPath path content manages => exact kept
  | removePath path force content manages => exact kept
  | @putSession connId package user other request command content
      manages =>
      rw [(putSession_files shape user other request).groups]
      exact kept
  | getSession filePath command content acts member general =>
      obtain ⟨sessions, changed⟩ := after_getSession before _ _ filePath
      rw [changed]
      exact kept
  | putFragment request command content login other own next => exact kept
  | removeSession sessionId => exact kept
  | putNodeSession sessionId nodeSessionId other => exact kept
  | getNodeSession sessionId nodeSessionId other => exact kept

theorem place_of_changed (sound : Sound before)
    (shape : Shape before.groups.IsRoot before.files)
    (changed : Changed before source after) {groupId : Int}
    {group : SharingGroup}
    (found : before.groups.findGroup groupId = some group) :
    ∃ changed, after.groups.findGroup groupId = some changed ∧
      group.SamePlace changed := by
  induction changed with
  | change change => exact place_of_change sound shape change found
  | cleanUp _ _ inductionHypothesis => exact inductionHypothesis

end Groups

/-! ## Paths over a step -/

/-- The entry is on the way that the path takes in the group. -/
def OnWay (server : Server) (groupId : Int) (filePath : Text)
    (target : Int) : Prop :=
  ∃ group names, server.groups.findGroup groupId = some group ∧
    names <+: (FilePath.ofText filePath).split ∧
    SharingGroup.getFileIdFrom server.files group.rootDirId names =
      .ok target

/-- The event is a request that removes the entry. -/
def RemovesEntry (worker : ServerWorker) (event : ServerEvent)
    (target : Int) : Prop :=
  ∃ now connId serviceId package groupId path force user group later,
    event = .worker (.receive now connId serviceId package) ∧
    worker.waitingTransaction package = none ∧
    package.content = some (.reqRemovePath groupId path force) ∧
    Manages worker.app connId groupId user group ∧
    Removal worker.app group (FilePath.ofText path) target later

section Step

variable {messageSize : Message → Nat} {worker later : ServerWorker}

/-- A step keeps a general file at its path unless it removes an entry on the
way. -/
theorem LeadsToFile.step {event : Worker.Event Message ServerCall}
    {groupId : Int} {filePath : Text}
    (leads : LeadsToFile worker.app groupId filePath)
    (reachable : (serverMachine messageSize).Reachable worker)
    (stepped : Worker.step (program messageSize) worker event = some later)
    (spared : ∀ target, RemovesEntry worker (.worker event) target →
      ¬OnWay worker.app groupId filePath target) :
    LeadsToFile later.app groupId filePath := by
  have shape := shape_of_reachable reachable
  have sound := Sound.of_reachable reachable
  obtain ⟨group, found, there⟩ := (leadsToFile_iff shape).mp leads
  obtain ⟨changed, still, place⟩ := place_of_changed sound shape
    (step_changed stepped) found
  have moved : (serverMachine messageSize).step worker (.worker event) =
      some later := stepped
  refine (leadsToFile_iff (shape_of_reachable
    (reachable.step moved))).mpr ⟨changed, still, ?_⟩
  rw [place.rootDirId]
  have step := treeStep_of_step reachable stepped
  generalize source : eventSource worker event = who at step
  generalize later.app.groups.IsRoot = roots at step
  generalize later.app.files = files at step
  cases step with
  | same => exact there
  | group groupName => exact there.addEntry shape _
  | created path content manages makes =>
      exact there.makesDirectories shape makes
  | registered request command content manages noSession registered =>
      exact there.registered shape registered
  | @removed connId package otherId user other parentId target fileList path
      force content manages removes =>
      obtain ⟨starts, now, serviceId, rfl⟩ := eventSource_eq_request source
      have removal := removes.removal shape manages.found
      refine there.removed shape removes.listed removes.present ?_
      intro names within walk
      refine spared target ⟨now, connId, serviceId, package, otherId, path,
        force, user, other, _, rfl, starts, content, manages, removal⟩ ?_
      exact ⟨group, names, found, within, getFileIdFrom_of_walk walk⟩

end Step

/-! ## The session of a transaction -/

/-- The event is a request for a put session by a manager of the group. -/
def AsksPut (worker : ServerWorker) (event : ServerEvent)
    (request : ReqPutFileSession) (user : User) (group : SharingGroup) :
    Prop :=
  ∃ now connId serviceId package,
    event = .worker (.receive now connId serviceId package) ∧
    worker.waitingTransaction package = none ∧
    package.command = 1027 ∧
    package.content = some (.reqPutFileSession request) ∧
    Manages worker.app connId request.groupId user group

/-- The event does not remove an entry on the path of a put session that a
registered transaction has taken down.  If it is a request for a put session
that finds one to use again, the path leads to a general file; if it
registers one, the two views of the path agree. -/
structure KeepsTargets (worker : ServerWorker) (event : ServerEvent) :
    Prop where
  spares : ∀ target, RemovesEntry worker event target →
    ∀ (transId : Int) trans sessionId session,
    worker.transList[transId]? = some trans →
    trans.self = .putFileSession sessionId →
    worker.app.sessions.findPutSession sessionId = some session →
    ¬OnWay worker.app session.groupId session.filePath target
  reuses : ∀ request user group session,
    AsksPut worker event request user group →
    (findPutSessionOf user.userId request.groupId request.filePath
      worker.app.sessions).1 = .ok (some session) →
    request.maxFragment = session.maxFragment →
    LeadsToFile worker.app request.groupId request.filePath
  spelled : ∀ request user group dirId fileList,
    AsksPut worker event request user group →
    Uploads worker.app user group request →
    group.getFileId worker.app.files (FilePath.ofText
      (FilePath.ofText request.filePath).directoryPath) = .ok dirId →
    worker.app.files.observe SharingFile.list dirId = some fileList →
    (FilePath.ofText request.filePath).ViewsAgree

/-- While the put session is live, it is one for the place of the request,
and there is a general file at that place. -/
structure Targets (server : Server) (request : ReqPutFileSession)
    (sessionId : Int) : Prop where
  known : sessionId < server.sessions.nextId
  leads : ∀ session,
    server.sessions.findPutSession sessionId = some session →
    session.groupId = request.groupId ∧
      session.filePath = request.filePath ∧
      LeadsToFile server request.groupId request.filePath

section Start

variable {before : Server} {owner : Int → Int} {roots : Int → Prop}

/-- A request that returns has its session at a general file. -/
theorem putSession_targets (shape : Shape roots before.files)
    (owned : before.files.Owned owner) (keyed : before.sessions.Keyed)
    (filed : before.sessions.Filed) {user : User} {group : SharingGroup}
    {request : ReqPutFileSession}
    (found : before.groups.findGroup request.groupId = some group)
    (reuses : ∀ session, (findPutSessionOf user.userId request.groupId
        request.filePath before.sessions).1 = .ok (some session) →
      request.maxFragment = session.maxFragment →
      LeadsToFile before request.groupId request.filePath)
    (spelled : Uploads before user group request → ∀ dirId fileList,
      group.getFileId before.files (FilePath.ofText
        (FilePath.ofText request.filePath).directoryPath) = .ok dirId →
      before.files.observe SharingFile.list dirId = some fileList →
      (FilePath.ofText request.filePath).ViewsAgree) :
    Action.Ensures (putSession user group request) before
      (fun session later => Targets later request session.sessionId)
      (fun _ _ => True) := by
  refine (Action.ensures_self (putSession user group request) before).mono
    ?_ fun _ _ _ => trivial
  intro session later ran
  have enters := (putSession_enters shape user group request).of_ok ran
  have origin := (putSession_origin user group request keyed).of_ok ran
  cases (putSession_run user group request owned keyed).of_ok ran with
  | reused proceeds live same =>
      rcases origin with ⟨looked, sameMax⟩ | next
      · have leads := reuses session looked sameMax
        have place := filed.place_of_findPutSessionOf looked
        constructor
        · rw [same.nextId]
          exact (keyed.bounds _ _ live).2.1
        · intro other stored
          rw [findPutSession_eq_some, same.sessionList, live] at stored
          cases stored
          exact ⟨place.1, place.2, leads⟩
      · rw [next, keyed.not_found_nextId] at live
        cases live
  | @registered files sessions uploads stored sessionList nextId =>
      rcases enters.files with ⟨looked, -⟩ | ⟨-, entered⟩
      · rw [uploads.noSession] at looked
        cases looked
      · have there := entered.fileAt shape (spelled uploads)
        have grown := shape.registered entered.registered
        have leads : LeadsToFile
            { before with files := files, sessions := sessions }
            request.groupId request.filePath :=
          (leadsToFile_iff grown).mpr ⟨group, found, there⟩
        constructor
        · rw [nextId]
          exact Int.lt_succ _
        · intro other live
          rw [findPutSession_eq_some, sessionList] at live
          change (before.sessions.sessionList.insert before.sessions.nextId
            _)[before.sessions.nextId]? = _ at live
          rw [Table.lookup_insert_self] at live
          cases live
          exact ⟨rfl, rfl, leads⟩

/-- What `on_init` of a put session transaction takes down when it
returns. -/
theorem PutFileSessionTrans.onInit_targets {worker : ServerWorker}
    {now connId serviceId : Int} {package : Package Message}
    (shape : Shape roots worker.app.files)
    (owned : worker.app.files.Owned owner)
    (keyed : worker.app.sessions.Keyed) (filed : worker.app.sessions.Filed)
    (keeps : KeepsTargets worker
      (.worker (.receive now connId serviceId package)))
    (starts : worker.waitingTransaction package = none)
    (command : package.command = 1027) {request : ReqPutFileSession}
    (content : package.content = some (.reqPutFileSession request))
    (trans : MultiplyPhaseTransaction TransSelf) :
    Action.Ensures (PutFileSessionTrans.onInit trans connId package)
      (Worker.startFrame worker.app (.putFileSession 0))
      (fun _ frame => ∃ sessionId,
        frame.self = .putFileSession sessionId ∧
        Targets frame.app request sessionId)
      (fun _ _ => True) := by
  simp only [PutFileSessionTrans.onInit, Action.ensures_bind,
    ensures_onApp, Server.getLoginUser, parse, managedGroup, Server.getNode,
    Action.ensures_check, ensures_setSelf, ensures_serviceSendProtocol,
    ensures_serviceWaitNextPhase, Worker.startFrame]
  refine ⟨fun user login => ⟨fun other parsed => ⟨fun group managed => ?_,
    fun _ _ => trivial⟩, fun _ _ => trivial⟩, fun _ _ => trivial⟩
  rw [parse_reqPutFileSession, content] at parsed
  cases parsed
  obtain ⟨listed, manager⟩ := found_of_managed managed
  have asks : AsksPut worker (.worker (.receive now connId serviceId
      package)) request user group :=
    ⟨now, connId, serviceId, package, rfl, starts, command, content,
      ⟨findLoginUser_of_getLoginUser login, listed⟩, manager⟩
  refine (putSession_targets shape owned keyed filed listed
    (fun session => keeps.reuses request user group session asks)
    (fun uploads dirId fileList => keeps.spelled request user group dirId
      fileList asks uploads)).mono ?_ fun _ _ _ => trivial
  intro session later targets
  exact ⟨fun _ _ => ⟨session.sessionId, rfl, targets⟩, fun _ _ => trivial⟩

end Start

/-! ## Runs -/

section Runs

variable {messageSize : Message → Nat} {worker later : ServerWorker}

/-- The transactions of the server wait for one response. -/
theorem waitsOnce (messageSize : Message → Nat) :
    Worker.WaitsOnce (program messageSize) where
  onActive := by
    intro trans connId package app
    exact (onActive_keeps trans connId package).mono
      (fun _ _ outcome => outcome.1)
      fun _ _ outcome defined => (outcome defined).1
  onError := by
    intro trans connId errorInfo frame
    rw [program_onError, onError_ok]
    exact ⟨rfl, onError_waits trans connId errorInfo frame⟩

theorem transIds_of_reachable
    (reachable : (serverMachine messageSize).Reachable worker) :
    worker.TransIds := by
  obtain ⟨events, reaches⟩ := reachable
  refine Machine.Reaches.induction
    (motive := fun _ worker => worker.TransIds) ?_ ?_ reaches
  · intro transId trans found
    simp [serverMachine, Worker.init] at found
  · intro events worker event next _ ids stepped
    cases event with
    | restart rest =>
        cases stepped
        intro transId trans found
        simp [Worker.init] at found
    | worker event => exact ids.step stepped

/-- A step keeps the session of a registered transaction at its file. -/
theorem Targets.step {event : Worker.Event Message ServerCall}
    {request : ReqPutFileSession} {sessionId transId : Int}
    {trans : MultiplyPhaseTransaction TransSelf}
    (targets : Targets worker.app request sessionId)
    (reachable : (serverMachine messageSize).Reachable worker)
    (stepped : Worker.step (program messageSize) worker event = some later)
    (keeps : KeepsTargets worker (.worker event))
    (registered : worker.transList[transId]? = some trans)
    (self : trans.self = .putFileSession sessionId) :
    Targets later.app request sessionId := by
  obtain ⟨owner, forest⟩ := (Sound.of_reachable reachable).running
  have comes := SessionsFrom.of_changed forest.owned
    (keyed_of_reachable reachable) (step_changed stepped)
  have known := targets.known
  refine ⟨Int.lt_of_lt_of_le known comes.grows, ?_⟩
  intro session live
  rcases comes.origin sessionId _ (findPutSession_eq_some.mp live) with
    ⟨old, before, continues⟩ | ⟨new, -⟩
  · have same := continues.registered
    cases old with
    | get old => cases same
    | put old =>
        have found := findPutSession_eq_some.mpr before
        obtain ⟨group, path, leads⟩ := targets.leads old found
        simp only [Session.registered, Session.put.injEq,
          PutFileSession.mk.injEq] at same
        refine ⟨same.2.2.1.trans group, same.2.2.2.1.trans path, ?_⟩
        refine leads.step reachable stepped fun target removes => ?_
        rw [← group, ← path]
        exact keeps.spares target removes transId trans sessionId old
          registered self found
  · omega

variable (messageSize) in
/-- The run received the request for a put session that started the
transaction. -/
def RequestedIn (events : List ServerEvent) (transId : Int)
    (request : ReqPutFileSession) : Prop :=
  ∃ first now connId serviceId package second state,
    events = first ++ .worker (.receive now connId serviceId package) ::
      second ∧
    (serverMachine messageSize).Reaches first state ∧
    state.waitingTransaction package = none ∧
    package.command = 1027 ∧
    package.content = some (.reqPutFileSession request) ∧
    state.nextTransId = transId ∧
    ∀ rest, .restart rest ∉ second

section Requests

variable {events : List ServerEvent} {event : ServerEvent} {transId : Int}
  {request : ReqPutFileSession}

/-- The request came before the last event, or is the last event. -/
theorem RequestedIn.snoc_cases
    (requested : RequestedIn messageSize (events ++ [event]) transId request)
    (reaches : (serverMachine messageSize).Reaches events worker) :
    (RequestedIn messageSize events transId request ∧
      ∀ rest, event ≠ .restart rest) ∨
    ∃ now connId serviceId package,
      event = .worker (.receive now connId serviceId package) ∧
      worker.waitingTransaction package = none ∧
      package.command = 1027 ∧
      package.content = some (.reqPutFileSession request) ∧
      worker.nextTransId = transId := by
  obtain ⟨first, now, connId, serviceId, package, second, state, split,
    reached, starts, command, content, counted, noRestart⟩ := requested
  rcases List.eq_nil_or_concat second with rfl | ⟨between, last, rfl⟩
  · obtain ⟨rfl, same⟩ := List.append_inj' split rfl
    cases same
    obtain rfl := reaches.unique reached
    exact Or.inr ⟨now, connId, serviceId, package, rfl, starts, command,
      content, counted⟩
  · rw [List.concat_eq_append, ← List.cons_append, ← List.append_assoc]
      at split
    obtain ⟨rfl, same⟩ := List.append_inj' split rfl
    cases same
    refine Or.inl ⟨⟨first, now, connId, serviceId, package, between, state,
      rfl, reached, starts, command, content, counted, ?_⟩, ?_⟩
    · intro rest present
      exact noRestart rest (by simp [present])
    · rintro rest rfl
      exact noRestart rest (by simp)

theorem starts_of_request {package : Package Message}
    (starts : worker.waitingTransaction package = none)
    (command : package.command = 1027) :
    Worker.Starts (program messageSize) package worker :=
  ⟨starts, _, by rw [command]; rfl⟩

/-- The id of the transaction has been handed out. -/
theorem RequestedIn.lt
    (requested : RequestedIn messageSize events transId request)
    (reaches : (serverMachine messageSize).Reaches events worker) :
    transId < worker.nextTransId := by
  revert requested
  refine Machine.Reaches.induction
    (motive := fun events worker =>
      RequestedIn messageSize events transId request →
        transId < worker.nextTransId) ?_ ?_ reaches
  · rintro ⟨first, now, connId, serviceId, package, second, state, split, -⟩
    simp at split
  · intro events worker event next reached before stepped requested
    rcases requested.snoc_cases reached with ⟨earlier, running⟩ |
      ⟨now, connId, serviceId, package, rfl, starts, command, content,
        counted⟩
    · cases event with
      | restart rest => exact absurd rfl (running rest)
      | worker event =>
          have grows := Worker.step_nextTransId_le stepped
          have known := before earlier
          omega
    · rcases Worker.receive_nextTransId stepped with ⟨-, grown⟩ | ⟨idle, -⟩
      · omega
      · exact absurd (starts_of_request starts command) idle

/-- The transaction that a request starts. -/
theorem targets_of_started {now connId serviceId : Int}
    {package : Package Message}
    {trans : MultiplyPhaseTransaction TransSelf}
    (reachable : (serverMachine messageSize).Reachable worker)
    (keeps : KeepsTargets worker
      (.worker (.receive now connId serviceId package)))
    (starts : worker.waitingTransaction package = none)
    (command : package.command = 1027)
    (content : package.content = some (.reqPutFileSession request))
    (received : Worker.receive (program messageSize) now connId serviceId
      package worker = some later)
    (registered : later.transList[worker.nextTransId]? = some trans) :
    ∃ sessionId, trans.self = .putFileSession sessionId ∧
      Targets later.app request sessionId := by
  obtain ⟨owner, forest⟩ := (Sound.of_reachable reachable).running
  have keyed := keyed_of_reachable reachable
  cases started_sessionRequest forest.owned keyed starts command received with
  | ends ran self app entry =>
      rw [entry] at registered
      cases registered
  | waits ran app entry transId self =>
      rw [entry] at registered
      cases registered
      rw [program_onInit, onInit_of_putFileSession rfl] at ran
      have filed := filed_of_reachable (sessions_reachable reachable)
      have takes := PutFileSessionTrans.onInit_targets
        (shape_of_reachable reachable) forest.owned keyed filed keeps starts
        command content (MultiplyPhaseTransaction.init worker.nextTransId
          (.putFileSession 0) connId package.triggerSource)
      obtain ⟨sessionId, taken, targets⟩ := takes.of_ok ran
      exact ⟨sessionId, self.trans taken, app ▸ targets⟩

/-- In a run that keeps the targets, the session of every registered put
session transaction is for the place of its request, where there is a general
file. -/
theorem targets_of_reaches
    (meets : (serverMachine messageSize).StepsMeet KeepsTargets events)
    (reaches : (serverMachine messageSize).Reaches events worker)
    {trans : MultiplyPhaseTransaction TransSelf}
    (registered : worker.transList[transId]? = some trans)
    (requested : RequestedIn messageSize events transId request) :
    ∃ sessionId, trans.self = .putFileSession sessionId ∧
      Targets worker.app request sessionId := by
  revert meets trans registered requested
  refine Machine.Reaches.induction
    (motive := fun events worker =>
      (serverMachine messageSize).StepsMeet KeepsTargets events →
      ∀ {trans : MultiplyPhaseTransaction TransSelf},
      worker.transList[transId]? = some trans →
      RequestedIn messageSize events transId request →
      ∃ sessionId, trans.self = .putFileSession sessionId ∧
        Targets worker.app request sessionId) ?_ ?_ reaches
  · intro _ trans found
    simp [serverMachine, Worker.init] at found
  · intro events worker event next reached before stepped meets trans found
      requested
    have reachable : (serverMachine messageSize).Reachable worker :=
      ⟨events, reached⟩
    have keeps := meets.last reached
    rcases requested.snoc_cases reached with ⟨earlier, running⟩ |
      ⟨now, connId, serviceId, package, rfl, starts, command, content,
        counted⟩
    · have known := earlier.lt reached
      cases event with
      | restart rest => exact absurd rfl (running rest)
      | worker event =>
          have was : worker.transList[transId]? = some trans := by
            cases event with
            | receive now connId serviceId package =>
                rcases (waitsOnce messageSize).registered_of_receive stepped
                    found with was | ⟨new, -⟩
                · exact was
                · omega
            | internal call =>
                have called : Worker.callInternal (program messageSize) call
                    worker = some next := stepped
                rw [Worker.eq_of_callInternal called] at found
                exact found
            | expire now timerId =>
                exact (waitsOnce messageSize).registered_of_expire stepped
                  found
          obtain ⟨sessionId, self, targets⟩ := before meets.of_snoc was
            earlier
          exact ⟨sessionId, self,
            targets.step reachable stepped keeps was self⟩
    · subst counted
      exact targets_of_started reachable keeps starts command content stepped
        found

end Requests

/-! ## Answers -/

variable (messageSize) in
/-- The step takes the package for the response, without an error, that a put
session transaction waits for; the transaction then answers its request with
success. -/
def AnswersPut (worker : ServerWorker) (event : ServerEvent) (transId : Int)
    (later : ServerWorker) : Prop :=
  ∃ now connId serviceId package waiting sessionId,
    event = .worker (.receive now connId serviceId package) ∧
    worker.waitingTransaction package = some waiting ∧
    waiting.fits connId serviceId package.command = true ∧
    waiting.id = transId ∧
    waiting.self = .putFileSession sessionId ∧
    waiting.self.Succeeds package ∧
    (serverMachine messageSize).step worker event = some later

/-- Without its session `on_active` has no defined behaviour. -/
theorem PutFileSessionTrans.onActive_live {before : Server}
    {trans : MultiplyPhaseTransaction TransSelf} {sessionId : Int}
    {package : Package Message}
    (self : trans.self = .putFileSession sessionId)
    (succeeds : trans.self.Succeeds package) :
    Action.Ensures (PutFileSessionTrans.onActive trans sessionId package)
      (Worker.startFrame before trans.self)
      (fun _ _ => ∃ session,
        before.sessions.findPutSession sessionId = some session)
      (fun fault _ => fault = .undefined) := by
  rw [self] at succeeds
  obtain ⟨response, parsed, noError⟩ := succeeds
  simp only [PutFileSessionTrans.onActive, parse, Action.ensures_bind,
    Action.ensures_check, parsed, Except.ok.injEq]
  refine ⟨?_, by simp⟩
  rintro other rfl
  rw [noError]
  simp only [Action.ensures_bind, ensures_onApp, sendBackMessage,
    Server.onSessions, Action.ensures_zoom, ensures_sendBackProtocol]
  unfold Action.Ensures setPutNodeSession
  cases found : before.sessions.findPutSession sessionId with
  | none => simp [Worker.startFrame, found]
  | some session => simp [Worker.startFrame, found]

/-- The session of an answered transaction is live. -/
theorem live_of_answers {now connId serviceId : Int}
    {package : Package Message}
    {waiting : MultiplyPhaseTransaction TransSelf} {sessionId : Int}
    (answers : worker.waitingTransaction package = some waiting)
    (fits : waiting.fits connId serviceId package.command = true)
    (self : waiting.self = .putFileSession sessionId)
    (succeeds : waiting.self.Succeeds package)
    (received : Worker.receive (program messageSize) now connId serviceId
      package worker = some later) :
    ∃ session, worker.app.sessions.findPutSession sessionId =
      some session := by
  cases Worker.received_of_receive received with
  | unknown starts unregistered => simp [answers] at starts
  | onePhase starts registered call => simp [answers] at starts
  | multiplyPhase starts registered call => simp [answers] at starts
  | foreign other mismatch =>
      rw [answers] at other
      cases other
      simp [fits] at mismatch
  | active other _ call =>
      rw [answers] at other
      cases other
      have live := @PutFileSessionTrans.onActive_live worker.app
        waiting.clearWaitingState sessionId package self succeeds
      have same : waiting.clearWaitingState.self =
          .putFileSession sessionId := self
      rw [program_onActive, onActive_of_putFileSession same] at call
      rcases Worker.callTransaction_cases call with
        run | ⟨thrown, errorInfo, failed, result, run, rerun⟩
      · exact live.of_ok (Worker.runMember_spec run rfl).1
      · cases live.of_error (Worker.runMember_spec run rfl).1

variable (messageSize) in
/-- Whenever a request for a put session is answered with success, its path
leads to a general file of its group. -/
def AnswersLead (events : List ServerEvent) : Prop :=
  ∀ first event second worker later transId request,
    events = first ++ event :: second →
    (serverMachine messageSize).Reaches first worker →
    AnswersPut messageSize worker event transId later →
    RequestedIn messageSize first transId request →
    LeadsToFile later.app request.groupId request.filePath

/-- In a run that removes nothing on the path of an upload that waits, uses
sessions again only for files that are there, and spells its uploads so that
the two views agree, every successful answer is about a general file. -/
theorem answersLead_of_keepsTargets {events : List ServerEvent}
    (meets : (serverMachine messageSize).StepsMeet KeepsTargets events) :
    AnswersLead messageSize events := by
  rintro first event second worker later transId request rfl reaches
    ⟨now, connId, serviceId, package, waiting, sessionId, rfl, answers, fits,
      rfl, self, succeeds, stepped⟩ requested
  have reachable : (serverMachine messageSize).Reachable worker :=
    ⟨first, reaches⟩
  obtain ⟨transId, -, registered, own, -⟩ :=
    (transIds_of_reachable reachable).waiting answers
  subst own
  obtain ⟨taken, same, targets⟩ := targets_of_reaches meets.of_append reaches
    registered requested
  rw [self] at same
  cases same
  obtain ⟨session, live⟩ := live_of_answers answers fits self succeeds stepped
  have received : Worker.step (program messageSize) worker
      (.receive now connId serviceId package) = some later := stepped
  refine (targets.leads session live).2.2.step reachable received ?_
  rintro target ⟨_, _, _, _, _, _, _, _, _, _, same, starts, -⟩
  cases same
  rw [answers] at starts
  cases starts

end Runs

/-! ## An upload that is answered, and one after a removal -/

/-- The storage node answers the package without an error. -/
def nodeResponse (triggerPackageId : Int) : Package Message where
  command := 1030
  selfPackageId := 1
  triggerPackageId := triggerPackageId
  content := some (.rspNodePutFileSession { error := none, sessionId := 1 })

/-- The root user asks for a session that uploads `f`, and the storage node
answers. -/
def answeredEvents : List ServerEvent :=
  openingEvents ++ [.worker (.receive 0 5 0 uploadPackage)] ++
    [.worker (.receive 0 7 2 (nodeResponse 4))]

def answeredWorker : ServerWorker :=
  ((serverMachine fun _ => 0).step uploadingWorker
    (.worker (.receive 0 7 2 (nodeResponse 4)))).get (by decide +kernel)

/-- An event that neither removes a path nor starts an upload. -/
theorem KeepsTargets.of_quiet {worker : ServerWorker} {event : ServerEvent}
    (quiet : ∀ now connId serviceId package,
      event = .worker (.receive now connId serviceId package) →
      worker.waitingTransaction package = none →
      package.command ≠ 1027 ∧ ∀ groupId path force,
        package.content ≠ some (.reqRemovePath groupId path force)) :
    KeepsTargets worker event := by
  constructor
  · rintro target ⟨now, connId, serviceId, package, groupId, path, force, -,
      -, -, same, starts, content, -⟩
    have other := (quiet now connId serviceId package same starts).2
    exact absurd content (other groupId path force)
  · rintro request user group session ⟨now, connId, serviceId, package, same,
      starts, command, -⟩
    exact absurd command (quiet now connId serviceId package same starts).1
  · rintro request user group dirId fileList ⟨now, connId, serviceId,
      package, same, starts, command, -⟩
    exact absurd command (quiet now connId serviceId package same starts).1

theorem answeredEvents_keepsTargets :
    (serverMachine fun _ => 0).StepsMeet KeepsTargets answeredEvents := by
  refine Machine.StepsMeet.snoc (Machine.StepsMeet.snoc
    (Machine.StepsMeet.of_forall ?_) ?_) ?_
  · intro event opens worker
    apply KeepsTargets.of_quiet
    simp only [openingEvents, clientRequest, List.mem_cons,
      List.not_mem_nil, or_false] at opens
    rcases opens with rfl | rfl | rfl | rfl <;>
      rintro now connId serviceId package same - <;> cases same
    exact ⟨by decide, by simp⟩
  · intro worker reaches
    obtain rfl := reaches.unique openedWorker_reaches
    constructor
    · rintro target ⟨now, connId, serviceId, package, groupId, path, force,
        -, -, -, same, starts, content, -⟩
      cases same
      cases content
    · rintro request user group session ⟨now, connId, serviceId, package,
        same, starts, command, content, manages⟩ found
      cases same
      cases content
      have fresh : openedWorker.app.sessions = FileSessionManager.init := by
        decide +kernel
      rw [fresh] at found
      cases found
    · rintro request user group dirId fileList ⟨now, connId, serviceId,
        package, same, starts, command, content, manages⟩ - - -
      cases same
      cases content
      decide
  · intro worker reaches
    obtain rfl := reaches.unique uploadingWorker_reaches
    apply KeepsTargets.of_quiet
    rintro now connId serviceId package same starts
    cases same
    cases starts

/-- The answer to a transaction that has taken down session 1. -/
theorem answersPut_nodeResponse {worker later : ServerWorker}
    {triggerPackageId transId : Int}
    {waiting : MultiplyPhaseTransaction TransSelf}
    (answers : worker.waitingTransaction (nodeResponse triggerPackageId) =
      some waiting)
    (fits : waiting.fits 7 2 1030 = true) (own : waiting.id = transId)
    (self : waiting.self = .putFileSession 1)
    (stepped : (serverMachine fun _ => 0).step worker
      (.worker (.receive 0 7 2 (nodeResponse triggerPackageId))) =
        some later) :
    AnswersPut (fun _ => 0) worker
      (.worker (.receive 0 7 2 (nodeResponse triggerPackageId))) transId
      later := by
  refine ⟨0, 7, 2, _, waiting, 1, rfl, answers, fits, own, self, ?_, stepped⟩
  rw [self]
  exact ⟨_, rfl, rfl⟩

theorem leadsToFile_answeredWorker :
    LeadsToFile answeredWorker.app 1 ['f'] := by
  have requested : RequestedIn (fun _ => 0)
      (openingEvents ++ [.worker (.receive 0 5 0 uploadPackage)]) 1
      { groupId := 1, filePath := ['f'], maxFragment := 1 } :=
    ⟨openingEvents, 0, 5, 0, uploadPackage, [], openedWorker, rfl,
      openedWorker_reaches, rfl, rfl, rfl, by decide +kernel, by simp⟩
  have answers : AnswersPut (fun _ => 0) uploadingWorker
      (.worker (.receive 0 7 2 (nodeResponse 4))) 1 answeredWorker :=
    answersPut_nodeResponse
      (Option.some_get (by decide +kernel)).symm (by decide +kernel)
      (by decide +kernel) (by decide +kernel) (Option.some_get _).symm
  exact answersLead_of_keepsTargets answeredEvents_keepsTargets _ _ [] _ _ _
    _ rfl uploadingWorker_reaches answers requested

/-- The file is removed again, and its upload is asked for once more. -/
def withdrawnEvents : List ServerEvent :=
  answeredEvents ++ [clientRequest 5 (.reqRemovePath 1 ['f'] false)]

def withdrawnWorker : ServerWorker :=
  ((serverMachine fun _ => 0).run (serverMachine fun _ => 0).start
    withdrawnEvents).get (by decide +kernel)

def resumingWorker : ServerWorker :=
  ((serverMachine fun _ => 0).step withdrawnWorker
    (.worker (.receive 0 5 0 uploadPackage))).get (by decide +kernel)

def resumedWorker : ServerWorker :=
  ((serverMachine fun _ => 0).step resumingWorker
    (.worker (.receive 0 7 2 (nodeResponse 9)))).get (by decide +kernel)

/-- The second request finds the session of the first, and is answered with
success for a path that leads nowhere. -/
theorem not_answersLead_always :
    ¬∀ events, AnswersLead (fun _ => 0) events := by
  intro always
  have reached : (serverMachine fun _ => 0).Reaches withdrawnEvents
      withdrawnWorker := (Option.some_get _).symm
  have reaches : (serverMachine fun _ => 0).Reaches
      (withdrawnEvents ++ [.worker (.receive 0 5 0 uploadPackage)])
      resumingWorker :=
    Machine.reaches_snoc_iff.mpr
      ⟨withdrawnWorker, reached, (Option.some_get _).symm⟩
  have requested : RequestedIn (fun _ => 0)
      (withdrawnEvents ++ [.worker (.receive 0 5 0 uploadPackage)]) 3
      { groupId := 1, filePath := ['f'], maxFragment := 1 } :=
    ⟨withdrawnEvents, 0, 5, 0, uploadPackage, [], withdrawnWorker, rfl,
      reached, rfl, rfl, rfl, by decide +kernel, by simp⟩
  have answers : AnswersPut (fun _ => 0) resumingWorker
      (.worker (.receive 0 7 2 (nodeResponse 9))) 3 resumedWorker :=
    answersPut_nodeResponse
      (Option.some_get (by decide +kernel)).symm (by decide +kernel)
      (by decide +kernel) (by decide +kernel) (Option.some_get _).symm
  obtain ⟨group, fileId, file, listed, resolved, found, -⟩ :=
    always _ _ _ [] _ _ _ _ rfl reaches answers requested
  have only : resumedWorker.app.groups.findGroup 1 =
      some (SharingGroup.init 1 ['g'] 1 1 1) := by decide +kernel
  obtain rfl := Option.some_inj.mp (listed.symm.trans only)
  have nowhere : (SharingGroup.init 1 ['g'] 1 1 1).getFileId
      resumedWorker.app.files (FilePath.ofText ['f']) = .ok invalidId := by
    decide +kernel
  rw [nowhere] at resolved
  cases resolved
  have missing : resumedWorker.app.files.findFile invalidId = none := by
    decide +kernel
  rw [missing] at found
  cases found

end ResourceServer
end Spaceless
