import Spaceless.ResourceServer.Permission

/-!
# The session table of the server

Sessions are kept under their own ids, which are handed out in increasing
order.  A session request finds a live session, registers one together with
the files of its upload, or stops; a step of the server keeps the sessions it
does not end, up to their progress.
-/

namespace Spaceless
namespace ResourceServer

open Logic Foundation Protocol

namespace Session

def sessionId : Session → Int
  | .put session => session.sessionId
  | .get session => session.sessionId

/-- The session as it was registered, without its progress. -/
def registered : Session → Session
  | .put session =>
      .put { session with nextFragment := 0, nodeSessionId := 0 }
  | .get session => .get { session with nodeSessionId := 0 }

@[simp] theorem sessionId_registered (session : Session) :
    session.registered.sessionId = session.sessionId := by
  cases session <;> rfl

theorem sessionId_of_registered {first second : Session}
    (same : first.registered = second.registered) :
    first.sessionId = second.sessionId := by
  rw [← sessionId_registered first, same, sessionId_registered]

end Session

namespace FileSessionManager

/-- Sessions are kept under their own ids, which have been handed out. -/
structure Keyed (sessions : FileSessionManager) : Prop where
  positive : 0 < sessions.nextId
  bounds : ∀ sessionId session,
    sessions.sessionList[sessionId]? = some session →
    0 < sessionId ∧ sessionId < sessions.nextId ∧
      session.sessionId = sessionId

/-- The two managers have the same sessions and hand out the same ids. -/
structure SameSessions (first second : FileSessionManager) : Prop where
  sessionList : second.sessionList = first.sessionList
  nextId : second.nextId = first.nextId

variable {sessions : FileSessionManager}

theorem keyed_init : Keyed init :=
  ⟨by decide, by simp [init]⟩

theorem Keyed.of_same {later : FileSessionManager} (keyed : Keyed sessions)
    (same : SameSessions sessions later) : Keyed later := by
  refine ⟨same.nextId ▸ keyed.positive, ?_⟩
  rw [same.sessionList, same.nextId]
  exact keyed.bounds

theorem Keyed.not_found_nextId (keyed : Keyed sessions) :
    sessions.sessionList[sessions.nextId]? = none := by
  cases found : sessions.sessionList[sessions.nextId]? with
  | none => rfl
  | some session =>
      have bounds := keyed.bounds _ _ found
      omega

theorem Keyed.not_found_invalidId (keyed : Keyed sessions) :
    sessions.sessionList[invalidId]? = none := by
  cases found : sessions.sessionList[invalidId]? with
  | none => rfl
  | some session =>
      exact absurd (keyed.bounds _ _ found).1 (by decide)

/-- Replacing a session by one with the same id. -/
theorem Keyed.setSession (keyed : Keyed sessions) {sessionId : Int}
    {old session : Session}
    (found : sessions.sessionList[sessionId]? = some old)
    (same : session.sessionId = old.sessionId) :
    Keyed (sessions.setSession sessionId session) := by
  refine ⟨keyed.positive, ?_⟩
  intro other entry stored
  have bounds := keyed.bounds sessionId old found
  rw [FileSessionManager.setSession, Table.lookup_insert] at stored
  split at stored
  · rename_i here
    cases stored
    exact here ▸ ⟨bounds.1, bounds.2.1, same.trans bounds.2.2⟩
  · exact keyed.bounds other entry stored

theorem Keyed.removeSession (keyed : Keyed sessions) (sessionId : Int) :
    Keyed (sessions.removeSession sessionId) :=
  ⟨keyed.positive, fun other session stored =>
    keyed.bounds other session (Table.lookup_of_lookup_erase stored)⟩

theorem findPutSession_eq_some {sessionId : Int} {session : PutFileSession} :
    sessions.findPutSession sessionId = some session ↔
      sessions.sessionList[sessionId]? = some (.put session) := by
  unfold findPutSession
  split <;> simp_all

theorem findGetSession_eq_some {sessionId : Int} {session : GetFileSession} :
    sessions.findGetSession sessionId = some session ↔
      sessions.sessionList[sessionId]? = some (.get session) := by
  unfold findGetSession
  split <;> simp_all

/-! ## Lookups by path -/

theorem findSession_same (groupId : Int) (filePath : Text) :
    SameSessions sessions (sessions.findSession groupId filePath).2 := by
  unfold findSession
  split
  · exact ⟨rfl, rfl⟩
  · split
    · exact ⟨rfl, rfl⟩
    · split <;> exact ⟨rfl, rfl⟩

theorem findSession_live {groupId : Int} {filePath : Text}
    {session : Session}
    (found : (sessions.findSession groupId filePath).1 = some session) :
    ∃ sessionId : Int,
      sessions.sessionList[sessionId]? = some session := by
  unfold findSession at found
  split at found
  · cases found
  · split at found
    · cases found
    · split at found
      · rename_i live
        cases found
        exact ⟨_, live⟩
      · cases found

theorem findPutSessionOf_same (userId groupId : Int) (filePath : Text) :
    SameSessions sessions
      (findPutSessionOf userId groupId filePath sessions).2 := by
  have same := @findSession_same sessions groupId filePath
  unfold findPutSessionOf
  split <;> rename_i looked <;> rwa [looked] at same

theorem findGetSessionOf_same (userId groupId : Int) (filePath : Text) :
    SameSessions sessions
      (findGetSessionOf userId groupId filePath sessions).2 := by
  have same := @findSession_same sessions groupId filePath
  unfold findGetSessionOf
  split <;> rename_i looked <;> rwa [looked] at same

/-- The session that a user finds is live, under its own id. -/
theorem Keyed.live_of_findPutSessionOf (keyed : Keyed sessions)
    {userId groupId : Int} {filePath : Text} {session : PutFileSession}
    (found : (findPutSessionOf userId groupId filePath sessions).1 =
      .ok (some session)) :
    sessions.sessionList[session.sessionId]? = some (.put session) := by
  unfold findPutSessionOf at found
  split at found
  · rename_i other later looked
    have first : (sessions.findSession groupId filePath).1 =
        some (Session.put other) := by rw [looked]
    split at found
    · cases found
      obtain ⟨sessionId, live⟩ := findSession_live first
      have key := (keyed.bounds _ _ live).2.2
      change session.sessionId = sessionId at key
      rwa [key]
    · cases found
  · cases found

/-- Registering a session under keyed ids. -/
theorem Keyed.registerSession (keyed : Keyed sessions)
    (groupId : Int) (filePath : Text) (entry : Int → Session) :
    ∃ later, registerSession groupId filePath entry sessions =
        (.ok sessions.nextId, later) ∧
      later.sessionList = sessions.sessionList.insert sessions.nextId
        (entry sessions.nextId) ∧
      later.nextId = sessions.nextId + 1 := by
  simp only [FileSessionManager.registerSession, keyed.not_found_nextId]
  exact ⟨_, rfl, rfl, rfl⟩

end FileSessionManager

open FileSessionManager

/-! ## What an upload leaves in the file table -/

namespace SharingFileManager

variable {files : SharingFileManager} {fileId : Int}

theorem isSome_setFile (stored : (files.findFile fileId).isSome = true)
    (other : Int) (file : SharingFile) :
    ((files.setFile other file).findFile fileId).isSome = true := by
  rw [findFile_setFile]
  split
  · rfl
  · exact stored

theorem insertFile_keeps (stored : (files.findFile fileId).isSome = true)
    (file : SharingFile) :
    Action.Ensures (insertFile file) files
      (fun _ later => (later.findFile fileId).isSome = true)
      (fun _ later => (later.findFile fileId).isSome = true) := by
  unfold Action.Ensures insertFile
  split <;> rename_i outcome <;> split at outcome <;> cases outcome
  · exact isSome_setFile stored _ _
  · exact stored

theorem useStorageFile_keeps (stored : (files.findFile fileId).isSome = true)
    (storageFileId : Int) :
    Action.Ensures (useStorageFile storageFileId) files
      (fun _ later => (later.findFile fileId).isSome = true)
      (fun _ later => (later.findFile fileId).isSome = true) := by
  unfold Action.Ensures useStorageFile
  cases files.getFile storageFileId with
  | error fault => exact stored
  | ok file =>
      cases body : file.body with
      | directory fileList => simpa only [body] using stored
      | generalFile other => simpa only [body] using stored
      | storageFile nodeId useCounting =>
          simp only [body]
          exact isSome_setFile stored _ _

theorem registerGeneral_keeps
    (stored : (files.findFile fileId).isSome = true)
    (fileName : Text) (storageFileId : Int) :
    Action.Ensures (registerFile .generalFile fileName storageFileId) files
      (fun _ later => (later.findFile fileId).isSome = true)
      (fun _ later => (later.findFile fileId).isSome = true) := by
  simp only [registerFile, Action.ensures_bind]
  exact (useStorageFile_keeps stored storageFileId).mono
    (fun _ _ used => insertFile_keeps used _) fun _ _ failed => failed

theorem pushFile_keeps (stored : (files.findFile fileId).isSome = true)
    (directoryId other : Int) :
    ((files.pushFile directoryId other).findFile fileId).isSome = true := by
  unfold pushFile
  split
  · split
    · exact isSome_setFile stored _ _
    · exact stored
  · exact stored

theorem addFile_keeps (stored : (files.findFile fileId).isSome = true)
    (group : SharingGroup) (dirPath : FilePath) (other : Int) :
    Action.Ensures (group.addFile dirPath other) files
      (fun _ later => (later.findFile fileId).isSome = true)
      (fun _ later => (later.findFile fileId).isSome = true) := by
  simp only [SharingGroup.addFile, Action.ensures_bind, Action.ensures_check,
    Action.ensures_throwIf, Action.ensures_modify]
  exact ⟨fun dirId _ => ⟨fun _ _ => ⟨fun _ => stored,
    fun _ => pushFile_keeps stored dirId other⟩, fun _ _ => stored⟩,
    fun _ _ => stored⟩

/-- A storage file is registered under the next id. -/
theorem Owned.registerStorage {owner : Int → Int} (owned : files.Owned owner)
    (fileName : Text) (nodeId : Int) :
    ∃ later, registerFile .storageFile fileName nodeId files =
        (.ok files.nextId, later) ∧
      (later.findFile files.nextId).isSome = true := by
  simp only [registerFile, insertFile, owned.not_found_nextId]
  exact ⟨_, rfl, by rw [findFile_setFile_self]; rfl⟩

end SharingFileManager

open SharingFileManager

/-! ## The run of a session request -/

/-- The session request gets past its checks: it finds a session of the same
number of fragments to use again, or registers a file. -/
def Proceeds (server : Server) (user : User) (group : SharingGroup)
    (request : ReqPutFileSession) : Prop :=
  (∃ session, (findPutSessionOf user.userId request.groupId
      request.filePath server.sessions).1 = .ok (some session) ∧
    request.maxFragment = session.maxFragment) ∨
  Uploads server user group request

/-- How the part of a session request that finds or registers a session
ends. -/
inductive PutSessionRun (before : Server) (user : User)
    (group : SharingGroup) (request : ReqPutFileSession) :
    Except Fault PutFileSession → Server → Prop
  | refused {fault sessions}
      (stopped : ¬Proceeds before user group request)
      (same : SameSessions before.sessions sessions) :
      PutSessionRun before user group request (.error fault)
        { before with sessions := sessions }
  | reused {session sessions}
      (proceeds : Proceeds before user group request)
      (live : before.sessions.sessionList[session.sessionId]? =
        some (.put session))
      (same : SameSessions before.sessions sessions) :
      PutSessionRun before user group request (.ok session)
        { before with sessions := sessions }
  | unlisted {fault files sessions}
      (uploads : Uploads before user group request)
      (stored : (files.findFile before.files.nextId).isSome = true)
      (same : SameSessions before.sessions sessions) :
      PutSessionRun before user group request (.error fault)
        { before with files := files, sessions := sessions }
  | registered {files sessions}
      (uploads : Uploads before user group request)
      (stored : (files.findFile before.files.nextId).isSome = true)
      (sessionList : sessions.sessionList =
        before.sessions.sessionList.insert before.sessions.nextId
          (.put (PutFileSession.init before.sessions.nextId user.userId
            request.groupId request.filePath request.maxFragment)))
      (nextId : sessions.nextId = before.sessions.nextId + 1) :
      PutSessionRun before user group request
        (.ok (PutFileSession.init before.sessions.nextId user.userId
          request.groupId request.filePath request.maxFragment))
        { before with files := files, sessions := sessions }

section Run

variable {before : Server} {owner : Int → Int} (user : User)
  (group : SharingGroup) (request : ReqPutFileSession)

theorem registerPutFile_run {sessions : FileSessionManager}
    (owned : before.files.Owned owner) (keyed : before.sessions.Keyed)
    (same : SameSessions before.sessions sessions)
    (noSession : (findPutSessionOf user.userId request.groupId
      request.filePath before.sessions).1 = .ok none) :
    Action.Ensures (registerPutFile user group request)
      { before with sessions := sessions }
      (fun session later =>
        PutSessionRun before user group request (.ok session) later)
      (fun fault later =>
        PutSessionRun before user group request (.error fault) later) := by
  have refused (stopped : ¬Uploads before user group request)
      (fault : Fault) :
      PutSessionRun before user group request (.error fault)
        { before with sessions := sessions } := by
    refine .refused ?_ same
    rintro (⟨session, found, -⟩ | uploads)
    · rw [noSession] at found
      cases found
    · exact stopped uploads
  simp only [registerPutFile, Action.ensures_bind, Action.ensures_check,
    Action.ensures_throwIf, Server.onFiles, Server.onSessions,
    Action.ensures_zoom]
  refine ⟨fun directory directoryChecked => ⟨fun missing => ?_,
    fun exists_ => ⟨fun path pathChecked => ⟨fun present => ?_,
      fun absent => ?_⟩, fun fault failed => ?_⟩⟩, fun fault failed => ?_⟩
  · refine refused (fun uploads => ?_) _
    rw [uploads.directory] at directoryChecked
    cases directoryChecked
    cases missing
  · refine refused (fun uploads => ?_) _
    rw [uploads.path] at pathChecked
    cases pathChecked
    cases present
  · rw [Bool.not_eq_false] at exists_
    rw [Bool.not_eq_true] at absent
    subst exists_ absent
    have uploads : Uploads before user group request :=
      ⟨noSession, directoryChecked, pathChecked⟩
    obtain ⟨files, registered, stored⟩ := owned.registerStorage
      (FilePath.ofText request.filePath).filename group.nodeId
    refine Action.ensures_of_ok registered ?_
    refine (registerGeneral_keeps stored _ _).mono ?_
      fun fault later storedLater => .unlisted uploads storedLater same
    intro generalId later storedLater
    refine (addFile_keeps storedLater group _ generalId).mono ?_
      fun fault later storedLater => .unlisted uploads storedLater same
    intro _ added storedAdded
    obtain ⟨later, ran, sessionList, nextId⟩ :=
      (keyed.of_same same).registerSession request.groupId request.filePath
        fun sessionId => .put (PutFileSession.init sessionId user.userId
          request.groupId request.filePath request.maxFragment)
    rw [same.sessionList, same.nextId] at sessionList
    rw [same.nextId] at nextId ran
    refine Action.ensures_of_ok ran ?_
    have got : later.getPutSession before.sessions.nextId =
        .ok (PutFileSession.init before.sessions.nextId user.userId
          request.groupId request.filePath request.maxFragment) := by
      simp [getPutSession, findPutSession, sessionList]
    simp only [got, Except.ok.injEq, reduceCtorEq, false_implies,
      implies_true, and_true]
    rintro session rfl
    exact .registered uploads storedAdded sessionList nextId
  · refine refused (fun uploads => ?_) fault
    rw [uploads.path] at failed
    cases failed
  · refine refused (fun uploads => ?_) fault
    rw [uploads.directory] at failed
    cases failed

/-- The run of `putSession` on keyed sessions. -/
theorem putSession_run (owned : before.files.Owned owner)
    (keyed : before.sessions.Keyed) :
    Action.Ensures (putSession user group request) before
      (fun session later =>
        PutSessionRun before user group request (.ok session) later)
      (fun fault later =>
        PutSessionRun before user group request (.error fault) later) := by
  have same := @findPutSessionOf_same before.sessions user.userId
    request.groupId request.filePath
  simp only [putSession, Action.ensures_bind, Server.onSessions,
    Action.ensures_zoom]
  refine (Action.ensures_self _ _).mono ?_ ?_
  · intro found sessions looked
    rw [looked] at same
    have first : (findPutSessionOf user.userId request.groupId
        request.filePath before.sessions).1 = .ok found := by rw [looked]
    cases found with
    | none =>
        exact registerPutFile_run user group request owned keyed same first
    | some session =>
        simp only [Action.ensures_bind, Action.ensures_throwIf,
          Action.ensures_pure]
        refine ⟨fun different => .refused ?_ same, fun sameMax => ?_⟩
        · rintro (⟨other, found, sameMax⟩ | uploads)
          · rw [first] at found
            cases found
            exact different sameMax
          · rw [uploads.noSession] at first
            cases first
        · exact .reused (Or.inl ⟨session, first, not_not.mp sameMax⟩)
            (keyed.live_of_findPutSessionOf first) same
  · intro fault sessions looked
    unfold findPutSessionOf at looked
    split at looked <;> cases looked

/-- The run of `getSession` on keyed sessions. -/
theorem getSession_run (keyed : before.sessions.Keyed)
    (userId groupId : Int) (filePath : Text) :
    ∃ sessions, (getSession userId groupId filePath).after before =
        { before with sessions := sessions } ∧
      (SameSessions before.sessions sessions ∨
        sessions.sessionList =
            before.sessions.sessionList.insert before.sessions.nextId
              (.get (GetFileSession.init before.sessions.nextId userId
                groupId filePath)) ∧
          sessions.nextId = before.sessions.nextId + 1) := by
  have same := @findGetSessionOf_same before.sessions userId groupId filePath
  suffices ensures : Action.Ensures (getSession userId groupId filePath)
      before
      (fun _ later => ∃ sessions, later = { before with sessions := sessions }
        ∧ (SameSessions before.sessions sessions ∨
          sessions.sessionList =
              before.sessions.sessionList.insert before.sessions.nextId
                (.get (GetFileSession.init before.sessions.nextId userId
                  groupId filePath)) ∧
            sessions.nextId = before.sessions.nextId + 1))
      (fun _ later => ∃ sessions, later = { before with sessions := sessions }
        ∧ (SameSessions before.sessions sessions ∨
          sessions.sessionList =
              before.sessions.sessionList.insert before.sessions.nextId
                (.get (GetFileSession.init before.sessions.nextId userId
                  groupId filePath)) ∧
            sessions.nextId = before.sessions.nextId + 1)) from
    Action.ensures_after.mp ensures
  simp only [getSession, Action.ensures_bind, Server.onSessions,
    Action.ensures_zoom]
  refine (Action.ensures_self _ _).mono ?_ ?_
  · intro found sessions looked
    rw [looked] at same
    cases found with
    | some session =>
        exact Action.ensures_pure.mpr ⟨sessions, rfl, Or.inl same⟩
    | none =>
        obtain ⟨later, ran, sessionList, nextId⟩ :=
          (keyed.of_same same).registerSession groupId filePath
            fun sessionId => .get (GetFileSession.init sessionId userId
              groupId filePath)
        rw [same.sessionList, same.nextId] at sessionList
        rw [same.nextId] at nextId
        refine Action.ensures_zoom.mpr (Action.ensures_of_ok ran ?_)
        exact ⟨later, rfl, Or.inr ⟨sessionList, nextId⟩⟩
  · intro fault sessions looked
    rw [looked] at same
    exact ⟨sessions, rfl, Or.inl same⟩

end Run

/-! ## Sessions over a step -/

theorem registerGroup_sessions (before : Server) (userId : Int)
    (groupName : Text) :
    ((Server.registerGroup userId groupName).after before).sessions =
      before.sessions := by
  suffices ensures : Action.Ensures (Server.registerGroup userId groupName)
      before (fun _ later => later.sessions = before.sessions)
      (fun _ later => later.sessions = before.sessions) from
    Action.ensures_after.mp ensures
  simp only [Server.registerGroup, Server.onFiles, Server.onGroups,
    Server.onNodes, Action.ensures_bind, Action.ensures_read,
    Action.ensures_throwIf, Action.ensures_zoom, Action.ensures_check,
    Action.ensures_modify, Action.ensures_pure, implies_true, and_true,
    true_and]
  exact fun _ => Action.ensures_of_forall (fun _ _ => trivial)
    fun _ _ => trivial

/-- The change registers the session. -/
inductive Opens (before : Server) : Source → Session → Prop
  | put {connId package user group} (request : ReqPutFileSession)
      (command : package.command = 1027)
      (content : package.content = some (.reqPutFileSession request))
      (manages : Manages before connId request.groupId user group)
      (uploads : Uploads before user group request) :
      Opens before (.request connId package)
        (.put (PutFileSession.init before.sessions.nextId user.userId
          request.groupId request.filePath request.maxFragment))
  | get {connId package groupId user group} (filePath : Text)
      (command : package.command = 1033)
      (content : package.content =
        some (.reqGetFileSession groupId filePath))
      (acts : Acts before connId groupId user group)
      (member : group.isMember user.userId = true)
      {storageFileId : Int}
      (general : generalFileAt group (FilePath.ofText filePath) before =
        (.ok storageFileId, before)) :
      Opens before (.request connId package)
        (.get (GetFileSession.init before.sessions.nextId user.userId
          groupId filePath))

/-- The change keeps the session, up to its progress. -/
inductive Continues (before : Server) : Source → Session → Session → Prop
  | same {source} (session : Session) :
      Continues before source session session
  | fragment {connId package user session} (request : ReqPutFile)
      (command : package.command = 1031)
      (content : package.content = some (.reqPutFile request))
      (login : before.users.findLoginUser connId = some user)
      (found : before.sessions.findPutSession request.sessionId =
        some session)
      (own : session.userId = user.userId)
      (next : request.fragmentIndex = session.nextFragment) :
      Continues before (.request connId package) (.put session)
        (.put { session with nextFragment := session.nextFragment + 1 })
  | putNode {source session} (nodeSessionId : Int) :
      Continues before source (.put session)
        (.put { session with nodeSessionId := nodeSessionId })
  | getNode {source session} (nodeSessionId : Int) :
      Continues before source (.get session)
        (.get { session with nodeSessionId := nodeSessionId })

theorem Continues.registered {before : Server} {source : Source}
    {old session : Session} (continues : Continues before source old session) :
    session.registered = old.registered := by
  cases continues <;> rfl

/-- Where the sessions after a change come from. -/
structure SessionsFrom (before : Server) (source : Source)
    (after : FileSessionManager) : Prop where
  keyed : after.Keyed
  grows : before.sessions.nextId ≤ after.nextId
  origin : ∀ sessionId session, after.sessionList[sessionId]? = some session →
    (∃ old, before.sessions.sessionList[sessionId]? = some old ∧
      Continues before source old session) ∨
    sessionId = before.sessions.nextId ∧ Opens before source session

namespace SessionsFrom

variable {before : Server} {source : Source} {after : FileSessionManager}

theorem of_same (keyed : before.sessions.Keyed)
    (same : SameSessions before.sessions after) :
    SessionsFrom before source after := by
  refine ⟨keyed.of_same same, Int.le_of_eq same.nextId.symm, ?_⟩
  intro sessionId session stored
  rw [same.sessionList] at stored
  exact Or.inl ⟨session, stored, .same session⟩

theorem of_registered {entry : Session} (keyed : before.sessions.Keyed)
    (sessionList : after.sessionList =
      before.sessions.sessionList.insert before.sessions.nextId entry)
    (nextId : after.nextId = before.sessions.nextId + 1)
    (key : entry.sessionId = before.sessions.nextId)
    (opens : Opens before source entry) :
    SessionsFrom before source after := by
  have positive := keyed.positive
  refine ⟨⟨by omega, ?_⟩, by omega, ?_⟩
  · intro sessionId session stored
    rw [sessionList, Table.lookup_insert] at stored
    split at stored
    · cases stored
      omega
    · have bounds := keyed.bounds sessionId session stored
      omega
  · intro sessionId session stored
    rw [sessionList, Table.lookup_insert] at stored
    split at stored
    · rename_i here
      cases stored
      exact Or.inr ⟨here.symm, opens⟩
    · exact Or.inl ⟨session, stored, .same session⟩

theorem of_setSession {sessionId : Int} {old session : Session}
    (keyed : before.sessions.Keyed)
    (found : before.sessions.sessionList[sessionId]? = some old)
    (continues : Continues before source old session) :
    SessionsFrom before source
      (before.sessions.setSession sessionId session) := by
  refine ⟨keyed.setSession found
    (Session.sessionId_of_registered continues.registered),
    Int.le_refl _, ?_⟩
  intro other entry stored
  rw [FileSessionManager.setSession, Table.lookup_insert] at stored
  split at stored
  · rename_i here
    cases stored
    exact Or.inl ⟨old, here ▸ found, continues⟩
  · exact Or.inl ⟨entry, stored, .same entry⟩

theorem removeSession (from_ : SessionsFrom before source after)
    (sessionId : Int) :
    SessionsFrom before source (after.removeSession sessionId) :=
  ⟨from_.keyed.removeSession sessionId, from_.grows,
    fun other session stored =>
      from_.origin other session (Table.lookup_of_lookup_erase stored)⟩

theorem of_change {owner : Int → Int} {later : Server}
    (owned : before.files.Owned owner) (keyed : before.sessions.Keyed)
    (change : Change before source later) :
    SessionsFrom before source later.sessions := by
  have unchanged : SessionsFrom before source before.sessions :=
    of_same keyed ⟨rfl, rfl⟩
  cases change with
  | same => exact unchanged
  | users changed => exact unchanged
  | nodes changed => exact unchanged
  | serialize => exact unchanged
  | registerGroup userId groupName =>
      rw [registerGroup_sessions]
      exact unchanged
  | roles acts target place permitted => exact unchanged
  | createPath path content manages => exact unchanged
  | removePath path force content manages => exact unchanged
  | @putSession connId package user group request command content
      manages =>
      have run := putSession_run user group request owned keyed
      suffices ensures : Action.Ensures (putSession user group request)
          before
          (fun _ later => SessionsFrom before (.request connId package)
            later.sessions)
          (fun _ later => SessionsFrom before (.request connId package)
            later.sessions) from Action.ensures_after.mp ensures
      refine run.mono ?_ ?_
      · intro session later outcome
        cases outcome with
        | reused proceeds live same => exact of_same keyed same
        | registered uploads stored sessionList nextId =>
            exact of_registered keyed sessionList nextId rfl
              (.put request command content manages uploads)
      · intro fault later outcome
        cases outcome with
        | refused stopped same => exact of_same keyed same
        | unlisted uploads stored same => exact of_same keyed same
  | getSession filePath command content acts member general =>
      obtain ⟨sessions, changed, same | ⟨sessionList, nextId⟩⟩ :=
        getSession_run keyed _ _ filePath
      · rw [changed]
        exact of_same keyed same
      · rw [changed]
        exact of_registered keyed sessionList nextId rfl
          (.get filePath command content acts member general)
  | putFragment request command content login found own next =>
      exact of_setSession keyed (findPutSession_eq_some.mp found)
        (.fragment request command content login found own next)
  | removeSession sessionId => exact unchanged.removeSession sessionId
  | putNodeSession sessionId nodeSessionId found =>
      exact of_setSession keyed (findPutSession_eq_some.mp found)
        (.putNode nodeSessionId)
  | getNodeSession sessionId nodeSessionId found =>
      exact of_setSession keyed (findGetSession_eq_some.mp found)
        (.getNode nodeSessionId)

theorem of_changed {owner : Int → Int} {later : Server}
    (owned : before.files.Owned owner) (keyed : before.sessions.Keyed)
    (changed : Changed before source later) :
    SessionsFrom before source later.sessions := by
  induction changed with
  | change change => exact of_change owned keyed change
  | cleanUp changed sessionId kept => exact kept.removeSession sessionId

end SessionsFrom

theorem restart_sessions (server : Server)
    (rest : Int → UninitializedUser) :
    (server.restart rest).sessions = FileSessionManager.init := by
  unfold Server.restart
  split <;> rfl

/-- In every reachable state the sessions are kept under their own ids. -/
theorem keyed_of_reachable {messageSize : Message → Nat}
    {worker : ServerWorker}
    (reachable : (serverMachine messageSize).Reachable worker) :
    worker.app.sessions.Keyed := by
  obtain ⟨events, reaches⟩ := reachable
  refine Machine.Reaches.induction
    (motive := fun _ worker => worker.app.sessions.Keyed) keyed_init ?_
    reaches
  intro events worker event next reached keyed stepped
  cases event with
  | restart rest =>
      cases stepped
      change (worker.app.restart rest).sessions.Keyed
      rw [restart_sessions]
      exact keyed_init
  | worker event =>
      obtain ⟨owner, forest⟩ :=
        (Sound.of_reachable ⟨events, reached⟩).running
      exact (SessionsFrom.of_changed forest.owned keyed
        (step_changed stepped)).keyed

end ResourceServer
end Spaceless
