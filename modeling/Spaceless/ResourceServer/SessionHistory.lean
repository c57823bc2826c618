import Spaceless.ResourceServer.SessionPath

/-!
# The history of file sessions

What the session manager answers is compared with the registrations and
removals that came before: a session is found by its id as long as it stands,
and the clean-up of a lookup by path is not seen by any later call.
-/

namespace Spaceless
namespace ResourceServer

open Logic Foundation

/-- All calls on the session manager. -/
inductive ManagerCall
  | call (call : SessionCall)
  | findPutSession (sessionId : Int)
  | findGetSession (sessionId : Int)
  | getPutSession (sessionId : Int)
  | getGetSession (sessionId : Int)
  deriving DecidableEq

/-- What a call returns: the session of a registration, the removal of an id,
a session or a null pointer, or a fault. -/
inductive SessionAnswer
  | registered (session : Session)
  | removed (sessionId : Int)
  | found (session : Option Session)
  | written
  | failed (fault : Fault)

/-- The answer says nothing on which sessions there are. -/
def SessionAnswer.Quiet : SessionAnswer → Prop
  | .registered _ => False
  | .removed _ => False
  | _ => True

namespace Session

def isPut : Session → Bool
  | .put _ => true
  | .get _ => false

def isGet : Session → Bool
  | .put _ => false
  | .get _ => true

def userId : Session → Int
  | .put session => session.userId
  | .get session => session.userId

/-- The group and the path of a session. -/
def place : Session → Int × Text
  | .put session => (session.groupId, session.filePath)
  | .get session => (session.groupId, session.filePath)

theorem place_of_registered {first second : Session}
    (same : first.registered = second.registered) :
    first.place = second.place := by
  cases first <;> cases second <;> simp_all [registered, place]

end Session

namespace FileSessionManager

/-- The answer of a call. -/
def answer (sessions : FileSessionManager) : ManagerCall → SessionAnswer
  | .call (.registerPutSession userId groupId filePath maxFragment) =>
      match (registerPutSession userId groupId filePath maxFragment
        sessions).1 with
      | .ok sessionId =>
          .registered (.put (PutFileSession.init sessionId userId groupId
            filePath maxFragment))
      | .error fault => .failed fault
  | .call (.registerGetSession userId groupId filePath) =>
      match (registerGetSession userId groupId filePath sessions).1 with
      | .ok sessionId =>
          .registered (.get (GetFileSession.init sessionId userId groupId
            filePath))
      | .error fault => .failed fault
  | .call (.removeSession sessionId) => .removed sessionId
  | .call (.findPutSession userId groupId filePath) =>
      match (findPutSessionOf userId groupId filePath sessions).1 with
      | .ok session => .found (session.map .put)
      | .error fault => .failed fault
  | .call (.findGetSession userId groupId filePath) =>
      match (findGetSessionOf userId groupId filePath sessions).1 with
      | .ok session => .found (session.map .get)
      | .error fault => .failed fault
  | .call (.nextFragment _) => .written
  | .call (.putNodeSession sessionId nodeSessionId) =>
      match (setPutNodeSession sessionId nodeSessionId sessions).1 with
      | .ok _ => .written
      | .error fault => .failed fault
  | .call (.getNodeSession sessionId nodeSessionId) =>
      match (setGetNodeSession sessionId nodeSessionId sessions).1 with
      | .ok _ => .written
      | .error fault => .failed fault
  | .findPutSession sessionId =>
      .found ((sessions.findPutSession sessionId).map .put)
  | .findGetSession sessionId =>
      .found ((sessions.findGetSession sessionId).map .get)
  | .getPutSession sessionId =>
      match sessions.getPutSession sessionId with
      | .ok session => .found (some (.put session))
      | .error fault => .failed fault
  | .getGetSession sessionId =>
      match sessions.getGetSession sessionId with
      | .ok session => .found (some (.get session))
      | .error fault => .failed fault

/-- The manager after a call. -/
def advance (sessions : FileSessionManager) :
    ManagerCall → FileSessionManager
  | .call call => sessions.next call
  | _ => sessions

/-- The session manager of one process, with every call. -/
def managerMachine : Machine FileSessionManager ManagerCall where
  start := init
  step := fun sessions call => some (sessions.advance call)

/-- The answers to a list of calls, in order. -/
def answersFrom (sessions : FileSessionManager) (calls : List ManagerCall) :
    List SessionAnswer :=
  managerMachine.outputs (fun sessions call _ => [sessions.answer call])
    sessions calls

/-- The session that stands under an id after these answers: the one that was
registered last and not removed since. -/
def standing (sessionId : Int) (answers : List SessionAnswer) :
    Option Session :=
  (answers.filterMap fun
    | .registered session =>
        if session.sessionId = sessionId then some (some session) else none
    | .removed other => if other = sessionId then some none else none
    | _ => none).getLast?.join

/-- The ids that were handed out, in order. -/
def handedOut (answers : List SessionAnswer) : List Int :=
  answers.filterMap fun
    | .registered session => some session.sessionId
    | _ => none

variable {sessions later : FileSessionManager}

/-! ## What an answer adds to the history -/

theorem standing_registered (sessionId : Int) (answers : List SessionAnswer)
    (session : Session) :
    standing sessionId (answers ++ [.registered session]) =
      if session.sessionId = sessionId then some session
      else standing sessionId answers := by
  rw [standing, List.filterMap_append]
  by_cases same : session.sessionId = sessionId <;> simp [standing, same]

theorem standing_removed (sessionId other : Int)
    (answers : List SessionAnswer) :
    standing sessionId (answers ++ [.removed other]) =
      if other = sessionId then none else standing sessionId answers := by
  rw [standing, List.filterMap_append]
  by_cases same : other = sessionId <;> simp [standing, same]

theorem standing_quiet (sessionId : Int) (answers : List SessionAnswer)
    {answer : SessionAnswer} (quiet : answer.Quiet) :
    standing sessionId (answers ++ [answer]) = standing sessionId answers := by
  rw [standing, List.filterMap_append]
  cases answer with
  | registered session => cases quiet
  | removed other => cases quiet
  | found session => simp [standing]
  | written => simp [standing]
  | failed fault => simp [standing]

theorem handedOut_registered (answers : List SessionAnswer)
    (session : Session) :
    handedOut (answers ++ [.registered session]) =
      handedOut answers ++ [session.sessionId] := by
  rw [handedOut, List.filterMap_append]
  rfl

theorem handedOut_removed (answers : List SessionAnswer) (sessionId : Int) :
    handedOut (answers ++ [.removed sessionId]) = handedOut answers := by
  rw [handedOut, List.filterMap_append]
  exact List.append_nil _

theorem handedOut_quiet (answers : List SessionAnswer)
    {answer : SessionAnswer} (quiet : answer.Quiet) :
    handedOut (answers ++ [answer]) = handedOut answers := by
  rw [handedOut, List.filterMap_append]
  cases answer with
  | registered session => cases quiet
  | removed other => cases quiet
  | found session => exact List.append_nil _
  | written => exact List.append_nil _
  | failed fault => exact List.append_nil _

/-! ## One call -/

/-- What a call does, with its answer. -/
inductive Records (sessions : FileSessionManager) :
    SessionAnswer → FileSessionManager → Prop
  | registered (groupId : Int) (filePath : Text) (entry : Int → Session)
      (own : ∀ sessionId, (entry sessionId).sessionId = sessionId)
      (place : ∀ sessionId, (entry sessionId).place = (groupId, filePath))
      (plain : ∀ sessionId, (entry sessionId).registered = entry sessionId) :
      Records sessions (.registered (entry sessions.nextId))
        ((registerSession groupId filePath entry).after sessions)
  | removed (sessionId : Int) :
      Records sessions (.removed sessionId)
        (sessions.removeSession sessionId)
  | same {answer : SessionAnswer} (quiet : answer.Quiet) :
      Records sessions answer sessions
  | looked {answer : SessionAnswer} (quiet : answer.Quiet) (groupId : Int)
      (filePath : Text) :
      Records sessions answer (sessions.findSession groupId filePath).2
  | progressed {answer : SessionAnswer} (quiet : answer.Quiet)
      {sessionId : Int} {old session : Session}
      (found : sessions.sessionList[sessionId]? = some old)
      (same : session.registered = old.registered) :
      Records sessions answer (sessions.setSession sessionId session)

/-- A session under keyed ids is registered under the next one. -/
theorem Keyed.registered_ok (keyed : Keyed sessions) (groupId : Int)
    (filePath : Text) (entry : Int → Session) :
    (FileSessionManager.registerSession groupId filePath entry sessions).1 =
      .ok sessions.nextId := by
  obtain ⟨after, registered, -⟩ :=
    keyed.registerSession groupId filePath entry
  rw [registered]

theorem records_advance (keyed : Keyed sessions) (call : ManagerCall) :
    Records sessions (sessions.answer call) (sessions.advance call) := by
  have written : SessionAnswer.written.Quiet := trivial
  cases call with
  | call call =>
      cases call with
      | registerPutSession userId groupId filePath maxFragment =>
          simp only [answer, registerPutSession, keyed.registered_ok]
          exact .registered groupId filePath
            (fun sessionId => .put (PutFileSession.init sessionId userId
              groupId filePath maxFragment))
            (fun _ => rfl) (fun _ => rfl) (fun _ => rfl)
      | registerGetSession userId groupId filePath =>
          simp only [answer, registerGetSession, keyed.registered_ok]
          exact .registered groupId filePath
            (fun sessionId => .get (GetFileSession.init sessionId userId
              groupId filePath))
            (fun _ => rfl) (fun _ => rfl) (fun _ => rfl)
      | removeSession sessionId => exact .removed sessionId
      | findPutSession userId groupId filePath =>
          rw [advance, next, after_findPutSessionOf]
          apply Records.looked
          simp only [answer]
          split <;> trivial
      | findGetSession userId groupId filePath =>
          rw [advance, next, after_findGetSessionOf]
          apply Records.looked
          simp only [answer]
          split <;> trivial
      | nextFragment sessionId =>
          cases found : sessions.findPutSession sessionId with
          | none =>
              simp only [answer, advance, next, found]
              exact .same trivial
          | some session =>
              simp only [answer, advance, next, found]
              exact .progressed written (findPutSession_eq_some.mp found) rfl
      | putNodeSession sessionId nodeSessionId =>
          cases found : sessions.findPutSession sessionId with
          | none =>
              simp only [answer, advance, next, Action.after,
                setPutNodeSession, found]
              exact .same trivial
          | some session =>
              simp only [answer, advance, next, Action.after,
                setPutNodeSession, found]
              exact .progressed written (findPutSession_eq_some.mp found) rfl
      | getNodeSession sessionId nodeSessionId =>
          cases found : sessions.findGetSession sessionId with
          | none =>
              simp only [answer, advance, next, Action.after,
                setGetNodeSession, found]
              exact .same trivial
          | some session =>
              simp only [answer, advance, next, Action.after,
                setGetNodeSession, found]
              exact .progressed written (findGetSession_eq_some.mp found) rfl
  | findPutSession sessionId => exact .same trivial
  | findGetSession sessionId => exact .same trivial
  | getPutSession sessionId =>
      apply Records.same
      simp only [answer]
      split <;> trivial
  | getGetSession sessionId =>
      apply Records.same
      simp only [answer]
      split <;> trivial

/-! ## Sessions under their places -/

/-- The ids that are kept for paths have been handed out, and lead to sessions
of the same group and path. -/
def Placed (sessions : FileSessionManager) : Prop :=
  ∀ groupId filePath sessionId,
    sessions.sessionIdAt groupId filePath = some sessionId →
    sessionId < sessions.nextId ∧
      ∀ session, sessions.sessionList[sessionId]? = some session →
        session.place = (groupId, filePath)

theorem Records.placed {answer : SessionAnswer}
    (records : Records sessions answer later) (keyed : Keyed sessions)
    (placed : Placed sessions) : Placed later := by
  cases records with
  | registered groupId filePath entry own place plain =>
      rw [keyed.after_registerSession]
      intro otherGroup otherPath sessionId indexed
      rw [sessionIdAt_onRegisterSession] at indexed
      simp only [onRegisterSession]
      split at indexed
      · next here =>
        obtain ⟨rfl, rfl⟩ := here
        cases indexed
        refine ⟨by omega, fun session live => ?_⟩
        rw [Table.lookup_insert_self] at live
        rw [← Option.some.inj live, place]
      · obtain ⟨known, older⟩ := placed otherGroup otherPath sessionId indexed
        refine ⟨by omega, fun session live => older session ?_⟩
        rwa [Table.lookup_insert_of_ne _ _ (by omega)] at live
  | removed sessionId =>
      intro groupId filePath otherId indexed
      obtain ⟨known, older⟩ := placed groupId filePath otherId indexed
      exact ⟨known, fun session live =>
        older session (Table.lookup_of_lookup_erase live)⟩
  | same quiet => exact placed
  | looked quiet groupId filePath =>
      intro otherGroup otherPath sessionId indexed
      obtain ⟨known, older⟩ := placed otherGroup otherPath sessionId
        (sessionIdAt_of_findSession indexed)
      have same := @findSession_same sessions groupId filePath
      rw [same.nextId, same.sessionList]
      exact ⟨known, older⟩
  | @progressed _ quiet sessionId old session found same =>
      intro groupId filePath otherId indexed
      obtain ⟨known, older⟩ := placed groupId filePath otherId indexed
      refine ⟨known, fun other live => ?_⟩
      rw [FileSessionManager.setSession, Table.lookup_insert] at live
      split at live
      · next here =>
        subst here
        cases live
        rw [Session.place_of_registered same]
        exact older old found
      · exact older other live

theorem Records.keyed {answer : SessionAnswer}
    (records : Records sessions answer later) (keyed : Keyed sessions) :
    Keyed later := by
  cases records with
  | registered groupId filePath entry own place plain =>
      exact keyed.next_registerSession (own sessions.nextId)
  | removed sessionId => exact keyed.removeSession sessionId
  | same quiet => exact keyed
  | looked quiet groupId filePath =>
      exact keyed.of_same (findSession_same groupId filePath)
  | progressed quiet found same =>
      exact keyed.setSession found (Session.sessionId_of_registered same)

/-! ## The history of a run -/

/-- The manager after calls with these answers: its sessions are the standing
ones up to their progress, and every id is handed out once. -/
structure Recorded (answers : List SessionAnswer)
    (sessions : FileSessionManager) : Prop where
  keyed : Keyed sessions
  placed : Placed sessions
  standing : ∀ sessionId : Int,
    sessions.sessionList[sessionId]?.map Session.registered =
      standing sessionId answers
  once : (handedOut answers).Nodup
  below : ∀ sessionId ∈ handedOut answers, sessionId < sessions.nextId

theorem recorded_init : Recorded [] init where
  keyed := keyed_init
  placed groupId filePath sessionId indexed := by
    simp [init, sessionIdAt] at indexed
  standing sessionId := by simp [init, FileSessionManager.standing]
  once := List.nodup_nil
  below := by simp [handedOut]

/-- A call hands out the next id or none. -/
theorem Records.handedOut {answer : SessionAnswer}
    (records : Records sessions answer later) (keyed : Keyed sessions)
    (answers : List SessionAnswer) :
    handedOut (answers ++ [answer]) = handedOut answers ∧
        later.nextId = sessions.nextId ∨
      handedOut (answers ++ [answer]) = handedOut answers ++ [sessions.nextId] ∧
        later.nextId = sessions.nextId + 1 := by
  cases records with
  | registered groupId filePath entry own place plain =>
      rw [keyed.after_registerSession, handedOut_registered, own]
      exact Or.inr ⟨rfl, rfl⟩
  | removed sessionId => exact Or.inl ⟨handedOut_removed answers _, rfl⟩
  | same quiet => exact Or.inl ⟨handedOut_quiet answers quiet, rfl⟩
  | looked quiet groupId filePath =>
      exact Or.inl ⟨handedOut_quiet answers quiet,
        (findSession_same groupId filePath).nextId⟩
  | progressed quiet found same =>
      exact Or.inl ⟨handedOut_quiet answers quiet, rfl⟩

/-- A call lets a session stand, or changes it as its answer says. -/
theorem Records.standing {answer : SessionAnswer}
    (records : Records sessions answer later) (keyed : Keyed sessions)
    {answers : List SessionAnswer}
    (before : ∀ sessionId : Int,
      sessions.sessionList[sessionId]?.map Session.registered =
        standing sessionId answers) (sessionId : Int) :
    later.sessionList[sessionId]?.map Session.registered =
      FileSessionManager.standing sessionId (answers ++ [answer]) := by
  cases records with
  | registered groupId filePath entry own place plain =>
      rw [keyed.after_registerSession, standing_registered, own]
      simp only [onRegisterSession, Table.lookup_insert]
      split
      · rw [Option.map_some, plain]
      · exact before sessionId
  | removed other =>
      rw [standing_removed, FileSessionManager.removeSession,
        Table.lookup_erase]
      split
      · rfl
      · exact before sessionId
  | same quiet =>
      rw [standing_quiet _ _ quiet]
      exact before sessionId
  | looked quiet groupId filePath =>
      rw [standing_quiet _ _ quiet,
        (findSession_same groupId filePath).sessionList]
      exact before sessionId
  | progressed quiet found same =>
      rw [standing_quiet _ _ quiet, FileSessionManager.setSession,
        Table.lookup_insert, ← before]
      split
      · next here =>
        rw [← here, found, Option.map_some, Option.map_some, same]
      · rfl

theorem Recorded.step {answers : List SessionAnswer} {answer : SessionAnswer}
    (recorded : Recorded answers sessions)
    (records : Records sessions answer later) :
    Recorded (answers ++ [answer]) later := by
  have ids := records.handedOut recorded.keyed answers
  refine ⟨records.keyed recorded.keyed,
    records.placed recorded.keyed recorded.placed,
    records.standing recorded.keyed recorded.standing, ?_, ?_⟩
  · rcases ids with ⟨same, -⟩ | ⟨grown, -⟩
    · rw [same]
      exact recorded.once
    · rw [grown, List.nodup_append]
      refine ⟨recorded.once, List.pairwise_singleton _ _, ?_⟩
      intro old present new isNew
      rw [List.mem_singleton.mp isNew]
      exact Int.ne_of_lt (recorded.below old present)
  · rcases ids with ⟨same, nextId⟩ | ⟨grown, nextId⟩
    · rw [same, nextId]
      exact recorded.below
    · rw [grown, nextId]
      intro sessionId present
      rcases List.mem_append.mp present with before | isNew
      · exact Int.lt_trans (recorded.below sessionId before)
          (Int.lt_succ sessions.nextId)
      · rw [List.mem_singleton.mp isNew]
        exact Int.lt_succ sessions.nextId

theorem recorded_of_reaches {calls : List ManagerCall}
    (reaches : managerMachine.Reaches calls sessions) :
    Recorded (init.answersFrom calls) sessions := by
  have start : Recorded (init.answersFrom []) managerMachine.start :=
    recorded_init
  refine Machine.Reaches.induction (motive := fun calls sessions =>
    Recorded (init.answersFrom calls) sessions) start ?_ reaches
  intro calls sessions call next before recorded stepped
  have grown : init.answersFrom (calls ++ [call]) =
      init.answersFrom calls ++ [sessions.answer call] :=
    Machine.outputs_snoc before stepped
  cases stepped
  rw [grown]
  exact recorded.step (records_advance recorded.keyed call)

/-! ## The clean-up of lookups -/

theorem findPutSessionOf_eq (userId groupId : Int) (filePath : Text) :
    (findPutSessionOf userId groupId filePath sessions).1 =
      .ok ((sessions.findSession groupId filePath).1.bind fun
        | .put session =>
            if session.userId = userId then some session else none
        | .get _ => none) := by
  unfold findPutSessionOf
  rcases sessions.findSession groupId filePath with
    ⟨_ | session | session, later⟩ <;> rfl

theorem findGetSessionOf_eq (userId groupId : Int) (filePath : Text) :
    (findGetSessionOf userId groupId filePath sessions).1 =
      .ok ((sessions.findSession groupId filePath).1.bind fun
        | .get session =>
            if session.userId = userId then some session else none
        | .put _ => none) := by
  unfold findGetSessionOf
  rcases sessions.findSession groupId filePath with
    ⟨_ | session | session, later⟩ <;> rfl

/-- The managers have the same sessions, and their paths lead to the same ones
of them; what a path keeps of a removed session may differ. -/
structure Similar (first second : FileSessionManager) : Prop where
  sessionList : second.sessionList = first.sessionList
  nextId : second.nextId = first.nextId
  index : ∀ groupId filePath (sessionId : Int) (session : Session),
    first.sessionList[sessionId]? = some session →
    (first.sessionIdAt groupId filePath = some sessionId ↔
      second.sessionIdAt groupId filePath = some sessionId)

namespace Similar

variable {first second third : FileSessionManager}

theorem refl (sessions : FileSessionManager) : Similar sessions sessions :=
  ⟨rfl, rfl, fun _ _ _ _ _ => Iff.rfl⟩

theorem symm (similar : Similar first second) : Similar second first where
  sessionList := similar.sessionList.symm
  nextId := similar.nextId.symm
  index groupId filePath sessionId session live :=
    (similar.index groupId filePath sessionId session
      (similar.sessionList ▸ live)).symm

theorem trans (similar : Similar first second)
    (other : Similar second third) : Similar first third where
  sessionList := other.sessionList.trans similar.sessionList
  nextId := other.nextId.trans similar.nextId
  index groupId filePath sessionId session live :=
    (similar.index groupId filePath sessionId session live).trans
      (other.index groupId filePath sessionId session
        (similar.sessionList.symm ▸ live))

/-- A lookup cleans up nothing that a path leads to. -/
theorem findSession (sessions : FileSessionManager) (groupId : Int)
    (filePath : Text) :
    Similar sessions (sessions.findSession groupId filePath).2 where
  sessionList := (findSession_same groupId filePath).sessionList
  nextId := (findSession_same groupId filePath).nextId
  index _ _ _ _ live :=
    ⟨fun kept => sessionIdAt_findSession kept live, sessionIdAt_of_findSession⟩

theorem findSession_eq (similar : Similar first second) (groupId : Int)
    (filePath : Text) :
    (first.findSession groupId filePath).1 =
      (second.findSession groupId filePath).1 := by
  rw [FileSessionManager.findSession_eq, FileSessionManager.findSession_eq,
    similar.sessionList]
  apply Option.ext
  intro session
  simp only [Option.bind_eq_some_iff]
  constructor
  · rintro ⟨sessionId, kept, live⟩
    exact ⟨sessionId, (similar.index _ _ _ _ live).mp kept, live⟩
  · rintro ⟨sessionId, kept, live⟩
    exact ⟨sessionId, (similar.index _ _ _ _ live).mpr kept, live⟩

/-- The answers do not depend on what is kept of removed sessions. -/
theorem answer_eq (similar : Similar first second) (call : ManagerCall) :
    first.answer call = second.answer call := by
  cases call with
  | call call =>
      cases call with
      | registerPutSession userId groupId filePath maxFragment =>
          simp only [answer, registerPutSession,
            FileSessionManager.registerSession, similar.sessionList,
            similar.nextId]
          cases first.sessionList[first.nextId]? <;> rfl
      | registerGetSession userId groupId filePath =>
          simp only [answer, registerGetSession,
            FileSessionManager.registerSession, similar.sessionList,
            similar.nextId]
          cases first.sessionList[first.nextId]? <;> rfl
      | removeSession sessionId => rfl
      | findPutSession userId groupId filePath =>
          simp only [answer, findPutSessionOf_eq,
            similar.findSession_eq groupId filePath]
      | findGetSession userId groupId filePath =>
          simp only [answer, findGetSessionOf_eq,
            similar.findSession_eq groupId filePath]
      | nextFragment sessionId => rfl
      | putNodeSession sessionId nodeSessionId =>
          simp only [answer, setPutNodeSession,
            FileSessionManager.findPutSession, similar.sessionList]
          rcases first.sessionList[sessionId]? with
            _ | session | session <;> rfl
      | getNodeSession sessionId nodeSessionId =>
          simp only [answer, setGetNodeSession,
            FileSessionManager.findGetSession, similar.sessionList]
          rcases first.sessionList[sessionId]? with
            _ | session | session <;> rfl
  | findPutSession sessionId =>
      simp only [answer, FileSessionManager.findPutSession,
        similar.sessionList]
  | findGetSession sessionId =>
      simp only [answer, FileSessionManager.findGetSession,
        similar.sessionList]
  | getPutSession sessionId =>
      simp only [answer, getPutSession, FileSessionManager.findPutSession,
        similar.sessionList]
  | getGetSession sessionId =>
      simp only [answer, getGetSession, FileSessionManager.findGetSession,
        similar.sessionList]

theorem registerSession (similar : Similar first second)
    (keyed : Keyed first) (placed : Placed first)
    (placedSecond : Placed second) (groupId : Int) (filePath : Text)
    (entry : Int → Session) :
    Similar
      ((FileSessionManager.registerSession groupId filePath entry).after
        first)
      ((FileSessionManager.registerSession groupId filePath entry).after
        second) := by
  have keyedSecond : Keyed second :=
    keyed.of_same ⟨similar.sessionList, similar.nextId⟩
  rw [keyed.after_registerSession, keyedSecond.after_registerSession]
  refine ⟨?_, ?_, ?_⟩
  · simp only [onRegisterSession, similar.sessionList, similar.nextId]
  · simp only [onRegisterSession, similar.nextId]
  · intro otherGroup otherPath sessionId session live
    rw [sessionIdAt_onRegisterSession, sessionIdAt_onRegisterSession,
      similar.nextId]
    simp only [onRegisterSession, Table.lookup_insert] at live
    split
    · exact Iff.rfl
    · split at live
      · next here =>
        -- no path led to the new id before
        subst here
        apply iff_of_false
        · intro kept
          exact absurd (placed otherGroup otherPath _ kept).1
            (Int.lt_irrefl first.nextId)
        · intro kept
          have known := (placedSecond otherGroup otherPath _ kept).1
          rw [similar.nextId] at known
          exact absurd known (Int.lt_irrefl first.nextId)
      · exact similar.index otherGroup otherPath sessionId session live

theorem removeSession (similar : Similar first second) (sessionId : Int) :
    Similar (first.removeSession sessionId)
      (second.removeSession sessionId) where
  sessionList := by
    simp only [FileSessionManager.removeSession, similar.sessionList]
  nextId := similar.nextId
  index groupId filePath otherId session live :=
    similar.index groupId filePath otherId session
      (Table.lookup_of_lookup_erase live)

theorem lookup (similar : Similar first second) (groupId : Int)
    (filePath : Text) :
    Similar (first.findSession groupId filePath).2
      (second.findSession groupId filePath).2 :=
  (Similar.findSession first groupId filePath).symm.trans
    (similar.trans (Similar.findSession second groupId filePath))

theorem setSession (similar : Similar first second) {sessionId : Int}
    {old : Session} (found : first.sessionList[sessionId]? = some old)
    (session : Session) :
    Similar (first.setSession sessionId session)
      (second.setSession sessionId session) where
  sessionList := by
    simp only [FileSessionManager.setSession, similar.sessionList]
  nextId := similar.nextId
  index groupId filePath otherId other live := by
    rw [FileSessionManager.setSession, Table.lookup_insert] at live
    split at live
    · next here =>
      exact similar.index groupId filePath otherId old (here ▸ found)
    · exact similar.index groupId filePath otherId other live

/-- Every call leaves similar managers similar. -/
theorem advance (similar : Similar first second) (keyed : Keyed first)
    (placed : Placed first) (placedSecond : Placed second)
    (call : ManagerCall) :
    Similar (first.advance call) (second.advance call) := by
  cases call with
  | findPutSession sessionId => exact similar
  | findGetSession sessionId => exact similar
  | getPutSession sessionId => exact similar
  | getGetSession sessionId => exact similar
  | call call =>
      cases call with
      | registerPutSession userId groupId filePath maxFragment =>
          exact similar.registerSession keyed placed placedSecond ..
      | registerGetSession userId groupId filePath =>
          exact similar.registerSession keyed placed placedSecond ..
      | removeSession sessionId => exact similar.removeSession sessionId
      | findPutSession userId groupId filePath =>
          simp only [FileSessionManager.advance, next,
            after_findPutSessionOf]
          exact similar.lookup groupId filePath
      | findGetSession userId groupId filePath =>
          simp only [FileSessionManager.advance, next,
            after_findGetSessionOf]
          exact similar.lookup groupId filePath
      | nextFragment sessionId =>
          have same : second.findPutSession sessionId =
              first.findPutSession sessionId := by
            simp only [FileSessionManager.findPutSession,
              similar.sessionList]
          simp only [FileSessionManager.advance, next, same]
          cases found : first.findPutSession sessionId with
          | none => exact similar
          | some session =>
              exact similar.setSession (findPutSession_eq_some.mp found) _
      | putNodeSession sessionId nodeSessionId =>
          have same : second.findPutSession sessionId =
              first.findPutSession sessionId := by
            simp only [FileSessionManager.findPutSession,
              similar.sessionList]
          simp only [FileSessionManager.advance, next, Action.after,
            setPutNodeSession, same]
          cases found : first.findPutSession sessionId with
          | none => exact similar
          | some session =>
              exact similar.setSession (findPutSession_eq_some.mp found) _
      | getNodeSession sessionId nodeSessionId =>
          have same : second.findGetSession sessionId =
              first.findGetSession sessionId := by
            simp only [FileSessionManager.findGetSession,
              similar.sessionList]
          simp only [FileSessionManager.advance, next, Action.after,
            setGetNodeSession, same]
          cases found : first.findGetSession sessionId with
          | none => exact similar
          | some session =>
              exact similar.setSession (findGetSession_eq_some.mp found) _

/-- Similar managers give the same answers to any calls. -/
theorem answersFrom_eq (similar : Similar first second)
    (keyed : Keyed first) (placed : Placed first)
    (placedSecond : Placed second) (calls : List ManagerCall) :
    first.answersFrom calls = second.answersFrom calls := by
  induction calls generalizing first second with
  | nil => rfl
  | cons call calls inductionHypothesis =>
      have keyedSecond : Keyed second :=
        keyed.of_same ⟨similar.sessionList, similar.nextId⟩
      have records := records_advance keyed call
      have recordsSecond := records_advance keyedSecond call
      have later := inductionHypothesis
        (similar.advance keyed placed placedSecond call)
        (records.keyed keyed) (records.placed keyed placed)
        (recordsSecond.placed keyedSecond placedSecond)
      change first.answer call :: (first.advance call).answersFrom calls =
        second.answer call :: (second.advance call).answersFrom calls
      rw [similar.answer_eq call, later]

end Similar

/-! ## Whole runs -/

/-- What the session manager promises after calls with these answers. -/
structure Dependable (answers : List SessionAnswer)
    (sessions : FileSessionManager) : Prop where
  put : ∀ sessionId,
    (sessions.findPutSession sessionId).map
        (fun session => (Session.put session).registered) =
      (standing sessionId answers).filter Session.isPut
  get : ∀ sessionId,
    (sessions.findGetSession sessionId).map
        (fun session => (Session.get session).registered) =
      (standing sessionId answers).filter Session.isGet
  lookupPut : ∀ userId groupId filePath session,
    (findPutSessionOf userId groupId filePath sessions).1 =
      .ok (some session) →
    sessions.findPutSession session.sessionId = some session ∧
      session.userId = userId ∧ session.groupId = groupId ∧
        session.filePath = filePath
  lookupGet : ∀ userId groupId filePath session,
    (findGetSessionOf userId groupId filePath sessions).1 =
      .ok (some session) →
    sessions.findGetSession session.sessionId = some session ∧
      session.userId = userId ∧ session.groupId = groupId ∧
        session.filePath = filePath
  /-- No id denotes two sessions. -/
  once : (handedOut answers).Nodup
  /-- The clean-up of a lookup is not seen. -/
  cleanUp : ∀ groupId filePath calls,
    (sessions.findSession groupId filePath).2.answersFrom calls =
      sessions.answersFrom calls

/-- A session that a path leads to is live and one of the path. -/
theorem live_of_findSession (keyed : Keyed sessions)
    (placed : Placed sessions) {groupId : Int} {filePath : Text}
    {session : Session}
    (found : (sessions.findSession groupId filePath).1 = some session) :
    sessions.sessionList[session.sessionId]? = some session ∧
      session.place = (groupId, filePath) := by
  rw [findSession_eq] at found
  obtain ⟨sessionId, kept, live⟩ := Option.bind_eq_some_iff.mp found
  have key := (keyed.bounds sessionId session live).2.2
  exact ⟨key ▸ live, (placed groupId filePath sessionId kept).2 session live⟩

/-- After every sequence of calls the session manager is dependable. -/
theorem dependable {calls : List ManagerCall}
    (reaches : managerMachine.Reaches calls sessions) :
    Dependable (init.answersFrom calls) sessions := by
  have recorded := recorded_of_reaches reaches
  have keyed := recorded.keyed
  have placed := recorded.placed
  refine ⟨?_, ?_, ?_, ?_, recorded.once, ?_⟩
  · intro sessionId
    rw [← recorded.standing, findPutSession]
    rcases sessions.sessionList[sessionId]? with
      _ | session | session <;> rfl
  · intro sessionId
    rw [← recorded.standing, findGetSession]
    rcases sessions.sessionList[sessionId]? with
      _ | session | session <;> rfl
  · intro userId groupId filePath session found
    rw [findPutSessionOf_eq, Except.ok.injEq,
      Option.bind_eq_some_iff] at found
    obtain ⟨entry, looked, user⟩ := found
    cases entry with
    | get other => cases user
    | put other =>
        obtain ⟨same, equal⟩ := Option.ite_none_right_eq_some.mp user
        cases equal
        obtain ⟨live, place⟩ := live_of_findSession keyed placed looked
        exact ⟨findPutSession_eq_some.mpr live, same,
          (Prod.mk.inj place).1, (Prod.mk.inj place).2⟩
  · intro userId groupId filePath session found
    rw [findGetSessionOf_eq, Except.ok.injEq,
      Option.bind_eq_some_iff] at found
    obtain ⟨entry, looked, user⟩ := found
    cases entry with
    | put other => cases user
    | get other =>
        obtain ⟨same, equal⟩ := Option.ite_none_right_eq_some.mp user
        cases equal
        obtain ⟨live, place⟩ := live_of_findSession keyed placed looked
        exact ⟨findGetSession_eq_some.mpr live, same,
          (Prod.mk.inj place).1, (Prod.mk.inj place).2⟩
  · intro groupId filePath calls
    have similar := Similar.findSession sessions groupId filePath
    have written : SessionAnswer.written.Quiet := trivial
    have looked : Records sessions .written
        (sessions.findSession groupId filePath).2 :=
      .looked written groupId filePath
    have placedAfter := looked.placed keyed placed
    exact (similar.answersFrom_eq keyed placed placedAfter calls).symm

/-- A put session is removed, looked up by its path and replaced. -/
def replacing : List ManagerCall :=
  [.call (.registerPutSession 1 1 ['a'] 1), .call (.removeSession 1),
    .call (.findPutSession 1 1 ['a']), .call (.registerGetSession 1 1 ['a'])]

theorem dependable_replacing :
    ∃ sessions, managerMachine.Reaches replacing sessions ∧
      Dependable (init.answersFrom replacing) sessions :=
  ⟨_, rfl, dependable rfl⟩

end FileSessionManager

end ResourceServer
end Spaceless
