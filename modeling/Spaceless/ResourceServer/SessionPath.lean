import Spaceless.Logic.Refinement
import Spaceless.ResourceServer.SessionTable

/-!
# Finding a session by its path

The machine makes the calls of the transactions on the session manager, in
any order.  Put and get sessions of all users share one entry for each path
of a group, so a live put session is found under its own path exactly in the
runs that register nothing on the path of a live put session.
-/

namespace Spaceless
namespace ResourceServer

open Logic Foundation Protocol

/-- The calls that change the session manager, and what transactions write
through the pointers they get from it. -/
inductive SessionCall
  | registerPutSession (userId groupId : Int) (filePath : Text)
      (maxFragment : Int)
  | registerGetSession (userId groupId : Int) (filePath : Text)
  | removeSession (sessionId : Int)
  | findPutSession (userId groupId : Int) (filePath : Text)
  | findGetSession (userId groupId : Int) (filePath : Text)
  | nextFragment (sessionId : Int)
  | putNodeSession (sessionId nodeSessionId : Int)
  | getNodeSession (sessionId nodeSessionId : Int)
  deriving DecidableEq

/-- The place that a call registers a session for. -/
def SessionCall.registers : SessionCall → Option (Int × Text)
  | .registerPutSession _ groupId filePath _ => some (groupId, filePath)
  | .registerGetSession _ groupId filePath => some (groupId, filePath)
  | _ => none

namespace FileSessionManager

/-- The manager after one call. -/
def next (sessions : FileSessionManager) : SessionCall → FileSessionManager
  | .registerPutSession userId groupId filePath maxFragment =>
      (registerPutSession userId groupId filePath maxFragment).after sessions
  | .registerGetSession userId groupId filePath =>
      (registerGetSession userId groupId filePath).after sessions
  | .removeSession sessionId => sessions.removeSession sessionId
  | .findPutSession userId groupId filePath =>
      (findPutSessionOf userId groupId filePath).after sessions
  | .findGetSession userId groupId filePath =>
      (findGetSessionOf userId groupId filePath).after sessions
  | .nextFragment sessionId =>
      match sessions.findPutSession sessionId with
      | none => sessions
      | some session =>
          sessions.setSession sessionId
            (.put { session with nextFragment := session.nextFragment + 1 })
  | .putNodeSession sessionId nodeSessionId =>
      (setPutNodeSession sessionId nodeSessionId).after sessions
  | .getNodeSession sessionId nodeSessionId =>
      (setGetNodeSession sessionId nodeSessionId).after sessions

/-- The session manager of one process. -/
def sessionMachine : Machine FileSessionManager SessionCall where
  start := init
  step := fun sessions call => some (sessions.next call)

/-- The session id that is kept for a path of a group. -/
def sessionIdAt (sessions : FileSessionManager) (groupId : Int)
    (filePath : Text) : Option Int :=
  sessions.groupSessionList[groupId]?.bind (·[filePath]?)

variable {sessions : FileSessionManager}

/-! ## The index by path -/

theorem sessionIdAt_onRegisterSession (groupId other : Int)
    (filePath otherPath : Text) (sessionId : Int) :
    (sessions.onRegisterSession groupId filePath sessionId).sessionIdAt
        other otherPath =
      if groupId = other ∧ filePath = otherPath then some sessionId
      else sessions.sessionIdAt other otherPath := by
  rw [sessionIdAt, onRegisterSession, Table.lookup_insert]
  by_cases group : groupId = other
  · subst group
    simp only [if_true, Option.bind_some, Table.lookup_insert, true_and,
      sessionIdAt]
    cases sessions.groupSessionList[groupId]? <;> simp
  · rw [if_neg group, if_neg fun both => group both.1]
    rfl

theorem findSession_eq (groupId : Int) (filePath : Text) :
    (sessions.findSession groupId filePath).1 =
      (sessions.sessionIdAt groupId filePath).bind
        (sessions.sessionList[·]?) := by
  simp only [findSession, sessionIdAt]
  cases sessions.groupSessionList[groupId]? with
  | none => rfl
  | some groupSession =>
      cases found : groupSession[filePath]? with
      | none => simp [found]
      | some sessionId =>
          cases live : sessions.sessionList[sessionId]? <;>
            simp [found, live]

/-- The clean-up of a lookup leaves the entries of live sessions. -/
theorem sessionIdAt_findSession {groupId other sessionId : Int}
    {filePath otherPath : Text} {session : Session}
    (kept : sessions.sessionIdAt other otherPath = some sessionId)
    (live : sessions.sessionList[sessionId]? = some session) :
    (sessions.findSession groupId filePath).2.sessionIdAt other otherPath =
      some sessionId := by
  simp only [findSession]
  split
  · exact kept
  · rename_i groupSession listed
    split
    · exact kept
    · rename_i removedId indexed
      split
      · exact kept
      · rename_i removed
        rw [sessionIdAt, Table.lookup_insert]
        by_cases group : groupId = other
        · subst group
          rw [sessionIdAt, listed, Option.bind_some] at kept
          rw [if_pos rfl, Option.bind_some, Table.lookup_erase]
          have different : filePath ≠ otherPath := by
            rintro rfl
            rw [indexed, Option.some.injEq] at kept
            rw [kept, live] at removed
            cases removed
          rw [if_neg different, kept]
        · rw [if_neg group]
          exact kept

/-- The clean-up of a lookup only drops an entry. -/
theorem sessionIdAt_of_findSession {groupId other sessionId : Int}
    {filePath otherPath : Text}
    (kept : (sessions.findSession groupId filePath).2.sessionIdAt other
      otherPath = some sessionId) :
    sessions.sessionIdAt other otherPath = some sessionId := by
  simp only [findSession] at kept
  split at kept
  · exact kept
  · rename_i groupSession listed
    split at kept
    · exact kept
    · split at kept
      · exact kept
      · rw [sessionIdAt, Table.lookup_insert] at kept
        by_cases group : groupId = other
        · subst group
          rw [if_pos rfl, Option.bind_some] at kept
          rw [sessionIdAt, listed, Option.bind_some]
          exact Table.lookup_of_lookup_erase kept
        · rw [if_neg group] at kept
          exact kept

/-! ## Live put sessions -/

/-- A put session in the list, under its id. -/
def LivePut (sessions : FileSessionManager) (sessionId : Int)
    (session : PutFileSession) : Prop :=
  sessions.sessionList[sessionId]? = some (.put session)

/-- Every live put session is found for its own user, group and path. -/
def PutFound (sessions : FileSessionManager) : Prop :=
  ∀ sessionId session, sessions.LivePut sessionId session →
    (findPutSessionOf session.userId session.groupId session.filePath
      sessions).1 = .ok (some session)

/-- The path of every live put session leads to its id. -/
def Indexed (sessions : FileSessionManager) : Prop :=
  ∀ sessionId session, sessions.LivePut sessionId session →
    sessions.sessionIdAt session.groupId session.filePath = some sessionId

/-- The call registers nothing on the path of a live put session. -/
def Unclaimed (sessions : FileSessionManager) (call : SessionCall) : Prop :=
  ∀ sessionId session, sessions.LivePut sessionId session →
    call.registers ≠ some (session.groupId, session.filePath)

theorem Keyed.found_iff_indexed (keyed : Keyed sessions) {sessionId : Int}
    {session : PutFileSession} (live : sessions.LivePut sessionId session) :
    (findPutSessionOf session.userId session.groupId session.filePath
        sessions).1 = .ok (some session) ↔
      sessions.sessionIdAt session.groupId session.filePath =
        some sessionId := by
  have looked := @findSession_eq sessions session.groupId session.filePath
  constructor
  · intro found
    have here := keyed.live_of_findPutSessionOf found
    have key : session.sessionId = sessionId :=
      (keyed.bounds sessionId (.put session) live).2.2
    unfold findPutSessionOf at found
    split at found
    · rename_i other later outcome
      split at found
      · cases found
        rw [outcome] at looked
        obtain ⟨otherId, indexed, otherLive⟩ :=
          Option.bind_eq_some_iff.mp looked.symm
        have otherKey : session.sessionId = otherId :=
          (keyed.bounds otherId (.put session) otherLive).2.2
        rw [indexed, ← otherKey, key]
      · cases found
    · cases found
  · intro indexed
    rw [indexed, Option.bind_some, live] at looked
    cases outcome : sessions.findSession session.groupId session.filePath with
    | mk found later =>
        rw [outcome] at looked
        obtain rfl : found = some (.put session) := looked
        simp only [findPutSessionOf, outcome, if_true]

theorem Keyed.putFound_iff (keyed : Keyed sessions) :
    sessions.PutFound ↔ sessions.Indexed :=
  forall_congr' fun _ => forall_congr' fun _ => forall_congr' fun live =>
    keyed.found_iff_indexed live

/-! ## One call -/

theorem after_findPutSessionOf (userId groupId : Int) (filePath : Text) :
    (findPutSessionOf userId groupId filePath).after sessions =
      (sessions.findSession groupId filePath).2 := by
  unfold Action.after findPutSessionOf
  split <;> rename_i looked <;> rw [looked]

theorem after_findGetSessionOf (userId groupId : Int) (filePath : Text) :
    (findGetSessionOf userId groupId filePath).after sessions =
      (sessions.findSession groupId filePath).2 := by
  unfold Action.after findGetSessionOf
  split <;> rename_i looked <;> rw [looked]

/-- What one call does: it registers a session, or is one of those that
register nothing. -/
inductive Steps (sessions : FileSessionManager) (call : SessionCall) :
    FileSessionManager → Prop
  | registered {groupId filePath} (entry : Int → Session)
      (registers : call.registers = some (groupId, filePath))
      (own : ∀ sessionId, (entry sessionId).sessionId = sessionId)
      (place : ∀ sessionId session, entry sessionId = .put session →
        session.groupId = groupId ∧ session.filePath = filePath) :
      Steps sessions call
        ((registerSession groupId filePath entry).after sessions)
  | same (quiet : call.registers = none) : Steps sessions call sessions
  | removed (quiet : call.registers = none) (sessionId : Int) :
      Steps sessions call (sessions.removeSession sessionId)
  | looked (quiet : call.registers = none) (groupId : Int)
      (filePath : Text) :
      Steps sessions call (sessions.findSession groupId filePath).2
  | progressed {sessionId old session} (quiet : call.registers = none)
      (found : sessions.sessionList[sessionId]? = some old)
      (same : session.registered = old.registered) :
      Steps sessions call (sessions.setSession sessionId session)

theorem steps_next (sessions : FileSessionManager) (call : SessionCall) :
    Steps sessions call (sessions.next call) := by
  cases call with
  | registerPutSession userId groupId filePath maxFragment =>
      refine .registered _ rfl (fun _ => rfl) ?_
      rintro sessionId session same
      cases same
      exact ⟨rfl, rfl⟩
  | registerGetSession userId groupId filePath =>
      refine .registered _ rfl (fun _ => rfl) ?_
      rintro sessionId session same
      cases same
  | removeSession sessionId => exact .removed rfl sessionId
  | findPutSession userId groupId filePath =>
      rw [next, after_findPutSessionOf]
      exact .looked rfl groupId filePath
  | findGetSession userId groupId filePath =>
      rw [next, after_findGetSessionOf]
      exact .looked rfl groupId filePath
  | nextFragment sessionId =>
      simp only [next]
      split
      · exact .same rfl
      · rename_i found
        exact .progressed rfl (findPutSession_eq_some.mp found) rfl
  | putNodeSession sessionId nodeSessionId =>
      simp only [next, Action.after, setPutNodeSession]
      split
      · exact .same rfl
      · rename_i found
        exact .progressed rfl (findPutSession_eq_some.mp found) rfl
  | getNodeSession sessionId nodeSessionId =>
      simp only [next, Action.after, setGetNodeSession]
      split
      · exact .same rfl
      · rename_i found
        exact .progressed rfl (findGetSession_eq_some.mp found) rfl

theorem unclaimed_of_quiet {call : SessionCall}
    (quiet : call.registers = none) : sessions.Unclaimed call := by
  intro sessionId session live registers
  rw [quiet] at registers
  cases registers

/-- A call that keeps the lists but for the clean-up of a lookup. -/
theorem Indexed.findSession (indexed : Indexed sessions) (groupId : Int)
    (filePath : Text) :
    Indexed (sessions.findSession groupId filePath).2 := by
  intro sessionId session live
  rw [LivePut, (findSession_same groupId filePath).sessionList] at live
  exact sessionIdAt_findSession (indexed sessionId session live) live

/-- Progress of a session changes neither its group nor its path. -/
theorem Indexed.setSession (indexed : Indexed sessions)
    {sessionId : Int} {old session : Session}
    (found : sessions.sessionList[sessionId]? = some old)
    (same : session.registered = old.registered) :
    Indexed (sessions.setSession sessionId session) := by
  intro otherId other live
  rw [LivePut, FileSessionManager.setSession, Table.lookup_insert] at live
  split at live
  · rename_i here
    subst here
    cases live
    cases old with
    | get old => cases same
    | put old =>
        have kept := indexed sessionId old found
        simp only [Session.registered, Session.put.injEq,
          PutFileSession.mk.injEq] at same
        rw [← same.2.2.1, ← same.2.2.2.1] at kept
        exact kept
  · exact indexed otherId other live

/-- Registering a session, when the ids are fresh. -/
theorem Keyed.after_registerSession (keyed : Keyed sessions)
    (groupId : Int) (filePath : Text) (entry : Int → Session) :
    (FileSessionManager.registerSession groupId filePath entry).after
        sessions =
      { sessions with
        sessionList := sessions.sessionList.insert sessions.nextId
          (entry sessions.nextId)
        nextId := sessions.nextId + 1 }.onRegisterSession
          groupId filePath sessions.nextId := by
  simp only [Action.after, FileSessionManager.registerSession,
    keyed.not_found_nextId]

section Registering

variable {groupId : Int} {filePath : Text} {entry : Int → Session}

theorem Keyed.next_registerSession (keyed : Keyed sessions)
    (own : (entry sessions.nextId).sessionId = sessions.nextId) :
    Keyed ((FileSessionManager.registerSession groupId filePath
      entry).after sessions) := by
  have positive := keyed.positive
  rw [keyed.after_registerSession]
  refine ⟨by simp only [onRegisterSession]; omega, ?_⟩
  intro sessionId session stored
  simp only [onRegisterSession, Table.lookup_insert] at stored ⊢
  split at stored
  · cases stored
    omega
  · have bounds := keyed.bounds sessionId session stored
    omega

/-- A registration keeps the index of live put sessions exactly when none of
them has the path. -/
theorem Keyed.indexed_registerSession (keyed : Keyed sessions)
    (place : ∀ session, entry sessions.nextId = .put session →
      session.groupId = groupId ∧ session.filePath = filePath)
    (indexed : Indexed sessions) :
    Indexed ((FileSessionManager.registerSession groupId filePath
        entry).after sessions) ↔
      ∀ sessionId session, sessions.LivePut sessionId session →
        (groupId, filePath) ≠ (session.groupId, session.filePath) := by
  rw [keyed.after_registerSession]
  constructor
  · rintro indexedAfter sessionId session live same
    obtain ⟨rfl, rfl⟩ := Prod.mk.inj same
    have bounds := keyed.bounds sessionId (.put session) live
    have different : sessions.nextId ≠ sessionId := by omega
    have kept := indexedAfter sessionId session (by
      rw [LivePut, onRegisterSession, Table.lookup_insert_of_ne _ _ different]
      exact live)
    rw [sessionIdAt_onRegisterSession, if_pos ⟨rfl, rfl⟩] at kept
    exact different (Option.some.inj kept)
  · intro unclaimed sessionId session live
    rw [LivePut, onRegisterSession, Table.lookup_insert] at live
    rw [sessionIdAt_onRegisterSession]
    split at live
    · rename_i here
      obtain ⟨rfl, rfl⟩ := place session (Option.some.inj live)
      rw [if_pos ⟨rfl, rfl⟩, here]
    · rw [if_neg fun same => unclaimed sessionId session live
        (Prod.ext same.1 same.2)]
      exact indexed sessionId session live

end Registering

theorem Steps.keyed {call : SessionCall} {later : FileSessionManager}
    (steps : Steps sessions call later) (keyed : Keyed sessions) :
    Keyed later := by
  cases steps with
  | registered entry registers own place =>
      exact keyed.next_registerSession (own sessions.nextId)
  | same quiet => exact keyed
  | removed quiet sessionId => exact keyed.removeSession sessionId
  | looked quiet groupId filePath =>
      exact keyed.of_same (findSession_same groupId filePath)
  | progressed quiet found same =>
      exact keyed.setSession found (Session.sessionId_of_registered same)

/-- A call keeps the index of live put sessions exactly when it registers
nothing on the path of one. -/
theorem Steps.indexed_iff {call : SessionCall} {later : FileSessionManager}
    (steps : Steps sessions call later) (keyed : Keyed sessions)
    (indexed : Indexed sessions) :
    Indexed later ↔ sessions.Unclaimed call := by
  cases steps with
  | registered entry registers own place =>
      simp only [Unclaimed, registers, ne_eq, Option.some.injEq]
      exact keyed.indexed_registerSession (place sessions.nextId) indexed
  | same quiet => exact iff_of_true indexed (unclaimed_of_quiet quiet)
  | removed quiet sessionId =>
      refine iff_of_true ?_ (unclaimed_of_quiet quiet)
      intro otherId session live
      exact indexed otherId session (Table.lookup_of_lookup_erase live)
  | looked quiet groupId filePath =>
      exact iff_of_true (indexed.findSession groupId filePath)
        (unclaimed_of_quiet quiet)
  | progressed quiet found same =>
      exact iff_of_true (indexed.setSession found same)
        (unclaimed_of_quiet quiet)

/-! ## Sessions under their places -/

/-- The ids that are kept for paths have been handed out, and lead to put
sessions of the same group and path. -/
def Filed (sessions : FileSessionManager) : Prop :=
  ∀ groupId filePath sessionId,
    sessions.sessionIdAt groupId filePath = some sessionId →
    sessionId < sessions.nextId ∧
      ∀ session, sessions.LivePut sessionId session →
        session.groupId = groupId ∧ session.filePath = filePath

theorem Filed.setSession (filed : Filed sessions) {sessionId : Int}
    {old session : Session}
    (found : sessions.sessionList[sessionId]? = some old)
    (same : session.registered = old.registered) :
    Filed (sessions.setSession sessionId session) := by
  intro groupId filePath otherId indexed
  obtain ⟨known, place⟩ := filed groupId filePath otherId indexed
  refine ⟨known, fun other live => ?_⟩
  rw [LivePut, FileSessionManager.setSession, Table.lookup_insert] at live
  split at live
  · rename_i here
    subst here
    cases live
    cases old with
    | get old => cases same
    | put old =>
        have kept := place old found
        simp only [Session.registered, Session.put.injEq,
          PutFileSession.mk.injEq] at same
        rw [← same.2.2.1, ← same.2.2.2.1] at kept
        exact kept
  · exact place other live

/-- The new session gets the next id, which no path leads to before. -/
theorem Filed.registerSession (filed : Filed sessions)
    (keyed : Keyed sessions) {groupId : Int} {filePath : Text}
    {entry : Int → Session}
    (place : ∀ session, entry sessions.nextId = .put session →
      session.groupId = groupId ∧ session.filePath = filePath) :
    Filed ((FileSessionManager.registerSession groupId filePath
      entry).after sessions) := by
  rw [keyed.after_registerSession]
  intro otherGroup otherPath sessionId indexed
  rw [sessionIdAt_onRegisterSession] at indexed
  simp only [LivePut, onRegisterSession]
  split at indexed
  · rename_i here
    obtain ⟨rfl, rfl⟩ := here
    cases indexed
    refine ⟨by omega, fun session live => place session ?_⟩
    rw [Table.lookup_insert_self] at live
    exact Option.some.inj live
  · obtain ⟨known, older⟩ := filed otherGroup otherPath sessionId indexed
    refine ⟨by omega, fun session live => older session ?_⟩
    rwa [Table.lookup_insert_of_ne _ _ (by omega)] at live

theorem Steps.filed {call : SessionCall} {later : FileSessionManager}
    (steps : Steps sessions call later) (keyed : Keyed sessions)
    (filed : Filed sessions) : Filed later := by
  cases steps with
  | registered entry registers own place =>
      exact filed.registerSession keyed (place sessions.nextId)
  | same quiet => exact filed
  | removed quiet sessionId =>
      intro groupId filePath otherId indexed
      obtain ⟨known, place⟩ := filed groupId filePath otherId indexed
      exact ⟨known, fun session live =>
        place session (Table.lookup_of_lookup_erase live)⟩
  | looked quiet groupId filePath =>
      intro otherGroup otherPath sessionId indexed
      obtain ⟨known, place⟩ := filed otherGroup otherPath sessionId
        (sessionIdAt_of_findSession indexed)
      have same := @findSession_same sessions groupId filePath
      rw [same.nextId]
      refine ⟨known, fun session live => place session ?_⟩
      rwa [LivePut, same.sessionList] at live
  | progressed quiet found same => exact filed.setSession found same

/-- A session that is found by a group and a path is one for them. -/
theorem Filed.place_of_findPutSessionOf (filed : Filed sessions)
    {userId groupId : Int} {filePath : Text} {session : PutFileSession}
    (found : (findPutSessionOf userId groupId filePath sessions).1 =
      .ok (some session)) :
    session.groupId = groupId ∧ session.filePath = filePath := by
  have looked := @findSession_eq sessions groupId filePath
  unfold findPutSessionOf at found
  split at found
  · rename_i other later outcome
    split at found
    · cases found
      rw [outcome] at looked
      obtain ⟨sessionId, indexed, live⟩ :=
        Option.bind_eq_some_iff.mp looked.symm
      exact (filed groupId filePath sessionId indexed).2 session live
    · cases found
  · cases found

theorem filed_of_reachable (reachable : sessionMachine.Reachable sessions) :
    Filed sessions := by
  obtain ⟨calls, reaches⟩ := reachable
  suffices both : Keyed sessions ∧ Filed sessions from both.2
  refine Machine.Reaches.induction
    (motive := fun _ sessions => Keyed sessions ∧ Filed sessions)
    ⟨keyed_init, ?_⟩ ?_ reaches
  · intro groupId filePath sessionId indexed
    simp [sessionMachine, init, sessionIdAt] at indexed
  · rintro calls sessions call next - ⟨keyed, filed⟩ stepped
    cases stepped
    have steps := steps_next sessions call
    exact ⟨steps.keyed keyed, steps.filed keyed filed⟩

/-! ## Runs -/

/-- In a run of the session manager every live put session is found by its
own user, group and path, in every state passed through, exactly when no
call of the run registers a session on the path of a live put session. -/
theorem putFound_throughout_iff (calls : List SessionCall) :
    sessionMachine.Throughout PutFound calls ↔
      sessionMachine.StepsMeet Unclaimed calls := by
  refine Machine.throughout_iff_stepsMeet Keyed
    (fun sessions call => ⟨sessions.next call, rfl⟩) keyed_init ?_ ?_ ?_ calls
  · rintro sessions call next keyed stepped
    cases stepped
    exact (steps_next sessions call).keyed keyed
  · intro sessionId session live
    simp [LivePut, sessionMachine, init] at live
  · rintro sessions call next keyed found stepped
    cases stepped
    have steps := steps_next sessions call
    rw [(steps.keyed keyed).putFound_iff]
    exact steps.indexed_iff keyed (keyed.putFound_iff.mp found)

/-- A download that another user starts on the path of an upload takes its
place in the index. -/
theorem not_putFound_always :
    ¬∀ calls sessions, sessionMachine.Reaches calls sessions →
      sessions.PutFound := by
  intro always
  have live : LivePut ((sessionMachine.start.next
      (.registerPutSession 1 1 ['p'] 3)).next
        (.registerGetSession 2 1 ['p'])) 1
      (PutFileSession.init 1 1 1 ['p'] 3) := by
    unfold LivePut
    decide +kernel
  have found := always
    [.registerPutSession 1 1 ['p'] 3, .registerGetSession 2 1 ['p']] _ rfl
    1 (PutFileSession.init 1 1 1 ['p'] 3) live
  revert found
  decide +kernel

end FileSessionManager

open FileSessionManager

/-! ## The session manager of the server -/

/-- Calls on the session manager lead from the first state to the second. -/
def CallsTo (first second : FileSessionManager) : Prop :=
  ∃ calls, sessionMachine.run first calls = some second

namespace CallsTo

variable {first second third : FileSessionManager}

theorem refl (sessions : FileSessionManager) : CallsTo sessions sessions :=
  ⟨[], rfl⟩

theorem call (sessions : FileSessionManager) (call : SessionCall) :
    CallsTo sessions (sessions.next call) :=
  ⟨[call], rfl⟩

theorem trans (before : CallsTo first second)
    (after : CallsTo second third) : CallsTo first third := by
  obtain ⟨calls, ran⟩ := before
  obtain ⟨more, ranMore⟩ := after
  refine ⟨calls ++ more, ?_⟩
  rw [Machine.run_append, ran, Option.bind_some, ranMore]

end CallsTo

/-- Whatever the end of the action, its calls on the session manager lead
from the first state to the one after it. -/
abbrev Calling {α : Type} (action : Action Fault Server α) (server : Server)
    (first : FileSessionManager) : Prop :=
  Action.Ensures action server (fun _ later => CallsTo first later.sessions)
    (fun _ later => CallsTo first later.sessions)

namespace Calling

variable {α β : Type} {server : Server} {first : FileSessionManager}

theorem onSessions {action : Action Fault FileSessionManager α}
    (calls : CallsTo first (action.after server.sessions)) :
    Calling (Server.onSessions action) server first :=
  Action.ensures_zoom.mpr (Action.ensures_after.mpr calls)

theorem bind_onSessions {action : Action Fault FileSessionManager α}
    {next : α → Action Fault Server β}
    (calls : CallsTo first (action.after server.sessions))
    (rest : ∀ value sessions, CallsTo first sessions →
      Calling (next value) { server with sessions := sessions } first) :
    Calling (Server.onSessions action >>= next) server first :=
  Action.ensures_bind.mpr (Action.ensures_zoom.mpr
    ((Action.ensures_after.mpr calls).mono rest fun _ _ called => called))

/-- An action on the files calls nothing. -/
theorem bind_onFiles {action : Action Fault SharingFileManager α}
    {next : α → Action Fault Server β}
    (calls : CallsTo first server.sessions)
    (rest : ∀ value files,
      Calling (next value) { server with files := files } first) :
    Calling (Server.onFiles action >>= next) server first :=
  Action.ensures_bind.mpr (Action.ensures_zoom.mpr
    (Action.ensures_of_forall rest fun _ _ => calls))

theorem bind_check {view : Server → Except Fault α}
    {next : α → Action Fault Server β}
    (calls : CallsTo first server.sessions)
    (rest : ∀ value, Calling (next value) server first) :
    Calling (Action.check view >>= next) server first :=
  Action.ensures_bind.mpr (Action.ensures_check.mpr
    ⟨fun value _ => rest value, fun _ _ => calls⟩)

theorem bind_throwIf {condition : Prop} [Decidable condition] {fault : Fault}
    {next : Unit → Action Fault Server β}
    (calls : CallsTo first server.sessions)
    (rest : Calling (next ()) server first) :
    Calling (Action.throwIf condition fault >>= next) server first :=
  Action.ensures_bind.mpr (Action.ensures_throwIf.mpr
    ⟨fun _ => calls, fun _ => rest⟩)

end Calling

theorem calling_registerPutFile (server : Server) (user : User)
    (group : SharingGroup) (request : ReqPutFileSession)
    {first : FileSessionManager} (calls : CallsTo first server.sessions) :
    Calling (registerPutFile user group request) server first := by
  refine .bind_check calls fun directoryExists => ?_
  refine .bind_throwIf calls (.bind_check calls fun pathExists => ?_)
  refine .bind_throwIf calls (.bind_onFiles calls fun storageFileId files => ?_)
  refine .bind_onFiles calls fun generalFileId files => ?_
  refine .bind_onFiles calls fun _ files => ?_
  refine .bind_onSessions (calls.trans (.call _ (.registerPutSession _ _ _ _)))
    fun sessionId sessions called => ?_
  exact Action.ensures_check.mpr ⟨fun _ _ => called, fun _ _ => called⟩

theorem calling_putSession (server : Server) (user : User)
    (group : SharingGroup) (request : ReqPutFileSession) :
    Calling (putSession user group request) server server.sessions := by
  refine .bind_onSessions (.call _ (.findPutSession _ _ _))
    fun found sessions called => ?_
  cases found with
  | none => exact calling_registerPutFile _ user group request called
  | some session => exact .bind_throwIf called (Action.ensures_pure.mpr called)

theorem calling_getSession (server : Server) (userId groupId : Int)
    (filePath : Text) :
    Calling (getSession userId groupId filePath) server server.sessions := by
  refine .bind_onSessions (.call _ (.findGetSession _ _ _))
    fun found sessions called => ?_
  cases found with
  | some session => exact Action.ensures_pure.mpr called
  | none =>
      exact .onSessions (called.trans (.call _ (.registerGetSession _ _ _)))

theorem Change.callsTo {before after : Server} {source : Source}
    (change : Change before source after) :
    CallsTo before.sessions after.sessions := by
  cases change with
  | same => exact .refl _
  | users changed => exact .refl _
  | nodes changed => exact .refl _
  | serialize => exact .refl _
  | registerGroup userId groupName =>
      rw [registerGroup_sessions]
      exact .refl _
  | roles acts target place permitted => exact .refl _
  | createPath path content manages => exact .refl _
  | removePath path force content manages => exact .refl _
  | putSession request command content manages =>
      exact Action.ensures_after.mp (calling_putSession before _ _ request)
  | getSession filePath command content acts member general =>
      exact Action.ensures_after.mp (calling_getSession before _ _ filePath)
  | putFragment request command content login found own next =>
      have called := CallsTo.call before.sessions
        (.nextFragment request.sessionId)
      simpa only [FileSessionManager.next, found] using called
  | removeSession sessionId =>
      exact .call before.sessions (.removeSession sessionId)
  | putNodeSession sessionId nodeSessionId found =>
      have called := CallsTo.call before.sessions
        (.putNodeSession sessionId nodeSessionId)
      simpa only [FileSessionManager.next, Action.after, setPutNodeSession,
        found] using called
  | getNodeSession sessionId nodeSessionId found =>
      have called := CallsTo.call before.sessions
        (.getNodeSession sessionId nodeSessionId)
      simpa only [FileSessionManager.next, Action.after, setGetNodeSession,
        found] using called

theorem Changed.callsTo {before after : Server} {source : Source}
    (changed : Changed before source after) :
    CallsTo before.sessions after.sessions := by
  induction changed with
  | change change => exact change.callsTo
  | cleanUp changed sessionId called =>
      exact called.trans (.call _ (.removeSession sessionId))

/-- In every reachable state the session manager of the server is in a
reachable state of its own machine. -/
theorem sessions_reachable {messageSize : Message → Nat}
    {worker : ServerWorker}
    (reachable : (serverMachine messageSize).Reachable worker) :
    sessionMachine.Reachable worker.app.sessions := by
  suffices simulated : ∃ sessions, sessionMachine.Reachable sessions ∧
      worker.app.sessions = sessions by
    obtain ⟨sessions, reached, rfl⟩ := simulated
    exact reached
  refine reachable.simulation sessionMachine
    (fun worker sessions => worker.app.sessions = sessions) rfl ?_
  rintro worker event next sessions reachable rfl stepped
  cases event with
  | restart rest =>
      cases stepped
      exact Or.inl (restart_sessions worker.app rest)
  | worker event =>
      obtain ⟨calls, ran⟩ := (step_changed stepped).callsTo
      exact Or.inr ⟨calls, _, ran, rfl⟩

end ResourceServer
end Spaceless
