import Spaceless.ResourceServer.LoginHistory

/-!
# Users without a heartbeat

A timer kicks out the connections whose users sent a heartbeat once and are
silent since.  The time of the last heartbeat belongs to the user and survives
the end of a login, so a new login is judged by it until the next heartbeat.
-/

namespace Spaceless
namespace ResourceServer

open Logic Foundation

def maxNoHeartbeatSec : Int := 50

/-- The user sent a heartbeat, but not for too long. -/
def User.isOffline (now : Int) (user : User) : Bool :=
  user.lastHearbeat ≠ 0 && user.lastHearbeat + maxNoHeartbeatSec < now

namespace UserManager

/-- The loop of `kick_out_offline_users` over the login entries.  It erases
the entry that it stands on; where it goes on then is not defined, and the
next entry is taken here. -/
def kickOutOffline (now : Int) :
    List (Int × Int) → Action Fault UserManager Unit
  | [] => pure ()
  | (connId, userId) :: rest => do
      let user ← Action.check fun manager => manager.getUser userId
      if user.isOffline now then kickOutUser connId
      kickOutOffline now rest

def kickOutOfflineUsers (now : Int) : Action Fault UserManager Unit :=
  fun manager => kickOutOffline now manager.loginUserList.toList manager

/-- The user is registered and offline. -/
def Offline (manager : UserManager) (now userId : Int) : Prop :=
  ∃ user, manager.findUser userId = some user ∧ user.isOffline now = true

/-- Every login is one of a registered user. -/
structure Manned (manager : UserManager) : Prop where
  keyed : manager.Keyed
  manned : ∀ connId userId : Int,
    manager.loginUserList[connId]? = some userId →
    ∃ user, manager.findUser userId = some user

/-- The users with their heartbeats are the same. -/
structure SameBeats (first second : UserManager) : Prop where
  nextId : second.nextId = first.nextId
  beats : ∀ userId, (first.findUser userId).map User.lastHearbeat =
    (second.findUser userId).map User.lastHearbeat

theorem SameBeats.refl (manager : UserManager) : SameBeats manager manager :=
  ⟨rfl, fun _ => rfl⟩

theorem SameBeats.trans {first second third : UserManager}
    (same : SameBeats first second) (later : SameBeats second third) :
    SameBeats first third where
  nextId := later.nextId.trans same.nextId
  beats userId := (same.beats userId).trans (later.beats userId)

theorem SameBeats.offline_iff {first second : UserManager}
    (same : SameBeats first second) (now userId : Int) :
    first.Offline now userId ↔ second.Offline now userId := by
  have decided (manager : UserManager) : manager.Offline now userId ↔
      ∃ beat, (manager.findUser userId).map User.lastHearbeat = some beat ∧
        (beat ≠ 0 ∧ beat + maxNoHeartbeatSec < now) := by
    simp [Offline, User.isOffline]
  rw [decided, decided, same.beats userId]

/-- A login that is kicked out is the only one that ends. -/
theorem kickOutUser_spec {manager : UserManager} (manned : manager.Manned)
    {connId userId : Int}
    (login : manager.loginUserList[connId]? = some userId) :
    ∃ later, kickOutUser connId manager = (.ok (), later) ∧ later.Manned ∧
      SameBeats manager later ∧
      later.loginUserList = manager.loginUserList.erase connId := by
  obtain ⟨user, found⟩ := manned.manned connId userId login
  have key := (manned.keyed userId user found).1
  have lookup : manager.getLoginUser connId = .ok user := by
    simp only [getLoginUser, findLoginUser, login, found]
  let changed : User := { user with connId := 0 }
  refine ⟨{ manager with
      userList := manager.userList.insert user.userId changed
      loginUserList := manager.loginUserList.erase connId },
    by rw [kickOutUser, lookup], ⟨?_, ?_⟩, ⟨rfl, ?_⟩, rfl⟩
  · have present : manager.userList[user.userId]? = some user := by
      rw [key]
      exact found
    exact manned.keyed.insert present changed rfl
  · intro otherConn otherId otherLogin
    obtain ⟨other, foundOther⟩ := manned.manned otherConn otherId
      (Table.lookup_of_lookup_erase otherLogin)
    simp only [findUser, Table.lookup_insert]
    split
    · exact ⟨changed, rfl⟩
    · exact ⟨other, foundOther⟩
  · intro otherId
    simp only [findUser, Table.lookup_insert]
    split
    · next same =>
        have foundOther : manager.userList[otherId]? = some user := by
          rw [← same, key]
          exact found
        rw [foundOther]
        rfl
    · rfl

/-- The loop ends the logins of offline users among its entries. -/
theorem kickOutOffline_spec (now : Int) (entries : List (Int × Int))
    (distinct : (entries.map Prod.fst).Nodup) {manager : UserManager}
    (manned : manager.Manned)
    (logins : ∀ entry ∈ entries,
      manager.loginUserList[entry.1]? = some entry.2) :
    ∃ later, kickOutOffline now entries manager = (.ok (), later) ∧
      later.Manned ∧ SameBeats manager later ∧
      ∀ connId userId : Int, later.loginUserList[connId]? = some userId ↔
        manager.loginUserList[connId]? = some userId ∧
          ¬((connId, userId) ∈ entries ∧ manager.Offline now userId) := by
  induction entries generalizing manager with
  | nil =>
      refine ⟨manager, rfl, manned, SameBeats.refl manager, ?_⟩
      simp
  | cons entry entries inductionHypothesis =>
      obtain ⟨connId, userId⟩ := entry
      rw [List.map_cons, List.nodup_cons] at distinct
      obtain ⟨absent, distinctRest⟩ := distinct
      have login := logins (connId, userId) List.mem_cons_self
      obtain ⟨user, found⟩ := manned.manned connId userId login
      have lookup : manager.getUser userId = .ok user := by
        rw [getUser, found]
      have here (other : Int) (present : (connId, other) ∈ entries) : False :=
        absent (List.mem_map.mpr ⟨_, present, rfl⟩)
      by_cases offline : user.isOffline now = true
      · obtain ⟨middle, kicked, mannedMiddle, sameMiddle, erased⟩ :=
          kickOutUser_spec manned login
        have loginsRest (entry : Int × Int) (present : entry ∈ entries) :
            middle.loginUserList[entry.1]? = some entry.2 := by
          have differs : connId ≠ entry.1 := by
            intro same
            exact here entry.2 (same ▸ present)
          rw [erased, Table.lookup_erase_of_ne _ differs]
          exact logins entry (List.mem_cons_of_mem _ present)
        obtain ⟨later, ended, mannedLater, sameLater, left⟩ :=
          inductionHypothesis distinctRest mannedMiddle loginsRest
        refine ⟨later, ?_, mannedLater, sameMiddle.trans sameLater, ?_⟩
        · simp only [kickOutOffline, Action.bind_apply, Action.check_apply,
            lookup, offline, if_true, kicked, ended]
        · intro other otherId
          rw [left, erased, Table.lookup_erase, List.mem_cons]
          by_cases same : connId = other
          · subst same
            rw [if_pos rfl]
            have whole : manager.Offline now userId := ⟨user, found, offline⟩
            constructor
            · rintro ⟨impossible, -⟩
              cases impossible
            · rintro ⟨listed, kept⟩
              rw [login] at listed
              cases listed
              exact absurd ⟨Or.inl rfl, whole⟩ kept
          · rw [if_neg same, ← sameMiddle.offline_iff]
            have other_ne : (other, otherId) ≠ (connId, userId) :=
              fun equal => same (Prod.mk.inj equal).1.symm
            simp [other_ne]
      · obtain ⟨later, ended, mannedLater, sameLater, left⟩ :=
          inductionHypothesis distinctRest manned fun entry present =>
            logins entry (List.mem_cons_of_mem _ present)
        refine ⟨later, ?_, mannedLater, sameLater, ?_⟩
        · simp only [kickOutOffline, Action.bind_apply, Action.check_apply,
            lookup, offline, Bool.false_eq_true, if_false, ended]
        · intro other otherId
          rw [left, List.mem_cons]
          by_cases same : (other, otherId) = (connId, userId)
          · cases same
            have online : ¬manager.Offline now userId := by
              rintro ⟨_, again, still⟩
              cases found.symm.trans again
              exact offline still
            simp [online]
          · simp [same]

/-- The timer ends exactly the logins of offline users. -/
theorem kickOutOfflineUsers_spec (now : Int) {manager : UserManager}
    (manned : manager.Manned) :
    let later := (kickOutOfflineUsers now).after manager
    later.Manned ∧ SameBeats manager later ∧
      ∀ connId userId : Int, later.loginUserList[connId]? = some userId ↔
        manager.loginUserList[connId]? = some userId ∧
          ¬manager.Offline now userId := by
  have member (entry : Int × Int) :
      entry ∈ manager.loginUserList.toList ↔
        manager.loginUserList[entry.1]? = some entry.2 :=
    Std.ExtTreeMap.mem_toList_iff_getElem?_eq_some
  have distinct : (manager.loginUserList.toList.map Prod.fst).Nodup := by
    rw [List.Nodup, List.pairwise_map]
    exact Std.ExtTreeMap.distinct_keys_toList.imp fun differs same =>
      differs (Std.compare_eq_iff_eq.mpr same)
  obtain ⟨later, ended, mannedLater, same, left⟩ :=
    kickOutOffline_spec now manager.loginUserList.toList distinct manned
      fun entry => (member entry).mp
  have after : (kickOutOfflineUsers now).after manager = later := by
    rw [Action.after, kickOutOfflineUsers, ended]
  rw [after]
  refine ⟨mannedLater, same, ?_⟩
  intro connId userId
  rw [left, member]
  constructor
  · rintro ⟨login, kept⟩
    exact ⟨login, fun offline => kept ⟨login, offline⟩⟩
  · rintro ⟨login, online⟩
    exact ⟨login, fun both => online both.2⟩

end UserManager

/-! ## Runs -/

/-- What happens to the users, with readings of the clock. -/
inductive HeartbeatEvent
  | registerUser (userName password : Text) (isRootUser : Bool)
  | loginUser (now userId : Int) (password : Text) (connId : Int)
  | heartbeat (now userId : Int)
  | kickOutUser (connId : Int)
  | kickOutOfflineUsers (now : Int)

/-- The user manager with the times of the last login on each connection and
of the last heartbeat of each user. -/
structure Watch where
  manager : UserManager
  lastLogin : Int → Option Int
  lastBeat : Int → Option Int

namespace Watch

def init : Watch where
  manager := UserManager.init
  lastLogin := fun _ => none
  lastBeat := fun _ => none

def next (watch : Watch) : HeartbeatEvent → Watch
  | .registerUser userName password isRootUser =>
      { watch with
        manager := (UserManager.registerUser userName password
          isRootUser).after watch.manager }
  | .loginUser now userId password connId =>
      { watch with
        manager := (watch.manager.loginUser userId password connId).2
        lastLogin :=
          if (watch.manager.loginUser userId password connId).1 then
            Function.update watch.lastLogin connId (some now)
          else watch.lastLogin }
  | .heartbeat now userId =>
      { watch with
        manager := (UserManager.heartbeat userId now).after watch.manager
        lastBeat :=
          if (watch.manager.findUser userId).isSome then
            Function.update watch.lastBeat userId (some now)
          else watch.lastBeat }
  | .kickOutUser connId =>
      { watch with
        manager := (UserManager.kickOutUser connId).after watch.manager }
  | .kickOutOfflineUsers now =>
      { watch with
        manager := (UserManager.kickOutOfflineUsers now).after
          watch.manager }

def machine : Machine Watch HeartbeatEvent where
  start := init
  step := fun watch event => some (watch.next event)

/-- The time lies at most the allowed silence back. -/
def Recent (now : Int) (time : Option Int) : Prop :=
  ∃ at_ ∈ time, now ≤ at_ + maxNoHeartbeatSec

/-- The timer kicks out no connection whose login or whose user's heartbeat is
recent. -/
def SparesRecent (watch : Watch) : HeartbeatEvent → Prop
  | .kickOutOfflineUsers now =>
      ∀ connId userId : Int,
        watch.manager.loginUserList[connId]? = some userId →
        (watch.next (.kickOutOfflineUsers now)).manager.loginUserList[connId]? =
          none →
        ¬Recent now (watch.lastLogin connId) ∧
          ¬Recent now (watch.lastBeat userId)
  | _ => True

/-- No connection with a recent login belongs to a user whose heartbeat is
older. -/
def NoneLate (watch : Watch) : HeartbeatEvent → Prop
  | .kickOutOfflineUsers now =>
      ∀ connId userId : Int,
        watch.manager.loginUserList[connId]? = some userId →
        Recent now (watch.lastLogin connId) →
        ¬watch.manager.Offline now userId
  | _ => True

/-- Logins are those of registered users, and what a user keeps as the last
heartbeat is the time of it. -/
structure Kept (watch : Watch) : Prop where
  manned : watch.manager.Manned
  beats : ∀ userId user, watch.manager.findUser userId = some user →
    user.lastHearbeat = (watch.lastBeat userId).getD 0
  known : ∀ userId, watch.manager.nextId ≤ userId →
    watch.lastBeat userId = none

theorem kept_init : init.Kept where
  manned := ⟨UserManager.keyed_init, by simp [init, UserManager.init]⟩
  beats := by simp [init, UserManager.init, UserManager.findUser]
  known _ _ := rfl

namespace Kept

variable {watch : Watch}

theorem of_sameBeats (kept : Kept watch) {manager : UserManager}
    {lastLogin : Int → Option Int} (manned : manager.Manned)
    (same : UserManager.SameBeats watch.manager manager) :
    Kept { watch with manager := manager, lastLogin := lastLogin } where
  manned := manned
  beats userId user found := by
    have before := same.beats userId
    rw [found, Option.map_some, Option.map_eq_some_iff] at before
    obtain ⟨old, foundOld, beat⟩ := before
    rw [← beat]
    exact kept.beats userId old foundOld
  known := same.nextId ▸ kept.known

theorem registerUser (kept : Kept watch) (userName password : Text)
    (isRootUser : Bool) :
    Kept (watch.next (.registerUser userName password isRootUser)) := by
  have keyed := kept.manned.keyed
  rcases UserManager.after_registerUser keyed userName password isRootUser
    with refused | ⟨roots, added⟩
  · rw [next, refused]
    exact kept
  · rw [next, added]
    refine ⟨⟨?_, ?_⟩, ?_, ?_⟩
    · intro userId user found
      simp only [Table.lookup_insert] at found
      split at found
      · next same =>
          cases found
          exact ⟨same, same ▸ Int.lt_succ watch.manager.nextId⟩
      · obtain ⟨key, below⟩ := keyed userId user found
        exact ⟨key, Int.lt_trans below (Int.lt_succ watch.manager.nextId)⟩
    · intro connId userId login
      obtain ⟨user, found⟩ := kept.manned.manned connId userId login
      have below := (keyed userId user found).2
      exact ⟨user, by
        rw [UserManager.findUser, Table.lookup_insert_of_ne _ _ (by omega)]
        exact found⟩
    · intro userId user found
      simp only [UserManager.findUser, Table.lookup_insert] at found
      split at found
      · next same =>
          cases found
          rw [kept.known userId (Int.le_of_eq same)]
          rfl
      · exact kept.beats userId user found
    · intro userId above
      exact kept.known userId (Int.le_trans
        (Int.le_of_lt (Int.lt_succ watch.manager.nextId)) above)

theorem loginUser (kept : Kept watch) (now userId : Int) (password : Text)
    (connId : Int) :
    Kept (watch.next (.loginUser now userId password connId)) := by
  rcases UserManager.loginUser_cases watch.manager userId password connId with
    refused | ⟨user, found, -, passed⟩
  · rw [next, refused]
    exact kept
  · rw [next, passed]
    let changed : User := { user with connId := connId }
    refine kept.of_sameBeats ⟨?_, ?_⟩ ⟨rfl, ?_⟩
    · exact kept.manned.keyed.insert found changed rfl
    · intro otherConn otherId login
      rcases Table.lookup_of_lookup_insertIfNew login with old | ⟨-, rfl⟩
      · obtain ⟨other, foundOther⟩ := kept.manned.manned otherConn otherId old
        simp only [UserManager.findUser, Table.lookup_insert]
        split
        · exact ⟨changed, rfl⟩
        · exact ⟨other, foundOther⟩
      · exact ⟨changed, Table.lookup_insert_self _ _ _⟩
    · intro otherId
      simp only [UserManager.findUser, Table.lookup_insert]
      split
      · next same =>
          rw [← same, found]
          rfl
      · rfl

theorem heartbeat (kept : Kept watch) (now userId : Int) :
    Kept (watch.next (.heartbeat now userId)) := by
  cases found : watch.manager.userList[userId]? with
  | none =>
      have same : watch.next (.heartbeat now userId) = watch := by
        simp [next, UserManager.heartbeat, UserManager.getUser,
          UserManager.findUser, Action.after, found]
      rw [same]
      exact kept
  | some user =>
      let changed : User := { user with lastHearbeat := now }
      have after : watch.next (.heartbeat now userId) =
          { watch with
            manager := { watch.manager with
              userList := watch.manager.userList.insert userId changed }
            lastBeat := Function.update watch.lastBeat userId (some now) } := by
        simp [next, UserManager.heartbeat, UserManager.getUser,
          UserManager.findUser, Action.after, found, changed]
      rw [after]
      refine ⟨⟨?_, ?_⟩, ?_, ?_⟩
      · exact kept.manned.keyed.insert found changed rfl
      · intro otherConn otherId login
        obtain ⟨other, foundOther⟩ :=
          kept.manned.manned otherConn otherId login
        simp only [UserManager.findUser, Table.lookup_insert]
        split
        · exact ⟨changed, rfl⟩
        · exact ⟨other, foundOther⟩
      · intro otherId other foundOther
        simp only [UserManager.findUser, Table.lookup_insert] at foundOther
        split at foundOther
        · next same =>
            cases foundOther
            subst same
            simp [changed]
        · next differs =>
            simpa [Function.update_of_ne (Ne.symm differs)] using
              kept.beats otherId other foundOther
      · intro otherId above
        have below := (kept.manned.keyed userId user found).2
        have differs : otherId ≠ userId := by
          rintro rfl
          exact absurd above (Int.not_le.mpr below)
        simpa [Function.update_of_ne differs] using kept.known otherId above

theorem kickOutUser (kept : Kept watch) (connId : Int) :
    Kept (watch.next (.kickOutUser connId)) := by
  cases login : watch.manager.loginUserList[connId]? with
  | none =>
      have same : watch.next (.kickOutUser connId) = watch := by
        simp [next, UserManager.kickOutUser, UserManager.getLoginUser,
          UserManager.findLoginUser, Action.after, login]
      rw [same]
      exact kept
  | some userId =>
      obtain ⟨later, kicked, manned, same, -⟩ :=
        UserManager.kickOutUser_spec kept.manned login
      rw [next, Action.after, kicked]
      exact kept.of_sameBeats manned same

theorem kickOutOfflineUsers (kept : Kept watch) (now : Int) :
    Kept (watch.next (.kickOutOfflineUsers now)) := by
  obtain ⟨manned, same, -⟩ :=
    UserManager.kickOutOfflineUsers_spec now kept.manned
  exact kept.of_sameBeats manned same

theorem step (kept : Kept watch) (event : HeartbeatEvent) :
    Kept (watch.next event) := by
  cases event with
  | registerUser userName password isRootUser =>
      exact kept.registerUser userName password isRootUser
  | loginUser now userId password connId =>
      exact kept.loginUser now userId password connId
  | heartbeat now userId => exact kept.heartbeat now userId
  | kickOutUser connId => exact kept.kickOutUser connId
  | kickOutOfflineUsers now => exact kept.kickOutOfflineUsers now

/-- An offline user sent no heartbeat recently. -/
theorem not_recent_of_offline (kept : Kept watch) {now userId : Int}
    (offline : watch.manager.Offline now userId) :
    ¬Recent now (watch.lastBeat userId) := by
  obtain ⟨user, found, late⟩ := offline
  rintro ⟨beat, listed, recent⟩
  have time := kept.beats userId user found
  rw [Option.mem_def.mp listed, Option.getD_some] at time
  simp only [User.isOffline, time, Bool.and_eq_true,
    decide_eq_true_eq] at late
  omega

/-- The timer spares recent logins exactly when none is one of a user with an
older heartbeat. -/
theorem sparesRecent_iff (kept : Kept watch) (event : HeartbeatEvent) :
    watch.SparesRecent event ↔ watch.NoneLate event := by
  cases event with
  | kickOutOfflineUsers now =>
      obtain ⟨-, -, left⟩ :=
        UserManager.kickOutOfflineUsers_spec now kept.manned
      constructor
      · intro spares connId userId login recent offline
        apply (spares connId userId login ?_).1 recent
        cases found : (watch.next (.kickOutOfflineUsers
            now)).manager.loginUserList[connId]? with
        | none => rfl
        | some other =>
            obtain ⟨again, online⟩ := (left connId other).mp found
            cases login.symm.trans again
            exact absurd offline online
      · intro noneLate connId userId login kicked
        have offline : watch.manager.Offline now userId := by
          by_contra online
          have still := (left connId userId).mpr ⟨login, online⟩
          cases kicked.symm.trans still
        exact ⟨fun recent => noneLate connId userId login recent offline,
          kept.not_recent_of_offline offline⟩
  | registerUser userName password isRootUser => exact Iff.rfl
  | loginUser now userId password connId => exact Iff.rfl
  | heartbeat now userId => exact Iff.rfl
  | kickOutUser connId => exact Iff.rfl

end Kept

/-- In every run, for any readings of the clock, the timer spares recent
logins and heartbeats exactly when, each time it runs, no recent login is one
of a user with an older heartbeat. -/
theorem sparesRecent_iff_noneLate (events : List HeartbeatEvent) :
    machine.StepsMeet SparesRecent events ↔
      machine.StepsMeet NoneLate events := by
  refine Machine.stepsMeet_iff Kept kept_init ?_
    (fun _ event kept => kept.sparesRecent_iff event) events
  rintro watch event next kept - stepped
  cases stepped
  exact kept.step event

/-- A user who logged in, sent a heartbeat and left logs in again later. -/
def secondLogin : List HeartbeatEvent :=
  [.registerUser ['a'] [] false, .loginUser 100 1 [] 7, .heartbeat 100 1,
    .kickOutUser 7, .loginUser 200 1 [] 8]

/-- The timer kicks out a login of one second before. -/
theorem not_sparesRecent_always :
    ¬∀ events, machine.StepsMeet SparesRecent events := by
  intro always
  have spares := always (secondLogin ++ [.kickOutOfflineUsers 201])
    secondLogin _ [] rfl _ rfl
  have login := (spares 8 1 (by decide) (by decide)).1
  exact login ⟨200, by decide, by decide⟩

end Watch

end ResourceServer
end Spaceless
