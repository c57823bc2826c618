import Spaceless.ResourceServer.User

/-!
# What a connection resolves to over a run

The machine calls `UserManager` in any order, and a restart reads back what
`serialize` wrote into a fresh manager.  The invariant keeps three facts: an
entry is stored under its own id, ids are below the next id, and a login
entry whose user is still registered goes back to a login with that user's
password on the same connection.
-/

namespace Spaceless
namespace ResourceServer

open Logic Foundation

/-- Calls of `UserManager` and restarts of the server. -/
inductive UserEvent
  | registerUser (userName password : Text) (isRootUser : Bool)
  | loginUser (userId : Int) (password : Text) (connId : Int)
  | removeUser (userId : Int)
  | kickOutUser (connId : Int)
  | heartbeat (userId now : Int)
  | restart (rest : Int → UninitializedUser)

/-- The manager after one call; a call that throws leaves what it did. -/
def UserManager.next (manager : UserManager) : UserEvent → UserManager
  | .registerUser userName password isRootUser =>
      (UserManager.registerUser userName password isRootUser).after manager
  | .loginUser userId password connId =>
      (manager.loginUser userId password connId).2
  | .removeUser userId => manager.removeUser userId
  | .kickOutUser connId => (UserManager.kickOutUser connId).after manager
  | .heartbeat userId now => (UserManager.heartbeat userId now).after manager
  | .restart rest => UserManager.deserialize manager.serialize rest

/-- The user manager from the first start-up on. -/
def userMachine : Machine UserManager UserEvent where
  start := UserManager.init
  step := fun manager event => some (manager.next event)

/-- The event ends what the connection was logged in as. -/
def UserEvent.EndsLogin (connId : Int) : UserEvent → Prop
  | .kickOutUser kicked => kicked = connId
  | .restart _ => True
  | _ => False

/-- The run contains a successful login on the connection, and nothing after
it ends that login. -/
def LoggedInSince (events : List UserEvent)
    (connId userId : Int) (password : Text) : Prop :=
  ∃ first second before,
    events = first ++ .loginUser userId password connId :: second ∧
    userMachine.Reaches first before ∧
    (before.loginUser userId password connId).1 = true ∧
    ∀ event ∈ second, ¬event.EndsLogin connId

theorem LoggedInSince.snoc
    {events : List UserEvent} {connId userId : Int} {password : Text}
    (loggedIn : LoggedInSince events connId userId password)
    {event : UserEvent} (keeps : ¬event.EndsLogin connId) :
    LoggedInSince (events ++ [event]) connId userId password := by
  obtain ⟨first, second, before, split, reaches, passed, noEnd⟩ := loggedIn
  refine ⟨first, second ++ [event], before, by simp [split], reaches,
    passed, ?_⟩
  intro later present
  rcases List.mem_append.mp present with earlier | last
  · exact noEnd later earlier
  · rw [List.mem_singleton.mp last]
    exact keeps

theorem loggedInSince_of_login
    {events : List UserEvent} {manager : UserManager}
    (reaches : userMachine.Reaches events manager)
    {connId userId : Int} {password : Text}
    (passed : (manager.loginUser userId password connId).1 = true) :
    LoggedInSince (events ++ [.loginUser userId password connId])
      connId userId password :=
  ⟨events, [], manager, rfl, reaches, passed, by simp⟩

namespace UserManager

/-- Every user is stored under its own id, below the next id. -/
def Keyed (manager : UserManager) : Prop :=
  ∀ userId user, manager.userList[userId]? = some user →
    user.userId = userId ∧ userId < manager.nextId

theorem keyed_init : init.Keyed := by
  intro userId user found
  simp [init] at found

/-- Changing a stored user, but not its id, keeps the keys. -/
theorem Keyed.insert
    {manager : UserManager} (keyed : manager.Keyed)
    {userId : Int} {user : User}
    (found : manager.userList[userId]? = some user)
    (changed : User) (sameId : changed.userId = user.userId)
    {logins : Table Int Int} :
    Keyed { manager with
      userList := manager.userList.insert userId changed
      loginUserList := logins } := by
  intro otherId other foundOther
  simp only [Table.lookup_insert] at foundOther
  split at foundOther
  · rename_i same
    cases foundOther
    subst same
    exact ⟨sameId.trans (keyed _ _ found).1, (keyed _ _ found).2⟩
  · exact keyed otherId other foundOther

theorem nextId_unbound {manager : UserManager} (keyed : manager.Keyed) :
    manager.userList[manager.nextId]? = none := by
  cases found : manager.userList[manager.nextId]? with
  | none => rfl
  | some user =>
      have below := (keyed _ _ found).2
      omega

/-- What `register_user` can do to a manager: refuse, or add the next id. -/
theorem after_registerUser
    {manager : UserManager} (keyed : manager.Keyed)
    (userName password : Text) (isRootUser : Bool) :
    (registerUser userName password isRootUser).after manager = manager ∨
      ∃ roots, (registerUser userName password isRootUser).after manager =
        { manager with
          userList := manager.userList.insert manager.nextId
            (User.init manager.nextId userName password)
          rootUserList := roots
          nextId := manager.nextId + 1 } := by
  simp only [registerUser, Action.after]
  cases manager.findUserByName userName with
  | some user => exact Or.inl rfl
  | none =>
      right
      simp only [User.init, nextId_unbound keyed]
      exact ⟨_, rfl⟩

/-- What `kick_out_user` can do: nothing, or end the login of the connection
and clear the user's `conn_id`. -/
theorem after_kickOutUser (manager : UserManager) (connId : Int) :
    ((kickOutUser connId).after manager = manager ∧
        manager.findLoginUser connId = none) ∨
      ∃ user, manager.findLoginUser connId = some user ∧
        (kickOutUser connId).after manager =
          { manager with
            userList := manager.userList.insert user.userId
              { user with connId := 0 }
            loginUserList := manager.loginUserList.erase connId } := by
  simp only [kickOutUser, getLoginUser, Action.after]
  cases found : manager.findLoginUser connId with
  | none => exact Or.inl ⟨rfl, rfl⟩
  | some user => exact Or.inr ⟨user, rfl, rfl⟩

/-- What `heartbeat` can do: nothing, or set one user's `last_hearbeat`. -/
theorem after_heartbeat (manager : UserManager) (userId now : Int) :
    (heartbeat userId now).after manager = manager ∨
      ∃ user, manager.userList[userId]? = some user ∧
        (heartbeat userId now).after manager =
          { manager with
            userList := manager.userList.insert userId
              { user with lastHearbeat := now } } := by
  simp only [heartbeat, getUser, findUser, Action.after]
  cases found : manager.userList[userId]? with
  | none => exact Or.inl rfl
  | some user => exact Or.inr ⟨user, rfl, rfl⟩

theorem loginUser_cases
    (manager : UserManager) (userId : Int) (password : Text) (connId : Int) :
    manager.loginUser userId password connId = (false, manager) ∨
      ∃ user, manager.userList[userId]? = some user ∧
        user.password = password ∧
        manager.loginUser userId password connId =
          (true, { manager with
            userList := manager.userList.insert userId
              { user with connId := connId }
            loginUserList :=
              manager.loginUserList.insertIfNew connId userId }) := by
  unfold loginUser findUser
  cases found : manager.userList[userId]? with
  | none => exact Or.inl rfl
  | some user =>
      by_cases matching : user.password = password
      · right
        exact ⟨user, rfl, matching, by simp [matching]⟩
      · left
        simp [matching]

/-- Reading back what was written restores id, name and password of every
user. -/
theorem lookup_deserialize_serialize
    {manager : UserManager} (keyed : manager.Keyed)
    (rest : Int → UninitializedUser) (userId : Int) :
    (deserialize manager.serialize rest).userList[userId]? =
      (manager.userList[userId]?).map fun user =>
        User.deserialize user.serialize (rest userId) := by
  rw [← Table.lookup_insertAll_map_toList manager.userList
    fun key user => User.deserialize user.serialize (rest key)]
  simp only [deserialize, serialize, List.map_map]
  congr 2
  apply List.map_congr_left
  rintro ⟨key, user⟩ listed
  rw [Std.ExtTreeMap.mem_toList_iff_getElem?_eq_some] at listed
  simp [User.serialize, (keyed key user listed).1]

end UserManager

/-- What holds along every run: entries are keyed, and a login entry of a
registered user goes back to a login. -/
structure LoginsTraced (events : List UserEvent) (manager : UserManager) :
    Prop where
  keyed : manager.Keyed
  below : ∀ (connId userId : Int),
    manager.loginUserList[connId]? = some userId → userId < manager.nextId
  traced : ∀ (connId userId : Int) (user : User),
    manager.loginUserList[connId]? = some userId →
    manager.userList[userId]? = some user →
    LoggedInSince events connId userId user.password

namespace LoginsTraced

theorem start : LoginsTraced [] UserManager.init where
  keyed := UserManager.keyed_init
  below := by simp [UserManager.init]
  traced := by simp [UserManager.init]

variable {events : List UserEvent} {manager : UserManager}

/-- A step that keeps the login list and adds at most the next id. -/
theorem registerUser
    (sound : LoginsTraced events manager)
    (userName password : Text) (isRootUser : Bool) :
    LoginsTraced (events ++ [.registerUser userName password isRootUser])
      ((UserManager.registerUser userName password isRootUser).after
        manager) := by
  have keeps (connId : Int) :
      ¬UserEvent.EndsLogin connId
        (.registerUser userName password isRootUser) := id
  rcases UserManager.after_registerUser sound.keyed userName password
    isRootUser with refused | ⟨roots, added⟩
  · rw [refused]
    exact ⟨sound.keyed, sound.below, fun connId userId user login found =>
      (sound.traced connId userId user login found).snoc (keeps connId)⟩
  · rw [added]
    refine ⟨?_, ?_, ?_⟩
    · intro userId user found
      simp only [Table.lookup_insert] at found
      split at found
      · rename_i same
        cases found
        exact ⟨same, by simp only [← same]; omega⟩
      · have both := sound.keyed userId user found
        exact ⟨both.1, by simp only; omega⟩
    · intro connId userId login
      have below := sound.below connId userId login
      simp only
      omega
    · intro connId userId user login found
      have below := sound.below connId userId login
      rw [Table.lookup_insert_of_ne _ _ (by omega)] at found
      exact (sound.traced connId userId user login found).snoc (keeps connId)

theorem removeUser
    (sound : LoginsTraced events manager) (removed : Int) :
    LoginsTraced (events ++ [.removeUser removed])
      (manager.removeUser removed) := by
  refine ⟨?_, sound.below, ?_⟩
  · intro userId user found
    exact sound.keyed userId user (Table.lookup_of_lookup_erase found)
  · intro connId userId user login found
    exact (sound.traced connId userId user login
      (Table.lookup_of_lookup_erase found)).snoc id

/-- A login adds an entry that goes back to itself; an entry that was there
stays. -/
theorem loginUser
    (sound : LoginsTraced events manager)
    (reaches : userMachine.Reaches events manager)
    (loginId : Int) (password : Text) (loginConn : Int) :
    LoginsTraced (events ++ [.loginUser loginId password loginConn])
      (manager.loginUser loginId password loginConn).2 := by
  have keeps (connId : Int) :
      ¬UserEvent.EndsLogin connId
        (.loginUser loginId password loginConn) := id
  rcases UserManager.loginUser_cases manager loginId password loginConn with
    refused | ⟨loginUser, loginFound, matching, passed⟩
  · rw [refused]
    exact ⟨sound.keyed, sound.below, fun connId userId user login found =>
      (sound.traced connId userId user login found).snoc (keeps connId)⟩
  · have passedTrue :
        (manager.loginUser loginId password loginConn).1 = true := by
      rw [passed]
    have oldPassword (userId : Int) (user : User)
        (found : (manager.userList.insert loginId
          { loginUser with connId := loginConn })[userId]? = some user) :
        ∃ old, manager.userList[userId]? = some old ∧
          old.password = user.password := by
      rw [Table.lookup_insert] at found
      split at found
      · rename_i same
        cases found
        exact ⟨loginUser, same ▸ loginFound, rfl⟩
      · exact ⟨user, found, rfl⟩
    have loginCases (connId userId : Int)
        (login : (manager.loginUserList.insertIfNew
          loginConn loginId)[connId]? = some userId) :
        manager.loginUserList[connId]? = some userId ∨
          (connId = loginConn ∧ userId = loginId) := by
      rw [Std.ExtTreeMap.getElem?_insertIfNew] at login
      split at login
      · rename_i fresh
        exact Or.inr ⟨(Std.compare_eq_iff_eq.mp fresh.1).symm,
          (Option.some.inj login).symm⟩
      · exact Or.inl login
    rw [passed]
    refine ⟨sound.keyed.insert loginFound _ (by rfl), ?_, ?_⟩
    · intro connId userId login
      rcases loginCases connId userId login with old | ⟨rfl, rfl⟩
      · exact sound.below connId userId old
      · exact (sound.keyed userId loginUser loginFound).2
    · intro connId userId user login found
      obtain ⟨old, oldFound, samePassword⟩ := oldPassword userId user found
      rw [← samePassword]
      rcases loginCases connId userId login with entry | ⟨rfl, rfl⟩
      · exact (sound.traced connId userId old entry oldFound).snoc
          (keeps connId)
      · rw [loginFound] at oldFound
        cases oldFound
        rw [matching]
        exact loggedInSince_of_login reaches passedTrue

theorem kickOutUser
    (sound : LoginsTraced events manager) (kicked : Int) :
    LoginsTraced (events ++ [.kickOutUser kicked])
      ((UserManager.kickOutUser kicked).after manager) := by
  rcases UserManager.after_kickOutUser manager kicked with
    ⟨same, unresolved⟩ | ⟨kickedUser, resolved, after⟩
  · rw [same]
    refine ⟨sound.keyed, sound.below, ?_⟩
    intro connId userId user login found
    -- an entry of the kicked connection would have resolved
    have other : kicked ≠ connId := by
      rintro rfl
      simp [UserManager.findLoginUser, UserManager.findUser, login, found]
        at unresolved
    exact (sound.traced connId userId user login found).snoc other
  · have stored : manager.userList[kickedUser.userId]? = some kickedUser := by
      simp only [UserManager.findLoginUser, UserManager.findUser] at resolved
      split at resolved
      · cases resolved
      · rwa [(sound.keyed _ _ resolved).1]
    rw [after]
    refine ⟨sound.keyed.insert stored _ (by rfl), ?_, ?_⟩
    · intro connId userId login
      exact sound.below connId userId (Table.lookup_of_lookup_erase login)
    · intro connId userId user login found
      have other : kicked ≠ connId := by
        rintro rfl
        simp at login
      have entry := Table.lookup_of_lookup_erase login
      simp only [Table.lookup_insert] at found
      split at found
      · rename_i sameId
        cases found
        subst sameId
        exact (sound.traced connId _ kickedUser entry stored).snoc other
      · exact (sound.traced connId userId user entry found).snoc other

theorem heartbeat
    (sound : LoginsTraced events manager) (beating now : Int) :
    LoginsTraced (events ++ [.heartbeat beating now])
      ((UserManager.heartbeat beating now).after manager) := by
  have keeps (connId : Int) :
      ¬UserEvent.EndsLogin connId (.heartbeat beating now) := id
  rcases UserManager.after_heartbeat manager beating now with
    same | ⟨beatingUser, stored, after⟩
  · rw [same]
    exact ⟨sound.keyed, sound.below, fun connId userId user login found =>
      (sound.traced connId userId user login found).snoc (keeps connId)⟩
  · rw [after]
    refine ⟨sound.keyed.insert stored _ (by rfl), sound.below, ?_⟩
    intro connId userId user login found
    simp only [Table.lookup_insert] at found
    split at found
    · rename_i sameId
      cases found
      subst sameId
      exact (sound.traced connId beating beatingUser login stored).snoc
        (keeps connId)
    · exact (sound.traced connId userId user login found).snoc (keeps connId)

/-- A restart keeps users, ids and the next id, and forgets all logins. -/
theorem restart
    (sound : LoginsTraced events manager)
    (rest : Int → UninitializedUser) :
    LoginsTraced (events ++ [.restart rest])
      (UserManager.deserialize manager.serialize rest) := by
  refine ⟨?_, ?_, ?_⟩
  · intro userId user found
    rw [UserManager.lookup_deserialize_serialize sound.keyed] at found
    obtain ⟨old, oldFound, rfl⟩ := Option.map_eq_some_iff.mp found
    exact sound.keyed userId old oldFound
  · intro connId userId login
    simp [UserManager.deserialize, UserManager.init] at login
  · intro connId userId user login
    simp [UserManager.deserialize, UserManager.init] at login

/-- Every step keeps the logins traced. -/
theorem step
    (sound : LoginsTraced events manager)
    (reaches : userMachine.Reaches events manager) (event : UserEvent) :
    LoginsTraced (events ++ [event]) (manager.next event) := by
  cases event with
  | registerUser userName password isRootUser =>
      exact sound.registerUser userName password isRootUser
  | loginUser userId password connId =>
      exact sound.loginUser reaches userId password connId
  | removeUser userId => exact sound.removeUser userId
  | kickOutUser connId => exact sound.kickOutUser connId
  | heartbeat userId now => exact sound.heartbeat userId now
  | restart rest => exact sound.restart rest

end LoginsTraced

/-- In every run the logins are traced. -/
theorem loginsTraced_of_reaches
    {events : List UserEvent} {manager : UserManager}
    (reaches : userMachine.Reaches events manager) :
    LoginsTraced events manager := by
  refine Machine.Reaches.induction (motive := LoginsTraced)
    LoginsTraced.start ?_ reaches
  intro events manager event next before sound stepped
  cases stepped
  exact sound.step before event

/-- A connection resolves to a user only after a login as that user, with
that user's password, on the same connection, which nothing has ended since:
no kick-out of the connection and no restart. -/
theorem findLoginUser_only_after_login
    {events : List UserEvent} {manager : UserManager}
    (reaches : userMachine.Reaches events manager)
    {connId : Int} {user : User}
    (found : manager.findLoginUser connId = some user) :
    LoggedInSince events connId user.userId user.password := by
  have sound := loginsTraced_of_reaches reaches
  simp only [UserManager.findLoginUser] at found
  split at found
  · cases found
  · rename_i userId login
    have sameId := (sound.keyed userId user found).1
    rw [sameId]
    exact sound.traced connId userId user login found

theorem findLoginUser_only_after_login_at_first_login :
    LoggedInSince
      [.registerUser ['u'] ['p'] false, .loginUser 1 ['p'] 7]
      7 1 ['p'] := by
  have reaches : userMachine.Reaches
      [.registerUser ['u'] ['p'] false, .loginUser 1 ['p'] 7]
      ((UserManager.init.next (.registerUser ['u'] ['p'] false)).next
        (.loginUser 1 ['p'] 7)) := rfl
  have found : ((UserManager.init.next
      (.registerUser ['u'] ['p'] false)).next
        (.loginUser 1 ['p'] 7)).findLoginUser 7 =
      some { User.init 1 ['u'] ['p'] with connId := 7 } := by
    decide
  exact findLoginUser_only_after_login reaches found

end ResourceServer
end Spaceless
