import Spaceless.ResourceServer.LoginHistory

/-!
# Root users after a restart

The object that the user manager writes has the users and the next id, but not
the set of root users.  The set-up of the server registers a root user only
where none of its name is found.
-/

namespace Spaceless
namespace ResourceServer

open Logic Foundation

namespace UserManager

/-- The root set-up of `main`. -/
def setUpRoot (rootUserName rootUserPwd : Text) (manager : UserManager) :
    UserManager :=
  match manager.findUserByName rootUserName with
  | some _ => manager
  | none => (registerUser rootUserName rootUserPwd true).after manager

/-- The manager of the next process, before the root set-up. -/
def reread (manager : UserManager) (rest : Int → UninitializedUser) :
    UserManager :=
  deserialize manager.serialize rest

/-- The managers agree on users by id and by name, on root users, and on the
next id. -/
structure Agrees (first second : UserManager) : Prop where
  byId : ∀ userId, (first.findUser userId).map User.serialize =
    (second.findUser userId).map User.serialize
  byName : ∀ userName, (first.findUserByName userName).map User.serialize =
    (second.findUserByName userName).map User.serialize
  root : ∀ userId, first.isRootUser userId = second.isRootUser userId
  nextId : first.nextId = second.nextId

/-- Every registered user has the rights it had. -/
def SameRights (first second : UserManager) : Prop :=
  ∀ userId user, first.findUser userId = some user →
    first.isRootUser userId = second.isRootUser userId

/-- The users are kept under their ids, and root users are registered. -/
structure Rooted (manager : UserManager) : Prop where
  keyed : manager.Keyed
  registered : ∀ userId, manager.isRootUser userId = true →
    (manager.findUser userId).isSome = true

variable {manager : UserManager}

theorem userList_reread (keyed : manager.Keyed)
    (rest : Int → UninitializedUser) :
    (manager.reread rest).userList =
      manager.userList.map fun userId user =>
        User.deserialize user.serialize (rest userId) := by
  apply Std.ExtTreeMap.ext_getElem?
  intro userId
  rw [reread, lookup_deserialize_serialize keyed,
    Std.ExtTreeMap.getElem?_map]

theorem findUser_reread (keyed : manager.Keyed)
    (rest : Int → UninitializedUser) (userId : Int) :
    ((manager.reread rest).findUser userId).map User.serialize =
      (manager.findUser userId).map User.serialize := by
  rw [findUser, userList_reread keyed, Std.ExtTreeMap.getElem?_map,
    Option.map_map]
  rfl

theorem findUserByName_reread (keyed : manager.Keyed)
    (rest : Int → UninitializedUser) (userName : Text) :
    ((manager.reread rest).findUserByName userName).map User.serialize =
      (manager.findUserByName userName).map User.serialize := by
  rw [findUserByName, userList_reread keyed, findUserByName,
    Table.findIf_map manager.userList (fun user => user.userName == userName)
      fun _ _ => rfl, Option.map_map, Option.map_map, Option.map_map]
  rfl

/-- No user of the next process is a root user before the set-up. -/
theorem isRootUser_reread (rest : Int → UninitializedUser) (userId : Int) :
    (manager.reread rest).isRootUser userId = false := by
  simp [reread, deserialize, isRootUser, init]

theorem keyed_reread (keyed : manager.Keyed)
    (rest : Int → UninitializedUser) : (manager.reread rest).Keyed := by
  intro userId user found
  rw [userList_reread keyed, Std.ExtTreeMap.getElem?_map,
    Option.map_eq_some_iff] at found
  obtain ⟨old, foundOld, rfl⟩ := found
  exact keyed userId old foundOld

/-! ## Root users are registered -/

theorem rooted_init : Rooted init where
  keyed := keyed_init
  registered userId root := by simp [isRootUser, init] at root

namespace Rooted

/-- Changing a stored user, but not its id, keeps the root users. -/
theorem insert (rooted : Rooted manager) {userId : Int} {user : User}
    (found : manager.userList[userId]? = some user)
    (changed : User) (sameId : changed.userId = user.userId)
    {logins : Table Int Int} :
    Rooted { manager with
      userList := manager.userList.insert userId changed
      loginUserList := logins } where
  keyed := rooted.keyed.insert found changed sameId
  registered other root := by
    simp only [findUser, Table.lookup_insert]
    split
    · rfl
    · exact rooted.registered other root

theorem registerUser (rooted : Rooted manager) (userName password : Text)
    (isRoot : Bool) :
    Rooted ((UserManager.registerUser userName password isRoot).after
      manager) := by
  have unbound := nextId_unbound rooted.keyed
  cases search : manager.findUserByName userName with
  | some old =>
      have same : (UserManager.registerUser userName password isRoot).after
          manager = manager := by
        simp [UserManager.registerUser, Action.after, search]
      rw [same]
      exact rooted
  | none =>
      simp only [UserManager.registerUser, Action.after, search, User.init,
        unbound]
      constructor
      · intro userId user found
        simp only [Table.lookup_insert] at found
        split at found
        · next same =>
            cases found
            exact ⟨same, same ▸ Int.lt_succ manager.nextId⟩
        · obtain ⟨key, below⟩ := rooted.keyed userId user found
          exact ⟨key, Int.lt_trans below (Int.lt_succ manager.nextId)⟩
      · intro userId root
        simp only [findUser, Table.lookup_insert]
        split
        · rfl
        · next differs =>
            apply rooted.registered userId
            cases isRoot with
            | false => exact root
            | true =>
                simpa [isRootUser, Table.lookup_insert, differs] using root

theorem removeUser (rooted : Rooted manager) (removed : Int) :
    Rooted (manager.removeUser removed) where
  keyed userId user found :=
    rooted.keyed userId user (Table.lookup_of_lookup_erase found)
  registered userId root := by
    simp only [isRootUser, UserManager.removeUser, findUser,
      Table.lookup_erase] at root ⊢
    by_cases same : removed = userId
    · simp [same] at root
    · rw [if_neg same] at root ⊢
      exact rooted.registered userId root

theorem reread (rooted : Rooted manager) (rest : Int → UninitializedUser) :
    Rooted (manager.reread rest) where
  keyed := keyed_reread rooted.keyed rest
  registered userId root := by
    rw [isRootUser_reread] at root
    cases root

theorem next (rooted : Rooted manager) (event : UserEvent) :
    Rooted (manager.next event) := by
  cases event with
  | registerUser userName password isRoot =>
      exact rooted.registerUser userName password isRoot
  | removeUser userId => exact rooted.removeUser userId
  | restart rest => exact rooted.reread rest
  | loginUser userId password connId =>
      rcases loginUser_cases manager userId password connId with
        refused | ⟨user, found, -, passed⟩
      · rw [UserManager.next, refused]
        exact rooted
      · rw [UserManager.next, passed]
        exact rooted.insert found _ (by rfl)
  | heartbeat userId now =>
      rcases after_heartbeat manager userId now with
        same | ⟨user, found, changed⟩
      · rw [UserManager.next, same]
        exact rooted
      · rw [UserManager.next, changed]
        exact rooted.insert found _ (by rfl)
  | kickOutUser connId =>
      rcases after_kickOutUser manager connId with
        ⟨same, -⟩ | ⟨user, login, changed⟩
      · rw [UserManager.next, same]
        exact rooted
      · have stored : manager.userList[user.userId]? = some user := by
          unfold findLoginUser at login
          split at login
          · cases login
          · next userId listed =>
            rw [(rooted.keyed userId user login).1]
            exact login
        rw [UserManager.next, changed]
        exact rooted.insert stored _ (by rfl)

end Rooted

theorem rooted_of_reachable (reachable : userMachine.Reachable manager) :
    Rooted manager := by
  apply Machine.Reachable.invariant rooted_init ?_ reachable
  intro manager event next rooted stepped
  cases stepped
  exact rooted.next event

/-! ## Restarts -/

/-- The set-up leaves the rights of the users that are there. -/
theorem isRootUser_setUpRoot (keyed : manager.Keyed) (rootUserName : Text)
    (rootUserPwd : Text) {userId : Int} {user : User}
    (found : manager.findUser userId = some user) :
    (manager.setUpRoot rootUserName rootUserPwd).isRootUser userId =
      manager.isRootUser userId := by
  unfold setUpRoot
  cases search : manager.findUserByName rootUserName with
  | some root => rfl
  | none =>
      have below := (keyed userId user found).2
      have differs : manager.nextId ≠ userId := by omega
      simp only [registerUser, Action.after, search, User.init,
        nextId_unbound keyed, isRootUser]
      simp [Table.lookup_insert, differs]

/-- A restart that reads what was written changes nothing that the object is
there for, and nobody's rights. -/
structure Survives (manager : UserManager) (rest : Int → UninitializedUser)
    (rootUserName rootUserPwd : Text) : Prop where
  agrees : manager.Agrees (manager.reread rest)
  rights : manager.SameRights
    ((manager.reread rest).setUpRoot rootUserName rootUserPwd)

/-- After a restart no user of the process before is a root user. -/
theorem isRootUser_restarted (keyed : manager.Keyed)
    (rest : Int → UninitializedUser) (rootUserName rootUserPwd : Text)
    {userId : Int} {user : User}
    (found : manager.findUser userId = some user) :
    ((manager.reread rest).setUpRoot rootUserName
      rootUserPwd).isRootUser userId = false := by
  have reread := findUser_reread keyed rest userId
  rw [found, Option.map_some, Option.map_eq_some_iff] at reread
  obtain ⟨later, foundLater, -⟩ := reread
  rw [isRootUser_setUpRoot (keyed_reread keyed rest) rootUserName rootUserPwd
    foundLater, isRootUser_reread]

/-- The rights survive a restart only where no user is a root user. -/
theorem sameRights_iff (rooted : Rooted manager)
    (rest : Int → UninitializedUser) (rootUserName rootUserPwd : Text) :
    manager.SameRights
        ((manager.reread rest).setUpRoot rootUserName rootUserPwd) ↔
      ∀ userId, manager.isRootUser userId = false := by
  constructor
  · intro same userId
    by_contra root
    rw [Bool.not_eq_false] at root
    obtain ⟨user, found⟩ :=
      Option.isSome_iff_exists.mp (rooted.registered userId root)
    rw [same userId user found,
      isRootUser_restarted rooted.keyed rest rootUserName rootUserPwd
        found] at root
    cases root
  · intro noRoot userId user found
    rw [noRoot, isRootUser_restarted rooted.keyed rest rootUserName
      rootUserPwd found]

/-- The users survive a restart exactly when no user is a root user. -/
theorem survives_iff (reachable : userMachine.Reachable manager)
    (rest : Int → UninitializedUser) (rootUserName rootUserPwd : Text) :
    manager.Survives rest rootUserName rootUserPwd ↔
      ∀ userId, manager.isRootUser userId = false := by
  have rooted := rooted_of_reachable reachable
  constructor
  · intro survives
    exact (sameRights_iff rooted rest rootUserName rootUserPwd).mp
      survives.rights
  · intro noRoot
    refine ⟨⟨?_, ?_, ?_, rfl⟩, ?_⟩
    · intro userId
      exact (findUser_reread rooted.keyed rest userId).symm
    · intro userName
      exact (findUserByName_reread rooted.keyed rest userName).symm
    · intro userId
      rw [noRoot, isRootUser_reread]
    · exact (sameRights_iff rooted rest rootUserName rootUserPwd).mpr noRoot

/-- Members that happen to be zero. -/
def zeroMembers : Int → UninitializedUser := fun _ =>
  { connId := 0, lastHearbeat := 0 }

/-- The manager of the second process, after the set-up of the first. -/
theorem survives_secondProcess :
    ((init.setUpRoot ['r'] []).reread zeroMembers).Survives zeroMembers
      ['r'] [] := by
  apply (survives_iff ⟨[.registerUser ['r'] [] true, .restart zeroMembers],
    rfl⟩ zeroMembers ['r'] []).mpr
  exact isRootUser_reread zeroMembers

/-- The root user of the first process is none in the second. -/
theorem not_survives_always :
    ¬∀ manager, userMachine.Reachable manager →
      ∀ rest rootUserName rootUserPwd,
        manager.Survives rest rootUserName rootUserPwd := by
  intro always
  have survives := always (init.setUpRoot ['r'] [])
    ⟨[.registerUser ['r'] [] true], rfl⟩ zeroMembers ['r'] []
  have root : (init.setUpRoot ['r'] []).isRootUser 1 = true := by decide
  rw [survives.agrees.root, isRootUser_reread] at root
  cases root

end UserManager

end ResourceServer
end Spaceless
