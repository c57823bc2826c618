import Spaceless.ResourceServer.LoginHistory

/-!
# The user of the last login

A login that is accepted on a connection inserts an entry for it, and an entry
that is already there wins.  So the connection acts as the user of the login
exactly when it had no entry of another user before, and then goes on to do so.
-/

namespace Spaceless
namespace ResourceServer

open Logic Foundation

/-- The event concerns the login of the user on the connection: it is about
this connection, or it ends the login or the user. -/
def UserEvent.Concerns (connId userId : Int) : UserEvent → Prop
  | .loginUser _ _ login => login = connId
  | .removeUser removed => removed = userId
  | .kickOutUser kicked => kicked = connId
  | .restart _ => True
  | _ => False

namespace UserManager

/-- The requests of the connection are those of the user. -/
def ActsAs (manager : UserManager) (connId userId : Int) : Prop :=
  ∃ user, manager.findLoginUser connId = some user ∧ user.userId = userId

/-- The user of the login list is registered. -/
structure Resolves (manager : UserManager) (connId userId : Int) : Prop where
  keyed : manager.Keyed
  listed : manager.loginUserList[connId]? = some userId
  registered : (manager.userList[userId]?).isSome = true

variable {manager : UserManager} {connId userId : Int}

theorem Resolves.actsAs (resolves : manager.Resolves connId userId) :
    manager.ActsAs connId userId := by
  obtain ⟨user, found⟩ := Option.isSome_iff_exists.mp resolves.registered
  refine ⟨user, ?_, (resolves.keyed userId user found).1⟩
  rw [findLoginUser, resolves.listed]
  exact found

/-- A stored user may change. -/
theorem isSome_insert {changed : User} {other : Int}
    (registered : (manager.userList[userId]?).isSome = true) :
    ((manager.userList.insert other changed)[userId]?).isSome = true := by
  rw [Table.lookup_insert]
  split
  · rfl
  · exact registered

/-- What does not concern a login leaves it as it is. -/
theorem Resolves.next (resolves : manager.Resolves connId userId)
    {event : UserEvent} (other : ¬event.Concerns connId userId) :
    (manager.next event).Resolves connId userId := by
  cases event with
  | registerUser userName password isRootUser =>
      have keyed := resolves.keyed
      rcases after_registerUser keyed userName password isRootUser with
        refused | ⟨roots, added⟩
      · rw [UserManager.next, refused]
        exact resolves
      · rw [UserManager.next, added]
        refine ⟨?_, resolves.listed, isSome_insert resolves.registered⟩
        intro key user found
        simp only [Table.lookup_insert] at found
        split at found
        · next same =>
            cases found
            exact ⟨same, same ▸ Int.lt_succ manager.nextId⟩
        · obtain ⟨sameId, below⟩ := keyed key user found
          exact ⟨sameId, Int.lt_trans below (Int.lt_succ manager.nextId)⟩
  | loginUser login password loginConn =>
      have differs : loginConn ≠ connId := other
      rcases loginUser_cases manager login password loginConn with
        refused | ⟨user, found, -, passed⟩
      · rw [UserManager.next, refused]
        exact resolves
      · rw [UserManager.next, passed]
        refine ⟨resolves.keyed.insert found _ (by rfl), ?_,
          isSome_insert resolves.registered⟩
        have kept := resolves.listed
        simp [Std.ExtTreeMap.getElem?_insertIfNew, differs, kept]
  | removeUser removed =>
      have differs : removed ≠ userId := other
      refine ⟨?_, resolves.listed, ?_⟩
      · intro key user found
        exact resolves.keyed key user (Table.lookup_of_lookup_erase found)
      · rw [UserManager.next, UserManager.removeUser,
          Table.lookup_erase_of_ne _ differs]
        exact resolves.registered
  | kickOutUser kicked =>
      have differs : kicked ≠ connId := other
      rcases after_kickOutUser manager kicked with
        ⟨same, -⟩ | ⟨user, login, changed⟩
      · rw [UserManager.next, same]
        exact resolves
      · have stored : manager.userList[user.userId]? = some user := by
          simp only [findLoginUser, findUser] at login
          split at login
          · cases login
          · rwa [(resolves.keyed _ _ login).1]
        rw [UserManager.next, changed]
        refine ⟨resolves.keyed.insert stored _ (by rfl), ?_,
          isSome_insert resolves.registered⟩
        exact (Table.lookup_erase_of_ne _ differs).trans resolves.listed
  | heartbeat beating now =>
      rcases after_heartbeat manager beating now with
        same | ⟨user, stored, changed⟩
      · rw [UserManager.next, same]
        exact resolves
      · rw [UserManager.next, changed]
        exact ⟨resolves.keyed.insert stored _ (by rfl), resolves.listed,
          isSome_insert resolves.registered⟩
  | restart rest => exact absurd trivial other

theorem Resolves.run (resolves : manager.Resolves connId userId)
    {events : List UserEvent}
    (others : ∀ event ∈ events, ¬event.Concerns connId userId)
    {later : UserManager}
    (run : userMachine.run manager events = some later) :
    later.Resolves connId userId := by
  induction events generalizing manager with
  | nil =>
      cases run
      exact resolves
  | cons event events inductionHypothesis =>
      apply inductionHypothesis (resolves.next
        (others event List.mem_cons_self)) ?_ run
      intro next member
      exact others next (List.mem_cons_of_mem _ member)

/-- From an accepted login on, the connection acts as its user until something
concerns this login. -/
def Follows (manager : UserManager) (userId : Int) (password : Text)
    (connId : Int) : Prop :=
  ∀ events, (∀ event ∈ events, ¬event.Concerns connId userId) →
    ∀ later, userMachine.run (manager.loginUser userId password connId).2
      events = some later → later.ActsAs connId userId

/-- A connection acts as the user of an accepted login exactly when it had no
entry of another user. -/
theorem follows_iff (reachable : userMachine.Reachable manager)
    {password : Text}
    (passed : (manager.loginUser userId password connId).1 = true) :
    manager.Follows userId password connId ↔
      ∀ other : Int, manager.loginUserList[connId]? = some other →
        other = userId := by
  obtain ⟨events, reaches⟩ := reachable
  have keyed := (loginsTraced_of_reaches reaches).keyed
  rcases loginUser_cases manager userId password connId with
    refused | ⟨user, found, -, accepted⟩
  · rw [refused] at passed
    cases passed
  have after : (manager.loginUser userId password connId).2 =
      { manager with
        userList := manager.userList.insert userId
          { user with connId := connId }
        loginUserList :=
          manager.loginUserList.insertIfNew connId userId } := by
    rw [accepted]
  have keyedAfter :
      (manager.loginUser userId password connId).2.Keyed := by
    rw [after]
    exact keyed.insert found _ (by rfl)
  have entry :
      (manager.loginUser userId password connId).2.loginUserList[connId]? =
        some ((manager.loginUserList[connId]?).getD userId) := by
    rw [after]
    dsimp only
    cases listed : manager.loginUserList[connId]? with
    | none =>
        rw [Table.insertIfNew_of_fresh _ listed, Table.lookup_insert_self]
        rfl
    | some other =>
        rw [Table.insertIfNew_of_bound _ listed, listed]
        rfl
  constructor
  · intro follows other listed
    obtain ⟨acting, resolved, isUser⟩ := follows [] (by simp) _ rfl
    rw [findLoginUser, entry, listed] at resolved
    exact (keyedAfter other acting resolved).1.symm.trans isUser
  · intro own events others later run
    apply Resolves.actsAs
    refine Resolves.run ⟨keyedAfter, ?_, ?_⟩ others run
    · rw [entry]
      cases listed : manager.loginUserList[connId]? with
      | none => rfl
      | some other => rw [own other listed]; rfl
    · rw [after]
      simp

/-- Two registered users, and the login of the first on a connection. -/
def firstLogin : List UserEvent :=
  [.registerUser ['a'] [] false, .registerUser ['b'] [] false,
    .loginUser 1 [] 7]

/-- The first user may log in again. -/
theorem follows_firstLogin :
    ∃ manager, userMachine.Reaches firstLogin manager ∧
      manager.Follows 1 [] 7 := by
  refine ⟨_, rfl, (follows_iff ⟨firstLogin, rfl⟩ (by decide)).mpr ?_⟩
  intro other listed
  revert listed
  exact fun listed => (Option.some.inj listed).symm

/-- The second user logs in, and the connection still acts as the first. -/
theorem not_follows_secondLogin :
    ¬∀ manager, userMachine.Reaches firstLogin manager →
      (manager.loginUser 2 [] 7).1 = true → manager.Follows 2 [] 7 := by
  intro follows
  obtain ⟨user, found, isUser⟩ :=
    follows _ rfl (by decide) [] (by simp) _ rfl
  cases found
  revert isUser
  decide

end UserManager

end ResourceServer
end Spaceless
