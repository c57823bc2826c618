import Spaceless.ResourceServer.Heartbeat

/-!
# The sweep of the logins

`kick_out_offline_users` erases the entry that its loop stands on, and the
loop then moves on from an entry that is gone.  It also looks up the user of
each entry, and entries outlive their users.  One entry of either kind is
enough to stop the sweep.
-/

namespace Spaceless
namespace ResourceServer

open Logic Foundation

/-- Why a sweep stops: an exception, or the loop goes on from an entry that it
erased, which is undefined. -/
inductive SweepFault
  | thrown (fault : Fault)
  | invalidIterator
  deriving DecidableEq

namespace UserManager

/-- The loop of `kick_out_offline_users` as far as it is defined. -/
def sweep (now : Int) :
    List (Int × Int) → Action SweepFault UserManager Unit
  | [], manager => (.ok (), manager)
  | (connId, userId) :: rest, manager =>
      match manager.getUser userId with
      | .error fault => (.error (.thrown fault), manager)
      | .ok user =>
          if user.isOffline now then
            match kickOutUser connId manager with
            | (.error fault, later) => (.error (.thrown fault), later)
            | (.ok (), later) => (.error .invalidIterator, later)
          else sweep now rest manager

/-- The sweep ends normally and leaves exactly the logins of users that are
not offline, as they were. -/
def Sweeps (manager : UserManager) (now : Int) : Prop :=
  ∃ later, sweep now manager.loginUserList.toList manager = (.ok (), later) ∧
    ∀ connId userId : Int, later.loginUserList[connId]? = some userId ↔
      manager.loginUserList[connId]? = some userId ∧
        ¬ manager.Offline now userId

/-- Every login is one of a registered user, and no one is offline. -/
def AllOnline (manager : UserManager) (now : Int) : Prop :=
  ∀ connId userId : Int, manager.loginUserList[connId]? = some userId →
    ∃ user, manager.findUser userId = some user ∧
      user.isOffline now = false

/-- The sweep ends normally if it has nothing to do. -/
theorem sweep_eq_ok_iff {now : Int} {entries : List (Int × Int)}
    {manager later : UserManager} :
    sweep now entries manager = (.ok (), later) ↔
      later = manager ∧ ∀ entry ∈ entries, ∃ user,
        manager.findUser entry.2 = some user ∧
          user.isOffline now = false := by
  induction entries with
  | nil =>
      rw [sweep, Prod.mk.injEq]
      constructor
      · rintro ⟨-, same⟩
        exact ⟨same.symm, fun entry present => by cases present⟩
      · rintro ⟨same, -⟩
        exact ⟨rfl, same.symm⟩
  | cons entry entries inductionHypothesis =>
      obtain ⟨connId, userId⟩ := entry
      rw [List.forall_mem_cons, sweep, getUser]
      cases found : manager.findUser userId with
      | none =>
          constructor
          · intro ended
            cases ended
          · rintro ⟨-, ⟨user, registered, -⟩, -⟩
            cases registered
      | some user =>
          dsimp only
          by_cases offline : user.isOffline now = true
          · rw [if_pos offline]
            constructor
            · intro ended
              split at ended <;> cases ended
            · rintro ⟨-, ⟨other, same, online⟩, -⟩
              cases same
              rw [offline] at online
              cases online
          · rw [if_neg offline, inductionHypothesis]
            have online : user.isOffline now = false :=
              Bool.eq_false_iff.mpr offline
            constructor
            · rintro ⟨same, rest⟩
              exact ⟨same, ⟨user, rfl, online⟩, rest⟩
            · rintro ⟨same, -, rest⟩
              exact ⟨same, rest⟩

theorem mem_logins {manager : UserManager} {entry : Int × Int} :
    entry ∈ manager.loginUserList.toList ↔
      manager.loginUserList[entry.1]? = some entry.2 :=
  Std.ExtTreeMap.mem_toList_iff_getElem?_eq_some

/-- Exactly the sweeps without anything to do are defined, and do it. -/
theorem sweeps_iff (manager : UserManager) (now : Int) :
    manager.Sweeps now ↔ manager.AllOnline now := by
  constructor
  · rintro ⟨later, ended, -⟩ connId userId login
    exact (sweep_eq_ok_iff.mp ended).2 (connId, userId)
      (mem_logins.mpr login)
  · intro online
    refine ⟨manager, sweep_eq_ok_iff.mpr ⟨rfl, ?_⟩, ?_⟩
    · rintro ⟨connId, userId⟩ present
      exact online connId userId (mem_logins.mp present)
    · intro connId userId
      constructor
      · intro login
        obtain ⟨user, found, awake⟩ := online connId userId login
        refine ⟨login, ?_⟩
        rintro ⟨other, same, offline⟩
        cases found.symm.trans same
        rw [awake] at offline
        cases offline
      · exact And.left

/-- A kick-out keeps the users and their keys. -/
theorem keyed_after_kickOutUser {manager : UserManager}
    (keyed : manager.Keyed) (connId : Int) :
    ((kickOutUser connId).after manager).Keyed ∧
      ∀ userId, (((kickOutUser connId).after manager).findUser
        userId).isSome = (manager.findUser userId).isSome := by
  rcases after_kickOutUser manager connId with
    ⟨same, -⟩ | ⟨user, resolved, after⟩
  · rw [same]
    exact ⟨keyed, fun _ => rfl⟩
  · have stored : manager.userList[user.userId]? = some user := by
      unfold findLoginUser at resolved
      split at resolved
      · cases resolved
      · rwa [(keyed _ _ resolved).1]
    rw [after]
    refine ⟨keyed.insert stored { user with connId := 0 } rfl, ?_⟩
    intro userId
    rw [findUser, findUser, Table.lookup_insert]
    split
    case isTrue same =>
      rw [← same, stored]
      rfl
    case isFalse => rfl

/-- If the loop goes on behind an entry that it erased, it ends normally only
when the user of each entry is registered. -/
theorem registered_of_kickOutOffline {now : Int}
    {entries : List (Int × Int)} {manager later : UserManager}
    (keyed : manager.Keyed)
    (ended : kickOutOffline now entries manager = (.ok (), later)) :
    ∀ entry ∈ entries, (manager.findUser entry.2).isSome := by
  induction entries generalizing manager with
  | nil =>
      intro entry present
      cases present
  | cons entry entries inductionHypothesis =>
      obtain ⟨connId, userId⟩ := entry
      rw [kickOutOffline, Action.bind_apply, Action.check_apply,
        getUser] at ended
      rw [List.forall_mem_cons]
      cases found : manager.findUser userId with
      | none =>
          rw [found] at ended
          cases ended
      | some user =>
          rw [found] at ended
          dsimp only at ended
          refine ⟨rfl, ?_⟩
          by_cases offline : user.isOffline now = true
          · obtain ⟨keyedNext, same⟩ := keyed_after_kickOutUser keyed connId
            rw [if_pos offline, Action.bind_apply] at ended
            split at ended
            case h_1 value next kicked =>
              have after : (kickOutUser connId).after manager = next :=
                congrArg Prod.snd kicked
              rw [after] at keyedNext same
              intro entry present
              rw [← same]
              exact inductionHypothesis keyedNext ended entry present
            case h_2 => cases ended
          · rw [if_neg offline] at ended
            exact inductionHypothesis keyed ended

/-- Even so one login of a user that was removed stops the sweep, at every
tick. -/
theorem kickOutOfflineUsers_ok_iff {manager : UserManager}
    (keyed : manager.Keyed) (now : Int) :
    (∃ later, kickOutOfflineUsers now manager = (.ok (), later)) ↔
      manager.Manned := by
  constructor
  · rintro ⟨later, ended⟩
    refine ⟨keyed, ?_⟩
    intro connId userId login
    apply Option.isSome_iff_exists.mp
    exact registered_of_kickOutOffline keyed ended (connId, userId)
      (mem_logins.mpr login)
  · intro manned
    obtain ⟨later, ended, -⟩ := kickOutOffline_spec now
      manager.loginUserList.toList (by
        rw [List.Nodup, List.pairwise_map]
        exact Std.ExtTreeMap.distinct_keys_toList.imp fun differs same =>
          differs (Std.compare_eq_iff_eq.mpr same))
      manned (fun entry => mem_logins.mp)
    exact ⟨later, ended⟩

end UserManager

/-- A user that was removed while logged in. -/
def removedUser : UserManager :=
  ((UserManager.init.next (.registerUser ['u'] ['p'] false)).next
    (.loginUser 1 ['p'] 7)).next (.removeUser 1)

theorem not_sweeps_always :
    ¬ ∀ events manager now, userMachine.Reaches events manager →
      manager.Sweeps now := by
  intro sweeps
  have reaches : userMachine.Reaches
      [.registerUser ['u'] ['p'] false, .loginUser 1 ['p'] 7, .removeUser 1]
      removedUser := rfl
  obtain ⟨later, ended, -⟩ := sweeps _ removedUser 0 reaches
  have login : removedUser.loginUserList[(7 : Int)]? = some 1 := by
    decide
  obtain ⟨user, found, -⟩ := (UserManager.sweep_eq_ok_iff.mp ended).2 (7, 1)
    (UserManager.mem_logins.mpr login)
  have gone : removedUser.findUser 1 = none := by
    decide
  rw [gone] at found
  cases found

end ResourceServer
end Spaceless
