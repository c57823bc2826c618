import Mathlib.Data.Set.Insert
import Spaceless.Logic.Refinement
import Spaceless.ResourceServer.Role

/-!
# A group as a set of users

Seen from outside, a group is a set of users with an owner who cannot leave:
joining adds a user, kicking out removes one, and assigning a role moves a
user between the two lists without changing the set.
-/

namespace Spaceless
namespace ResourceServer

open Logic Foundation

/-- What a call does to the set of users of a group with the owner. -/
def RoleCall.effect (ownerId : Int) : RoleCall → Set Int → Set Int
  | .joinGroup userId, users => insert userId users
  | .kickOutUser userId, users =>
      if userId = ownerId then users else users \ {userId}
  | .assignAsManager _, users => users
  | .assignAsMember _, users => users

/-- The group as a set of users. -/
def membershipMachine (ownerId : Int) : Machine (Set Int) RoleCall where
  start := {ownerId}
  step := fun users call => some (call.effect ownerId users)

/-- The user that a call is about. -/
def RoleCall.userId : RoleCall → Int
  | .joinGroup userId => userId
  | .assignAsManager userId => userId
  | .assignAsMember userId => userId
  | .kickOutUser userId => userId

theorem RoleCall.mem_effect (call : RoleCall) {ownerId other : Int}
    {users : Set Int} (different : other ≠ call.userId) :
    other ∈ call.effect ownerId users ↔ other ∈ users := by
  cases call with
  | joinGroup userId => exact Set.mem_insert_iff.trans (or_iff_right different)
  | kickOutUser userId =>
      simp only [effect]
      split
      · rfl
      · exact and_iff_left different
  | assignAsManager userId => rfl
  | assignAsMember userId => rfl

namespace SharingGroup

/-- One call, with its outcome. -/
def perform : RoleCall → Action Fault SharingGroup Unit
  | .joinGroup userId => Action.modify (·.joinGroup userId)
  | .assignAsManager userId => assignAsManager userId
  | .assignAsMember userId => assignAsMember userId
  | .kickOutUser userId => kickOutUser userId

theorem after_perform (group : SharingGroup) (call : RoleCall) :
    (perform call).after group = group.next call := by
  cases call <;> rfl

/-- The users in either list. -/
def users (group : SharingGroup) : Set Int :=
  {userId | userId ∈ group.managerList ∨ userId ∈ group.memberList}

theorem isManager_iff {group : SharingGroup} {userId : Int} :
    group.isManager userId = true ↔ userId ∈ group.managerList :=
  List.contains_iff_mem

theorem isMember_iff {group : SharingGroup} {userId : Int} :
    group.isMember userId = true ↔ userId ∈ group.memberList :=
  List.contains_iff_mem

theorem mem_users {group : SharingGroup} {userId : Int} :
    userId ∈ group.users ↔
      group.isManager userId = true ∨ group.isMember userId = true := by
  rw [isManager_iff, isMember_iff]
  rfl

/-- The owner is in both lists, and no list holds a user twice. -/
structure Manned (group : SharingGroup) : Prop
    extends group.DistinctUsers where
  ownerManages : group.ownerId ∈ group.managerList
  ownerJoined : group.ownerId ∈ group.memberList

theorem manned_init
    (groupId : Int) (groupName : Text) (ownerId rootDirId nodeId : Int) :
    (init groupId groupName ownerId rootDirId nodeId).Manned where
  toDistinctUsers :=
    distinctUsers_init groupId groupName ownerId rootDirId nodeId
  ownerManages := List.mem_singleton_self ownerId
  ownerJoined := List.mem_singleton_self ownerId

theorem users_init
    (groupId : Int) (groupName : Text) (ownerId rootDirId nodeId : Int) :
    (init groupId groupName ownerId rootDirId nodeId).users = {ownerId} := by
  ext userId
  simp [users, init]

/-! ## One call -/

/-- A call leaves the roles of all other users alone. -/
theorem sameRole_next (group : SharingGroup) {call : RoleCall} {other : Int}
    (different : other ≠ call.userId) :
    group.SameRole (group.next call) other := by
  cases call with
  | joinGroup userId => exact group.sameRole_joinGroup different
  | kickOutUser userId => exact group.sameRole_kickOutUser different
  | assignAsManager userId =>
      have without := group.sameRole_without different
      simp only [next, after_assignAsManager]
      split
      · refine ⟨?_, without.2⟩
        rw [← without.1, Bool.eq_iff_iff]
        simp only [isManager, SharingGroup.without, List.contains_iff_mem,
          List.mem_append, List.mem_singleton]
        exact or_iff_left different
      · exact ⟨rfl, rfl⟩
  | assignAsMember userId =>
      have without := group.sameRole_without different
      simp only [next, after_assignAsMember]
      split
      · refine ⟨without.1, ?_⟩
        rw [← without.2, Bool.eq_iff_iff]
        simp only [isMember, SharingGroup.without, List.contains_iff_mem,
          List.mem_append, List.mem_singleton]
        exact or_iff_left different
      · exact ⟨rfl, rfl⟩

/-- A call about the owner changes nothing. -/
theorem Manned.next_owner {group : SharingGroup} (manned : group.Manned)
    {call : RoleCall} (owner : call.userId = group.ownerId) :
    group.next call = group := by
  cases call with
  | joinGroup userId =>
      obtain rfl : userId = group.ownerId := owner
      have member : group.isMember group.ownerId = true :=
        List.contains_iff_mem.mpr manned.ownerJoined
      rw [SharingGroup.next, joinGroup, if_pos member]
  | kickOutUser userId =>
      have same : userId = group.ownerId := owner
      rw [SharingGroup.next, after_kickOutUser, if_pos same]
  | assignAsManager userId =>
      rw [SharingGroup.next, after_assignAsManager,
        if_neg fun promoted => promoted.2 owner]
  | assignAsMember userId =>
      rw [SharingGroup.next, after_assignAsMember,
        if_neg fun demoted => demoted.2 owner]

theorem Manned.next {group : SharingGroup} (manned : group.Manned)
    (call : RoleCall) : (group.next call).Manned := by
  by_cases owner : call.userId = group.ownerId
  · rw [manned.next_owner owner]
    exact manned
  · have same := group.sameRole_next (Ne.symm owner)
    refine ⟨manned.toDistinctUsers.next call, ?_, ?_⟩
    · rw [(group.samePlace_next call).ownerId, ← isManager_iff, same.1]
      exact isManager_iff.mpr manned.ownerManages
    · rw [(group.samePlace_next call).ownerId, ← isMember_iff, same.2]
      exact isMember_iff.mpr manned.ownerJoined

/-- A call that throws leaves the group as it was. -/
theorem next_of_error {group : SharingGroup} {call : RoleCall}
    {fault : Fault} (thrown : (perform call group).1 = .error fault) :
    group.next call = group := by
  cases call with
  | joinGroup userId => cases thrown
  | kickOutUser userId =>
      rw [next, after_kickOutUser]
      split
      · rfl
      · rename_i leaves
        simp [perform, kickOutUser, leaves] at thrown
  | assignAsManager userId =>
      rw [next, after_assignAsManager]
      split
      · rename_i promoted
        have member := isMember_iff.mpr promoted.1
        simp [perform, assignAsManager, kickOutUser, Action.bind_apply,
          member, promoted.2] at thrown
      · rfl
  | assignAsMember userId =>
      rw [next, after_assignAsMember]
      split
      · rename_i demoted
        have manager := isManager_iff.mpr demoted.1
        simp [perform, assignAsMember, kickOutUser, Action.bind_apply,
          manager, demoted.2] at thrown
      · rfl

/-! ## The set of users -/

/-- What a call does to the user it is about. -/
theorem Manned.mem_users_next {group : SharingGroup} (manned : group.Manned)
    (call : RoleCall) :
    call.userId ∈ (group.next call).users ↔
      call.userId ∈ call.effect group.ownerId group.users := by
  cases call with
  | joinGroup userId =>
      have joined : userId ∈ (group.joinGroup userId).memberList := by
        rw [joinGroup]
        split
        · rename_i member
          exact isMember_iff.mp member
        · simp
      exact iff_of_true (Or.inr joined) (Set.mem_insert userId _)
  | kickOutUser userId =>
      simp only [SharingGroup.next, after_kickOutUser, RoleCall.effect]
      split
      · rfl
      · refine iff_of_false ?_ fun present => present.2 rfl
        rintro (manager | member)
        · exact manned.managers.not_mem_erase manager
        · exact manned.members.not_mem_erase member
  | assignAsManager userId =>
      simp only [SharingGroup.next, after_assignAsManager, RoleCall.effect]
      split
      · rename_i promoted
        have manages := List.mem_append_right
          (group.managerList.erase userId) (List.mem_singleton_self userId)
        exact iff_of_true (Or.inl manages) (Or.inr promoted.1)
      · rfl
  | assignAsMember userId =>
      simp only [SharingGroup.next, after_assignAsMember, RoleCall.effect]
      split
      · rename_i demoted
        have joined := List.mem_append_right
          (group.memberList.erase userId) (List.mem_singleton_self userId)
        exact iff_of_true (Or.inr joined) (Or.inl demoted.1)
      · rfl

theorem Manned.users_next {group : SharingGroup} (manned : group.Manned)
    (call : RoleCall) :
    (group.next call).users = call.effect group.ownerId group.users := by
  ext other
  by_cases about : other = call.userId
  · subst about
    exact manned.mem_users_next call
  · have same := group.sameRole_next about
    rw [mem_users, same.1, same.2, ← mem_users, call.mem_effect about]

/-! ## Runs -/

/-- In every run from the constructor the owner stays in both lists, no list
holds a user twice, the users are those of the plain set on the same calls,
and a call that throws changes nothing. -/
theorem refines_membership
    (groupId : Int) (groupName : Text) (ownerId rootDirId nodeId : Int)
    {calls : List RoleCall} {group : SharingGroup}
    (reaches : (roleMachine
      (init groupId groupName ownerId rootDirId nodeId)).Reaches
        calls group) :
    group.ownerId = ownerId ∧ group.Manned ∧
      (membershipMachine ownerId).Reaches calls group.users ∧
      (∀ call, ((perform call).after group).users =
        call.effect ownerId group.users) ∧
      ∀ call fault, (perform call group).1 = .error fault →
        (perform call).after group = group := by
  obtain ⟨users, abstractReaches, owned, manned, rfl⟩ :=
    reaches.lockstep (membershipMachine ownerId)
      (fun group users =>
        group.ownerId = ownerId ∧ group.Manned ∧ group.users = users)
      ⟨rfl, manned_init groupId groupName ownerId rootDirId nodeId,
        users_init groupId groupName ownerId rootDirId nodeId⟩ (by
      rintro group call next users ⟨owned, manned, rfl⟩ stepped
      cases stepped
      refine ⟨_, rfl, ?_, manned.next call, ?_⟩
      · rw [(group.samePlace_next call).ownerId, owned]
      · rw [manned.users_next call, owned])
  refine ⟨owned, manned, abstractReaches, ?_, ?_⟩
  · intro call
    rw [after_perform, manned.users_next call, owned]
  · intro call fault thrown
    rw [after_perform, next_of_error thrown]

/-- A promoted user stays a user of the group, and the owner cannot be
promoted. -/
theorem refines_membership_promotion :
    (membershipMachine 1).Reaches [.joinGroup 2, .assignAsManager 2]
        { init 1 ['g'] 1 1 1 with managerList := [1, 2] }.users ∧
      (assignAsManager 1).after
          { init 1 ['g'] 1 1 1 with managerList := [1, 2] } =
        { init 1 ['g'] 1 1 1 with managerList := [1, 2] } := by
  have reaches : (roleMachine (init 1 ['g'] 1 1 1)).Reaches
      [.joinGroup 2, .assignAsManager 2]
      { init 1 ['g'] 1 1 1 with managerList := [1, 2] } := by decide
  have refined := refines_membership 1 ['g'] 1 1 1 reaches
  exact ⟨refined.2.2.1, refined.2.2.2.2 (.assignAsManager 1)
    ErrorCode.errGroupCannotKickOutOwner.fault (by decide)⟩

end SharingGroup

end ResourceServer
end Spaceless
