import Mathlib.Data.List.Nodup
import Spaceless.Logic.Machine
import Spaceless.ResourceServer.Group

/-!
# Managers and members of a group

The machine applies the four role functions to one group in any order; a
call that throws leaves the group as it was.  Neither user list ever holds a
user twice.  Promotion to manager takes the user out of the member list, so
managers stay members exactly in the runs without a successful promotion.
-/

namespace Spaceless
namespace ResourceServer

open Logic Foundation

/-- The functions that change the roles in a group. -/
inductive RoleCall
  | joinGroup (userId : Int)
  | assignAsManager (userId : Int)
  | assignAsMember (userId : Int)
  | kickOutUser (userId : Int)
  deriving DecidableEq

namespace SharingGroup

/-- The group after one call. -/
def next (group : SharingGroup) : RoleCall → SharingGroup
  | .joinGroup userId => group.joinGroup userId
  | .assignAsManager userId => (assignAsManager userId).after group
  | .assignAsMember userId => (assignAsMember userId).after group
  | .kickOutUser userId => (kickOutUser userId).after group

/-- The role functions on one group. -/
def roleMachine (group : SharingGroup) : Machine SharingGroup RoleCall where
  start := group
  step := fun group call => some (group.next call)

/-- A user who passes the manager check passes the member check. -/
def ManagersAreMembers (group : SharingGroup) : Prop :=
  ∀ userId, group.isManager userId = true → group.isMember userId = true

/-- Both lists without the user. -/
def without (group : SharingGroup) (userId : Int) : SharingGroup :=
  { group with
    memberList := group.memberList.erase userId
    managerList := group.managerList.erase userId }

theorem after_kickOutUser (group : SharingGroup) (userId : Int) :
    (kickOutUser userId).after group =
      if userId = group.ownerId then group else group.without userId := by
  by_cases owner : userId = group.ownerId <;>
    simp [kickOutUser, Action.after, owner, without]

/-- A promotion takes effect for a member other than the owner; in all other
cases it throws. -/
theorem after_assignAsManager (group : SharingGroup) (userId : Int) :
    (assignAsManager userId).after group =
      if userId ∈ group.memberList ∧ userId ≠ group.ownerId then
        { group.without userId with
          managerList := group.managerList.erase userId ++ [userId] }
      else group := by
  by_cases member : userId ∈ group.memberList
  · have isMember : group.isMember userId = true := by
      simpa [SharingGroup.isMember] using member
    simp only [assignAsManager, Action.after, Action.bind_apply,
      Action.read_apply, isMember, if_true, kickOutUser]
    by_cases owner : userId = group.ownerId <;> simp [member, owner, without]
  · by_cases manager : userId ∈ group.managerList <;>
      simp [assignAsManager, Action.after, Action.bind_apply, isMember,
        isManager, member, manager]

/-- A demotion takes effect for a manager other than the owner; in all other
cases it throws. -/
theorem after_assignAsMember (group : SharingGroup) (userId : Int) :
    (assignAsMember userId).after group =
      if userId ∈ group.managerList ∧ userId ≠ group.ownerId then
        { group.without userId with
          memberList := group.memberList.erase userId ++ [userId] }
      else group := by
  by_cases manager : userId ∈ group.managerList
  · have isManager : group.isManager userId = true := by
      simpa [SharingGroup.isManager] using manager
    simp only [assignAsMember, Action.after, Action.bind_apply,
      Action.read_apply, isManager, if_true, kickOutUser]
    by_cases owner : userId = group.ownerId <;> simp [manager, owner, without]
  · by_cases member : userId ∈ group.memberList <;>
      simp [assignAsMember, Action.after, Action.bind_apply, isMember,
        isManager, member, manager]

/-! ## What the role functions leave alone -/

/-- All but the user lists is as before. -/
structure SamePlace (group changed : SharingGroup) : Prop where
  groupId : changed.groupId = group.groupId
  groupName : changed.groupName = group.groupName
  ownerId : changed.ownerId = group.ownerId
  rootDirId : changed.rootDirId = group.rootDirId
  nodeId : changed.nodeId = group.nodeId

/-- The role of the user is as before. -/
def SameRole (group changed : SharingGroup) (userId : Int) : Prop :=
  changed.isManager userId = group.isManager userId ∧
    changed.isMember userId = group.isMember userId

theorem SamePlace.refl (group : SharingGroup) : group.SamePlace group :=
  ⟨rfl, rfl, rfl, rfl, rfl⟩

theorem samePlace_next (group : SharingGroup) (call : RoleCall) :
    group.SamePlace (group.next call) := by
  cases call with
  | joinGroup userId =>
      simp only [next, joinGroup]
      split <;> exact ⟨rfl, rfl, rfl, rfl, rfl⟩
  | assignAsManager userId =>
      simp only [next, after_assignAsManager]
      split <;> exact ⟨rfl, rfl, rfl, rfl, rfl⟩
  | assignAsMember userId =>
      simp only [next, after_assignAsMember]
      split <;> exact ⟨rfl, rfl, rfl, rfl, rfl⟩
  | kickOutUser userId =>
      simp only [next, after_kickOutUser]
      split <;> exact ⟨rfl, rfl, rfl, rfl, rfl⟩

theorem sameRole_joinGroup (group : SharingGroup) {userId other : Int}
    (different : other ≠ userId) :
    group.SameRole (group.next (.joinGroup userId)) other := by
  simp only [next, joinGroup]
  split
  · exact ⟨rfl, rfl⟩
  · refine ⟨rfl, ?_⟩
    simp [isMember, different]

theorem sameRole_without (group : SharingGroup) {userId other : Int}
    (different : other ≠ userId) :
    group.SameRole (group.without userId) other := by
  constructor <;>
    rw [Bool.eq_iff_iff] <;>
    simp only [isManager, isMember, without, List.contains_iff_mem,
      List.mem_erase_of_ne different]

theorem sameRole_kickOutUser (group : SharingGroup) {userId other : Int}
    (different : other ≠ userId) :
    group.SameRole (group.next (.kickOutUser userId)) other := by
  simp only [next, after_kickOutUser]
  split
  · exact ⟨rfl, rfl⟩
  · exact group.sameRole_without different

/-! ## Managers and members -/

/-- No user occurs twice in a list. -/
structure DistinctUsers (group : SharingGroup) : Prop where
  managers : group.managerList.Nodup
  members : group.memberList.Nodup

theorem nodup_erase_append {users : List Int} (distinct : users.Nodup)
    (userId : Int) : (users.erase userId ++ [userId]).Nodup := by
  rw [List.nodup_append]
  refine ⟨distinct.erase userId, List.nodup_singleton userId, ?_⟩
  intro user present other single same
  rw [List.mem_singleton.mp single] at same
  subst same
  exact distinct.not_mem_erase present

theorem distinctUsers_init
    (groupId : Int) (groupName : Text) (ownerId rootDirId nodeId : Int) :
    (init groupId groupName ownerId rootDirId nodeId).DistinctUsers :=
  ⟨List.nodup_singleton ownerId, List.nodup_singleton ownerId⟩

theorem DistinctUsers.without
    {group : SharingGroup} (distinct : group.DistinctUsers) (userId : Int) :
    (group.without userId).DistinctUsers :=
  ⟨distinct.managers.erase userId, distinct.members.erase userId⟩

theorem DistinctUsers.next
    {group : SharingGroup} (distinct : group.DistinctUsers)
    (call : RoleCall) : (group.next call).DistinctUsers := by
  cases call with
  | joinGroup userId =>
      simp only [SharingGroup.next, joinGroup]
      split
      · exact distinct
      · rename_i outside
        refine ⟨distinct.managers, ?_⟩
        simp only [isMember, List.contains_iff_mem] at outside
        rw [← List.erase_of_not_mem outside]
        exact nodup_erase_append distinct.members userId
  | assignAsManager userId =>
      simp only [SharingGroup.next, after_assignAsManager]
      split
      · exact ⟨nodup_erase_append distinct.managers userId,
          distinct.members.erase userId⟩
      · exact distinct
  | assignAsMember userId =>
      simp only [SharingGroup.next, after_assignAsMember]
      split
      · exact ⟨distinct.managers.erase userId,
          nodup_erase_append distinct.members userId⟩
      · exact distinct
  | kickOutUser userId =>
      simp only [SharingGroup.next, after_kickOutUser]
      split
      · exact distinct
      · exact distinct.without userId

/-- The condition under which a call keeps managers members: a promotion is
refused. -/
def PromotionRefused (group : SharingGroup) (call : RoleCall) : Prop :=
  ∀ userId, call = .assignAsManager userId →
    userId ∉ group.memberList ∨ userId = group.ownerId

theorem ManagersAreMembers.next
    {group : SharingGroup} (within : group.ManagersAreMembers)
    (distinct : group.DistinctUsers) {call : RoleCall}
    (refused : group.PromotionRefused call) :
    (group.next call).ManagersAreMembers := by
  simp only [ManagersAreMembers, isManager, isMember,
    List.contains_iff_mem] at within ⊢
  cases call with
  | joinGroup userId =>
      intro user manager
      simp only [SharingGroup.next, joinGroup] at manager ⊢
      split at manager
      · simp_all
      · simp_all
  | assignAsManager userId =>
      have throws : ¬(userId ∈ group.memberList ∧
          userId ≠ group.ownerId) := by
        rintro ⟨member, notOwner⟩
        exact (refused userId rfl).elim (· member) notOwner
      rw [SharingGroup.next, after_assignAsManager, if_neg throws]
      exact within
  | assignAsMember userId =>
      simp only [SharingGroup.next, after_assignAsMember]
      split
      · intro user manager
        simp only [without] at manager
        simp only [List.mem_append, List.mem_singleton]
        by_cases same : user = userId
        · exact Or.inr same
        · left
          rw [List.mem_erase_of_ne same] at manager ⊢
          exact within user manager
      · exact within
  | kickOutUser userId =>
      simp only [SharingGroup.next, after_kickOutUser]
      split
      · exact within
      · intro user manager
        simp only [without] at manager ⊢
        have different : user ≠ userId := by
          rintro rfl
          exact distinct.managers.not_mem_erase manager
        rw [List.mem_erase_of_ne different] at manager ⊢
        exact within user manager

/-- A successful promotion leaves a manager who is not a member. -/
theorem not_managersAreMembers_of_promotion
    {group : SharingGroup} (distinct : group.DistinctUsers)
    {userId : Int} (member : userId ∈ group.memberList)
    (notOwner : userId ≠ group.ownerId) :
    ¬(group.next (.assignAsManager userId)).ManagersAreMembers := by
  intro within
  have missing := within userId
  rw [SharingGroup.next, after_assignAsManager,
    if_pos ⟨member, notOwner⟩] at missing
  simp only [isManager, isMember, without, List.contains_iff_mem,
    List.mem_append, List.mem_singleton, or_true, true_implies] at missing
  exact distinct.members.not_mem_erase missing

/-- In a run from the constructor, managers are members in every state
passed through exactly when every promotion of the run is refused. -/
theorem managersAreMembers_throughout_iff
    (groupId : Int) (groupName : Text) (ownerId rootDirId nodeId : Int)
    (calls : List RoleCall) :
    (roleMachine (init groupId groupName ownerId rootDirId nodeId)).Throughout
        ManagersAreMembers calls ↔
      (roleMachine (init groupId groupName ownerId rootDirId nodeId)).StepsMeet
        PromotionRefused calls := by
  refine Machine.throughout_iff_stepsMeet DistinctUsers
    (fun group call => ⟨group.next call, rfl⟩)
    (distinctUsers_init groupId groupName ownerId rootDirId nodeId) ?_
    (fun userId manager => manager) ?_ calls
  · rintro group call next distinct stepped
    cases stepped
    exact distinct.next call
  · rintro group call next distinct within stepped
    cases stepped
    constructor
    · rintro withinNext userId rfl
      by_contra promoted
      push Not at promoted
      exact not_managersAreMembers_of_promotion distinct promoted.1
        promoted.2 withinNext
    · exact within.next distinct

/-- A user who joins and is promoted manages the group without being a
member. -/
theorem not_managersAreMembers_always :
    ¬∀ calls group,
      (roleMachine (init 1 ['g'] 1 1 1)).Reaches calls group →
        group.ManagersAreMembers := by
  intro always
  have within := always [.joinGroup 2, .assignAsManager 2]
    { init 1 ['g'] 1 1 1 with managerList := [1, 2] } (by decide) 2
    (by decide)
  revert within
  decide

end SharingGroup

end ResourceServer
end Spaceless
