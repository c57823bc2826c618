import Mathlib.Logic.Relation
import Mathlib.Logic.Function.Basic
import Mathlib.Order.Defs.PartialOrder

/-!
# Hierarchies kept as lists of children

Nodes name their children, and some nodes are roots.  In an arranged
hierarchy a node has one parent at most and a parent comes before its
children, so that there are no cycles.  New nodes are planted without a
parent and then adopted; pruning takes a node out together with the mention
in its parent.
-/

namespace Spaceless
namespace Logic

/-- Nodes with their children in order. -/
@[ext] structure Hierarchy (ι : Type) where
  live : ι → Prop
  children : ι → List ι

namespace Hierarchy

variable {ι : Type} {hierarchy : Hierarchy ι} {roots : ι → Prop}

/-- The parent names the child. -/
def Child (hierarchy : Hierarchy ι) (parent child : ι) : Prop :=
  child ∈ hierarchy.children parent

/-- The node can be reached from a root. -/
def Reached (hierarchy : Hierarchy ι) (roots : ι → Prop) (node : ι) :
    Prop :=
  ∃ root, roots root ∧ Relation.ReflTransGen hierarchy.Child root node

/-- The node can be reached from a root without a step over `top`. -/
def ReachedAround (hierarchy : Hierarchy ι) (roots : ι → Prop)
    (top node : ι) : Prop :=
  ∃ root, roots root ∧ root ≠ top ∧
    Relation.ReflTransGen
      (fun parent child => hierarchy.Child parent child ∧ child ≠ top)
      root node

/-- The node is reached, and only through `top`. -/
def OnlyThrough (hierarchy : Hierarchy ι) (roots : ι → Prop)
    (top node : ι) : Prop :=
  hierarchy.Reached roots node ∧ ¬hierarchy.ReachedAround roots top node

/-- Every node is reached. -/
def Covered (hierarchy : Hierarchy ι) (roots : ι → Prop) : Prop :=
  ∀ node, hierarchy.live node → hierarchy.Reached roots node

/-- Children are nodes with one parent, which comes before them; roots are
nodes without a parent. -/
structure Arranged [Preorder ι] (hierarchy : Hierarchy ι)
    (roots : ι → Prop) : Prop where
  live : ∀ parent child, hierarchy.Child parent child →
    hierarchy.live parent ∧ hierarchy.live child
  notRoot : ∀ parent child, hierarchy.Child parent child → ¬roots child
  ascending : ∀ parent child, hierarchy.Child parent child → parent < child
  nodup : ∀ parent, (hierarchy.children parent).Nodup
  unique : ∀ first second child, hierarchy.Child first child →
    hierarchy.Child second child → first = second
  roots : ∀ root, roots root → hierarchy.live root

/-! ## Reaching nodes -/

theorem Reached.child {parent child : ι}
    (reached : hierarchy.Reached roots parent)
    (listed : hierarchy.Child parent child) :
    hierarchy.Reached roots child := by
  obtain ⟨root, isRoot, path⟩ := reached
  exact ⟨root, isRoot, path.tail listed⟩

theorem reached_of_root {root : ι} (isRoot : roots root) :
    hierarchy.Reached roots root :=
  ⟨root, isRoot, .refl⟩

/-- Reached nodes stay reached when children and roots stay. -/
theorem Reached.mono {later : Hierarchy ι} {more : ι → Prop}
    (children : ∀ parent child, hierarchy.Child parent child →
      later.Child parent child)
    (moreRoots : ∀ root, roots root → more root) {node : ι}
    (reached : hierarchy.Reached roots node) : later.Reached more node := by
  obtain ⟨root, isRoot, path⟩ := reached
  exact ⟨root, moreRoots root isRoot,
    Relation.ReflTransGen.mono children _ _ path⟩

/-- Where the children of a node have no children, only they and the node
itself are reached through it. -/
theorem Reached.around {top node : ι}
    (reached : hierarchy.Reached roots node)
    (shallow : ∀ child, hierarchy.Child top child →
      hierarchy.children child = []) :
    node = top ∨ hierarchy.Child top node ∨
      hierarchy.ReachedAround roots top node := by
  obtain ⟨root, isRoot, path⟩ := reached
  induction path with
  | refl =>
      by_cases same : root = top
      · exact Or.inl same
      · exact Or.inr (Or.inr ⟨root, isRoot, same, .refl⟩)
  | @tail middle child _ listed inductionHypothesis =>
      by_cases same : child = top
      · exact Or.inl same
      · right
        rcases inductionHypothesis with rfl | below | around
        · exact Or.inl listed
        · rw [Child, shallow middle below] at listed
          cases listed
        · obtain ⟨start, startRoot, other, path⟩ := around
          exact Or.inr ⟨start, startRoot, other, path.tail ⟨listed, same⟩⟩

/-- A child that has one parent and is no root is reached only through its
parent. -/
theorem onlyThrough_of_child {top child : ι}
    (reached : hierarchy.Reached roots top)
    (listed : hierarchy.Child top child) (notRoot : ¬roots child)
    (unique : ∀ parent, hierarchy.Child parent child → parent = top) :
    hierarchy.OnlyThrough roots top child := by
  refine ⟨reached.child listed, ?_⟩
  rintro ⟨root, isRoot, different, path⟩
  rcases Relation.ReflTransGen.cases_tail path with rfl | ⟨last, before, step⟩
  · exact notRoot isRoot
  · obtain rfl := unique last step.1
    rcases Relation.ReflTransGen.cases_tail before with rfl | ⟨_, _, bad⟩
    · exact different rfl
    · exact bad.2 rfl

section Arranged

variable [Preorder ι]

theorem Arranged.lt_of_transGen (arranged : hierarchy.Arranged roots)
    {first last : ι}
    (path : Relation.TransGen hierarchy.Child first last) :
    first < last := by
  induction path with
  | single listed => exact arranged.ascending _ _ listed
  | tail _ listed inductionHypothesis =>
      exact lt_trans inductionHypothesis (arranged.ascending _ _ listed)

/-- Other roots, all of them nodes without a parent. -/
theorem Arranged.changeRoots {more : ι → Prop}
    (arranged : hierarchy.Arranged roots)
    (live : ∀ root, more root → hierarchy.live root)
    (free : ∀ root, more root → ∀ node, ¬hierarchy.Child node root) :
    hierarchy.Arranged more where
  live := arranged.live
  notRoot := fun node child listed isRoot =>
    free child isRoot node listed
  ascending := arranged.ascending
  nodup := arranged.nodup
  unique := arranged.unique
  roots := live

/-- No node is below itself. -/
theorem Arranged.acyclic (arranged : hierarchy.Arranged roots) (node : ι) :
    ¬Relation.TransGen hierarchy.Child node node :=
  fun cycle => lt_irrefl node (arranged.lt_of_transGen cycle)

theorem Arranged.ne (arranged : hierarchy.Arranged roots) {parent child : ι}
    (listed : hierarchy.Child parent child) : parent ≠ child :=
  ne_of_lt (arranged.ascending parent child listed)

end Arranged

/-! ## Planting and adopting -/

/-- A new node, without a parent. -/
def plant (hierarchy : Hierarchy ι) (new : ι) : Hierarchy ι where
  live := fun node => node = new ∨ hierarchy.live node
  children := hierarchy.children

theorem Arranged.plant [Preorder ι] (arranged : hierarchy.Arranged roots)
    (new : ι) :
    (hierarchy.plant new).Arranged roots where
  live := fun node child listed =>
    (arranged.live node child listed).imp Or.inr Or.inr
  notRoot := arranged.notRoot
  ascending := arranged.ascending
  nodup := arranged.nodup
  unique := arranged.unique
  roots := fun root isRoot => Or.inr (arranged.roots root isRoot)

/-- The parent names one more child. -/
def adopt [DecidableEq ι] (hierarchy : Hierarchy ι) (parent child : ι) :
    Hierarchy ι where
  live := hierarchy.live
  children := Function.update hierarchy.children parent
    (hierarchy.children parent ++ [child])

/-- Take out a node and its mention in the parent. -/
def prune [DecidableEq ι] (hierarchy : Hierarchy ι) (parent old : ι) :
    Hierarchy ι where
  live := fun node => node ≠ old ∧ hierarchy.live node
  children := fun node =>
    if node = old then []
    else if node = parent then
      (hierarchy.children parent).filter (· ≠ old)
    else hierarchy.children node

section Operations

variable [DecidableEq ι] {parent new old : ι}

@[simp] theorem children_adopt_self :
    (hierarchy.adopt parent new).children parent =
      hierarchy.children parent ++ [new] :=
  Function.update_self parent _ _

theorem child_adopt {node child : ι} :
    (hierarchy.adopt parent new).Child node child ↔
      hierarchy.Child node child ∨ node = parent ∧ child = new := by
  unfold Child adopt
  by_cases same : node = parent
  · subst same
    simp
  · simp [same]

theorem child_prune {node child : ι} :
    (hierarchy.prune parent old).Child node child ↔
      node ≠ old ∧ hierarchy.Child node child ∧
        (node = parent → child ≠ old) := by
  unfold Child prune
  by_cases gone : node = old
  · simp [gone]
  · by_cases same : node = parent
    · subst same
      simp [gone]
    · simp [gone, same]

variable [Preorder ι]

theorem Arranged.adopt (arranged : hierarchy.Arranged roots)
    (parentLive : hierarchy.live parent) (newLive : hierarchy.live new)
    (free : ∀ node, ¬hierarchy.Child node new) (notRoot : ¬roots new)
    (above : parent < new) : (hierarchy.adopt parent new).Arranged roots := by
  constructor
  · intro node child listed
    rcases child_adopt.mp listed with old | ⟨rfl, rfl⟩
    · exact arranged.live node child old
    · exact ⟨parentLive, newLive⟩
  · intro node child listed
    rcases child_adopt.mp listed with old | ⟨rfl, rfl⟩
    · exact arranged.notRoot node child old
    · exact notRoot
  · intro node child listed
    rcases child_adopt.mp listed with old | ⟨rfl, rfl⟩
    · exact arranged.ascending node child old
    · exact above
  · intro node
    unfold Hierarchy.adopt
    by_cases same : node = parent
    · subst same
      simp only [Function.update_self]
      refine List.nodup_append.mpr
        ⟨arranged.nodup node, List.pairwise_singleton _ new, ?_⟩
      rintro child listed other alone rfl
      rw [List.mem_singleton.mp alone] at listed
      exact free node listed
    · simp only [Function.update_of_ne same]
      exact arranged.nodup node
  · intro first second child firstListed secondListed
    rcases child_adopt.mp firstListed with firstOld | ⟨rfl, rfl⟩ <;>
      rcases child_adopt.mp secondListed with secondOld | ⟨rfl, same⟩
    · exact arranged.unique first second child firstOld secondOld
    · exact absurd (same ▸ firstOld) (free first)
    · exact absurd secondOld (free second)
    · rfl
  · exact arranged.roots

theorem Arranged.prune (arranged : hierarchy.Arranged roots)
    (listed : hierarchy.Child parent old) :
    (hierarchy.prune parent old).Arranged roots := by
  constructor
  · intro node child still
    obtain ⟨notOld, before, unlisted⟩ := child_prune.mp still
    obtain ⟨nodeLive, childLive⟩ := arranged.live node child before
    refine ⟨⟨notOld, nodeLive⟩, ?_, childLive⟩
    rintro rfl
    exact unlisted (arranged.unique node parent child before listed) rfl
  · intro node child still
    exact arranged.notRoot node child (child_prune.mp still).2.1
  · intro node child still
    exact arranged.ascending node child (child_prune.mp still).2.1
  · intro node
    unfold Hierarchy.prune
    dsimp only
    split
    · exact List.nodup_nil
    · split
      · exact (arranged.nodup parent).filter _
      · exact arranged.nodup node
  · intro first second child firstStill secondStill
    exact arranged.unique first second child (child_prune.mp firstStill).2.1
      (child_prune.mp secondStill).2.1
  · intro root isRoot
    refine ⟨?_, arranged.roots root isRoot⟩
    rintro rfl
    exact arranged.notRoot parent root listed isRoot

end Operations

/-! ## Keeping all nodes reached -/

section Covered

/-- A new root. -/
theorem Covered.plant {more : ι → Prop} {new : ι}
    (covered : hierarchy.Covered roots) (isRoot : more new)
    (moreRoots : ∀ root, roots root → more root) :
    (hierarchy.plant new).Covered more := by
  rintro node (rfl | live)
  · exact reached_of_root isRoot
  · exact (covered node live).mono (fun _ _ listed => listed) moreRoots

variable [DecidableEq ι] {parent new old : ι}

/-- A new node under a parent. -/
theorem Covered.grow (covered : hierarchy.Covered roots)
    (parentLive : hierarchy.live parent) :
    ((hierarchy.plant new).adopt parent new).Covered roots := by
  have kept {node : ι} (reached : hierarchy.Reached roots node) :
      ((hierarchy.plant new).adopt parent new).Reached roots node :=
    reached.mono (fun _ _ listed => child_adopt.mpr (Or.inl listed))
      fun _ isRoot => isRoot
  rintro node (rfl | live)
  · exact (kept (covered parent parentLive)).child
      (child_adopt.mpr (Or.inr ⟨rfl, rfl⟩))
  · exact kept (covered node live)

/-- A node without children taken out. -/
theorem Covered.prune (covered : hierarchy.Covered roots)
    (leaf : hierarchy.children old = []) :
    (hierarchy.prune parent old).Covered roots := by
  rintro node ⟨notOld, live⟩
  have shallow (child : ι) (listed : hierarchy.Child old child) :
      hierarchy.children child = [] := by
    rw [Child, leaf] at listed
    cases listed
  rcases (covered node live).around shallow with same | listed | around
  · exact absurd same notOld
  · rw [Child, leaf] at listed
    cases listed
  · obtain ⟨root, isRoot, rootKept, path⟩ := around
    refine ⟨root, isRoot, ?_⟩
    refine Relation.ReflTransGen.mono ?_ _ _ path
    rintro middle child ⟨listed, childKept⟩
    refine child_prune.mpr ⟨?_, listed, fun _ => childKept⟩
    rintro rfl
    rw [Child, leaf] at listed
    cases listed

end Covered

/-! ## Names of siblings -/

/-- The children of a node have names of their own. -/
def NamesDistinct {ν : Type} (hierarchy : Hierarchy ι) (name : ι → ν) :
    Prop :=
  ∀ parent, (hierarchy.children parent).Pairwise fun first second =>
    name first ≠ name second

theorem NamesDistinct.congr {ν : Type} {name other : ι → ν}
    (distinct : hierarchy.NamesDistinct name)
    (agree : ∀ parent child, hierarchy.Child parent child →
      other child = name child) : hierarchy.NamesDistinct other := by
  intro parent
  refine (distinct parent).imp_of_mem ?_
  intro first second firstListed secondListed different
  rw [agree parent first firstListed, agree parent second secondListed]
  exact different

theorem NamesDistinct.adopt [DecidableEq ι] {ν : Type} {name : ι → ν}
    {parent new : ι} (distinct : hierarchy.NamesDistinct name)
    (absent : ∀ child, hierarchy.Child parent child →
      name child ≠ name new) :
    (hierarchy.adopt parent new).NamesDistinct name := by
  intro node
  unfold Hierarchy.adopt
  by_cases same : node = parent
  · subst same
    simp only [Function.update_self]
    refine List.pairwise_append.mpr
      ⟨distinct node, List.pairwise_singleton _ _, ?_⟩
    intro child listed other alone
    rw [List.mem_singleton.mp alone]
    exact absent child listed
  · simp only [Function.update_of_ne same]
    exact distinct node

theorem NamesDistinct.prune [DecidableEq ι] {ν : Type} {name : ι → ν}
    (distinct : hierarchy.NamesDistinct name) (parent old : ι) :
    (hierarchy.prune parent old).NamesDistinct name := by
  intro node
  unfold Hierarchy.prune
  dsimp only
  split
  · exact .nil
  · split
    · exact (distinct parent).filter _
    · exact distinct node

end Hierarchy

end Logic
end Spaceless
