import Mathlib.Data.List.Nodup
import Mathlib.Data.List.Perm.Subperm
import Thumbnails.Store.Chain

/-!
# Chains spell lists

A chain spells a list when following the successors from `none` runs through the list and comes back
to `none`, and following the predecessors runs through it in reverse. Since `none` stands at both
ends, linking and unlinking change one successor and one predecessor each, whether they happen at
an end, in the middle or in a chain with a single node.
-/

namespace Thumbnails

/-- A function leads from nothing to the first node of a list, from each node to the one after it,
and from the last node to nothing. -/
def RunsThrough (successor : Option Nat → Option Nat) (nodes : List Nat) : Prop :=
  ∀ front back, front ++ back = nodes → successor front.getLast? = back.head?

namespace RunsThrough

variable {successor changed : Option Nat → Option Nat} {front back : List Nat} {node : Nat}

/-- In a list without repetition, no proper beginning ends like the whole. -/
theorem getLast?_ne_append {rest : List Nat} (nodup : (front ++ rest).Nodup)
    (nonempty : rest ≠ []) :
    front.getLast? ≠ (front ++ rest).getLast? := by
  intro same
  rw [List.getLast?_append_of_ne_nil _ nonempty, List.getLast?_eq_some_getLast nonempty] at same
  have inFront : rest.getLast nonempty ∈ front := List.mem_of_getLast? same
  exact List.disjoint_of_nodup_append nodup inFront (List.getLast_mem nonempty)

theorem getLast?_ne_some (absent : node ∉ front) : front.getLast? ≠ some node := by
  intro same
  exact absent (List.mem_of_getLast? same)

theorem getLast?_middle {rest : List Nat} (nonempty : rest ≠ []) :
    (front ++ node :: rest).getLast? = (front ++ rest).getLast? := by
  rw [List.getLast?_append_of_ne_nil _ (by simp), List.getLast?_append_of_ne_nil _ nonempty,
    List.getLast?_cons_of_ne_nil nonempty]

/-- Redirecting the end of a first part to a new node, and the new node to the rest, puts it
between them. -/
theorem insert (runs : RunsThrough successor (front ++ back)) (nodup : (front ++ back).Nodup)
    (fresh : node ∉ front ++ back)
    (redirected : ∀ place, changed place =
      if place = front.getLast? then some node
      else if place = some node then back.head? else successor place) :
    RunsThrough changed (front ++ node :: back) := by
  have freshFront : node ∉ front := fun node_mem => fresh (List.mem_append_left _ node_mem)
  have freshBack : node ∉ back := fun node_mem => fresh (List.mem_append_right _ node_mem)
  intro before after split
  rcases List.append_eq_append_iff.mp split with ⟨middle, rfl, rfl⟩ | ⟨middle, rfl, backEq⟩
  · -- The cut lies in the first part, or at its end.
    rcases List.eq_nil_or_concat middle with rfl | ⟨_, _, middleEq⟩
    · simp [redirected]
    · have nonempty : middle ≠ [] := by simp [middleEq]
      have notEnd := getLast?_ne_append (List.Nodup.of_append_left nodup) nonempty
      have notNode : before.getLast? ≠ some node :=
        getLast?_ne_some fun node_mem => freshFront (List.mem_append_left _ node_mem)
      rw [redirected, if_neg notEnd, if_neg notNode, runs before (middle ++ back) (by simp),
        List.head?_append_of_ne_nil _ nonempty, List.head?_append_of_ne_nil _ nonempty]
  · rcases middle with _ | ⟨first, rest⟩
    · simp only [List.nil_append] at backEq
      subst backEq
      simp [redirected]
    · simp only [List.cons_append, List.cons.injEq] at backEq
      rcases backEq with ⟨rfl, rfl⟩
      rcases List.eq_nil_or_concat rest with rfl | ⟨_, _, restEq⟩
      · -- The cut lies right after the new node.
        have notEnd : some node ≠ front.getLast? := (getLast?_ne_some freshFront).symm
        rw [List.getLast?_append_of_ne_nil _ (by simp), List.getLast?_singleton, redirected,
          if_neg notEnd, if_pos rfl, List.nil_append]
      · have nonempty : rest ≠ [] := by simp [restEq]
        have notEnd : (front ++ rest).getLast? ≠ front.getLast? :=
          (getLast?_ne_append (by rw [← List.append_assoc] at nodup; exact nodup.of_append_left)
            nonempty).symm
        have notNode : (front ++ rest).getLast? ≠ some node := by
          apply getLast?_ne_some
          simp only [List.mem_append, not_or] at freshBack ⊢
          exact ⟨freshFront, freshBack.1⟩
        rw [getLast?_middle nonempty, redirected, if_neg notEnd, if_neg notNode,
          runs (front ++ rest) after (by simp)]

/-- Redirecting the place before a node to what comes after it takes the node out. -/
theorem remove (runs : RunsThrough successor (front ++ node :: back))
    (nodup : (front ++ node :: back).Nodup)
    (redirected : ∀ place, place ≠ some node → changed place =
      if place = front.getLast? then back.head? else successor place) :
    RunsThrough changed (front ++ back) := by
  rw [List.nodup_middle, List.nodup_cons] at nodup
  rcases nodup with ⟨fresh, nodup⟩
  simp only [List.mem_append, not_or] at fresh
  rcases fresh with ⟨freshFront, freshBack⟩
  intro before after split
  rcases List.append_eq_append_iff.mp split with ⟨middle, rfl, rfl⟩ | ⟨middle, rfl, rfl⟩
  · have notNode : before.getLast? ≠ some node :=
      getLast?_ne_some fun node_mem => freshFront (List.mem_append_left _ node_mem)
    rcases List.eq_nil_or_concat middle with rfl | ⟨_, _, middleEq⟩
    · simp only [List.append_nil] at redirected notNode ⊢
      rw [redirected _ notNode, if_pos rfl, List.nil_append]
    · have nonempty : middle ≠ [] := by simp [middleEq]
      have notEnd := getLast?_ne_append (List.Nodup.of_append_left nodup) nonempty
      rw [redirected _ notNode, if_neg notEnd, runs before (middle ++ node :: back) (by simp),
        List.head?_append_of_ne_nil _ nonempty, List.head?_append_of_ne_nil _ nonempty]
  · rcases List.eq_nil_or_concat middle with rfl | ⟨_, _, middleEq⟩
    · simp only [List.append_nil, List.nil_append] at redirected ⊢
      rw [redirected _ (getLast?_ne_some freshFront), if_pos rfl]
    · have nonempty : middle ≠ [] := by simp [middleEq]
      have notEnd : (front ++ middle).getLast? ≠ front.getLast? :=
        (getLast?_ne_append (by rw [← List.append_assoc] at nodup; exact nodup.of_append_left)
          nonempty).symm
      have notNode : (front ++ middle).getLast? ≠ some node := by
        apply getLast?_ne_some
        simp only [List.mem_append, not_or] at freshBack ⊢
        exact ⟨freshFront, freshBack.1⟩
      rw [redirected _ notNode, if_neg notEnd, ← getLast?_middle nonempty,
        runs (front ++ node :: middle) after (by simp)]

end RunsThrough

namespace Chain

variable {chain : Chain} {front back nodes : List Nat} {node : Nat}

/-- A chain spells a list: both directions run through it, and every node has its links. -/
structure Spells (chain : Chain) (nodes : List Nat) : Prop where
  nodup : nodes.Nodup
  next : RunsThrough chain.next nodes
  previous : RunsThrough chain.previous nodes.reverse
  inside : ∀ node ∈ nodes, node < chain.links.size

theorem spells_empty : empty.Spells [] := by
  refine ⟨List.nodup_nil, ?_, ?_, by simp⟩
  · intro front back split
    simp_all [Chain.next, Chain.empty]
  · intro front back split
    simp_all [Chain.previous, Chain.empty]

theorem Spells.next_getLast? (spells : chain.Spells (front ++ back)) :
    chain.next front.getLast? = back.head? :=
  spells.next front back rfl

theorem Spells.previous_head? (spells : chain.Spells (front ++ back)) :
    chain.previous back.head? = front.getLast? := by
  have backwards := spells.previous back.reverse front.reverse (by simp)
  rwa [List.getLast?_reverse, List.head?_reverse] at backwards

theorem Spells.next_some (spells : chain.Spells (front ++ node :: back)) :
    chain.next (some node) = back.head? := by
  have cut : chain.Spells ((front ++ [node]) ++ back) := by simpa using spells
  simpa using cut.next_getLast?

theorem Spells.previous_some (spells : chain.Spells (front ++ node :: back)) :
    chain.previous (some node) = front.getLast? := by
  simpa using spells.previous_head?

theorem Spells.head_eq (spells : chain.Spells nodes) : chain.head = nodes.head? :=
  spells.next [] nodes rfl

theorem Spells.tail_eq (spells : chain.Spells nodes) : chain.tail = nodes.getLast? := by
  have last := spells.previous [] nodes.reverse rfl
  rwa [List.head?_reverse] at last

theorem Spells.walk_eq (spells : chain.Spells (front ++ back)) {fuel : Nat}
    (enough : back.length ≤ fuel) : chain.walk fuel back.head? = back := by
  induction back generalizing front fuel with
  | nil => cases fuel <;> rfl
  | cons node back ih =>
      rcases fuel with _ | fuel
      · simp at enough
      · have cut : chain.Spells ((front ++ [node]) ++ back) := by simpa using spells
        have later : chain.walk fuel back.head? = back :=
          ih cut (by simpa using enough)
        rw [List.head?_cons, walk, spells.next_some, later]

theorem Spells.length_le (spells : chain.Spells nodes) : nodes.length ≤ chain.links.size := by
  have contained : nodes ⊆ List.range chain.links.size := by
    intro node node_mem
    exact List.mem_range.mpr (spells.inside node node_mem)
  simpa using (List.subperm_of_subset spells.nodup contained).length_le

/-- However many steps are allowed, as long as they are enough, the walk ends after the list. -/
theorem Spells.walk_head (spells : chain.Spells nodes) {fuel : Nat}
    (enough : chain.links.size ≤ fuel) : chain.walk fuel chain.head = nodes := by
  have whole : chain.Spells ([] ++ nodes) := spells
  rw [spells.head_eq]
  exact whole.walk_eq (Nat.le_trans spells.length_le enough)

theorem Spells.toList_eq (spells : chain.Spells nodes) : chain.toList = nodes :=
  spells.walk_head (Nat.le_refl _)

/-- Between the nodes of a list, and at its ends, predecessors undo successors and the other way
round. -/
def Mirrored (chain : Chain) (nodes : List Nat) : Prop :=
  ∀ place : Option Nat, (∀ node, place = some node → node ∈ nodes) →
    chain.previous (chain.next place) = place ∧ chain.next (chain.previous place) = place

theorem Spells.mirrored (spells : chain.Spells nodes) : chain.Mirrored nodes := by
  intro place inList
  rcases place with _ | node
  · have fromStart : chain.Spells ([] ++ nodes) := spells
    have toEnd : chain.Spells (nodes ++ []) := by simpa using spells
    constructor
    · rw [show chain.next none = nodes.head? from spells.head_eq]
      exact fromStart.previous_head?
    · rw [show chain.previous none = nodes.getLast? from spells.tail_eq]
      exact toEnd.next_getLast?
  · rcases List.append_of_mem (inList node rfl) with ⟨front, back, rfl⟩
    constructor
    · have cut : chain.Spells ((front ++ [node]) ++ back) := by simpa using spells
      rw [spells.next_some, cut.previous_head?, List.getLast?_append, List.getLast?_singleton,
        Option.some_or]
    · rw [spells.previous_some, spells.next_getLast?, List.head?_cons]

theorem next_setLinks (chain : Chain) (node : Nat) (links : Links) (place : Option Nat) :
    Chain.next { chain with links := chain.links.set node links } place =
      if place = some node then links.next else chain.next place := by
  rcases place with _ | other
  · simp [Chain.next]
  · by_cases same : other = node <;> simp [Chain.next, same]

theorem previous_setLinks (chain : Chain) (node : Nat) (links : Links) (place : Option Nat) :
    Chain.previous { chain with links := chain.links.set node links } place =
      if place = some node then links.previous else chain.previous place := by
  rcases place with _ | other
  · simp [Chain.previous]
  · by_cases same : other = node <;> simp [Chain.previous, same]

theorem size_links_setNext (chain : Chain) (place value : Option Nat) :
    chain.links.size ≤ (chain.setNext place value).links.size := by
  rcases place with _ | node
  · exact Nat.le_refl _
  · simp only [setNext, Table.size_set]
    exact Nat.le_max_left _ _

theorem size_links_setPrevious (chain : Chain) (place value : Option Nat) :
    chain.links.size ≤ (chain.setPrevious place value).links.size := by
  rcases place with _ | node
  · exact Nat.le_refl _
  · simp only [setPrevious, Table.size_set]
    exact Nat.le_max_left _ _

theorem next_linkBefore (chain : Chain) (node : Nat) (before place : Option Nat) :
    (chain.linkBefore node before).next place =
      if place = chain.previous before then some node
      else if place = some node then before else chain.next place := by
  simp only [linkBefore, next_setPrevious, next_setNext, next_setLinks]

theorem previous_linkBefore (chain : Chain) (node : Nat) (before place : Option Nat) :
    (chain.linkBefore node before).previous place =
      if place = before then some node
      else if place = some node then chain.previous before else chain.previous place := by
  simp only [linkBefore, previous_setPrevious, previous_setNext, previous_setLinks]

theorem size_links_linkBefore (chain : Chain) (node : Nat) (before : Option Nat) :
    max chain.links.size (node + 1) ≤ (chain.linkBefore node before).links.size := by
  rw [← Table.size_set chain.links node ⟨chain.previous before, before⟩]
  let placed := { chain with links := chain.links.set node ⟨chain.previous before, before⟩ }
  exact Nat.le_trans (size_links_setNext placed (chain.previous before) (some node))
    (size_links_setPrevious _ before (some node))

theorem next_unlink (chain : Chain) (node : Nat) (place : Option Nat) :
    (chain.unlink node).next place =
      if place = some node then none
      else if place = chain.previous (some node) then chain.next (some node)
      else chain.next place := by
  simp only [unlink, next_setLinks, next_setPrevious, next_setNext]
  rfl

theorem previous_unlink (chain : Chain) (node : Nat) (place : Option Nat) :
    (chain.unlink node).previous place =
      if place = some node then none
      else if place = chain.next (some node) then chain.previous (some node)
      else chain.previous place := by
  simp only [unlink, previous_setLinks, previous_setPrevious, previous_setNext]
  rfl

theorem size_links_unlink (chain : Chain) (node : Nat) :
    chain.links.size ≤ (chain.unlink node).links.size := by
  simp only [unlink, Table.size_set]
  refine Nat.le_trans ?_ (Nat.le_max_left _ _)
  exact Nat.le_trans (size_links_setNext _ _ _) (size_links_setPrevious _ _ _)

/-- A node that is linked before the rest of the list stands before it. -/
theorem Spells.linkBefore (spells : chain.Spells (front ++ back)) (fresh : node ∉ front ++ back) :
    (chain.linkBefore node back.head?).Spells (front ++ node :: back) := by
  have size := size_links_linkBefore chain node back.head?
  refine ⟨?_, ?_, ?_, ?_⟩
  · exact List.nodup_middle.mpr (List.nodup_cons.mpr ⟨fresh, spells.nodup⟩)
  · apply spells.next.insert spells.nodup fresh
    intro place
    rw [next_linkBefore, spells.previous_head?]
  · have backwards : RunsThrough chain.previous (back.reverse ++ front.reverse) := by
      simpa using spells.previous
    have backwardsNodup : (back.reverse ++ front.reverse).Nodup := by
      simpa using List.nodup_reverse.mpr spells.nodup
    have linked : RunsThrough (chain.linkBefore node back.head?).previous
        (back.reverse ++ node :: front.reverse) := by
      apply backwards.insert backwardsNodup (by simpa [or_comm] using fresh)
      intro place
      rw [previous_linkBefore, List.getLast?_reverse, List.head?_reverse, spells.previous_head?]
    simpa using linked
  · intro other other_mem
    rw [List.mem_append, List.mem_cons, or_left_comm, ← List.mem_append] at other_mem
    rcases other_mem with rfl | old
    · omega
    · have := spells.inside other old
      omega

/-- A node that is unlinked is gone, and the others stay as they are. -/
theorem Spells.unlink (spells : chain.Spells (front ++ node :: back)) :
    (chain.unlink node).Spells (front ++ back) := by
  have size := size_links_unlink chain node
  refine ⟨?_, ?_, ?_, ?_⟩
  · exact (List.nodup_cons.mp (List.nodup_middle.mp spells.nodup)).2
  · apply spells.next.remove spells.nodup
    intro place other
    rw [next_unlink, if_neg other, spells.previous_some, spells.next_some]
  · have backwards : RunsThrough chain.previous (back.reverse ++ node :: front.reverse) := by
      simpa using spells.previous
    have backwardsNodup : (back.reverse ++ node :: front.reverse).Nodup := by
      simpa using List.nodup_reverse.mpr spells.nodup
    have unlinked : RunsThrough (chain.unlink node).previous (back.reverse ++ front.reverse) := by
      apply backwards.remove backwardsNodup
      intro place other
      rw [previous_unlink, if_neg other, List.getLast?_reverse, List.head?_reverse,
        spells.next_some, spells.previous_some]
    simpa using unlinked
  · intro other other_mem
    have old : other ∈ front ++ node :: back := by
      rw [List.mem_append] at other_mem
      rcases other_mem with inFront | inBack
      · exact List.mem_append_left _ inFront
      · exact List.mem_append_right _ (List.mem_cons_of_mem _ inBack)
    exact Nat.lt_of_lt_of_le (spells.inside other old) size

/-- A node that is unlinked and linked again stands before the rest of the other nodes. -/
theorem Spells.relink (spells : chain.Spells (front ++ node :: back)) {before after : List Nat}
    (others : front ++ back = before ++ after) :
    ((chain.unlink node).linkBefore node after.head?).Spells (before ++ node :: after) := by
  have fresh := (List.nodup_cons.mp (List.nodup_middle.mp spells.nodup)).1
  have unlinked := spells.unlink
  rw [others] at fresh unlinked
  exact unlinked.linkBefore fresh

end Chain

end Thumbnails
