import Mathlib.Data.List.Lex
import Mathlib.Tactic.Common
import SpaMigration.Syntax.Tree

/-!
# Addresses in a syntax tree

The address of a node tells which item to go to, then which part of it, and so on. Addresses are compared
place by place, one that ends being before those that go on. A traversal meets the nodes in the order of their
addresses: `placedFrom` lists each node with its address. So what a traversal finds first is what stands at the
least address, and everything it finds comes in the order of the addresses.
-/
namespace SpaMigration.Syntax.Node

/-- The node at an address as seen from a node, which itself has the empty address. -/
def below? : List Nat → Node → Option Node
  | [], node => some node
  | i :: address, node => node.parts[i]?.bind (below? address)

/-- The node at an address in several trees. -/
def at? (nodes : List Node) : List Nat → Option Node
  | [] => none
  | i :: address => nodes[i]?.bind (below? address)

mutual

/-- The node and everything below it in the order of a traversal, each with its address. -/
def placed : Node → List (List Nat × Node)
  | .mk kind span parts => ([], .mk kind span parts) :: placedFrom 0 parts

/-- The nodes of several trees with their addresses, where the first tree has the given number. -/
def placedFrom (first : Nat) : List Node → List (List Nat × Node)
  | [] => []
  | node :: rest =>
    node.placed.map (fun entry => (first :: entry.1, entry.2)) ++ placedFrom (first + 1) rest

end

mutual

lemma map_snd_placed : ∀ node : Node, node.placed.map Prod.snd = node.nodes
  | .mk kind span parts => by rw [placed, nodes, List.map_cons, map_snd_placedFrom]

/-- Without the addresses these are the nodes of a traversal. -/
lemma map_snd_placedFrom (first : Nat) : ∀ nodes : List Node,
    (placedFrom first nodes).map Prod.snd = nodesOf nodes
  | [] => rfl
  | node :: rest => by
    rw [placedFrom, nodesOf, List.map_append, List.map_map, map_snd_placedFrom, ← map_snd_placed node]
    rfl

end

mutual

lemma mem_placed_iff {address : List Nat} {found : Node} : ∀ node : Node,
    (address, found) ∈ node.placed ↔ below? address node = some found
  | .mk kind span parts => by
    have hparts : (address, found) ∈ placedFrom 0 parts ↔
        ∃ i rest, address = (0 + i) :: rest ∧ parts[i]?.bind (below? rest) = some found :=
      mem_placedFrom_iff parts
    cases address with
    | nil =>
      simp only [placed, List.mem_cons, hparts, below?, Prod.mk.injEq, true_and, Option.some.injEq]
      simp [eq_comm]
    | cons i address =>
      rw [placed, List.mem_cons, hparts]
      constructor
      · rintro (hroot | ⟨_, _, haddress, hfound⟩)
        · cases hroot
        · obtain ⟨rfl, rfl⟩ : i = _ ∧ address = _ := by simpa using haddress
          exact hfound
      · exact fun hfound => .inr ⟨i, address, by rw [Nat.zero_add], hfound⟩

/-- A node is listed with an address exactly when it stands there. -/
lemma mem_placedFrom_iff {address : List Nat} {found : Node} {first : Nat} : ∀ nodes : List Node,
    (address, found) ∈ placedFrom first nodes ↔
      ∃ i rest, address = (first + i) :: rest ∧ nodes[i]?.bind (below? rest) = some found
  | [] => by simp [placedFrom]
  | node :: more => by
    have hnode : ∀ rest, (rest, found) ∈ node.placed ↔ below? rest node = some found :=
      fun rest => mem_placed_iff node
    have hmore : (address, found) ∈ placedFrom (first + 1) more ↔
        ∃ i rest, address = (first + 1 + i) :: rest ∧ more[i]?.bind (below? rest) = some found :=
      mem_placedFrom_iff more
    simp only [placedFrom, List.mem_append, List.mem_map, hmore, Prod.mk.injEq, Prod.exists]
    constructor
    · rintro (⟨rest, _, hrest, rfl, rfl⟩ | ⟨i, rest, rfl, hi⟩)
      · exact ⟨0, rest, rfl, (hnode rest).mp hrest⟩
      · exact ⟨i + 1, rest, by rw [Nat.add_right_comm, Nat.add_assoc], by simpa using hi⟩
    · rintro ⟨i, rest, rfl, hi⟩
      cases i with
      | zero => exact .inl ⟨rest, found, (hnode rest).mpr hi, rfl, rfl⟩
      | succ i => exact .inr ⟨i, rest, by rw [Nat.add_right_comm, Nat.add_assoc], by simpa using hi⟩

end

mutual

lemma pairwise_placed : ∀ node : Node, node.placed.Pairwise fun x y => x.1 < y.1
  | .mk kind span parts => by
    rw [placed, List.pairwise_cons]
    refine ⟨?_, pairwise_placedFrom 0 parts⟩
    rintro ⟨address, found⟩ hmem
    obtain ⟨i, rest, rfl, -⟩ := (mem_placedFrom_iff parts).mp hmem
    exact List.nil_lt_cons _ _

/-- The addresses ascend. -/
lemma pairwise_placedFrom (first : Nat) : ∀ nodes : List Node,
    (placedFrom first nodes).Pairwise fun x y => x.1 < y.1
  | [] => .nil
  | node :: more => by
    rw [placedFrom, List.pairwise_append]
    refine ⟨?_, pairwise_placedFrom (first + 1) more, ?_⟩
    · rw [List.pairwise_map]
      exact (pairwise_placed node).imp fun h => List.cons_lt_cons_iff.mpr (.inr ⟨rfl, h⟩)
    · rintro x hx ⟨address, found⟩ hmem
      obtain ⟨entry, -, rfl⟩ := List.mem_map.mp hx
      obtain ⟨i, rest, rfl, -⟩ := (mem_placedFrom_iff more).mp hmem
      exact List.cons_lt_cons_iff.mpr (.inl (by omega))

end

/-- The nodes of several trees with their addresses are exactly those that stand there. -/
lemma mem_placedFrom_zero_iff {nodes : List Node} {address : List Nat} {found : Node} :
    (address, found) ∈ placedFrom 0 nodes ↔ at? nodes address = some found := by
  rw [mem_placedFrom_iff]
  constructor
  · rintro ⟨i, rest, rfl, hi⟩
    rwa [Nat.zero_add]
  · intro h
    cases address with
    | nil => cases h
    | cons i rest => exact ⟨i, rest, by rw [Nat.zero_add], h⟩

variable {α : Type} {f : Node → Option α} {nodes : List Node}

/-- A traversal finds nothing exactly when there is nothing at any address. -/
theorem findSome?_nodesOf_eq_none_iff :
    (nodesOf nodes).findSome? f = none ↔ ∀ address node, at? nodes address = some node → f node = none := by
  rw [← map_snd_placedFrom 0, List.findSome?_eq_none_iff]
  constructor
  · intro h address node hnode
    exact h node (List.mem_map.mpr ⟨_, mem_placedFrom_zero_iff.mpr hnode, rfl⟩)
  · intro h node hmem
    obtain ⟨⟨address, _⟩, hentry, rfl⟩ := List.mem_map.mp hmem
    exact h address _ (mem_placedFrom_zero_iff.mp hentry)

/-- What a traversal finds first stands at an address before which there is nothing to be found. -/
theorem findSome?_nodesOf_eq_some {a : α} (h : (nodesOf nodes).findSome? f = some a) :
    ∃ address node, at? nodes address = some node ∧ f node = some a ∧
      ∀ earlier < address, ∀ other, at? nodes earlier = some other → f other = none := by
  rw [← map_snd_placedFrom 0, List.findSome?_map] at h
  obtain ⟨before, ⟨address, node⟩, after, hplaced, hnode, hbefore⟩ := List.findSome?_eq_some_iff.mp h
  have hsorted := pairwise_placedFrom 0 nodes
  rw [hplaced, List.pairwise_append, List.pairwise_cons] at hsorted
  obtain ⟨-, ⟨hafter, -⟩, -⟩ := hsorted
  refine ⟨address, node, mem_placedFrom_zero_iff.mp (by simp [hplaced]), hnode, ?_⟩
  intro earlier hearlier other hother
  have hmem := mem_placedFrom_zero_iff.mpr hother
  rw [hplaced, List.mem_append, List.mem_cons] at hmem
  rcases hmem with hmem | heq | hmem
  · exact hbefore _ hmem
  · obtain rfl : earlier = address := congrArg Prod.fst heq
    exact absurd hearlier (lt_irrefl _)
  · exact absurd (hafter _ hmem) (lt_asymm hearlier)

/-- The values are all that is found at the nodes of several trees, in the order of the addresses. -/
def ListsInOrder (f : Node → Option α) (nodes : List Node) (values : List α) : Prop :=
  ∃ found : List (List Nat × α), found.map Prod.snd = values ∧ (found.Pairwise fun x y => x.1 < y.1) ∧
    ∀ address a, (address, a) ∈ found ↔ ∃ node, at? nodes address = some node ∧ f node = some a

/-- A traversal finds everything in the order of the addresses. -/
theorem listsInOrder_filterMap (f : Node → Option α) (nodes : List Node) :
    ListsInOrder f nodes ((nodesOf nodes).filterMap f) := by
  refine ⟨(placedFrom 0 nodes).filterMap fun entry => (f entry.2).map (entry.1, ·), ?_, ?_, ?_⟩
  · rw [← map_snd_placedFrom 0, List.map_filterMap, List.filterMap_map]
    simp only [Option.map_map, Function.comp_def, Option.map_id']
  · refine (pairwise_placedFrom 0 nodes).filterMap _ fun x y hlt a ha b hb => ?_
    obtain ⟨_, -, rfl⟩ := Option.map_eq_some_iff.mp ha
    obtain ⟨_, -, rfl⟩ := Option.map_eq_some_iff.mp hb
    exact hlt
  · intro address a
    simp only [List.mem_filterMap, Option.map_eq_some_iff, Prod.exists, Prod.mk.injEq]
    constructor
    · rintro ⟨_, node, hmem, _, hnode, rfl, rfl⟩
      exact ⟨node, mem_placedFrom_zero_iff.mp hmem, hnode⟩
    · rintro ⟨node, hmem, hnode⟩
      exact ⟨address, node, mem_placedFrom_zero_iff.mpr hmem, a, hnode, rfl, rfl⟩

end SpaMigration.Syntax.Node
