import SpaMigration.Component.LazyCall
import SpaMigration.Proofs.TextCuts

/-!
# The nodes of a parsed source

A traversal meets the parts of every node that it meets, so what is known of all nodes is known of their
parts. Every node of a source that starts without a byte-order mark covers whole characters of its text.
-/
namespace SpaMigration

open Syntax

namespace Syntax.Node

mutual

theorem mem_nodes_of_mem_parts {node part : Node} (hpart : part ∈ node.parts) :
    ∀ root : Node, node ∈ root.nodes → part ∈ root.nodes
  | .mk kind span parts, h => by
    simp only [nodes, List.mem_cons] at h ⊢
    rcases h with rfl | h
    · exact .inr (subset_nodesOf parts hpart)
    · exact .inr (mem_nodesOf_of_mem_parts hpart parts h)

/-- The parts of a node that a traversal meets are met as well. -/
theorem mem_nodesOf_of_mem_parts {node part : Node} (hpart : part ∈ node.parts) :
    ∀ roots : List Node, node ∈ nodesOf roots → part ∈ nodesOf roots
  | [], h => by simp [nodesOf] at h
  | root :: rest, h => by
    simp only [nodesOf, List.mem_append] at h ⊢
    rcases h with h | h
    · exact .inl (mem_nodes_of_mem_parts hpart root h)
    · exact .inr (mem_nodesOf_of_mem_parts hpart rest h)

theorem subset_nodesOf {node : Node} : ∀ roots : List Node, node ∈ roots → node ∈ nodesOf roots
  | [], h => by simp at h
  | .mk kind span parts :: rest, h => by
    simp only [nodesOf, nodes, List.mem_append, List.mem_cons] at h ⊢
    rcases h with rfl | h
    · exact .inl (.inl rfl)
    · exact .inr (subset_nodesOf rest h)

end

end Syntax.Node

mutual

theorem mem_nodes_of_mem_topmost {wanted : Node → Bool} {node : Node} :
    ∀ root : Node, node ∈ topmost wanted root → node ∈ root.nodes ∧ wanted node
  | .mk kind span parts, h => by
    simp only [topmost] at h
    split_ifs at h with hw
    · simp only [List.mem_singleton] at h
      subst h
      exact ⟨by simp [Node.nodes], hw⟩
    · have hbelow := mem_nodesOf_of_mem_topmostOf parts h
      exact ⟨by simp [Node.nodes, hbelow.1], hbelow.2⟩

/-- The topmost nodes of a kind are nodes of that kind. -/
theorem mem_nodesOf_of_mem_topmostOf {wanted : Node → Bool} {node : Node} :
    ∀ roots : List Node, node ∈ topmostOf wanted roots → node ∈ Node.nodesOf roots ∧ wanted node
  | [], h => by simp [topmostOf] at h
  | root :: rest, h => by
    simp only [topmostOf, Node.nodesOf, List.mem_append] at h ⊢
    rcases h with h | h
    · have hroot := mem_nodes_of_mem_topmost root h
      exact ⟨.inl hroot.1, hroot.2⟩
    · have hrest := mem_nodesOf_of_mem_topmostOf rest h
      exact ⟨.inr hrest.1, hrest.2⟩

end

mutual

lemma topmost_sublist (wanted : Node → Bool) :
    ∀ root : Node, (topmost wanted root).Sublist (root.nodes.filter wanted)
  | .mk kind span parts => by
    simp only [topmost, Node.nodes]
    split_ifs with hw
    · rw [List.filter_cons_of_pos hw]
      exact (List.nil_sublist _).cons_cons _
    · rw [List.filter_cons_of_neg hw]
      exact topmostOf_sublist wanted parts

/-- The topmost nodes of a kind are among all nodes of that kind, in the same order. -/
lemma topmostOf_sublist (wanted : Node → Bool) :
    ∀ roots : List Node, (topmostOf wanted roots).Sublist ((Node.nodesOf roots).filter wanted)
  | [] => by simp [topmostOf, Node.nodesOf]
  | root :: rest => by
    rw [topmostOf, Node.nodesOf, List.filter_append]
    exact (topmost_sublist wanted root).append (topmostOf_sublist wanted rest)

end

mutual

lemma mem_topmost_or_below {wanted : Node → Bool} {node : Node} (hw : wanted node) :
    ∀ root : Node, node ∈ root.nodes →
      node ∈ topmost wanted root ∨ ∃ above ∈ topmost wanted root, node ∈ Node.nodesOf above.parts
  | .mk kind span parts, h => by
    simp only [Node.nodes, List.mem_cons] at h
    simp only [topmost]
    split_ifs with hroot
    · rcases h with rfl | h
      · exact .inl List.mem_cons_self
      · exact .inr ⟨_, List.mem_cons_self, h⟩
    · rcases h with rfl | h
      · exact absurd hw hroot
      · exact mem_topmostOf_or_below hw parts h

/-- Every node of a kind is a topmost one or stands below one. -/
theorem mem_topmostOf_or_below {wanted : Node → Bool} {node : Node} (hw : wanted node) :
    ∀ roots : List Node, node ∈ Node.nodesOf roots →
      node ∈ topmostOf wanted roots ∨ ∃ above ∈ topmostOf wanted roots, node ∈ Node.nodesOf above.parts
  | [], h => by simp [Node.nodesOf] at h
  | root :: rest, h => by
    simp only [topmostOf, Node.nodesOf, List.mem_append] at h ⊢
    rcases h with h | h
    · rcases mem_topmost_or_below hw root h with h | ⟨above, habove, h⟩
      · exact .inl (.inl h)
      · exact .inr ⟨above, .inl habove, h⟩
    · rcases mem_topmostOf_or_below hw rest h with h | ⟨above, habove, h⟩
      · exact .inl (.inr h)
      · exact .inr ⟨above, .inr habove, h⟩

end

/-- No node of a kind stands below another one of that kind. -/
def NoneBelow (wanted : Node → Bool) (nodes : List Node) : Prop :=
  ∀ node ∈ nodes, wanted node → ∀ inner ∈ Node.nodesOf node.parts, ¬ wanted inner

mutual

lemma topmost_eq_filter_iff (wanted : Node → Bool) :
    ∀ root : Node, topmost wanted root = root.nodes.filter wanted ↔ NoneBelow wanted root.nodes
  | .mk kind span parts => by
    have hparts := topmostOf_eq_filter_iff wanted parts
    simp only [topmost, Node.nodes, NoneBelow, List.forall_mem_cons]
    split_ifs with hw
    · rw [List.filter_cons_of_pos hw, List.cons.injEq, eq_comm (a := []), List.filter_eq_nil_iff]
      constructor
      · rintro ⟨_, hnone⟩
        exact ⟨fun _ => hnone, fun node hnode hwanted => absurd hwanted (hnone node hnode)⟩
      · rintro ⟨hroot, _⟩
        exact ⟨rfl, hroot hw⟩
    · rw [List.filter_cons_of_neg hw, hparts]
      exact (and_iff_right fun h => absurd h hw).symm

/-- The topmost nodes of a kind are all nodes of that kind exactly when none stands below another. -/
theorem topmostOf_eq_filter_iff (wanted : Node → Bool) :
    ∀ roots : List Node, topmostOf wanted roots = (Node.nodesOf roots).filter wanted ↔
      NoneBelow wanted (Node.nodesOf roots)
  | [] => by simp [topmostOf, Node.nodesOf, NoneBelow]
  | root :: rest => by
    have hroot := topmost_eq_filter_iff wanted root
    have hrest := topmostOf_eq_filter_iff wanted rest
    have hle := (topmost_sublist wanted root).length_le
    have hle' := (topmostOf_sublist wanted rest).length_le
    simp only [topmostOf, Node.nodesOf, List.filter_append, NoneBelow, List.forall_mem_append]
    rw [← NoneBelow, ← NoneBelow, ← hroot, ← hrest]
    constructor
    · intro h
      have hlen := congrArg List.length h
      simp only [List.length_append] at hlen
      exact List.append_inj h (by omega)
    · rintro ⟨h, h'⟩
      rw [h, h']

end

namespace Source

lemma dropMark_of_head? {text : List Char} (h : text.head? ≠ some '\uFEFF') : dropMark text = text := by
  unfold dropMark
  split
  · simp at h
  · rfl

lemma text_of_parse? {text : List Char} {source : Source} (h : parse? text = some source) :
    source.text = text := by
  obtain ⟨items, _, rfl⟩ := Option.map_eq_some_iff.mp h
  rfl

/-- Parsing checks that all nodes cover whole characters of what stands behind a byte-order mark. -/
theorem fits_of_mem_nodes {text : List Char} {source : Source} (h : parse? text = some source)
    (hmark : text.head? ≠ some '\uFEFF') {node : Node} (hnode : node ∈ source.nodes) :
    node.span.fits source.text := by
  obtain ⟨items, hitems, rfl⟩ := Option.map_eq_some_iff.mp h
  simp only [Syntax.parse?, dropMark_of_head? hmark, Option.bind_eq_bind,
    Option.bind_eq_some_iff] at hitems
  obtain ⟨parsed, _, hsound⟩ := hitems
  split_ifs at hsound with hs
  cases hsound
  have hall := List.all_eq_true.mp hs node hnode
  exact (Bool.and_eq_true_iff.mp hall).1

lemma mem_nodes_of_mem_parts {source : Source} {node part : Node} (hnode : node ∈ source.nodes)
    (hpart : part ∈ node.parts) : part ∈ source.nodes :=
  Node.mem_nodesOf_of_mem_parts hpart source.items hnode

end Source

end SpaMigration
