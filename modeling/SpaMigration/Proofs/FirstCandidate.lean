import SpaMigration.Component.Summary
import SpaMigration.Proofs.DiskPaths
import SpaMigration.Proofs.NodeAddresses

/-!
# The first candidate

The summary of a file comes from a walk that looks at every node and keeps what it found first. `Declares` says
which nodes declare a candidate. The walk ends with nothing exactly when no node does, and otherwise with the
candidate at the least address, wherever that is in the tree and whatever comes behind it.
-/
namespace SpaMigration

open Syntax

namespace Candidate

/-- The name starts with a capital letter. -/
def IsCapitalised (name : String) : Prop :=
  ∃ first rest, name.toList = first :: rest ∧ Text.isUppercase first = true

/-- The expression is `Component` or `React.Component`. -/
inductive NamesBaseClass : Node → Prop
  | plain {span parts} : NamesBaseClass (.mk (.identifier "Component") span parts)
  | qualified {span whole part} : whole.kind = .identifier "React" → part.kind = .nameKey "Component" →
      NamesBaseClass (.mk .member span [whole, part])

/-- The class extends the base class of components. -/
def ExtendsBase (declared : Node) : Prop :=
  ∃ heritage base, declared.parts.find? (·.kind == .heritage) = some heritage ∧
    heritage.parts.head? = some base ∧ NamesBaseClass base

/-- The node is an arrow function or a function expression. -/
inductive IsFunction : Node → Prop
  | arrow {span parts} : IsFunction (.mk .arrow span parts)
  | expression {name span parts} : IsFunction (.mk (.functionExpression name) span parts)

/-- The properties that the first parameter of a function names. -/
def propsOfFunction (source : Source) (function : Node) : List String :=
  ((firstParameter? function).map (propsOf source)).getD []

/-- The node declares a candidate: a function with a capital letter, a variable with a capital letter that is
bound to a function and nothing around it, a class that extends the base class, or a default export of such a
function or class under its name. -/
inductive Declares (source : Source) : Node → Candidate → Prop
  | namedFunction {name span parts} : IsCapitalised name →
      Declares source (.mk (.functionDeclaration name) span parts)
        ⟨name, .functional, propsOfFunction source (.mk (.functionDeclaration name) span parts)⟩
  | boundFunction {name span place types value} : IsCapitalised name → IsFunction value →
      Declares source (.mk .declarator span [.mk (.namePattern name) place types, value])
        ⟨name, .functional, propsOfFunction source value⟩
  | namedClass {name span parts} : ExtendsBase (.mk (.classDeclaration name) span parts) →
      Declares source (.mk (.classDeclaration name) span parts) ⟨name, .classBased, []⟩
  | exportedFunction {name span place parts} : IsCapitalised name →
      Declares source (.mk .exportDefault span [.mk (.functionExpression (some name)) place parts])
        ⟨name, .functional, propsOfFunction source (.mk (.functionExpression (some name)) place parts)⟩
  | exportedClass {name span place parts} : ExtendsBase (.mk (.classExpression (some name)) place parts) →
      Declares source (.mk .exportDefault span [.mk (.classExpression (some name)) place parts])
        ⟨name, .classBased, []⟩

variable {source : Source} {name : String} {node : Node} {candidate : Candidate}

lemma isComponentName_iff : isComponentName name = true ↔ IsCapitalised name := by
  rw [isComponentName, IsCapitalised]
  cases name.toList with
  | nil => simp
  | cons first rest => simp

lemma isBaseClass_iff : isBaseClass node = true ↔ NamesBaseClass node := by
  constructor
  · intro h
    obtain ⟨kind, span, parts⟩ := node
    unfold isBaseClass at h
    split at h
    · next hkind =>
      obtain rfl : kind = _ := hkind
      obtain rfl := beq_iff_eq.mp h
      exact .plain
    · next hkind hparts =>
      obtain rfl : kind = _ := hkind
      obtain rfl : parts = _ := hparts
      obtain ⟨hwhole, hpart⟩ := Bool.and_eq_true_iff.mp h
      exact .qualified (beq_iff_eq.mp hwhole) (beq_iff_eq.mp hpart)
    · cases h
  · rintro (_ | ⟨hwhole, hpart⟩)
    · rfl
    · exact Bool.and_eq_true_iff.mpr ⟨beq_iff_eq.mpr hwhole, beq_iff_eq.mpr hpart⟩

lemma ofFunction?_eq_some_iff {function : Node} : ofFunction? source name function = some candidate ↔
    IsCapitalised name ∧ candidate = ⟨name, .functional, propsOfFunction source function⟩ := by
  rw [ofFunction?, ← isComponentName_iff]
  split_ifs with hname
  · simp [hname, propsOfFunction, eq_comm]
  · simp [hname]

lemma ofClass?_eq_some_iff : ofClass? name node = some candidate ↔
    ExtendsBase node ∧ candidate = ⟨name, .classBased, []⟩ := by
  rw [ofClass?]
  cases hfind : node.parts.find? (·.kind == .heritage) with
  | none => simp [ExtendsBase, hfind]
  | some heritage =>
    have hextends : heritage.parts.head?.any isBaseClass = true ↔ ExtendsBase node := by
      rw [Option.any_eq_true]
      constructor
      · rintro ⟨base, hhead, hbase⟩
        exact ⟨heritage, base, hfind, hhead, isBaseClass_iff.mp hbase⟩
      · rintro ⟨_, base, hfound, hhead, hbase⟩
        obtain rfl := Option.some.inj (hfind.symm.trans hfound)
        exact ⟨base, hhead, isBaseClass_iff.mpr hbase⟩
    simp only [← hextends, Option.ite_none_right_eq_some, Option.some.injEq]
    exact and_congr_right fun _ => eq_comm

/-- The candidate of a node is the one that it declares. -/
lemma ofNode?_eq_some_iff : ofNode? source node = some candidate ↔ Declares source node candidate := by
  constructor
  · -- The cases are the kinds of node that are looked at; where two nodes decide, so are the kinds of the inner one.
    intro h
    obtain ⟨kind, span, parts⟩ := node
    unfold ofNode? at h
    split at h
    · next hkind =>
      obtain rfl : kind = _ := hkind
      obtain ⟨hname, rfl⟩ := ofFunction?_eq_some_iff.mp h
      exact .namedFunction hname
    · next pattern value hkind hparts =>
      obtain rfl : kind = _ := hkind
      obtain rfl : parts = _ := hparts
      obtain ⟨patternKind, place, types⟩ := pattern
      obtain ⟨valueKind, valueSpan, valueParts⟩ := value
      split at h
      · next hpattern hvalue =>
        obtain rfl : patternKind = _ := hpattern
        obtain rfl : valueKind = _ := hvalue
        obtain ⟨hname, rfl⟩ := ofFunction?_eq_some_iff.mp h
        exact .boundFunction hname .arrow
      · next hpattern hvalue =>
        obtain rfl : patternKind = _ := hpattern
        obtain rfl : valueKind = _ := hvalue
        obtain ⟨hname, rfl⟩ := ofFunction?_eq_some_iff.mp h
        exact .boundFunction hname .expression
      · cases h
    · next hkind =>
      obtain rfl : kind = _ := hkind
      obtain ⟨hbase, rfl⟩ := ofClass?_eq_some_iff.mp h
      exact .namedClass hbase
    · next value hkind hparts =>
      obtain rfl : kind = _ := hkind
      obtain rfl : parts = _ := hparts
      obtain ⟨valueKind, place, valueParts⟩ := value
      split at h
      · next hvalue =>
        obtain rfl : valueKind = _ := hvalue
        obtain ⟨hname, rfl⟩ := ofFunction?_eq_some_iff.mp h
        exact .exportedFunction hname
      · next hvalue =>
        obtain rfl : valueKind = _ := hvalue
        obtain ⟨hbase, rfl⟩ := ofClass?_eq_some_iff.mp h
        exact .exportedClass hbase
      · cases h
    · cases h
  · intro h
    cases h with
    | namedFunction hname => exact ofFunction?_eq_some_iff.mpr ⟨hname, rfl⟩
    | boundFunction hname hvalue =>
      cases hvalue with
      | arrow => exact ofFunction?_eq_some_iff.mpr ⟨hname, rfl⟩
      | expression => exact ofFunction?_eq_some_iff.mpr ⟨hname, rfl⟩
    | namedClass hbase => exact ofClass?_eq_some_iff.mpr ⟨hbase, rfl⟩
    | exportedFunction hname => exact ofFunction?_eq_some_iff.mpr ⟨hname, rfl⟩
    | exportedClass hbase => exact ofClass?_eq_some_iff.mpr ⟨hbase, rfl⟩

mutual

lemma walk_eq (found : Option Candidate) : ∀ node : Node,
    walk source found node = found.or (node.nodes.findSome? (ofNode? source))
  | .mk kind span parts => by
    rw [walk, walkAll_eq, Option.or_assoc, Node.nodes, List.findSome?_cons]
    cases ofNode? source (.mk kind span parts) <;> rfl

/-- A walk keeps what was found before it, and otherwise finds what the first of all nodes declares that
declares something. -/
lemma walkAll_eq (found : Option Candidate) : ∀ nodes : List Node,
    walkAll source found nodes = found.or ((Node.nodesOf nodes).findSome? (ofNode? source))
  | [] => by simp [walkAll, Node.nodesOf]
  | node :: rest => by
    rw [walkAll, walkAll_eq, walk_eq, Option.or_assoc, Node.nodesOf, List.findSome?_append]

end

end Candidate

namespace ComponentSummary

open Candidate (Declares)

/-- The candidate is declared by the node at the least address of all nodes that declare one. -/
def IsFirst (source : Source) (candidate : Candidate) : Prop :=
  ∃ address node, Node.at? source.items address = some node ∧ Declares source node candidate ∧
    ∀ earlier < address, ∀ other, Node.at? source.items earlier = some other →
      ∀ another, ¬ Declares source other another

variable {source : Source} {candidate : Candidate}

lemma walkAll_eq_none_iff : Candidate.walkAll source none source.items = none ↔
    ∀ address node, Node.at? source.items address = some node → ∀ candidate, ¬ Declares source node candidate := by
  rw [Candidate.walkAll_eq, Option.none_or, Node.findSome?_nodesOf_eq_none_iff]
  simp only [Option.eq_none_iff_forall_ne_some, ne_eq, Candidate.ofNode?_eq_some_iff]

lemma isFirst_of_walkAll (h : Candidate.walkAll source none source.items = some candidate) :
    IsFirst source candidate := by
  rw [Candidate.walkAll_eq, Option.none_or] at h
  obtain ⟨address, node, hnode, hcandidate, hbefore⟩ := Node.findSome?_nodesOf_eq_some h
  refine ⟨address, node, hnode, Candidate.ofNode?_eq_some_iff.mp hcandidate, ?_⟩
  intro earlier hearlier other hother another hanother
  have hnone := hbefore earlier hearlier other hother
  rw [Candidate.ofNode?_eq_some_iff.mpr hanother] at hnone
  cases hnone

/-- A program has no summary exactly when no node of it declares a candidate. Otherwise the summary is that of
the first candidate in the order of the tree, with the modules of all import declarations in that order, of which
those of the framework are told apart by the start of their paths. -/
theorem first_candidate_wins {text : List Char} (hparse : Source.parse? text = some source) :
    (ofText? text = none ↔
      ∀ address node, Node.at? source.items address = some node → ∀ candidate, ¬ Declares source node candidate) ∧
    ∀ summary, ofText? text = some summary →
      IsFirst source ⟨summary.name, summary.kind, summary.props⟩ ∧
      Node.ListsInOrder source.importedModule? source.items summary.imports ∧
      summary.legacyImports = summary.imports.filter fun path => decide ("next/".toList <+: path.toList) := by
  have hsummary : ofText? text = ofSource? source := by rw [ofText?, hparse, Option.bind_some]
  rw [hsummary]
  refine ⟨?_, fun summary h => ?_⟩
  · rw [ofSource?, Option.map_eq_none_iff, walkAll_eq_none_iff]
  · obtain ⟨candidate, hcandidate, rfl⟩ := Option.map_eq_some_iff.mp h
    refine ⟨isFirst_of_walkAll hcandidate, Node.listsInOrder_filterMap _ _, ?_⟩
    refine List.filter_congr fun path _ => ?_
    rw [Bool.eq_iff_iff, Text.startsWith_iff, decide_eq_true_iff]
    exact Iff.rfl

/-- A component inside a function, in front of another one, with an import inside a namespace. -/
def nestedCandidates : List Char :=
  ("import React from 'react';\nfunction make() \x7b\n  const Card = (\x7b a, ...rest \x7d) => <i />;\n\x7d\n" ++
    "export default class Page extends React.Component \x7b\x7d\n" ++
    "declare module 'm' \x7b import Link from 'next/link'; \x7d\n").toList

theorem first_candidate_wins_nestedCandidates : ∃ source, Source.parse? nestedCandidates = some source ∧
    ofText? nestedCandidates =
      some ⟨"Card", .functional, ["react", "next/link"], ["next/link"], ["a", "...rest"]⟩ ∧
    IsFirst source ⟨"Card", .functional, ["a", "...rest"]⟩ ∧
    Node.ListsInOrder source.importedModule? source.items ["react", "next/link"] := by
  have hsummary : ofText? nestedCandidates =
      some ⟨"Card", .functional, ["react", "next/link"], ["next/link"], ["a", "...rest"]⟩ := by
    unfold nestedCandidates
    -- The literals are spelled out by a lemma, as evaluation takes them apart byte by byte.
    rw [String.toList_append, String.toList_append, String.toList_ofList, String.toList_ofList,
      String.toList_ofList]
    decide +kernel
  obtain ⟨source, hparse, -⟩ := Option.bind_eq_some_iff.mp hsummary
  obtain ⟨hfirst, himports, -⟩ := (first_candidate_wins hparse).2 _ hsummary
  exact ⟨source, hparse, hsummary, hfirst, himports⟩

end ComponentSummary

end SpaMigration
