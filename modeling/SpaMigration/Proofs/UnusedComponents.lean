import SpaMigration.Migration.Replace
import SpaMigration.Proofs.ReplacementFrame

/-!
# Components that are not in use

Two searches look at the imports of a text. One counts a component as used when any declaration imports its
module, however deep it stands and whatever it binds; the other takes the first item of the program that
imports the default of the module, and the component is replaced only if there is one. Where the second
search finds something so does the first, so a component that is not in use would not be replaced anyway.
-/
namespace SpaMigration

open Text

namespace LegacyComponent

variable {component : LegacyComponent} {text : List Char}

/-- A component that an item imports by its default is in use: the item is a declaration of its module. -/
lemma used_of_defaultDeclaration? {source : Source} {declaration : Syntax.Node} {name : String}
    (hoccurs : occursIn component.modulePath.toList text = true) (hparse : Source.parse? text = some source)
    (hdefault : source.defaultDeclaration? component.modulePath = some (declaration, name)) :
    (ComponentUsage.ofText component text).used = true := by
  obtain ⟨item, hitem, hnamed⟩ := List.exists_of_findSome?_eq_some hdefault
  split_ifs at hnamed with hmodule
  have hdeclarations : (source.nodes.filter fun node =>
      source.importedModule? node == some component.modulePath) ≠ [] :=
    List.ne_nil_of_mem (List.mem_filter.mpr ⟨Syntax.Node.subset_nodesOf source.items hitem, hmodule⟩)
  simp [ComponentUsage.ofText, hoccurs, hparse, ComponentUsage.ofSource, hdeclarations]

/-- Where a component is not in use, no import of it is found, with or without a byte-order mark. -/
lemma findImport?_of_unused (hunused : (ComponentUsage.ofText component text).used = false) :
    component.findImport? text = some none := by
  by_cases hoccurs : occursIn component.modulePath.toList text = true
  · refine findImport?_eq_none fun source hparse => ?_
    by_contra hdefault
    obtain ⟨⟨declaration, name⟩, hdefault⟩ := Option.ne_none_iff_exists'.mp hdefault
    rw [used_of_defaultDeclaration? hoccurs hparse hdefault] at hunused
    cases hunused
  · simp [findImport?, hoccurs]

lemma replace?_of_unused (options : ReplacementOptions)
    (hunused : (ComponentUsage.ofText component text).used = false) :
    component.replace? options text = some (.unchanged text) :=
  replace?_unchanged options (findImport?_of_unused hunused)

end LegacyComponent

namespace FileReplacement

/-- Replaces components one after another, whether they are in use or not. -/
def replaceEach (options : ReplacementOptions) (path : String) :
    List LegacyComponent → FileReplacement → FileReplacement × Bool
  | [], state => (state, true)
  | component :: rest, state =>
    match component.replace? options state.code with
    | none => (state, false)
    | some result =>
      if result.code == state.code then replaceEach options path rest state
      else
        let count := (ComponentUsage.ofText component state.code).count
        replaceEach options path rest (state.record path component count result)

lemma replaceEach_cons_of_unchanged {options : ReplacementOptions} {path : String}
    {component : LegacyComponent} {rest : List LegacyComponent} {state : FileReplacement}
    (h : component.replace? options state.code = some (.unchanged state.code)) :
    replaceEach options path (component :: rest) state = replaceEach options path rest state := by
  simp only [replaceEach, h, ReplacedText.unchanged, beq_self_eq_true, if_true]

/-- The turn of a component that is not in use is no turn at all. -/
lemma replace_eq_replaceEach (options : ReplacementOptions) (path : String)
    (components : List LegacyComponent) (state : FileReplacement) :
    replace options path components state = replaceEach options path components state := by
  induction components generalizing state with
  | nil => rfl
  | cons component rest ih =>
    cases hused : (ComponentUsage.ofText component state.code).used with
    | false =>
      rw [replaceEach_cons_of_unchanged (LegacyComponent.replace?_of_unused options hused), ← ih]
      simp [replace, hused]
    | true =>
      simp only [replace, replaceEach, hused, if_true]
      cases component.replace? options state.code with
      | none => rfl
      | some result => simp only [ih]

/-- Replacing a component that is not in use leaves any text as it is, asks for no imports and gives no
warnings. So nothing is lost by skipping it: for every file the replacement of components goes through the
same states and ends as if each of them had its turn. -/
theorem skipping_unused_loses_nothing (options : ReplacementOptions) :
    (∀ (component : LegacyComponent) (text : List Char),
      (ComponentUsage.ofText component text).used = false →
        component.replace? options text = some { code := text, imports := [], warnings := [] }) ∧
    replace options = replaceEach options :=
  ⟨fun _ _ hunused => LegacyComponent.replace?_of_unused options hunused, by
    funext path components state
    exact replace_eq_replaceEach options path components state⟩

/-- A text that mentions a module in a comment, between tags of the name it is usually bound to. -/
def commentedLink : List Char :=
  "\uFEFF// once from 'next/link'\nexport const a = <Link href=\"/\" />;\n".toList

theorem skipping_unused_loses_nothing_commentedLink :
    (ComponentUsage.ofText .link commentedLink).used = false ∧
    LegacyComponent.link.replace? {} commentedLink = some ⟨commentedLink, [], []⟩ := by
  have hunused : (ComponentUsage.ofText .link commentedLink).used = false := by decide +kernel
  exact ⟨hunused, (skipping_unused_loses_nothing {}).1 .link commentedLink hunused⟩

end FileReplacement

end SpaMigration
