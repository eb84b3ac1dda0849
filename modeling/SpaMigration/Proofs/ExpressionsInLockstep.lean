import SpaMigration.Proofs.MarkupInLockstep

/-!
# Expressions in lockstep

The parsers of functions, classes, literals and expressions go in lockstep. What they ask of expressions that were
found has the same answer in both readings.
-/
namespace SpaMigration.Syntax

open TokenReader

set_option synthInstance.maxSize 20000

variable {setting : Setting} {above : Above} {g : Grammar} {ctx : Context}

/-! ## Targets of assignments -/

namespace Node

variable {spans : Span → Span → Prop}

/-- Alike nodes are as many: none, one, two or more of them. -/
lemma areAllAlike_cases {parts parts' : List Node} (h : areAllAlike spans parts parts') :
    (parts = [] ∧ parts' = []) ∨ (∃ one one', parts = [one] ∧ parts' = [one'] ∧ areAlike spans one one') ∨
    (∃ one two one' two', parts = [one, two] ∧ parts' = [one', two'] ∧ areAlike spans one one' ∧ areAlike spans two two') ∨
    ∃ one two three rest one' two' three' rest', parts = one :: two :: three :: rest ∧ parts' = one' :: two' :: three' :: rest' := by
  rcases parts with _ | ⟨one, _ | ⟨two, _ | ⟨three, rest⟩⟩⟩ <;>
    rcases parts' with _ | ⟨one', _ | ⟨two', _ | ⟨three', rest'⟩⟩⟩ <;> simp_all [areAllAlike]

lemma isSimpleTarget_eq : ∀ {node node' : Node}, areAlike spans node node' →
    isSimpleTarget ctx node = isSimpleTarget ctx node'
  | .mk kind span parts, .mk kind' span' parts', ⟨hkind, _, hparts⟩ => by
    subst hkind
    cases kind
    case parenthesized =>
      rcases areAllAlike_cases hparts with ⟨rfl, rfl⟩ | ⟨inner, inner', rfl, rfl, hinner⟩ |
        ⟨_, _, _, _, rfl, rfl, -⟩ | ⟨_, _, _, _, _, _, _, _, rfl, rfl⟩
      case inr.inl => rw [isSimpleTarget, isSimpleTarget, isSimpleTarget_eq hinner]
      all_goals rfl
    all_goals rfl

lemma rel_map {found found' : Option Node} {f f' : Node → Node} (h : Option.Rel (areAlike spans) found found')
    (hf : ∀ node node', areAlike spans node node' → areAlike spans (f node) (f' node')) :
    Option.Rel (areAlike spans) (found.map f) (found'.map f') := by
  cases h with
  | none => exact .none
  | some h => exact .some (hf _ _ h)

/-- A node that is taken as it is, under a condition. -/
lemma rel_ite {kind kind' : Kind} {span span' : Span} {parts parts' : List Node}
    (h : areAlike spans (.mk kind span parts) (.mk kind span' parts')) (b : Bool) :
    Option.Rel (areAlike spans) (if b then some (.mk kind' span parts) else none)
      (if b then some (.mk kind' span' parts') else none) := by
  cases b
  · exact .none
  · exact .some ⟨rfl, h.2⟩

mutual

/-- Alike nodes are alike as parts of patterns. -/
lemma asElement?_alike : ∀ {node node' : Node}, areAlike spans node node' →
    Option.Rel (areAlike spans) (asElement? ctx node) (asElement? ctx node')
  | .mk kind span parts, .mk kind' span' parts', ⟨hkind, hspans, hparts⟩ => by
    subst hkind
    have hnode : areAlike spans (.mk kind span parts) (.mk kind span' parts') := ⟨rfl, hspans, hparts⟩
    have hmk : ∀ {kind parts parts'}, areAllAlike spans parts parts' →
      areAlike spans (.mk kind span parts) (.mk kind span' parts') := fun hparts => ⟨rfl, hspans, hparts⟩
    cases kind
    case spread | property | parenthesized | assignment =>
      rcases areAllAlike_cases hparts with ⟨rfl, rfl⟩ | ⟨one, one', rfl, rfl, hone⟩ |
        ⟨one, two, one', two', rfl, rfl, hone, htwo⟩ | ⟨_, _, _, _, _, _, _, _, rfl, rfl⟩
      all_goals rw [asElement?.eq_def, asElement?.eq_def]; dsimp only
      all_goals
        first
        | exact rel_ite hnode _
        | exact rel_map (asElement?_alike hone) fun _ _ hinner => hmk ⟨hinner, trivial⟩
        | exact rel_map (asElement?_alike htwo) fun _ _ hvalue => hmk ⟨hone, hvalue, trivial⟩
        | exact .some (hmk ⟨hone, htwo, trivial⟩)
        | rw [isSimpleTarget_eq hone]; exact rel_ite hnode _
    case array | object =>
      rw [asElement?.eq_def, asElement?.eq_def]; dsimp only
      have hitems := asElements?_alike hparts
      generalize asElements? ctx parts = found at hitems
      generalize asElements? ctx parts' = found' at hitems
      cases hitems with
      | none => exact .none
      | some hitems => exact .some (hmk hitems)
    all_goals
      rw [asElement?.eq_def, asElement?.eq_def]; dsimp only
      first
      | exact rel_ite hnode _
      | exact .some hnode
      | exact .none

lemma asElements?_alike : ∀ {nodes nodes' : List Node}, areAllAlike spans nodes nodes' →
    Option.Rel (areAllAlike spans) (asElements? ctx nodes) (asElements? ctx nodes')
  | [], [], _ => .some trivial
  | [], _ :: _, h => h.elim
  | _ :: _, [], h => h.elim
  | item :: rest, item' :: rest', h => by
    have hitem := asElement?_alike h.1
    have hrest := asElements?_alike h.2
    rw [asElements?, asElements?]
    generalize asElement? ctx item = found at hitem ⊢
    generalize asElement? ctx item' = found' at hitem ⊢
    cases hitem with
    | none => exact .none
    | some hitem =>
      generalize asElements? ctx rest = found at hrest ⊢
      generalize asElements? ctx rest' = found' at hrest ⊢
      cases hrest with
      | none => exact .none
      | some hrest => exact .some ⟨hitem, hrest⟩

end

end Node

namespace Twins

variable {node node' : Node} [h : Twins setting node node']

instance isSimpleTarget : Twins setting (isSimpleTarget ctx node) (isSimpleTarget ctx node') :=
  ⟨Node.isSimpleTarget_eq h.areTwins⟩

instance asElement? : Twins setting (asElement? ctx node) (asElement? ctx node') := ⟨Node.asElement?_alike h.areTwins⟩

instance asTarget? : Twins setting (asTarget? ctx node) (asTarget? ctx node') := by
  unfold Syntax.asTarget?
  rw [h.kind_eq, Node.isSimpleTarget_eq h.areTwins]
  split
  · infer_instance
  · infer_instance
  · split_ifs <;> infer_instance

instance asLoopTarget? : Twins setting (asLoopTarget? ctx node) (asLoopTarget? ctx node') := by
  unfold Syntax.asLoopTarget?
  split_ifs <;> infer_instance

end Twins

/-! ## Accessors, operators and what follows them -/

namespace Twins

variable {nodes nodes' : List Node}

/-- Twins are of the same kinds. -/
lemma map_kind_eq (h : Twins setting nodes nodes') : nodes.map Node.kind = nodes'.map Node.kind := by
  obtain ⟨hnodes⟩ := h
  induction hnodes with
  | nil => rfl
  | cons hnode hnodes ih => rw [List.map_cons, List.map_cons, kind_eq ⟨hnode⟩, ih]

lemma all_kind (h : Twins setting nodes nodes') (p : Kind → Bool) :
    Twins setting (nodes.all fun node => p node.kind) (nodes'.all fun node => p node.kind) := by
  have hall : ∀ nodes : List Node, (nodes.all fun node => p node.kind) = (nodes.map Node.kind).all p :=
    fun nodes => List.all_map.symm
  rw [hall, hall, h.map_kind_eq]
  exact refl _

lemma accepts_eq (h : Twins setting nodes nodes') (accessor : Accessor) :
    accessor.accepts nodes = accessor.accepts nodes' := by
  cases accessor with
  | reads => exact h.isEmpty_eq
  | writes =>
    cases h.areTwins with
    | nil => rfl
    | cons hnode hnodes =>
      cases hnodes with
      | cons => rfl
      | nil =>
        have hparts := @parts _ _ _ ⟨hnode⟩
        exact (hparts.all_kind (· != .restPattern)).eq

end Twins

namespace Twins

variable {operator operator' : PrefixOperator} {operators operators' : List PrefixOperator}
  {continuation continuation' : Continuation} {more more' : List Continuation} {node node' : Node}

instance assertion [h : Twins setting node node'] :
    Twins setting (PrefixOperator.assertion node) (PrefixOperator.assertion node') := ⟨h⟩

instance step : Twins setting PrefixOperator.step .step := ⟨trivial⟩
instance delete : Twins setting PrefixOperator.delete .delete := ⟨trivial⟩
instance other : Twins setting PrefixOperator.other .other := ⟨trivial⟩

lemma isStep_eq (h : Twins setting operator operator') : operator.isStep = operator'.isStep := by
  cases operator <;> cases operator' <;> first | rfl | exact h.areTwins.elim

lemma mayApply_eq (hnode : Twins setting node node') (h : Twins setting operator operator') :
    mayApply ctx node operator = mayApply ctx node' operator' := by
  have htarget : Twins setting (Syntax.isSimpleTarget ctx node) (Syntax.isSimpleTarget ctx node') := inferInstance
  cases operator <;> cases operator' <;>
    first | exact h.areTwins.elim | simp only [mayApply, htarget.eq, hnode.kind_eq]

instance operand [h : Twins setting node node'] :
    Twins setting (Continuation.operand node) (Continuation.operand node') := ⟨h⟩

instance type [h : Twins setting node node'] :
    Twins setting (Continuation.type node) (Continuation.type node') := ⟨h⟩

end Twins

variable [ctx.Fits setting] [hg : g.InLockstep setting]

/-! ## Functions and classes -/

instance : Lockstep setting above (blockTail g ctx) (blockTail g ctx) := by
  unfold blockTail
  infer_instance

instance : Lockstep setting above (block g ctx) (block g ctx) := by
  unfold block
  infer_instance

instance (isAsync isGenerator ofConstructor : Bool) :
    Lockstep setting above (functionTail g ctx isAsync isGenerator ofConstructor) (functionTail g ctx isAsync isGenerator ofConstructor) := by
  unfold functionTail
  infer_instance

instance (isAsync isGenerator ofConstructor : Bool) (accessor : Option Accessor) :
    Lockstep setting above (methodTail g ctx isAsync isGenerator ofConstructor accessor) (methodTail g ctx isAsync isGenerator ofConstructor accessor) := by
  unfold methodTail
  refine Lockstep.bind inferInstance fun tail tail' htail => ?_
  have hparams : Twins setting tail.params tail'.params := inferInstance
  simp only [hparams.accepts_eq]
  infer_instance

instance {start start' : Nat} [Twins setting start start'] (isAsync : Bool) :
    Lockstep setting above (functionDeclaration g ctx start isAsync) (functionDeclaration g ctx start' isAsync) := by
  unfold functionDeclaration
  infer_instance

instance {start start' : Nat} [Twins setting start start'] (isAsync : Bool) :
    Lockstep setting above (functionExpression g ctx start isAsync) (functionExpression g ctx start' isAsync) := by
  unfold functionExpression
  infer_instance

instance (words : List String) : Lockstep setting above (classWord words) (classWord words) := by
  unfold classWord
  refine Lockstep.bindPlain inferInstance fun next => ?_
  split
  · refine Lockstep.ite (Lockstep.bindPlain inferInstance fun behind => ?_) inferInstance
    repeat' first | infer_instance | split
  · infer_instance

instance : Lockstep setting above (memberKey g ctx) (memberKey g ctx) := by
  unfold memberKey
  infer_instance

instance {start start' : Nat} [Twins setting start start'] {marks marks' : List Node} [Twins setting marks marks'] (words : MemberWords) :
    Lockstep setting above (classMemberTail g ctx start marks words) (classMemberTail g ctx start' marks' words) := by
  unfold classMemberTail
  refine Lockstep.bind inferInstance fun key key' hkey => ?_
  simp only [MemberWords.allows, hkey.kind_eq]
  infer_instance

/-- The word that announces an accessor. -/
instance accessorWord : Lockstep setting above (do
    let word ← classWord ["get", "set"]
    require (!(← atPunct .star))
    match word.bind Accessor.ofWord? with
    | some accessor => return accessor
    | none => failure) (do
    let word ← classWord ["get", "set"]
    require (!(← atPunct .star))
    match word.bind Accessor.ofWord? with
    | some accessor => return accessor
    | none => failure : TokenReader Accessor) := by
  refine Lockstep.bindPlain inferInstance fun word => Lockstep.bindPlain inferInstance fun _ => ?_
  refine Lockstep.bindPlain inferInstance fun _ => ?_
  split <;> infer_instance

instance : Lockstep setting above (classMember g ctx) (classMember g ctx) := by
  unfold classMember
  infer_instance

instance : Lockstep setting above (classBody g ctx) (classBody g ctx) := by
  unfold classBody
  refine Lockstep.bindPlain inferInstance fun _ => Lockstep.bind inferInstance fun members members' hmembers => ?_
  have hcount : ∀ nodes : List Node, nodes.countP (·.kind == .constructor) = (nodes.map Node.kind).countP (· == .constructor) :=
    fun nodes => by rw [List.countP_map]; rfl
  simp only [hcount, hmembers.map_kind_eq]
  infer_instance

instance : Lockstep setting above (classHeritage g ctx) (classHeritage g ctx) := by
  unfold classHeritage
  refine Lockstep.bindPlain inferInstance fun _ => Lockstep.ite ?_ inferInstance
  refine Lockstep.bind inferInstance fun start start' _ => Lockstep.bind inferInstance fun base base' hbase => ?_
  have hplain : Lockstep setting above (do
      let heritage ← node start .heritage [base]
      let types ← if ctx.dialect.typed && (← atAngle) then typeArguments g ctx else pure []
      return ([heritage], types)) (do
      let heritage ← node start' .heritage [base']
      let types ← if ctx.dialect.typed && (← atAngle) then typeArguments g ctx else pure []
      return ([heritage], types)) := by
    dsimp only
    infer_instance
  have hparts : Twins setting base.parts base'.parts := inferInstance
  rw [hbase.kind_eq]
  generalize base.parts = parts at hparts
  generalize base'.parts = parts' at hparts
  cases base'.kind
  case cast =>
    cases hparts.areTwins with
    | nil => exact hplain
    | @cons plain plain' _ _ hone hmore =>
      cases hmore with
      | nil => exact hplain
      | @cons type type' types types' htwo hmore =>
        have : Twins setting plain plain' := ⟨hone⟩
        have : Twins setting type type' := ⟨htwo⟩
        have : Twins setting types types' := ⟨hmore⟩
        dsimp only
        infer_instance
  all_goals exact hplain

instance : Lockstep setting above (implementedTypes g ctx) (implementedTypes g ctx) := by
  unfold implementedTypes
  infer_instance

instance {marks marks' : List Node} [Twins setting marks marks'] :
    Lockstep setting above (classTail g ctx marks) (classTail g ctx marks') := by
  unfold classTail
  infer_instance

instance : Lockstep setting above (className? ctx) (className? ctx) := by
  unfold className?
  refine Lockstep.bindPlain inferInstance fun next => ?_
  repeat' first | infer_instance | split

instance {start start' : Nat} [Twins setting start start'] {marks marks' : List Node} [Twins setting marks marks'] :
    Lockstep setting above (classDeclaration g ctx start marks) (classDeclaration g ctx start' marks') := by
  unfold classDeclaration
  infer_instance

instance {start start' : Nat} [Twins setting start start'] {marks marks' : List Node} [Twins setting marks marks'] :
    Lockstep setting above (classExpression g ctx start marks) (classExpression g ctx start' marks') := by
  unfold classExpression
  infer_instance

/-! ## Literals -/

/-- The place behind the closing slash of a regular expression, whose opening slash is next. -/
def regexEnd? : Token.Place → Option Token.Place
  | ('/' :: rest, offset) => skipRegex false rest (offset + 1)
  | _ => none

lemma regex_eq (ctx : Context) : regex ctx = (do
    let start ← offset
    match regexEnd? (← get).here with
    | some (rest, place) =>
      let flags := rest.takeWhile Text.isIdentifierPart
      require (ctx.dialect.typed || areRegexFlags flags)
      goTo (rest.drop flags.length, place + Text.byteSize flags)
      node start .literal []
    | none => failure) := by
  unfold regex
  congr 1
  funext start
  congr 1
  funext s
  generalize s.here = place
  split
  · rfl
  · rename_i hother
    have hnone : regexEnd? place = none := by
      rw [regexEnd?]
      exact hother
    rw [hnone]

lemma staysOnLine_regexEnd? : StaysOnLine regexEnd? := by
  intro line rest rest' hline hrest hrest' offset offset'
  have hnone : ∀ {s : List Char} {offset : Nat}, s.head? ≠ some '/' → regexEnd? (s, offset) = none := by
    intro s offset hs
    rw [regexEnd?.eq_def]
    split
    · rename_i h
      cases h
      exact absurd rfl hs
    · rfl
  have hend : ∀ {rest : List Char}, EndsLine rest → rest.head? ≠ some '/' := fun hrest h => absurd (hrest _ h) (by decide)
  cases line with
  | nil =>
    rw [List.nil_append, List.nil_append, hnone (hend hrest), hnone (hend hrest')]
    exact .none
  | cons c line =>
    by_cases hc : c = '/'
    · subst hc
      exact (Token.staysOnLine_skipRegex false (List.not_mem_of_not_mem_cons hline) hrest hrest' (offset + 1) (offset' + 1)).cons rfl
    · rw [hnone (by simpa using hc), hnone (by simpa using hc)]
      exact .none

instance : Lockstep setting above (regex ctx) (regex ctx) := by
  rw [regex_eq]
  refine Lockstep.bind inferInstance fun start start' _ => Lockstep.get fun s s' hs => ?_
  have hend := hs.here.search staysOnLine_regexEnd?
  generalize regexEnd? s.here = found at hend ⊢
  generalize regexEnd? s'.here = found' at hend ⊢
  cases hend with
  | none => exact Lockstep.failure
  | @some place place' hplaces =>
    obtain ⟨hflags, hbehind⟩ := hplaces.dropWhile (p := Text.isIdentifierPart) (by decide)
    dsimp only
    rw [hflags] at hbehind ⊢
    exact Lockstep.bindPlain inferInstance fun _ => Lockstep.bindPlain (Lockstep.goTo hbehind) fun _ => inferInstance

instance {start start' : Nat} [Twins setting start start'] {tag tag' : List Node} [Twins setting tag tag'] :
    Lockstep setting above (template g ctx start tag) (template g ctx start' tag') := by
  unfold template
  infer_instance

instance : Lockstep setting above (arrayItem g ctx) (arrayItem g ctx) := by
  unfold arrayItem
  infer_instance

instance : Lockstep setting above (arrayLiteral g ctx) (arrayLiteral g ctx) := by
  unfold arrayLiteral
  infer_instance

instance (words : List String) : Lockstep setting above (propertyWord words) (propertyWord words) := by
  unfold propertyWord
  refine Lockstep.bindPlain inferInstance fun next => ?_
  split
  · refine Lockstep.ite (Lockstep.bindPlain inferInstance fun behind => ?_) inferInstance
    repeat' first | infer_instance | split
  · infer_instance

instance : Lockstep setting above asyncMark asyncMark := by
  unfold asyncMark
  infer_instance

instance {start start' : Nat} [Twins setting start start'] (name : String) :
    Lockstep setting above (shorthand g ctx start name) (shorthand g ctx start' name) := by
  unfold shorthand
  infer_instance

instance : Lockstep setting above (objectItem g ctx) (objectItem g ctx) := by
  unfold objectItem
  refine Lockstep.bind inferInstance fun start start' _ => Lockstep.bindPlain inferInstance fun _ => ?_
  refine Lockstep.ite inferInstance (Lockstep.bindPlain inferInstance fun isAsync => ?_)
  refine Lockstep.bindPlain inferInstance fun isGenerator => ?_
  have hshorthand {kind : Kind} : Lockstep setting above
      (match kind with
      | .nameKey name => shorthand g ctx start name
      | _ => failure)
      (match kind with
      | .nameKey name => shorthand g ctx start' name
      | _ => failure) := by
    split <;> infer_instance
  dsimp only
  refine Lockstep.ite (Lockstep.bindPlain inferInstance fun word => ?_) (Lockstep.bindPlain inferInstance fun word => ?_)
  all_goals
    refine Lockstep.bind inferInstance fun key key' hkey => ?_
    rw [hkey.kind_eq]
    infer_instance

instance : Lockstep setting above (objectLiteral g ctx) (objectLiteral g ctx) := by
  unfold objectLiteral
  infer_instance

/-! ## Expressions -/

instance : Lockstep setting above (sequence g ctx) (sequence g ctx) := by
  unfold sequence
  infer_instance

instance : Lockstep setting above importAccess importAccess := by
  unfold importAccess
  infer_instance

instance : Lockstep setting above (superAccess ctx) (superAccess ctx) := by
  unfold superAccess
  infer_instance

instance (name : String) (escaped : Bool) :
    Lockstep setting above (wordExpression g ctx name escaped) (wordExpression g ctx name escaped) := by
  unfold wordExpression
  infer_instance

instance : Lockstep setting above (primary g ctx) (primary g ctx) := by
  unfold primary
  refine Lockstep.bind inferInstance fun start start' _ => Lockstep.bindPlain inferInstance fun next => ?_
  repeat' first | infer_instance | split

instance : Lockstep setting above partName partName := by
  unfold partName
  refine Lockstep.bind inferInstance fun start start' _ => Lockstep.bindPlain inferInstance fun next => ?_
  repeat' first | infer_instance | split

instance : Lockstep setting above (partIndex g ctx) (partIndex g ctx) := by
  unfold partIndex
  infer_instance

instance {start start' : Nat} [Twins setting start start'] {base base' : Node} [Twins setting base base'] :
    Lockstep setting above (optionalAccess g ctx start base) (optionalAccess g ctx start' base') := by
  unfold optionalAccess
  infer_instance

instance {start start' : Nat} [Twins setting start start'] (allowCalls : Bool) {base base' : Node} [Twins setting base base'] :
    Lockstep setting above (afterTypes g ctx start allowCalls base) (afterTypes g ctx start' allowCalls base') := by
  unfold afterTypes
  infer_instance

instance {start start' : Nat} [Twins setting start start'] (allowCalls : Bool) (fuel : Nat) {base base' : Node}
    [hbase : Twins setting base base'] : Lockstep setting above (accesses g ctx start allowCalls fuel base)
      (accesses g ctx start' allowCalls fuel base') := by
  induction fuel generalizing base base' with
  | zero => exact Lockstep.failure
  | succ fuel ih =>
    have hgoOn {base base' : Node} [hbase : Twins setting base base'] : Lockstep setting above
      (accesses g ctx start allowCalls fuel base) (accesses g ctx start' allowCalls fuel base') := ih
    have hoptional : isOptional base = isOptional base' := by rw [isOptional, isOptional, hbase.kind_eq]
    rw [accesses, accesses, hoptional]
    refine Lockstep.bindPlain inferInstance fun next => ?_
    split <;> infer_instance

instance : Lockstep setting above (construction g ctx) (construction g ctx) := by
  unfold construction
  infer_instance

instance : Lockstep setting above (leftHandSide g ctx) (leftHandSide g ctx) := by
  unfold leftHandSide
  refine Lockstep.bind inferInstance fun start start' _ => ?_
  cases hmarkup : ctx.dialect.markup with
  | false =>
    simp only [Bool.false_and, Bool.false_eq_true, if_false]
    infer_instance
  | true =>
    have : Goal.markup.Fits setting := ⟨fun _ => Context.Fits.markup.symm.trans hmarkup⟩
    infer_instance

instance : Lockstep setting above (assertedType g ctx) (assertedType g ctx) := by
  unfold assertedType
  infer_instance

instance : Lockstep setting above (prefixOperator g ctx) (prefixOperator g ctx) := by
  unfold prefixOperator
  refine Lockstep.bindPlain inferInstance fun next => ?_
  repeat' first | infer_instance | split

instance : Lockstep setting above (unary g ctx) (unary g ctx) := by
  unfold unary
  refine Lockstep.bind inferInstance fun start start' _ => Lockstep.bind inferInstance fun operators operators' hops => ?_
  dsimp only
  refine Lockstep.bind inferInstance fun operand operand' _ => ?_
  refine Lockstep.bindPlain inferInstance fun _ => Lockstep.bindPlain inferInstance fun _ => ?_
  refine Lockstep.ite (Lockstep.bindPlain inferInstance fun _ => Lockstep.bindPlain inferInstance fun _ => ?_) ?_
  all_goals
    refine Lockstep.bind inferInstance fun operand operand' hoperand => ?_
    generalize hlast : operators.getLast? = last
    generalize hlast' : operators'.getLast? = last'
    have hlasts : Twins setting last last' := by rw [← hlast, ← hlast']; infer_instance
    cases hlasts.areTwins with
    | none =>
      dsimp only
      infer_instance
    | @some operator operator' hoperator =>
      dsimp only
      rw [Twins.mayApply_eq hoperand ⟨hoperator⟩, hops.dropLast.any_eq fun _ _ h => h.isStep_eq, hops.all_eq fun _ _ h => h.isStep_eq]
      refine Lockstep.bindPlain inferInstance fun _ => Lockstep.bindPlain inferInstance fun _ => ?_
      refine @Lockstep.bind _ _ _ _ _ _ _ _ _ _
        (@Lockstep.node _ _ _ _ _ _ _ _ inferInstance ⟨?_⟩ (@Twins.cons _ _ _ _ _ _ _ inferInstance ?_)) fun _ _ _ => inferInstance
      · refine congrArg (fun b : Bool => if b then Kind.cast else .operation) (congrArg₂ (fun m n : Nat => m == n) ?_ hops.areTwins.length_eq)
        refine (hops.filterMap fun found found' h => ?_).areTwins.length_eq
        cases found <;> cases found' <;> first | exact Twins.none | exact h.areTwins.elim | exact ⟨.some h.areTwins.areTwins⟩
      · refine hops.filterMap fun found found' h => ?_
        cases found <;> cases found' <;> first | exact Twins.none | exact h.areTwins.elim | exact ⟨.some h.areTwins.areTwins⟩

instance (fuel : Nat) (blocksPower : Bool) (seen : List Punct) : Lockstep setting above
    (continuations g ctx fuel blocksPower seen) (continuations g ctx fuel blocksPower seen) := by
  induction fuel generalizing blocksPower seen with
  | zero => exact Lockstep.failure
  | succ fuel ih =>
    rw [continuations]
    refine Lockstep.bindPlain inferInstance fun next => ?_
    dsimp only
    refine Lockstep.ite ?_ inferInstance
    refine Lockstep.bindPlain inferInstance fun _ => Lockstep.bindPlain inferInstance fun _ => ?_
    refine Lockstep.bindPlain inferInstance fun _ => ?_
    refine Lockstep.bindPair inferInstance fun operand operand' blocks blocks' _ hblocks => ?_
    obtain rfl := hblocks.eq
    dsimp only
    infer_instance

instance : Lockstep setting above (operation g ctx) (operation g ctx) := by
  unfold operation
  refine Lockstep.bind inferInstance fun start start' _ => ?_
  refine Lockstep.bindPair inferInstance fun first first' blocks blocks' _ hblocks => ?_
  obtain rfl := hblocks.eq
  refine Lockstep.bind inferInstance fun more more' hmore => ?_
  dsimp only
  rw [hmore.isEmpty_eq]
  refine Lockstep.ite inferInstance (@Lockstep.node _ _ _ _ _ _ _ _ inferInstance ⟨?_⟩ (@Twins.cons _ _ _ _ _ _ _ inferInstance ?_))
  · refine congrArg (fun b : Bool => if b then Kind.cast else .operation) (hmore.all_eq fun found found' h => ?_)
    cases found <;> cases found' <;> first | rfl | exact h.areTwins.elim
  · refine hmore.map fun found found' h => ?_
    cases found <;> cases found' <;> first | exact h.areTwins | exact h.areTwins.elim

instance : Lockstep setting above (conditional g ctx) (conditional g ctx) := by
  unfold conditional
  infer_instance

instance (isAsync : Bool) : Lockstep setting above (arrowParameters g ctx isAsync) (arrowParameters g ctx isAsync) := by
  unfold arrowParameters
  dsimp only
  infer_instance

instance : Lockstep setting above (arrowHead? g ctx) (arrowHead? g ctx) := by
  unfold arrowHead?
  dsimp only
  refine Lockstep.bindPlain inferInstance fun _ => Lockstep.ite (Lockstep.bindOption inferInstance ?_ fun head head' _ => ?_)
    (Lockstep.bindOption inferInstance ?_ fun head head' _ => ?_)
  all_goals dsimp only
  case refine_2 | refine_4 => infer_instance
  all_goals
    refine Lockstep.bindPlain inferInstance fun next => ?_
    split <;> infer_instance

instance {start start' : Nat} [Twins setting start start'] {head head' : ArrowHead} [hhead : Twins setting head head'] :
    Lockstep setting above (arrowTail g ctx start head) (arrowTail g ctx start' head') := by
  unfold arrowTail
  obtain ⟨isAsync, params, types⟩ := head
  obtain ⟨isAsync', params', types'⟩ := head'
  obtain ⟨rfl, hparams, htypes⟩ : isAsync = isAsync' ∧ Twins setting params params' ∧ Twins setting types types' :=
    hhead.areTwins
  dsimp only
  infer_instance

instance : Lockstep setting above (yielding g ctx) (yielding g ctx) := by
  unfold yielding
  infer_instance

instance : Lockstep setting above (assignment g ctx) (assignment g ctx) := by
  unfold assignment
  refine Lockstep.bind inferInstance fun start start' _ => Lockstep.bindPlain inferInstance fun _ => ?_
  refine Lockstep.ite inferInstance (Lockstep.bindOption inferInstance ?_ fun head head' _ => inferInstance)
  refine Lockstep.bind inferInstance fun target target' htarget => Lockstep.bindPlain inferInstance fun _ => ?_
  refine Lockstep.ite ?_ ?_
  · have hfound : Twins setting (asTarget? ctx target) (asTarget? ctx target') := inferInstance
    generalize asTarget? ctx target = found at hfound
    generalize asTarget? ctx target' = found' at hfound
    cases hfound.areTwins with
    | none => exact Lockstep.failure
    | @some found found' hvalue =>
      have : Twins setting found found' := ⟨hvalue⟩
      dsimp only
      infer_instance
  · have hparams : Lockstep setting above (target.parts.mapM fun part => node target.span.lo .parameter [part])
        (target'.parts.mapM fun part => node target'.span.lo .parameter [part]) :=
      Lockstep.mapM inferInstance fun part part' _ => inferInstance
    infer_instance

end SpaMigration.Syntax
