import SpaMigration.Proofs.Lockstep

/-!
# Types in lockstep

The parsers of names, patterns, parameters and types go in lockstep.
-/
namespace SpaMigration.Syntax

open Text (byteSize)
open TokenReader

set_option synthInstance.maxSize 20000

variable {setting : Setting} {above : Above} {g : Grammar} {ctx : Context} [ctx.Fits setting]
  [hg : g.InLockstep setting]

/-! ## Names and keys -/

instance : Lockstep setting above (bindingName ctx) (bindingName ctx) := by
  unfold bindingName
  refine Lockstep.bindPlain inferInstance fun next => ?_
  repeat' first | infer_instance | split

instance : Lockstep setting above anyName anyName := by
  unfold anyName
  refine Lockstep.bindPlain inferInstance fun next => ?_
  repeat' first | infer_instance | split

instance : Lockstep setting above stringNode stringNode := by
  unfold stringNode
  infer_instance

instance : Lockstep setting above (propertyKey g ctx) (propertyKey g ctx) := by
  unfold propertyKey
  refine Lockstep.bind inferInstance fun start start' _ => Lockstep.bindPlain inferInstance fun next => ?_
  repeat' first | infer_instance | split

instance : Lockstep setting above (typeAnnotation? g ctx) (typeAnnotation? g ctx) := by
  unfold typeAnnotation?
  infer_instance

/-! ## Patterns, parameters and arguments -/

instance : Lockstep setting above (callArguments g ctx) (callArguments g ctx) := by
  unfold callArguments
  infer_instance

instance : Lockstep setting above (decoratorTarget g ctx) (decoratorTarget g ctx) := by
  unfold decoratorTarget
  infer_instance

instance : Lockstep setting above (decorator g ctx) (decorator g ctx) := by
  unfold decorator
  infer_instance

instance : Lockstep setting above (decorators g ctx) (decorators g ctx) := by
  unfold decorators
  infer_instance

instance {start start' : Nat} [Twins setting start start'] {pattern pattern' : Node} [Twins setting pattern pattern'] :
    Lockstep setting above (withDefault g ctx start pattern) (withDefault g ctx start' pattern') := by
  unfold withDefault
  infer_instance

instance : Lockstep setting above (bindingElement g ctx) (bindingElement g ctx) := by
  unfold bindingElement
  infer_instance

instance : Lockstep setting above (endsRest ctx) (endsRest ctx) := by
  unfold endsRest
  infer_instance

instance : Lockstep setting above (restElement g ctx) (restElement g ctx) := by
  unfold restElement
  infer_instance

instance : Lockstep setting above (arrayPatternItem g ctx) (arrayPatternItem g ctx) := by
  unfold arrayPatternItem
  infer_instance

instance : Lockstep setting above (objectPatternItem g ctx) (objectPatternItem g ctx) := by
  unfold objectPatternItem
  refine Lockstep.bindPlain inferInstance fun _ => Lockstep.ite inferInstance ?_
  refine Lockstep.bind inferInstance fun start start' _ => Lockstep.bind inferInstance fun key key' hkey => ?_
  rw [hkey.kind_eq]
  refine Lockstep.bindPlain inferInstance fun _ => Lockstep.ite inferInstance ?_
  repeat' first | infer_instance | split

instance : Lockstep setting above (binding g ctx) (binding g ctx) := by
  unfold binding
  infer_instance

instance {pattern pattern' : Node} [hpattern : Twins setting pattern pattern'] :
    Lockstep setting above (typedBinding g ctx pattern) (typedBinding g ctx pattern') := by
  unfold typedBinding
  rw [hpattern.kind_eq]
  infer_instance

instance : Lockstep setting above parameterModifier parameterModifier := by
  unfold parameterModifier
  refine Lockstep.bindPlain inferInstance fun next => Lockstep.bindPlain inferInstance fun _ => ?_
  repeat' first | infer_instance | split

instance (ofConstructor : Bool) :
    Lockstep setting above (parameter g ctx ofConstructor) (parameter g ctx ofConstructor) := by
  unfold parameter
  dsimp only
  infer_instance

instance (ofConstructor : Bool) :
    Lockstep setting above (parameters g ctx ofConstructor) (parameters g ctx ofConstructor) := by
  unfold parameters
  infer_instance

/-! ## Types -/

instance {start start' : Nat} [Twins setting start start'] {parts parts' : List Node} [Twins setting parts parts'] :
    Lockstep setting above (typeNode start parts) (typeNode start' parts') := by
  unfold typeNode
  infer_instance

instance : Lockstep setting above (typeArguments g ctx) (typeArguments g ctx) := by
  unfold typeArguments
  infer_instance

instance : Lockstep setting above (typeArguments? g ctx) (typeArguments? g ctx) := by
  unfold typeArguments?
  infer_instance

instance : Lockstep setting above (typeParameter g ctx) (typeParameter g ctx) := by
  unfold typeParameter
  refine Lockstep.bind inferInstance fun start start' _ => Lockstep.bindPlain (Lockstep.collect ?_ _) fun _ => inferInstance
  refine Lockstep.bindPlain inferInstance fun _ => Lockstep.bindPlain inferInstance fun _ => Lockstep.ite inferInstance ?_
  refine Lockstep.bindPlain inferInstance fun next => Lockstep.bindPlain inferInstance fun behind => ?_
  repeat' first | infer_instance | split

instance : Lockstep setting above (typeParameters g ctx) (typeParameters g ctx) := by
  unfold typeParameters
  infer_instance

instance : Lockstep setting above (typeParameters? g ctx) (typeParameters? g ctx) := by
  unfold typeParameters?
  infer_instance

instance : Lockstep setting above (resultType g ctx) (resultType g ctx) := by
  unfold resultType
  infer_instance

instance : Lockstep setting above (resultType? g ctx) (resultType? g ctx) := by
  unfold resultType?
  infer_instance

instance {start start' : Nat} [Twins setting start start'] {generics generics' : List Node} [Twins setting generics generics'] :
    Lockstep setting above (functionTypeTail g ctx start generics) (functionTypeTail g ctx start' generics') := by
  unfold functionTypeTail
  infer_instance

instance : Lockstep setting above (functionType g ctx) (functionType g ctx) := by
  unfold functionType
  infer_instance

instance : Lockstep setting above (namedType g ctx) (namedType g ctx) := by
  unfold namedType
  infer_instance

instance : Lockstep setting above (importType g ctx) (importType g ctx) := by
  unfold importType
  dsimp only
  infer_instance

instance : Lockstep setting above (queryType g ctx) (queryType g ctx) := by
  unfold queryType
  infer_instance

/-- The pieces of a template are read side by side behind its backtick. -/
lemma templateHoles_inLockstep {hole : TokenReader Node} {other : Above} {place place' : Token.Place}
    (hhole : ∀ above, Lockstep setting above hole hole) (hle : above ≤ other) (hother : other.backtick = true)
    (hplace : Abreast setting other place place') (rounds : Nat) :
    Lockstep setting above (templateHoles hole place rounds) (templateHoles hole place' rounds) := by
  induction rounds generalizing above place place' with
  | zero => exact Lockstep.failure
  | succ rounds ih =>
    obtain ⟨passed, ahead, hpieces, hstart, hharmless, rfl, rfl⟩ := hplace
    simp only [templateHoles]
    have hfound := skipTemplateText_sideBySide hharmless hother (byteSize (whole passed)) (byteSize (kept passed))
    generalize skipTemplateText (whole ahead) (byteSize (whole passed)) = found at hfound ⊢
    generalize skipTemplateText (kept ahead) (byteSize (kept passed)) = found' at hfound ⊢
    cases hfound with
    | none => exact Lockstep.failure
    | @some found found' h =>
      obtain ⟨opens, place⟩ := found
      obtain ⟨opens', place'⟩ := found'
      obtain ⟨rfl, hreached⟩ : opens = opens' ∧ Reached _ _ _ place place' := h
      have hbehind := hreached.abreast hpieces hharmless
      cases opens with
      | false => exact Lockstep.goToBind hle hbehind inferInstance
      | true =>
        refine Lockstep.goToBind hle hbehind (Lockstep.bind (hhole other) fun part part' hpart => ?_)
        refine Lockstep.get fun s s' hs => ?_
        rw [hs.token]
        refine Lockstep.bindPlain inferInstance fun _ => Lockstep.bind (ih other.le_refl hs.behind) fun _ _ _ => ?_
        infer_instance

instance {hole : TokenReader Node} [hhole : ∀ above, Lockstep setting above hole hole] :
    Lockstep setting above (templateParts g hole) (templateParts g hole) := by
  unfold templateParts
  refine Lockstep.get fun s s' hs => ?_
  rw [← hs.token]
  by_cases htoken : s.token = .punct .backtick
  · obtain ⟨passed, ahead, hpieces, hharmless, hplace, hplace'⟩ := hs.behind_mark (.inl ⟨rfl, rfl⟩) htoken
    have hbehind : Abreast setting (above.behind setting.markup '\x60' ahead) s.behind s'.behind :=
      ⟨_, ahead, by rw [hpieces, List.append_assoc]; rfl, hharmless.1 (by decide), hharmless.2.2.2, hplace, hplace'⟩
    refine Lockstep.bindPlain inferInstance fun _ => ?_
    exact templateHoles_inLockstep hhole Above.le_behind (by simp [Above.behind]) hbehind g.fuel
  · have hfails : (s.token == .punct .backtick) = false := by simpa using htoken
    rw [hfails]
    exact Lockstep.failure

instance : Lockstep setting above (tupleElement g ctx) (tupleElement g ctx) := by
  unfold tupleElement
  infer_instance

instance : Lockstep setting above memberEnd memberEnd := by
  unfold memberEnd
  infer_instance

instance : Lockstep setting above (signature g ctx) (signature g ctx) := by
  unfold signature
  infer_instance

instance : Lockstep setting above (indexSignature g ctx) (indexSignature g ctx) := by
  unfold indexSignature
  infer_instance

instance (words : List String) : Lockstep setting above (memberModifier words) (memberModifier words) := by
  unfold memberModifier
  refine Lockstep.bindPlain inferInstance fun next => ?_
  split
  · refine Lockstep.ite (Lockstep.bindPlain inferInstance fun behind => ?_) inferInstance
    repeat' first | infer_instance | split
  · infer_instance

instance : Lockstep setting above (typeMember g ctx) (typeMember g ctx) := by
  unfold typeMember
  infer_instance

instance : Lockstep setting above (typeMembers g ctx) (typeMembers g ctx) := by
  unfold typeMembers
  infer_instance

instance : Lockstep setting above mappingSign mappingSign := by
  unfold mappingSign
  infer_instance

instance : Lockstep setting above (mappedType g ctx) (mappedType g ctx) := by
  unfold mappedType
  refine Lockstep.bind inferInstance fun start start' _ => Lockstep.bindPlain inferInstance fun _ => ?_
  refine Lockstep.bindPlain inferInstance fun _ => ?_
  dsimp only
  split
  all_goals
    refine Lockstep.bindPlain inferInstance fun _ => Lockstep.bindPlain inferInstance fun _ => ?_
    refine Lockstep.bindPlain inferInstance fun _ => Lockstep.bindPlain inferInstance fun _ => ?_
    infer_instance

instance : Lockstep setting above (primaryType g ctx) (primaryType g ctx) := by
  unfold primaryType
  refine Lockstep.bind inferInstance fun start start' _ => Lockstep.bindPlain inferInstance fun next => ?_
  repeat' first | infer_instance | split

instance : Lockstep setting above (arrayType g ctx) (arrayType g ctx) := by
  unfold arrayType
  infer_instance

instance : Lockstep setting above (inferredType g ctx) (inferredType g ctx) := by
  unfold inferredType
  infer_instance

instance : Lockstep setting above (prefixedType g ctx) (prefixedType g ctx) := by
  unfold prefixedType
  refine Lockstep.bind inferInstance fun start start' _ => Lockstep.bindPlain (Lockstep.collect ?_ _) fun _ => inferInstance
  refine Lockstep.bindPlain inferInstance fun next => Lockstep.bindPlain inferInstance fun behind => ?_
  repeat' first | infer_instance | split

instance {mark : Punct} {item : TokenReader Node} [Lockstep setting above item item] :
    Lockstep setting above (joinedTypes g mark item) (joinedTypes g mark item) := by
  unfold joinedTypes
  infer_instance

instance : Lockstep setting above (plainType.unionMember g ctx) (plainType.unionMember g ctx) := by
  unfold plainType.unionMember
  infer_instance

instance : Lockstep setting above (plainType g ctx) (plainType g ctx) := by
  unfold plainType
  infer_instance

instance : Lockstep setting above (type g ctx) (type g ctx) := by
  unfold SpaMigration.Syntax.type
  infer_instance

end SpaMigration.Syntax
