import SpaMigration.Proofs.DiskPaths
import SpaMigration.Route.Basic

/-!
# What the fields of a route say

Every field of a route of the table is read off its file and its address: the parameters and what kind of
parameters there are off the address, the layout off the file and the other files.
-/
namespace SpaMigration.Route

open Text (occursIn)

/-- The fields of a route, in terms of its address, and of its file behind a page directory. -/
structure IsReadOff (files : List String) (route : Route) (root rest : String) : Prop where
  split : ProjectPath.splitPageRoot? route.file = some (root, rest)
  file_eq : route.file = root ++ "/" ++ rest
  params : route.params = paramsOf route.path
  isDynamic : route.isDynamic = (route.path.toList.contains '[' && route.path.toList.contains ']')
  isOptionalCatchAll : route.isOptionalCatchAll = occursIn "[[...".toList route.path.toList
  isCatchAll : route.isCatchAll = (!route.isOptionalCatchAll && occursIn "[...".toList route.path.toList)
  layout : route.layout = nearestLayout? files root route.file

variable {files : List String} {route : Route}

lemma eq_append_of_splitPageRoot? {path root rest : String}
    (h : ProjectPath.splitPageRoot? path = some (root, rest)) : path = root ++ "/" ++ rest := by
  obtain ⟨found, -, hdrop⟩ := List.exists_of_findSome?_eq_some h
  obtain ⟨behind, hbehind, hpair⟩ := Option.map_eq_some_iff.mp hdrop
  cases hpair
  exact String.toList_inj.mp (by simpa using Text.dropPrefix?_eq_some_iff.mp hbehind)

/-- The route of a file under an address. -/
def underAddress (files : List String) (root file : String) (address : List Char) (isIndex : Bool) : Route where
  path := String.ofList address
  file := file
  isDynamic := address.contains '[' && address.contains ']'
  isCatchAll := !occursIn "[[...".toList address && occursIn "[...".toList address
  isOptionalCatchAll := occursIn "[[...".toList address
  params := paramsOf (String.ofList address)
  layout := nearestLayout? files root file
  isIndex := isIndex

/-- The stem behind the page directory is the address, but for an `index` at its end. -/
lemma exists_eq_underAddress {file : String} (h : ofFile? files file = some route) :
    ∃ root rest address isIndex, ProjectPath.splitPageRoot? file = some (root, rest) ∧
      '/' :: (ProjectPath.stem rest).toList = address ++ (if isIndex then "index" else "").toList ∧
      route = underAddress files root file address isIndex := by
  simp only [ofFile?, Option.bind_eq_bind, Option.bind_eq_some_iff] at h
  obtain ⟨⟨root, rest⟩, hsplit, h⟩ := h
  by_cases hkind : (ProjectPath.sourceKind? file).isNone
  · rw [if_pos hkind] at h
    cases h
  by_cases hprivate : (ProjectPath.segments rest).any fun part => part.toList.head? == some '_'
  · rw [if_neg hkind, if_pos hprivate] at h
    cases h
  simp only [hkind, hprivate, if_false, Bool.false_eq_true, Option.pure_def, Option.some.injEq] at h
  refine ⟨root, rest, _, _, hsplit, ?_, h.symm⟩
  by_cases hindex : (ProjectPath.stem rest).toList = "index".toList
  · simp [hindex]
  · rw [if_neg hindex]
    cases hdrop : Text.dropSuffix? "/index".toList (ProjectPath.stem rest).toList with
    | none => simp
    | some directory => simp [Text.dropSuffix?_eq_some_iff.mp hdrop]

theorem isReadOff_of_mem_table (h : route ∈ table files) :
    ∃ root rest, route.IsReadOff files root rest := by
  obtain ⟨file, -, h⟩ := List.mem_filterMap.mp h
  obtain ⟨root, rest, address, isIndex, hsplit, -, rfl⟩ := exists_eq_underAddress h
  have hfile : (underAddress files root file address isIndex).file = file := rfl
  refine ⟨root, rest, hfile ▸ hsplit, hfile ▸ eq_append_of_splitPageRoot? hsplit, ?_, ?_, ?_, ?_, ?_⟩ <;>
    simp only [underAddress, String.toList_ofList]

end SpaMigration.Route
