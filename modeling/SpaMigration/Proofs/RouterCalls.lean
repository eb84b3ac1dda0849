import SpaMigration.Proofs.SecondPass

/-!
# Calls of the old router

Three of the built-in rules convert calls of the old router: the push onto the history, the step back, and the
hook for the current address. No rule behind them brings such a call up again, whichever categories of rules the
options switch off besides. So once they have been applied a call is left only where a word character stands in
front of it, that is, where it is the end of another name.
-/
namespace SpaMigration

namespace Pattern

/-- A text is behind a word character wherever it stands, if it starts with one and is not found as a word. -/
lemma word_before_of_not_occursIn {call : String} {before after : List Char}
    (hcall : call.toList.head?.any Text.isWordChar = true)
    (h : (cat [boundary, text call]).occursIn (before ++ (call.toList ++ after)) = false) :
    before.getLast?.any Text.isWordChar = true := by
  by_contra hbefore
  have hlast : (lastOr none before).any Text.isWordChar = false := by
    cases hcases : before with
    | nil => rfl
    | cons c cs =>
      rw [lastOr_of_ne_nil none (List.cons_ne_nil c cs), ← hcases]
      simpa using hbefore
  have hboundary : boundary.Matches (lastOr none before) [] (headOr call.toList after.head?) [] := by
    refine ⟨rfl, rfl, ?_⟩
    obtain ⟨first, rest, hfirst⟩ := List.exists_cons_of_ne_nil (l := call.toList) fun hnil => by simp [hnil] at hcall
    rw [holdsBetween_wordBoundary, hlast, hfirst]
    simpa [hfirst, headOr] using hcall
  have hmatch : (cat [boundary, text call]).Matches (lastOr none before) call.toList after.head? [] :=
    ⟨[], call.toList, [], [], rfl, rfl, by simpa using hboundary, call.toList, [], [], [], by simp, rfl,
      matches_text_iff.mpr ⟨rfl, rfl⟩, rfl, rfl⟩
  rw [← Bool.not_eq_true, occursIn_iff] at h
  exact h ⟨before, call.toList, after, [], by simp, hmatch⟩

end Pattern

namespace RuleSet

open Rule

/-- The calls of the old router that the rules convert wherever they stand. -/
def routerCalls : List String := ["router.push(", "router.back()", "usePathname()"]

/-- Where the rules of the router are switched on, a pass leaves no call of the old router: what is spelled like
one is the end of a longer name. -/
theorem router_calls_gone {options : Options} (hrouter : options.useRouter = true) (text : List Char) :
    ∀ call ∈ routerCalls, ∀ before after,
      ((forOptions options).applyAll text).text = before ++ (call.toList ++ after) →
        ∃ c, before.getLast? = some c ∧ Text.isWordChar c = true := by
  have hkept : ∀ rule : Rule, rule.category = .routing →
      ((options.transformDataFetching || rule.category != .dataFetching) &&
        (options.useRouter || rule.category != .routing)) = true := by
    intro rule hcategory
    rw [hcategory, hrouter, Bool.true_or, Bool.and_true]
    exact Bool.or_true _
  have hpush : routerPush.appliesTo ((forOptions options).applyAll text).text = false :=
    not_appliesTo_filter_of_drop (n := 1) rfl (by decide) _ (hkept routerPush rfl) text
  have hback : routerBack.appliesTo ((forOptions options).applyAll text).text = false :=
    not_appliesTo_filter_of_drop (n := 3) rfl (by decide) _ (hkept routerBack rfl) text
  have hpathname : pathnameHook.appliesTo ((forOptions options).applyAll text).text = false :=
    not_appliesTo_filter_of_drop (n := 6) rfl (by decide) _ (hkept pathnameHook rfl) text
  intro call hcall before after htext
  rw [htext] at hpush hback hpathname
  rw [← Option.any_eq_true]
  simp only [routerCalls, List.mem_cons, List.not_mem_nil, or_false] at hcall
  rcases hcall with rfl | rfl | rfl
  · exact Pattern.word_before_of_not_occursIn (by decide) hpush
  · exact Pattern.word_before_of_not_occursIn (by decide) hback
  · exact Pattern.word_before_of_not_occursIn (by decide) hpathname

/-- Calls of the router, of a variable whose name ends alike, and of a hook with a longer name. -/
def mixedCalls : List Char := "myrouter.push('/'); router.push(usePathname()); reusePathname(); router.back();".toList

theorem router_calls_gone_mixedCalls :
    let options : Options := { transformDataFetching := false }
    options.useRouter = true ∧
    ((forOptions options).applyAll mixedCalls).text =
      "my".toList ++ ("router.push(".toList ++
        "'/'); navigate(useLocation().pathname); reusePathname(); navigate(-1);".toList) ∧
    ∃ c, "my".toList.getLast? = some c ∧ Text.isWordChar c = true := by
  intro options
  have hrouter : options.useRouter = true := rfl
  have htext : ((forOptions options).applyAll mixedCalls).text =
      "my".toList ++ ("router.push(".toList ++
        "'/'); navigate(useLocation().pathname); reusePathname(); navigate(-1);".toList) := by
    unfold mixedCalls
    rw [String.toList_ofList, String.toList_ofList, String.toList_ofList, String.toList_ofList]
    set_option maxRecDepth 1000 in
    decide
  exact ⟨hrouter, htext, router_calls_gone hrouter mixedCalls "router.push(" (by decide) _ _ htext⟩

end RuleSet

end SpaMigration
