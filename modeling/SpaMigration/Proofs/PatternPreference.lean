import SpaMigration.Proofs.RulePatches

/-!
# The match that is preferred

From one place a pattern may match several stretches, and the search tries them in order. `Prefers` names the
one it tries first, in the form that suits continuations: whatever comes behind it, if that succeeds there, it is
the outcome. A repetition prefers the most rounds, an alternative its left side. Once it is known at each place
of a text whether the pattern matches from there and what it prefers, `Passes` puts together the matches of the
whole text, and with them the text after a replacement.
-/
namespace SpaMigration

namespace Pattern

variable {β : Type} {step next : Matcher β} {c d e : Cursor} {gu gv new : Groups}

/-- From `c` the matcher goes to `d` before any other place. -/
def Prefers (step : Matcher β) (c d : Cursor) (new : Groups) : Prop :=
  ∀ groups (k : Continuation β), (k d (new ++ groups)).isSome → step c groups k = k d (new ++ groups)

/-- From `c` the matcher goes nowhere. -/
def Refuses (step : Matcher β) (c : Cursor) : Prop := ∀ groups (k : Continuation β), step c groups k = none

lemma Prefers.seq (hstep : Prefers step c d gu) (hnext : Prefers next d e gv) :
    Prefers (fun c groups k => step c groups fun c' groups' => next c' groups' k) c e (gv ++ gu) := by
  intro groups k hk
  rw [List.append_assoc] at hk ⊢
  have hrest := hnext (gu ++ groups) k hk
  rw [← hrest] at hk ⊢
  exact hstep groups _ hk

lemma Prefers.exactly (hstep : Prefers step c d gu) {n : Nat} (hnext : Prefers (exactly step n next) d e gv) :
    Prefers (exactly step (n + 1) next) c e (gv ++ gu) := hstep.seq hnext

/-- There are no more rounds where the body does not match. -/
lemma Prefers.upTo_stop (hstep : Refuses step c) (n : Nat) : Prefers (upTo step true n) c c [] := by
  intro groups k _
  cases n with
  | zero => rfl
  | succ n => simp only [upTo, hstep groups, if_true, Option.none_or, List.nil_append]

/-- One more round, if it takes at least a character, is preferred to none. -/
lemma Prefers.upTo_round (hstep : Prefers step c d gu) (hmove : d.index ≠ c.index) {n : Nat}
    (hnext : Prefers (upTo step true n) d e gv) : Prefers (upTo step true (n + 1)) c e (gv ++ gu) := by
  intro groups k hk
  rw [List.append_assoc] at hk ⊢
  have hrest := hnext (gu ++ groups) k hk
  have hround : step c groups (fun c' groups' =>
      if c'.index = c.index then k c' groups' else upTo step true n c' groups' k) =
        k e (gv ++ (gu ++ groups)) := by
    rw [hstep groups _ (by rw [if_neg hmove, hrest]; exact hk), if_neg hmove, hrest]
  simp only [upTo, if_true, hround]
  exact Option.or_of_isSome hk

variable {p q : Pattern} {x : Char} {s w : List Char}

lemma prefers_cat_nil : Prefers (β := β) (cat []).run c c [] := fun _ _ _ => rfl

lemma Prefers.run_cat {ps : List Pattern} (hp : Prefers (β := β) p.run c d gu)
    (hps : Prefers (β := β) (cat ps).run d e gv) : Prefers (β := β) (cat (p :: ps)).run c e (gv ++ gu) :=
  hp.seq hps

lemma prefers_set {chars : CharSet} (hreads : c.Reads [x] d) (hx : chars.contains x = true) :
    Prefers (β := β) (Pattern.set chars).run c d [] := by
  intro groups k _
  have hrest : c.rest = x :: d.rest := hreads.rest
  rw [hreads.unique (Cursor.reads_cons hrest)]
  simp only [run, hrest, hx, if_true, List.nil_append]

/-- A text is matched where it stands. -/
lemma prefers_text {t : String} (hreads : c.Reads t.toList d) : Prefers (β := β) (text t).run c d [] := by
  rw [text]
  generalize t.toList = s at hreads
  induction s generalizing c with
  | nil =>
    rw [hreads.unique (.refl c)]
    exact prefers_cat_nil
  | cons x s ih =>
    obtain ⟨c', hx, hs⟩ := Cursor.Reads.split (u := [x]) hreads
    exact Prefers.run_cat (prefers_set hx (single_contains_iff.mpr rfl)) (ih hs)

lemma Prefers.run_alt_left (hp : Prefers (β := β) p.run c d new) : Prefers (β := β) (Pattern.alt p q).run c d new := by
  intro groups k hk
  simp only [run, hp groups k hk]
  exact Option.or_of_isSome hk

lemma Prefers.run_alt_right (hp : Refuses (β := β) p.run c) (hq : Prefers (β := β) q.run c d new) :
    Prefers (β := β) (Pattern.alt p q).run c d new := by
  intro groups k hk
  simp only [run, hp groups k, hq groups k hk, Option.none_or]

lemma Prefers.run_group {index : Nat} (hp : Prefers (β := β) p.run c d new) (hreads : c.Reads w d) :
    Prefers (β := β) (Pattern.group index p).run c d ((index, w) :: new) := by
  intro groups k hk
  have hbody := hp groups (fun c' groups' => k c' ((index, c.textTo c') :: groups'))
  rw [hreads.textTo] at hbody
  exact hbody hk

/-- The first of the places that a repetition of a set tries is behind the longest stretch. -/
lemma head?_advances {chars : CharSet} {limit : Option Nat} {before : Option Char} {index : Nat}
    {found : List Cursor} (hreads : (⟨before, s, index⟩ : Cursor).Reads w d)
    (hw : ∀ x ∈ w, chars.contains x = true) (hlimit : ∀ most ∈ limit, w.length ≤ most)
    (hstop : (∀ x ∈ d.rest.head?, chars.contains x = false) ∨ limit = some w.length) :
    (advances chars s limit before index found).head? = some d := by
  induction w generalizing s limit before index found with
  | nil =>
    obtain rfl := hreads.unique (.refl _)
    cases s with
    | nil => rfl
    | cons y s =>
      have hy : (limit != some 0 && chars.contains y) = false := by
        rcases hstop with hstop | hstop
        · simp [hstop y rfl]
        · simp [hstop]
      simp [advances, hy]
  | cons x w ih =>
    obtain ⟨c', hx, hrest⟩ := Cursor.Reads.split (u := [x]) hreads
    have hs : s = x :: c'.rest := hx.rest
    obtain ⟨hcontains, hw⟩ := List.forall_mem_cons.mp hw
    have hpositive : limit ≠ some 0 := by
      rintro rfl
      exact absurd (hlimit 0 rfl) (by simp)
    rw [hx.unique (Cursor.reads_cons hs)] at hrest
    simp only [hs, advances, hcontains, bne_iff_ne.mpr hpositive, Bool.and_self, if_true]
    refine ih hrest hw ?_ (hstop.imp_right fun h => ?_)
    · intro most hmost
      obtain ⟨more, hmore, rfl⟩ := Option.map_eq_some_iff.mp hmost
      have := hlimit more hmore
      simp only [List.length_cons] at this
      omega
    · rw [h]
      rfl

/-- A repetition of a set prefers the longest stretch of its characters, within its limit. -/
lemma prefers_repeated_set {chars : CharSet} {least : Nat} {most : Option Nat} (hreads : c.Reads w d)
    (hw : ∀ x ∈ w, chars.contains x = true) (hleast : least ≤ w.length) (hmost : ∀ limit ∈ most, w.length ≤ limit)
    (hstop : (∀ x ∈ d.rest.head?, chars.contains x = false) ∨ most = some w.length) :
    Prefers (β := β) (Pattern.repeated (.set chars) least most true).run c d [] := by
  intro groups k hk
  obtain ⟨others, hadvances⟩ : ∃ others, advances chars c.rest most c.before c.index [] = d :: others :=
    List.head?_eq_some_iff.mp (head?_advances hreads hw hmost hstop)
  have hindex : decide (c.index + least ≤ d.index) = true := by
    rw [hreads.index, decide_eq_true_iff]
    omega
  simp only [run, runSet, hadvances, if_true, List.takeWhile_cons, hindex, firstOf]
  exact Option.or_of_isSome hk

/-- A repetition of a set without a limit prefers to go on to the first character that is not in the set. -/
lemma prefers_unlimited_set {chars : CharSet} {least : Nat} (hreads : c.Reads w d)
    (hw : ∀ x ∈ w, chars.contains x = true) (hleast : least ≤ w.length)
    (hstop : ∀ x ∈ d.rest.head?, chars.contains x = false) :
    Prefers (β := β) (Pattern.repeated (.set chars) least none true).run c d [] :=
  prefers_repeated_set hreads hw hleast (fun _ h => nomatch h) (.inl hstop)

/-- Nothing is found where the pattern matches no stretch. -/
lemma refuses_of_unmatched (h : p.Unmatched c.before c.rest) : Refuses (β := β) p.run c := by
  intro groups k
  rw [Option.eq_none_iff_forall_ne_some]
  intro r hr
  obtain ⟨w, d, new, hreads, hw, -⟩ := (searches_run p).sound hr
  exact h w d.rest new hreads.rest hw

/-- A pattern that begins with a text matches nothing where another text stands. -/
lemma unmatched_cat_text {t : String} (hs : ¬ t.toList <+: s) (before : Option Char) (ps : List Pattern) :
    (cat (text t :: ps)).Unmatched before s := by
  rintro w y groups rfl ⟨u, v, gu, gv, rfl, -, hu, -⟩
  obtain ⟨rfl, -⟩ := matches_text_iff.mp hu
  exact hs ⟨v ++ y, by rw [List.append_assoc]⟩

lemma unmatched_cat_text_cons {t : String} {y : Char} (ht : t.toList.head? = some y) (hx : x ≠ y)
    (before : Option Char) (s : List Char) (ps : List Pattern) : (cat (text t :: ps)).Unmatched before (x :: s) := by
  obtain ⟨ys, hys⟩ := List.head?_eq_some_iff.mp ht
  refine unmatched_cat_text (fun h => hx ?_) before ps
  rw [hys] at h
  exact (List.cons_prefix_cons.mp h).1.symm

lemma unmatched_alt {before : Option Char} (hp : p.Unmatched before s) (hq : q.Unmatched before s) :
    (Pattern.alt p q).Unmatched before s :=
  fun w y groups hs hw => hw.elim (hp w y groups hs) (hq w y groups hs)

lemma unmatched_nil (hp : p.consumes = true) (before : Option Char) : p.Unmatched before [] := by
  intro w y groups hs hw
  exact ne_nil_of_matches hp hw (List.append_eq_nil_iff.mp hs.symm).1

lemma run_repeated {body : Pattern} (hbody : ∀ chars, body ≠ .set chars) (least : Nat) (most : Option Nat)
    (greedy : Bool) (c : Cursor) (groups : Groups) (k : Continuation β) :
    (Pattern.repeated body least most greedy).run c groups k = exactly body.run least
      (upTo body.run greedy (most.elim (c.rest.length + 1) (· - least))) c groups k := by
  cases body with
  | set chars => exact absurd rfl (hbody chars)
  | _ => cases most <;> rfl

/-- A repetition of a text prefers the most rounds, if no more of them can follow. -/
lemma prefers_upTo_text {t : String} (ht : t.toList ≠ []) {n rounds : Nat}
    (hreads : c.Reads (List.replicate n t.toList).flatten d) (hrounds : n ≤ rounds)
    (hstop : n = rounds ∨ ¬ t.toList <+: d.rest) : Prefers (β := β) (upTo (text t).run true rounds) c d [] := by
  induction n generalizing c rounds with
  | zero =>
    rw [hreads.unique (.refl c)] at hstop ⊢
    rcases hstop with rfl | hstop
    · exact fun _ _ _ => rfl
    · refine .upTo_stop (refuses_of_unmatched fun w y groups hrest hw => hstop ?_) rounds
      obtain ⟨rfl, -⟩ := matches_text_iff.mp hw
      exact ⟨y, hrest.symm⟩
  | succ n ih =>
    obtain ⟨rounds, rfl⟩ : ∃ m, rounds = m + 1 := Nat.exists_eq_add_one.mpr (by omega)
    rw [List.replicate_succ, List.flatten_cons] at hreads
    obtain ⟨c', hfirst, hrest⟩ := hreads.split
    have hmove : c'.index ≠ c.index := fun h => ht (hfirst.index_eq_iff.mp h)
    exact Prefers.upTo_round (prefers_text hfirst) hmove
      (ih hrest (by omega) (hstop.imp_left fun h => by omega))

lemma prefers_exactly_text {t : String} {n : Nat} (hreads : c.Reads (List.replicate n t.toList).flatten d)
    (hnext : Prefers next d e gv) : Prefers (exactly (text t).run n next) c e gv := by
  induction n generalizing c with
  | zero =>
    rw [hreads.unique (.refl c)] at hnext
    exact hnext
  | succ n ih =>
    rw [List.replicate_succ, List.flatten_cons] at hreads
    obtain ⟨c', hfirst, hrest⟩ := hreads.split
    have hall := (prefers_text hfirst).exactly (ih hrest)
    rwa [List.append_nil] at hall

/-- A text is repeated as often as it stands there, within the limit. -/
lemma prefers_repeated_text {t : String} (ht : t.toList ≠ []) {least n : Nat} {most : Option Nat}
    (hreads : c.Reads (List.replicate n t.toList).flatten d) (hleast : least ≤ n) (hmost : ∀ limit ∈ most, n ≤ limit)
    (hstop : most = some n ∨ ¬ t.toList <+: d.rest) :
    Prefers (β := β) (Pattern.repeated (text t) least most true).run c d [] := by
  have hbody : ∀ chars, text t ≠ .set chars := by
    intro chars
    rw [text]
    cases t.toList.map fun c => Pattern.set (.single c) <;> simp [cat]
  obtain ⟨m, rfl⟩ := Nat.exists_eq_add_of_le hleast
  rw [List.replicate_add, List.flatten_append] at hreads
  obtain ⟨c', hfirst, hrest⟩ := hreads.split
  have hlength : m ≤ (List.replicate m t.toList).flatten.length := by
    have hpos : 0 < t.toList.length := List.length_pos_iff.mpr ht
    simpa using Nat.le_mul_of_pos_right m hpos
  have hbound : m ≤ most.elim (c.rest.length + 1) (· - least) := by
    cases most with
    | none =>
      have hc : c.rest.length = _ := congrArg List.length hfirst.rest
      have hc' : c'.rest.length = _ := congrArg List.length hrest.rest
      simp only [List.length_append] at hc hc'
      simp only [Option.elim_none]
      omega
    | some limit =>
      have := hmost limit rfl
      simp only [Option.elim_some]
      omega
  have hend : m = most.elim (c.rest.length + 1) (· - least) ∨ ¬ t.toList <+: d.rest :=
    hstop.imp_left fun h => by simp [h]
  intro groups k hk
  rw [run_repeated hbody]
  exact prefers_exactly_text hfirst (prefers_upTo_text ht hrest hbound hend) groups k hk

lemma matchAt?_of_prefers (h : Prefers (β := Match) p.run c d new) : p.matchAt? c = some ⟨c, d, new⟩ := by
  have hmatch := h [] (fun c' groups => some ⟨c, c', groups⟩) rfl
  rwa [List.append_nil] at hmatch

lemma matchAt?_of_unmatched (h : p.Unmatched c.before c.rest) : p.matchAt? c = none :=
  refuses_of_unmatched h [] _

/-- The matches of the pattern from a place on, where it is known at each place whether it matches. -/
inductive Passes (p : Pattern) : Cursor → List Match → Prop
  | done {c : Cursor} (hrest : c.rest = []) : Passes p c []
  | skip {c d : Cursor} {x : Char} {found : List Match} (hreads : c.Reads [x] d)
      (hnone : p.Unmatched c.before c.rest) (h : Passes p d found) : Passes p c found
  | found {c d : Cursor} {new : Groups} {found : List Match} (hprefers : Prefers (β := Match) p.run c d new)
      (h : Passes p d found) : Passes p c (⟨c, d, new⟩ :: found)

variable {found : List Match}

/-- The next match of a pattern that takes at least a character is the next one there is. -/
lemma next?_eq (hp : p.consumes = true) (c : Cursor) (lastEnd : Option Nat) :
    p.next? c lastEnd = p.findFrom? c.rest c.before c.index := by
  cases hfind : p.findFrom? c.rest c.before c.index with
  | none => simp only [next?, hfind]
  | some m =>
    obtain ⟨-, w, -, hw, hmatch, -⟩ : p.Finds (fun _ => []) c m := finds_of_findFrom?_eq_some hfind
    have hne : ¬ m.start.index = m.stop.index := fun h => ne_nil_of_matches hp hmatch (hw.index_eq_iff.mp h.symm)
    simp only [next?, hfind, hne, false_and, if_false]

lemma findFrom?_of_unmatched (hreads : c.Reads [x] d) (hnone : p.Unmatched c.before c.rest) :
    p.findFrom? c.rest c.before c.index = p.findFrom? d.rest d.before d.index := by
  obtain ⟨before, rest, index⟩ := c
  obtain rfl : rest = x :: d.rest := hreads.rest
  rw [hreads.unique (Cursor.reads_cons rfl)]
  simp only [findFrom?, matchAt?_of_unmatched hnone, Option.none_or]

lemma findFrom?_of_prefers (h : Prefers (β := Match) p.run c d new) :
    p.findFrom? c.rest c.before c.index = some ⟨c, d, new⟩ := by
  obtain ⟨before, rest, index⟩ := c
  have hmatch := matchAt?_of_prefers h
  cases rest with
  | nil => exact hmatch
  | cons x rest => simp only [findFrom?, hmatch, Option.some_or]

lemma matchesFrom_eq (hp : p.consumes = true) (h : p.Passes c found) {steps : Nat} (hsteps : c.rest.length < steps)
    (lastEnd : Option Nat) : p.matchesFrom steps c lastEnd = found := by
  induction h generalizing steps lastEnd with
  | @done c hrest =>
    have hnone : p.findFrom? c.rest c.before c.index = none := by
      have hempty := matchAt?_of_unmatched (c := c) (hrest ▸ unmatched_nil hp c.before)
      obtain ⟨before, rest, index⟩ := c
      cases hrest
      exact hempty
    cases steps with
    | zero => rfl
    | succ steps => simp only [matchesFrom, next?_eq hp, hnone]
  | @skip c d x found hreads hnone h ih =>
    have hlength : c.rest.length = d.rest.length + 1 := congrArg List.length hreads.rest
    have hrest : p.matchesFrom steps d lastEnd = found := ih (by omega) lastEnd
    cases steps with
    | zero => exact absurd hsteps (Nat.not_lt_zero _)
    | succ steps =>
      simp only [matchesFrom, next?_eq hp] at hrest ⊢
      rw [findFrom?_of_unmatched hreads hnone]
      exact hrest
  | @found c d new found hprefers h ih =>
    obtain ⟨-, w, hreads, hmatch⟩ := matchAt?_eq_some (matchAt?_of_prefers hprefers)
    have hpos : 0 < w.length := List.length_pos_iff.mpr (ne_nil_of_matches hp hmatch)
    have hlength : c.rest.length = w.length + d.rest.length := by
      rw [hreads.rest, List.length_append]
    cases steps with
    | zero => exact absurd hsteps (Nat.not_lt_zero _)
    | succ steps =>
      simp only [matchesFrom, next?_eq hp, findFrom?_of_prefers hprefers]
      rw [ih (by omega)]

/-- The matches of a text are those that a pass over it meets. -/
theorem Passes.findAll_eq (hp : p.consumes = true) {t : List Char} (h : p.Passes (Cursor.start t) found) :
    p.findAll t = found := matchesFrom_eq hp h (by simp only [Cursor.start]; omega) none

/-- The first match behind a place stands at or after it. -/
lemma Passes.exists_reads {m : Match} (h : p.Passes c (m :: found)) : ∃ u, c.Reads u m.start := by
  generalize hall : m :: found = all at h
  induction h with
  | done => cases hall
  | skip hreads _ _ ih =>
    obtain ⟨u, hu⟩ := ih hall
    exact ⟨_, hreads.trans hu⟩
  | found =>
    cases hall
    exact ⟨[], .refl _⟩

/-- What stands in front of the matches is kept. -/
lemma Passes.spliceFrom_skip (h : p.Passes d found) (hreads : c.Reads w d) (replacement : Match → List Char) :
    spliceFrom replacement c found = w ++ spliceFrom replacement d found := by
  cases found with
  | nil => exact hreads.rest
  | cons m found =>
    obtain ⟨u, hu⟩ := h.exists_reads
    simp only [spliceFrom, (hreads.trans hu).textTo, hu.textTo, List.append_assoc]

/-- A stretch of characters that no match starts with adds nothing to the matches. -/
lemma Passes.skipAll (hw : ∀ x ∈ w, ∀ before s, p.Unmatched before (x :: s)) (hreads : c.Reads w d)
    (h : p.Passes d found) : p.Passes c found := by
  induction w generalizing c with
  | nil => rwa [← hreads.unique (.refl c)]
  | cons x w ih =>
    obtain ⟨hx, hw⟩ := List.forall_mem_cons.mp hw
    obtain ⟨c', hfirst, hrest⟩ := Cursor.Reads.split (u := [x]) hreads
    exact .skip hfirst (hfirst.rest ▸ hx c.before c'.rest) (ih hw hrest)

lemma spliceFrom_found (replacement : Match → List Char) (c d : Cursor) (new : Groups) (found : List Match) :
    spliceFrom replacement c (⟨c, d, new⟩ :: found) = replacement ⟨c, d, new⟩ ++ spliceFrom replacement d found := by
  simp [spliceFrom, (Cursor.Reads.refl c).textTo]

section Pieces

variable {α : Type} {written : α → List Char} {groupsOf : α → Option Groups}

/-- A pass gets over each piece of a text at once: it matches the piece as a whole, with these groups, or no
match starts in it. -/
def TakesPieces (p : Pattern) (written : α → List Char) (groupsOf : α → Option Groups) : Prop :=
  ∀ piece (rest : List α) (c d : Cursor), c.Reads (written piece) d → d.rest = rest.flatMap written →
    match groupsOf piece with
    | none => ∀ found, p.Passes d found → p.Passes c found
    | some groups => Prefers (β := Match) p.run c d groups

/-- The pieces of a text with those that are matched replaced. -/
def putPieces (written : α → List Char) (groupsOf : α → Option Groups) (put : Groups → List Char)
    (pieces : List α) : List Char :=
  pieces.flatMap fun piece => (groupsOf piece).elim (written piece) put

lemma TakesPieces.exists_passes (h : p.TakesPieces written groupsOf) (pieces : List α)
    (hc : c.rest = pieces.flatMap written) : ∃ found, p.Passes c found ∧
      found.map (·.groups) = pieces.filterMap groupsOf ∧
      ∀ put : Groups → List Char,
        spliceFrom (fun m => put m.groups) c found = putPieces written groupsOf put pieces := by
  induction pieces generalizing c with
  | nil => exact ⟨[], .done hc, rfl, fun _ => hc⟩
  | cons piece pieces ih =>
    rw [List.flatMap_cons] at hc
    obtain ⟨d, hreads, hd⟩ := Cursor.exists_reads hc
    obtain ⟨found, hpasses, hgroups, hsplice⟩ := ih hd
    have hpiece := h piece pieces c d hreads hd
    cases hgroupsOf : groupsOf piece with
    | none =>
      rw [hgroupsOf] at hpiece
      refine ⟨found, hpiece found hpasses, by rw [hgroups, List.filterMap_cons_none hgroupsOf], fun put => ?_⟩
      rw [hpasses.spliceFrom_skip hreads, hsplice]
      simp only [putPieces, List.flatMap_cons, hgroupsOf, Option.elim_none]
    | some groups =>
      rw [hgroupsOf] at hpiece
      refine ⟨_, .found hpiece hpasses, ?_, fun put => ?_⟩
      · rw [List.map_cons, hgroups, List.filterMap_cons_some hgroupsOf]
      · rw [spliceFrom_found, hsplice]
        simp only [putPieces, List.flatMap_cons, hgroupsOf, Option.elim_some]

/-- The matches of a text made of such pieces are the pieces that are matched. -/
theorem TakesPieces.groups_findAll (h : p.TakesPieces written groupsOf) (hp : p.consumes = true)
    (pieces : List α) :
    (p.findAll (pieces.flatMap written)).map (·.groups) = pieces.filterMap groupsOf := by
  obtain ⟨found, hpasses, hgroups, -⟩ := h.exists_passes (c := Cursor.start (pieces.flatMap written)) pieces rfl
  rw [hpasses.findAll_eq hp, hgroups]

/-- A text made of such pieces is replaced piece by piece. -/
theorem TakesPieces.replaceAll_eq (h : p.TakesPieces written groupsOf) (hp : p.consumes = true)
    (put : Groups → List Char) (pieces : List α) :
    p.replaceAll (fun m => put m.groups) (pieces.flatMap written) = putPieces written groupsOf put pieces := by
  obtain ⟨found, hpasses, -, hsplice⟩ := h.exists_passes (c := Cursor.start (pieces.flatMap written)) pieces rfl
  rw [replaceAll, hpasses.findAll_eq hp, hsplice]

end Pieces

end Pattern

end SpaMigration
